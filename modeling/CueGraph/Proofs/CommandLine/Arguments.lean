import CueGraph.CommandLine.Arguments
import CueGraph.Proofs.Fallible

/-!
# What arguments choose

Where the arguments lead to a run, an option without a value is chosen exactly if some argument in
front of two dashes names it (`flag_of_read`). The arguments that name a file for the script can be
left out, with the values of these (`withoutOut`); what is left is read as the same choices without
the file (`read_withoutOut`).
-/

namespace CueGraph

namespace Argument

variable {s : String} {arguments rest : List String} {as : List Argument}

theorem classifyAll_cons (hs : s ≠ "--") :
    classifyAll (s :: rest) = .ok as ↔
      ∃ a more, classify s = .ok a ∧ classifyAll rest = .ok more ∧ as = a :: more := by
  simp only [classifyAll.eq_3 s rest hs, bind_eq_ok, pure, Except.pure, Except.ok.injEq]
  constructor
  · rintro ⟨a, ha, more, hmore, rfl⟩
    exact ⟨a, more, ha, hmore, rfl⟩
  · rintro ⟨a, more, ha, hmore, rfl⟩
    exact ⟨a, ha, more, hmore, rfl⟩

/-- What does not begin with a dash is plain. -/
theorem classify_plain (h : s.startsWith "-" = false) : classify s = .ok (.plain s) := by
  rw [classify, h]
  rfl

/-- The full spelling of an option names it. -/
theorem classify_spelling {o : OptionName} (h : (s, o) ∈ OptionName.spellings) :
    classify s = .ok (.named o none) := by
  have hall : ∀ spelling ∈ OptionName.spellings,
      (!spelling.1.startsWith "-" || spelling.1 == "-") = false ∧
        OptionName.spellings.lookup spelling.1 = some spelling.2 := by
    decide +kernel
  obtain ⟨hdash, hlookup⟩ := hall _ h
  rw [classify, if_neg (by rw [hdash]; exact Bool.false_ne_true), spelled?, hlookup]

/-- The arguments without those that name a file for the script, and the values of these. -/
def dropOut : List Argument → List Argument
  | [] => []
  | .named .out (some _) :: rest => dropOut rest
  | .named .out none :: .plain _ :: rest => dropOut rest
  | a :: rest => a :: dropOut rest

/-- A value follows where an argument announces a file for the script. -/
def OutValued : List Argument → Prop
  | [] => True
  | .named .out none :: rest => (∃ value more, rest = .plain value :: more) ∧ OutValued rest
  | _ :: rest => OutValued rest

/-- The argument has nothing to do with a file for the script. -/
def Kept (a : Argument) : Prop := ∀ value, a ≠ .named .out value

theorem kept_plain (text : String) : Kept (.plain text) := fun _ h => Argument.noConfusion h

theorem kept_plainFromHere : Kept .plainFromHere := fun _ h => Argument.noConfusion h

theorem kept_named {o : OptionName} (ho : o ≠ .out) (value : Option String) :
    Kept (.named o value) := fun _ h => ho (Argument.named.inj h).1

theorem dropOut_kept {a : Argument} (ha : Kept a) (rest : List Argument) :
    dropOut (a :: rest) = a :: dropOut rest := by
  cases a with
  | named o value =>
    cases o with
    | out => exact absurd rfl (ha value)
    | _ => rfl
  | _ => rfl

theorem outValued_cons {a : Argument} (ha : a ≠ .named .out none) {rest : List Argument} :
    OutValued (a :: rest) ↔ OutValued rest := by
  cases a with
  | named o value =>
    cases o with
    | out =>
      cases value with
      | none => exact absurd rfl ha
      | some => rfl
    | _ => rfl
  | _ => rfl

theorem dropOut_map_plain (texts : List String) :
    dropOut (texts.map .plain) = texts.map .plain := by
  induction texts with
  | nil => rfl
  | cons text rest ih => rw [List.map_cons, dropOut_kept (kept_plain text), ih]

end Argument

namespace Choices

/-- Whether an option that takes no value is chosen. -/
def flag (c : Choices) : OptionName → Bool
  | .noWrap => c.noWrap
  | .compact => c.compact
  | .strict => c.strict
  | _ => false

variable {o f : OptionName}

theorem flag_setValue (c : Choices) (o : OptionName) (value : String) (f : OptionName) :
    (c.setValue o value).flag f = c.flag f := by
  cases o <;> cases f <;> rfl

theorem flag_setFlag (c : Choices) (ho : o.takesValue = false) (hhelp : o ≠ .help) :
    (c.setFlag o).flag f = true ↔ c.flag f = true ∨ o = f := by
  cases o <;> cases f <;> simp_all [setFlag, flag, OptionName.takesValue]

end Choices

namespace Draft

open Argument

variable {d d' : Draft} {as : List Argument} {f : OptionName}

/-- An argument that has no part to play is noted for good. -/
theorem extras_of_read (h : d.read as = .ok d') (hnone : d'.extras = []) : d.extras = [] := by
  fun_induction Draft.read d as with
  | case1 d =>
    obtain rfl := Except.ok.inj h
    exact hnone
  | case2 | case5 | case7 =>
    rename_i ih
    have hnote := ih h
    simp [note] at hnote
  | case9 | case10 | case12 => cases h
  | case3 | case4 | case6 | case8 | case11 | case13 =>
    rename_i ih
    exact ih h

theorem not_read_note (text : String) (hnone : d'.extras = []) :
    (d.note text).read as ≠ .ok d' := by
  intro h
  have hnote := extras_of_read h hnone
  simp [note] at hnote

/-- An option without a value is chosen exactly if an argument names it. -/
theorem flag_read (h : d.read as = .ok d') (hf : f.takesValue = false) :
    d'.choices.flag f = true ↔ d.choices.flag f = true ∨ .named f none ∈ as := by
  fun_induction Draft.read d as with
  | case1 d =>
    obtain rfl := Except.ok.inj h
    simp
  | case9 | case10 | case12 => cases h
  | case8 d o value rest ho ih => simp [ih h, Choices.flag_setValue]
  | case11 d o hhelp ho value rest ih =>
    have hne : f ≠ o := by
      rintro rfl
      rw [hf] at ho
      cases ho
    simp [ih h, Choices.flag_setValue, hne]
  | case13 d o rest hhelp ho ih =>
    have hset := Choices.flag_setFlag d.choices (Bool.eq_false_iff.2 ho) hhelp (f := f)
    have hsame : (o = f) = (Argument.named f none = .named o none) := by simp [eq_comm (a := f)]
    rw [ih h, hset, List.mem_cons, or_assoc, hsame]
  | case2 | case3 | case4 | case5 | case6 | case7 =>
    rename_i ih
    simp [ih h, note]

theorem outValued_of_read (h : d.read as = .ok d') : OutValued as := by
  fun_induction Draft.read d as with
  | case1 => trivial
  | case9 | case10 | case12 => cases h
  | case11 d o hhelp ho value rest ih =>
    have hrest : OutValued (.plain value :: rest) := ih h
    by_cases hout : o = .out
    · subst hout
      exact ⟨⟨value, rest, rfl⟩, hrest⟩
    · exact (outValued_cons (kept_named hout none none)).2 hrest
  | case13 d o rest hhelp ho ih =>
    have hout : o ≠ .out := by
      rintro rfl
      exact ho rfl
    exact (outValued_cons (kept_named hout none none)).2 (ih h)
  | case2 | case3 | case4 | case5 | case6 | case7 | case8 =>
    rename_i ih
    exact (outValued_cons (by simp)).2 (ih h)

/-! ## Leaving out the file for the script -/

theorem read_plain {text : String} (hinput : d.input = none)
    (hrest : ¬∃ more, as = .plainFromHere :: more) :
    d.read (.plain text :: as) = read { d with input := some text } as := by
  obtain ⟨input, choices, extras⟩ := d
  obtain rfl : input = none := hinput
  cases as with
  | nil => rfl
  | cons a more =>
    cases a with
    | plainFromHere => exact absurd ⟨more, rfl⟩ hrest
    | _ => rfl

theorem read_plain_dashes {text : String} (hinput : d.input = none) :
    d.read (.plain text :: .plainFromHere :: as) = read { d with input := some text } as := by
  obtain ⟨input, choices, extras⟩ := d
  obtain rfl : input = none := hinput
  rfl

theorem read_dashes {text : String} (hinput : d.input = none) :
    d.read (.plainFromHere :: .plain text :: as) = read { d with input := some text } as := by
  obtain ⟨input, choices, extras⟩ := d
  obtain rfl : input = none := hinput
  rfl

theorem read_dashes_late {text : String} (hinput : d.input = some text) :
    d.read (.plainFromHere :: as) = (d.note "--").read as := by
  obtain ⟨input, choices, extras⟩ := d
  obtain rfl : input = some text := hinput
  rfl

theorem read_value {o : OptionName} {value : String} (hhelp : o ≠ .help)
    (ho : o.takesValue = true) : d.read (.named o none :: .plain value :: as) =
      read { d with choices := d.choices.setValue o value } as := by
  cases o with
  | help => exact absurd rfl hhelp
  | out | level => rfl
  | noWrap | compact | strict => cases ho

theorem read_flag {o : OptionName} (hhelp : o ≠ .help) (ho : ¬o.takesValue = true) :
    d.read (.named o none :: as) = read { d with choices := d.choices.setFlag o } as := by
  cases o with
  | help => exact absurd rfl hhelp
  | out | level => exact absurd rfl ho
  | noWrap | compact | strict => rw [read.eq_def]; rfl

/-- The draft of arguments that name no file for the script. -/
def withoutOut (d : Draft) : Draft := { d with choices.out := none }

theorem withoutOut_setValue {o : OptionName} (hout : o ≠ .out) (d : Draft) (value : String) :
    ({ d with choices := d.choices.setValue o value } : Draft).withoutOut =
      { d.withoutOut with choices := d.withoutOut.choices.setValue o value } := by
  cases o with
  | out => exact absurd rfl hout
  | _ => rfl

theorem withoutOut_setFlag (d : Draft) (o : OptionName) :
    ({ d with choices := d.choices.setFlag o } : Draft).withoutOut =
      { d.withoutOut with choices := d.withoutOut.choices.setFlag o } := by
  cases o <;> rfl

/-- Where every argument has its part to play, those that name no file for the script play the same
parts by themselves. -/
theorem read_dropOut (h : d.read as = .ok d') (hnone : d'.extras = []) :
    d.withoutOut.read (dropOut as) = .ok d'.withoutOut := by
  fun_induction Draft.read d as with
  | case1 d =>
    obtain rfl := Except.ok.inj h
    rfl
  | case2 | case5 | case7 => exact absurd h (not_read_note _ hnone)
  | case9 | case10 | case12 => cases h
  | case3 d text rest hinput ih =>
    have hnext : d.withoutOut.input = none := hinput
    rw [dropOut_kept (kept_plain text), dropOut_kept kept_plainFromHere, read_plain_dashes hnext]
    exact ih h
  | case4 d text rest hdashes hinput ih =>
    have hnext : d.withoutOut.input = none := hinput
    have hrest := ih h
    rw [dropOut_kept (kept_plain text)]
    by_cases hfirst : ∃ more, dropOut rest = .plainFromHere :: more
    · -- dashes that come next now were behind an option before, where they play no part
      obtain ⟨more, hmore⟩ := hfirst
      rw [hmore, read_dashes_late rfl] at hrest
      exact absurd hrest (not_read_note _ hnone)
    · rw [read_plain hnext hfirst]
      exact hrest
  | case6 d text rest hinput ih =>
    have hnext : d.withoutOut.input = none := hinput
    rw [dropOut_kept kept_plainFromHere, dropOut_kept (kept_plain text), read_dashes hnext]
    exact ih h
  | case8 d o value rest ho ih =>
    by_cases hout : o = .out
    · subst hout
      exact ih h
    · rw [dropOut_kept (kept_named hout _), read, if_pos ho, ← withoutOut_setValue hout]
      exact ih h
  | case11 d o hhelp ho value rest ih =>
    by_cases hout : o = .out
    · subst hout
      exact ih h
    · rw [dropOut_kept (kept_named hout _), dropOut_kept (kept_plain value), read_value hhelp ho,
        ← withoutOut_setValue hout]
      exact ih h
  | case13 d o rest hhelp ho ih =>
    have hout : o ≠ .out := by
      rintro rfl
      exact ho rfl
    rw [dropOut_kept (kept_named hout _), read_flag hhelp ho, ← withoutOut_setFlag]
    exact ih h

end Draft

namespace Arguments

open Argument

variable {arguments : List String} {args : Arguments} {as : List Argument} {f : OptionName}

theorem read_eq_ok_iff : read arguments = .ok args ↔ ∃ as d, classifyAll arguments = .ok as ∧
    Draft.read {} as = .ok d ∧ d.input = some args.input ∧ d.extras = [] ∧
      d.choices = args.toChoices := by
  simp only [read, bind_eq_ok]
  constructor
  · rintro ⟨as, has, d, hd, h⟩
    refine ⟨as, d, has, hd, ?_⟩
    split at h
    · cases h
    · next input hinput hextras =>
      obtain rfl := Except.ok.inj h
      exact ⟨hinput, hextras, rfl⟩
    · cases h
  · rintro ⟨as, d, has, hd, hinput, hextras, hchoices⟩
    refine ⟨as, has, d, hd, ?_⟩
    rw [hinput, hextras, hchoices]

/-! ## Options without a value -/

/-- Some argument in front of two dashes names the option. -/
def Gives (f : OptionName) (arguments : List String) : Prop :=
  ∃ s ∈ arguments.takeWhile (· != "--"), classify s = .ok (.named f none)

theorem named_mem_iff (h : classifyAll arguments = .ok as) :
    .named f none ∈ as ↔ Gives f arguments := by
  induction arguments generalizing as with
  | nil =>
    obtain rfl := Except.ok.inj h
    simp [Gives]
  | cons s rest ih =>
    by_cases hs : s = "--"
    · subst hs
      obtain rfl := Except.ok.inj h
      simp [Gives]
    · obtain ⟨a, more, ha, hmore, rfl⟩ := (classifyAll_cons hs).1 h
      have htake : (s :: rest).takeWhile (· != "--") = s :: rest.takeWhile (· != "--") :=
        List.takeWhile_cons_of_pos (by simpa using hs)
      have hhead : (Argument.named f none = a) = (classify s = .ok (.named f none)) := by
        simp [ha, eq_comm]
      simp only [List.mem_cons, ih hmore, Gives, htake, hhead, exists_eq_or_imp]

/-- An option without a value is chosen exactly if the arguments give it. -/
theorem flag_of_read (h : read arguments = .ok args) (hf : f.takesValue = false) :
    args.flag f = true ↔ Gives f arguments := by
  obtain ⟨as, d, has, hd, -, -, hchoices⟩ := read_eq_ok_iff.1 h
  have hfresh : ({} : Draft).choices.flag f = false := by cases f <;> rfl
  rw [← hchoices, Draft.flag_read hd hf, hfresh, named_mem_iff has]
  simp

/-! ## Arguments that name no file for the script -/

/-- The arguments without those that name a file for the script, and the values of these. What
follows two dashes is kept as it is. -/
def withoutOut : List String → List String
  | [] => []
  | "--" :: rest => "--" :: rest
  | s :: rest =>
    match classify s, rest with
    | .ok (.named .out (some _)), rest => withoutOut rest
    | .ok (.named .out none), _ :: rest => withoutOut rest
    | _, rest => s :: withoutOut rest

theorem withoutOut_kept {s : String} {a : Argument} (hs : s ≠ "--") (ha : classify s = .ok a)
    (hkept : Kept a) (rest : List String) : withoutOut (s :: rest) = s :: withoutOut rest := by
  apply withoutOut.eq_5 s rest hs
  · intro value h
    exact hkept _ (Except.ok.inj (ha.symm.trans h))
  · intro next last h _
    exact hkept _ (Except.ok.inj (ha.symm.trans h))

theorem classifyAll_withoutOut (h : classifyAll arguments = .ok as) (hvalued : OutValued as) :
    classifyAll (withoutOut arguments) = .ok (dropOut as) := by
  induction arguments using withoutOut.induct generalizing as with
  | case1 =>
    obtain rfl := Except.ok.inj h
    rfl
  | case2 rest =>
    obtain rfl := Except.ok.inj h
    rw [dropOut_kept kept_plainFromHere, dropOut_map_plain]
    rfl
  | case3 s hs value rest hout ih =>
    obtain ⟨a, more, ha, hmore, rfl⟩ := (classifyAll_cons hs).1 h
    obtain rfl := Except.ok.inj (hout.symm.trans ha)
    have hrest := ih hmore hvalued
    rw [withoutOut.eq_3 s rest hs value hout]
    exact hrest
  | case4 s hs next rest hout ih =>
    obtain ⟨a, more, ha, hmore, rfl⟩ := (classifyAll_cons hs).1 h
    obtain rfl := Except.ok.inj (hout.symm.trans ha)
    obtain ⟨⟨value, others, rfl⟩, hrest⟩ := hvalued
    rw [withoutOut.eq_4 s next rest hs hout]
    by_cases hnext : next = "--"
    · subst hnext
      cases hmore
    · obtain ⟨b, last, hb, hlast, hsame⟩ := (classifyAll_cons hnext).1 hmore
      obtain ⟨rfl, rfl⟩ := List.cons.inj hsame
      have hothers := ih hlast ((outValued_cons (kept_plain value none)).1 hrest)
      exact hothers
  | case5 s hs rest hattached hapart ih =>
    obtain ⟨a, more, ha, hmore, rfl⟩ := (classifyAll_cons hs).1 h
    have hkept : Kept a := by
      rintro (_ | value) rfl
      · -- the value that has to follow would be left out too
        obtain ⟨⟨value, others, rfl⟩, -⟩ := hvalued
        cases rest with
        | nil => cases hmore
        | cons next last => exact hapart next last ha rfl
      · exact hattached value ha
    rw [withoutOut_kept hs ha hkept, dropOut_kept hkept, classifyAll_cons hs]
    exact ⟨a, dropOut more, ha, ih hmore ((outValued_cons (hkept none)).1 hvalued), rfl⟩

theorem read_withoutOut (h : read arguments = .ok args) :
    read (withoutOut arguments) = .ok { args with out := none } := by
  obtain ⟨as, d, has, hd, hinput, hextras, hchoices⟩ := read_eq_ok_iff.1 h
  refine read_eq_ok_iff.2 ⟨dropOut as, d.withoutOut,
    classifyAll_withoutOut has (Draft.outValued_of_read hd), Draft.read_dropOut hd hextras, hinput,
    hextras, ?_⟩
  rw [Draft.withoutOut, hchoices]

/-- A document, to be compiled without empty lines between the entries. -/
theorem read_compact :
    read ["g.json", "--compact"] = .ok { input := "g.json", compact := true } := by
  have hcompact : classifyAll ["--compact"] = .ok [.named .compact none] :=
    (classifyAll_cons (by decide)).2 ⟨_, _, classify_spelling (by decide +kernel), rfl, rfl⟩
  have hall : classifyAll ["g.json", "--compact"] = .ok [.plain "g.json", .named .compact none] :=
    (classifyAll_cons (by decide)).2 ⟨_, _, classify_plain (by decide +kernel), hcompact, rfl⟩
  rw [read, hall]
  rfl

end Arguments

end CueGraph
