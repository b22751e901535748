import CueGraph.Call
import CueGraph.Proofs.Number.Written
import CueGraph.Proofs.Script.Scan

/-!
# Calls that no option can break out of

A call is `Safe` when its method and the names of its options are names and none of its arguments is
a template literal. The line of a safe call is a tidy call line (`Call.Safe.isCallLine`), whatever
texts and numbers the arguments hold.
-/

namespace CueGraph

open Scan

/-! ## Numerals and names -/

/-- The characters of numerals. -/
def isNumeralChar (c : Char) : Bool := c.isDigit || ['.', 'e', '+', '-'].contains c

/-- Every character belongs to numerals. -/
def IsNumeralText (cs : List Char) : Prop := ∀ c ∈ cs, isNumeralChar c = true

theorem IsNumeralText.append {cs ds : List Char} (h : IsNumeralText cs) (h' : IsNumeralText ds) :
    IsNumeralText (cs ++ ds) := by
  intro c hc
  rcases List.mem_append.1 hc with hc | hc
  · exact h c hc
  · exact h' c hc

theorem IsNumeralText.cons {c : Char} {cs : List Char} (hc : isNumeralChar c = true)
    (h : IsNumeralText cs) : IsNumeralText (c :: cs) := List.forall_mem_cons.2 ⟨hc, h⟩

theorem isNumeralText_digitsOf (n : Nat) : IsNumeralText (digitsOf n) := by
  intro c hc
  rw [isNumeralChar, Nat.isDigit_of_mem_toDigits (by decide) (by decide) hc, Bool.true_or]

theorem isNumeralText_zeros (count : Nat) : IsNumeralText (zeros count) := by
  intro c hc
  rw [List.eq_of_mem_replicate hc]
  rfl

theorem isNumeralText_positional {mark digits : List Char} (hmark : IsNumeralText mark)
    (h : IsNumeralText digits) (point : Int) : IsNumeralText (positional mark digits point) := by
  intro c hc
  rcases mem_positional hc with hc | hc | rfl | rfl
  · exact h c hc
  · exact hmark c hc
  · rfl
  · rfl

namespace Layout

variable {layout : Layout}

theorem isNumeralText_exponentText (e : Int) : IsNumeralText (layout.exponentText e) := by
  unfold exponentText
  refine .append (.cons rfl (.cons ?_ (isNumeralText_zeros _))) (isNumeralText_digitsOf _)
  split
  · rfl
  · rfl

theorem isNumeralText_place (hmark : IsNumeralText layout.wholeMark.toList) {digits : List Char}
    (h : IsNumeralText digits) (point : Int) : IsNumeralText (layout.place digits point) := by
  unfold place
  split
  · exact isNumeralText_positional hmark h point
  · split
    · exact h
    · exact .cons (h _ List.mem_cons_self) (isNumeralText_exponentText _)
    · rw [IsNumeralText, List.forall_mem_cons] at h
      exact .cons h.1 (.cons rfl (IsNumeralText.append h.2 (isNumeralText_exponentText _)))

end Layout

theorem isNumeralText_numeral (x : Finite) : IsNumeralText x.numeral.toList := by
  have hmark : IsNumeralText scriptNumeral.wholeMark.toList := by
    intro c hc
    exact absurd hc (by simp [scriptNumeral])
  rw [Finite.numeral_eq_render, Layout.render, String.toList_ofList]
  refine .append ?_ ?_
  · split
    · exact .cons rfl (by simp [IsNumeralText])
    · simp [IsNumeralText]
  · rw [Layout.magnitude]
    split
    · exact .cons rfl hmark
    · exact Layout.isNumeralText_place hmark (isNumeralText_digitsOf _) _

theorem tidy_numeral (x : Finite) : Tidy x.numeral := by
  have h := isNumeralText_numeral x
  refine tidy_of_inert (inert_of_forall rfl h) (clean_of_not_mem ?_ ?_ ?_)
  · exact fun hN => absurd (h _ hN) (by decide)
  · exact fun hI => absurd (h _ hI) (by decide)
  · exact fun hu => absurd (h _ hu) (by decide)

/-- A name of a method, an option or an object: letters, and no stray word among them. -/
structure IsName (s : String) : Prop where
  ne : s ≠ ""
  letters : ∀ c ∈ s.toList, c.isAlpha = true
  clean : Clean s.toList

/-- The check that a fixed text is a name. -/
def nameCheck (cs : List Char) : Bool :=
  !cs.isEmpty && cs.all Char.isAlpha && strayWords.all fun word => !occurs word cs

theorem IsName.ofList {cs : List Char} (h : nameCheck cs = true) : IsName (String.ofList cs) := by
  simp only [nameCheck, Bool.and_eq_true, List.all_eq_true, Bool.not_eq_true'] at h
  obtain ⟨⟨hne, hletters⟩, hclean⟩ := h
  refine ⟨?_, ?_, ?_⟩
  · rintro he
    rw [← String.toList_inj, String.toList_ofList] at he
    rw [he] at hne
    cases hne
  · rwa [String.toList_ofList]
  · rw [String.toList_ofList]
    exact clean_of_not_occurs hclean

theorem IsName.tidy {s : String} (h : IsName s) : Tidy s :=
  tidy_of_inert (inert_of_forall rfl h.letters) h.clean

/-! ## Arguments and options -/

/-- A name before a colon and a tidy part. -/
theorem tidy_field {key value : String} (hk : IsName key) (hv : Tidy value) :
    Tidy (key ++ ": " ++ value) := hk.tidy.join (.ofList rfl rfl rfl) hv

theorem tidy_objectLiteral {fields : List String} (h : ∀ field ∈ fields, Tidy field) :
    Tidy (objectLiteral fields) :=
  .enclose (b := ['\x7d']) (.ofList rfl rfl) (tidy_commas h) (.ofList rfl rfl)

theorem tidy_target (t : Target) : Tidy t.render := by
  cases t with
  | selectedToken => exact .ofList rfl
  | selectedTarget => exact .ofList rfl
  | token id => exact .enclose (b := [')']) (.ofList rfl rfl) (tidy_quote id) (.ofList rfl rfl)
  | tokenNamed name =>
    exact .enclose (b := [')']) (.ofList rfl rfl) (tidy_quote name) (.ofList rfl rfl)
  | tile id => exact .enclose (b := [')']) (.ofList rfl rfl) (tidy_quote id) (.ofList rfl rfl)
  | point x y =>
    apply tidy_objectLiteral
    rw [List.forall_mem_cons, List.forall_mem_singleton]
    exact ⟨Opens.append (b := []) (.ofList rfl rfl) (tidy_numeral x),
      Opens.append (b := []) (.ofList rfl rfl) (tidy_numeral y)⟩
  | stored name => exact tidy_quote name
  | inToken => exact .ofList rfl
  | inTile => exact .ofList rfl

namespace Arg

/-- An argument that is no template literal, with names for its parts. -/
def Safe : Arg → Prop
  | template _ => False
  | word w => Tidy w
  | pair first _ second _ => IsName first ∧ IsName second
  | _ => True

theorem Safe.tidy {arg : Arg} (h : arg.Safe) : Tidy arg.render := by
  cases arg with
  | numeral x => exact tidy_numeral x
  | quoted text => exact tidy_quote text
  | quotedList texts =>
    refine .enclose (b := [']']) (.ofList rfl rfl) (tidy_commas ?_) (.ofList rfl rfl)
    exact List.forall_mem_map.2 fun text _ => tidy_quote text
  | template text => exact h.elim
  | word w => exact h
  | pair first x second y =>
    apply tidy_objectLiteral
    rw [List.forall_mem_cons, List.forall_mem_singleton]
    exact ⟨tidy_field h.1 (tidy_numeral x), tidy_field h.2 (tidy_numeral y)⟩
  | target t => exact tidy_target t
  | span low high => exact (tidy_numeral low).join (.ofList rfl rfl rfl) (tidy_numeral high)
  | chance p =>
    exact Opens.append (b := []) (.ofList rfl rfl) (tidy_numeral p)

theorem safe_flag (b : Bool) : (Arg.flag b).Safe := by
  cases b with
  | false => exact (.ofList rfl : Tidy "false")
  | true => exact (.ofList rfl : Tidy "true")

theorem safe_point (x y : Finite) : (Arg.point x y).Safe :=
  ⟨.ofList rfl, .ofList rfl⟩

end Arg

/-- An option with a name and a safe value. -/
structure Setting.Safe (s : Setting) : Prop where
  key : IsName s.key
  value : s.value.Safe

theorem Setting.Safe.tidy {s : Setting} (h : s.Safe) : Tidy s.render :=
  tidy_field h.key h.value.tidy

/-! ## Lines -/

/-- A line that is one call of a chain. The bracket behind the method stays open up to the end of
the line, since what stands in between is tidy by itself. -/
def IsCallLine (line : String) : Prop :=
  ∃ method inside, IsName method ∧ Tidy inside ∧ line = "  ." ++ method ++ "(" ++ inside ++ ")"

theorem IsCallLine.tidy {line : String} (h : IsCallLine line) : Tidy line := by
  obtain ⟨method, inside, hmethod, hinside, rfl⟩ := h
  have hfront : Tidy ("  ." ++ method) := Opens.append (b := []) (.ofList rfl rfl) hmethod.tidy
  -- the bracket is no letter, so the name cannot grow into a stray word
  have hbracket : Opens "(" [')'] := .ofList rfl rfl
  have hopening : Opens ("  ." ++ method ++ "(") [')'] := by
    refine ⟨hfront.append hbracket.toPiece (apart_of_starts ?_ _), ?_⟩
    · rfl
    · rw [code_append hfront.closed]
      exact ends_append hbracket.ends _
  exact .enclose hopening hinside (.ofList rfl rfl)

/-- A call with a name for its method, safe arguments and safe options. -/
structure Call.Safe (call : Call) : Prop where
  method : IsName call.method
  args : ∀ arg ∈ call.args, arg.Safe
  options : ∀ option ∈ call.options, option.Safe

theorem Call.Safe.isCallLine {call : Call} (h : call.Safe) : IsCallLine call.line := by
  refine ⟨call.method, _, h.method, tidy_commas ?_, rfl⟩
  have hargs : ∀ part ∈ call.args.map Arg.render, Tidy part :=
    List.forall_mem_map.2 fun arg ha => (h.args arg ha).tidy
  have hoptions : ∀ part ∈ call.options.map Setting.render, Tidy part :=
    List.forall_mem_map.2 fun option ho => (h.options option ho).tidy
  split
  · exact hargs
  · rw [List.forall_mem_append, List.forall_mem_singleton]
    exact ⟨hargs, tidy_objectLiteral hoptions⟩

end CueGraph
