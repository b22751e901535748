import CueGraph.Call

/-!
# Where a template literal ends

A template literal ends at the first back-tick that no backslash takes along. The literal of a text
is written with a backslash in front of each back-tick of the text, but its backslashes stay as they
are: a run of an odd number of them takes along what is written behind it.

Main statement: `literal_closed_iff` (the literal of a text ends where it is meant to end exactly if
every run of backslashes in front of a back-tick, or at the end of the text, is even).
-/

namespace CueGraph.Text

/-- Reads a template literal from behind the back-tick that opens it: what is inside, and what
follows the back-tick that closes it. A backslash takes the next character along. -/
def literalFrom? (escaped : Bool) : List Char → Option (List Char × List Char)
  | [] => none
  | c :: rest =>
    if c = '\x60' ∧ escaped = false then some ([], rest)
    else
      (literalFrom? (c = '\\' && !escaped) rest).map fun (inside, behind) => (c :: inside, behind)

/-! ## Runs of backslashes -/

/-- The number of backslashes at the end. -/
def endRun (cs : List Char) : Nat := (cs.reverse.takeWhile (· == '\\')).length

/-- Behind some characters, every run of backslashes in front of a back-tick or at the end is
even. -/
def EvenRunsAfter (front cs : List Char) : Prop :=
  ∀ before behind, cs = before ++ behind → behind = [] ∨ behind.head? = some '\x60' →
    endRun (front ++ before) % 2 = 0

/-- Every run of backslashes in front of a back-tick or at the end is even. -/
def EvenRuns (cs : List Char) : Prop := EvenRunsAfter [] cs

theorem endRun_append_singleton (cs : List Char) (c : Char) :
    endRun (cs ++ [c]) = if c = '\\' then endRun cs + 1 else 0 := by
  unfold endRun
  rw [List.reverse_append, List.reverse_singleton, List.singleton_append, List.takeWhile_cons]
  split <;> simp_all

theorem evenRunsAfter_nil {front : List Char} :
    EvenRunsAfter front [] ↔ endRun front % 2 = 0 := by
  constructor
  · intro h
    simpa using h [] [] rfl (.inl rfl)
  · intro h before behind hsplit _
    obtain ⟨rfl, -⟩ := List.append_eq_nil_iff.1 hsplit.symm
    rwa [List.append_nil]

theorem evenRunsAfter_cons {front rest : List Char} {c : Char} :
    EvenRunsAfter front (c :: rest) ↔
      (c = '\x60' → endRun front % 2 = 0) ∧ EvenRunsAfter (front ++ [c]) rest := by
  constructor
  · intro h
    refine ⟨fun hc => ?_, fun before behind hsplit hend => ?_⟩
    · simpa using h [] (c :: rest) rfl (.inr (by rw [hc]; rfl))
    · simpa using h (c :: before) behind (by rw [hsplit]; rfl) hend
  · rintro ⟨htick, hrest⟩ before behind hsplit hend
    cases before with
    | nil =>
      obtain rfl : behind = c :: rest := hsplit.symm
      rw [List.append_nil]
      exact htick (by simpa using hend)
    | cons d before =>
      obtain ⟨rfl, htail⟩ := List.cons.inj hsplit
      simpa using hrest before behind htail hend

/-! ## Reading the literal of a text -/

/-- Whether what is next is taken along by a backslash. -/
def afterOddRun (front : List Char) : Bool := endRun front % 2 = 1

theorem afterOddRun_append_singleton (front : List Char) (c : Char) :
    afterOddRun (front ++ [c]) = (c = '\\' && !afterOddRun front) := by
  unfold afterOddRun
  rw [endRun_append_singleton]
  by_cases hc : c = '\\'
  · have hsucc : (endRun front + 1) % 2 = 1 ↔ ¬endRun front % 2 = 1 := by omega
    simp only [hc, ↓reduceIte, hsucc, decide_true, Bool.true_and, decide_not]
  · simp [hc]

theorem afterOddRun_tick (front : List Char) : afterOddRun (front ++ ['\x60']) = false := by
  simp [afterOddRun_append_singleton]

theorem afterOddRun_eq_false {front : List Char} :
    afterOddRun front = false ↔ endRun front % 2 = 0 := by
  rw [afterOddRun, decide_eq_false_iff_not]
  omega

variable {front cs behind : List Char} {c : Char}

theorem literalFrom?_cons (h : ¬(c = '\x60' ∧ afterOddRun front = false))
    (rest inside : List Char) :
    literalFrom? (afterOddRun front) (c :: rest) = some (c :: inside, behind) ↔
      literalFrom? (afterOddRun (front ++ [c])) rest = some (inside, behind) := by
  rw [literalFrom?, if_neg h, afterOddRun_append_singleton]
  simp [Option.map_eq_some_iff, Prod.ext_iff]

/-- The reading goes through the escapes of a text. What carries the induction is that the reading
is behind an odd run of backslashes exactly if the text is. -/
theorem literalFrom?_escapeTemplateChars (front cs behind : List Char) :
    literalFrom? (afterOddRun front) (escapeTemplateChars cs ++ '\x60' :: behind) =
        some (escapeTemplateChars cs, behind) ↔ EvenRunsAfter front cs := by
  induction cs generalizing front with
  | nil =>
    rw [evenRunsAfter_nil, ← afterOddRun_eq_false, escapeTemplateChars, List.nil_append,
      literalFrom?]
    cases hfront : afterOddRun front with
    | false => simp
    | true => simp [Option.map_eq_some_iff]
  | cons c rest ih =>
    rw [evenRunsAfter_cons, ← ih (front ++ [c]), ← afterOddRun_eq_false]
    by_cases hc : c = '\x60'
    · subst hc
      rw [escapeTemplateChars, if_pos rfl, List.cons_append, List.cons_append,
        literalFrom?_cons (by simp)]
      cases hfront : afterOddRun front with
      | false =>
        have hescaped : afterOddRun (front ++ ['\\']) = true := by
          simp [afterOddRun_append_singleton, hfront]
        rw [literalFrom?_cons (by simp [hescaped]), afterOddRun_tick, afterOddRun_tick]
        simp
      | true =>
        -- the backslash in front of the back-tick is taken along itself
        have hopen : afterOddRun (front ++ ['\\']) = false := by
          simp [afterOddRun_append_singleton, hfront]
        simp [hopen, literalFrom?]
    · rw [escapeTemplateChars, if_neg hc, List.cons_append,
        literalFrom?_cons (fun h => hc h.1)]
      simp [hc]

/-! ## The line of a text -/

/-- What follows the literal in the line of a text. -/
def afterLiteral : Option String → String
  | none => ")"
  | some style => ", " ++ style ++ ")"

/-- The literal of a text, with what follows it in the line, is read from behind the back-tick that
opens it. -/
def readLiteral? (text : String) (style : Option String) : Option (List Char × List Char) :=
  literalFrom? false ((escapeTemplate text).toList ++ '\x60' :: (afterLiteral style).toList)

theorem line_textCall (text : String) (style : Option String) : (textCall text style).line =
    "  .text(\x60" ++ escapeTemplate text ++ "\x60" ++ afterLiteral style := by
  have hopen : "  .text(\x60" = "  ." ++ "text" ++ "(" ++ "\x60" := by decide
  have hline : (textCall text style).line = "  ." ++ "text" ++ "(" ++
      ", ".intercalate (templateLiteral text :: style.toList) ++ ")" := by
    cases style with
    | none => rfl
    | some style => rfl
  have hargs : ", ".intercalate (templateLiteral text :: style.toList) ++ ")" =
      templateLiteral text ++ afterLiteral style := by
    cases style with
    | none => rw [Option.toList_none, String.intercalate_singleton, afterLiteral]
    | some style =>
      rw [Option.toList_some, String.intercalate_cons_of_ne_nil (by simp),
        String.intercalate_singleton, afterLiteral]
      simp only [String.append_assoc]
  rw [hline, String.append_assoc, hargs, hopen, templateLiteral]
  simp only [String.append_assoc]

/-- Every text has a line with one literal behind the opening bracket. That the back-tick written
behind the text is the one that closes the literal, holds exactly if the runs of backslashes in
front of back-ticks and at the end of the text are even. -/
theorem literal_closed_iff (text : String) (style : Option String) :
    (textCall text style).line =
        "  .text(\x60" ++ escapeTemplate text ++ "\x60" ++ afterLiteral style ∧
    (readLiteral? text style = some ((escapeTemplate text).toList, (afterLiteral style).toList) ↔
      EvenRuns text.toList) := by
  refine ⟨line_textCall text style, ?_⟩
  rw [readLiteral?, escapeTemplate, String.toList_ofList]
  exact literalFrom?_escapeTemplateChars [] text.toList _

/-- A backslash at the end of a text takes along the back-tick behind it. -/
theorem literal_open_backslash : ¬∀ (text : String) (style : Option String),
    readLiteral? text style = some ((escapeTemplate text).toList, (afterLiteral style).toList) := by
  intro h
  exact absurd (h "a\\" none) (by decide)

end CueGraph.Text
