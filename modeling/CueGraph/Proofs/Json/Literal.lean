import CueGraph.Json.Document
import CueGraph.Text.Indented
import CueGraph.Text.Quoted

/-!
# String literals read as JSON

A string literal of the script has a backslash in front of each double quote and each backslash and
leaves every other character as it is. JSON takes all of these but the control characters.

Main statement: `quote_reads_back` (a literal is read as its text unless a control character is in
it, no two texts have one literal, and a literal is one line unless its text has a line break).
-/

namespace CueGraph.Json

/-- The characters that do not stand in a JSON string as they are. -/
def isControl (c : Char) : Bool := c.toNat < 0x20

/-! ## The place behind a literal -/

/-- Reads one character, with the tokens that were complete before it, the last one first. -/
def advance? (state : Place × List Token) (c : Char) : Option (Place × List Token) :=
  (state.1.next? c).map fun (place, more) => (place, more.reverse ++ state.2)

variable {c : Char} {read : List Nat} {tokens : List Token}

theorem advance?_backslash :
    advance? (.str read, tokens) '\\' = some (.escape read, tokens) := rfl

theorem advance?_escaped (h : c = '\\' ∨ c = '"') :
    advance? (.escape read, tokens) c = some (.str (c.toNat :: read), tokens) := by
  rcases h with rfl | rfl
  · rfl
  · rfl

theorem advance?_plain (h : ¬(c = '\\' ∨ c = '"')) :
    advance? (.str read, tokens) c =
      if isControl c then none else some (.str (c.toNat :: read), tokens) := by
  rw [not_or] at h
  unfold advance? isControl
  by_cases hc : c.toNat < 0x20 <;> simp [Place.next?, h, hc]

theorem advance?_close :
    advance? (.str read, tokens) '"' =
      some (.between, .str (String.ofList (joinSurrogates read.reverse)) :: tokens) := rfl

/-- The escapes of a text are read as its code points. -/
theorem foldlM_escapeStringChars (cs : List Char) :
    (Text.escapeStringChars cs).foldlM advance? (.str read, tokens) =
      if cs.any isControl then none
      else some (.str ((cs.map Char.toNat).reverse ++ read), tokens) := by
  induction cs generalizing read with
  | nil => rfl
  | cons c rest ih =>
    by_cases hc : c = '\\' ∨ c = '"'
    · have hplain : isControl c = false := by rcases hc with rfl | rfl <;> rfl
      rw [Text.escapeStringChars, if_pos hc, List.foldlM_cons, advance?_backslash]
      simp [advance?_escaped hc, hplain, ih]
    · rw [Text.escapeStringChars, if_neg hc, List.foldlM_cons, advance?_plain hc]
      cases hcontrol : isControl c with
      | true => simp [hcontrol]
      | false => simp [hcontrol, ih]

/-! ## Code points -/

theorem unitChars_toNat (c : Char) : unitChars c.toNat = [c] := by
  have hvalid : c.toNat.isValidChar := c.valid
  have hunit : ¬(0xD800 ≤ c.toNat ∧ c.toNat < 0xE000) := by
    unfold Nat.isValidChar at hvalid
    omega
  rw [unitChars, dif_neg hunit, Char.ofNat_toNat]

theorem joinSurrogates_cons (c : Char) (codes : List Nat) :
    joinSurrogates (c.toNat :: codes) = c :: joinSurrogates codes := by
  have hvalid : c.toNat.isValidChar := c.valid
  cases codes with
  | nil => exact unitChars_toNat c
  | cons low rest =>
    have hfirst : ¬(0xD800 ≤ c.toNat ∧ c.toNat < 0xDC00 ∧ 0xDC00 ≤ low ∧ low < 0xE000) := by
      unfold Nat.isValidChar at hvalid
      omega
    rw [joinSurrogates, if_neg hfirst, unitChars_toNat, List.singleton_append]

theorem joinSurrogates_map_toNat (cs : List Char) : joinSurrogates (cs.map Char.toNat) = cs := by
  induction cs with
  | nil => rfl
  | cons c rest ih => rw [List.map_cons, joinSurrogates_cons, ih]

/-! ## The literal -/

theorem tokens?_eq (text : String) : tokens? text =
    (text.toList.foldlM advance? (.between, [])).bind fun state =>
      state.1.finish?.bind fun last => some (state.2.reverse ++ last) := rfl

theorem tokens?_quote (s : String) : tokens? (Text.quote s) =
    if s.toList.any isControl then none else some [.str s] := by
  have hchars : (Text.quote s).toList = '"' :: (Text.escapeStringChars s.toList ++ ['"']) := by
    simp [Text.quote, Text.escapeString]
  have hopen : advance? (.between, []) '"' = some (.str [], []) := rfl
  rw [tokens?_eq, hchars, List.foldlM_cons, hopen]
  simp only [Option.bind_eq_bind, Option.bind_some, List.foldlM_append, foldlM_escapeStringChars]
  split
  · rfl
  · simp [advance?_close, joinSurrogates_map_toNat, Place.finish?]

theorem read?_quote (s : String) : read? (Text.quote s) =
    if s.toList.any isControl then none else some (.str s) := by
  rw [read?, tokens?_quote]
  split
  · rfl
  · rfl

end CueGraph.Json

namespace CueGraph.Text

/-! ## Lines -/

theorem mem_escapeStringChars {c : Char} (h : ¬(c = '\\' ∨ c = '"')) {cs : List Char} :
    c ∈ escapeStringChars cs ↔ c ∈ cs := by
  induction cs with
  | nil => rfl
  | cons d rest ih =>
    rw [escapeStringChars]
    split
    · simp only [List.mem_cons, ih]
      grind
    · simp only [List.mem_cons, ih]

theorem mem_quote {c : Char} (h : ¬(c = '\\' ∨ c = '"')) {s : String} :
    c ∈ (quote s).toList ↔ c ∈ s.toList := by
  simp [quote, escapeString, mem_escapeStringChars h, not_or.1 h]

/-- A string literal is one line unless its text has a line break. -/
theorem splitLines_quote (s : String) : splitLines (quote s).toList = [(quote s).toList] ↔
    '\n' ∉ s.toList ∧ '\r' ∉ s.toList := by
  rw [splitLines_eq_singleton, mem_quote (by decide), mem_quote (by decide)]

theorem quote_inj {s t : String} : quote s = quote t ↔ s = t := by
  constructor
  · intro h
    have hchars : escapeStringChars s.toList = escapeStringChars t.toList := by
      simpa [quote, escapeString] using congrArg String.toList h
    rw [← String.toList_inj, ← unescape_escapeString s.toList, hchars, unescape_escapeString]
  · exact congrArg quote

/-- A string literal is read as JSON exactly if no control character is in its text, and then as its
text. No two texts have one literal. A literal is one line unless its text has a line break. -/
theorem quote_reads_back (s : String) :
    Json.read? (quote s) = (if s.toList.any Json.isControl then none else some (.str s)) ∧
    (∀ t, quote s = quote t ↔ s = t) ∧
    (splitLines (quote s).toList = [(quote s).toList] ↔ '\n' ∉ s.toList ∧ '\r' ∉ s.toList) :=
  ⟨Json.read?_quote s, fun _ => quote_inj, splitLines_quote s⟩

/-- A line feed is written as it is, so its literal is neither JSON nor one line. -/
theorem quote_fails_lineFeed : ¬(∀ s : String, Json.read? (quote s) = some (.str s)) ∧
    ¬∀ s : String, splitLines (quote s).toList = [(quote s).toList] := by
  constructor
  · intro h
    have hread := Json.read?_quote "a\nb"
    rw [h, if_pos (by decide)] at hread
    cases hread
  · intro h
    exact absurd (h "a\nb") (by decide)

end CueGraph.Text
