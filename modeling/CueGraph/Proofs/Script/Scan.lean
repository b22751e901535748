import Mathlib.Data.List.Infix
import CueGraph.Text.Quoted

/-!
# Scanning a line of the script

A scan goes through a line from left to right. It knows string literals, in which a backslash takes
the meaning from the next character, and it keeps the brackets that are still open outside of them.
A line is `Tidy` when the scan ends outside a literal with every bracket matched, and no word that
stands for a missing value occurs outside the literals.

Lines are put together from pieces. `Piece.append` joins two of them, `Tidy.enclose` puts one
between two fixed parts, `Tidy.join` puts two around a fixed part. A fixed part is checked by
evaluation. `tidy_quote` says that a string literal is tidy whatever its text is.
-/

namespace CueGraph.Scan

/-! ## The scanner -/

/-- Where a scan is: outside the string literals, or inside one, right after a backslash or not. -/
inductive Mode where
  | outside
  | inside (escaped : Bool)
  deriving DecidableEq

/-- Goes past a character. -/
def Mode.next : Mode → Char → Mode
  | outside, c => if c = '"' then inside false else outside
  | inside true, _ => inside false
  | inside false, c =>
    if c = '\\' then inside true else if c = '"' then outside else inside false

/-- Goes past characters. -/
def Mode.after (m : Mode) (cs : List Char) : Mode := cs.foldl next m

/-- The characters that are met outside the string literals. Of a literal, the quote at its start is
one of them. -/
def codeFrom : Mode → List Char → List Char
  | _, [] => []
  | .outside, c :: rest => c :: codeFrom (Mode.next .outside c) rest
  | .inside escaped, c :: rest => codeFrom ((Mode.inside escaped).next c) rest

/-- What a line holds outside its string literals. -/
def code (s : String) : List Char := codeFrom .outside s.toList

/-- The bracket that closes an opening one. -/
def closer? (c : Char) : Option Char :=
  if c = '(' then some ')'
  else if c = '[' then some ']'
  else if c = '\x7b' then some '\x7d'
  else none

/-- The closing brackets. -/
def closers : List Char := [')', ']', '\x7d']

/-- The closing brackets that are due after a character, the next one first. There is no result when
a bracket closes what is not open. -/
def meet (stack : List Char) (c : Char) : Option (List Char) :=
  match closer? c with
  | some close => some (close :: stack)
  | none =>
    if c ∈ closers then
      match stack with
      | top :: below => if top = c then some below else none
      | [] => none
    else some stack

/-- The closing brackets that are due after some code. -/
def due : List Char → List Char → Option (List Char)
  | stack, [] => some stack
  | stack, c :: rest => (meet stack c).bind fun stack => due stack rest

/-- The words that stand for a missing value or a missing number: `NaN`, `Infinity`, `undefined`. -/
def strayWords : List (List Char) :=
  [['N', 'a', 'N'], ['I', 'n', 'f', 'i', 'n', 'i', 't', 'y'],
    ['u', 'n', 'd', 'e', 'f', 'i', 'n', 'e', 'd']]

/-- No stray word occurs anywhere in the code. -/
def Clean (cs : List Char) : Prop := ∀ word ∈ strayWords, ¬word <:+: cs

/-- A part of a line, with the brackets that are due before it and after it. -/
structure Piece (before : List Char) (s : String) (after : List Char) : Prop where
  closed : Mode.outside.after s.toList = .outside
  matched : due before (code s) = some after
  clean : Clean (code s)

/-- A scan ends outside a string literal with every bracket matched, and meets no stray word. -/
abbrev Tidy (s : String) : Prop := Piece [] s []

variable {a b c : List Char} {s t : String}

/-! ## Pieces in a row -/

theorem after_append (m : Mode) (cs ds : List Char) :
    m.after (cs ++ ds) = (m.after cs).after ds := List.foldl_append

theorem codeFrom_append (m : Mode) (cs ds : List Char) :
    codeFrom m (cs ++ ds) = codeFrom m cs ++ codeFrom (m.after cs) ds := by
  induction cs generalizing m with
  | nil => cases m <;> rfl
  | cons x rest ih =>
    cases m with
    | outside => exact congrArg (x :: ·) (ih _)
    | inside escaped => exact ih _

theorem code_append (h : Mode.outside.after s.toList = .outside) (t : String) :
    code (s ++ t) = code s ++ code t := by
  rw [code, String.toList_append, codeFrom_append, h, code, code]

theorem due_append (stack cs ds : List Char) :
    due stack (cs ++ ds) = (due stack cs).bind fun stack => due stack ds := by
  induction cs generalizing stack with
  | nil => rfl
  | cons x rest ih =>
    rw [List.cons_append, due, due, Option.bind_assoc]
    congr 1
    funext left
    exact ih left

theorem meet_frame (base : List Char) {stack left : List Char} {x : Char}
    (h : meet stack x = some left) : meet (stack ++ base) x = some (left ++ base) := by
  unfold meet at h ⊢
  cases hx : closer? x with
  | some close =>
    rw [hx] at h
    obtain rfl := Option.some.inj h
    rfl
  | none =>
    rw [hx] at h
    dsimp only at h ⊢
    split at h
    · next hcloser =>
      rw [if_pos hcloser]
      cases stack with
      | nil => cases h
      | cons top below =>
        dsimp only [List.cons_append] at h ⊢
        split at h
        · next htop =>
          obtain rfl := Option.some.inj h
          rw [if_pos htop]
        · cases h
    · next hcloser =>
      obtain rfl := Option.some.inj h
      rw [if_neg hcloser]

/-- What is due underneath does not matter. -/
theorem due_frame (base : List Char) {stack cs left : List Char} (h : due stack cs = some left) :
    due (stack ++ base) cs = some (left ++ base) := by
  induction cs generalizing stack with
  | nil =>
    obtain rfl := Option.some.inj h
    rfl
  | cons x rest ih =>
    rw [due, Option.bind_eq_some_iff] at h
    obtain ⟨next, hnext, hrest⟩ := h
    rw [due, meet_frame base hnext]
    exact ih hrest

/-- Not both a letter at the end of the first and one at the start of the second. -/
def Apart (cs ds : List Char) : Prop :=
  ∀ x ∈ cs.getLast?, ∀ y ∈ ds.head?, x.isAlpha → ¬y.isAlpha

theorem letters_of_strayWords : ∀ word ∈ strayWords, ∀ x ∈ word, x.isAlpha := by
  have hall : (strayWords.all fun word => word.all Char.isAlpha) = true := rfl
  simpa only [List.all_eq_true] using hall

/-- A stray word cannot lie across a place where a letter does not meet a letter. -/
theorem Clean.append {cs ds : List Char} (hc : Clean cs) (hd : Clean ds) (h : Apart cs ds) :
    Clean (cs ++ ds) := by
  intro word hw hin
  rw [List.infix_append_iff_ne_nil] at hin
  rcases hin with hin | hin | ⟨l₁, l₂, hne₁, hne₂, hsplit, hsuffix, hprefix⟩
  · exact hc word hw hin
  · exact hd word hw hin
  · -- a word that lies across has a letter on either side
    have hletters := letters_of_strayWords word hw
    rw [hsplit] at hletters
    obtain ⟨front, rfl⟩ := hsuffix
    obtain ⟨back, rfl⟩ := hprefix
    have hx : l₁.getLast hne₁ ∈ (front ++ l₁).getLast? := by
      rw [List.getLast?_append_of_ne_nil _ hne₁, List.getLast?_eq_some_getLast hne₁]
      rfl
    have hy : l₂.head hne₂ ∈ (l₂ ++ back).head? := by
      rw [List.head?_append_of_ne_nil _ hne₂, List.head?_eq_some_head hne₂]
      rfl
    exact h _ hx _ hy (hletters _ (List.mem_append_left _ (List.getLast_mem hne₁)))
      (hletters _ (List.mem_append_right _ (List.head_mem hne₂)))

theorem Piece.append (hs : Piece a s b) (ht : Piece b t c) (h : Apart (code s) (code t)) :
    Piece a (s ++ t) c := by
  have hcode := code_append hs.closed t
  refine ⟨?_, ?_, ?_⟩
  · rw [String.toList_append, after_append, hs.closed, ht.closed]
  · rw [hcode, due_append, hs.matched]
    exact ht.matched
  · rw [hcode]
    exact hs.clean.append ht.clean h

theorem Piece.frame (base : List Char) (h : Piece a s b) : Piece (a ++ base) s (b ++ base) :=
  ⟨h.closed, due_frame base h.matched, h.clean⟩

/-! ## Fixed parts -/

/-- Whether a word occurs in the code. -/
def occurs (word : List Char) : List Char → Bool
  | [] => word.isEmpty
  | c :: rest => word.isPrefixOf (c :: rest) || occurs word rest

theorem occurs_of_isInfix {word cs : List Char} (h : word <:+: cs) : occurs word cs = true := by
  induction cs with
  | nil => simpa [occurs] using h
  | cons x rest ih =>
    rw [occurs, Bool.or_eq_true, List.isPrefixOf_iff_prefix]
    exact (List.infix_cons_iff.1 h).imp_right ih

theorem clean_of_not_occurs {cs : List Char}
    (h : ∀ word ∈ strayWords, occurs word cs = false) : Clean cs := by
  intro word hw hin
  have hnot := h word hw
  rw [occurs_of_isInfix hin] at hnot
  cases hnot

/-- The check that a fixed part is a piece. -/
def pieceCheck (before cs after : List Char) : Bool :=
  Mode.outside.after cs == .outside && due before (codeFrom .outside cs) == some after &&
    strayWords.all fun word => !occurs word (codeFrom .outside cs)

theorem Piece.ofList {cs : List Char} (h : pieceCheck a cs b = true) :
    Piece a (String.ofList cs) b := by
  simp only [pieceCheck, Bool.and_eq_true, beq_iff_eq, List.all_eq_true, Bool.not_eq_true'] at h
  obtain ⟨⟨hclosed, hmatched⟩, hclean⟩ := h
  refine ⟨?_, ?_, ?_⟩
  · rw [String.toList_ofList, hclosed]
  · rw [code, String.toList_ofList, hmatched]
  · rw [code, String.toList_ofList]
    exact clean_of_not_occurs hclean

/-- Whether the code starts with something other than a letter. -/
def starts (cs : List Char) : Bool := cs.head?.any (!·.isAlpha)

/-- Whether the code ends in something other than a letter. -/
def ends (cs : List Char) : Bool := cs.getLast?.any (!·.isAlpha)

theorem apart_of_starts {cs : List Char} (h : starts cs = true) (ds : List Char) : Apart ds cs := by
  obtain ⟨x, hx, hletter⟩ := (Option.any_eq_true _ _).1 h
  intro _ _ y hy _
  obtain rfl := Option.mem_unique hx hy
  simpa using hletter

theorem apart_of_ends {cs : List Char} (h : ends cs = true) (ds : List Char) : Apart cs ds := by
  obtain ⟨x, hx, hletter⟩ := (Option.any_eq_true _ _).1 h
  intro y hy _ _ hy'
  obtain rfl := Option.mem_unique hx hy
  simp [hy'] at hletter

theorem ends_append {cs : List Char} (h : ends cs = true) (ds : List Char) :
    ends (ds ++ cs) = true := by
  obtain ⟨x, hx, hletter⟩ := (Option.any_eq_true _ _).1 h
  exact (Option.any_eq_true _ _).2 ⟨x, List.mem_getLast?_append_of_mem_getLast? hx, hletter⟩

/-- A part that opens brackets and does not end in a letter. -/
structure Opens (s : String) (left : List Char) : Prop extends Piece [] s left where
  ends : ends (code s) = true

/-- A part that closes brackets and does not start with a letter. -/
structure Closes (stack : List Char) (s : String) : Prop extends Piece stack s [] where
  starts : starts (code s) = true

/-- A tidy part with no letter at its ends. -/
structure Separates (s : String) : Prop extends Piece [] s [] where
  starts : starts (code s) = true
  ends : ends (code s) = true

theorem Opens.ofList {cs left : List Char} (h : pieceCheck [] cs left = true)
    (he : Scan.ends (codeFrom .outside cs) = true) : Opens (String.ofList cs) left :=
  ⟨.ofList h, by rw [code, String.toList_ofList, he]⟩

theorem Closes.ofList {stack cs : List Char} (h : pieceCheck stack cs [] = true)
    (hs : Scan.starts (codeFrom .outside cs) = true) : Closes stack (String.ofList cs) :=
  ⟨.ofList h, by rw [code, String.toList_ofList, hs]⟩

theorem Separates.ofList {cs : List Char} (h : pieceCheck [] cs [] = true)
    (hs : Scan.starts (codeFrom .outside cs) = true)
    (he : Scan.ends (codeFrom .outside cs) = true) : Separates (String.ofList cs) :=
  ⟨.ofList h, by rw [code, String.toList_ofList, hs], by rw [code, String.toList_ofList, he]⟩

/-! ## Pieces around a fixed part -/

theorem Opens.append (hs : Opens s b) (ht : Tidy t) : Piece [] (s ++ t) b :=
  hs.toPiece.append (ht.frame b) (apart_of_ends hs.ends _)

theorem Closes.prepend (hs : Piece a s b) (ht : Closes b t) : Piece a (s ++ t) [] :=
  hs.append ht.toPiece (apart_of_starts ht.starts _)

/-- A tidy part may stand between a part that opens brackets and one that closes them. -/
theorem Tidy.enclose {opening closing : String} (ho : Opens opening b) (hs : Tidy s)
    (hc : Closes b closing) : Tidy (opening ++ s ++ closing) := hc.prepend (ho.append hs)

/-- Tidy parts may stand around a part with no letter at its ends. -/
theorem Tidy.join {separator : String} (hs : Tidy s) (hsep : Separates separator) (ht : Tidy t) :
    Tidy (s ++ separator ++ t) := by
  have hfront : Tidy (s ++ separator) := hs.append hsep.toPiece (apart_of_starts hsep.starts _)
  refine hfront.append ht ?_
  rw [code_append hs.closed]
  exact apart_of_ends (ends_append hsep.ends _) _

theorem separates_comma : Separates ", " := .ofList rfl rfl rfl

theorem tidy_empty : Tidy "" := .ofList rfl

/-- Tidy parts with commas between them are tidy. -/
theorem tidy_commas {parts : List String} (h : ∀ part ∈ parts, Tidy part) :
    Tidy (", ".intercalate parts) := by
  induction parts with
  | nil => exact tidy_empty
  | cons part rest ih =>
    rw [List.forall_mem_cons] at h
    by_cases hrest : rest = []
    · rw [hrest, String.intercalate_singleton]
      exact h.1
    · rw [String.intercalate_cons_of_ne_nil hrest]
      exact h.1.join separates_comma (ih h.2)

/-! ## Parts without literals and brackets -/

/-- The characters that mean something to a scan outside the literals. -/
def marks : List Char := ['"', '(', '[', '\x7b'] ++ closers

/-- Characters that mean nothing to a scan. -/
def Inert (cs : List Char) : Prop := ∀ x ∈ cs, x ∉ marks

theorem of_not_mem_marks {x : Char} (h : x ∉ marks) :
    x ≠ '"' ∧ closer? x = none ∧ x ∉ closers := by
  rw [marks, List.mem_append, not_or] at h
  refine ⟨?_, ?_, h.2⟩
  · rintro rfl
    exact h.1 List.mem_cons_self
  · simp only [List.mem_cons, List.not_mem_nil, or_false, not_or] at h
    rw [closer?, if_neg h.1.2.1, if_neg h.1.2.2.1, if_neg h.1.2.2.2]

theorem after_of_inert {cs : List Char} (h : Inert cs) : Mode.outside.after cs = .outside := by
  induction cs with
  | nil => rfl
  | cons x rest ih =>
    rw [Inert, List.forall_mem_cons] at h
    rw [Mode.after, List.foldl_cons, Mode.next, if_neg (of_not_mem_marks h.1).1]
    exact ih h.2

theorem codeFrom_of_inert {cs : List Char} (h : Inert cs) : codeFrom .outside cs = cs := by
  induction cs with
  | nil => rfl
  | cons x rest ih =>
    rw [Inert, List.forall_mem_cons] at h
    rw [codeFrom, Mode.next, if_neg (of_not_mem_marks h.1).1, ih h.2]

theorem due_of_inert {cs : List Char} (h : Inert cs) (stack : List Char) :
    due stack cs = some stack := by
  induction cs with
  | nil => rfl
  | cons x rest ih =>
    rw [Inert, List.forall_mem_cons] at h
    obtain ⟨-, hopen, hclose⟩ := of_not_mem_marks h.1
    have hmeet : meet stack x = some stack := by
      unfold meet
      rw [hopen]
      exact if_neg hclose
    rw [due, hmeet]
    exact ih h.2

/-- Characters of some kind to which no mark belongs are inert. -/
theorem inert_of_forall {p : Char → Bool} {cs : List Char} (hp : marks.all (!p ·) = true)
    (h : ∀ x ∈ cs, p x = true) : Inert cs := by
  intro x hx hmark
  have hnot := List.all_eq_true.1 hp x hmark
  simp [h x hx] at hnot

theorem tidy_of_inert (h : Inert s.toList) (hc : Clean s.toList) : Tidy s := by
  have hcode : code s = s.toList := codeFrom_of_inert h
  refine ⟨after_of_inert h, ?_, ?_⟩
  · rw [hcode, due_of_inert h]
  · rw [hcode]
    exact hc

/-- Code without the letters that the stray words start with is clean. -/
theorem clean_of_not_mem {cs : List Char} (hN : 'N' ∉ cs) (hI : 'I' ∉ cs) (hu : 'u' ∉ cs) :
    Clean cs := by
  have hstart : ∀ word ∈ strayWords, ∃ x ∈ word, x = 'N' ∨ x = 'I' ∨ x = 'u' := by
    simp [strayWords]
  intro word hw hin
  obtain ⟨x, hx, rfl | rfl | rfl⟩ := hstart word hw
  · exact hN (hin.subset hx)
  · exact hI (hin.subset hx)
  · exact hu (hin.subset hx)

/-! ## String literals -/

/-- Inside a literal, an escaped text leads back to where it began. -/
theorem after_escapeStringChars (cs : List Char) :
    (Mode.inside false).after (Text.escapeStringChars cs) = .inside false ∧
      codeFrom (.inside false) (Text.escapeStringChars cs) = [] := by
  induction cs with
  | nil => exact ⟨rfl, rfl⟩
  | cons x rest ih =>
    rw [Text.escapeStringChars]
    split
    · -- the backslash goes first, so that the character behind it is skipped
      exact ih
    · next hx =>
      rw [not_or] at hx
      have hnext : (Mode.inside false).next x = .inside false := by
        rw [Mode.next, if_neg hx.1, if_neg hx.2]
      rw [codeFrom, hnext, Mode.after, List.foldl_cons, hnext]
      exact ih

/-- A string literal is tidy, whatever its text is. -/
theorem tidy_quote (s : String) : Tidy (Text.quote s) := by
  obtain ⟨hafter, hcode⟩ := after_escapeStringChars s.toList
  have hchars : (Text.quote s).toList = '"' :: Text.escapeStringChars s.toList ++ ['"'] := by
    simp [Text.quote, Text.escapeString]
  have hopen : Mode.outside.next '"' = .inside false := rfl
  have hlit : code (Text.quote s) = ['"'] := by
    rw [code, hchars, List.cons_append, codeFrom, hopen, codeFrom_append, hcode, hafter]
    rfl
  refine ⟨?_, ?_, ?_⟩
  · rw [hchars, List.cons_append, Mode.after, List.foldl_cons, hopen, List.foldl_append]
    exact congrArg (Mode.next · '"') hafter
  · rw [hlit]
    rfl
  · rw [hlit]
    exact clean_of_not_mem (by simp) (by simp) (by simp)

end CueGraph.Scan
