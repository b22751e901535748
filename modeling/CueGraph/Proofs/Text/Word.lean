import CueGraph.Text.Word

/-!
# Whole words

`hasWord` looks for a word from left to right, with the character in front at hand. That it finds
the word somewhere means that the text can be cut into what stands in front of the word, the word
and what stands behind, with no word character on either side (`hasWord_iff`).
-/

namespace CueGraph.Text

/-- The word stands in the text, and no word character stands next to it. -/
def IsWordOf (word text : String) : Prop :=
  ∃ front back, text = front ++ word ++ back ∧
    (∀ c, front.toList.getLast? = some c → isWordChar c = false) ∧
    ∀ c, back.toList.head? = some c → isWordChar c = false

theorem noWordChar_iff {c : Option Char} :
    noWordChar c = true ↔ ∀ d, c = some d → isWordChar d = false := by
  cases c with
  | none => simp [noWordChar]
  | some d => simp [noWordChar]

/-- The last character in front, or the one before all when nothing stands in front. -/
theorem getLast?_cons_or (c : Char) (front : List Char) (before : Option Char) :
    (c :: front).getLast?.or before = front.getLast?.or (some c) := by
  rw [List.getLast?_cons]
  cases front.getLast? with
  | none => rfl
  | some d => rfl

theorem hasWordAfter_iff (word cs : List Char) (before : Option Char) :
    hasWordAfter word before cs = true ↔ ∃ front back, cs = front ++ word ++ back ∧
      noWordChar (front.getLast?.or before) = true ∧ noWordChar back.head? = true := by
  induction cs generalizing before with
  | nil =>
    rw [hasWordAfter, Bool.or_false, Bool.and_eq_true, Bool.and_eq_true, List.isPrefixOf_iff_prefix]
    constructor
    · rintro ⟨⟨hstarts, hbefore⟩, hbehind⟩
      rw [List.prefix_nil.1 hstarts]
      exact ⟨[], [], rfl, hbefore, rfl⟩
    · rintro ⟨front, back, hsplit, hfront, hback⟩
      obtain ⟨rfl, rfl, rfl⟩ : front = [] ∧ word = [] ∧ back = [] := by simpa using hsplit
      exact ⟨⟨List.nil_prefix, hfront⟩, rfl⟩
  | cons c rest ih =>
    rw [hasWordAfter, Bool.or_eq_true, Bool.and_eq_true, Bool.and_eq_true,
      List.isPrefixOf_iff_prefix, ih]
    constructor
    · rintro (⟨⟨⟨back, hback⟩, hbefore⟩, hbehind⟩ | ⟨front, back, rfl, hfront, hback⟩)
      · rw [← hback, List.drop_left] at hbehind
        exact ⟨[], back, hback.symm, hbefore, hbehind⟩
      · refine ⟨c :: front, back, rfl, ?_, hback⟩
        rw [getLast?_cons_or]
        exact hfront
    · rintro ⟨front, back, hsplit, hfront, hback⟩
      cases front with
      | nil =>
        refine .inl ⟨⟨⟨back, hsplit.symm⟩, hfront⟩, ?_⟩
        rw [hsplit, List.nil_append, List.drop_left]
        exact hback
      | cons d front =>
        obtain ⟨rfl, hrest⟩ := List.cons.inj hsplit
        rw [getLast?_cons_or] at hfront
        exact .inr ⟨front, back, hrest, hfront, hback⟩

theorem hasWord_iff {word text : String} : hasWord word text = true ↔ IsWordOf word text := by
  unfold hasWord IsWordOf
  rw [hasWordAfter_iff]
  constructor
  · rintro ⟨front, back, hsplit, hfront, hback⟩
    refine ⟨String.ofList front, String.ofList back, ?_, ?_, ?_⟩
    · apply String.toList_injective
      simpa using hsplit
    · simpa [noWordChar_iff] using hfront
    · simpa [noWordChar_iff] using hback
  · rintro ⟨front, back, rfl, hfront, hback⟩
    refine ⟨front.toList, back.toList, by simp, ?_, noWordChar_iff.2 hback⟩
    rw [Option.or_none]
    exact noWordChar_iff.2 hfront

end CueGraph.Text
