import Mathlib.Data.List.Forall2

/-!
# Letters of either case

Of all characters only the 26 letters are not the same in lower case (`toLower_cases`). So a text in
lower case is a given word exactly if it is that word in some mix of cases
(`map_toLower_eq_iff`).
-/

namespace CueGraph.Text

/-- A character is the same in lower case, or it is one of the 26 letters. -/
theorem toLower_cases (c : Char) : c.toLower = c ∨ ∃ k < 26, c = Char.ofNat (65 + k) := by
  by_cases h : c.val ≥ 'A'.val ∧ c.val ≤ 'Z'.val
  · right
    have hlow : 65 ≤ c.toNat := UInt32.le_iff_toNat_le.1 h.1
    have hhigh : c.toNat ≤ 90 := UInt32.le_iff_toNat_le.1 h.2
    exact ⟨c.toNat - 65, by omega, by rw [Nat.add_sub_cancel' hlow, Char.ofNat_toNat]⟩
  · exact .inl (dif_neg h)

/-- What is the same for the 26 letters in both cases does not depend on the case. -/
theorem apply_toLower {α : Type} {f : Char → α}
    (h : ∀ k < 26, f (Char.ofNat (65 + k)).toLower = f (Char.ofNat (65 + k))) (c : Char) :
    f c.toLower = f c := by
  rcases toLower_cases c with heq | ⟨k, hk, rfl⟩
  · rw [heq]
  · exact h k hk

/-- A character is in lower case, and its capital is one of it. -/
def IsLower (letter : Char) : Prop := letter.toLower = letter ∧ letter.toUpper.toLower = letter

instance : DecidablePred IsLower := fun letter =>
  inferInstanceAs (Decidable (letter.toLower = letter ∧ letter.toUpper.toLower = letter))

theorem toLower_eq_iff {c letter : Char} (h : IsLower letter) :
    c.toLower = letter ↔ c = letter ∨ c = letter.toUpper := by
  constructor
  · rintro rfl
    rcases toLower_cases c with heq | ⟨k, hk, rfl⟩
    · exact .inl heq.symm
    · have hcapital : ∀ k < 26, Char.ofNat (65 + k) = (Char.ofNat (65 + k)).toLower.toUpper := by
        decide
      exact .inr (hcapital k hk)
  · rintro (rfl | rfl)
    · exact h.1
    · exact h.2

theorem map_toLower_eq_iff {cs word : List Char} (h : ∀ letter ∈ word, IsLower letter) :
    cs.map Char.toLower = word ↔
      List.Forall₂ (fun c letter => c = letter ∨ c = letter.toUpper) cs word := by
  induction word generalizing cs with
  | nil => rw [List.map_eq_nil_iff, List.forall₂_nil_right_iff]
  | cons letter rest ih =>
    obtain ⟨hletter, hrest⟩ := List.forall_mem_cons.1 h
    cases cs with
    | nil => simp
    | cons c more =>
      rw [List.map_cons, List.cons.injEq, List.forall₂_cons, toLower_eq_iff hletter, ih hrest]

end CueGraph.Text
