import CueGraph.Proofs.Text.Case
import CueGraph.Settings.Options

/-!
# What the value of a variable says about a flag

A few words switch a flag, in any mix of cases and with blanks around them (`Spells`). Every other
value leaves the flag on, and unless it is blank there is a warning about it. Each value leaves the
flag in one state (`switches_iff`), and there is a warning exactly about a value that is neither
blank nor one of the words (`mem_warnings`).
-/

namespace CueGraph.Settings

/-- A value is a word in any mix of cases, with blanks around it. -/
def Spells (value word : String) : Prop :=
  List.Forall₂ (fun c letter => c = letter ∨ c = letter.toUpper) (Text.trim value).toList
    word.toList

/-- A value is neither blank nor one of the words that switch a flag. -/
def Unknown (value : String) : Prop :=
  Text.isBlank value = false ∧ ∀ word ∈ onWords ++ offWords, ¬ Spells value word

/-- The state in which the value of a variable leaves a flag: what the word says, and on when the
variable has no value, or a blank one, or any other. -/
inductive Switches : Option String → Bool → Prop
  | off {value word : String} (hword : word ∈ offWords) (h : Spells value word) :
      Switches (some value) false
  | on {value word : String} (hword : word ∈ onWords) (h : Spells value word) :
      Switches (some value) true
  | unset : Switches none true
  | blank {value : String} (h : Text.isBlank value = true) : Switches (some value) true
  | unknown {value : String} (h : Unknown value) : Switches (some value) true

variable {value word name : String} {on : Bool}

/-! ## Words -/

theorem isLower_words : ∀ word ∈ onWords ++ offWords, ∀ letter ∈ word.toList,
    Text.IsLower letter := by
  have hall : ∀ word ∈ onWords ++ offWords,
      word.toList.all (fun letter => decide (Text.IsLower letter)) = true := by
    decide +kernel
  intro word hword letter hletter
  exact of_decide_eq_true (List.all_eq_true.1 (hall word hword) letter hletter)

theorem spells_iff (hword : word ∈ onWords ++ offWords) :
    Spells value word ↔ (Text.trim value).map Char.toLower = word := by
  rw [Spells, ← Text.map_toLower_eq_iff (isLower_words word hword), ← String.toList_map,
    String.toList_inj]

/-- No word is empty, so a blank value is none. -/
theorem not_isBlank_of_spells (hword : word ∈ onWords ++ offWords) (h : Spells value word) :
    Text.isBlank value = false := by
  rw [← Bool.not_eq_true]
  intro hblank
  rw [Spells, Text.trim_eq_empty.2 hblank] at h
  have hempty : word.toList = [] := List.forall₂_nil_left_iff.1 h
  have hwords : ∀ word ∈ onWords ++ offWords, word.toList ≠ [] := by decide +kernel
  exact hwords word hword hempty

/-! ## Reading -/

/-- What is read of a value that is not blank. -/
theorem readFlag_shown (h : Text.isBlank value = false) :
    readFlag (some value) =
      if (Text.trim value).map Char.toLower ∈ offWords then .switched false
      else if (Text.trim value).map Char.toLower ∈ onWords then .switched true
      else .unknown value := by
  simp only [readFlag, h, Bool.false_eq_true, ↓reduceIte, List.contains_iff_mem]

theorem readFlag_off (hword : word ∈ offWords) (h : Spells value word) :
    readFlag (some value) = .switched false := by
  have hmem := List.mem_append_right onWords hword
  rw [readFlag_shown (not_isBlank_of_spells hmem h), (spells_iff hmem).1 h, if_pos hword]

theorem readFlag_on (hword : word ∈ onWords) (h : Spells value word) :
    readFlag (some value) = .switched true := by
  have hmem := List.mem_append_left offWords hword
  have hdisjoint : ∀ word ∈ onWords, word ∉ offWords := by decide +kernel
  rw [readFlag_shown (not_isBlank_of_spells hmem h), (spells_iff hmem).1 h,
    if_neg (hdisjoint word hword), if_pos hword]

theorem readFlag_unknown (h : Unknown value) : readFlag (some value) = .unknown value := by
  obtain ⟨hshown, hno⟩ := h
  have hout : (Text.trim value).map Char.toLower ∉ onWords ++ offWords := fun hmem =>
    hno _ hmem ((spells_iff hmem).2 rfl)
  rw [List.mem_append, not_or] at hout
  rw [readFlag_shown hshown, if_neg hout.2, if_neg hout.1]

/-- A value is blank, a word or unknown. -/
theorem value_cases (value : String) : Text.isBlank value = true ∨
    (∃ word ∈ onWords, Spells value word) ∨ (∃ word ∈ offWords, Spells value word) ∨
      Unknown value := by
  cases hblank : Text.isBlank value with
  | true => exact .inl rfl
  | false =>
    by_cases hword : ∃ word ∈ onWords ++ offWords, Spells value word
    · obtain ⟨word, hmem, hspells⟩ := hword
      rcases List.mem_append.1 hmem with hon | hoff
      · exact .inr (.inl ⟨word, hon, hspells⟩)
      · exact .inr (.inr (.inl ⟨word, hoff, hspells⟩))
    · exact .inr (.inr (.inr ⟨hblank, fun word hmem h => hword ⟨word, hmem, h⟩⟩))

theorem switches_readFlag (value : Option String) : Switches value (readFlag value).state := by
  cases value with
  | none => exact .unset
  | some value =>
    rcases value_cases value with hblank | ⟨word, hon, h⟩ | ⟨word, hoff, h⟩ | hunknown
    · rw [readFlag_blank hblank]
      exact .blank hblank
    · rw [readFlag_on hon h]
      exact .on hon h
    · rw [readFlag_off hoff h]
      exact .off hoff h
    · rw [readFlag_unknown hunknown]
      exact .unknown hunknown

theorem switches_iff {value : Option String} : Switches value on ↔ (readFlag value).state = on := by
  constructor
  · rintro (⟨hword, h⟩ | ⟨hword, h⟩ | _ | hblank | hunknown)
    · rw [readFlag_off hword h]
      rfl
    · rw [readFlag_on hword h]
      rfl
    · rfl
    · rw [readFlag_blank hblank]
      rfl
    · rw [readFlag_unknown hunknown]
      rfl
  · rintro rfl
    exact switches_readFlag value

/-! ## Warnings -/

/-- There is a warning about a variable exactly if its value is unknown. -/
theorem mem_warnings {w : FlagWarning} {value : Option String} :
    w ∈ (readFlag value).warnings name ↔
      w.name = name ∧ value = some w.value ∧ Unknown w.value := by
  constructor
  · intro h
    cases value with
    | none => exact absurd h List.not_mem_nil
    | some value =>
      rcases value_cases value with hblank | ⟨word, hon, hspells⟩ | ⟨word, hoff, hspells⟩ | hunknown
      · rw [readFlag_blank hblank] at h
        exact absurd h List.not_mem_nil
      · rw [readFlag_on hon hspells] at h
        exact absurd h List.not_mem_nil
      · rw [readFlag_off hoff hspells] at h
        exact absurd h List.not_mem_nil
      · rw [readFlag_unknown hunknown] at h
        obtain rfl := List.mem_singleton.1 h
        exact ⟨rfl, rfl, hunknown⟩
  · rintro ⟨rfl, rfl, hunknown⟩
    rw [readFlag_unknown hunknown]
    exact List.mem_singleton_self w

theorem map_name_warnings (name : String) (reading : FlagReading) :
    ((reading.warnings name).map (·.name)).Sublist [name] := by
  cases reading with
  | absent => exact List.nil_sublist _
  | switched on => exact List.nil_sublist _
  | unknown value => exact .refl _

end CueGraph.Settings
