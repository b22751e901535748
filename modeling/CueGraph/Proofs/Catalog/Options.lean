import Mathlib.Data.List.Nodup
import CueGraph.Call

/-!
# Options that are written when they matter

A call may end in options. Each option has a neutral value, for which it is left out
(`OptionRule.Neutral`). `written` are the options that a node writes by a list of rules: they keep
the order of the rules, and whether one is there depends on nothing but what its own rule reads.

Main statement: `presents`.
-/

namespace CueGraph

/-- The order of the fields of an object does not count. -/
theorem Fields.get?_perm {fields fields' : Fields} (h : fields.Perm fields')
    (hn : (fields.map (·.1)).Nodup) (key : String) :
    Fields.get? fields key = Fields.get? fields' key := by
  unfold Fields.get?
  induction h with
  | nil => rfl
  | cons field _ ih => rw [List.lookup_cons, List.lookup_cons, ih (List.nodup_cons.1 hn).2]
  | swap first second rest =>
    have hne : second.1 ≠ first.1 := by
      rintro heq
      rw [List.map_cons, List.map_cons, heq] at hn
      exact (List.nodup_cons.1 hn).1 List.mem_cons_self
    rw [List.lookup_cons, List.lookup_cons, List.lookup_cons, List.lookup_cons]
    cases hfirst : key == first.1 with
    | false => rfl
    | true =>
      have hsecond : (key == second.1) = false := by
        rw [beq_eq_false_iff_ne, eq_of_beq hfirst]
        exact hne.symm
      rw [hsecond]
  | trans h _ ih ih' => exact (ih hn).trans (ih' ((h.map _).nodup_iff.1 hn))

namespace Config

variable {c : Config} {key other : String}

theorem text_eq (c : Config) (key : String) : c.text key = (c.raw key).text := by
  unfold text textOr
  cases c.raw key <;> rfl

theorem flag_eq (c : Config) (key : String) : c.flag key = (c.raw key).truthy := by
  unfold flag flagOr
  cases c.raw key <;> rfl

theorem flagOr_true : c.flagOr key true = true ↔ c.raw key = .null ∨ (c.raw key).truthy = true := by
  unfold flagOr
  cases c.raw key <;> simp [Value.truthy]

theorem positive_iff : c.positive key = true ↔ ¬(c.raw key).toFinite ≤ .zero := by
  rw [positive, Finite.isPositive, decide_eq_true_iff, Finite.lt_iff_rank_lt,
    Finite.le_iff_rank_le, Int.not_le]
  rfl

theorem nonzero_iff : c.nonzero key = true ↔ ¬(c.raw key).toFinite.isZero = true := by
  rw [nonzero, Bool.not_eq_true', Bool.not_eq_true]
  rfl

theorem nonzero_or_iff : (c.nonzero key || c.nonzero other) = true ↔
    ¬((c.raw key).toFinite.isZero = true ∧ (c.raw other).toFinite.isZero = true) := by
  rw [Bool.or_eq_true, nonzero_iff, nonzero_iff, not_and_or]

theorem hasText_iff_raw : c.hasText key = true ↔ ¬Text.isBlank (c.raw key).text = true := by
  rw [hasText_iff, text_eq, Bool.not_eq_true]

end Config

namespace Catalog

/-! ## Rules -/

/-- How an option of a call is written, and what for. -/
inductive OptionRule where
  /-- A flag that is usually off. -/
  | flag (key : String)
  /-- A flag that is usually on. -/
  | usuallyOn (key : String)
  /-- A number that is usually zero. -/
  | number (key : String)
  /-- A number that counts when it is above zero. -/
  | positive (key : String)
  /-- A text that is usually blank. -/
  | text (key : String)
  /-- A text without the blanks around it, which is usually the same. -/
  | place (key usual : String)
  /-- The easing of a movement. There is none towards the token that the object is bound to. -/
  | easing
  /-- One of two numbers that stand together. -/
  | coordinate (key other : String)
  /-- The offset by two numbers. -/
  | offset
  /-- The strength of a shake, which is always told. -/
  | strength

namespace OptionRule

/-- The name under which the option is written. -/
def key : OptionRule → String
  | flag key | usuallyOn key | number key | positive key | text key | place key _
  | coordinate key _ => key
  | easing => "ease"
  | offset => "offset"
  | strength => "strength"

/-- The options of the node that count. -/
def reads : OptionRule → List String
  | flag key | usuallyOn key | number key | positive key | text key | place key _ => [key]
  | easing => ["ease", "mode"]
  | coordinate key other => [key, other]
  | offset => ["offsetX", "offsetY"]
  | strength => ["strength"]

/-- What is written for the option. -/
def value (c : Config) : OptionRule → Arg
  | flag _ => .flag true
  | usuallyOn _ => .flag false
  | number key | positive key | coordinate key _ => .numeral (c.number key)
  | text key => .quoted (c.text key)
  | place key _ => .quoted (c.trimmed key)
  | easing => .quoted (c.text "ease")
  | offset => .point (c.number "offsetX") (c.number "offsetY")
  | strength => .numeral (c.number "strength")

/-- The option has its neutral value, an option that is absent or null included. -/
def Neutral (c : Config) : OptionRule → Prop
  | flag key => (c.raw key).truthy = false
  | usuallyOn key => c.raw key = .null ∨ (c.raw key).truthy = true
  | number key => (c.raw key).toFinite.isZero = true
  | positive key => (c.raw key).toFinite ≤ .zero
  | text key => Text.isBlank (c.raw key).text = true
  | place key usual =>
    Text.isBlank (c.raw key).text = true ∨ Text.trim (c.raw key).text = usual
  | easing =>
    Text.isBlank (c.raw "ease").text = true ∨ (c.raw "mode").text = "" ∨
      (c.raw "mode").text = TargetMode.inToken.key
  | coordinate key other =>
    (c.raw key).toFinite.isZero = true ∧ (c.raw other).toFinite.isZero = true
  | offset => (c.raw "offsetX").toFinite.isZero = true ∧ (c.raw "offsetY").toFinite.isZero = true
  | strength => False

/-- Whether the option is written. -/
def isWritten (c : Config) : OptionRule → Bool
  | flag key => c.flag key
  | usuallyOn key => !c.flagOr key true
  | number key => c.nonzero key
  | positive key => c.positive key
  | text key => c.hasText key
  | place key usual => c.hasText key && c.trimmed key != usual
  | easing =>
    let mode := Target.modeText c (some TargetMode.inToken.key) "mode"
    if mode = some TargetMode.inToken.key then false else c.hasText "ease"
  | coordinate key other => c.nonzero key || c.nonzero other
  | offset => c.nonzero "offsetX" || c.nonzero "offsetY"
  | strength => true

/-- The option as it is written. -/
def setting (c : Config) (rule : OptionRule) : Setting := ⟨rule.key, rule.value c⟩

/-- The part of the options that a rule gives. -/
def part (c : Config) (rule : OptionRule) : List Setting :=
  settingIf (rule.isWritten c) rule.key (rule.value c)

end OptionRule

/-- The options that a node writes by these rules. -/
def written (c : Config) (rules : List OptionRule) : List Setting := rules.flatMap (·.part c)

/-! ## One rule -/

variable {c c' : Config} {rules : List OptionRule} {rule : OptionRule}

theorem modeText_inToken :
    Target.modeText c (some TargetMode.inToken.key) "mode" = some TargetMode.inToken.key ↔
      (c.raw "mode").text = "" ∨ (c.raw "mode").text = TargetMode.inToken.key := by
  unfold Target.modeText
  dsimp only
  rw [Config.text_eq]
  by_cases hmode : (c.raw "mode").text = ""
  · simp [hmode]
  · simp [hmode, String.isEmpty_iff]

/-- What is written is what is not neutral. -/
theorem isWritten_iff : rule.isWritten c = true ↔ ¬rule.Neutral c := by
  cases rule with
  | flag key =>
    show c.flag key = true ↔ ¬(c.raw key).truthy = false
    rw [Config.flag_eq, Bool.not_eq_false]
  | usuallyOn key =>
    show (!c.flagOr key true) = true ↔ ¬(c.raw key = .null ∨ (c.raw key).truthy = true)
    rw [← Config.flagOr_true, Bool.not_eq_true', Bool.not_eq_true]
  | number key => exact Config.nonzero_iff
  | positive key => exact Config.positive_iff
  | text key => exact Config.hasText_iff_raw
  | place key usual =>
    show (c.hasText key && c.trimmed key != usual) = true ↔
      ¬(Text.isBlank (c.raw key).text = true ∨ Text.trim (c.raw key).text = usual)
    rw [Bool.and_eq_true, Config.hasText_iff_raw, bne_iff_ne, Config.trimmed, Config.text_eq,
      not_or]
  | easing =>
    show (if _ then false else c.hasText "ease") = true ↔ ¬(_ ∨ _)
    rw [← modeText_inToken]
    split
    · next hmode => simp [hmode]
    · next hmode => rw [Config.hasText_iff_raw, or_iff_left hmode]
  | coordinate key other => exact Config.nonzero_or_iff
  | offset => exact Config.nonzero_or_iff
  | strength => exact iff_of_true rfl id

theorem part_of_neutral (h : rule.Neutral c) : rule.part c = [] := by
  have hnot : rule.isWritten c = false := by
    rw [← Bool.not_eq_true, isWritten_iff, not_not]
    exact h
  rw [OptionRule.part, settingIf, hnot]
  rfl

theorem part_of_not_neutral (h : ¬rule.Neutral c) : rule.part c = [rule.setting c] := by
  rw [OptionRule.part, settingIf, isWritten_iff.2 h]
  rfl

/-- A rule depends on what it reads alone. -/
theorem neutral_congr (h : ∀ key ∈ rule.reads, c.raw key = c'.raw key) :
    rule.Neutral c ↔ rule.Neutral c' := by
  cases rule <;> simp_all [OptionRule.reads, OptionRule.Neutral]

theorem value_congr (h : ∀ key ∈ rule.reads, c.raw key = c'.raw key) :
    rule.value c = rule.value c' := by
  cases rule <;> simp_all [OptionRule.reads, OptionRule.value, Config.text_eq, Config.trimmed,
    Config.number]

/-! ## All rules of a call -/

theorem mem_written {s : Setting} :
    s ∈ written c rules ↔ ∃ rule ∈ rules, ¬rule.Neutral c ∧ s = rule.setting c := by
  rw [written, List.mem_flatMap]
  refine exists_congr fun rule => and_congr_right fun _ => ?_
  by_cases h : rule.Neutral c
  · rw [part_of_neutral h]
    exact iff_of_false List.not_mem_nil fun hs => hs.1 h
  · rw [part_of_not_neutral h, List.mem_singleton, and_iff_right h]

theorem keys_written (c : Config) (rules : List OptionRule) :
    ((written c rules).map (·.key)).Sublist (rules.map (·.key)) := by
  induction rules with
  | nil => exact .slnil
  | cons rule rest ih =>
    rw [written, List.flatMap_cons, List.map_append, List.map_cons]
    by_cases h : rule.Neutral c
    · rw [part_of_neutral h]
      exact ih.cons _
    · rw [part_of_not_neutral h]
      exact ih.cons_cons _

/-- Rules with different names are told apart by their names. -/
theorem rule_of_key {rule' : OptionRule} (hn : (rules.map (·.key)).Nodup) (h : rule ∈ rules)
    (h' : rule' ∈ rules) (hkey : rule.key = rule'.key) : rule = rule' :=
  List.inj_on_of_nodup_map hn h h' hkey

theorem key_mem_written (hn : (rules.map (·.key)).Nodup) (h : rule ∈ rules) :
    rule.key ∈ (written c rules).map (·.key) ↔ ¬rule.Neutral c := by
  rw [List.mem_map]
  constructor
  · rintro ⟨s, hs, hkey⟩
    obtain ⟨rule', h', hnot, rfl⟩ := mem_written.1 hs
    rwa [rule_of_key hn h h' hkey.symm]
  · intro hnot
    exact ⟨rule.setting c, mem_written.2 ⟨rule, h, hnot, rfl⟩, rfl⟩

theorem written_congr (h : ∀ key, c.raw key = c'.raw key) : written c rules = written c' rules := by
  have hpart : ∀ rule ∈ rules, rule.part c = rule.part c' := by
    intro rule _
    have hneutral : rule.Neutral c ↔ rule.Neutral c' := neutral_congr fun key _ => h key
    by_cases hr : rule.Neutral c
    · rw [part_of_neutral hr, part_of_neutral (hneutral.1 hr)]
    · rw [part_of_not_neutral hr, part_of_not_neutral (mt hneutral.2 hr), OptionRule.setting,
        value_congr fun key _ => h key]
      rfl
  exact List.flatMap_congr hpart

/-- The options that a node writes by the rules of its call. -/
structure Presents (c : Config) (rules : List OptionRule) : Prop where
  /-- The names keep the order of the rules. -/
  order : ((written c rules).map (·.key)).Sublist (rules.map (·.key))
  distinct : ((written c rules).map (·.key)).Nodup
  nonempty : written c rules ≠ [] ↔ ∃ rule ∈ rules, ¬rule.Neutral c
  each : ∀ rule ∈ rules, rule.key ∈ (written c rules).map (·.key) ↔ ¬rule.Neutral c
  /-- An option is written with its own value. -/
  value : ∀ rule ∈ rules, ∀ s ∈ written c rules, s.key = rule.key → s.value = rule.value c
  /-- The options that a rule does not read have no part in it. -/
  own : ∀ rule ∈ rules, ∀ c' : Config, (∀ key ∈ rule.reads, c.raw key = c'.raw key) →
    (rule.key ∈ (written c rules).map (·.key) ↔ rule.key ∈ (written c' rules).map (·.key))
  /-- Nor has the order in which the node holds its options. -/
  reordered : ∀ fields : Fields, c.fields.Perm fields → (c.fields.map (·.1)).Nodup →
    written ⟨fields⟩ rules = written c rules

theorem presents (c : Config) (hn : (rules.map (·.key)).Nodup) : Presents c rules where
  order := keys_written c rules
  distinct := (keys_written c rules).nodup hn
  nonempty := by
    constructor
    · intro hne
      obtain ⟨s, hs⟩ := List.exists_mem_of_ne_nil _ hne
      obtain ⟨rule, h, hnot, -⟩ := mem_written.1 hs
      exact ⟨rule, h, hnot⟩
    · rintro ⟨rule, h, hnot⟩
      exact List.ne_nil_of_mem (mem_written.2 ⟨rule, h, hnot, rfl⟩)
  each := fun rule h => key_mem_written hn h
  value := by
    intro rule h s hs hkey
    obtain ⟨rule', h', -, rfl⟩ := mem_written.1 hs
    obtain rfl := rule_of_key hn h' h hkey
    rfl
  own := by
    intro rule h c' hreads
    rw [key_mem_written hn h, key_mem_written hn h, neutral_congr hreads]
  reordered := by
    intro fields hperm hkeys
    refine (written_congr fun key => ?_).symm
    rw [Config.raw, Config.raw, Fields.get?_perm hperm hkeys]

end Catalog

end CueGraph
