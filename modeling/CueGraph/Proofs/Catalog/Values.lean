import CueGraph.Catalog.Builtin
import CueGraph.Proofs.Compile.Visit

/-!
# Values that override

A child of a value type (`valueTypes`) adds a call with the number of its only option, zero
included, and adds nothing without one. An option gives a number when it is there, is not blank and
is a number (`GivesNumber`). The empty text gives none, but a text of blanks alone is taken for zero
(`Overrides`).

Main statement: `values_override`.
-/

namespace CueGraph

namespace Catalog

/-- The types whose nodes add one call, of a method that is named like the type and the option. -/
def valueTypes : List String := ["duration", "opacity", "volume", "moveSpeed", "rotate", "zIndex"]

theorem behaviour_valueType {type : String} (ht : type ∈ valueTypes) : ∃ families,
    Registry.builtin.behaviour? type = some (.child families fun node =>
      .pushAll ((valueCall type (.of node.config)).map Call.line)) := by
  simp only [valueTypes, List.mem_cons, List.not_mem_nil, or_false] at ht
  rcases ht with rfl | rfl | rfl | rfl | rfl | rfl
  · exact ⟨_, rfl⟩
  · exact ⟨_, rfl⟩
  · exact ⟨_, rfl⟩
  · exact ⟨_, rfl⟩
  · exact ⟨_, rfl⟩
  · exact ⟨_, rfl⟩

/-- The value is there, is not blank and is the number. -/
structure GivesNumber (v : Value) (x : Finite) : Prop where
  present : v ≠ .null
  notBlank : ∀ s, v = .str s → Text.isBlank s = false
  number : v.toFinite? = some x

/-- The number that a value of an option stands for in a call. -/
inductive Overrides : Value → Finite → Prop
  | number {v : Value} {x : Finite} (h : GivesNumber v x) : Overrides v x
  | blanks {s : String} (hne : s ≠ "") (hblank : Text.isBlank s = true) : Overrides (.str s) .zero

variable {v : Value} {x : Finite} {s key : String} {c : Config}

theorem not_overrides_null : ¬ Overrides .null x := by
  rintro ⟨hpresent, -, -⟩
  exact hpresent rfl

theorem not_overrides_empty : ¬ Overrides (.str "") x := by
  rintro (⟨-, hblank, -⟩ | ⟨hne, -⟩)
  · cases hblank "" rfl
  · exact hne rfl

/-- A text that is not empty is read, blanks alone as zero. -/
theorem overrides_str (hne : s ≠ "") : Overrides (.str s) x ↔ Finite.read? s = some x := by
  cases hblank : Text.isBlank s with
  | true =>
    rw [Finite.read?_eq_zero_of_isBlank hblank, Option.some.injEq]
    constructor
    · rintro (⟨-, hnot, -⟩ | -)
      · rw [hnot s rfl] at hblank
        cases hblank
      · rfl
    · rintro rfl
      exact .blanks hne hblank
  | false =>
    constructor
    · rintro (⟨-, -, hx⟩ | ⟨-, htrue⟩)
      · exact hx
      · rw [htrue] at hblank
        cases hblank
    · intro hx
      refine .number ⟨nofun, ?_, hx⟩
      rintro _ ⟨⟩
      exact hblank

theorem overrides_of_ne (hnull : v ≠ .null) (htext : ∀ s, v ≠ .str s) :
    Overrides v x ↔ v.toFinite? = some x := by
  constructor
  · rintro (⟨-, -, hx⟩ | -)
    · exact hx
    · exact absurd rfl (htext _)
  · intro hx
    exact .number ⟨hnull, fun s hs => absurd hs (htext s), hx⟩

theorem number?_eq_some_iff : c.number? key = some x ↔ Overrides (c.raw key) x := by
  unfold Config.number? Config.isSet
  cases hraw : c.raw key with
  | null => simp [not_overrides_null]
  | str s =>
    by_cases hempty : s = ""
    · simp [hempty, not_overrides_empty]
    · rw [overrides_str hempty, if_pos (by simpa using hempty)]
      rfl
  | _ =>
    rw [if_pos rfl, overrides_of_ne]
    · nofun
    · nofun

/-! ## Main theorem -/

variable {child : Node} {block : Block}

theorem addChild_valueType (ht : child.type ∈ valueTypes) (p : Progress)
    (hj : Registry.builtin.joins block.family child = true) :
    Registry.builtin.addChild block p child =
      (block.extend ((valueCall child.type (.of child.config)).map Call.line), p) := by
  obtain ⟨families, hb⟩ := behaviour_valueType ht
  exact Registry.addChild_pushAll p hb hj rfl

theorem addChild_of_overrides (ht : child.type ∈ valueTypes) (p : Progress)
    (hj : Registry.builtin.joins block.family child = true)
    (hx : Overrides ((Config.of child.config).raw child.type) x) :
    Registry.builtin.addChild block p child =
      (block.extend ["  ." ++ child.type ++ "(" ++ x.numeral ++ ")"], p) := by
  rw [addChild_valueType ht p hj, valueCall, number?_eq_some_iff.2 hx]
  rfl

/-- A child of a value type adds the call with the number that its option stands for, and nothing
else; it adds nothing when the option stands for none. -/
theorem values_override (ht : child.type ∈ valueTypes) (block : Block) (p : Progress)
    (hj : Registry.builtin.joins block.family child = true) :
    let value := (Config.of child.config).raw child.type
    (∀ x, Overrides value x → Registry.builtin.addChild block p child =
      (block.extend ["  ." ++ child.type ++ "(" ++ x.numeral ++ ")"], p)) ∧
    ((¬∃ x, Overrides value x) → Registry.builtin.addChild block p child = (block, p)) := by
  intro value
  constructor
  · intro x hx
    exact addChild_of_overrides ht p hj hx
  · intro hnone
    have hnumber : (Config.of child.config).number? child.type = none := by
      rw [Option.eq_none_iff_forall_ne_some]
      intro x hx
      exact hnone ⟨x, number?_eq_some_iff.1 hx⟩
    rw [addChild_valueType ht p hj, valueCall, hnumber]
    simp [Block.extend]

/-- A node that sets the opacity to a value. -/
def opacityNode (value : Value) : Node :=
  { id := "o", type := "opacity", config := .object [("opacity", value)] }

def effectBlock : Block := { node := "f", family := Family.effect.key }

theorem values_override_zero :
    let zero := opacityNode (.double (.finite .zero))
    let null := opacityNode .null
    zero.type ∈ valueTypes ∧ null.type ∈ valueTypes ∧
      Registry.builtin.joins effectBlock.family zero = true ∧
      Registry.builtin.joins effectBlock.family null = true ∧
      (Registry.builtin.addChild effectBlock {} zero).1.lines = ["  .opacity(0)"] ∧
      (Registry.builtin.addChild effectBlock {} null).1.lines = [] := by
  intro zero null
  have ht : "opacity" ∈ valueTypes := .tail _ (.head _)
  have hzero : Registry.builtin.joins effectBlock.family zero = true := by rfl
  have hnull : Registry.builtin.joins effectBlock.family null = true := by rfl
  refine ⟨ht, ht, hzero, hnull, ?_, ?_⟩
  · have hgives : GivesNumber (.double (.finite .zero)) .zero := ⟨nofun, nofun, rfl⟩
    rw [(@values_override zero ht effectBlock {} hzero).1 .zero (.number hgives)]
    rfl
  · rw [(@values_override null ht effectBlock {} hnull).2]
    · rfl
    · rintro ⟨x, hx⟩
      exact not_overrides_null hx

/-- Blanks alone give no number, and still a line is added for them. -/
theorem values_override_blanks : ¬∀ (child : Node) (block : Block) (p : Progress),
    child.type ∈ valueTypes → Registry.builtin.joins block.family child = true →
      (Registry.builtin.addChild block p child).1.lines ≠ block.lines →
        ∃ x, GivesNumber ((Config.of child.config).raw child.type) x := by
  intro h
  let blanks := opacityNode (.str "  ")
  have ht : blanks.type ∈ valueTypes := .tail _ (.head _)
  have hj : Registry.builtin.joins effectBlock.family blanks = true := by rfl
  have hadded : (Registry.builtin.addChild effectBlock {} blanks).1.lines = ["  .opacity(0)"] := by
    rw [@addChild_of_overrides .zero blanks effectBlock ht {} hj (.blanks (by simp) (by rfl))]
    rfl
  obtain ⟨x, -, hblank, -⟩ := h blanks effectBlock {} ht hj (by rw [hadded]; nofun)
  cases hblank "  " rfl

end Catalog

end CueGraph
