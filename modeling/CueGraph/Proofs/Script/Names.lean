import Mathlib.Data.List.Forall2
import Mathlib.Data.List.Induction
import Mathlib.Data.List.Nodup
import CueGraph.Script.Pass

/-!
# Names from one counter

The name that a call gets is its stem with the number of the call behind, and nothing in between.
So the names of two calls are the same when the number of the later one begins with digits that the
stem of the earlier one ends in (`name_eq_iff`), as with `a1` and `a` in the calls 1 and 11. Names
from some stems never clash exactly if no stem is another one with a number behind
(`names_nodup_iff`), so they do not where no stem ends in a digit (`apart_of_no_digit`).
-/

namespace CueGraph

/-- A call for a name: for the name alone, or for the declaration of an expression. -/
inductive NameCall where
  | next (stem : String)
  | declare (stem expression : String)

namespace NameCall

def stem : NameCall → String
  | next stem => stem
  | declare stem _ => stem

/-- The pass after a call. -/
def perform (p : Pass) : NameCall → Pass
  | next _ => p.count
  | declare stem expression => p.declare stem expression

end NameCall

/-- The names that calls get one after the other, and the pass that they leave. -/
def Pass.performAll : Pass → List NameCall → List String × Pass
  | p, [] => ([], p)
  | p, call :: rest =>
    let (names, after) := performAll (call.perform p) rest
    (p.nextName call.stem :: names, after)

/-- A line declares a name. -/
def Introduces (line name : String) : Prop := ∃ expression, line = Pass.declaration name expression

/-- No stem is another one with a number behind. -/
def Apart (stems : String → Prop) : Prop :=
  ∀ stem, stems stem → ∀ n > 0, ¬ stems (stem ++ toString n)

/-! ## Numerals -/

section Numerals

variable {m n : ℕ}

theorem digits_toString (n : ℕ) : (toString n).toList = Nat.toDigits 10 n := by
  rw [Nat.toString_eq_repr, Nat.toList_repr]

theorem toDigits_inj (h : Nat.toDigits 10 m = Nat.toDigits 10 n) : m = n := by
  have hread := congrArg (Nat.ofDigitChars 10 · 0) h
  simpa [Nat.ofDigitChars_toDigits] using hread

theorem toString_concat (hn : 0 < n) {d : ℕ} (hd : d < 10) :
    toString (10 * n + d) = toString n ++ toString d := by
  rw [← String.toList_inj, String.toList_append, digits_toString, digits_toString, digits_toString,
    Nat.toDigits_append_toDigits (by decide) hn hd]

theorem length_toDigits_mono (h : m ≤ n) :
    (Nat.toDigits 10 m).length ≤ (Nat.toDigits 10 n).length := by
  rw [Nat.length_toDigits_le_iff (by decide) Nat.length_toDigits_pos]
  exact Nat.lt_of_le_of_lt h
    ((Nat.length_toDigits_le_iff (by decide) Nat.length_toDigits_pos).1 (Nat.le_refl _))

/-- The first digits of a positive number are a positive number. -/
theorem number_of_front {front behind : List Char} (hm : 0 < m) (hfront : front ≠ [])
    (h : Nat.toDigits 10 m = front ++ behind) : ∃ n > 0, front = Nat.toDigits 10 n := by
  induction behind using List.reverseRecOn generalizing m with
  | nil => exact ⟨m, hm, by rw [h, List.append_nil]⟩
  | append_singleton behind last ih =>
    rcases Nat.lt_or_ge m 10 with hlt | hge
    · -- there is one digit only, so nothing stands in front of the last one
      rw [Nat.toDigits_of_lt_base hlt, ← List.append_assoc] at h
      have hlast : [] ++ [Nat.digitChar m] = front ++ behind ++ [last] := h
      have hnil := (List.append_inj' hlast rfl).1
      exact absurd (List.append_eq_nil_iff.1 hnil.symm).1 hfront
    · rw [Nat.toDigits_of_base_le (by decide) hge, ← List.append_assoc] at h
      exact ih (Nat.div_pos hge (by decide)) (List.append_inj' h rfl).1

end Numerals

/-! ## Stems -/

/-- Stems that end in no digit are apart. -/
theorem apart_of_no_digit {stems : String → Prop}
    (h : ∀ stem, stems stem → ∀ c, stem.toList.getLast? = some c → c.isDigit = false) :
    Apart stems := by
  intro stem _ n _ hother
  have hne : Nat.toDigits 10 n ≠ [] := Nat.toDigits_ne_nil
  have hlast : (stem ++ toString n).toList.getLast? = some ((Nat.toDigits 10 n).getLast hne) := by
    rw [String.toList_append, digits_toString, List.getLast?_append,
      List.getLast?_eq_some_getLast hne, Option.some_or]
  have hdigit := Nat.isDigit_of_mem_toDigits (by decide) (by decide) (List.getLast_mem hne)
  rw [h _ hother _ hlast] at hdigit
  cases hdigit

/-! ## Two names -/

/-- The names of two calls are the same exactly if the number of the later one begins with a number
that the stem of the earlier one has behind the stem of the later one. -/
theorem name_eq_iff {stem stem' : String} {i j : ℕ} (h : i < j) :
    stem ++ toString i = stem' ++ toString j ↔
      ∃ n > 0, stem = stem' ++ toString n ∧ toString j = toString n ++ toString i := by
  constructor
  · intro heq
    have hlist := congrArg String.toList heq
    rw [String.toList_append, String.toList_append, digits_toString, digits_toString] at hlist
    have hne : Nat.toDigits 10 i ≠ Nat.toDigits 10 j := fun hsame =>
      Nat.ne_of_lt h (toDigits_inj hsame)
    rcases List.append_eq_append_iff.1 hlist with ⟨front, -, hdigits⟩ | ⟨front, hstem, hdigits⟩
    · -- the smaller number has no more digits, so nothing stands in front of the larger one
      have hlength := length_toDigits_mono (Nat.le_of_lt h)
      rw [hdigits, List.length_append] at hlength
      obtain rfl : front = [] := List.eq_nil_of_length_eq_zero (by omega)
      exact absurd hdigits hne
    · have hfront : front ≠ [] := by
        rintro rfl
        exact hne hdigits.symm
      obtain ⟨n, hn, rfl⟩ := number_of_front (Nat.lt_of_le_of_lt (Nat.zero_le i) h) hfront hdigits
      refine ⟨n, hn, ?_, ?_⟩
      · rw [← String.toList_inj, hstem, String.toList_append, digits_toString]
      · rw [← String.toList_inj, String.toList_append, digits_toString, digits_toString,
          digits_toString, hdigits]
  · rintro ⟨n, -, rfl, hj⟩
    rw [hj, String.append_assoc]

namespace Pass

variable {p : Pass} {calls : List NameCall} {stems : String → Prop}

/-! ## Names of calls -/

theorem counter_perform (p : Pass) (call : NameCall) :
    (call.perform p).counter = p.counter + 1 := by
  cases call <;> rfl

/-- The number of a call counts the calls, whatever their stems are. -/
theorem names_performAll (p : Pass) (calls : List NameCall) :
    (p.performAll calls).1 =
      calls.mapIdx fun i call => call.stem ++ toString (p.counter + i + 1) := by
  induction calls generalizing p with
  | nil => rfl
  | cons call rest ih =>
    have hname : p.nextName call.stem = call.stem ++ toString (p.counter + 0 + 1) := rfl
    have hnames := ih (call.perform p)
    simp only [counter_perform, Nat.add_right_comm p.counter 1] at hnames
    rw [performAll, List.mapIdx_cons, ← hname]
    exact congrArg _ hnames

theorem getElem?_performAll (calls : List NameCall) {i : ℕ} (hi : i < calls.length) :
    (({} : Pass).performAll calls).1[i]? = some (calls[i].stem ++ toString (i + 1)) := by
  rw [names_performAll, List.getElem?_mapIdx, List.getElem?_eq_getElem hi, Option.map_some,
    Nat.zero_add]

/-- Two calls get the same name exactly if the number of the later one begins with a number that the
stem of the earlier one has behind the stem of the later one. -/
theorem names_clash_iff (calls : List NameCall) {i j : ℕ} (h : i < j) (hj : j < calls.length) :
    (({} : Pass).performAll calls).1[i]? = (({} : Pass).performAll calls).1[j]? ↔
      ∃ n > 0, calls[i].stem = calls[j].stem ++ toString n ∧
        toString (j + 1) = toString n ++ toString (i + 1) := by
  rw [getElem?_performAll calls (Nat.lt_trans h hj), getElem?_performAll calls hj,
    Option.some.injEq]
  exact name_eq_iff (Nat.succ_lt_succ h)

theorem nodup_performAll (h : Apart stems) (hcalls : ∀ call ∈ calls, stems call.stem) :
    (({} : Pass).performAll calls).1.Nodup := by
  rw [List.nodup_iff_getElem?_ne_getElem?]
  intro i j hij hj hsame
  rw [names_performAll, List.length_mapIdx] at hj
  obtain ⟨n, hn, hstem, -⟩ := (names_clash_iff calls hij hj).1 hsame
  have hearlier := hcalls _ (List.getElem_mem (Nat.lt_trans hij hj))
  rw [hstem] at hearlier
  exact h _ (hcalls _ (List.getElem_mem hj)) n hn hearlier

/-- Ten times `n` calls under a stem with `n` behind it, and then one under the stem alone. -/
def clashing (stem : String) (n : ℕ) : List NameCall :=
  List.replicate (10 * n) (.next (stem ++ toString n)) ++ [.next stem]

theorem not_nodup_clashing (stem : String) {n : ℕ} (hn : 0 < n) :
    ¬ (({} : Pass).performAll (clashing stem n)).1.Nodup := by
  have hlength : (clashing stem n).length = 10 * n + 1 := by simp [clashing]
  have hfirst : (clashing stem n)[0] = .next (stem ++ toString n) := by
    simp only [clashing]
    rw [List.getElem_append_left (by rw [List.length_replicate]; omega), List.getElem_replicate]
  have hlast : (clashing stem n)[10 * n] = .next stem := by
    simp [clashing]
  -- the number of the last call is that of the first one behind the number of the stem
  have hsame := (names_clash_iff (clashing stem n) (i := 0) (j := 10 * n) (by omega) (by omega)).2
    ⟨n, hn, by rw [hfirst, hlast]; rfl, by rw [toString_concat hn (by decide)]⟩
  intro hnodup
  rw [List.nodup_iff_getElem?_ne_getElem?] at hnodup
  refine hnodup 0 (10 * n) (by omega) ?_ hsame
  rw [names_performAll, List.length_mapIdx, hlength]
  omega

/-- Names from some stems never clash exactly if no stem is another one with a number behind. -/
theorem names_nodup_iff : (∀ calls : List NameCall, (∀ call ∈ calls, stems call.stem) →
    (({} : Pass).performAll calls).1.Nodup) ↔ Apart stems := by
  constructor
  · intro h stem hstem n hn hother
    refine not_nodup_clashing stem hn (h _ ?_)
    rw [clashing, List.forall_mem_append, List.forall_mem_singleton]
    exact ⟨fun call hcall => List.eq_of_mem_replicate hcall ▸ hother, hstem⟩
  · exact fun h calls hcalls => nodup_performAll h hcalls

/-! ## Declarations of calls -/

theorem performAll_concat (p : Pass) (calls : List NameCall) (call : NameCall) :
    (p.performAll (calls ++ [call])).2 = call.perform (p.performAll calls).2 := by
  induction calls generalizing p with
  | nil => rfl
  | cons first rest ih => exact ih _

/-- The declarations of calls introduce some of the names, in order. -/
theorem introduces_performAll (p : Pass) (calls : List NameCall) :
    ∃ lines, (p.performAll calls).2.declarations = p.declarations ++ lines ∧
      List.SublistForall₂ Introduces lines (p.performAll calls).1 := by
  induction calls generalizing p with
  | nil => exact ⟨[], (List.append_nil _).symm, .nil⟩
  | cons call rest ih =>
    obtain ⟨lines, hlines, hnames⟩ := ih (call.perform p)
    cases call with
    | next stem => exact ⟨lines, hlines, .cons_right hnames⟩
    | declare stem expression =>
      exact ⟨_ :: lines, hlines.trans (List.append_assoc _ _ _), .cons ⟨expression, rfl⟩ hnames⟩

/-- What has been declared in a pass are the declarations of calls for names from some stems, and
all calls are counted. -/
def Made (stems : String → Prop) (p : Pass) : Prop :=
  ∃ calls : List NameCall, (∀ call ∈ calls, stems call.stem) ∧
    p.declarations = (({} : Pass).performAll calls).2.declarations ∧
    p.counter = (({} : Pass).performAll calls).2.counter

theorem made_empty (stems : String → Prop) : Made stems {} :=
  ⟨[], List.forall_mem_nil _, rfl, rfl⟩

theorem Made.declare {stem : String} (h : p.Made stems) (hstem : stems stem)
    (expression : String) : (p.declare stem expression).Made stems := by
  obtain ⟨calls, hcalls, hdeclarations, hcounter⟩ := h
  refine ⟨calls ++ [.declare stem expression], ?_, ?_, ?_⟩
  · rw [List.forall_mem_append, List.forall_mem_singleton]
    exact ⟨hcalls, hstem⟩
  · rw [performAll_concat]
    simp only [Pass.declare, NameCall.perform, nextName, hdeclarations, hcounter]
  · rw [performAll_concat]
    simp only [Pass.declare, NameCall.perform, hcounter]

/-- What is declared under stems that are apart introduces different names. -/
theorem Made.introduces (h : p.Made stems) (hstems : Apart stems) :
    ∃ names : List String, names.Nodup ∧ List.SublistForall₂ Introduces p.declarations names := by
  obtain ⟨calls, hcalls, hdeclarations, -⟩ := h
  obtain ⟨lines, hlines, hnames⟩ := introduces_performAll {} calls
  rw [hdeclarations, hlines]
  exact ⟨_, nodup_performAll hstems hcalls, hnames⟩

end Pass

end CueGraph
