import CueGraph.Script.Program

/-!
# Slots point at their lines

Lines are added to a block and reserved in any order, and a slot can be reserved again. Whatever the
calls on a new block (`Block.performAll`), a slot stands for the last call that reserved it
(`LastReserve`): its place is that of the line which that call added, its value the one which that
call kept. So writing the line of a slot anew always finds the line there.

Main statement: `Block.slots_point`. One call is `Block.slot?_perform` for the slots and
`Block.keepsLines_perform` for the lines.
-/

namespace CueGraph

/-- A call on a block. -/
inductive BlockCall where
  | push (line : String)
  | extend (lines : List String)
  | reserve (slot line : String) (value : Value)
  | fill (slot line : String)

namespace BlockCall

/-- The lines that a call adds. -/
def added : BlockCall → List String
  | push line => [line]
  | extend lines => lines
  | reserve _ line _ => [line]
  | fill .. => []

/-- The call reserves the slot of this name. -/
def Reserves (name : String) : BlockCall → Prop
  | reserve slot .. => slot = name
  | _ => False

end BlockCall

/-- The last of the calls that reserves the slot adds this line and keeps this value, behind the
calls `before`. -/
def LastReserve (calls : List BlockCall) (name : String) (before : List BlockCall) (line : String)
    (value : Value) : Prop :=
  ∃ after, calls = before ++ .reserve name line value :: after ∧
    ∀ call ∈ after, ¬call.Reserves name

/-- Either some call reserves the slot, and one of them is the last, or none does. -/
theorem exists_lastReserve (calls : List BlockCall) (name : String) :
    (∃ before line value, LastReserve calls name before line value) ∨
      ∀ call ∈ calls, ¬call.Reserves name := by
  induction calls with
  | nil => exact .inr (List.forall_mem_nil _)
  | cons call rest ih =>
    rcases ih with ⟨before, line, value, after, rfl, hafter⟩ | hnone
    · exact .inl ⟨call :: before, line, value, after, rfl, hafter⟩
    · by_cases hcall : call.Reserves name
      · cases call with
        | reserve slot line value =>
          obtain rfl : slot = name := hcall
          exact .inl ⟨[], line, value, rest, rfl, hnone⟩
        | _ => exact hcall.elim
      · exact .inr (List.forall_mem_cons.2 ⟨hcall, hnone⟩)

namespace Block

/-- Makes a call. -/
def perform (b : Block) : BlockCall → Block
  | .push line => b.push line
  | .extend lines => b.extend lines
  | .reserve slot line value => b.reserve slot line value
  | .fill slot line => b.fill slot line

/-- Makes calls one after the other. -/
def performAll (b : Block) (calls : List BlockCall) : Block := calls.foldl perform b

variable {b : Block} {calls before : List BlockCall} {call : BlockCall} {name line : String}
  {value : Value}

theorem performAll_append (more : List BlockCall) :
    b.performAll (calls ++ more) = (b.performAll calls).performAll more := List.foldl_append

/-! ## Slots -/

theorem find?_putSlot (slot : Slot) (slots : List Slot) (name : String) :
    (putSlot slot slots).find? (·.name == name) =
      if slot.name = name then some slot else slots.find? (·.name == name) := by
  induction slots with
  | nil => by_cases h : slot.name = name <;> simp [putSlot, h]
  | cons other rest ih =>
    by_cases hother : other.name = slot.name
    · by_cases h : slot.name = name <;> simp [putSlot, hother, h]
    · rw [putSlot, if_neg hother, List.find?_cons, List.find?_cons, ih]
      by_cases h : slot.name = name
      · have hne : (other.name == name) = false := by simpa [← h] using hother
        simp [h, hne]
      · simp [h]

theorem slot?_fill (b : Block) (name line other : String) :
    (b.fill name line).slot? other = b.slot? other := by
  unfold fill
  split <;> rfl

/-- A slot is put at the line that is added with it. -/
theorem slot?_reserve (b : Block) (name line : String) (value : Value) (other : String) :
    (b.reserve name line value).slot? other =
      if name = other then some ⟨name, b.lines.length, value⟩ else b.slot? other :=
  find?_putSlot ⟨name, b.lines.length, value⟩ b.slots other

theorem slot?_perform (hcall : ¬call.Reserves name) (b : Block) :
    (b.perform call).slot? name = b.slot? name := by
  cases call with
  | push line => rfl
  | extend lines => rfl
  | reserve slot line value => exact (slot?_reserve b slot line value name).trans (if_neg hcall)
  | fill slot line => exact slot?_fill b slot line name

/-- Calls that do not reserve a slot leave it as it is. -/
theorem slot?_performAll (hcalls : ∀ call ∈ calls, ¬call.Reserves name) (b : Block) :
    (b.performAll calls).slot? name = b.slot? name := by
  induction calls generalizing b with
  | nil => rfl
  | cons call rest ih =>
    obtain ⟨hcall, hrest⟩ := List.forall_mem_cons.1 hcalls
    exact (ih hrest (b.perform call)).trans (slot?_perform hcall b)

/-- A slot is the one that was reserved last, at the line that was added then. -/
theorem slot?_of_lastReserve (h : LastReserve calls name before line value) (b : Block) :
    (b.performAll calls).slot? name = some ⟨name, (b.performAll before).lines.length, value⟩ := by
  obtain ⟨after, rfl, hafter⟩ := h
  rw [performAll_append]
  refine (slot?_performAll hafter _).trans ?_
  rw [perform, slot?_reserve, if_pos rfl]

/-! ## Lines -/

/-- A call from `b` to `b'` keeps the lines: each stays at its place, but for the line of a slot
that the call fills, and the lines that it adds come behind them. -/
structure KeepsLines (b : Block) (call : BlockCall) (b' : Block) : Prop where
  kept : ∀ place < b.lines.length, b'.lines[place]? = b.lines[place]? ∨
    ∃ name line slot, call = .fill name line ∧ b.slot? name = some slot ∧ slot.place = place
  added : b'.lines.drop b.lines.length = call.added
  length : b'.lines.length = b.lines.length + call.added.length

theorem keepsLines_append {lines : List String} (hlines : call.added = lines) {b' : Block}
    (h : b'.lines = b.lines ++ lines) : b.KeepsLines call b' where
  kept place hplace := .inl (by rw [h, List.getElem?_append_left hplace])
  added := by rw [h, List.drop_left, hlines]
  length := by rw [h, List.length_append, hlines]

theorem keepsLines_fill (b : Block) (name line : String) :
    b.KeepsLines (.fill name line) (b.fill name line) := by
  unfold fill
  cases hslot : b.slot? name with
  | none => exact keepsLines_append rfl (List.append_nil _).symm
  | some slot =>
    refine ⟨fun place hplace => ?_, ?_, List.length_set⟩
    · by_cases h : slot.place = place
      · exact .inr ⟨name, line, slot, rfl, hslot, h⟩
      · exact .inl (List.getElem?_set_ne h)
    · exact List.drop_eq_nil_of_le (Nat.le_of_eq List.length_set)

theorem keepsLines_perform (b : Block) (call : BlockCall) : b.KeepsLines call (b.perform call) := by
  cases call with
  | push line => exact keepsLines_append rfl rfl
  | extend lines => exact keepsLines_append rfl rfl
  | reserve slot line value => exact keepsLines_append rfl rfl
  | fill slot line => exact keepsLines_fill b slot line

theorem length_performAll (b : Block) (calls : List BlockCall) :
    b.lines.length ≤ (b.performAll calls).lines.length := by
  induction calls generalizing b with
  | nil => exact Nat.le_refl _
  | cons call rest ih =>
    have hcall := (b.keepsLines_perform call).length
    have hrest : _ ≤ (b.performAll (call :: rest)).lines.length := ih (b.perform call)
    omega

/-- The line that was reserved is there, whatever calls came after. -/
theorem length_lt_of_lastReserve (h : LastReserve calls name before line value) (b : Block) :
    (b.performAll before).lines.length < (b.performAll calls).lines.length := by
  obtain ⟨after, rfl, -⟩ := h
  have hreserve := ((b.performAll before).keepsLines_perform (.reserve name line value)).length
  have hafter := length_performAll ((b.performAll before).perform (.reserve name line value)) after
  rw [hreserve] at hafter
  rw [performAll_append]
  exact Nat.lt_of_succ_le hafter

/-! ## Main theorem -/

/-- After any calls on a new block: a slot stands at the line that the last call to reserve it
added, a place below the number of lines, and keeps the value of that call; filling it succeeds and
changes that line alone. A slot that no call has reserved keeps nothing, and filling it fails and
changes nothing. And whatever call comes next, it leaves the lines where they are, but for the line
that it fills, and adds its own behind them. -/
theorem slots_point (node family : String) (calls : List BlockCall) :
    let start : Block := { node, family }
    let b := start.performAll calls
    (∀ name before line value, LastReserve calls name before line value →
      let place := (start.performAll before).lines.length
      b.slot? name = some ⟨name, place, value⟩ ∧ place < b.lines.length ∧
      (start.performAll (before ++ [.reserve name line value])).lines =
        (start.performAll before).lines ++ [line] ∧
      (∀ fallback, b.slotValue name fallback = value) ∧
      ∀ new pass, (Program.fill name new .done).run ⟨b, pass⟩ =
        (true, ⟨{ b with lines := b.lines.set place new }, pass⟩)) ∧
    (∀ name, (∀ call ∈ calls, ¬call.Reserves name) →
      b.slot? name = none ∧ (∀ fallback, b.slotValue name fallback = fallback) ∧
      ∀ new pass, (Program.fill name new .done).run ⟨b, pass⟩ = (false, ⟨b, pass⟩)) ∧
    (∀ name, b.hasSlot name = true ↔
      ∃ before line value, LastReserve calls name before line value) ∧
    ∀ call, b.KeepsLines call (b.perform call) := by
  intro start b
  have hreserved : ∀ name before line value, LastReserve calls name before line value →
      b.slot? name = some ⟨name, (start.performAll before).lines.length, value⟩ :=
    fun name before line value h => slot?_of_lastReserve h start
  have hnone : ∀ name, (∀ call ∈ calls, ¬call.Reserves name) → b.slot? name = none :=
    fun name h => slot?_performAll h start
  refine ⟨fun name before line value h => ?_, fun name h => ?_, fun name => ?_,
    b.keepsLines_perform⟩
  · have hslot := hreserved name before line value h
    refine ⟨hslot, length_lt_of_lastReserve h start, ?_, fun fallback => ?_, fun new pass => ?_⟩
    · rw [performAll_append]
      rfl
    · rw [slotValue, hslot]
      rfl
    · rw [Program.run, hasSlot, fill, hslot]
      rfl
  · have hslot := hnone name h
    refine ⟨hslot, fun fallback => ?_, fun new pass => ?_⟩
    · rw [slotValue, hslot]
      rfl
    · rw [Program.run, hasSlot, fill, hslot]
      rfl
  · rcases exists_lastReserve calls name with hlast | hnever
    · obtain ⟨before, line, value, h⟩ := hlast
      simp only [hasSlot, hreserved name before line value h, Option.isSome_some, true_iff]
      exact ⟨before, line, value, h⟩
    · simp only [hasSlot, hnone name hnever, Option.isSome_none, Bool.false_eq_true, false_iff]
      rintro ⟨before, line, value, after, rfl, -⟩
      exact hnever (.reserve name line value) (by simp) rfl

/-- A slot that is reserved twice, with other lines in between and one that is filled in front. The
second line is the one that is written anew. -/
theorem slots_point_twice :
    let calls : List BlockCall := [.push "a", .reserve "text" "b" .null, .fill "text" "c",
      .reserve "text" "d" (.str "e"), .extend ["f"]]
    let b := ({ node := "n", family := "effect" } : Block).performAll calls
    LastReserve calls "text" [.push "a", .reserve "text" "b" .null, .fill "text" "c"] "d"
        (.str "e") ∧
      (∀ call ∈ calls, ¬call.Reserves "icon") ∧
      (b.fill "text" "g").lines = ["a", "c", "g", "f"] ∧
      (Program.fill "icon" "g" .done).run ⟨b, {}⟩ = (false, ⟨b, {}⟩) := by
  intro calls b
  have hlast : LastReserve calls "text" [.push "a", .reserve "text" "b" .null, .fill "text" "c"] "d"
      (.str "e") := by
    refine ⟨[.extend ["f"]], rfl, ?_⟩
    rw [List.forall_mem_singleton]
    exact not_false
  have hicon : ∀ call ∈ calls, ¬call.Reserves "icon" := by
    simp [calls, BlockCall.Reserves]
  obtain ⟨hreserved, hnone, -⟩ := slots_point "n" "effect" calls
  refine ⟨hlast, hicon, ?_, (hnone "icon" hicon).2.2 "g" {}⟩
  have hfill := (hreserved _ _ _ _ hlast).2.2.2.2 "g" {}
  exact congrArg (fun result => result.2.block.lines) hfill

end Block

end CueGraph
