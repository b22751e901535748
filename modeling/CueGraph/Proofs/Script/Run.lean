import CueGraph.Script.Program

/-!
# What running a program can and cannot do

A program only adds to the statements, keeps the owner of the block, loses neither a line of the
block nor a declaration that is pending, and cannot see the diagnostics of the pass. So a program
does the same whatever was reported before it (`run_alike`), and a quiet program, which reports
nothing itself, leaves the diagnostics as they are (`run_diagnostics`).
-/

namespace CueGraph

/-- The pass without its diagnostics. -/
def Pass.mute (p : Pass) : Pass := { p with diagnostics := [] }

/-- Two passes that differ in the diagnostics at most. -/
def Pass.Alike (p q : Pass) : Prop := p.mute = q.mute

namespace Pass.Alike

variable {p q : Pass}

theorem refl (p : Pass) : p.Alike p := rfl

theorem pending_eq (h : p.Alike q) : p.pending = q.pending :=
  show p.mute.pending = q.mute.pending from congrArg Pass.pending h

theorem counter_eq (h : p.Alike q) : p.counter = q.counter :=
  show p.mute.counter = q.mute.counter from congrArg Pass.counter h

theorem declarations_eq (h : p.Alike q) : p.declarations = q.declarations :=
  show p.mute.declarations = q.mute.declarations from congrArg Pass.declarations h

theorem nextName_eq (h : p.Alike q) (stem : String) : p.nextName stem = q.nextName stem := by
  rw [nextName, nextName, h.counter_eq]

theorem emit (h : p.Alike q) (line : String) : (p.emit line).Alike (q.emit line) :=
  congrArg (Pass.emit · line) h

theorem declare (h : p.Alike q) (stem expression : String) :
    (p.declare stem expression).Alike (q.declare stem expression) :=
  congrArg (Pass.declare · stem expression) h

end Pass.Alike

namespace Program

variable {α : Type}

/-- A program that reports nothing, whatever it finds. -/
def Quiet : Program α → Prop
  | done _ => True
  | push _ next => next.Quiet
  | extend _ next => next.Quiet
  | reserve _ _ _ next => next.Quiet
  | fill _ _ next => ∀ filled, (next filled).Quiet
  | slotValue _ next => ∀ value, (next value).Quiet
  | declare _ _ next => ∀ name, (next name).Quiet
  | emit _ next => next.Quiet
  | report _ _ => False

/-- The lines that a program adds to the statements. -/
def emitted : Program α → Workspace → List String
  | done _, _ => []
  | push line next, w => next.emitted { w with block := w.block.push line }
  | extend lines next, w => next.emitted { w with block := w.block.extend lines }
  | reserve slot line value next, w =>
    next.emitted { w with block := w.block.reserve slot line value }
  | fill slot line next, w =>
    (next (w.block.hasSlot slot)).emitted { w with block := w.block.fill slot line }
  | slotValue slot next, w => (next ((w.block.slot? slot).map (·.value))).emitted w
  | declare stem expression next, w =>
    (next (w.pass.nextName stem)).emitted { w with pass := w.pass.declare stem expression }
  | emit line next, w => line :: next.emitted { w with pass := w.pass.emit line }
  | report diagnostic next, w => next.emitted { w with pass := w.pass.report diagnostic }

theorem run_lines (p : Program α) (w : Workspace) :
    (p.run w).2.pass.lines = w.pass.lines ++ p.emitted w := by
  induction p generalizing w with
  | done => simp [run, emitted]
  | push line next ih => exact ih _
  | extend lines next ih => exact ih _
  | reserve slot line value next ih => exact ih _
  | fill slot line next ih => exact ih _ _
  | slotValue slot next ih => exact ih _ _
  | declare stem expression next ih => exact ih _ _
  | emit line next ih => simp [run, emitted, ih, Pass.emit]
  | report diagnostic next ih => exact ih _

theorem run_emitAll (lines : List String) (w : Workspace) :
    (emitAll lines).run w = ((), { w with pass.lines := w.pass.lines ++ lines }) := by
  induction lines generalizing w with
  | nil => simp [emitAll, run]
  | cons line rest ih => simp [emitAll, run, ih, Pass.emit]

theorem emitted_emitAll (lines : List String) (w : Workspace) :
    (emitAll lines).emitted w = lines := by
  have hlines := run_lines (emitAll lines) w
  rw [run_emitAll] at hlines
  exact (List.append_cancel_left hlines).symm

theorem fill_node (b : Block) (slot line : String) : (b.fill slot line).node = b.node := by
  unfold Block.fill; split <;> rfl

theorem fill_family (b : Block) (slot line : String) : (b.fill slot line).family = b.family := by
  unfold Block.fill; split <;> rfl

theorem run_node (p : Program α) (w : Workspace) : (p.run w).2.block.node = w.block.node := by
  induction p generalizing w with
  | fill slot line next ih => rw [run, ih, fill_node]
  | done => rfl
  | _ => simp_all [run, Block.push, Block.extend, Block.reserve]

theorem run_family (p : Program α) (w : Workspace) : (p.run w).2.block.family = w.block.family := by
  induction p generalizing w with
  | fill slot line next ih => rw [run, ih, fill_family]
  | done => rfl
  | _ => simp_all [run, Block.push, Block.extend, Block.reserve]

theorem length_fill (b : Block) (slot line : String) :
    (b.fill slot line).lines.length = b.lines.length := by
  unfold Block.fill
  split
  · exact List.length_set
  · rfl

/-- No line of the block is lost. -/
theorem length_run (p : Program α) (w : Workspace) :
    w.block.lines.length ≤ (p.run w).2.block.lines.length := by
  induction p generalizing w with
  | done => exact Nat.le_refl _
  | push line next ih => exact Nat.le_trans (by simp) (ih _)
  | extend lines next ih => exact Nat.le_trans (by simp) (ih _)
  | reserve slot line value next ih => exact Nat.le_trans (by simp) (ih _)
  | fill slot line next ih =>
    rw [← length_fill w.block slot line]
    exact ih _ { w with block := w.block.fill slot line }
  | slotValue slot next ih => exact ih _ _
  | declare stem expression next ih => exact ih _ { w with pass := w.pass.declare stem expression }
  | emit line next ih => exact ih { w with pass := w.pass.emit line }
  | report diagnostic next ih => exact ih { w with pass := w.pass.report diagnostic }

/-- What waits for an entry to claim it goes on waiting. -/
theorem mem_pending_run (p : Program α) {w : Workspace} {line : String}
    (h : line ∈ w.pass.pending) : line ∈ (p.run w).2.pass.pending := by
  induction p generalizing w with
  | done => exact h
  | push line next ih => exact ih h
  | extend lines next ih => exact ih h
  | reserve slot line value next ih => exact ih h
  | fill slot line next ih => exact ih _ h
  | slotValue slot next ih => exact ih _ h
  | declare stem expression next ih => exact ih _ (List.mem_append_left _ h)
  | emit line next ih => exact ih h
  | report diagnostic next ih => exact ih h

theorem run_diagnostics {p : Program α} (h : p.Quiet) (w : Workspace) :
    (p.run w).2.pass.diagnostics = w.pass.diagnostics := by
  induction p generalizing w with
  | done => rfl
  | push line next ih => exact ih h _
  | extend lines next ih => exact ih h _
  | reserve slot line value next ih => exact ih h _
  | fill slot line next ih => exact ih _ (h _) _
  | slotValue slot next ih => exact ih _ (h _) _
  | declare stem expression next ih => exact ih _ (h _) _
  | emit line next ih => exact ih h _
  | report diagnostic next => exact h.elim

/-- What was reported before makes no difference to a program. -/
theorem run_alike (p : Program α) {b : Block} {q q' : Pass} (h : q.Alike q') :
    (p.run ⟨b, q⟩).1 = (p.run ⟨b, q'⟩).1 ∧
      (p.run ⟨b, q⟩).2.block = (p.run ⟨b, q'⟩).2.block ∧
      (p.run ⟨b, q⟩).2.pass.Alike (p.run ⟨b, q'⟩).2.pass := by
  induction p generalizing b q q' with
  | done => exact ⟨rfl, rfl, h⟩
  | push line next ih => exact ih h
  | extend lines next ih => exact ih h
  | reserve slot line value next ih => exact ih h
  | fill slot line next ih => exact ih _ h
  | slotValue slot next ih => exact ih _ h
  | declare stem expression next ih =>
    -- the name comes from the counter, which reports do not move
    simp only [run, h.nextName_eq stem]
    exact ih _ (h.declare stem expression)
  | emit line next ih => exact ih (h.emit line)
  | report diagnostic next ih => exact ih h

end Program

end CueGraph
