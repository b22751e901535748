import CueGraph.Script.Block
import CueGraph.Script.Pass

/-!
# What a node does to the script

A `Program` is the sequence of steps by which a node adds to the script: lines of the block, slots,
declarations, statements and diagnostics. It can look at the slots and at the names that it gets, so
a later step can depend on an earlier one. `Program.run` carries it out on a `Workspace`, the block
at hand and the pass.

Main statements: `run_bind` (steps run in order) and `run_pushAll`.
-/

namespace CueGraph

/-- A sequence of steps that ends in a result. -/
inductive Program (α : Type) where
  | done (result : α)
  | push (line : String) (next : Program α)
  | extend (lines : List String) (next : Program α)
  /-- Adds a line to the block and reserves it. -/
  | reserve (slot line : String) (value : Value) (next : Program α)
  /-- Writes the line of a slot anew, and tells whether the slot is there. -/
  | fill (slot line : String) (next : Bool → Program α)
  /-- The value kept with a slot, if the slot is there. -/
  | slotValue (slot : String) (next : Option Value → Program α)
  /-- Declares an expression, and tells its name. -/
  | declare (stem expression : String) (next : String → Program α)
  | emit (line : String) (next : Program α)
  | report (diagnostic : Diagnostic) (next : Program α)

/-- The block at hand and the pass. -/
structure Workspace where
  block : Block
  pass : Pass

namespace Program

def bind {α β : Type} : Program α → (α → Program β) → Program β
  | done result, f => f result
  | push line next, f => push line (next.bind f)
  | extend lines next, f => extend lines (next.bind f)
  | reserve slot line value next, f => reserve slot line value (next.bind f)
  | fill slot line next, f => fill slot line fun b => (next b).bind f
  | slotValue slot next, f => slotValue slot fun v => (next v).bind f
  | declare stem expression next, f => declare stem expression fun name => (next name).bind f
  | emit line next, f => emit line (next.bind f)
  | report diagnostic next, f => report diagnostic (next.bind f)

instance : Monad Program where
  pure := done
  bind := bind

def run {α : Type} : Program α → Workspace → α × Workspace
  | done result, w => (result, w)
  | push line next, w => next.run { w with block := w.block.push line }
  | extend lines next, w => next.run { w with block := w.block.extend lines }
  | reserve slot line value next, w => next.run { w with block := w.block.reserve slot line value }
  | fill slot line next, w =>
    (next (w.block.hasSlot slot)).run { w with block := w.block.fill slot line }
  | slotValue slot next, w => (next ((w.block.slot? slot).map (·.value))).run w
  | declare stem expression next, w =>
    (next (w.pass.nextName stem)).run { w with pass := w.pass.declare stem expression }
  | emit line next, w => next.run { w with pass := w.pass.emit line }
  | report diagnostic next, w => next.run { w with pass := w.pass.report diagnostic }

def pushLine (line : String) : Program Unit := push line (done ())

/-- Adds lines to the block, one by one. -/
def pushAll : List String → Program Unit
  | [] => done ()
  | line :: rest => push line (pushAll rest)

/-- Adds lines to the statements, one by one. -/
def emitAll : List String → Program Unit
  | [] => done ()
  | line :: rest => emit line (emitAll rest)

/-- The value kept with a slot, if the slot is there. -/
def slot? (name : String) : Program (Option Value) := slotValue name done

/-- Writes the line of a slot anew, or adds the line when the slot is not there. -/
def fillOrPush (slot line : String) : Program Unit :=
  fill slot line fun filled => if filled then done () else push line (done ())

/-- Declares an expression; the result is its name. -/
def declareName (stem expression : String) : Program String := declare stem expression done

theorem run_bind {α β : Type} (p : Program α) (f : α → Program β) (w : Workspace) :
    (p.bind f).run w = (f (p.run w).1).run (p.run w).2 := by
  induction p generalizing w <;> simp only [bind, run, *]

theorem run_pushAll (lines : List String) (w : Workspace) :
    (pushAll lines).run w = ((), { w with block := w.block.extend lines }) := by
  induction lines generalizing w with
  | nil => simp [pushAll, run, Block.extend]
  | cons line rest ih => simp [pushAll, run, ih, Block.push, Block.extend]

end Program

end CueGraph
