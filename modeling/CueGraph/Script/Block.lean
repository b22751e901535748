import CueGraph.Value

/-!
# Blocks

A block holds the lines of one chain. A line can be reserved under the name of a slot and then be
written anew in its place. A slot also keeps a value, which writing the line anew leaves alone.

Main statements: `lines_push`, `lines_extend`, `lines_reserve` and `lines_fill`, one for each
operation.
-/

namespace CueGraph

/-- A reserved line: the name of the slot, the place of the line, and a value kept with it. -/
structure Slot where
  name : String
  place : Nat
  value : Value

/-- The lines of a chain with their slots, for the root `node` of a family. -/
structure Block where
  node : String
  family : String
  lines : List String := []
  declarations : List String := []
  slots : List Slot := []

namespace Block

def isEmpty (b : Block) : Bool := b.lines.isEmpty

def push (b : Block) (line : String) : Block := { b with lines := b.lines ++ [line] }

def extend (b : Block) (lines : List String) : Block := { b with lines := b.lines ++ lines }

def slot? (b : Block) (name : String) : Option Slot := b.slots.find? (·.name == name)

/-- Puts a slot in the place of the one with its name, else at the end. -/
def putSlot (slot : Slot) : List Slot → List Slot
  | [] => [slot]
  | other :: rest => if other.name = slot.name then slot :: rest else other :: putSlot slot rest

/-- Adds a line and reserves it. -/
def reserve (b : Block) (name line : String) (value : Value) : Block :=
  { b with
    lines := b.lines ++ [line]
    slots := putSlot ⟨name, b.lines.length, value⟩ b.slots }

/-- Writes the line of a slot anew; without the slot nothing changes. -/
def fill (b : Block) (name line : String) : Block :=
  match b.slot? name with
  | some slot => { b with lines := b.lines.set slot.place line }
  | none => b

def hasSlot (b : Block) (name : String) : Bool := (b.slot? name).isSome

/-- The value kept with a slot, or `fallback` without the slot. -/
def slotValue (b : Block) (name : String) (fallback : Value) : Value :=
  ((b.slot? name).map (·.value)).getD fallback

@[simp] theorem lines_push (b : Block) (line : String) : (b.push line).lines = b.lines ++ [line] :=
  rfl

@[simp] theorem lines_extend (b : Block) (lines : List String) :
    (b.extend lines).lines = b.lines ++ lines := rfl

@[simp] theorem lines_reserve (b : Block) (name line : String) (value : Value) :
    (b.reserve name line value).lines = b.lines ++ [line] := rfl

theorem lines_fill (b : Block) (name line : String) :
    (b.fill name line).lines =
      match b.slot? name with
      | some slot => b.lines.set slot.place line
      | none => b.lines := by
  unfold fill; split <;> simp_all

end Block

end CueGraph
