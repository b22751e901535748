import CueGraph.Proofs.Script.Run

/-!
# Programs behind an earlier pass

Of what a pass has collected, a program sees the number of names and nothing else. So with an
earlier pass in front (`p ++ q`) it does to the block what it does without one, and what it collects
comes behind (`run_behind`). A program that starts from a pass that has collected nothing
(`Pass.start`) leaves what it collects by itself, and all that it declares is still unclaimed
(`unclaimed_run`).
-/

namespace CueGraph

namespace Pass

/-- What the second pass has collected, behind what the first has. The names are counted on from the
first to the second. -/
def append (p q : Pass) : Pass where
  lines := p.lines ++ q.lines
  declarations := p.declarations ++ q.declarations
  diagnostics := p.diagnostics ++ q.diagnostics
  pending := p.pending ++ q.pending
  counter := q.counter

instance : Append Pass := ⟨append⟩

/-- The pass that has collected nothing, after this many names. -/
def start (count : Nat) : Pass := { counter := count }

variable {p q : Pass} {count : Nat}

theorem append_start (p : Pass) : p ++ start p.counter = p := by
  show append p (start p.counter) = p
  simp [append, start]

theorem emit_append (p q : Pass) (line : String) : (p ++ q).emit line = p ++ q.emit line := by
  show (append p q).emit line = append p (q.emit line)
  simp [append, emit]

theorem report_append (p q : Pass) (d : Diagnostic) : (p ++ q).report d = p ++ q.report d := by
  show (append p q).report d = append p (q.report d)
  simp [append, report]

theorem declare_append (p q : Pass) (stem expression : String) :
    (p ++ q).declare stem expression = p ++ q.declare stem expression := by
  show (append p q).declare stem expression = append p (q.declare stem expression)
  simp [append, declare, nextName]

/-- Where nothing is pending in front, the claim takes what is pending behind. -/
theorem claim_append (hp : p.pending = []) : (p ++ q).claim = p ++ q.claim := by
  show (append p q).claim = append p q.claim
  simp [append, claim, hp]

/-- All that was declared after the first `count` names is still pending. -/
structure Unclaimed (count : Nat) (p : Pass) : Prop where
  pending : p.pending = p.declarations
  counter : p.counter = count + p.declarations.length

theorem unclaimed_start (count : Nat) : (start count).Unclaimed count := ⟨rfl, rfl⟩

end Pass

/-- The workspace with an earlier pass in front. -/
def Workspace.behind (w : Workspace) (p : Pass) : Workspace := { w with pass := p ++ w.pass }

namespace Program

variable {α : Type}

/-- With an earlier pass in front a program does to the block what it does without one, and what it
collects comes behind. -/
theorem run_behind (prog : Program α) (p : Pass) (w : Workspace) :
    (prog.run (w.behind p)).2 = (prog.run w).2.behind p := by
  induction prog generalizing w with
  | done => rfl
  | push line next ih => exact ih { w with block := w.block.push line }
  | extend lines next ih => exact ih { w with block := w.block.extend lines }
  | reserve slot line value next ih =>
    exact ih { w with block := w.block.reserve slot line value }
  | fill slot line next ih => exact ih _ { w with block := w.block.fill slot line }
  | slotValue slot next ih => exact ih _ w
  | declare stem expression next ih =>
    have hnext := ih (w.pass.nextName stem) { w with pass := w.pass.declare stem expression }
    rwa [Workspace.behind, ← Pass.declare_append] at hnext
  | emit line next ih =>
    have hnext := ih { w with pass := w.pass.emit line }
    rwa [Workspace.behind, ← Pass.emit_append] at hnext
  | report diagnostic next ih =>
    have hnext := ih { w with pass := w.pass.report diagnostic }
    rwa [Workspace.behind, ← Pass.report_append] at hnext

/-- The lines that a program emits are the same with an earlier pass in front. -/
theorem emitted_behind (prog : Program α) (p : Pass) (w : Workspace) :
    prog.emitted (w.behind p) = prog.emitted w := by
  have hrun := congrArg (fun w => w.pass.lines) (prog.run_behind p w)
  simp only [run_lines] at hrun
  have hlines : (w.behind p).pass.lines = p.lines ++ w.pass.lines := rfl
  have hafter : ((prog.run w).2.behind p).pass.lines = p.lines ++ (prog.run w).2.pass.lines := rfl
  rw [hlines, hafter, run_lines, ← List.append_assoc] at hrun
  exact List.append_cancel_left hrun

theorem unclaimed_run {count : Nat} (prog : Program α) {w : Workspace}
    (h : w.pass.Unclaimed count) : (prog.run w).2.pass.Unclaimed count := by
  induction prog generalizing w with
  | done => exact h
  | push line next ih => exact ih h
  | extend lines next ih => exact ih h
  | reserve slot line value next ih => exact ih h
  | fill slot line next ih => exact ih _ h
  | slotValue slot next ih => exact ih _ h
  | declare stem expression next ih =>
    refine ih _ ⟨?_, ?_⟩
    · simp [Pass.declare, h.pending]
    · simp [Pass.declare, h.counter, Nat.add_assoc]
  | emit line next ih => exact ih ⟨h.pending, h.counter⟩
  | report diagnostic next ih => exact ih ⟨h.pending, h.counter⟩

end Program

end CueGraph
