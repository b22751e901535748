import CueGraph.Proofs.Compile.Entries
import CueGraph.Proofs.Script.Frame

/-!
# Nodes by themselves

When the turn of a node comes nothing is pending, since each visit leaves nothing pending
(`pending_visit`). So the visit of a node adds what it would add if nothing had been collected yet
and only the names were counted (`turn`), and a compilation is made of the turns of its nodes, one
behind the other (`foldl_visit`). The count moves by the declarations that a node raises (`raised`),
so who raises nothing shifts no name (`turns_filter`).
-/

namespace CueGraph

namespace Progress

/-- How far the second has come, behind the first. -/
def append (p q : Progress) : Progress :=
  ⟨p.pass ++ q.pass, p.entries ++ q.entries, p.notices ++ q.notices⟩

instance : Append Progress := ⟨append⟩

/-- Nothing has been collected yet, after this many names. -/
def start (count : Nat) : Progress := { pass := .start count }

variable {p q : Progress}

theorem append_start (p : Progress) : p ++ start p.pass.counter = p := by
  show append p (start p.pass.counter) = p
  simp [append, start, Pass.append_start]

theorem report_append (p q : Progress) (d : Diagnostic) (n : Notice) :
    (p ++ q).report d n = p ++ q.report d n := by
  show (append p q).report d n = append p (q.report d n)
  simp [append, report, Pass.report_append]

theorem close_append (hp : p.pass.pending = []) (entry : Option Entry) :
    (p ++ q).close entry = p ++ q.close entry := by
  have hpending : (p.pass ++ q.pass).pending = q.pass.pending :=
    (congrArg (· ++ q.pass.pending) hp).trans (List.nil_append _)
  show (append p q).close entry = append p (q.close entry)
  simp [append, close, Pass.claim_append hp, hpending]

end Progress

namespace Registry

variable {r : Registry} {g : Graph} {p : Progress} {node : Node} {count : Nat}

/-! ## Visits behind an earlier progress -/

theorem addChild_behind (block : Block) (p q : Progress) (child : Node) :
    r.addChild block (p ++ q) child =
      ((r.addChild block q child).1, p ++ (r.addChild block q child).2) := by
  rw [addChild_eq, addChild_eq]
  rcases r.behaviour? child.type with _ | (⟨family, c⟩ | ⟨families, c⟩ | c)
  · rfl
  · exact congrArg (Prod.mk block) (Progress.report_append ..)
  · dsimp only
    split
    · have hrun := (c child).run_behind p.pass ⟨block, q.pass⟩
      rw [Workspace.behind] at hrun
      rw [show (p ++ q).pass = p.pass ++ q.pass from rfl, hrun]
      rfl
    · exact congrArg (Prod.mk block) (Progress.report_append ..)
  · exact congrArg (Prod.mk block) (Progress.report_append ..)

theorem addChildren_behind (children : List Node) (block : Block) (p q : Progress) :
    r.addChildren children block (p ++ q) =
      ((r.addChildren children block q).1, p ++ (r.addChildren children block q).2) := by
  induction children generalizing block q with
  | nil => rfl
  | cons child rest ih => rw [addChildren_cons, addChildren_cons, addChild_behind, ih]

theorem visitRoot_behind (g : Graph) (node : Node) (family : String)
    (compile : Node → Program Unit) (p q : Progress) :
    r.visitRoot g node family compile (p ++ q) =
      ((r.visitRoot g node family compile q).1, p ++ (r.visitRoot g node family compile q).2) := by
  have hrun := (compile node).run_behind p.pass ⟨{ node := node.id, family }, q.pass⟩
  rw [Workspace.behind] at hrun
  rw [visitRoot, visitRoot, show (p ++ q).pass = p.pass ++ q.pass from rfl, hrun]
  generalize ((compile node).run ⟨{ node := node.id, family }, q.pass⟩).2 = w
  have hpass : ({ p ++ q with pass := (w.behind p.pass).pass } : Progress) =
      p ++ { q with pass := w.pass } := rfl
  dsimp only
  rw [hpass, addChildren_behind, Progress.report_append]
  by_cases hempty : w.block.isEmpty = true
  · rw [if_pos hempty, if_pos (show (w.behind p.pass).block.isEmpty = true from hempty)]
  · rw [if_neg hempty, if_neg (show ¬(w.behind p.pass).block.isEmpty = true from hempty)]
    rfl

theorem visitUtility_behind (node : Node) (compile : Node → Program Unit) (p q : Progress) :
    visitUtility node compile (p ++ q) =
      ((visitUtility node compile q).1, p ++ (visitUtility node compile q).2) := by
  have hrun := (compile node).run_behind p.pass ⟨{ node := node.id, family := "" }, q.pass⟩
  have hemitted := (compile node).emitted_behind p.pass ⟨{ node := node.id, family := "" }, q.pass⟩
  rw [Workspace.behind] at hrun hemitted
  simp only [visitUtility, Program.run_lines, List.drop_left]
  rw [show (p ++ q).pass = p.pass ++ q.pass from rfl, hrun, hemitted]
  rfl

/-- Where nothing is pending, a visit adds what it would add without what came before. -/
theorem visit_behind (hp : p.pass.pending = []) (g : Graph) (q : Progress) (node : Node) :
    r.visit g (p ++ q) node = p ++ r.visit g q node := by
  rw [visit_eq, visit_eq]
  rcases r.behaviour? node.type with _ | (⟨family, c⟩ | ⟨families, c⟩ | c)
  · exact Progress.report_append ..
  · dsimp only
    rw [visitRoot_behind, Progress.close_append hp]
  · dsimp only
    split
    · exact Progress.close_append hp none
    · rw [Progress.report_append, Progress.close_append hp]
  · dsimp only
    rw [visitUtility_behind, Progress.close_append hp]

theorem pending_visit (hp : p.pass.pending = []) (g : Graph) (node : Node) :
    (r.visit g p node).pass.pending = [] := by
  rw [visit_eq]
  rcases r.behaviour? node.type with _ | (⟨family, c⟩ | ⟨families, c⟩ | c)
  · exact hp
  · rfl
  · rfl
  · rfl

/-! ## Turns -/

/-- The turn of a node: its visit after this many names, when nothing has been collected yet. -/
def turn (r : Registry) (g : Graph) (count : Nat) (node : Node) : Progress :=
  r.visit g (.start count) node

theorem visit_eq_turn (hp : p.pass.pending = []) (g : Graph) (node : Node) :
    r.visit g p node = p ++ r.turn g p.pass.counter node := by
  rw [turn, ← visit_behind hp, Progress.append_start]

/-- The declarations that come up while a node is compiled, and if it opens a chain, while those of
its children are that join the chain. -/
def raised (r : Registry) (g : Graph) (count : Nat) (node : Node) : List String :=
  match r.behaviour? node.type with
  | some (.root family compile) =>
    let w := ((compile node).run ⟨{ node := node.id, family }, .start count⟩).2
    if w.block.isEmpty then w.pass.declarations
    else (r.chain (g.childrenOf node.id) w).pass.declarations
  | some (.utility compile) =>
    ((compile node).run ⟨{ node := node.id, family := "" }, .start count⟩).2.pass.declarations
  | _ => []

/-- The nodes, each with the number of names when its turn comes. -/
def turns (r : Registry) (g : Graph) : Nat → List Node → List (Node × Nat)
  | _, [] => []
  | count, node :: rest => (node, count) :: turns r g (count + (r.raised g count node).length) rest

theorem unclaimed_join {w : Workspace} (child : Node) (h : w.pass.Unclaimed count) :
    (r.join w child).pass.Unclaimed count := by
  unfold join
  split
  · exact Program.unclaimed_run _ h
  · exact h

theorem unclaimed_chain (children : List Node) {w : Workspace} (h : w.pass.Unclaimed count) :
    (r.chain children w).pass.Unclaimed count := by
  induction children generalizing w with
  | nil => exact h
  | cons child rest ih =>
    rw [chain_cons]
    apply ih
    split
    · exact unclaimed_join child h
    · exact h

/-- A turn declares what the node raises, and counts it. -/
theorem turn_declares (r : Registry) (g : Graph) (count : Nat) (node : Node) :
    (r.turn g count node).pass.declarations = r.raised g count node ∧
      (r.turn g count node).pass.counter = count + (r.raised g count node).length := by
  have hpass := visit_alike (r := r) g (.start count) node
  rw [← turn] at hpass
  rw [hpass.declarations_eq, hpass.counter_eq, passFrom, raised, opened?]
  rcases r.behaviour? node.type with _ | (⟨family, c⟩ | ⟨families, c⟩ | c)
  · exact ⟨rfl, rfl⟩
  · have hopen := (c node).unclaimed_run (w := ⟨{ node := node.id, family }, .start count⟩)
      (Pass.unclaimed_start count)
    dsimp only [Progress.start]
    generalize ((c node).run ⟨{ node := node.id, family }, .start count⟩).2 = w at hopen ⊢
    by_cases hempty : w.block.isEmpty = true
    · rw [if_pos hempty, if_pos hempty]
      exact ⟨rfl, hopen.counter⟩
    · rw [if_neg hempty, if_neg hempty]
      exact ⟨rfl, (unclaimed_chain (g.childrenOf node.id) hopen).counter⟩
  · exact ⟨rfl, rfl⟩
  · exact ⟨rfl, ((c node).unclaimed_run (Pass.unclaimed_start count)).counter⟩

/-- What visits put out one after the other is what the turns put out. -/
theorem foldl_visit {γ : Type} (out : Progress → List γ)
    (hout : ∀ p q : Progress, out (p ++ q) = out p ++ out q) (g : Graph) (nodes : List Node)
    (hp : p.pass.pending = []) :
    out (nodes.foldl (r.visit g) p) =
      out p ++ (r.turns g p.pass.counter nodes).flatMap fun t => out (r.turn g t.2 t.1) := by
  induction nodes generalizing p with
  | nil => exact (List.append_nil _).symm
  | cons node rest ih =>
    have hcounter : (r.visit g p node).pass.counter =
        p.pass.counter + (r.raised g p.pass.counter node).length := by
      rw [visit_eq_turn hp]
      exact (turn_declares r g _ node).2
    rw [List.foldl_cons, ih (pending_visit hp g node), hcounter, visit_eq_turn hp, hout, turns,
      List.flatMap_cons, List.append_assoc]

/-! ## What of the graph a turn looks at -/

theorem hasRoot_congr {g' : Graph} (h : g'.parentNode? node = g.parentNode? node) :
    r.hasRoot g' node = r.hasRoot g node := by
  rw [hasRoot, hasRoot, ← Graph.parentNode?, ← Graph.parentNode?, h]

/-- Of the graph a visit looks at the children of the node and at its parent, and at no more. -/
theorem visit_congr {g' : Graph} (hchildren : g'.childrenOf node.id = g.childrenOf node.id)
    (hparent : g'.parentNode? node = g.parentNode? node) (p : Progress) :
    r.visit g' p node = r.visit g p node := by
  rw [visit_eq, visit_eq, hasRoot_congr hparent]
  simp only [visitRoot, hchildren]

theorem map_turns (g : Graph) (count : Nat) (nodes : List Node) :
    (r.turns g count nodes).map (·.1) = nodes := by
  induction nodes generalizing count with
  | nil => rfl
  | cons node rest ih => rw [turns, List.map_cons, ih]

theorem mem_of_mem_turns {nodes : List Node} {t : Node × Nat} (ht : t ∈ r.turns g count nodes) :
    t.1 ∈ nodes := by
  have hmem := List.mem_map_of_mem (f := (·.1)) ht
  rwa [map_turns] at hmem

/-- Nodes that raise nothing can be passed over: the others have their turns at the same count. -/
theorem turns_filter {keep : Node → Bool} {nodes : List Node}
    (hskip : ∀ node ∈ nodes, keep node = false → ∀ count, r.raised g count node = [])
    (count : Nat) :
    (r.turns g count nodes).filter (fun t => keep t.1) = r.turns g count (nodes.filter keep) := by
  induction nodes generalizing count with
  | nil => rfl
  | cons node rest ih =>
    rw [List.forall_mem_cons] at hskip
    cases hk : keep node with
    | true => simp only [turns, List.filter_cons, hk, if_true, ih hskip.2]
    | false =>
      simp only [turns, List.filter_cons, hk, hskip.1 hk count, List.length_nil, Nat.add_zero,
        Bool.false_eq_true, if_false, ih hskip.2]

end Registry

end CueGraph
