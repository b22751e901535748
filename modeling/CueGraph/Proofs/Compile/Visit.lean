import CueGraph.Compile.Graph
import CueGraph.Proofs.Script.Run

/-!
# What one visit adds

The visit of a node adds at most one entry (`entryFrom`) and some diagnostics (`diagnosticsFrom`);
the entries and the diagnostics that were there stay in front. Under a root, only the children that
join the chain run (`chain`), one after the other, as if nothing were reported in between.

Main statements: `visit_entries`, for types that may report by themselves, and `visit_spec`, for
types that do not.
-/

namespace CueGraph

/-- The step from `p` to `p'` reports `ds`, adds no entry, and leaves the pass `q` otherwise. -/
structure Progress.Reports (p : Progress) (ds : List Diagnostic) (q : Pass) (p' : Progress) :
    Prop where
  alike : p'.pass.Alike q
  entries : p'.entries = p.entries
  diagnostics : p'.pass.diagnostics = p.pass.diagnostics ++ ds

namespace Registry

variable {r : Registry} {p : Progress} {w : Workspace} {node : Node}

/-- What the nodes of a type do, if the type is known. -/
def behaviour? (r : Registry) (type : String) : Option Behaviour := (r.get? type).map (·.behaviour)

/-- A registry of types that report nothing by themselves. -/
def Quiet (r : Registry) : Prop :=
  ∀ type b, r.behaviour? type = some b → ∀ node, (b.compile node).Quiet

theorem Quiet.compile (hr : r.Quiet) {type : String} {b : Behaviour}
    (hb : r.behaviour? type = some b) (node : Node) : (b.compile node).Quiet := hr type b hb node

/-- Whether a node can add to a chain of the family. -/
def joins (r : Registry) (family : String) (node : Node) : Bool :=
  match r.behaviour? node.type with
  | some (.child families _) => families.contains family
  | _ => false

/-- Runs the program of a child in the workspace of its root. -/
def join (r : Registry) (w : Workspace) (child : Node) : Workspace :=
  match r.behaviour? child.type with
  | some (.child _ compile) => ((compile child).run w).2
  | _ => w

/-- The workspace of a root after those of its children that can add to it. -/
def chain (r : Registry) (children : List Node) (w : Workspace) : Workspace :=
  (children.filter (r.joins w.block.family)).foldl r.join w

/-- What is reported about a node under a root of the family. -/
def misfit (r : Registry) (family : String) (node : Node) : List Diagnostic :=
  match r.behaviour? node.type with
  | none => []
  | some (.child families _) =>
    if families.contains family then [] else [.familyMismatch node family]
  | some (.root ..) => [.roleMismatch node .root]
  | some (.utility _) => [.roleMismatch node .utility]

theorem join_family (w : Workspace) (child : Node) :
    (r.join w child).block.family = w.block.family := by
  unfold join
  split
  · exact Program.run_family _ w
  · rfl

theorem join_node (w : Workspace) (child : Node) : (r.join w child).block.node = w.block.node := by
  unfold join
  split
  · exact Program.run_node _ w
  · rfl

theorem chain_cons (child : Node) (children : List Node) (w : Workspace) :
    r.chain (child :: children) w =
      r.chain children (if r.joins w.block.family child then r.join w child else w) := by
  by_cases h : r.joins w.block.family child = true
  · rw [if_pos h, chain, List.filter_cons_of_pos h, List.foldl_cons, chain, join_family]
  · rw [if_neg h, chain, List.filter_cons_of_neg h, chain]

theorem node_of_chain (children : List Node) (w : Workspace) :
    (r.chain children w).block.node = w.block.node := by
  induction children generalizing w with
  | nil => rfl
  | cons child rest ih =>
    rw [chain_cons, ih]
    split
    · exact join_node w child
    · rfl

theorem addChild_eq (block : Block) (p : Progress) (child : Node) :
    r.addChild block p child =
      match r.behaviour? child.type with
      | none => (block, p)
      | some (.child families compile) =>
        if families.contains block.family then
          let w := ((compile child).run ⟨block, p.pass⟩).2
          (w.block, { p with pass := w.pass })
        else
          (block, p.report (.familyMismatch child block.family)
            (.familyRefused child.id child.type block.family families))
      | some b =>
        (block, p.report (.roleMismatch child b.role)
          (.notAChild child.id child.type block.node)) := by
  unfold addChild behaviour?
  rcases r.get? child.type with _ | ⟨label, category, defaults, behaviour, claim⟩
  · rfl
  · cases behaviour <;> rfl

/-- A child that only has lines to add adds them, and nothing else changes. -/
theorem addChild_pushAll {families : List String} {compile : Node → Program Unit}
    {block : Block} {child : Node} {lines : List String} (p : Progress)
    (hb : r.behaviour? child.type = some (.child families compile))
    (hj : r.joins block.family child = true) (hlines : compile child = .pushAll lines) :
    r.addChild block p child = (block.extend lines, p) := by
  have hf : families.contains block.family = true := by
    rw [joins, hb] at hj
    exact hj
  rw [addChild_eq, hb]
  dsimp only
  rw [if_pos hf, hlines, Program.run_pushAll]

/-- A child takes its turn under a root: it runs if it joins the chain. -/
theorem addChild_alike (child : Node) (hp : p.pass.Alike w.pass) :
    let w' := if r.joins w.block.family child then r.join w child else w
    (r.addChild w.block p child).1 = w'.block ∧
      (r.addChild w.block p child).2.pass.Alike w'.pass ∧
      (r.addChild w.block p child).2.entries = p.entries := by
  rw [addChild_eq, joins, join]
  rcases r.behaviour? child.type with _ | (⟨family, c⟩ | ⟨families, c⟩ | c)
  · exact ⟨rfl, hp, rfl⟩
  · exact ⟨rfl, hp, rfl⟩
  · dsimp only
    by_cases hf : families.contains w.block.family = true
    · rw [if_pos hf, if_pos hf]
      -- what was reported before does not show in what the child adds
      obtain ⟨-, hblock, hpass⟩ := (c child).run_alike (b := w.block) hp
      exact ⟨hblock, hpass, rfl⟩
    · rw [if_neg hf, if_neg hf]
      exact ⟨rfl, hp, rfl⟩
  · exact ⟨rfl, hp, rfl⟩

/-- One family is asked of all children, since none of them changes it. -/
theorem family_after (child : Node) (w : Workspace) :
    (if r.joins w.block.family child then r.join w child else w).block.family =
      w.block.family := by
  split
  · exact join_family w child
  · rfl

theorem addChildren_cons (child : Node) (rest : List Node) (block : Block) (p : Progress) :
    r.addChildren (child :: rest) block p =
      r.addChildren rest (r.addChild block p child).1 (r.addChild block p child).2 := rfl

theorem addChildren_alike (children : List Node) (hp : p.pass.Alike w.pass) :
    (r.addChildren children w.block p).1 = (r.chain children w).block ∧
      (r.addChildren children w.block p).2.pass.Alike (r.chain children w).pass ∧
      (r.addChildren children w.block p).2.entries = p.entries := by
  induction children generalizing p w with
  | nil => exact ⟨rfl, hp, rfl⟩
  | cons child rest ih =>
    obtain ⟨hblock, hpass, hentries⟩ := addChild_alike (r := r) child hp
    obtain ⟨hlast, hrest, hnone⟩ := ih hpass
    rw [addChildren_cons, chain_cons, hblock]
    exact ⟨hlast, hrest, hnone.trans hentries⟩

/-- A child that runs reports nothing, and one that does not fit is reported. -/
theorem addChild_spec (hr : r.Quiet) (child : Node) (hp : p.pass.Alike w.pass) :
    let w' := if r.joins w.block.family child then r.join w child else w
    (r.addChild w.block p child).1 = w'.block ∧
      p.Reports (r.misfit w.block.family child) w'.pass (r.addChild w.block p child).2 := by
  obtain ⟨hblock, hpass, hentries⟩ := addChild_alike (r := r) child hp
  refine ⟨hblock, hpass, hentries, ?_⟩
  rw [addChild_eq, misfit]
  cases hb : r.behaviour? child.type with
  | none => exact (List.append_nil _).symm
  | some b =>
    cases b with
    | root family compile => rfl
    | utility compile => rfl
    | child families compile =>
      have hquiet : (compile child).Quiet := hr.compile hb child
      dsimp only
      by_cases hf : families.contains w.block.family = true
      · rw [if_pos hf, if_pos hf, Program.run_diagnostics hquiet, List.append_nil]
      · rw [if_neg hf, if_neg hf]
        rfl

theorem addChildren_spec (hr : r.Quiet) (children : List Node) (hp : p.pass.Alike w.pass) :
    (r.addChildren children w.block p).1 = (r.chain children w).block ∧
      p.Reports (children.flatMap (r.misfit w.block.family)) (r.chain children w).pass
        (r.addChildren children w.block p).2 := by
  obtain ⟨hblock, hpass, hentries⟩ := addChildren_alike (r := r) children hp
  refine ⟨hblock, hpass, hentries, ?_⟩
  clear hblock hpass hentries
  induction children generalizing p w with
  | nil => simp [addChildren]
  | cons child rest ih =>
    obtain ⟨hblock, hstep⟩ := addChild_spec hr child hp
    rw [addChildren_cons, hblock, ih hstep.alike, hstep.diagnostics, family_after,
      List.flatMap_cons, List.append_assoc]

/-! ## Visits -/

/-- The workspace that a root leaves when it opens a chain. -/
def opened? (r : Registry) (pass : Pass) (node : Node) : Option Workspace :=
  match r.behaviour? node.type with
  | some (.root family compile) =>
    let w := ((compile node).run ⟨{ node := node.id, family }, pass⟩).2
    if w.block.isEmpty then none else some w
  | _ => none

/-- The block of a chain as it becomes an entry. -/
def blockEntry (w : Workspace) : Entry := .block { w.block with declarations := w.pass.pending }

/-- The statement of a utility as it becomes an entry, unless the utility emits nothing. -/
def statementEntry (pass : Pass) (node : Node) (compile : Node → Program Unit) : Option Entry :=
  let w : Workspace := ⟨{ node := node.id, family := "" }, pass⟩
  let lines := (compile node).emitted w
  let declarations := ((compile node).run w).2.pass.pending
  if lines.isEmpty then none else some (.statement { node := node.id, lines, declarations })

/-- The entry that the visit of a node adds. -/
def entryFrom (r : Registry) (g : Graph) (pass : Pass) (node : Node) : Option Entry :=
  match r.behaviour? node.type with
  | some (.root ..) =>
    (r.opened? pass node).map fun w => blockEntry (r.chain (g.childrenOf node.id) w)
  | some (.utility compile) => statementEntry pass node compile
  | _ => none

/-- The diagnostics that the visit of a node adds. -/
def diagnosticsFrom (r : Registry) (g : Graph) (pass : Pass) (node : Node) : List Diagnostic :=
  match r.behaviour? node.type with
  | none => [.unknownType node]
  | some (.root ..) =>
    match r.opened? pass node with
    | none => [.rootOmitted node]
    | some w => (g.childrenOf node.id).flatMap (r.misfit w.block.family)
  | some (.utility _) => []
  | some (.child ..) => if r.hasRoot g node then [] else [.orphanChild node]

theorem visit_eq (g : Graph) (p : Progress) (node : Node) :
    r.visit g p node =
      match r.behaviour? node.type with
      | none => p.report (.unknownType node) (.unknownType node.id node.type)
      | some (.root family compile) =>
        (r.visitRoot g node family compile p).2.close (r.visitRoot g node family compile p).1
      | some (.utility compile) =>
        (visitUtility node compile p).2.close (visitUtility node compile p).1
      | some (.child ..) =>
        (if r.hasRoot g node then p
          else p.report (.orphanChild node) (.orphan node.id node.type)).close none := by
  unfold visit behaviour?
  rcases r.get? node.type with _ | ⟨label, category, defaults, behaviour, claim⟩
  · rfl
  · cases behaviour <;> rfl

/-- A utility that only has lines to emit emits them in a statement, and nothing else changes. -/
theorem visit_emitAll {compile : Node → Program Unit} {lines : List String} (g : Graph)
    (p : Progress) (hb : r.behaviour? node.type = some (.utility compile))
    (hlines : compile node = .emitAll lines) (hne : lines ≠ []) :
    r.visit g p node =
      Progress.close { p with pass := { p.pass with lines := p.pass.lines ++ lines } }
        (some (.statement { node := node.id, lines })) := by
  rw [visit_eq, hb]
  dsimp only
  rw [visitUtility, hlines, Program.run_emitAll]
  dsimp only
  rw [List.drop_left, if_neg (by simpa using hne)]

/-- A visit adds at most one entry, behind those that were there. -/
theorem visit_entries (g : Graph) (p : Progress) (node : Node) :
    (r.visit g p node).entries = p.entries ++ (r.entryFrom g p.pass node).toList := by
  rw [visit_eq, entryFrom, opened?]
  rcases r.behaviour? node.type with _ | (⟨family, c⟩ | ⟨families, c⟩ | c)
  · exact (List.append_nil _).symm
  · dsimp only
    rw [visitRoot]
    generalize ((c node).run ⟨{ node := node.id, family }, p.pass⟩).2 = w
    by_cases hempty : w.block.isEmpty = true
    · rw [if_pos hempty, if_pos hempty]
      rfl
    · rw [if_neg hempty, if_neg hempty]
      -- the children find the pass as the root left it
      obtain ⟨hblock, hpass, hentries⟩ := addChildren_alike (r := r)
        (p := { p with pass := w.pass }) (g.childrenOf node.id) (Pass.Alike.refl w.pass)
      simp only [Progress.close, Option.map_some, Option.toList_some, hentries,
        Entry.withDeclarations, hblock, hpass.pending_eq, blockEntry]
  · dsimp only
    split <;> rfl
  · simp only [visitUtility, statementEntry, Program.run_lines, List.drop_left]
    split <;> rfl

theorem visit_diagnostics (hr : r.Quiet) (g : Graph) (p : Progress) (node : Node) :
    (r.visit g p node).pass.diagnostics =
      p.pass.diagnostics ++ r.diagnosticsFrom g p.pass node := by
  rw [visit_eq, diagnosticsFrom, opened?]
  cases hb : r.behaviour? node.type with
  | none => rfl
  | some b =>
    cases b with
    | child families compile =>
      dsimp only
      split
      · exact (List.append_nil _).symm
      · rfl
    | utility compile =>
      have hquiet : (compile node).Quiet := hr.compile hb node
      exact (Program.run_diagnostics hquiet _).trans (List.append_nil _).symm
    | root family compile =>
      have hquiet : (compile node).Quiet := hr.compile hb node
      have hdiag := Program.run_diagnostics hquiet ⟨{ node := node.id, family }, p.pass⟩
      dsimp only
      rw [visitRoot]
      generalize ((compile node).run ⟨{ node := node.id, family }, p.pass⟩).2 = w at hdiag ⊢
      by_cases hempty : w.block.isEmpty = true
      · rw [if_pos hempty, if_pos hempty]
        exact congrArg (· ++ [_]) hdiag
      · rw [if_neg hempty, if_neg hempty]
        obtain ⟨-, hsteps⟩ := addChildren_spec (p := { p with pass := w.pass }) hr
          (g.childrenOf node.id) (Pass.Alike.refl w.pass)
        exact hsteps.diagnostics.trans (congrArg (· ++ _) hdiag)

theorem visit_spec (hr : r.Quiet) (g : Graph) (p : Progress) (node : Node) :
    (r.visit g p node).entries = p.entries ++ (r.entryFrom g p.pass node).toList ∧
      (r.visit g p node).pass.diagnostics =
        p.pass.diagnostics ++ r.diagnosticsFrom g p.pass node :=
  ⟨visit_entries g p node, visit_diagnostics hr g p node⟩

end Registry

end CueGraph
