import CueGraph.Proofs.Compile.Turn

/-!
# What entries own

The types of a registry can do what they like to the block and the pass: a root can emit statements,
a utility can declare names and then emit nothing. Still each entry has what its own node made, and
nothing that another one did. `ownEntry` makes the entry of a node from the lines that its own
program emits and the declarations that come up in its own turn (`raised`), without a look at the
rest of the graph but for the children of a root. So it can be told when a change to the graph
leaves the entries alone: when the nodes that go have no entry and raise nothing
(`ownEntries_filter`), and those that stay make what they made before (`ownEntries_map`).

Main statement: `entries_own`.
-/

namespace CueGraph

namespace Registry

variable {r : Registry} {g : Graph} {p : Progress} {node : Node} {count : Nat}

/-- The entry of a node, made of what the node emits and raises itself. A root whose block stays
empty and a utility that emits nothing have none. -/
def ownEntry (r : Registry) (g : Graph) (count : Nat) (node : Node) : Option Entry :=
  match r.behaviour? node.type with
  | some (.root family compile) =>
    let w := ((compile node).run ⟨{ node := node.id, family }, .start count⟩).2
    if w.block.isEmpty then none
    else
      let block := (r.chain (g.childrenOf node.id) w).block
      some (.block { block with declarations := r.raised g count node })
  | some (.utility compile) =>
    let lines := (compile node).emitted ⟨{ node := node.id, family := "" }, .start count⟩
    if lines.isEmpty then none
    else some (.statement { node := node.id, lines, declarations := r.raised g count node })
  | _ => none

theorem entryFrom_start (r : Registry) (g : Graph) (count : Nat) (node : Node) :
    r.entryFrom g (.start count) node = r.ownEntry g count node := by
  rw [entryFrom, ownEntry, raised, opened?]
  rcases r.behaviour? node.type with _ | (⟨family, c⟩ | ⟨families, c⟩ | c)
  · rfl
  · have hopen := (c node).unclaimed_run (w := ⟨{ node := node.id, family }, .start count⟩)
      (Pass.unclaimed_start count)
    dsimp only
    generalize ((c node).run ⟨{ node := node.id, family }, .start count⟩).2 = w at hopen ⊢
    by_cases hempty : w.block.isEmpty = true
    · rw [if_pos hempty, if_pos hempty]
      rfl
    · -- all that was declared since the turn began is pending
      have hpending := (unclaimed_chain (r := r) (g.childrenOf node.id) hopen).pending
      rw [if_neg hempty, if_neg hempty, if_neg hempty, ← hpending]
      rfl
  · rfl
  · have hpending := ((c node).unclaimed_run
      (w := ⟨{ node := node.id, family := "" }, .start count⟩) (Pass.unclaimed_start count)).pending
    dsimp only
    rw [statementEntry, ← hpending]

theorem turn_entries (r : Registry) (g : Graph) (count : Nat) (node : Node) :
    (r.turn g count node).entries = (r.ownEntry g count node).toList := by
  rw [← entryFrom_start]
  exact (visit_entries g (.start count) node).trans (List.nil_append _)

theorem declarations_ownEntry {e : Entry} (he : r.ownEntry g count node = some e) :
    e.declarations = r.raised g count node := by
  unfold ownEntry at he
  split at he
  · dsimp only at he
    split at he
    · cases he
    · obtain rfl := Option.some.inj he
      rfl
  · dsimp only at he
    split at he
    · cases he
    · obtain rfl := Option.some.inj he
      rfl
  · cases he

/-- The lines of a statement are what the pass has more of them after the turn. -/
theorem turn_lines {s : Statement} (hs : r.ownEntry g count node = some (.statement s)) :
    (r.turn g count node).pass.lines = s.lines := by
  unfold ownEntry at hs
  split at hs
  · dsimp only at hs
    split at hs
    · cases hs
    · cases hs
  · next compile hb =>
    have hturn : (r.turn g count node).pass.lines =
        ((compile node).run ⟨{ node := node.id, family := "" }, .start count⟩).2.pass.lines := by
      rw [turn, visit_eq, hb]
      rfl
    rw [hturn, Program.run_lines]
    dsimp only at hs
    split at hs
    · cases hs
    · cases hs
      rfl
  · cases hs

theorem foldl_visit_entries (g : Graph) (nodes : List Node) (hp : p.pass.pending = []) :
    (nodes.foldl (r.visit g) p).entries =
      p.entries ++ (r.turns g p.pass.counter nodes).filterMap fun t => r.ownEntry g t.2 t.1 := by
  rw [foldl_visit Progress.entries (fun _ _ => rfl) g nodes hp, List.filterMap_eq_flatMap_toList]
  simp only [turn_entries]

theorem foldl_visit_declarations (g : Graph) (nodes : List Node) (hp : p.pass.pending = []) :
    (nodes.foldl (r.visit g) p).pass.declarations =
      p.pass.declarations ++
        (r.turns g p.pass.counter nodes).flatMap fun t => r.raised g t.2 t.1 := by
  rw [foldl_visit (fun p => p.pass.declarations) (fun _ _ => rfl) g nodes hp]
  simp only [turn_declares]

theorem pending_foldl_visit (g : Graph) (nodes : List Node) (hp : p.pass.pending = []) :
    (nodes.foldl (r.visit g) p).pass.pending = [] := by
  induction nodes generalizing p with
  | nil => exact hp
  | cons node rest ih => exact ih (pending_visit hp g node)

theorem compile_entries_turns (r : Registry) (g : Graph) (style : ScriptStyle) :
    (r.compile style g).entries =
      (r.turns g 0 g.nodes).filterMap fun t => r.ownEntry g t.2 t.1 :=
  (foldl_visit_entries g g.nodes rfl).trans (List.nil_append _)

/-- A utility that only has lines to emit has a statement of these lines in the result, whatever the
other nodes do. -/
theorem statement_emitAll {compile : Node → Program Unit} {lines : List String}
    (hb : r.behaviour? node.type = some (.utility compile))
    (hlines : compile node = .emitAll lines) (hne : lines ≠ []) (style : ScriptStyle)
    (hm : node ∈ g.nodes) :
    ∃ s ∈ (r.compile style g).statements, s.node = node.id ∧ s.lines = lines := by
  have hturn : node ∈ (r.turns g 0 g.nodes).map (·.1) := by
    rw [map_turns]
    exact hm
  obtain ⟨⟨other, count⟩, ht, hother⟩ := List.mem_map.1 hturn
  obtain rfl : other = node := hother
  let s : Statement := { node := other.id, lines, declarations := r.raised g count other }
  have hown : r.ownEntry g count other = some (.statement s) := by
    rw [ownEntry, hb]
    dsimp only
    rw [hlines, Program.emitted_emitAll, if_neg (by simpa using hne)]
  refine ⟨s, ?_, rfl, rfl⟩
  rw [Compiled.statements, compile_entries_turns, List.mem_filterMap]
  exact ⟨.statement s, List.mem_filterMap.2 ⟨_, ht, hown⟩, rfl⟩

/-- Nodes without an entry that raise nothing can be passed over. -/
theorem ownEntries_filter {keep : Node → Bool} {nodes : List Node}
    (hskip : ∀ node ∈ nodes, keep node = false →
      ∀ count, r.ownEntry g count node = none ∧ r.raised g count node = []) (count : Nat) :
    ((r.turns g count nodes).filterMap fun t => r.ownEntry g t.2 t.1) =
      (r.turns g count (nodes.filter keep)).filterMap fun t => r.ownEntry g t.2 t.1 := by
  rw [← turns_filter (fun node hm hk count => (hskip node hm hk count).2) count,
    List.filterMap_filter]
  refine List.filterMap_congr fun t ht => ?_
  cases hk : keep t.1 with
  | true => rfl
  | false => exact (hskip t.1 (mem_of_mem_turns ht) hk t.2).1

/-- Nodes that have the entries of others and raise what these raise, one by one. -/
theorem ownEntries_map {g' : Graph} {f : Node → Node} {nodes : List Node}
    (hsame : ∀ node ∈ nodes, ∀ count, r.ownEntry g' count (f node) = r.ownEntry g count node ∧
      r.raised g' count (f node) = r.raised g count node) (count : Nat) :
    ((r.turns g' count (nodes.map f)).filterMap fun t => r.ownEntry g' t.2 t.1) =
      (r.turns g count nodes).filterMap fun t => r.ownEntry g t.2 t.1 := by
  induction nodes generalizing count with
  | nil => rfl
  | cons node rest ih =>
    rw [List.forall_mem_cons] at hsame
    obtain ⟨hentry, hraised⟩ := hsame.1 count
    rw [List.map_cons, turns, turns, List.filterMap_cons, List.filterMap_cons, hraised,
      ih hsame.2, hentry]

/-- The entry of a node goes by its id and its program, and when it opens a chain, by what its
children make of the chain. -/
theorem own_congr {g' : Graph} {other : Node} (hid : other.id = node.id)
    (ht : other.type = node.type)
    (hcompile : ∀ b, r.behaviour? node.type = some b → b.compile other = b.compile node)
    (hchain : ∀ w, r.opened? (.start count) node = some w →
      r.chain (g'.childrenOf node.id) w = r.chain (g.childrenOf node.id) w) :
    r.ownEntry g' count other = r.ownEntry g count node ∧
      r.raised g' count other = r.raised g count node := by
  rw [ownEntry, ownEntry, raised, raised, ht, hid]
  rw [opened?] at hchain
  cases hb : r.behaviour? node.type with
  | none => exact ⟨rfl, rfl⟩
  | some b =>
    rw [hb] at hchain
    cases b with
    | child families c => exact ⟨rfl, rfl⟩
    | utility c =>
      have hsame : c other = c node := hcompile _ hb
      dsimp only
      rw [hsame]
      exact ⟨rfl, rfl⟩
    | root family c =>
      have hsame : c other = c node := hcompile _ hb
      dsimp only at hchain ⊢
      rw [hsame]
      generalize ((c node).run ⟨{ node := node.id, family }, .start count⟩).2 = w at hchain ⊢
      by_cases hempty : w.block.isEmpty = true
      · rw [if_pos hempty, if_pos hempty, if_pos hempty, if_pos hempty]
        exact ⟨rfl, rfl⟩
      · rw [if_neg hempty, if_neg hempty, if_neg hempty, if_neg hempty,
          hchain w (if_neg hempty)]
        exact ⟨rfl, rfl⟩

/-! ## Main theorem -/

/-- Whatever the programs of the types do, nothing is pending when the turn of a node comes. The
visit adds the entry of what the node itself emits and raises, if it has one: the lines of a
statement are those that the pass gains in the visit, and the declarations that come up are those
that the node raises. So the entries are those of the nodes, one turn after the other, and the
declarations of the result are those of its entries: what a node without an entry raises is among
the declarations of the pass, but not among those of the result. -/
theorem entries_own (r : Registry) (g : Graph) (style : ScriptStyle) :
    let result := r.compile style g
    let turns := r.turns g 0 g.nodes
    (∀ earlier node later, g.nodes = earlier ++ node :: later →
      let met := earlier.foldl (r.visit g) {}
      let left := r.visit g met node
      met.pass.pending = [] ∧
        left.entries = met.entries ++ (r.ownEntry g met.pass.counter node).toList ∧
        (∀ s, r.ownEntry g met.pass.counter node = some (.statement s) →
          left.pass.lines = met.pass.lines ++ s.lines) ∧
        left.pass.declarations = met.pass.declarations ++ r.raised g met.pass.counter node) ∧
    turns.map (·.1) = g.nodes ∧
    result.entries = (turns.filterMap fun t => r.ownEntry g t.2 t.1) ∧
    result.declarations = result.entries.flatMap (·.declarations) ∧
    (result.declarations = turns.flatMap fun t =>
      if (r.ownEntry g t.2 t.1).isSome then r.raised g t.2 t.1 else []) ∧
    (r.visitAll g).pass.declarations = turns.flatMap fun t => r.raised g t.2 t.1 := by
  intro result turns
  have hentries : result.entries = turns.filterMap fun t => r.ownEntry g t.2 t.1 :=
    compile_entries_turns r g style
  refine ⟨?_, map_turns g 0 g.nodes, hentries, rfl, ?_, ?_⟩
  · intro earlier node later _ met left
    have hmet : met.pass.pending = [] := pending_foldl_visit g earlier rfl
    have hleft : left = met ++ r.turn g met.pass.counter node := visit_eq_turn hmet g node
    refine ⟨hmet, ?_, fun s hs => ?_, ?_⟩
    · rw [hleft, ← turn_entries]
      rfl
    · rw [hleft, ← turn_lines hs]
      rfl
    · rw [hleft, ← (turn_declares r g _ node).1]
      rfl
  · have hown : ∀ t : Node × Nat, (r.ownEntry g t.2 t.1).toList.flatMap (·.declarations) =
        if (r.ownEntry g t.2 t.1).isSome then r.raised g t.2 t.1 else [] := by
      intro t
      cases he : r.ownEntry g t.2 t.1 with
      | none => rfl
      | some e => simp [declarations_ownEntry he]
    rw [Compiled.declarations, hentries, List.filterMap_eq_flatMap_toList, List.flatMap_assoc]
    simp only [hown]
  · exact (foldl_visit_declarations g g.nodes rfl).trans (List.nil_append _)

/-- The nodes of one type declare and emit, but open no chain; those of the other are utilities. -/
def strayTypes : Registry := ⟨[
  ("shut", { behaviour := .root "track" fun _ => do
    let _ ← Program.declareName "x" "1"
    .emit "stray();" (.done ()) }),
  ("say", { behaviour := .utility fun _ => do
    let name ← Program.declareName "x" "2"
    .emit ("say(" ++ name ++ ");") (.done ()) })]⟩

def shutNode : Node := { id := "a", type := "shut" }

def sayNode : Node := { id := "b", type := "say" }

def strayGraph : Graph := { nodes := [shutNode, sayNode] }

theorem entries_own_stray :
    strayGraph.nodes = [shutNode] ++ sayNode :: [] ∧
      (strayTypes.visitAll strayGraph).pass.lines =
        (strayTypes.visit strayGraph {} shutNode).pass.lines ++ ["say(x2);"] ∧
      (strayTypes.compile {} strayGraph).entries.map (fun e => (e.node, e.lines)) =
        [("b", ["say(x2);"])] ∧
      (strayTypes.compile {} strayGraph).declarations = ["const x2 = 2;"] ∧
      (strayTypes.visitAll strayGraph).pass.declarations = ["const x1 = 1;", "const x2 = 2;"] := by
  obtain ⟨hturn, -, hentries, -, hdeclarations, hall⟩ := entries_own strayTypes strayGraph {}
  obtain ⟨-, -, hlines, -⟩ := hturn [shutNode] sayNode [] rfl
  refine ⟨rfl, ?_, ?_, ?_, ?_⟩
  · have hcount : ([shutNode].foldl (strayTypes.visit strayGraph) {}).pass.counter = 1 := by rfl
    rw [hcount] at hlines
    exact hlines ⟨"b", ["say(x2);"], ["const x2 = 2;"]⟩ (by rfl)
  · rw [hentries]
    rfl
  · rw [hdeclarations]
    rfl
  · rw [hall]
    rfl

end Registry

end CueGraph
