import CueGraph.Proofs.Compile.Account

/-!
# Reading off a result

In a graph without two nodes of one id, the entry that a result has for a node is the one that the
visit of the node adds (`entryFor_eq`). A root that opens a chain has the block of its chain there
(`entryFor_root`), and only such a root has a block (`opened_of_entryFor`). The chain can be cut
between two children (`chain_append`), and is what the turns of the children lead to
(`afterTurns_spec`). No entry is without lines (`lines_of_entryOf`).

What a visit leaves of the pass is `passFrom`, up to the diagnostics (`visit_alike`).
-/

namespace CueGraph

/-- Where what comes out of an element can be told by its key, it is found by the key of the
element. -/
theorem find?_filterMap_key {α β κ : Type} [DecidableEq κ] {f : α → Option β} {key : β → κ}
    {id : α → κ} (hkey : ∀ a b, f a = some b → key b = id a) {l : List α} (hn : (l.map id).Nodup)
    {a : α} (ha : a ∈ l) : (l.filterMap f).find? (key · == id a) = f a := by
  induction l with
  | nil => cases ha
  | cons x rest ih =>
    rw [List.map_cons, List.nodup_cons] at hn
    obtain ⟨hx, hn⟩ := hn
    have hlater : id x ≠ id a → a ∈ rest := fun hne => (List.mem_cons.1 ha).resolve_left
      fun he => hne (congrArg id he.symm)
    cases hf : f x with
    | none =>
      rw [List.filterMap_cons_none hf]
      by_cases he : id x = id a
      · have hnone : (rest.filterMap f).find? (key · == id a) = none := by
          rw [List.find?_eq_none]
          intro b hb hk
          obtain ⟨y, hy, hfy⟩ := List.mem_filterMap.1 hb
          rw [beq_iff_eq, hkey y b hfy, ← he] at hk
          exact hx (hk ▸ List.mem_map_of_mem hy)
        have hax : a = x := by
          rcases List.mem_cons.1 ha with hax | hr
          · exact hax
          · exact absurd (he ▸ List.mem_map_of_mem hr) hx
        rw [hnone, hax, hf]
      · exact ih hn (hlater he)
    | some b =>
      rw [List.filterMap_cons_some hf]
      by_cases he : id x = id a
      · have hax : a = x := by
          rcases List.mem_cons.1 ha with hax | hr
          · exact hax
          · exact absurd (he ▸ List.mem_map_of_mem hr) hx
        rw [List.find?_cons_of_pos (by simp [hkey x b hf, he]), hax, hf]
      · rw [List.find?_cons_of_neg (by simp [hkey x b hf, he])]
        exact ih hn (hlater he)

namespace Registry

variable {r : Registry} {g : Graph} {node root : Node} {w : Workspace}

/-! ## Entries -/

theorem compile_entries (hr : r.Quiet) (hn : (g.nodes.map (·.id)).Nodup) (style : ScriptStyle) :
    (r.compile style g).entries = g.nodes.filterMap (r.entryOf g) := by
  have hout := foldl_out Progress.entries (fun p node => (visit_spec hr g p node).1) (·.id) hn {}
  rw [compile, visitAll, Progress.compiled, hout, List.nil_append, List.filterMap_eq_flatMap_toList]
  exact List.flatMap_congr fun node _ => congrArg Option.toList (entryFrom_passAt node)

theorem entryFor_eq (hr : r.Quiet) (hn : (g.nodes.map (·.id)).Nodup) (style : ScriptStyle)
    (hm : node ∈ g.nodes) : (r.compile style g).entryFor node.id = r.entryOf g node := by
  rw [Compiled.entryFor, compile_entries hr hn]
  exact find?_filterMap_key (fun _ _ => node_of_entryOf) hn hm

theorem entryFor_root (hr : r.Quiet) (hn : (g.nodes.map (·.id)).Nodup) (style : ScriptStyle)
    (hm : root ∈ g.nodes) (hw : r.openedAt? g root = some w) :
    (r.compile style g).entryFor root.id =
      some (blockEntry (r.chain (g.childrenOf root.id) w)) := by
  obtain ⟨family, c, hb⟩ := root_of_openedAt? hw
  rw [openedAt?] at hw
  rw [entryFor_eq hr hn style hm, ← entryFrom_passAt, entryFrom, hb]
  simp [hw]

theorem opened_of_entryFor (hr : r.Quiet) (hn : (g.nodes.map (·.id)).Nodup) {style : ScriptStyle}
    (hm : root ∈ g.nodes) {b : Block}
    (hb : (r.compile style g).entryFor root.id = some (.block b)) :
    ∃ w, r.openedAt? g root = some w := by
  rw [entryFor_eq hr hn style hm, ← entryFrom_passAt, entryFrom] at hb
  split at hb
  · obtain ⟨w, hw, -⟩ := Option.map_eq_some_iff.1 hb
    exact ⟨w, hw⟩
  · rw [statementEntry] at hb
    split at hb
    · cases hb
    · cases hb
  · cases hb

/-! ## Chains -/

theorem family_of_chain (children : List Node) (w : Workspace) :
    (r.chain children w).block.family = w.block.family := by
  induction children generalizing w with
  | nil => rfl
  | cons child rest ih =>
    rw [chain_cons, ih]
    split
    · exact join_family w child
    · rfl

theorem chain_append (front back : List Node) (w : Workspace) :
    r.chain (front ++ back) w = r.chain back (r.chain front w) := by
  induction front generalizing w with
  | nil => rfl
  | cons child rest ih => rw [List.cons_append, chain_cons, chain_cons, ih]

theorem chain_one (child : Node) (w : Workspace) :
    r.chain [child] w = if r.joins w.block.family child then r.join w child else w :=
  chain_cons child [] w

theorem length_join (w : Workspace) (child : Node) :
    w.block.lines.length ≤ (r.join w child).block.lines.length := by
  unfold join
  split
  · exact Program.length_run _ w
  · exact Nat.le_refl _

theorem length_chain (children : List Node) (w : Workspace) :
    w.block.lines.length ≤ (r.chain children w).block.lines.length := by
  induction children generalizing w with
  | nil => exact Nat.le_refl _
  | cons child rest ih =>
    rw [chain_cons]
    split
    · exact Nat.le_trans (length_join w child) (ih _)
    · exact ih w

theorem mem_pending_chain {line : String} (children : List Node) {w : Workspace}
    (h : line ∈ w.pass.pending) : line ∈ (r.chain children w).pass.pending := by
  induction children generalizing w with
  | nil => exact h
  | cons child rest ih =>
    rw [chain_cons]
    refine ih ?_
    split
    · unfold join
      split
      · exact Program.mem_pending_run _ h
      · exact h
    · exact h

/-- The blocks of a result are those of the roots that open a chain. -/
theorem opened_of_mem_blocks (hr : r.Quiet) (hn : (g.nodes.map (·.id)).Nodup) {style : ScriptStyle}
    {b : Block} (hb : b ∈ (r.compile style g).blocks) :
    ∃ root ∈ g.nodes, b.node = root.id ∧ ∃ w, r.openedAt? g root = some w ∧
      blockEntry (r.chain (g.childrenOf root.id) w) = .block b := by
  obtain ⟨e, he, heb⟩ := List.mem_filterMap.1 hb
  obtain rfl : .block b = e := by
    cases e with
    | block other => exact congrArg _ (Option.some.inj heb).symm
    | statement s => cases heb
  rw [compile_entries hr hn] at he
  obtain ⟨root, hm, hentry⟩ := List.mem_filterMap.1 he
  have hfor : (r.compile style g).entryFor root.id = some (.block b) :=
    (entryFor_eq hr hn style hm).trans hentry
  obtain ⟨w, hw⟩ := opened_of_entryFor hr hn hm hfor
  rw [entryFor_root hr hn style hm hw] at hfor
  exact ⟨root, hm, node_of_entryOf hentry, w, hw, Option.some.inj hfor⟩

theorem lines_of_opened? {pass : Pass} (hw : r.opened? pass root = some w) :
    w.block.lines ≠ [] := by
  unfold opened? at hw
  split at hw
  · dsimp only at hw
    split at hw
    · cases hw
    · next hempty =>
      obtain rfl := Option.some.inj hw
      exact fun hnil => hempty (List.isEmpty_iff.2 hnil)
  · cases hw

/-- A node makes no entry without lines. -/
theorem lines_of_entryOf {e : Entry} (he : r.entryOf g node = some e) : e.lines ≠ [] := by
  rw [← entryFrom_passAt, entryFrom] at he
  split at he
  · obtain ⟨w, hw, rfl⟩ := Option.map_eq_some_iff.1 he
    intro hnil
    have hshort := length_chain (r := r) (g.childrenOf node.id) w
    have hlines : (r.chain (g.childrenOf node.id) w).block.lines = [] := hnil
    rw [hlines, List.length_nil, Nat.le_zero, List.length_eq_zero_iff] at hshort
    exact lines_of_opened? hw hshort
  · rw [statementEntry] at he
    split at he
    · cases he
    · next hempty =>
      obtain rfl := Option.some.inj he
      exact fun hnil => hempty (List.isEmpty_iff.2 hnil)
  · cases he

/-- The block and the progress after these children have taken their turns under a root that opened
the workspace. -/
def afterTurns (r : Registry) (w : Workspace) (children : List Node) : Block × Progress :=
  r.addChildren children w.block { pass := w.pass }

theorem afterTurns_spec (hr : r.Quiet) (w : Workspace) (children : List Node) :
    (r.afterTurns w children).1 = (r.chain children w).block ∧
      (r.afterTurns w children).2.pass.Alike (r.chain children w).pass := by
  obtain ⟨hblock, hsteps⟩ :=
    addChildren_spec (p := { pass := w.pass }) hr children (Pass.Alike.refl w.pass)
  exact ⟨hblock, hsteps.alike⟩

/-! ## Passes -/

/-- The pass that the visit of a node leaves, up to the diagnostics. -/
def passFrom (r : Registry) (g : Graph) (pass : Pass) (node : Node) : Pass :=
  match r.behaviour? node.type with
  | none => pass
  | some (.root family compile) =>
    match r.opened? pass node with
    | some w => (r.chain (g.childrenOf node.id) w).pass.claim
    | none => ((compile node).run ⟨{ node := node.id, family }, pass⟩).2.pass.claim
  | some (.utility compile) =>
    ((compile node).run ⟨{ node := node.id, family := "" }, pass⟩).2.pass.claim
  | some (.child ..) => pass.claim

theorem visit_alike (g : Graph) (p : Progress) (node : Node) :
    (r.visit g p node).pass.Alike (r.passFrom g p.pass node) := by
  rw [visit_eq, passFrom, opened?]
  rcases r.behaviour? node.type with _ | (⟨family, c⟩ | ⟨families, c⟩ | c)
  · exact Pass.Alike.refl _
  · dsimp only
    rw [visitRoot]
    generalize ((c node).run ⟨{ node := node.id, family }, p.pass⟩).2 = w
    by_cases hempty : w.block.isEmpty = true
    · rw [if_pos hempty, if_pos hempty]
      exact Pass.Alike.refl _
    · rw [if_neg hempty, if_neg hempty]
      obtain ⟨-, hpass, -⟩ := addChildren_alike (r := r) (p := { p with pass := w.pass })
        (g.childrenOf node.id) (Pass.Alike.refl w.pass)
      exact congrArg Pass.claim hpass
  · dsimp only
    split
    · exact Pass.Alike.refl _
    · exact Pass.Alike.refl _
  · exact Pass.Alike.refl _

end Registry

end CueGraph
