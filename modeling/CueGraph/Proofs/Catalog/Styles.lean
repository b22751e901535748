import CueGraph.Proofs.Catalog.Turns
import CueGraph.Proofs.Script.Written

/-!
# The styles that texts declare

Only texts declare anything. Each style gets the next number, and its declaration goes to the entry
of the root, so nothing is left over between two visits (`settled_visit`). So the declarations of a
result are numbered without a gap, in the order of the entries, and each stands with the block whose
line names it, in front of that line.

Main statement: `styles_declared`.
-/

namespace CueGraph

namespace Catalog

variable {root child : Node} {w w' : Workspace} {claimed : List String} {p q : Pass}

/-- The declarations of these styles, numbered in order. -/
def styleDeclarations (literals : List String) : List String :=
  literals.mapIdx fun i literal => Pass.declaration ("textStyle" ++ toString (i + 1)) literal

/-- All that was declared are styles, numbered in order; these are claimed, and the others are
pending. -/
structure Declared (claimed : List String) (p : Pass) : Prop where
  split : p.declarations = claimed ++ p.pending
  numbered : ∃ literals, p.declarations = styleDeclarations literals ∧ p.counter = literals.length

/-! ## Steps -/

theorem Declared.alike (h : Declared claimed p) (hq : q.Alike p) : Declared claimed q := by
  obtain ⟨literals, hliterals, hcounter⟩ := h.numbered
  refine ⟨?_, literals, ?_, ?_⟩
  · rw [hq.declarations_eq, hq.pending_eq, h.split]
  · rw [hq.declarations_eq, hliterals]
  · rw [hq.counter_eq, hcounter]

/-- An entry claims what is pending. -/
theorem Declared.claim (h : Declared claimed p) : Declared (claimed ++ p.pending) p.claim :=
  ⟨h.split.trans (List.append_nil _).symm, h.numbered⟩

theorem Declared.declare (h : Declared claimed p) (literal : String) :
    Declared claimed (p.declare "textStyle" literal) := by
  obtain ⟨literals, hliterals, hcounter⟩ := h.numbered
  refine ⟨?_, literals ++ [literal], ?_, ?_⟩
  · rw [Pass.declare, h.split, List.append_assoc]
  · rw [Pass.declare, styleDeclarations, List.mapIdx_concat, ← styleDeclarations, ← hliterals,
      Pass.nextName, hcounter]
  · rw [Pass.declare, hcounter, List.length_append, List.length_singleton]

theorem declared_declareStyleIn (h : Declared claimed p) (c : Config) :
    Declared claimed (declareStyleIn c p) := by
  unfold declareStyleIn
  split
  · exact h
  · exact h.declare _

theorem declared_turn (ht : Turn w child w') (h : Declared claimed w.pass) :
    Declared claimed w'.pass := by
  cases ht with
  | refused hj => exact h
  | plain hj ht => exact h
  | blank hj ht hnone => exact h
  | text hj ht text hsome => exact declared_declareStyleIn h _

theorem declared_chain (children : List Node) (h : Declared claimed w.pass) :
    Declared claimed (Registry.builtin.chain children w).pass := by
  induction children generalizing w with
  | nil => exact h
  | cons child rest ih =>
    rw [Registry.chain_cons]
    exact ih (declared_turn (turn w child) h)

/-! ## Visits -/

/-- A utility declares nothing. -/
theorem run_utility {compile : Node → Program Unit} {node : Node}
    (hb : Registry.builtin.behaviour? node.type = some (.utility compile)) (w : Workspace) :
    ∃ lines, ((compile node).run w).2.pass = { w.pass with lines } := by
  rcases builtin_cases hb with ⟨-, hlabel⟩ | ⟨-, hscroll⟩ | ⟨-, lines, hlines⟩
  · cases hlabel
  · cases hscroll
  · rw [hlines, Program.run_emitAll]
    exact ⟨_, rfl⟩

/-- Between two visits nothing is pending: the entries have claimed all that was declared. -/
structure Settled (p : Progress) : Prop where
  pending : p.pass.pending = []
  declared : Declared (p.entries.flatMap (·.declarations)) p.pass

theorem settled_visit {p : Progress} (g : Graph) (node : Node) (h : Settled p) :
    Settled (Registry.builtin.visit g p node) := by
  obtain ⟨hp, h⟩ := h
  have hentries := (Registry.visit_spec quiet_builtin g p node).1
  have hpass := Registry.visit_alike (r := .builtin) g p node
  -- the pass as it is when the entry claims what is pending
  have hclose : ∃ q, Declared (p.entries.flatMap (·.declarations)) q ∧
      Registry.builtin.passFrom g p.pass node = q.claim ∧
      (Registry.builtin.entryFrom g p.pass node).toList.flatMap (·.declarations) = q.pending := by
    have hclaim : p.pass = p.pass.claim := by rw [Pass.claim, ← hp]
    unfold Registry.passFrom Registry.entryFrom
    cases hb : Registry.builtin.behaviour? node.type with
    | none => exact ⟨p.pass, h, hclaim, hp.symm⟩
    | some b =>
      cases b with
      | root family compile =>
        dsimp only
        cases hw : Registry.builtin.opened? p.pass node with
        | none =>
          refine ⟨p.pass, h, ?_, hp.symm⟩
          rcases run_root hb with ⟨-, -, hrun⟩ | ⟨-, lines, hrun⟩
          · rw [hrun]
          · rw [hrun]
        | some w =>
          have hsame : w.pass = p.pass := by
            rcases opened?_cases hw with ⟨-, rfl⟩ | ⟨-, -, hsame⟩
            · rfl
            · exact hsame
          refine ⟨_, declared_chain (g.childrenOf node.id) (hsame ▸ h), rfl, ?_⟩
          simp [Registry.blockEntry, Entry.declarations]
      | utility compile =>
        obtain ⟨lines, hrun⟩ := run_utility hb ⟨{ node := node.id, family := "" }, p.pass⟩
        dsimp only
        refine ⟨{ p.pass with lines }, ⟨h.split, h.numbered⟩, by rw [hrun], ?_⟩
        rw [Registry.statementEntry]
        split
        · exact hp.symm
        · simp [Entry.declarations, hrun]
      | child families compile => exact ⟨p.pass, h, rfl, hp.symm⟩
  obtain ⟨q, hq, hleft, hnew⟩ := hclose
  rw [hleft] at hpass
  refine ⟨hpass.pending_eq, ?_⟩
  rw [hentries, List.flatMap_append, hnew]
  exact hq.claim.alike hpass

theorem settled_visitAll (g : Graph) : Settled (Registry.builtin.visitAll g) :=
  List.foldlRecOn g.nodes _ ⟨rfl, rfl, [], rfl, rfl⟩ fun _ h node _ => settled_visit g node h

/-! ## Main theorem -/

/-- A text that writes a line has declared the style that the line names. -/
theorem declares_of_turn (h : Turn w child w') (ht : child.type = "text") :
    w'.block = w.block ∨ ∃ text name, w'.block = putText w.block (textCall text name).line ∧
      Declares child w.pass w'.pass name ∧
      ∀ n, name = some n →
        Pass.declaration n (styleLiteral (.of child.config)) ∈ w'.pass.pending := by
  cases h with
  | refused hj => exact .inl rfl
  | plain hj hno => exact absurd ht hno
  | blank hj ht hnone => exact .inl rfl
  | text hj ht text hsome =>
    refine .inr ⟨text, _, rfl, declares_declareStyleIn child w.pass, fun n hname => ?_⟩
    unfold styleName? at hname
    unfold declareStyleIn
    split at hname
    · cases hname
    · next hstyle =>
      obtain rfl := Option.some.inj hname
      rw [if_neg hstyle]
      exact List.mem_append_right _ (List.mem_singleton_self _)

/-- The declarations of a result, entry by entry, are those of styles, numbered from one on. When
the turn of a text under a root comes, it writes nothing, or it writes one line, and the style that
this line names is declared with the block of the root. In the script, the lines of each entry
follow its declarations. -/
theorem styles_declared {g : Graph} (hn : (g.nodes.map (·.id)).Nodup) (style : ScriptStyle) :
    let result := Registry.builtin.compile style g
    (∃ literals, result.declarations = styleDeclarations literals) ∧
    (∀ b ∈ result.blocks, ∃ root ∈ g.nodes, b.node = root.id ∧
      ∃ w, Registry.builtin.openedAt? g root = some w ∧
        b.lines = (Registry.builtin.afterTurns w (g.childrenOf root.id)).1.lines ∧
        ∀ front child behind, g.childrenOf root.id = front ++ child :: behind →
          child.type = "text" →
          let met := Registry.builtin.afterTurns w front
          let left := Registry.builtin.afterTurns w (front ++ [child])
          left.1 = met.1 ∨ ∃ text name, left.1 = putText met.1 (textCall text name).line ∧
            Declares child met.2.pass left.2.pass name ∧
            ∀ n, name = some n →
              Pass.declaration n (styleLiteral (.of child.config)) ∈ b.declarations) ∧
    ∀ earlier e later, result.entries = earlier ++ e :: later →
      e.ended ≠ [] ∧
        result.text = String.join ((Entry.opening style ++ Entry.inFront style.separate earlier ++
          e.declarations ++ e.ended ++ Entry.behind style.separate later ++
            Entry.closing style).map (· ++ "\n")) := by
  intro result
  refine ⟨?_, ?_, ?_⟩
  · obtain ⟨hpending, hdeclared⟩ := settled_visitAll g
    obtain ⟨literals, hliterals, -⟩ := hdeclared.numbered
    refine ⟨literals, ?_⟩
    rw [← hliterals, hdeclared.split, hpending, List.append_nil]
    rfl
  · intro b hb
    obtain ⟨root, hm, hnode, w, hw, hentry⟩ :=
      Registry.opened_of_mem_blocks quiet_builtin hn hb
    obtain rfl := Entry.block.inj hentry
    refine ⟨root, hm, hnode, w, hw, ?_, ?_⟩
    · rw [(Registry.afterTurns_spec quiet_builtin w _).1]
    · intro front child behind hsplit ht met left
      obtain ⟨hmet, hmetPass⟩ := Registry.afterTurns_spec quiet_builtin w front
      obtain ⟨hleft, hleftPass⟩ := Registry.afterTurns_spec quiet_builtin w (front ++ [child])
      have hturn := declares_of_turn (turn (Registry.builtin.chain front w) child) ht
      rw [← Registry.chain_one, ← Registry.chain_append, ← hmet, ← hleft] at hturn
      refine hturn.imp id fun ⟨text, name, hline, hdeclares, hpending⟩ => ?_
      refine ⟨text, name, hline, hdeclares.alike hmetPass hleftPass, fun n hname => ?_⟩
      -- what is pending then is still pending when the root is done
      have hlater := Registry.mem_pending_chain (r := .builtin) behind
        (hpending n hname)
      rwa [← Registry.chain_append, ← List.append_cons, ← hsplit] at hlater
  · intro earlier e later hsplit
    have hlines : e.lines ≠ [] := by
      have he : e ∈ result.entries := by
        rw [hsplit]
        exact List.mem_append_right _ List.mem_cons_self
      rw [Registry.compile_entries quiet_builtin hn] at he
      obtain ⟨node, -, hentry⟩ := List.mem_filterMap.1 he
      exact Registry.lines_of_entryOf hentry
    have htext : result.text = Entry.render style result.entries := rfl
    rw [htext, hsplit, Entry.render, Entry.scriptLines_split style (Entry.written_ne_nil hlines)]
    exact ⟨Entry.ended_ne_nil hlines, rfl⟩

/-- Red texts, one under an animation, which takes no texts, and two under an effect, with a text
between them that has no style. -/
def redTexts : Graph :=
  let red (id parent : String) : Node :=
    { id, type := "text", config := .object [("text", .str id), ("fill", .str "red")], parent }
  ({} : Graph).performAll [.add { id := "e", type := "animation" },
    .add { id := "f", type := "effect", config := .object [("file", .str "f")] },
    .add (red "a" "e"), .add (red "b" "f"),
    .add { id := "c", type := "text", config := .object [("text", .str "c")], parent := "f" },
    .add (red "d" "f")]

theorem styles_declared_redTexts :
    (redTexts.nodes.map (·.id)).Nodup ∧
      ∃ literals, (Registry.builtin.compile {} redTexts).declarations = styleDeclarations literals ∧
        literals.length = 2 := by
  have hn : (redTexts.nodes.map (·.id)).Nodup := by decide
  obtain ⟨⟨literals, hliterals⟩, -, -⟩ := styles_declared hn {}
  refine ⟨hn, literals, hliterals, ?_⟩
  have hlength : (Registry.builtin.compile {} redTexts).declarations.length = 2 := rfl
  rwa [hliterals, styleDeclarations, List.length_mapIdx] at hlength

end Catalog

end CueGraph
