import CueGraph.Proofs.Catalog.Links
import CueGraph.Proofs.Catalog.Turns
import CueGraph.Proofs.Compile.Owned
import CueGraph.Proofs.Script.Rendered

/-!
# The shape of chains and statements

The lines of a block are those with which its root opens the chain and those that each child adds
(`Block.Formed`). A text may write a line of the root anew, but not the first one, and what it
writes is a link again (`Shaped.turn`). So a chain always ends with a bracket, which the semicolon
behind it turns into the end of a statement, whatever the options of the nodes are.

Main statement: `compile_formed`.
-/

namespace CueGraph

/-! ## Shapes of chains -/

/-- What a child adds to a chain: links, or what an override adds. -/
def Part (child : Node) (lines : List String) : Prop :=
  (∀ line ∈ lines, IsLink line) ∨ (child.type = "override" ∧ IsOverride lines)

/-- The slots stand for lines of the root behind its first one. -/
def SlotsIn (own : List String) (slots : List Slot) : Prop :=
  ∀ slot ∈ slots, 0 < slot.place ∧ slot.place < own.length

/-- Lines that end with a bracket. -/
def Closed (lines : List String) : Prop := ∃ front last, lines = front ++ [last ++ ")"]

/-- The lines of a block are the ones of its root, the first of which starts with `seq.`, and the
parts that the children add. -/
structure Block.Formed (children : List Node) (b : Block) : Prop where
  starts : ∃ rest, b.lines.head? = some ("seq." ++ rest)
  parts : ∃ own added, b.lines = own ++ added.flatten ∧ own ≠ [] ∧
    (∀ line ∈ own.tail, IsLink line) ∧ List.Forall₂ Part children added
  indented : ∀ line ∈ b.lines.tail, line = "" ∨ ∃ rest, line = "  " ++ rest
  ends : Closed b.lines

theorem IsLink.indented {line : String} (h : IsLink line) : ∃ rest, line = "  " ++ rest := by
  obtain ⟨inside, rfl⟩ := h
  exact ⟨inside ++ ")", String.append_assoc⟩

theorem closed_of_links {lines : List String} (h : ∀ line ∈ lines, IsLink line)
    (hne : lines ≠ []) : Closed lines := by
  obtain ⟨front, last, rfl⟩ := (List.eq_nil_or_concat lines).resolve_left hne
  rw [List.concat_eq_append, List.forall_mem_append, List.forall_mem_singleton] at h
  obtain ⟨inside, rfl⟩ := h.2
  exact ⟨front, "  " ++ inside, List.concat_eq_append⟩

theorem Closed.prepend {lines : List String} (h : Closed lines) (front : List String) :
    Closed (front ++ lines) := by
  obtain ⟨front', last, rfl⟩ := h
  exact ⟨front ++ front', last, (List.append_assoc ..).symm⟩

theorem IsOpening.closed {lines : List String} (h : IsOpening lines) : Closed lines := by
  obtain ⟨inside, links, rfl, hlinks⟩ := h
  cases links with
  | nil => exact ⟨[], "seq." ++ inside, rfl⟩
  | cons link rest => exact (closed_of_links hlinks (List.cons_ne_nil _ _)).prepend [_]

/-- A line behind the first one can be written anew. -/
theorem IsOpening.set {lines : List String} (h : IsOpening lines) {place : Nat}
    (hplace : 0 < place) {line : String} (hline : IsLink line) :
    IsOpening (lines.set place line) := by
  obtain ⟨inside, links, rfl, hlinks⟩ := h
  obtain ⟨place, rfl⟩ := Nat.exists_eq_add_of_lt hplace
  refine ⟨inside, links.set place line, by simp, fun other ho => ?_⟩
  rcases List.mem_or_eq_of_mem_set ho with ho | rfl
  · exact hlinks other ho
  · exact hline

theorem Part.indented {child : Node} {lines : List String} (h : Part child lines) :
    ∀ line ∈ lines, line = "" ∨ ∃ rest, line = "  " ++ rest := by
  rcases h with hlinks | ⟨-, code, rfl, hcode⟩
  · exact fun line hl => .inr (hlinks line hl).indented
  · rw [List.cons_append, List.forall_mem_cons, List.forall_mem_append, List.forall_mem_singleton]
    exact ⟨.inr ⟨".addOverride(async (section, data) => \x7b", rfl⟩, hcode.indented,
      .inr ⟨"\x7d)", rfl⟩⟩

theorem Part.closed {child : Node} {lines : List String} (h : Part child lines)
    (hne : lines ≠ []) : Closed lines := by
  rcases h with hlinks | ⟨-, code, rfl, -⟩
  · exact closed_of_links hlinks hne
  · exact ⟨_, "  \x7d", rfl⟩

/-- Behind lines that end with a bracket parts end with one. -/
theorem closed_parts {children : List Node} {added : List (List String)}
    (h : List.Forall₂ Part children added) {own : List String} (hown : Closed own) :
    Closed (own ++ added.flatten) := by
  induction h generalizing own with
  | nil => rwa [List.flatten_nil, List.append_nil]
  | @cons child lines _ _ hpart _ ih =>
    rw [List.flatten_cons, ← List.append_assoc]
    by_cases hne : lines = []
    · rw [hne, List.append_nil]
      exact ih hown
    · exact ih ((hpart.closed hne).prepend own)

theorem indented_parts {children : List Node} {added : List (List String)}
    (h : List.Forall₂ Part children added) :
    ∀ line ∈ added.flatten, line = "" ∨ ∃ rest, line = "  " ++ rest := by
  induction h with
  | nil => exact List.forall_mem_nil _
  | cons hpart _ ih =>
    rw [List.flatten_cons, List.forall_mem_append]
    exact ⟨hpart.indented, ih⟩

theorem Block.formed_of_parts {children : List Node} {b : Block} {own : List String}
    {added : List (List String)} (hlines : b.lines = own ++ added.flatten) (hown : IsOpening own)
    (hparts : List.Forall₂ Part children added) : b.Formed children := by
  have hends : Closed b.lines := hlines ▸ closed_parts hparts hown.closed
  obtain ⟨inside, links, rfl, hlinks⟩ := hown
  refine ⟨⟨inside ++ ")", ?_⟩, ⟨_, added, hlines, List.cons_ne_nil _ _, hlinks, hparts⟩, ?_, hends⟩
  · rw [hlines, ← String.append_assoc]
    rfl
  · rw [hlines]
    show ∀ line ∈ links ++ added.flatten, _
    rw [List.forall_mem_append]
    exact ⟨fun line hl => .inr (hlinks line hl).indented, indented_parts hparts⟩

namespace Catalog

variable {root child : Node} {w w' : Workspace} {own rest : List String}

/-! ## Chains of built-in types -/

/-- The chain has the lines of its root, and others behind them; its slots are among the first. -/
structure Shaped (own rest : List String) (b : Block) : Prop where
  lines : b.lines = own ++ rest
  opening : IsOpening own
  slots : SlotsIn own b.slots

/-- A child that is no text adds a part. -/
theorem part_plainLines (hj : Registry.builtin.joins w.block.family child = true)
    (ht : child.type ≠ "text") : Part child (plainLines child) := by
  obtain ⟨families, compile, hb, -⟩ := child_of_joins hj
  rw [plainLines, join_eq hb]
  rcases formed_cases hb with ⟨htext, -⟩ | ⟨-, hroot⟩ | ⟨ho, hover⟩ | hformed
  · exact absurd htext ht
  · cases hroot
  · cases hover
    rw [Program.run_pushAll]
    by_cases hne : overrideLines (.of child.config) = []
    · refine .inl ?_
      rw [hne]
      exact List.forall_mem_nil _
    · exact .inr ⟨ho, isOverride_lines _ hne⟩
  · obtain ⟨lines, hlines, hlinks⟩ := hformed child
    rw [hlines, Program.run_pushAll]
    exact .inl hlinks

/-- The line for a text goes into a slot among the lines of the root, or it is a part. -/
theorem Shaped.putText (h : Shaped own rest w.block) (call : Call) :
    ∃ own' added, Shaped own' (rest ++ added) (putText w.block call.line) ∧ Part child added := by
  have hlink := call.isLink_line
  rw [Catalog.putText]
  cases hs : w.block.slot? textSlot with
  | none =>
    have hno : w.block.hasSlot textSlot = false := by rw [Block.hasSlot, hs]; rfl
    rw [hno, if_neg Bool.false_ne_true]
    refine ⟨own, [call.line], ⟨?_, h.opening, h.slots⟩, .inl (List.forall_mem_singleton.2 hlink)⟩
    rw [Block.lines_push, h.lines, List.append_assoc]
  | some slot =>
    have hyes : w.block.hasSlot textSlot = true := by rw [Block.hasSlot, hs]; rfl
    obtain ⟨hpos, hlt⟩ := h.slots slot (List.mem_of_find?_eq_some hs)
    rw [hyes, if_pos rfl, Block.fill, hs]
    refine ⟨own.set slot.place call.line, [], ⟨?_, h.opening.set hpos hlink, ?_⟩,
      .inl (List.forall_mem_nil _)⟩
    · rw [List.append_nil]
      dsimp only
      rw [h.lines, List.set_append_left _ _ hlt]
    · intro other ho
      rw [List.length_set]
      exact h.slots other ho

/-- Whatever a child does in its turn, the lines of the root keep their shape, and what comes behind
is a part. -/
theorem Shaped.turn (h : Shaped own rest w.block) (ht : Turn w child w') :
    ∃ own' added, Shaped own' (rest ++ added) w'.block ∧ Part child added := by
  have hnone : ∃ own' added, Shaped own' (rest ++ added) w.block ∧ Part child added :=
    ⟨own, [], (List.append_nil rest).symm ▸ h, .inl (List.forall_mem_nil _)⟩
  cases ht with
  | refused hj => exact hnone
  | blank hj ht hblank => exact hnone
  | plain hj ht =>
    refine ⟨own, plainLines child, ⟨?_, h.opening, h.slots⟩, part_plainLines hj ht⟩
    rw [Block.lines_extend, h.lines, List.append_assoc]
  | text hj ht text hsome => exact h.putText _

theorem Shaped.chain (h : Shaped own rest w.block) (children : List Node) :
    ∃ own' added, Shaped own' (rest ++ added.flatten) (Registry.builtin.chain children w).block ∧
      List.Forall₂ Part children added := by
  -- a turn may write a line of the root anew, so the lines of the root are general here
  induction children generalizing w own rest with
  | nil => exact ⟨own, [], (List.append_nil rest).symm ▸ h, .nil⟩
  | cons child more ih =>
    rw [Registry.chain_cons]
    obtain ⟨own', lines, hturn, hpart⟩ := h.turn (Catalog.turn w child)
    obtain ⟨own'', added, hchain, hparts⟩ := ih hturn
    rw [List.append_assoc, ← List.flatten_cons] at hchain
    exact ⟨own'', lines :: added, hchain, .cons hpart hparts⟩

theorem shaped_scrollingText (c : Config) (b : Block) (hb : b.lines = []) (hs : b.slots = []) :
    Shaped (scrollingTextBlock c b).lines [] (scrollingTextBlock c b) := by
  have hlines := lines_scrollingTextBlock c b
  have hcalls : (scrollingTextBlock c b).lines = "seq.scrollingText()" ::
      (atSelectedToken c ++ textCall (c.text "text") none ::
        positiveCall "duration" "durationMs" c).map Call.line := by
    rw [hlines, scrollingTextFront, hb]
    simp
  refine ⟨(List.append_nil _).symm, ?_, ?_⟩
  · rw [hcalls]
    exact isOpening_calls "scrollingText(" rfl _
  · rw [slots_scrollingTextBlock c b hs, hlines]
    intro slot hmem
    rw [List.mem_singleton.1 hmem]
    exact ⟨by simp [scrollingTextFront, hb], by simp⟩

/-- A root of a built-in type opens a chain of the right shape. -/
theorem shaped_of_opened? {pass : Pass} (hw : Registry.builtin.opened? pass root = some w) :
    Shaped w.block.lines [] w.block := by
  rcases opened?_cases hw with ⟨-, rfl⟩ | ⟨ht, hslots, -⟩
  · exact shaped_scrollingText _ _ rfl rfl
  · refine ⟨(List.append_nil _).symm, ?_, fun slot hmem => by rw [hslots] at hmem; cases hmem⟩
    unfold Registry.opened? at hw
    split at hw
    · next family compile hb =>
      rcases formed_cases hb with ⟨-, hlabel⟩ | ⟨hscroll, -⟩ | ⟨-, hover⟩ | hformed
      · cases hlabel
      · exact absurd hscroll ht
      · cases hover
      · obtain ⟨lines, hlines, hopening⟩ := hformed root
        rw [hlines, Program.run_pushAll] at hw
        dsimp only at hw
        split at hw
        · cases hw
        · next hempty =>
          cases hw
          refine hopening fun hnil => hempty ?_
          rw [hnil]
          rfl
    · cases hw

/-! ## Entries -/

/-- The statement of a utility ends as one. -/
theorem isStatement_emitted {compile : Node → Program Unit} {node : Node}
    (hb : Registry.builtin.behaviour? node.type = some (.utility compile))
    (hne : (compile node).emitted w ≠ []) : IsStatement ((compile node).emitted w) := by
  rcases formed_cases hb with ⟨-, hlabel⟩ | ⟨-, hscroll⟩ | ⟨-, hover⟩ | hformed
  · cases hlabel
  · cases hscroll
  · cases hover
  · obtain ⟨lines, hlines, hstatement⟩ := hformed node
    rw [hlines, Program.emitted_emitAll] at hne ⊢
    exact hstatement hne

/-- The entry of a node: a block of the node with the lines of its children, or a statement. -/
inductive EntryFormed (g : Graph) (node : Node) : Entry → Prop
  | block (b : Block) (hnode : b.node = node.id) (h : b.Formed (g.childrenOf node.id)) :
      EntryFormed g node (.block b)
  | statement (s : Statement) (h : IsStatement s.lines) : EntryFormed g node (.statement s)

theorem formed_ownEntry {g : Graph} {count : Nat} {node : Node} {e : Entry}
    (he : Registry.builtin.ownEntry g count node = some e) : EntryFormed g node e := by
  unfold Registry.ownEntry at he
  split at he
  · next family compile hb =>
    dsimp only at he
    split at he
    · cases he
    · next hempty =>
      cases he
      have hw : Registry.builtin.opened? (.start count) node =
          some ((compile node).run ⟨{ node := node.id, family }, .start count⟩).2 := by
        rw [Registry.opened?, hb]
        exact if_neg hempty
      obtain ⟨own, added, hshaped, hparts⟩ :=
        (shaped_of_opened? hw).chain (g.childrenOf node.id)
      refine .block _ ?_ (Block.formed_of_parts hshaped.lines hshaped.opening hparts)
      exact (Registry.node_of_chain _ _).trans (Program.run_node _ _)
  · next compile hb =>
    dsimp only at he
    split at he
    · cases he
    · next hempty =>
      cases he
      exact .statement _ (isStatement_emitted hb (by simpa using hempty))
  · cases he

theorem formed_of_mem {g : Graph} {style : ScriptStyle} {e : Entry}
    (he : e ∈ (Registry.builtin.compile style g).entries) :
    ∃ node ∈ g.nodes, EntryFormed g node e := by
  rw [Registry.compile_entries_turns, List.mem_filterMap] at he
  obtain ⟨t, ht, he⟩ := he
  exact ⟨t.1, Registry.mem_of_mem_turns ht, formed_ownEntry he⟩

/-- The last line of an entry ends a statement once it stands in the script. -/
theorem isStatement_written {g : Graph} {node : Node} {e : Entry} (h : EntryFormed g node e) :
    IsStatement e.written := by
  cases h with
  | block b hnode hb =>
    obtain ⟨front, last, hlines⟩ := hb.ends
    refine ⟨b.declarations ++ front, last, ?_⟩
    rw [Entry.written, hlines, Entry.endChain_concat, List.append_assoc, String.append_assoc]
    rfl
  | statement s hs =>
    obtain ⟨front, last, hlines⟩ := hs
    exact ⟨s.declarations ++ front, last, by rw [Entry.written, hlines, List.append_assoc]⟩

/-- The lines of a script around those of an entry that ends a statement. -/
theorem scriptLines_around (style : ScriptStyle) {entries earlier later : List Entry} {e : Entry}
    (hentries : entries = earlier ++ e :: later) (h : IsStatement e.written) :
    Entry.scriptLines style entries =
      Entry.opening style ++ Entry.inFront style.separate earlier ++ e.written ++
        Entry.behind style.separate later ++ Entry.closing style := by
  obtain ⟨front, last, hends⟩ := h
  have hne : e.written ≠ [] := by
    rw [hends]
    exact List.append_ne_nil_of_right_ne_nil _ (List.cons_ne_nil _ _)
  rw [hentries, Entry.scriptLines_split style hne, Entry.written_eq,
    List.append_assoc _ e.declarations]

/-- Without a frame the script ends with the last line of its last entry. -/
theorem render_isStatement {separate : Bool} {entries : List Entry} (hne : entries ≠ [])
    (h : ∀ e ∈ entries, IsStatement e.written) :
    ∃ front, Entry.render { wrap := false, separate } entries = front ++ ");\n" := by
  obtain ⟨earlier, e, hlast⟩ := (List.eq_nil_or_concat entries).resolve_left hne
  rw [List.concat_eq_append] at hlast
  have he : IsStatement e.written := h e (hlast ▸ List.mem_append_right _ List.mem_cons_self)
  have hlines := scriptLines_around { wrap := false, separate } hlast he
  have hnone : Entry.behind separate [] = [] := rfl
  obtain ⟨front, last, hends⟩ := he
  refine ⟨Entry.textOf (Entry.inFront separate earlier ++ front) ++ last, ?_⟩
  have htext : Entry.textOf [last ++ ");"] = last ++ ");\n" := by
    simp only [Entry.textOf, List.map_cons, List.map_nil, String.join_cons, String.join_nil,
      String.append_assoc, String.append_empty]
    rfl
  rw [Entry.render_eq, hlines, hends, hnone]
  show Entry.textOf ([] ++ Entry.inFront separate earlier ++ (front ++ [last ++ ");"]) ++ [] ++ [])
    = _
  rw [List.nil_append, List.append_nil, List.append_nil, ← List.append_assoc, Entry.textOf_append,
    htext, String.append_assoc]

/-! ## Main theorem -/

/-- In a compiled graph of built-in types each block belongs to a root, and its lines are those of
the root and a part for each child: the first starts with `seq.`, the others with two blanks, but
for empty lines in the code of an override, and the last ends with a bracket. The last line of a
statement ends it. So every entry ends a statement where it stands in the script, and without a
frame the script is empty or ends a statement in its last line. -/
theorem compile_formed (style : ScriptStyle) (g : Graph) :
    let result := Registry.builtin.compile style g
    (∀ b ∈ result.blocks, ∃ root ∈ g.nodes,
      b.node = root.id ∧ b.Formed (g.childrenOf root.id)) ∧
    (∀ s ∈ result.statements, IsStatement s.lines) ∧
    (∀ earlier e later, result.entries = earlier ++ e :: later →
      IsStatement e.written ∧
      Entry.scriptLines style result.entries =
        Entry.opening style ++ Entry.inFront style.separate earlier ++ e.written ++
          Entry.behind style.separate later ++ Entry.closing style) ∧
    (style.wrap = false →
      (result.entries = [] ∧ result.text = "") ∨ ∃ front, result.text = front ++ ");\n") := by
  intro result
  have hwritten : ∀ e ∈ result.entries, IsStatement e.written := by
    intro e he
    obtain ⟨node, -, hformed⟩ := formed_of_mem he
    exact isStatement_written hformed
  refine ⟨fun b hb => ?_, fun s hs => ?_, fun earlier e later hentries => ?_, fun hwrap => ?_⟩
  · obtain ⟨e, he, hblock⟩ := List.mem_filterMap.1 hb
    obtain ⟨root, hroot, hformed⟩ := formed_of_mem he
    cases hformed with
    | block b' hnode hb' => cases hblock; exact ⟨root, hroot, hnode, hb'⟩
    | statement s hs => cases hblock
  · obtain ⟨e, he, hstatement⟩ := List.mem_filterMap.1 hs
    obtain ⟨node, -, hformed⟩ := formed_of_mem he
    cases hformed with
    | block b' hnode hb' => cases hstatement
    | statement s hs => cases hstatement; exact hs
  · have he := hwritten e (hentries ▸ List.mem_append_right _ List.mem_cons_self)
    exact ⟨he, scriptLines_around style hentries he⟩
  · obtain ⟨wrap, separate⟩ := style
    obtain rfl : wrap = false := hwrap
    by_cases hne : result.entries = []
    · refine .inl ⟨hne, ?_⟩
      have htext : result.text = Entry.render { wrap := false, separate } result.entries := rfl
      rw [htext, hne]
      cases separate with
      | false => rfl
      | true => rfl
    · exact .inr (render_isStatement hne hwritten)

/-- An effect that is changed by code with an empty line in the middle. -/
def emberGraph : Graph where
  nodes :=
    [{ id := "fx", type := "effect", config := .object [("file", .str "ember.webm")] },
      { id := "code", type := "override", parent := some "fx",
        config := .object [("body", .str "let a = 1;\n\nreturn a;")] }]
  children := [("fx", ["code"])]

theorem compile_formed_ember :
    let result := Registry.builtin.compile { wrap := false } emberGraph
    result.blocks.map (·.lines) =
      [["seq.effect()", "  .file(\"ember.webm\")",
        "  .addOverride(async (section, data) => \x7b", "    let a = 1;", "", "    return a;",
        "  \x7d)"]] ∧
    (∀ b ∈ result.blocks, Closed b.lines) ∧ ∃ front, result.text = front ++ ");\n" := by
  intro result
  have hlines : result.blocks.map (·.lines) =
      [["seq.effect()", "  .file(\"ember.webm\")",
        "  .addOverride(async (section, data) => \x7b", "    let a = 1;", "", "    return a;",
        "  \x7d)"]] := by
    decide +kernel
  obtain ⟨hblocks, -, -, htext⟩ := compile_formed { wrap := false } emberGraph
  refine ⟨hlines, fun b hb => ?_, (htext rfl).resolve_left fun hnone => ?_⟩
  · obtain ⟨root, -, -, hformed⟩ := hblocks b hb
    exact hformed.ends
  · have hempty : result.blocks = [] := by rw [Compiled.blocks, hnone.1]; rfl
    rw [hempty] at hlines
    cases hlines

end Catalog

end CueGraph
