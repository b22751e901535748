import CueGraph.Proofs.Catalog.Turns

/-!
# Siblings do not interfere

A child of a built-in type that is no text adds the same lines to a chain in any company. When the
chain keeps no line for its text, its lines are those of the root and then those that the children
add, in order (`lines_unkept`). When it keeps one, texts write that line anew and leave the others
alone (`lines_kept`).

Main statement: `siblings_independent`.
-/

namespace CueGraph

namespace Catalog

variable {root child : Node} {w w' : Workspace}

/-- The lines that a child adds under a root of the family: none when it is refused, for a child
that is no text those that it adds alone, and for a text one line at most, unless the root keeps a
line for its text. -/
inductive Adds (root : Node) (family : String) (child : Node) : List String → Prop
  | refused (hj : Registry.builtin.joins family child = false) : Adds root family child []
  | plain (hj : Registry.builtin.joins family child = true) (ht : child.type ≠ "text") :
      Adds root family child (Registry.builtin.addedAlone root child)
  | patch (hj : Registry.builtin.joins family child = true) (ht : child.type = "text")
      (hroot : root.type = "scrollingText") : Adds root family child []
  | blank (hj : Registry.builtin.joins family child = true) (ht : child.type = "text")
      (hroot : root.type ≠ "scrollingText") (hblank : Text.isBlank (ownText child) = true) :
      Adds root family child []
  | text (hj : Registry.builtin.joins family child = true) (ht : child.type = "text")
      (hroot : root.type ≠ "scrollingText") (htext : Text.isBlank (ownText child) = false)
      (style : Option String) : Adds root family child [(textCall (ownText child) style).line]

/-! ## Without a line for the text -/

theorem labelText_none (own : String) :
    labelText own none = if Text.isBlank own then none else some own := by
  unfold labelText
  cases Text.isBlank own <;> rfl

theorem slots_of_turn (h : Turn w child w') : w'.block.slots = w.block.slots := by
  cases h with
  | text hj ht text hsome => exact slots_putText _ _
  | _ => rfl

theorem family_of_turn (h : Turn w child w') : w'.block.family = w.block.family := by
  cases h with
  | text hj ht text hsome => exact family_putText _ _
  | _ => rfl

/-- The turn of a child under a root that keeps no line for its text. -/
theorem adds_of_turn (h : Turn w child w') (hroot : root.type ≠ "scrollingText")
    (hslots : w.block.slots = [])
    (halone : Registry.builtin.joins w.block.family child = true → child.type ≠ "text" →
      Registry.builtin.addedAlone root child = plainLines child) :
    ∃ added, Adds root w.block.family child added ∧
      w'.block.lines = w.block.lines ++ added := by
  have hslot : w.block.slot? textSlot = none := by rw [Block.slot?, hslots]; rfl
  cases h with
  | refused hj => exact ⟨[], .refused hj, (List.append_nil _).symm⟩
  | plain hj ht => exact ⟨plainLines child, halone hj ht ▸ .plain hj ht, rfl⟩
  | blank hj ht hnone =>
    rw [hslot, Option.map_none, labelText_none] at hnone
    have hblank : Text.isBlank (ownText child) = true := by
      by_contra hb
      rw [if_neg hb] at hnone
      cases hnone
    exact ⟨[], .blank hj ht hroot hblank, (List.append_nil _).symm⟩
  | text hj ht text hsome =>
    rw [hslot, Option.map_none, labelText_none] at hsome
    cases hb : Text.isBlank (ownText child) with
    | true => rw [hb, if_pos rfl] at hsome; cases hsome
    | false =>
      rw [hb, if_neg Bool.false_ne_true] at hsome
      cases hsome
      refine ⟨_, .text hj ht hroot hb (styleName? (.of child.config) w.pass), ?_⟩
      rw [putText, Block.hasSlot, hslot]
      rfl

/-- The lines of a chain that keeps no line for its text. -/
theorem lines_unkept {children : List Node} (hroot : root.type ≠ "scrollingText")
    (hslots : w.block.slots = [])
    (halone : ∀ child ∈ children, Registry.builtin.joins w.block.family child = true →
      child.type ≠ "text" → Registry.builtin.addedAlone root child = plainLines child) :
    ∃ added, List.Forall₂ (Adds root w.block.family) children added ∧
      (Registry.builtin.chain children w).block.lines = w.block.lines ++ added.flatten := by
  induction children generalizing w with
  | nil => exact ⟨[], .nil, (List.append_nil _).symm⟩
  | cons child rest ih =>
    rw [List.forall_mem_cons] at halone
    have hturn := turn w child
    obtain ⟨first, hfirst, hlines⟩ := adds_of_turn hturn hroot hslots halone.1
    rw [Registry.chain_cons]
    generalize (if Registry.builtin.joins w.block.family child then Registry.builtin.join w child
      else w) = w' at hturn hlines
    have hfamily := family_of_turn hturn
    obtain ⟨added, hadded, hrest⟩ := ih ((slots_of_turn hturn).trans hslots) (hfamily ▸ halone.2)
    refine ⟨first :: added, .cons hfirst (hfamily ▸ hadded), ?_⟩
    rw [hrest, hlines, List.flatten_cons, List.append_assoc]

/-! ## With a line for the text -/

/-- The chain keeps the line at a place for its text, and the text of the root with it. -/
structure KeepsText (own : String) (place : Nat) (b : Block) : Prop where
  slot : b.slot? textSlot = some ⟨textSlot, place, .str own⟩
  bound : place < b.lines.length

/-- The lines that a child adds when the text has a line of its own. -/
def addedLines (family : String) (child : Node) : List String :=
  if Registry.builtin.joins family child && child.type != "text" then plainLines child else []

/-- What a text writes when the text of the root is kept: its own text unless that is blank. -/
theorem labelText_some (own kept : String) :
    labelText own (some (.str kept)) = some (if Text.isBlank own then kept else own) := by
  unfold labelText
  cases Text.isBlank own <;> rfl

variable {own : String} {place : Nat}

/-- A child that is no text, under a root that keeps a line for its text or not. -/
theorem lines_of_turn_other (h : Turn w child w') (ht : child.type ≠ "text") :
    w'.block.lines = w.block.lines ++ addedLines w.block.family child := by
  cases h with
  | refused hj => simp [addedLines, hj]
  | plain hj ht => simp [addedLines, hj, ht]
  | blank hj htext hnone => exact absurd htext ht
  | text hj htext text hsome => exact absurd htext ht

/-- A text under a root that keeps a line for its text. -/
theorem turn_text (h : Turn w child w') (hk : KeepsText own place w.block)
    (hj : Registry.builtin.joins w.block.family child = true) (ht : child.type = "text") :
    let text := if Text.isBlank (ownText child) then own else ownText child
    w'.block.lines = w.block.lines.set place
        (textCall text (styleName? (.of child.config) w.pass)).line ∧
      w'.pass = declareStyleIn (.of child.config) w.pass := by
  intro text
  have hlabel : labelText (ownText child) ((w.block.slot? textSlot).map (·.value)) = some text := by
    rw [hk.slot]
    exact labelText_some _ _
  cases h with
  | refused hno => rw [hj] at hno; cases hno
  | plain hj hno => exact absurd ht hno
  | blank hj ht hnone => rw [hlabel] at hnone; cases hnone
  | text hj ht other hsome =>
    rw [hlabel] at hsome
    cases hsome
    rw [putText, Block.hasSlot, hk.slot, Option.isSome_some, if_pos rfl, Block.lines_fill, hk.slot]
    dsimp only
    exact ⟨rfl, rfl⟩

/-- Whatever a child does, it adds its lines at the end, and of the others it writes at most the
line for the text. -/
theorem lines_of_turn (h : Turn w child w') (hk : KeepsText own place w.block) :
    ∃ line, w'.block.lines = w.block.lines.set place line ++ addedLines w.block.family child := by
  by_cases ht : child.type = "text"
  · have hadd : addedLines w.block.family child = [] := by simp [addedLines, ht]
    cases hj : Registry.builtin.joins w.block.family child with
    | true => exact ⟨_, by rw [hadd, List.append_nil]; exact (turn_text h hk hj ht).1⟩
    | false =>
      cases h with
      | refused hno => exact ⟨w.block.lines.get ⟨place, hk.bound⟩, by simp [hadd]⟩
      | _ => simp_all
  · exact ⟨w.block.lines.get ⟨place, hk.bound⟩, by simp [lines_of_turn_other h ht]⟩

theorem keeps_of_turn (h : Turn w child w') (hk : KeepsText own place w.block) :
    KeepsText own place w'.block := by
  obtain ⟨line, hlines⟩ := lines_of_turn h hk
  refine ⟨?_, ?_⟩
  · rw [Block.slot?, slots_of_turn h]
    exact hk.slot
  · rw [hlines, List.length_append, List.length_set]
    exact Nat.lt_add_right _ hk.bound

/-- Of two lines that are written in one place the later one stays. -/
theorem set_append_set {lines : List String} (hp : place < lines.length) (a b : String)
    (rest : List String) : (lines.set place a ++ rest).set place b = lines.set place b ++ rest := by
  rw [List.set_append_left _ _ (by rwa [List.length_set]), List.set_set]

/-- The lines of a chain that keeps a line for its text. -/
theorem lines_kept (children : List Node) (hk : KeepsText own place w.block) :
    ∃ line, (Registry.builtin.chain children w).block.lines =
      w.block.lines.set place line ++ children.flatMap (addedLines w.block.family) := by
  induction children generalizing w with
  | nil => exact ⟨w.block.lines.get ⟨place, hk.bound⟩, by simp [Registry.chain]⟩
  | cons child rest ih =>
    have hturn := turn w child
    rw [Registry.chain_cons]
    generalize (if Registry.builtin.joins w.block.family child then Registry.builtin.join w child
      else w) = w' at hturn
    obtain ⟨first, hfirst⟩ := lines_of_turn hturn hk
    obtain ⟨line, hrest⟩ := ih (keeps_of_turn hturn hk)
    refine ⟨line, ?_⟩
    rw [hrest, hfirst, family_of_turn hturn, set_append_set hk.bound, List.flatMap_cons,
      List.append_assoc]

/-- What a child adds under a scrolling text. -/
theorem adds_kept {family : String} (hroot : root.type = "scrollingText")
    (halone : Registry.builtin.joins family child = true → child.type ≠ "text" →
      Registry.builtin.addedAlone root child = plainLines child) :
    Adds root family child (addedLines family child) := by
  cases hj : Registry.builtin.joins family child with
  | false =>
    have hadd : addedLines family child = [] := by simp [addedLines, hj]
    exact hadd ▸ .refused hj
  | true =>
    by_cases ht : child.type = "text"
    · have hadd : addedLines family child = [] := by simp [addedLines, ht]
      exact hadd ▸ .patch hj ht hroot
    · have hadd : addedLines family child = Registry.builtin.addedAlone root child := by
        simp [addedLines, hj, ht, halone hj ht]
      exact hadd ▸ .plain hj ht

/-- A scrolling text opens a chain that keeps a line for its text. -/
theorem keeps_scrollingText (c : Config) (b : Block) (hslots : b.slots = []) :
    ∃ place, KeepsText (c.text "text") place (scrollingTextBlock c b) ∧
      (scrollingTextBlock c b).lines[place]? = some (textCall (c.text "text") none).line := by
  have hlines := lines_scrollingTextBlock c b
  refine ⟨(scrollingTextFront c b).length, ⟨?_, ?_⟩, ?_⟩
  · rw [Block.slot?, slots_scrollingTextBlock c b hslots]
    rfl
  · rw [hlines]
    simp
  · rw [hlines]
    simp

/-! ## Main theorem -/

/-- The root of a chain is none of the children that join it. -/
theorem id_ne_of_joins {g : Graph} (hn : (g.nodes.map (·.id)).Nodup) (hm : root ∈ g.nodes)
    (hw : Registry.builtin.openedAt? g root = some w) (hc : child ∈ g.childrenOf root.id)
    (hj : Registry.builtin.joins w.block.family child = true) : child.id ≠ root.id := by
  intro hid
  obtain ⟨id, -, hfind⟩ := List.mem_filterMap.1 hc
  obtain rfl : child = root :=
    List.inj_on_of_nodup_map hn (List.mem_of_find?_eq_some hfind) hm hid
  obtain ⟨family, c, hroot⟩ := Registry.root_of_openedAt? hw
  obtain ⟨families, compile, hchild, -⟩ := child_of_joins hj
  rw [hroot] at hchild
  cases hchild

/-- Among its siblings a child adds what it adds alone. -/
theorem addedAlone_eq {g : Graph} (hn : (g.nodes.map (·.id)).Nodup) (hm : root ∈ g.nodes)
    (hw : Registry.builtin.openedAt? g root = some w) :
    ∀ child ∈ g.childrenOf root.id, Registry.builtin.joins w.block.family child = true →
      child.type ≠ "text" → Registry.builtin.addedAlone root child = plainLines child :=
  fun _ hc hj ht => addedAlone_plain hw hj ht (id_ne_of_joins hn hm hw hc hj)

/-- The lines that a child adds when it is no text are those that it adds alone, whatever its
siblings are and whatever else is in the graph. So the lines of a block are those of the root and
those that each child adds, in order; the lines of the root keep their number, and stay as they are
when the root is no scrolling text. -/
theorem siblings_independent {g : Graph} (hn : (g.nodes.map (·.id)).Nodup) (style : ScriptStyle)
    (hm : root ∈ g.nodes) {b : Block}
    (hb : (Registry.builtin.compile style g).entryFor root.id = some (.block b)) :
    ∃ w, Registry.builtin.openedAt? g root = some w ∧
      b.lines = (Registry.builtin.afterTurns w (g.childrenOf root.id)).1.lines ∧
      (∀ front child behind, g.childrenOf root.id = front ++ child :: behind →
        Registry.builtin.joins b.family child = true → child.type ≠ "text" →
        (Registry.builtin.afterTurns w (front ++ [child])).1.lines =
          (Registry.builtin.afterTurns w front).1.lines ++
            Registry.builtin.addedAlone root child) ∧
      ∃ own added, b.lines = own ++ added.flatten ∧
        own.length = (Registry.builtin.linesAlone root []).length ∧
        (root.type ≠ "scrollingText" → own = Registry.builtin.linesAlone root []) ∧
        List.Forall₂ (Adds root b.family) (g.childrenOf root.id) added := by
  obtain ⟨w, hw⟩ := Registry.opened_of_entryFor quiet_builtin hn hm hb
  obtain rfl : { (Registry.builtin.chain (g.childrenOf root.id) w).block with
      declarations := (Registry.builtin.chain (g.childrenOf root.id) w).pass.pending } = b := by
    rw [Registry.entryFor_root quiet_builtin hn style hm hw] at hb
    exact Entry.block.inj (Option.some.inj hb)
  have hfamily : (Registry.builtin.chain (g.childrenOf root.id) w).block.family = w.block.family :=
    Registry.family_of_chain _ w
  have halone := addedAlone_eq hn hm hw
  refine ⟨w, hw, ?_, ?_, ?_⟩
  · rw [(Registry.afterTurns_spec quiet_builtin w _).1]
  · intro front child behind hsplit hj ht
    rw [hfamily] at hj
    rw [(Registry.afterTurns_spec quiet_builtin w _).1,
      (Registry.afterTurns_spec quiet_builtin w _).1, Registry.chain_append, Registry.chain_one,
      Registry.family_of_chain, if_pos hj, join_plain hj ht,
      halone child (by rw [hsplit]; simp) hj ht]
    rfl
  · dsimp only
    rw [hfamily, linesAlone_opened hw]
    rcases opened?_cases hw with ⟨hroot, rfl⟩ | ⟨hroot, hslots, -⟩
    · obtain ⟨place, hk, -⟩ := keeps_scrollingText (.of root.config)
        { node := root.id, family := Family.scrollingText.key } rfl
      obtain ⟨line, hlines⟩ := lines_kept (w := ⟨_, _⟩) (g.childrenOf root.id) hk
      refine ⟨_, _, hlines.trans (congrArg _ (List.flatMap_def ..)), List.length_set,
        fun hno => absurd hroot hno, ?_⟩
      rw [List.forall₂_map_right_iff, List.forall₂_same]
      exact fun child hc => adds_kept hroot (halone child hc)
    · obtain ⟨added, hadded, hlines⟩ := lines_unkept hroot hslots halone
      exact ⟨w.block.lines, added, hlines, rfl, fun _ => rfl, hadded⟩

/-- An effect that plays a file. -/
def fire : Node := { id := "fx", type := "effect", config := .object [("file", .str "fire")] }

/-- The effect with a text and one more child. -/
def fireGraph : Graph :=
  ({} : Graph).performAll [.add fire,
    .add { id := "t", type := "text", config := .object [("text", .str "Hi")], parent := "fx" },
    .add { id := "l", type := "locally", parent := "fx" }]

theorem siblings_independent_fire :
    let b : Block :=
      { node := "fx", family := "effect",
        lines := ["seq.effect()", "  .file(\"fire\")", "  .text(`Hi`)", "  .locally()"] }
    (fireGraph.nodes.map (·.id)).Nodup ∧ fire ∈ fireGraph.nodes ∧
      (Registry.builtin.compile {} fireGraph).entryFor fire.id = some (.block b) ∧
      ∃ added, b.lines = Registry.builtin.linesAlone fire [] ++ added.flatten ∧
        List.Forall₂ (Adds fire "effect") (fireGraph.childrenOf fire.id) added := by
  intro b
  have hn : (fireGraph.nodes.map (·.id)).Nodup := by decide
  have hm : fire ∈ fireGraph.nodes := List.mem_cons_self
  have hb : (Registry.builtin.compile {} fireGraph).entryFor fire.id = some (.block b) := rfl
  obtain ⟨w, -, -, -, own, added, hlines, -, hown, hadded⟩ := siblings_independent hn {} hm hb
  have hroot : fire.type ≠ "scrollingText" := by decide
  exact ⟨hn, hm, hb, added, hown hroot ▸ hlines, hadded⟩

end Catalog

end CueGraph
