import CueGraph.Proofs.Catalog.Independent

/-!
# The text of a scrolling text

A scrolling text keeps one line for its text. Every text under it writes this line anew and adds
none, so the line shows what the last of them wrote, and the lines behind those of the root are
those of the other children (`lines_last`).

Main statement: `scrollingText_patched`.
-/

namespace CueGraph

namespace Catalog

variable {root child : Node} {w w' : Workspace} {own : String} {place : Nat}

theorem keeps_chain (children : List Node) (hk : KeepsText own place w.block) :
    KeepsText own place (Registry.builtin.chain children w).block := by
  induction children generalizing w with
  | nil => exact hk
  | cons child rest ih =>
    rw [Registry.chain_cons]
    exact ih (keeps_of_turn (turn w child) hk)

/-- Children none of which is a text add their lines, each behind those before it. -/
theorem lines_others {children : List Node} (hno : ∀ child ∈ children, child.type ≠ "text") :
    (Registry.builtin.chain children w).block.lines =
      w.block.lines ++ children.flatMap (addedLines w.block.family) := by
  induction children generalizing w with
  | nil => exact (List.append_nil _).symm
  | cons child rest ih =>
    rw [List.forall_mem_cons] at hno
    have hturn := turn w child
    rw [Registry.chain_cons, ih hno.2, lines_of_turn_other hturn hno.1, family_of_turn hturn,
      List.flatMap_cons, List.append_assoc]

/-- The turn of a text under a scrolling text. -/
theorem chain_text (hk : KeepsText own place w.block)
    (hfamily : w.block.family = Family.scrollingText.key) (ht : child.type = "text") :
    let text := if Text.isBlank (ownText child) then own else ownText child
    (Registry.builtin.chain [child] w).block.lines = w.block.lines.set place
        (textCall text (styleName? (.of child.config) w.pass)).line ∧
      (Registry.builtin.chain [child] w).pass = declareStyleIn (.of child.config) w.pass := by
  have hj : Registry.builtin.joins w.block.family child = true := hfamily ▸ joins_text ht
  rw [Registry.chain_one]
  exact turn_text (turn w child) hk hj ht

/-- The line for the text is what the last text wrote. -/
theorem lines_last (front : List Node) {behind : List Node} (hk : KeepsText own place w.block)
    (hfamily : w.block.family = Family.scrollingText.key) (ht : child.type = "text")
    (hlast : ∀ later ∈ behind, later.type ≠ "text") :
    let text := if Text.isBlank (ownText child) then own else ownText child
    let style := styleName? (.of child.config) (Registry.builtin.chain front w).pass
    (Registry.builtin.chain (front ++ child :: behind) w).block.lines =
      w.block.lines.set place (textCall text style).line ++
        (front ++ child :: behind).flatMap (addedLines w.block.family) := by
  intro text style
  obtain ⟨line, hfront⟩ := lines_kept front hk
  have hmet := Registry.family_of_chain (r := Registry.builtin) front w
  have hleft := Registry.family_of_chain (r := Registry.builtin) [child]
    (Registry.builtin.chain front w)
  have hchild := (chain_text (keeps_chain front hk) (hmet.trans hfamily) ht).1
  have hnone : addedLines w.block.family child = [] := by simp [addedLines, ht]
  rw [List.append_cons, Registry.chain_append, Registry.chain_append, lines_others hlast, hchild,
    hfront, hleft, hmet, set_append_set hk.bound, List.flatMap_append, List.flatMap_append,
    List.flatMap_singleton, hnone, List.append_nil, List.append_assoc]

/-- The lines that the children add, those left out that add none. -/
theorem flatMap_addedLines {children : List Node} {family : String}
    (halone : ∀ child ∈ children, Registry.builtin.joins family child = true →
      child.type ≠ "text" → Registry.builtin.addedAlone root child = plainLines child) :
    children.flatMap (addedLines family) =
      (children.filter fun child => Registry.builtin.joins family child &&
        child.type != "text").flatMap (Registry.builtin.addedAlone root) := by
  rw [Graph.flatMap_filter]
  refine List.flatMap_congr fun child hc => ?_
  rw [addedLines]
  split
  · next hjoins =>
    rw [Bool.and_eq_true, bne_iff_ne] at hjoins
    exact (halone child hc hjoins.1 hjoins.2).symm
  · rfl

/-- What is written in one place can be read there. -/
theorem line_of_set {lines other rest : List String} {line : String} (hp : place < lines.length)
    (h : lines.set place line ++ rest = other ++ rest) : other[place]? = some line := by
  rw [← List.append_cancel_right h, List.getElem?_set_self hp]

/-! ## Main theorem -/

theorem opened?_scrollingText (ht : root.type = "scrollingText") (pass : Pass) :
    Registry.builtin.opened? pass root =
      some ⟨scrollingTextBlock (.of root.config)
        { node := root.id, family := Family.scrollingText.key }, pass⟩ := by
  have hb : Registry.builtin.behaviour? root.type = some scrollingText.behaviour := by rw [ht]; rfl
  have hrun := run_scrollingText (.of root.config)
    ⟨{ node := root.id, family := Family.scrollingText.key }, pass⟩
  unfold Registry.opened?
  rw [hb]
  simp only [scrollingText, hrun]
  rfl

/-- A scrolling text has a block whatever its options are. Of its own lines one is reserved, which
holds its text at first; the others stay as they are, and behind them come the lines of the children
that are no texts. A text adds no line. Without texts the reserved line stays as well; otherwise it
shows the text of the last of them, or the one of the root when that is blank, in the style that
this last text has declared, if it has one. -/
theorem scrollingText_patched {g : Graph} (hn : (g.nodes.map (·.id)).Nodup) (style : ScriptStyle)
    (hm : root ∈ g.nodes) (ht : root.type = "scrollingText") :
    ∃ w b place line, Registry.builtin.openedAt? g root = some w ∧
      (Registry.builtin.compile style g).entryFor root.id = some (.block b) ∧
      w.block.slot? textSlot = some ⟨textSlot, place, .str (ownText root)⟩ ∧
      (Registry.builtin.linesAlone root [])[place]? = some (textCall (ownText root) none).line ∧
      b.lines = (Registry.builtin.linesAlone root []).set place line ++
        ((g.childrenOf root.id).filter fun child =>
          Registry.builtin.joins b.family child && child.type != "text").flatMap
            (Registry.builtin.addedAlone root) ∧
      ((∀ child ∈ g.childrenOf root.id, child.type ≠ "text") →
        line = (textCall (ownText root) none).line) ∧
      ∀ front child behind, g.childrenOf root.id = front ++ child :: behind →
        child.type = "text" →
        let met := Registry.builtin.afterTurns w front
        let left := Registry.builtin.afterTurns w (front ++ [child])
        left.1.lines.length = met.1.lines.length ∧
        ((∀ later ∈ behind, later.type ≠ "text") →
          ∃ name, line = (textCall (if Text.isBlank (ownText child) then ownText root
              else ownText child) name).line ∧
            Declares child met.2.pass left.2.pass name) := by
  let base : Block := scrollingTextBlock (.of root.config)
    { node := root.id, family := Family.scrollingText.key }
  let w : Workspace := ⟨base, Registry.builtin.passAt g root⟩
  have hw : Registry.builtin.openedAt? g root = some w := opened?_scrollingText ht _
  obtain ⟨place, hk, hown⟩ := keeps_scrollingText (.of root.config)
    { node := root.id, family := Family.scrollingText.key } rfl
  obtain ⟨line, hlines⟩ := lines_kept (w := w) (g.childrenOf root.id) hk
  have hfamily : (Registry.builtin.chain (g.childrenOf root.id) w).block.family = w.block.family :=
    Registry.family_of_chain _ w
  refine ⟨w, _, place, line, hw, Registry.entryFor_root quiet_builtin hn style hm hw, hk.slot, ?_,
    ?_, ?_, ?_⟩
  · rw [linesAlone_opened hw]
    exact hown
  · dsimp only
    rw [hfamily, linesAlone_opened hw, ← flatMap_addedLines (addedAlone_eq hn hm hw)]
    exact hlines
  · intro hno
    have hsame := line_of_set hk.bound (hlines.symm.trans (lines_others hno))
    exact Option.some.inj (hsame.symm.trans hown)
  · intro front child behind hsplit htext met left
    obtain ⟨hmet, hmetPass⟩ := Registry.afterTurns_spec quiet_builtin w front
    obtain ⟨hleft, hleftPass⟩ := Registry.afterTurns_spec quiet_builtin w (front ++ [child])
    obtain ⟨hchild, hpass⟩ := chain_text (keeps_chain front hk)
      (Registry.family_of_chain (r := Registry.builtin) front w) htext
    rw [← Registry.chain_append] at hchild hpass
    refine ⟨?_, fun hlast => ?_⟩
    · dsimp only [met, left]
      rw [hmet, hleft, hchild, List.length_set]
    · have hend := lines_last (w := w) front hk rfl htext hlast
      rw [hsplit] at hlines
      dsimp only at hend
      have hsame := line_of_set hk.bound (hlines.symm.trans hend)
      rw [List.getElem?_set_self hk.bound] at hsame
      refine ⟨styleName? (.of child.config) (Registry.builtin.chain front w).pass,
        (Option.some.inj hsame).symm, ?_⟩
      exact (declares_declareStyleIn child _).alike hmetPass (hpass ▸ hleftPass)

/-- A scrolling text. -/
def crawl : Node :=
  { id := "s", type := "scrollingText", config := .object [("text", .str "Once")] }

/-- A text without a text of its own. -/
def redText : Node :=
  { id := "b", type := "text", config := .object [("fill", .str "red")], parent := "s" }

/-- The scrolling text with a text, another child, and one more text that is blank. -/
def crawlGraph : Graph :=
  ({} : Graph).performAll [.add crawl,
    .add { id := "a", type := "text", config := .object [("text", .str "Twice")], parent := "s" },
    .add { id := "d", type := "duration", config := .object [("duration", .int 500)],
           parent := "s" },
    .add redText]

theorem scrollingText_patched_crawl :
    (crawlGraph.nodes.map (·.id)).Nodup ∧ crawl ∈ crawlGraph.nodes ∧
      crawl.type = "scrollingText" ∧
      ∃ b place name, (Registry.builtin.compile {} crawlGraph).entryFor crawl.id = some (.block b) ∧
        b.lines = (Registry.builtin.linesAlone crawl []).set place (textCall "Once" name).line ++
          ((crawlGraph.childrenOf crawl.id).filter fun child =>
            Registry.builtin.joins b.family child && child.type != "text").flatMap
              (Registry.builtin.addedAlone crawl) := by
  have hn : (crawlGraph.nodes.map (·.id)).Nodup := by decide
  have hm : crawl ∈ crawlGraph.nodes := List.mem_cons_self
  obtain ⟨w, b, place, line, -, hb, -, -, hlines, -, hlast⟩ := scrollingText_patched hn {} hm rfl
  obtain ⟨-, hline⟩ := hlast ((crawlGraph.childrenOf crawl.id).take 2) redText [] rfl rfl
  obtain ⟨name, hline, -⟩ := hline (List.forall_mem_nil _)
  have hblank : Text.isBlank (ownText redText) = true := rfl
  rw [hblank, if_pos rfl, show ownText crawl = "Once" from rfl] at hline
  exact ⟨hn, hm, rfl, b, place, name, hb, hline ▸ hlines⟩

end Catalog

end CueGraph
