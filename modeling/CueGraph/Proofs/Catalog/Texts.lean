import CueGraph.Catalog.Label
import CueGraph.Proofs.Script.Run

/-!
# Texts

What the two types do that are not plain. A scrolling text opens a chain and reserves the line with
its text (`run_scrollingText`). A text finds the slot for the text of a chain, or finds none; it
writes one line, and declares its style in front (`run_label`).
-/

namespace CueGraph

namespace Program

theorem quiet_pushAll (lines : List String) : (pushAll lines).Quiet := by
  induction lines with
  | nil => exact True.intro
  | cons line rest ih => exact ih

theorem quiet_emitAll (lines : List String) : (emitAll lines).Quiet := by
  induction lines with
  | nil => exact True.intro
  | cons line rest ih => exact ih

theorem Quiet.bind {α β : Type} {p : Program α} {f : α → Program β} (hp : p.Quiet)
    (hf : ∀ a, (f a).Quiet) : (p.bind f).Quiet := by
  induction p with
  | done result => exact hf result
  | push line next ih => exact ih hp
  | extend lines next ih => exact ih hp
  | reserve slot line value next ih => exact ih hp
  | fill slot line next ih => exact fun filled => ih filled (hp filled)
  | slotValue slot next ih => exact fun value => ih value (hp value)
  | declare stem expression next ih => exact fun name => ih name (hp name)
  | emit line next ih => exact ih hp
  | report diagnostic next => exact hp.elim

end Program

namespace Catalog

/-! ## The scrolling text -/

/-- What a scrolling text opens: the lines in front of its text, the text, and the lines behind. -/
def scrollingTextBlock (c : Config) (b : Block) : Block :=
  ((b.extend ("seq.scrollingText()" :: (atSelectedToken c).map Call.line)).reserve textSlot
    (textCall (c.text "text") none).line (.str (c.text "text"))).extend
      ((positiveCall "duration" "durationMs" c).map Call.line)

/-- The lines that a scrolling text opens in front of its text. -/
def scrollingTextFront (c : Config) (b : Block) : List String :=
  b.lines ++ "seq.scrollingText()" :: (atSelectedToken c).map Call.line

theorem lines_scrollingTextBlock (c : Config) (b : Block) :
    (scrollingTextBlock c b).lines =
      scrollingTextFront c b ++ (textCall (c.text "text") none).line ::
        (positiveCall "duration" "durationMs" c).map Call.line := by
  simp [scrollingTextBlock, scrollingTextFront]

theorem slots_scrollingTextBlock (c : Config) (b : Block) (hb : b.slots = []) :
    (scrollingTextBlock c b).slots =
      [⟨textSlot, (scrollingTextFront c b).length, .str (c.text "text")⟩] := by
  simp [scrollingTextBlock, scrollingTextFront, Block.extend, Block.reserve, hb, Block.putSlot]

theorem run_scrollingText (c : Config) (w : Workspace) :
    (scrollingTextProgram c).run w = ((), ⟨scrollingTextBlock c w.block, w.pass⟩) := by
  simp only [scrollingTextProgram, bind, Program.bind, Program.run_bind, Program.run_pushAll,
    Program.run]
  rfl

theorem quiet_scrollingText (c : Config) : (scrollingTextProgram c).Quiet :=
  (Program.quiet_pushAll _).bind fun _ => Program.quiet_pushAll _

/-! ## The style of a text -/

-- whether a style is empty is not to be found out by computing it
attribute [local irreducible] styleSettings

/-- The style of a text as it is declared. -/
def styleLiteral (c : Config) : String := objectLiteral ((styleSettings c).map Setting.render)

/-- The name under which a text declares its style, if it has one. -/
@[irreducible] def styleName? (c : Config) (p : Pass) : Option String :=
  if (styleSettings c).isEmpty then none else some (p.nextName "textStyle")

/-- The pass after a text has declared its style, if it has one. -/
@[irreducible] def declareStyleIn (c : Config) (p : Pass) : Pass :=
  if (styleSettings c).isEmpty then p else p.declare "textStyle" (styleLiteral c)

theorem run_declareStyle (c : Config) (w : Workspace) :
    (declareStyle c).run w = (styleName? c w.pass, { w with pass := declareStyleIn c w.pass }) := by
  unfold declareStyle styleName? declareStyleIn
  dsimp only
  by_cases h : (styleSettings c).isEmpty = true
  · rw [if_pos h, if_pos h, if_pos h]
    rfl
  · rw [if_neg h, if_neg h, if_neg h]
    rfl

theorem quiet_declareStyle (c : Config) : (declareStyle c).Quiet := by
  have hcases : declareStyle c = if (styleSettings c).isEmpty then .done none
      else .declare "textStyle" (styleLiteral c) fun name => .done (some name) := rfl
  rw [hcases]
  cases (styleSettings c).isEmpty
  · exact fun _ => True.intro
  · exact True.intro

/-- A text finds one pass and leaves the other, and has declared its style under this name, unless
it has no style. -/
def Declares (node : Node) (p q : Pass) : Option String → Prop
  | none => styleSettings (.of node.config) = [] ∧ q.declarations = p.declarations
  | some name => styleSettings (.of node.config) ≠ [] ∧ name = p.nextName "textStyle" ∧
    q.declarations = p.declarations ++ [Pass.declaration name (styleLiteral (.of node.config))]

theorem declares_declareStyleIn (node : Node) (p : Pass) :
    Declares node p (declareStyleIn (.of node.config) p) (styleName? (.of node.config) p) := by
  unfold styleName? declareStyleIn
  cases h : (styleSettings (.of node.config)).isEmpty with
  | true => exact ⟨List.isEmpty_iff.1 h, rfl⟩
  | false =>
    refine ⟨fun hnil => ?_, rfl, rfl⟩
    rw [hnil] at h
    cases h

/-- What was reported does not count. -/
theorem Declares.alike {node : Node} {p p' q q' : Pass} {name : Option String}
    (h : Declares node p q name) (hp : p'.Alike p) (hq : q'.Alike q) :
    Declares node p' q' name := by
  cases name with
  | none => exact ⟨h.1, by rw [hq.declarations_eq, hp.declarations_eq, h.2]⟩
  | some name =>
    obtain ⟨hstyle, hname, hdecl⟩ := h
    exact ⟨hstyle, by rw [hname, hp.nextName_eq], by
      rw [hq.declarations_eq, hp.declarations_eq, hdecl]⟩

/-! ## The line of a text -/

/-- The line goes into the slot for the text, or behind the others when there is no slot. -/
def putText (b : Block) (line : String) : Block :=
  if b.hasSlot textSlot then b.fill textSlot line else b.push line

@[simp] theorem slots_putText (b : Block) (line : String) : (putText b line).slots = b.slots := by
  unfold putText Block.fill
  split
  · split <;> rfl
  · rfl

@[simp] theorem family_putText (b : Block) (line : String) :
    (putText b line).family = b.family := by
  unfold putText Block.fill
  split
  · split <;> rfl
  · rfl

theorem run_fillOrPush (line : String) (w : Workspace) :
    (Program.fillOrPush textSlot line).run w = ((), { w with block := putText w.block line }) := by
  rw [Program.fillOrPush, Program.run, putText]
  cases h : w.block.hasSlot textSlot with
  | true => rfl
  | false =>
    have hnone : w.block.slot? textSlot = none := by simpa [Block.hasSlot] using h
    have hfill : w.block.fill textSlot line = w.block := by rw [Block.fill, hnone]
    rw [hfill]
    rfl

/-- What a text leaves behind: nothing new when there is no text for it to write, and otherwise one
line with that text, under the name of its style. -/
theorem run_label (c : Config) (w : Workspace) :
    ((labelProgram c).run w).2 =
      match labelText (c.text "text") ((w.block.slot? textSlot).map (·.value)) with
      | none => w
      | some text =>
        ⟨putText w.block (textCall text (styleName? c w.pass)).line, declareStyleIn c w.pass⟩ := by
  simp only [labelProgram, bind, Program.slot?, Program.bind, Program.run]
  cases labelText (c.text "text") ((w.block.slot? textSlot).map (·.value)) with
  | none => rfl
  | some text =>
    dsimp only
    rw [Program.run_bind, run_declareStyle, run_fillOrPush]

theorem quiet_label (c : Config) : (labelProgram c).Quiet := by
  intro kept
  show Program.Quiet (match labelText (c.text "text") kept with
    | none => .done ()
    | some text => (declareStyle c).bind fun style =>
        .fillOrPush textSlot (textCall text style).line)
  cases labelText (c.text "text") kept with
  | none => exact True.intro
  | some text =>
    dsimp only
    refine (quiet_declareStyle c).bind fun style => ?_
    intro filled
    cases filled
    · exact True.intro
    · exact True.intro

end Catalog

end CueGraph
