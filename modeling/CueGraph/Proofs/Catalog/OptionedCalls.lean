import CueGraph.Proofs.Catalog.Options
import CueGraph.Proofs.Catalog.Texts
import CueGraph.Proofs.Catalog.Values

/-!
# Calls with options

The nodes of eleven types add a call that may end in an object of options (`optionedCalls`). The
options are those that are not neutral, and there is no object without them. A text declares its
style as an object of the same kind (`labelled`).

Main statement: `options_present`.
-/

namespace CueGraph

namespace Catalog

variable {c : Config} {rules : List OptionRule}

/-! ## Calls -/

/-- A call with options, as the nodes of a type write it. -/
structure OptionedCall where
  /-- The type of the nodes. -/
  type : String
  method : String
  /-- The arguments in front of the options, if there is a call. They may depend on whether there
  are options. -/
  args : Config → Bool → Option (List Arg)
  /-- The options in the order in which they are written. -/
  rules : List OptionRule

/-- The line of a call with these options: the object is written unless it would be empty. -/
def optionedLine (method : String) (args : List Arg) (options : List Setting) : String :=
  let object :=
    match options with
    | [] => []
    | options => [objectLiteral (options.map Setting.render)]
  "  ." ++ method ++ "(" ++ ", ".intercalate (args.map Arg.render ++ object) ++ ")"

/-- The lines that a node adds for the call. -/
def OptionedCall.lines (call : OptionedCall) (c : Config) : List String :=
  let options := written c call.rules
  match call.args c (!options.isEmpty) with
  | some args => [optionedLine call.method args options]
  | none => []

/-- What a text leaves behind: nothing new without a text to write, and otherwise its line. The
object of its style is declared, unless it would be empty, and then the line names it. -/
def labelled (c : Config) (rules : List OptionRule) (block : Block) (p : Progress) :
    Block × Progress :=
  match labelText (c.text "text") ((block.slot? textSlot).map (·.value)) with
  | none => (block, p)
  | some text =>
    match written c rules with
    | [] => (putText block (textCall text none).line, p)
    | style =>
      (putText block (textCall text (some (p.pass.nextName "textStyle"))).line,
        { p with pass := p.pass.declare "textStyle" (objectLiteral (style.map Setting.render)) })

/-- A call towards the target that the node selects. -/
def targetedCall (type : String) (modes : List TargetMode) (fallback : TargetMode)
    (rules : List OptionRule) : OptionedCall where
  type
  method := type
  args c _ :=
    (Target.resolve c (modes.map TargetMode.key) (some fallback.key) "mode").map fun t =>
      [.target t]
  rules

/-- The scale in front of the options, which is one where none is given. Without options, neither
none nor one is written. -/
def objectScaleArgs (c : Config) (optioned : Bool) : List Arg :=
  match (c.number? "scale").filter fun x => !x.isZero with
  | some x => if optioned ∨ ¬x.Same .one then [.numeral x] else []
  | none => if optioned then [.numeral .one] else []

/-- A call that is written under a condition. -/
def conditionalCall (type method : String) (condition : Config → Bool) (args : Config → List Arg)
    (rules : List OptionRule) : OptionedCall where
  type
  method
  args c _ := if condition c then some (args c) else none
  rules

/-- The size is a width alone, unless there is a height too. -/
def sizeArg (c : Config) : Arg :=
  if c.positive "height" then .pair "width" (c.number "width") "height" (c.number "height")
  else .numeral (c.number "width")

/-! Each of these lists has the order in which the options are written. -/

def atLocationRules : List OptionRule :=
  [.flag "cacheLocation", .number "randomOffset", .offset, .flag "local", .flag "gridUnits"]

def stretchToRules : List OptionRule :=
  [.flag "cacheLocation", .flag "attachTo", .flag "onlyX", .flag "tiling", .number "randomOffset",
    .flag "gridUnits"]

def attachToRules : List OptionRule :=
  [.place "align" "center", .place "edge" "on", .usuallyOn "bindVisibility", .usuallyOn "bindAlpha",
    .usuallyOn "followRotation", .number "randomOffset", .offset, .flag "gridUnits", .flag "local"]

def moveTowardsRules : List OptionRule := [.easing, .number "delay", .flag "relativeToCenter"]

def rotateTowardsRules : List OptionRule :=
  [.number "duration", .text "ease", .number "delay", .number "rotationOffset",
    .usuallyOn "towardsCenter", .flag "cacheLocation"]

def teleportToRules : List OptionRule := [.number "delay", .flag "relativeToCenter"]

def spriteOffsetRules : List OptionRule := [.flag "gridUnits", .flag "local"]

def scaleToObjectRules : List OptionRule := [.flag "uniform", .flag "considerTokenScale"]

def sizeRules : List OptionRule := [.flag "gridUnits"]

def crosshairLabelRules : List OptionRule := [.coordinate "dx" "dy", .coordinate "dy" "dx"]

def shakeRules : List OptionRule :=
  [.strength, .positive "duration", .positive "frequency", .positive "fadeInDuration",
    .positive "fadeOutDuration", .usuallyOn "rotation"]

def styleRules : List OptionRule :=
  [.text "fontFamily", .positive "fontSize", .text "fontWeight", .text "fill", .text "stroke",
    .positive "strokeThickness", .text "align", .flag "dropShadow", .flag "wordWrap",
    .positive "wordWrapWidth"]

/-- The call that scales an effect to its object, which is always written. -/
def scaleToObjectCall : OptionedCall where
  type := "scaleToObject"
  method := "scaleToObject"
  args c optioned := some (objectScaleArgs c optioned)
  rules := scaleToObjectRules

/-- The calls with options. -/
def optionedCalls : List OptionedCall :=
  [targetedCall "atLocation" locationModes .selectedToken atLocationRules,
    targetedCall "stretchTo" locationModes .selectedTarget stretchToRules,
    targetedCall "attachTo" entityModes .selectedToken attachToRules,
    targetedCall "moveTowards" placementModes .inToken moveTowardsRules,
    targetedCall "rotateTowards" placementModes .inToken rotateTowardsRules,
    targetedCall "teleportTo" placementModes .inToken teleportToRules,
    conditionalCall "spriteOffset" "spriteOffset" (fun c => c.nonzero "x" || c.nonzero "y")
      (fun c => [.point (c.number "x") (c.number "y")]) spriteOffsetRules,
    scaleToObjectCall,
    conditionalCall "size" "size" (·.positive "width") (fun c => [sizeArg c]) sizeRules,
    conditionalCall "crosshairLabel" "label" (·.hasText "text")
      (fun c => [.quoted (c.trimmed "text")]) crosshairLabelRules,
    conditionalCall "shake" "shake" (·.positive "strength") (fun _ => []) shakeRules]

/-! ## The types and their rules -/

theorem written_append (c : Config) (front behind : List OptionRule) :
    written c (front ++ behind) = written c front ++ written c behind := List.flatMap_append

theorem written_one (c : Config) (rule : OptionRule) : written c [rule] = rule.part c :=
  List.append_nil _

theorem trueSettings_eq (c : Config) (keys : List String) :
    trueSettings c keys = written c (keys.map .flag) := by
  rw [written, List.flatMap_map]
  rfl

theorem falseSettings_eq (c : Config) (keys : List String) :
    falseSettings c keys = written c (keys.map .usuallyOn) := by
  rw [written, List.flatMap_map]
  rfl

theorem positiveSettings_eq (c : Config) (keys : List String) :
    positiveSettings c keys = written c (keys.map .positive) := by
  rw [written, List.flatMap_map]
  rfl

theorem numeralSetting_eq (c : Config) (key : String) :
    numeralSetting c key = written c [.number key] := (written_one c (.number key)).symm

theorem textSetting_eq (c : Config) (key : String) : textSetting c key = written c [.text key] :=
  (written_one c (.text key)).symm

theorem placeSetting_eq (c : Config) (key usual : String) :
    placeSetting c key usual = written c [.place key usual] :=
  (written_one c (.place key usual)).symm

theorem offsetSetting_eq (c : Config) : offsetSetting c = written c [.offset] :=
  (written_one c .offset).symm

theorem easing_eq (c : Config) :
    (if Target.modeText c (some TargetMode.inToken.key) "mode" = some TargetMode.inToken.key then []
      else textSetting c "ease") = written c [.easing] := by
  rw [written_one, OptionRule.part, OptionRule.isWritten]
  split
  · rfl
  · rfl

theorem styleSettings_eq (c : Config) : styleSettings c = written c styleRules := by
  simp only [styleSettings, styleKeys, List.flatMap_cons, List.flatMap_nil, stylePart,
    textSetting_eq, trueSettings_eq, positiveSettings_eq, List.map_cons, List.map_nil,
    List.append_nil, ← written_append]
  rfl

theorem line_eq (method : String) (args : List Arg) (options : List Setting) :
    (Call.mk method args options).line = optionedLine method args options := by
  cases options with
  | nil => simp [Call.line, chainLine, optionedLine]
  | cons option rest => rfl

theorem lines_targetCall {type : String} {modes : List TargetMode} {fallback : TargetMode}
    {options : List Setting} (h : options = written c rules) :
    (targetCall c modes fallback type options).map Call.line =
      (targetedCall type modes fallback rules).lines c := by
  rw [targetCall, OptionedCall.lines, targetedCall, h]
  dsimp only
  cases Target.resolve c (modes.map TargetMode.key) (some fallback.key) "mode" with
  | none => rfl
  | some t => exact congrArg (fun line => [line]) (line_eq _ _ _)

theorem lines_conditionalCall {type method : String} {condition : Config → Bool}
    {args : Config → List Arg} {options : List Setting} {calls : List Call}
    (hcalls : calls = if condition c then [Call.mk method (args c) options] else [])
    (h : options = written c rules) :
    calls.map Call.line = (conditionalCall type method condition args rules).lines c := by
  rw [OptionedCall.lines, conditionalCall, hcalls, h]
  dsimp only
  cases condition c with
  | false => rfl
  | true => exact congrArg (fun line => [line]) (line_eq _ _ _)

/-- The call of a type of modifiers, when its options are written by the rules. -/
theorem behaviour_of_lines {call : OptionedCall} {label category : String}
    {families : List Family} {defaults : Fields} {calls : Config → List Call}
    (ht : Registry.builtin.get? call.type = some (modifier label category families defaults calls))
    (h : ∀ c, (calls c).map Call.line = call.lines c) :
    ∃ families, Registry.builtin.behaviour? call.type =
      some (.child families fun node => .pushAll (call.lines (.of node.config))) := by
  refine ⟨families.map Family.key, ?_⟩
  rw [Registry.behaviour?, ht, modifier]
  simp only [h, Option.map_some]

theorem atLocationSettings_eq (c : Config) : atLocationSettings c = written c atLocationRules := by
  simp only [atLocationSettings, trueSettings_eq, numeralSetting_eq, offsetSetting_eq,
    ← written_append]
  rfl

theorem stretchToSettings_eq (c : Config) : stretchToSettings c = written c stretchToRules := by
  simp only [stretchToSettings, trueSettings_eq, numeralSetting_eq, ← written_append]
  rfl

theorem attachToSettings_eq (c : Config) : attachToSettings c = written c attachToRules := by
  simp only [attachToSettings, placeSetting_eq, falseSettings_eq, trueSettings_eq,
    numeralSetting_eq, offsetSetting_eq, ← written_append]
  rfl

theorem moveTowardsSettings_eq (c : Config) :
    moveTowardsSettings c = written c moveTowardsRules := by
  simp only [moveTowardsSettings, easing_eq, trueSettings_eq, numeralSetting_eq, ← written_append]
  rfl

theorem rotateTowardsSettings_eq (c : Config) :
    rotateTowardsSettings c = written c rotateTowardsRules := by
  simp only [rotateTowardsSettings, textSetting_eq, falseSettings_eq, trueSettings_eq,
    numeralSetting_eq, ← written_append]
  rfl

theorem teleportToSettings_eq (c : Config) : teleportToSettings c = written c teleportToRules := by
  simp only [teleportToSettings, trueSettings_eq, numeralSetting_eq, ← written_append]
  rfl

theorem spriteOffsetSettings_eq (c : Config) :
    trueSettings c ["gridUnits", "local"] = written c spriteOffsetRules := trueSettings_eq c _

theorem sizeSettings_eq (c : Config) : trueSettings c ["gridUnits"] = written c sizeRules :=
  trueSettings_eq c _

theorem crosshairLabelSettings_eq (c : Config) :
    (if c.nonzero "dx" || c.nonzero "dy" then
      [⟨"dx", .numeral (c.number "dx")⟩, ⟨"dy", .numeral (c.number "dy")⟩]
    else []) = written c crosshairLabelRules := by
  have hsame : (c.nonzero "dy" || c.nonzero "dx") = (c.nonzero "dx" || c.nonzero "dy") :=
    Bool.or_comm _ _
  simp only [written, crosshairLabelRules, List.flatMap_cons, List.flatMap_nil, OptionRule.part,
    OptionRule.isWritten, hsame]
  cases c.nonzero "dx" || c.nonzero "dy" <;> rfl

theorem shakeSettings_eq (c : Config) :
    ⟨"strength", .numeral (c.number "strength")⟩ ::
        positiveSettings c ["duration", "frequency", "fadeInDuration", "fadeOutDuration"] ++
      settingIf (!c.flagOr "rotation" true) "rotation" (.flag false) = written c shakeRules := by
  have hrotation : settingIf (!c.flagOr "rotation" true) "rotation" (.flag false) =
      written c [.usuallyOn "rotation"] := (written_one c (.usuallyOn "rotation")).symm
  have hstrength : [⟨"strength", .numeral (c.number "strength")⟩] = written c [.strength] :=
    (written_one c .strength).symm
  rw [← List.singleton_append, hstrength, positiveSettings_eq, hrotation, ← written_append,
    ← written_append]
  rfl

theorem lines_scaleToObjectCall (c : Config) :
    (scaleToObjectCalls c).map Call.line = scaleToObjectCall.lines c := by
  have hoptions : trueSettings c ["uniform", "considerTokenScale"] = written c scaleToObjectRules :=
    trueSettings_eq c _
  simp only [scaleToObjectCalls, hoptions, OptionedCall.lines, scaleToObjectCall, List.map_cons,
    List.map_nil, line_eq]
  congr 2
  unfold objectScaleArgs
  cases c.number? "scale" with
  | none => cases (written c scaleToObjectRules).isEmpty <;> rfl
  | some x =>
    cases hzero : x.isZero with
    | true =>
      simp only [Option.filter_some, hzero]
      cases (written c scaleToObjectRules).isEmpty <;> rfl
    | false =>
      simp only [Option.filter_some, hzero]
      by_cases hone : x.Same .one
      · cases (written c scaleToObjectRules).isEmpty <;> simp [hone]
      · cases (written c scaleToObjectRules).isEmpty <;> simp [hone]

theorem behaviour_optioned {call : OptionedCall} (h : call ∈ optionedCalls) :
    ∃ families, Registry.builtin.behaviour? call.type =
      some (.child families fun node => .pushAll (call.lines (.of node.config))) := by
  simp only [optionedCalls, List.mem_cons, List.not_mem_nil, or_false] at h
  rcases h with rfl | rfl | rfl | rfl | rfl | rfl | rfl | rfl | rfl | rfl | rfl
  · exact behaviour_of_lines rfl fun c => lines_targetCall (atLocationSettings_eq c)
  · exact behaviour_of_lines rfl fun c => lines_targetCall (stretchToSettings_eq c)
  · exact behaviour_of_lines rfl fun c => lines_targetCall (attachToSettings_eq c)
  · exact behaviour_of_lines rfl fun c => lines_targetCall (moveTowardsSettings_eq c)
  · exact behaviour_of_lines rfl fun c => lines_targetCall (rotateTowardsSettings_eq c)
  · exact behaviour_of_lines rfl fun c => lines_targetCall (teleportToSettings_eq c)
  · exact behaviour_of_lines rfl fun c => lines_conditionalCall rfl (spriteOffsetSettings_eq c)
  · exact behaviour_of_lines rfl lines_scaleToObjectCall
  · exact behaviour_of_lines rfl fun c => lines_conditionalCall rfl (sizeSettings_eq c)
  · exact behaviour_of_lines rfl fun c => lines_conditionalCall rfl (crosshairLabelSettings_eq c)
  · exact behaviour_of_lines rfl fun c => lines_conditionalCall rfl (shakeSettings_eq c)

theorem addChild_label {child : Node} {block : Block} (ht : child.type = "text") (p : Progress)
    (hj : Registry.builtin.joins block.family child = true) :
    Registry.builtin.addChild block p child =
      labelled (.of child.config) styleRules block p := by
  have hb : Registry.builtin.behaviour? child.type = some (.child
      ([Family.scrollingText, .effect].map Family.key) fun node =>
        labelProgram (.of node.config)) := by
    rw [ht]
    rfl
  rw [Registry.joins, hb] at hj
  rw [Registry.addChild_eq, hb]
  dsimp only
  rw [if_pos hj, run_label, labelled]
  generalize Config.of child.config = c
  dsimp only
  cases labelText (c.text "text") ((block.slot? textSlot).map (·.value)) with
  | none => rfl
  | some text =>
    unfold styleName? declareStyleIn styleLiteral
    rw [styleSettings_eq]
    cases written c styleRules with
    | nil => rfl
    | cons option rest => rfl

/-! ## Main theorem -/

theorem nodup_optioned : ∀ call ∈ optionedCalls, (call.rules.map (·.key)).Nodup := by
  decide +kernel

theorem nodup_style : (styleRules.map (·.key)).Nodup := by decide +kernel

/-- A child adds its call with the options that are not neutral, in an object unless there is none;
a text declares its style in the same way. The options are in order and with names of their own, and
whether one is there is a matter of its own rule. -/
theorem options_present {child : Node} (block : Block) (p : Progress)
    (hj : Registry.builtin.joins block.family child = true) :
    let c := Config.of child.config
    (∀ call ∈ optionedCalls, child.type = call.type →
      Registry.builtin.addChild block p child = (block.extend (call.lines c), p) ∧
        Presents c call.rules) ∧
    (child.type = "text" →
      Registry.builtin.addChild block p child = labelled c styleRules block p ∧
        Presents c styleRules) := by
  intro c
  constructor
  · intro call hcall ht
    obtain ⟨families, hb⟩ := behaviour_optioned hcall
    rw [← ht] at hb
    exact ⟨Registry.addChild_pushAll p hb hj rfl, presents c (nodup_optioned call hcall)⟩
  · intro ht
    exact ⟨addChild_label ht p hj, presents c nodup_style⟩

/-- A node that attaches an effect, with an alignment that is the usual one, and three options that
are not. -/
def attachNode : Node :=
  { id := "a", type := "attachTo", config := .object [("offsetY", .str "3"),
    ("align", .str " center "), ("edge", .str "outer"), ("bindAlpha", .bool false)] }

theorem options_present_attach :
    Registry.builtin.joins effectBlock.family attachNode = true ∧
      (Registry.builtin.addChild effectBlock {} attachNode).1.lines =
        ["  .attachTo(canvas.tokens.controlled[0], \x7b edge: \"outer\", bindAlpha: false, " ++
          "offset: \x7b x: 0, y: 3 \x7d \x7d)"] := by
  have hj : Registry.builtin.joins effectBlock.family attachNode = true := by rfl
  have hcall : targetedCall "attachTo" entityModes .selectedToken attachToRules ∈ optionedCalls :=
    .tail _ (.tail _ (.head _))
  refine ⟨hj, ?_⟩
  rw [((options_present effectBlock {} hj).1 _ hcall rfl).1]
  decide +kernel

end Catalog

end CueGraph
