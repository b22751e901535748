import CueGraph.Catalog.Builtin
import CueGraph.Proofs.Catalog.Shapes
import CueGraph.Proofs.Catalog.Texts

/-!
# The built-in node types are tidy

Whatever the options of a node hold, the lines that it adds to a script are tidy, and those of a
child are call lines. Four types are left out: `callback` and `override` take code from the user,
and `text` and `scrollingText` write their text as a template literal. What a text declares for its
style is tidy too.

Main statement: `builtin_lines_tidy`. It rests on one theorem for each type that is not plain.
-/

namespace CueGraph.Catalog

open Scan

variable {c : Config} {key method : String}

/-! ## Sections -/

theorem tidy_lines {opening : String} {calls : List Call} (ho : Tidy opening)
    (h : SafeCalls calls) : ∀ line ∈ opening :: calls.map Call.line, Tidy line :=
  List.forall_mem_cons.2 ⟨ho, fun line hl => (h.lines line hl).tidy⟩

theorem tidy_effect : effect.Tidy := by
  refine tidy_opener fun c => ?_
  unfold effectLines
  split
  · refine tidy_lines (.ofList rfl) (.append ?_ ?_)
    · exact safe_textOption (.ofList rfl)
    · exact safe_trimmedOption (.ofList rfl)
  · exact List.forall_mem_nil _

theorem tidy_sound : sound.Tidy := by
  refine tidy_opener fun c => ?_
  unfold soundLines
  split
  · refine tidy_lines (.ofList rfl) (.append (.append (safe_trimmedOption (.ofList rfl)) ?_) ?_)
    · exact .ite (.unary (.ofList rfl) (Arg.safe_flag _) .nil) .nil
    · exact .ite (.bare (.ofList rfl) .nil) .nil
  · exact List.forall_mem_nil _

theorem tidy_animation : animation.Tidy :=
  tidy_opener fun _ => tidy_lines (.ofList rfl) (safe_textOption (.ofList rfl))

theorem safe_panScale : SafeCalls (panScale c) := by
  unfold panScale
  split
  · exact .ite .nil (.unary (.ofList rfl) trivial .nil)
  · exact .nil

theorem tidy_canvasPan : canvasPan.Tidy := by
  refine tidy_opener fun c => tidy_lines (.ofList rfl) ?_
  refine .append (.append (.append safe_atSelectedToken ?_) safe_panScale) ?_
  · exact safe_positiveCall (.ofList rfl)
  · exact safe_positiveCall (.ofList rfl)

/-- A call outside a chain, with a string literal. -/
theorem tidy_call_quote {opening closing : String} (s : String) (ho : Opens opening [')'])
    (hc : Closes [')'] closing) : Tidy (opening ++ Text.quote s ++ closing) :=
  .enclose ho (tidy_quote s) hc

theorem tidy_crosshair : crosshair.Tidy := by
  refine tidy_opener fun c => tidy_lines ?_ (safe_trimmedOption (.ofList rfl))
  exact tidy_call_quote _ (.ofList rfl rfl) (.ofList rfl rfl)

/-! ## Flow -/

theorem tidy_start : start.Tidy := tidy_statements fun _ => List.forall_mem_nil _

theorem tidy_play : play.Tidy := tidy_statements fun _ => List.forall_mem_nil _

theorem tidy_wait : wait.Tidy := by
  refine tidy_statements fun c => ?_
  have hopen : Opens "seq.wait(" [')'] := .ofList rfl rfl
  have hclose : Closes [')'] ");" := .ofList rfl rfl
  unfold waitLines
  dsimp only
  split
  · exact List.forall_mem_nil _
  · split
    · have hrange := (tidy_numeral (c.number "ms")).join separates_comma
        (tidy_numeral (c.number "msMax"))
      have htidy := Tidy.enclose hopen hrange hclose
      rw [← String.append_assoc, ← String.append_assoc] at htidy
      exact List.forall_mem_singleton.2 htidy
    · exact List.forall_mem_singleton.2 (.enclose hopen (tidy_numeral _) hclose)

theorem tidy_macroCall : macroCall.Tidy := by
  refine tidy_statements fun c => List.forall_mem_singleton.2 ?_
  exact tidy_call_quote _ (.ofList rfl rfl) (.ofList rfl rfl)

theorem tidy_waitUntilFinished : waitUntilFinished.Tidy := by
  refine tidy_modifier fun c => .one (.ofList rfl) ?_ .nil
  split
  · exact List.forall_mem_singleton.2 trivial
  · exact List.forall_mem_nil _

theorem tidy_repeats : repeats.Tidy := by
  refine tidy_modifier fun c => ?_
  unfold repeatsCalls
  refine .ite .nil (.one (.ofList rfl) ?_ .nil)
  exact List.forall_mem_map.2 fun _ _ => trivial

theorem tidy_playIf : playIf.Tidy := by
  refine tidy_modifier fun c => .ite (.unary (.ofList rfl) (Arg.safe_flag _) .nil) (.ite ?_ .nil)
  split
  · exact .ite (.unary (.ofList rfl) trivial .nil) .nil
  · exact .nil

theorem tidy_delay : delay.Tidy := by
  refine tidy_modifier fun c => .unary (.ofList rfl) ?_ .nil
  split
  · trivial
  · trivial

/-! ## Time, sound and names -/

theorem safe_fadeCall (hm : IsName method) : SafeCalls (fadeCall method key c) :=
  .ite (.unary hm trivial (safe_transition _ _)) .nil

theorem tidy_fade : fade.Tidy :=
  tidy_modifier fun _ => .append (safe_fadeCall (.ofList rfl)) (safe_fadeCall (.ofList rfl))

theorem tidy_fadeAudio : fadeAudio.Tidy :=
  tidy_modifier fun _ => .append (safe_fadeCall (.ofList rfl)) (safe_fadeCall (.ofList rfl))

theorem tidy_startTime : startTime.Tidy := by
  have hshare : IsName "startTimePerc" := .ofList rfl
  exact tidy_modifier fun _ => .append (safe_positiveCall (.ofList rfl)) (safe_valueCall hshare)

theorem tidy_endTime : endTime.Tidy := by
  have hshare : IsName "endTimePerc" := .ofList rfl
  exact tidy_modifier fun _ => .append (safe_positiveCall (.ofList rfl)) (safe_valueCall hshare)

theorem tidy_timeRange : timeRange.Tidy := by
  refine tidy_modifier fun c => .ite (.one (.ofList rfl) ?_ .nil) .nil
  rw [List.forall_mem_cons, List.forall_mem_singleton]
  exact ⟨trivial, trivial⟩

theorem tidy_playbackRate : playbackRate.Tidy :=
  tidy_modifier fun _ => .ite (.unary (.ofList rfl) trivial .nil) .nil

theorem tidy_name : name.Tidy := tidy_modifier fun _ => safe_trimmedOption (.ofList rfl)

theorem tidy_forUsers : forUsers.Tidy :=
  tidy_modifier fun _ => .ite .nil (.unary (.ofList rfl) trivial .nil)

theorem tidy_audioChannel : audioChannel.Tidy :=
  tidy_modifier fun _ => safe_trimmedOption (.ofList rfl)

theorem tidy_soundRadius : soundRadius.Tidy := by
  refine tidy_modifier fun c => .append (.append (safe_positiveCall (.ofList rfl)) ?_) ?_
  · exact .ite (.unary (.ofList rfl) (Arg.safe_flag _) .nil) .nil
  · exact .ite .nil (.unary (.ofList rfl) (Arg.safe_flag _) .nil)

/-! ## Placement -/

theorem safe_falseSettings {keys : List String} (h : AreNames keys) :
    SafeSettings (falseSettings c keys) :=
  .flatMap fun key hkey => safe_settingIf (h key hkey) (Arg.safe_flag _)

theorem safe_placeSetting {usual : String} (hk : IsName key) :
    SafeSettings (placeSetting c key usual) := safe_settingIf hk trivial

theorem tidy_atLocation : atLocation.Tidy := by
  refine tidy_modifier fun c => safe_targetCall (.ofList rfl) ?_
  refine .append (.append (.append ?_ (safe_numeralSetting (.ofList rfl))) safe_offsetSetting) ?_
  · exact safe_trueSettings (.cons (.ofList rfl) .nil)
  · exact safe_trueSettings (.cons (.ofList rfl) (.cons (.ofList rfl) .nil))

theorem tidy_stretchTo : stretchTo.Tidy := by
  refine tidy_modifier fun c => safe_targetCall (.ofList rfl) ?_
  refine .append (.append (safe_trueSettings ?_) (safe_numeralSetting (.ofList rfl))) ?_
  · refine .cons (.ofList rfl) (.cons (.ofList rfl) ?_)
    exact .cons (.ofList rfl) (.cons (.ofList rfl) .nil)
  · exact safe_trueSettings (.cons (.ofList rfl) .nil)

theorem tidy_attachTo : attachTo.Tidy := by
  refine tidy_modifier fun c => safe_targetCall (.ofList rfl) ?_
  refine .append (.append (.append (.append ?_ ?_) ?_) safe_offsetSetting) ?_
  · exact .append (safe_placeSetting (.ofList rfl)) (safe_placeSetting (.ofList rfl))
  · apply safe_falseSettings
    exact .cons (.ofList rfl) (.cons (.ofList rfl) (.cons (.ofList rfl) .nil))
  · exact safe_numeralSetting (.ofList rfl)
  · exact safe_trueSettings (.cons (.ofList rfl) (.cons (.ofList rfl) .nil))

theorem tidy_spriteOffset : spriteOffset.Tidy := by
  refine tidy_modifier fun c => .ite (.unary (.ofList rfl) (Arg.safe_point _ _) ?_) .nil
  exact safe_trueSettings (.cons (.ofList rfl) (.cons (.ofList rfl) .nil))

theorem tidy_onTarget : onTarget.Tidy := tidy_modifier fun _ => safe_targetCall (.ofList rfl) .nil

theorem tidy_moveTowards : moveTowards.Tidy := by
  refine tidy_modifier fun c => safe_targetCall (.ofList rfl) ?_
  refine .append (.append (.ite .nil ?_) ?_) ?_
  · exact safe_textSetting (.ofList rfl)
  · exact safe_numeralSetting (.ofList rfl)
  · exact safe_trueSettings (.cons (.ofList rfl) .nil)

theorem tidy_rotateTowards : rotateTowards.Tidy := by
  refine tidy_modifier fun c => safe_targetCall (.ofList rfl) ?_
  refine .append (.append (.append (.append (.append ?_ ?_) ?_) ?_) ?_) ?_
  · exact safe_numeralSetting (.ofList rfl)
  · exact safe_textSetting (.ofList rfl)
  · exact safe_numeralSetting (.ofList rfl)
  · exact safe_numeralSetting (.ofList rfl)
  · exact safe_falseSettings (.cons (.ofList rfl) .nil)
  · exact safe_trueSettings (.cons (.ofList rfl) .nil)

theorem tidy_teleportTo : teleportTo.Tidy := by
  refine tidy_modifier fun c => safe_targetCall (.ofList rfl) ?_
  refine .append (safe_numeralSetting (.ofList rfl)) ?_
  exact safe_trueSettings (.cons (.ofList rfl) .nil)

theorem tidy_offset : offset.Tidy :=
  tidy_modifier fun _ => .unary (.ofList rfl) (Arg.safe_point _ _) .nil

/-! ## Appearance -/

theorem tidy_rotateTransition {label : String} (hm : IsName method) :
    (rotateTransition label method).Tidy := by
  refine tidy_modifier fun c => .one hm ?_ (safe_transition _ _)
  rw [List.forall_mem_cons, List.forall_mem_singleton]
  exact ⟨trivial, trivial⟩

theorem tidy_tint : tint.Tidy := by
  refine tidy_modifier fun c => .ite ?_ (.ite ?_ (.ite ?_ .nil))
  · exact .bare (.ofList rfl) .nil
  · exact safe_textOption (.ofList rfl)
  · split
    · exact .unary (.ofList rfl) trivial .nil
    · exact .nil

theorem tidy_scale : scale.Tidy := by
  refine tidy_modifier fun c => .unary (.ofList rfl) ?_ .nil
  split
  · exact Arg.safe_point _ _
  · trivial

theorem tidy_scaleTransition {label : String} (hm : IsName method) :
    (scaleTransition label method).Tidy := by
  refine tidy_modifier fun c => .ite (.one hm ?_ (safe_transition _ _)) .nil
  rw [List.forall_mem_cons, List.forall_mem_singleton]
  exact ⟨trivial, trivial⟩

theorem tidy_scaleToObject : scaleToObject.Tidy := by
  have hkeys : AreNames ["uniform", "considerTokenScale"] :=
    .cons (.ofList rfl) (.cons (.ofList rfl) .nil)
  refine tidy_modifier fun c => .one (.ofList rfl) ?_ (safe_trueSettings hkeys)
  -- whichever scale stands in front of the options, it is a number
  have hone : ∀ arg ∈ [Arg.numeral .one], arg.Safe := List.forall_mem_singleton.2 trivial
  split
  · split
    · split
      · exact List.forall_mem_nil _
      · exact hone
    · split
      · exact List.forall_mem_nil _
      · exact List.forall_mem_singleton.2 trivial
  · split
    · exact List.forall_mem_nil _
    · exact hone

theorem tidy_size : size.Tidy := by
  refine tidy_modifier fun c => .ite (.unary (.ofList rfl) ?_ ?_) .nil
  · split
    · exact ⟨.ofList rfl, .ofList rfl⟩
    · trivial
  · exact safe_trueSettings (.cons (.ofList rfl) .nil)

theorem tidy_persist : persist.Tidy := by
  refine tidy_modifier fun c => .ite (.unary (.ofList rfl) (Arg.safe_flag _) ?_) ?_
  · exact .cons (.ofList rfl) (Arg.safe_flag _) .nil
  · exact .bare (.ofList rfl) .nil

theorem tidy_mirror : mirror.Tidy := by
  have hkeys : AreNames mirrorKeys :=
    .cons (.ofList rfl) (.cons (.ofList rfl) (.cons (.ofList rfl) (.cons (.ofList rfl) .nil)))
  refine tidy_modifier fun c => List.forall_mem_map.2 fun key hkey => ?_
  exact ⟨hkeys key (List.mem_of_mem_filter hkey), List.forall_mem_nil _, SafeSettings.nil⟩

theorem tidy_screenSpace : screenSpace.Tidy := by
  refine tidy_modifier fun c => .append (.append (.append (.bare (.ofList rfl) .nil) ?_) ?_) ?_
  · exact .ite (.bare (.ofList rfl) .nil) .nil
  · exact .ite (.unary (.ofList rfl) (Arg.safe_point _ _) .nil) .nil
  · exact .ite .nil (.unary (.ofList rfl) (Arg.safe_point _ _) .nil)

theorem tidy_shake : shake.Tidy := by
  refine tidy_modifier fun c => .ite (.bare (.ofList rfl) (.append ?_ ?_)) .nil
  · refine .cons (.ofList rfl) trivial (safe_positiveSettings ?_)
    exact .cons (.ofList rfl) (.cons (.ofList rfl) (.cons (.ofList rfl) (.cons (.ofList rfl) .nil)))
  · exact safe_settingIf (.ofList rfl) (Arg.safe_flag _)

theorem tidy_crosshairDistance : crosshairDistance.Tidy :=
  tidy_modifier fun _ => safe_positiveCall (.ofList rfl)

theorem tidy_crosshairLabel : crosshairLabel.Tidy := by
  refine tidy_modifier fun c => .ite (.unary (.ofList rfl) trivial (.ite ?_ .nil)) .nil
  exact .cons (.ofList rfl) trivial (.cons (.ofList rfl) trivial .nil)

/-! ## Styles of texts -/

theorem areNames_styleKeys : AreNames (styleKeys.map (·.1)) := by
  refine .cons (.ofList rfl) (.cons (.ofList rfl) (.cons (.ofList rfl) (.cons (.ofList rfl) ?_)))
  refine .cons (.ofList rfl) (.cons (.ofList rfl) (.cons (.ofList rfl) (.cons (.ofList rfl) ?_)))
  exact .cons (.ofList rfl) (.cons (.ofList rfl) .nil)

theorem safe_styleSettings : SafeSettings (styleSettings c) := by
  intro option ho
  obtain ⟨⟨key, kind⟩, hentry, ho⟩ := List.mem_flatMap.1 ho
  have hk : IsName key := areNames_styleKeys key (List.mem_map_of_mem hentry)
  cases kind with
  | text => exact safe_textSetting hk option ho
  | number => exact safe_positiveSettings (List.forall_mem_singleton.2 hk) option ho
  | flag => exact safe_trueSettings (List.forall_mem_singleton.2 hk) option ho

/-- The name of a style: letters that no stray word starts with, and digits. -/
theorem tidy_nextName (p : Pass) : Tidy (p.nextName "textStyle") := by
  have hstem : "textStyle".toList = ['t', 'e', 'x', 't', 'S', 't', 'y', 'l', 'e'] :=
    String.toList_ofList
  have hchars : ∀ x ∈ (p.nextName "textStyle").toList,
      (['t', 'e', 'x', 'S', 'y', 'l'].contains x || x.isDigit) = true := by
    intro x hx
    rw [Pass.nextName, String.toList_append, List.mem_append, hstem] at hx
    rcases hx with hx | hx
    · have hall := List.all_eq_true.1 (rfl : (['t', 'e', 'x', 't', 'S', 't', 'y', 'l', 'e'].all
        fun x => ['t', 'e', 'x', 'S', 'y', 'l'].contains x || x.isDigit) = true)
      exact hall x hx
    · rw [Nat.toString_eq_repr, Nat.toList_repr] at hx
      rw [Nat.isDigit_of_mem_toDigits (by decide) (by decide) hx, Bool.or_true]
  refine tidy_of_inert (inert_of_forall rfl hchars) (clean_of_not_mem ?_ ?_ ?_)
  · exact fun hN => absurd (hchars _ hN) (by decide)
  · exact fun hI => absurd (hchars _ hI) (by decide)
  · exact fun hu => absurd (hchars _ hu) (by decide)

/-- A declaration of a tidy expression is tidy. -/
theorem tidy_declaration {name expression : String} (hn : Tidy name) (he : Tidy expression) :
    Tidy (Pass.declaration name expression) := by
  have hfront : Tidy ("const " ++ name) := Opens.append (b := []) (.ofList rfl rfl) hn
  have hbody : Tidy ("const " ++ name ++ " = " ++ expression) :=
    hfront.join (.ofList rfl rfl rfl) he
  exact Closes.prepend hbody (.ofList rfl rfl)

theorem declarations_declareStyleIn (p : Pass) :
    ∃ declared, (declareStyleIn c p).declarations = p.declarations ++ declared ∧
      ∀ line ∈ declared, Tidy line := by
  unfold declareStyleIn
  split
  · exact ⟨[], (List.append_nil _).symm, List.forall_mem_nil _⟩
  · refine ⟨[_], rfl, List.forall_mem_singleton.2 ?_⟩
    apply tidy_declaration (tidy_nextName _)
    apply tidy_objectLiteral
    exact List.forall_mem_map.2 fun option ho => (safe_styleSettings option ho).tidy

/-- What a text declares, if it declares anything, is tidy. -/
theorem declarations_label (node : Node) (w : Workspace) :
    ∃ declared, ((label.behaviour.compile node).run w).2.pass.declarations =
        w.pass.declarations ++ declared ∧ ∀ line ∈ declared, Tidy line := by
  show ∃ declared, ((labelProgram (.of node.config)).run w).2.pass.declarations =
        w.pass.declarations ++ declared ∧ ∀ line ∈ declared, Tidy line
  rw [run_label]
  split
  · exact ⟨[], (List.append_nil _).symm, List.forall_mem_nil _⟩
  · exact declarations_declareStyleIn w.pass

/-! ## Main theorem -/

/-- The types that write code or template literals of the user. -/
def freeTypes : List String := ["text", "scrollingText", "override", "callback"]

theorem builtinTypes_tidy : ∀ entry ∈ builtinTypes, entry.1 ∈ freeTypes ∨ entry.2.Tidy := by
  simp only [builtinTypes, List.forall_mem_cons]
  exact ⟨.inr tidy_start, .inr tidy_play, .inr tidy_wait, .inr tidy_macroCall, .inl (by decide),
    .inr tidy_waitUntilFinished, .inr (tidy_bareModifier (.ofList rfl)), .inr tidy_repeats,
    .inr tidy_playIf, .inr tidy_delay, .inr tidy_effect, .inr tidy_sound, .inr tidy_animation,
    .inl (by decide), .inr tidy_canvasPan, .inr tidy_crosshair, .inr tidy_atLocation,
    .inr (tidy_valueModifier (.ofList rfl)), .inr (tidy_valueModifier (.ofList rfl)),
    .inr (tidy_valueModifier (.ofList rfl)), .inr tidy_fade, .inr tidy_fadeAudio,
    .inr tidy_startTime, .inr tidy_endTime, .inr tidy_timeRange, .inr tidy_playbackRate,
    .inr tidy_name, .inr tidy_forUsers, .inl (by decide), .inl (by decide), .inr tidy_onTarget,
    .inr tidy_moveTowards, .inr (tidy_valueModifier (.ofList rfl)), .inr tidy_rotateTowards,
    .inr tidy_teleportTo, .inr tidy_offset, .inr (tidy_bareModifier (.ofList rfl)),
    .inr (tidy_bareModifier (.ofList rfl)), .inr (tidy_bareModifier (.ofList rfl)),
    .inr (tidy_bareModifier (.ofList rfl)), .inr (tidy_valueModifier (.ofList rfl)),
    .inr (tidy_rotateTransition (.ofList rfl)), .inr (tidy_rotateTransition (.ofList rfl)),
    .inr tidy_tint, .inr tidy_persist, .inr tidy_scale, .inr (tidy_scaleTransition (.ofList rfl)),
    .inr (tidy_scaleTransition (.ofList rfl)), .inr tidy_scaleToObject, .inr tidy_size,
    .inr tidy_stretchTo, .inr tidy_attachTo, .inr tidy_spriteOffset, .inr tidy_mirror,
    .inr (tidy_bareModifier (.ofList rfl)), .inr (tidy_bareModifier (.ofList rfl)),
    .inr (tidy_bareModifier (.ofList rfl)), .inr tidy_screenSpace,
    .inr (tidy_valueModifier (.ofList rfl)), .inr tidy_audioChannel, .inr tidy_soundRadius,
    .inr tidy_shake, .inr tidy_crosshairDistance, .inr tidy_crosshairLabel, List.forall_mem_nil _⟩

theorem tidy_of_get? {id : String} {t : NodeType} (ht : Registry.builtin.get? id = some t)
    (hid : id ∉ freeTypes) : t.Tidy := by
  exact (builtinTypes_tidy _ (Registry.mem_types_of_get? ht)).resolve_left hid

/-- In any workspace, a node of a built-in type that is not free adds tidy lines only, and a child
only call lines. What a text declares is tidy as well. -/
theorem builtin_lines_tidy (node : Node) (w : Workspace) :
    (∀ id t, Registry.builtin.get? id = some t → id ∉ freeTypes →
      ∃ pushed emitted,
        ((t.behaviour.compile node).run w).2.block.lines = w.block.lines ++ pushed ∧
        ((t.behaviour.compile node).run w).2.pass.lines = w.pass.lines ++ emitted ∧
        (∀ line ∈ pushed ++ emitted, Tidy line) ∧
        (t.role = .child → ∀ line ∈ pushed ++ emitted, IsCallLine line)) ∧
    ∃ declared,
      ((label.behaviour.compile node).run w).2.pass.declarations = w.pass.declarations ++ declared ∧
      ∀ line ∈ declared, Tidy line := by
  refine ⟨fun id t ht hid => ?_, declarations_label node w⟩
  have htidy : t.behaviour.Tidy := tidy_of_get? ht hid
  rw [NodeType.role]
  cases hb : t.behaviour with
  | root family compile =>
    rw [hb] at htidy
    obtain ⟨lines, hlines, h⟩ := htidy node
    refine ⟨lines, [], ?_⟩
    rw [Behaviour.compile, hlines, Program.run_pushAll, List.append_nil lines]
    exact ⟨rfl, (List.append_nil _).symm, h, nofun⟩
  | child families compile =>
    rw [hb] at htidy
    obtain ⟨lines, hlines, h⟩ := htidy node
    refine ⟨lines, [], ?_⟩
    rw [Behaviour.compile, hlines, Program.run_pushAll, List.append_nil lines]
    exact ⟨rfl, (List.append_nil _).symm, fun line hl => (h line hl).tidy, fun _ => h⟩
  | utility compile =>
    rw [hb] at htidy
    obtain ⟨lines, hlines, h⟩ := htidy node
    refine ⟨[], lines, ?_⟩
    rw [Behaviour.compile, hlines, Program.run_emitAll, List.nil_append]
    exact ⟨(List.append_nil _).symm, rfl, h, nofun⟩

/-- An id that tries to close its literal and its call stays inside the literal. -/
theorem builtin_lines_tidy_quote :
    let options : Fields := [("mode", .str "token-id"), ("tokenId", .str "\"); alert(\"")]
    let node : Node := { id := "at", type := "atLocation", config := .object options }
    let w : Workspace := ⟨{ node := "fx", family := "effect" }, {}⟩
    let lines := ((atLocation.behaviour.compile node).run w).2.block.lines
    lines = ["  .atLocation(canvas.tokens.get(\"\\\"); alert(\\\"\"))"] ∧
      ∀ line ∈ lines, IsCallLine line := by
  intro options node w lines
  refine ⟨by decide +kernel, ?_⟩
  obtain ⟨hlines, -⟩ := builtin_lines_tidy node w
  obtain ⟨pushed, emitted, hblock, -, -, hchild⟩ :=
    hlines "atLocation" atLocation rfl (by decide)
  intro line hl
  rw [show lines = pushed from hblock] at hl
  exact hchild rfl line (List.mem_append_left _ hl)

end CueGraph.Catalog
