import CueGraph.Catalog.Builtin
import CueGraph.Proofs.Catalog.Guards
import CueGraph.Proofs.Compile.Visit

/-!
# Ranges of numbers

The types whose nodes add lines under guards (`guardedTypes`). All lines that they add hold what the
guards ask for, and where the numbers are in the range, the line is there.

Main statement: `guards_survive`.
-/

namespace CueGraph

namespace Catalog

/-- A type whose nodes add lines under guards. -/
structure GuardedType where
  type : String
  /-- The lines that a node adds. -/
  lines : Config → List String
  /-- A line under this guard has to be among them. -/
  Due : Config → Guard → Prop := fun _ _ => False

def guardedTypes : List GuardedType :=
  [{ type := "wait"
     lines := waitLines
     Due c g := g = waitGuard ∧ .zero < c.number "ms" },
    { type := "timeRange"
      lines c := (timeRangeCalls c).map Call.line
      Due c g := g = timeRangeGuard ∧ c.number "inMs" < c.number "outMs" },
    { type := "repeats"
      lines c := (repeatsCalls c).map Call.line
      Due c g := g = repeatsGuard ∧ .one < c.number "repeats" },
    { type := "playbackRate"
      lines c := (playbackRateCalls c).map Call.line
      Due c g :=
        g = playbackRateGuard ∧ .zero < c.number "rate" ∧ ¬(c.number "rate").Same .one },
    { type := "playIf"
      lines c := (playIfCalls c).map Call.line
      Due c g :=
        g = playIfGuard ∧ c.text "mode" = "chance" ∧ .zero < c.number "chance" ∧
          c.number "chance" < .one },
    { type := "fade", lines c := (fadeCalls "fadeIn" "fadeOut" c).map Call.line },
    { type := "fadeAudio", lines c := (fadeCalls "fadeInAudio" "fadeOutAudio" c).map Call.line },
    { type := "scaleIn", lines c := (scaleTransitionCalls "scaleIn" c).map Call.line },
    { type := "scaleOut", lines c := (scaleTransitionCalls "scaleOut" c).map Call.line },
    { type := "startTime", lines c := (boundCalls "startTime" c).map Call.line },
    { type := "endTime", lines c := (boundCalls "endTime" c).map Call.line },
    { type := "size", lines c := (sizeCalls c).map Call.line },
    { type := "soundRadius", lines c := (soundRadiusCalls c).map Call.line },
    { type := "crosshairDistance"
      lines c := (positiveCall "distance" "distance" c).map Call.line },
    { type := "shake", lines c := (shakeCalls c).map Call.line },
    { type := "canvasPan", lines := canvasPanLines }]

variable {c : Config} {key method : String}

/-! ## Lines under guards -/

theorem guarded_positiveCall (h : method ∈ positiveMethods) :
    GuardedCalls (positiveCall method key c) := by
  have hguard : chainGuard method ReadsPositive ∈ guards :=
    List.mem_append_right _ (List.mem_map_of_mem h)
  unfold positiveCall
  split
  · next hpos => exact .under hguard (readsPositive_of_positive hpos) rfl
  · exact .nil

theorem waitGuard_line (inside : String) :
    waitGuard.line inside = "seq.wait(" ++ inside ++ ");" := rfl

theorem guarded_wait : ∀ line ∈ waitLines c, Guarded line := by
  have hguard : waitGuard ∈ guards := by simp [guards]
  unfold waitLines
  dsimp only
  split
  · exact List.forall_mem_nil _
  · next hpos =>
    rw [Bool.not_eq_true', Bool.not_eq_false] at hpos
    have hms : ReadsPositive (c.number "ms").numeral := readsPositive_of_positive hpos
    split
    · next hrange =>
      have hline := guarded_line hguard (WaitArgs.range hms (ascending_numeral hrange))
      rw [waitGuard_line, ← String.append_assoc, ← String.append_assoc] at hline
      exact List.forall_mem_singleton.2 hline
    · exact List.forall_mem_singleton.2 (guarded_line hguard (.fixed hms))

theorem guarded_timeRange : GuardedCalls (timeRangeCalls c) := by
  have hguard : timeRangeGuard ∈ guards := by simp [guards]
  unfold timeRangeCalls
  dsimp only
  split
  · next hrange => exact .under hguard (.range (ascending_numeral hrange)) rfl
  · exact .nil

theorem guarded_repeats : GuardedCalls (repeatsCalls c) := by
  have hguard : repeatsGuard ∈ guards := by simp [guards]
  unfold repeatsCalls
  dsimp only
  split
  · exact .nil
  · next hcount =>
    have hn : Reads (.one < ·) (c.number "repeats").numeral := by
      apply reads_above
      rw [Finite.le_iff_rank_le] at hcount
      rw [Finite.lt_iff_rank_lt]
      omega
    split
    · next hdelays =>
      obtain ⟨-, hrange⟩ := hdelays
      exact .under hguard (.delays hn (ascending_numeral hrange)) rfl
    · split
      · next hlow =>
        rw [Bool.not_eq_true'] at hlow
        have hd : Reads (·.isZero = false) (c.number "repeatDelayMin").numeral := by
          apply reads_numeral
          rwa [Finite.isZero_canonical]
        exact .under hguard (.delay hn hd) rfl
      · exact .under hguard (.count hn) rfl

theorem guarded_playIf : GuardedCalls (playIfCalls c) := by
  have hguard : playIfGuard ∈ guards := by simp [guards]
  unfold playIfCalls
  dsimp only
  split
  · cases c.flag "bool" with
    | true => exact .under hguard .yes rfl
    | false => exact .under hguard .no rfl
  · split
    · split
      · next p _ =>
        split
        · next hp =>
          have hread : Reads (fun x => .zero < x ∧ x < .one) p.numeral :=
            reads_numeral ⟨Finite.lt_canonical.2 (Finite.isPositive_iff.1 hp.1),
              Finite.canonical_lt.2 hp.2⟩
          exact .under hguard (.chance hread) rfl
        · exact .nil
      · exact .nil
    · exact .nil

theorem guarded_playbackRate : GuardedCalls (playbackRateCalls c) := by
  have hguard : playbackRateGuard ∈ guards := by simp [guards]
  unfold playbackRateCalls
  dsimp only
  split
  · next hrate =>
    have hread : Reads (fun x => .zero < x ∧ ¬x.Same .one) (c.number "rate").numeral := by
      apply reads_numeral
      refine ⟨Finite.lt_canonical.2 (Finite.isPositive_iff.1 hrate.1), ?_⟩
      rw [Finite.Same, Finite.rank_canonical]
      exact hrate.2
    exact .under hguard hread rfl
  · exact .nil

theorem guarded_fadeCall (h : method ∈ fadeMethods) : GuardedCalls (fadeCall method key c) := by
  have hguard : chainGuard method FadeArgs ∈ guards := by
    refine List.mem_append_left _ (List.mem_append_left _ (List.mem_append_right _ ?_))
    exact List.mem_map_of_mem h
  unfold fadeCall
  split
  · next hpos =>
    have hd := readsPositive_of_positive hpos
    cases transitionOf c (key ++ "Ease") (key ++ "Delay") with
    | nil => exact .under hguard (.plain hd) rfl
    | cons option rest => exact .under hguard (.options hd _) rfl
  · exact .nil

theorem guarded_scaleTransition (h : method ∈ scaleMethods) :
    GuardedCalls (scaleTransitionCalls method c) := by
  have hguard : chainGuard method ScaleArgs ∈ guards :=
    List.mem_append_left _ (List.mem_append_right _ (List.mem_map_of_mem h))
  unfold scaleTransitionCalls
  split
  · next hpos =>
    have hs : Reads (fun _ => True) (c.number "scale").numeral := reads_numeral trivial
    have hd := readsPositive_of_positive hpos
    cases transitionOf c "ease" "delay" with
    | nil => exact .under hguard (.plain hs hd) rfl
    | cons option rest => exact .under hguard (.options hs hd _) rfl
  · exact .nil

theorem sizePair_eq (x y : Finite) : (Arg.pair "width" x "height" y).render =
    "\x7b width: " ++ x.numeral ++ ", height: " ++ y.numeral ++ " \x7d" := by
  show objectLiteral ["width" ++ ": " ++ x.numeral, "height" ++ ": " ++ y.numeral] = _
  rw [objectLiteral, String.intercalate_cons_cons, String.intercalate_singleton]
  apply String.toList_inj.1
  simp

theorem guarded_size : GuardedCalls (sizeCalls c) := by
  have hguard : chainGuard "size" SizeArgs ∈ guards := by simp [guards]
  unfold sizeCalls
  split
  · next hw =>
    have hw := readsPositive_of_positive hw
    dsimp only
    split
    · next hh =>
      have hsize := SizeText.both hw (readsPositive_of_positive hh)
      rw [← sizePair_eq] at hsize
      cases trueSettings c ["gridUnits"] with
      | nil => exact .under hguard (.plain hsize) rfl
      | cons option rest => exact .under hguard (.options hsize _) rfl
    · have hsize := SizeText.width hw
      cases trueSettings c ["gridUnits"] with
      | nil => exact .under hguard (.plain hsize) rfl
      | cons option rest => exact .under hguard (.options hsize _) rfl
  · exact .nil

theorem guarded_bound {bound : String} (h : bound ∈ positiveMethods)
    (hshare : IsFree (bound ++ "Perc")) : GuardedCalls (boundCalls bound c) := by
  refine (guarded_positiveCall h).append ?_
  unfold valueCall
  split
  · exact .free hshare
  · exact .nil

theorem guarded_soundRadius : GuardedCalls (soundRadiusCalls c) := by
  have hradius : "radius" ∈ positiveMethods := by simp [positiveMethods]
  refine ((guarded_positiveCall hradius).append ?_).append ?_
  · split
    · exact .free (by decide +kernel)
    · exact .nil
  · split
    · exact .nil
    · exact .free (by decide +kernel)

theorem mem_settingIf {condition : Bool} {value : Arg} {s : Setting} :
    s ∈ settingIf condition key value ↔ condition = true ∧ s = ⟨key, value⟩ := by
  cases condition with
  | true => simp [settingIf]
  | false => simp [settingIf]

theorem shakeField_of_mem {keys : List String} {s : Setting}
    (hkeys : ∀ key ∈ keys, key ∈ shakeNumbers) (hs : s ∈ positiveSettings c keys) :
    ShakeField s.render := by
  obtain ⟨key, hkey, hs⟩ := List.mem_flatMap.1 hs
  obtain ⟨hpos, rfl⟩ := mem_settingIf.1 hs
  exact .number (hkeys key hkey) (readsPositive_of_positive hpos)

theorem guarded_shake : GuardedCalls (shakeCalls c) := by
  have hguard : chainGuard "shake" ShakeArgs ∈ guards := by simp [guards]
  unfold shakeCalls
  split
  · next hpos =>
    refine .under hguard (.options ?_) rfl
    intro field hfield
    obtain ⟨s, hs, rfl⟩ := List.mem_map.1 hfield
    rw [List.cons_append, List.mem_cons, List.mem_append] at hs
    rcases hs with rfl | hs | hs
    · exact .number (by simp [shakeNumbers]) (readsPositive_of_positive hpos)
    · refine shakeField_of_mem ?_ hs
      simp [shakeNumbers]
    · obtain ⟨-, rfl⟩ := mem_settingIf.1 hs
      exact .noRotation
  · exact .nil

theorem guarded_canvasPan : ∀ line ∈ canvasPanLines c, Guarded line := by
  refine List.forall_mem_cons.2 ⟨?_, GuardedCalls.lines ?_⟩
  · have hline : Guarded ("seq.canvasPan" ++ "(" ++ ")") :=
      guarded_free ")" (by decide +kernel) (by decide +kernel)
    exact hline
  · have hlock : "lockView" ∈ positiveMethods := by simp [positiveMethods]
    refine .append (.append (.append ?_ ?_) ?_) (guarded_positiveCall hlock)
    · unfold atSelectedToken
      split
      · exact .free (by decide +kernel)
      · exact .nil
    · have hfree : IsFree "duration" := by decide +kernel
      unfold positiveCall
      split
      · exact .free hfree
      · exact .nil
    · have hfree : IsFree "scale" := by decide +kernel
      unfold panScale
      split
      · split
        · exact .nil
        · exact .free hfree
      · exact .nil

/-! ## Lines that have to be there -/

theorem present_wait (h : .zero < c.number "ms") :
    ∃ inside, waitGuard.line inside ∈ waitLines c := by
  have hlines : ∃ inside, waitLines c = ["seq.wait(" ++ inside ++ ");"] := by
    unfold waitLines
    dsimp only
    rw [Finite.isPositive_iff.2 h, Bool.not_true, if_neg Bool.false_ne_true]
    split
    · refine ⟨(c.number "ms").numeral ++ ", " ++ (c.number "msMax").numeral, ?_⟩
      rw [← String.append_assoc, ← String.append_assoc]
    · exact ⟨(c.number "ms").numeral, rfl⟩
  obtain ⟨inside, hlines⟩ := hlines
  refine ⟨inside, ?_⟩
  rw [hlines, waitGuard_line]
  exact List.mem_singleton_self _

theorem present_of_calls {Holds : String → Prop} {args : List Arg} {calls : List Call}
    (h : calls = [⟨method, args, []⟩]) :
    ∃ inside, (chainGuard method Holds).line inside ∈ calls.map Call.line := by
  refine ⟨inBrackets ⟨method, args, []⟩, ?_⟩
  rw [h, List.map_singleton, ← chainGuard_line ⟨method, args, []⟩ Holds]
  exact List.mem_singleton_self _

theorem present_timeRange (h : c.number "inMs" < c.number "outMs") :
    ∃ inside, timeRangeGuard.line inside ∈ (timeRangeCalls c).map Call.line := by
  have hcalls : timeRangeCalls c =
      [⟨"timeRange", [.numeral (c.number "inMs"), .numeral (c.number "outMs")], []⟩] := if_pos h
  exact present_of_calls hcalls

theorem present_repeats (h : .one < c.number "repeats") :
    ∃ inside, repeatsGuard.line inside ∈ (repeatsCalls c).map Call.line := by
  have hcount : ¬c.number "repeats" ≤ .one := by
    rw [Finite.le_iff_rank_le]
    rw [Finite.lt_iff_rank_lt] at h
    omega
  have hcalls : ∃ args, repeatsCalls c = [⟨"repeats", args, []⟩] := ⟨_, if_neg hcount⟩
  obtain ⟨args, hcalls⟩ := hcalls
  exact present_of_calls hcalls

theorem present_playbackRate (hpos : .zero < c.number "rate") (hne : ¬(c.number "rate").Same .one) :
    ∃ inside, playbackRateGuard.line inside ∈ (playbackRateCalls c).map Call.line := by
  have hcalls : playbackRateCalls c = [⟨"playbackRate", [.numeral (c.number "rate")], []⟩] :=
    if_pos ⟨Finite.isPositive_iff.2 hpos, hne⟩
  exact present_of_calls hcalls

/-- What counts as a number above zero is there, and is that number. -/
theorem number?_of_positive (h : .zero < c.number key) : c.number? key = some (c.number key) := by
  have hset : c.isSet key = true := by
    unfold Config.isSet
    unfold Config.number at h
    cases hraw : c.raw key with
    | null =>
      rw [hraw] at h
      exact absurd h (by decide)
    | str s =>
      have hs : s ≠ "" := by
        rintro rfl
        have hzero : (Value.str "").toFinite = .zero := by decide +kernel
        rw [hraw, hzero] at h
        exact absurd h (by decide)
      simpa using hs
    | _ => rfl
  unfold Config.number?
  rw [if_pos hset]
  unfold Config.number Value.toFinite at h ⊢
  cases hx : (c.raw key).toFinite? with
  | none =>
    rw [hx] at h
    exact absurd h (by decide)
  | some x => rfl

theorem present_playIf (hmode : c.text "mode" = "chance") (hpos : .zero < c.number "chance")
    (hone : c.number "chance" < .one) :
    ∃ inside, playIfGuard.line inside ∈ (playIfCalls c).map Call.line := by
  have hcalls : playIfCalls c = [⟨"playIf", [.chance (c.number "chance")], []⟩] := by
    unfold playIfCalls
    dsimp only
    rw [hmode, if_neg (by simp), if_pos rfl, number?_of_positive hpos]
    exact if_pos ⟨Finite.isPositive_iff.2 hpos, hone⟩
  exact present_of_calls hcalls

/-! ## Main theorem -/

/-- What the table says of a type is so. -/
structure GuardedType.Fits (t : GuardedType) : Prop where
  /-- The lines are added to the chain or as statements. -/
  adds : ∃ b, Registry.builtin.behaviour? t.type = some b ∧ ∀ node,
    b.compile node = .pushAll (t.lines (.of node.config)) ∨
      b.compile node = .emitAll (t.lines (.of node.config))
  guarded : ∀ c, ∀ line ∈ t.lines c, Guarded line
  present : ∀ c g, t.Due c g → ∃ inside, g.line inside ∈ t.lines c

/-- A type of children without lines that are due. -/
theorem fits_of_calls {type : String} {calls : Config → List Call}
    (hadds : ∃ b, Registry.builtin.behaviour? type = some b ∧ ∀ node,
      b.compile node = .pushAll ((calls (.of node.config)).map Call.line))
    (h : ∀ c, GuardedCalls (calls c)) :
    GuardedType.Fits { type, lines c := (calls c).map Call.line } := by
  obtain ⟨b, hb, hcompile⟩ := hadds
  exact ⟨⟨b, hb, fun node => .inl (hcompile node)⟩, fun c => (h c).lines, fun _ _ => False.elim⟩

theorem guardedTypes_fit : ∀ t ∈ guardedTypes, t.Fits := by
  have hstart : "startTime" ∈ positiveMethods := by simp [positiveMethods]
  have hend : "endTime" ∈ positiveMethods := by simp [positiveMethods]
  simp only [guardedTypes, List.forall_mem_cons]
  refine ⟨?wait, ?timeRange, ?repeats, ?playbackRate, ?playIf, ?fade, ?fadeAudio, ?scaleIn,
    ?scaleOut, ?startTime, ?endTime, ?size, ?soundRadius, ?distance, ?shake, ?canvasPan,
    List.forall_mem_nil _⟩
  case wait =>
    refine ⟨⟨_, rfl, fun _ => .inr rfl⟩, fun _ => guarded_wait, ?_⟩
    rintro c g ⟨rfl, hpos⟩
    exact present_wait hpos
  case timeRange =>
    refine ⟨⟨_, rfl, fun _ => .inl rfl⟩, fun _ => guarded_timeRange.lines, ?_⟩
    rintro c g ⟨rfl, hrange⟩
    exact present_timeRange hrange
  case repeats =>
    refine ⟨⟨_, rfl, fun _ => .inl rfl⟩, fun _ => guarded_repeats.lines, ?_⟩
    rintro c g ⟨rfl, hcount⟩
    exact present_repeats hcount
  case playbackRate =>
    refine ⟨⟨_, rfl, fun _ => .inl rfl⟩, fun _ => guarded_playbackRate.lines, ?_⟩
    rintro c g ⟨rfl, hpos, hne⟩
    exact present_playbackRate hpos hne
  case playIf =>
    refine ⟨⟨_, rfl, fun _ => .inl rfl⟩, fun _ => guarded_playIf.lines, ?_⟩
    rintro c g ⟨rfl, hmode, hpos, hone⟩
    exact present_playIf hmode hpos hone
  case fade =>
    refine fits_of_calls ⟨_, rfl, fun _ => rfl⟩ fun c => .append ?_ ?_
    · exact guarded_fadeCall (by simp [fadeMethods])
    · exact guarded_fadeCall (by simp [fadeMethods])
  case fadeAudio =>
    refine fits_of_calls ⟨_, rfl, fun _ => rfl⟩ fun c => .append ?_ ?_
    · exact guarded_fadeCall (by simp [fadeMethods])
    · exact guarded_fadeCall (by simp [fadeMethods])
  case scaleIn =>
    refine fits_of_calls ⟨_, rfl, fun _ => rfl⟩ fun c => guarded_scaleTransition ?_
    simp [scaleMethods]
  case scaleOut =>
    refine fits_of_calls ⟨_, rfl, fun _ => rfl⟩ fun c => guarded_scaleTransition ?_
    simp [scaleMethods]
  case startTime =>
    exact fits_of_calls ⟨_, rfl, fun _ => rfl⟩ fun c => guarded_bound hstart (by decide +kernel)
  case endTime =>
    exact fits_of_calls ⟨_, rfl, fun _ => rfl⟩ fun c => guarded_bound hend (by decide +kernel)
  case size => exact fits_of_calls ⟨_, rfl, fun _ => rfl⟩ fun c => guarded_size
  case soundRadius => exact fits_of_calls ⟨_, rfl, fun _ => rfl⟩ fun c => guarded_soundRadius
  case distance =>
    refine fits_of_calls ⟨_, rfl, fun _ => rfl⟩ fun c => guarded_positiveCall ?_
    simp [positiveMethods]
  case shake => exact fits_of_calls ⟨_, rfl, fun _ => rfl⟩ fun c => guarded_shake
  case canvasPan =>
    exact ⟨⟨_, rfl, fun _ => .inl rfl⟩, fun _ => guarded_canvasPan, fun _ _ => False.elim⟩

/-- In any workspace, a node of a guarded type adds the lines that the table tells. All of them hold
what their guards ask for, and a line that is due is among them. -/
theorem guards_survive {t : GuardedType} (ht : t ∈ guardedTypes) {node : Node}
    (htype : node.type = t.type) (w : Workspace) :
    let lines := t.lines (.of node.config)
    (∃ b pushed emitted, Registry.builtin.behaviour? node.type = some b ∧
      ((b.compile node).run w).2.block.lines = w.block.lines ++ pushed ∧
      ((b.compile node).run w).2.pass.lines = w.pass.lines ++ emitted ∧
      pushed ++ emitted = lines) ∧
    (∀ line ∈ lines, Guarded line) ∧
    ∀ g, t.Due (.of node.config) g → ∃ inside, g.line inside ∈ lines := by
  intro lines
  obtain ⟨⟨b, hb, hcompile⟩, hguarded, hpresent⟩ := guardedTypes_fit t ht
  rw [← htype] at hb
  refine ⟨?_, hguarded _, hpresent _⟩
  rcases hcompile node with hrun | hrun
  · refine ⟨b, lines, [], hb, ?_⟩
    rw [hrun, Program.run_pushAll, List.append_nil lines]
    exact ⟨rfl, (List.append_nil _).symm, rfl⟩
  · refine ⟨b, [], lines, hb, ?_⟩
    rw [hrun, Program.run_emitAll]
    exact ⟨(List.append_nil _).symm, rfl, rfl⟩

/-- A wait for a time that a text holds, and for up to a larger one. -/
def waitNode : Node :=
  { id := "w", type := "wait", config := .object [("ms", .str " 0x10 "), ("msMax", .int 500)] }

theorem guards_survive_wait :
    let w : Workspace := ⟨{ node := "w", family := "" }, {}⟩
    guardedTypes[0] ∈ guardedTypes ∧ waitNode.type = guardedTypes[0].type ∧
      ((wait.behaviour.compile waitNode).run w).2.pass.lines = ["seq.wait(16, 500);"] ∧
      WaitArgs "16, 500" := by
  intro w
  have ht : guardedTypes[0] ∈ guardedTypes := List.getElem_mem _
  have htype : waitNode.type = guardedTypes[0].type := rfl
  obtain ⟨-, hguarded, -⟩ := guards_survive ht htype w
  have hlines : guardedTypes[0].lines (.of waitNode.config) = ["seq.wait(16, 500);"] := by
    decide +kernel
  refine ⟨ht, htype, by decide +kernel, ?_⟩
  have hline : "seq.wait(16, 500);" ∈ guardedTypes[0].lines (.of waitNode.config) := by
    rw [hlines]
    exact List.mem_singleton_self _
  exact hguarded _ hline waitGuard (by simp [guards]) "16, 500" rfl

end Catalog

end CueGraph
