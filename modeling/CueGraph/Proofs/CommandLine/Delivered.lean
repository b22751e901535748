import CueGraph.Proofs.CommandLine.Arguments
import CueGraph.Proofs.CommandLine.Printed
import CueGraph.Proofs.CommandLine.Saved

/-!
# A run delivers all or nothing

A run has a script to deliver when its arguments can be read, the variables can be loaded and select
a level for the log, and the document that the arguments name is found and passes the check
(`Ready`). Up to there a run has put out nothing and has left the disk alone (`run_ready`), and where
it does not come so far it ends there (`run_not_ready`). What is left to do is one delivery: to the
output, or to one file. When the file cannot be opened, the run fails and there are more folders at
most; but when it opens and the script cannot be encoded, an empty file is left (`Spoils`).

Main statement: `run_all_or_nothing`.
-/

namespace CueGraph

namespace Run

/-- The script of the document that the arguments name, in a style: the document stands in a file
and passes the check, and the script is compiled from its graph. -/
inductive Compiles (d : Disk) (args : Arguments) (style : ScriptStyle) : String → Prop
  | intro {text : String} {v : Value} {warnings : List TypeWarning} {loaded : Loaded}
      (hfile : d.look (Path.ofString args.input) = some (.text text))
      (hread : Json.read? text = some v)
      (hvalid : (Schema.validate Registry.builtin.contains args.strict v).result = .ok ())
      (hload : Graph.load Registry.builtin.contains args.strict v = (warnings, .ok loaded)) :
      Compiles d args style (Registry.builtin.compile style loaded.graph).text

/-- A run with these arguments has this script to deliver, in the style that the run settles on. -/
structure Ready (dotenv : Dotenv) (environment : Variables) (d : Disk) (arguments : List String)
    (args : Arguments) (script : String) : Prop where
  read : Arguments.read arguments = .ok args
  compiles : ∃ settings log threshold,
    settled dotenv environment d args.toChoices = .ok (settings, log) ∧
      Level.threshold settings.level = .ok threshold ∧ Compiles d args settings.style script

/-- A run with these arguments succeeds, puts out this script and leaves the disk as it is. -/
def Prints (dotenv : Dotenv) (environment : Variables) (d : Disk) (arguments : List String)
    (script : String) : Prop :=
  ∃ report, (run (Disk.host dotenv environment) arguments).run d = (report, d) ∧
    report.ending = .exit 0 ∧ report.output = script

/-- A run that succeeds delivers its script, once and nothing else: it puts out the script and
leaves the disk as it is, or it puts out nothing, and the disk gains the script that is put out
without a file for it. -/
inductive Delivers (dotenv : Dotenv) (environment : Variables) (d : Disk)
    (arguments : List String) : Report → Disk → Prop
  | printed {args : Arguments} {script : String} {report : Report}
      (h : Ready dotenv environment d arguments args script) (hout : args.out = none)
      (houtput : report.output = script) : Delivers dotenv environment d arguments report d
  | saved {args : Arguments} {script out : String} {report : Report} {after : Disk}
      (h : Ready dotenv environment d arguments args script) (hout : args.out = some out)
      (houtput : report.output = "") (hgains : d.Gains (Path.ofString out) script after)
      (hplain : Prints dotenv environment d (Arguments.withoutOut arguments) script) :
      Delivers dotenv environment d arguments report after

/-- A run with these arguments has a script that cannot be encoded, to be written to a file that can
be opened. -/
def Spoils (dotenv : Dotenv) (environment : Variables) (d : Disk) (arguments : List String)
    (out : String) : Prop :=
  ∃ args script, Ready dotenv environment d arguments args script ∧ args.out = some out ∧
    Text.isEncodable script = false ∧ d.Opens (Path.ofString out)

variable {dotenv : Dotenv} {environment : Variables} {d : Disk} {arguments : List String}
  {args : Arguments} {script text : String} {path : Path} {settings : Settings} {strict : Bool}
  {threshold : Nat} {log : List String}

/-! ## The script of a text -/

theorem validate_of_load {known : String → Bool} {v : Value} {warnings : List TypeWarning}
    {loaded : Loaded} (h : Graph.load known strict v = (warnings, .ok loaded)) :
    (Schema.validate known strict v).result = .ok () := by
  cases hcheck : (Schema.validate known strict v).result with
  | ok checked => rfl
  | error e =>
    rw [Graph.load, hcheck] at h
    cases h

theorem script_compileText {style : ScriptStyle} :
    (compileText style threshold strict path text).script = .ok script ↔
      ∃ v warnings loaded, Json.read? text = some v ∧
        Graph.load Registry.builtin.contains strict v = (warnings, .ok loaded) ∧
        script = (Registry.builtin.compile style loaded.graph).text := by
  unfold compileText
  cases hread : Json.read? text with
  | none => simp [refuse]
  | some v =>
    dsimp only
    rw [compileDocument]
    rcases hload : Graph.load Registry.builtin.contains strict v with ⟨warnings, e | loaded⟩
    · cases e <;> simp [hload, refuse]
    · simp [hload, eq_comm]

/-- Without a script there is a code other than zero, or a fault. -/
theorem ending_compileText {style : ScriptStyle} {ending : Ending}
    (h : (compileText style threshold strict path text).script = .error ending) :
    ending ≠ .exit 0 := by
  unfold compileText at h
  cases hread : Json.read? text with
  | none =>
    rw [hread] at h
    cases h
    simp
  | some v =>
    rw [hread] at h
    dsimp only at h
    rw [compileDocument] at h
    rcases hload : Graph.load Registry.builtin.contains strict v with ⟨warnings, e | loaded⟩
    · rw [hload] at h
      cases e <;> cases h <;> simp
    · rw [hload] at h
      cases h

theorem compiles_iff {style : ScriptStyle} (threshold : Nat) : Compiles d args style script ↔
    ∃ text, d.look (Path.ofString args.input) = some (.text text) ∧
      (compileText style threshold args.strict (Path.ofString args.input) text).script =
        .ok script := by
  constructor
  · rintro ⟨hfile, hread, -, hload⟩
    exact ⟨_, hfile, script_compileText.2 ⟨_, _, _, hread, hload, rfl⟩⟩
  · rintro ⟨text, hfile, hscript⟩
    obtain ⟨v, warnings, loaded, hread, hload, rfl⟩ := script_compileText.1 hscript
    exact ⟨hfile, hread, validate_of_load hload, hload⟩

theorem Compiles.unique {style : ScriptStyle} {script' : String} (h : Compiles d args style script)
    (h' : Compiles d args style script') : script = script' := by
  obtain ⟨text, hfile, hscript⟩ := (compiles_iff 0).1 h
  obtain ⟨text', hfile', hscript'⟩ := (compiles_iff 0).1 h'
  obtain rfl := FileEntry.text.inj (Option.some.inj (hfile.symm.trans hfile'))
  exact Except.ok.inj (hscript.symm.trans hscript')

/-- There is one script to deliver at most. -/
theorem Ready.unique {args' : Arguments} {script' : String}
    (h : Ready dotenv environment d arguments args script)
    (h' : Ready dotenv environment d arguments args' script') : args = args' ∧ script = script' := by
  obtain rfl := Except.ok.inj (h.read.symm.trans h'.read)
  obtain ⟨settings, log, threshold, hsettled, -, hcompiles⟩ := h.compiles
  obtain ⟨settings', log', threshold', hsettled', -, hcompiles'⟩ := h'.compiles
  cases hsettled.symm.trans hsettled'
  exact ⟨rfl, hcompiles.unique hcompiles'⟩

/-! ## Up to the delivery -/

/-- With the settings and a script, a run goes on to deliver it. -/
theorem run_compiles (hread : Arguments.read arguments = .ok args)
    (hsettled : settled dotenv environment d args.toChoices = .ok (settings, log))
    (hlevel : Level.threshold settings.level = .ok threshold)
    (h : Compiles d args settings.style script) :
    ∃ report, report.ending = .exit 0 ∧ report.output = "" ∧
      (run (Disk.host dotenv environment) arguments).run d =
        (deliver (Disk.host dotenv environment) args.out report script).run d := by
  obtain ⟨text, hfile, hscript⟩ := (compiles_iff threshold).1 h
  let t := compileText settings.style threshold args.strict (Path.ofString args.input) text
  refine ⟨{ ending := .exit 0, log := log ++ t.log, warnings := t.warnings }, rfl, rfl,
    (run_settled hread hsettled).trans ?_⟩
  rw [compileFile, hlevel]
  dsimp only
  rw [StateT.run_bind, look_on_disk, pure_bind, hfile]
  dsimp only
  rw [hscript]

/-- A run that has a script goes on to deliver it. Nothing has been put out, and the disk is as it
was. -/
theorem run_ready (h : Ready dotenv environment d arguments args script) :
    ∃ report, report.ending = .exit 0 ∧ report.output = "" ∧
      (run (Disk.host dotenv environment) arguments).run d =
        (deliver (Disk.host dotenv environment) args.out report script).run d := by
  obtain ⟨settings, log, threshold, hsettled, hlevel, hcompiles⟩ := h.compiles
  exact run_compiles h.read hsettled hlevel hcompiles

/-- Without a script nothing is delivered: there is no output, and the disk is as it was. -/
theorem compileFile_of_not_compiles
    (h : ∀ threshold script, Level.threshold settings.level = .ok threshold →
      ¬ Compiles d args settings.style script) (log : List String) :
    ∃ report, report.ending ≠ .exit 0 ∧ report.output = "" ∧
      (compileFile (Disk.host dotenv environment) args settings log).run d = (report, d) := by
  rw [compileFile]
  cases hlevel : Level.threshold settings.level with
  | error e => exact ⟨{ ending := .fault (.level e), log }, by simp, rfl, rfl⟩
  | ok threshold =>
    dsimp only
    rw [StateT.run_bind, look_on_disk, pure_bind]
    cases hfile : d.look (Path.ofString args.input) with
    | none => exact ⟨_, by simp, rfl, rfl⟩
    | some entry =>
      cases entry with
      | folder => exact ⟨{ ending := .fault (.file .isFolder), log }, by simp, rfl, rfl⟩
      | binary => exact ⟨{ ending := .fault (.file .notText), log }, by simp, rfl, rfl⟩
      | text text =>
        dsimp only
        cases hscript : (compileText settings.style threshold args.strict
            (Path.ofString args.input) text).script with
        | error ending => exact ⟨_, ending_compileText hscript, rfl, rfl⟩
        | ok script =>
          exact absurd ((compiles_iff threshold).2 ⟨text, hfile, hscript⟩)
            (h threshold script hlevel)

/-- A run that has no script to deliver fails without any output and leaves the disk as it is. -/
theorem run_not_ready (hhelp : Arguments.read arguments ≠ .error .help)
    (h : ∀ args script, ¬ Ready dotenv environment d arguments args script) :
    ∃ report, report.ending ≠ .exit 0 ∧ report.output = "" ∧
      (run (Disk.host dotenv environment) arguments).run d = (report, d) := by
  cases hread : Arguments.read arguments with
  | error stop =>
    cases stop with
    | help => exact absurd hread hhelp
    | usage e =>
      refine ⟨stopped (.usage e), by simp [stopped], rfl, ?_⟩
      rw [run, hread]
      rfl
  | ok args =>
    cases hsettled : settled dotenv environment d args.toChoices with
    | error e =>
      refine ⟨{ ending := .fault (.file e) }, by simp, rfl, ?_⟩
      rw [run_unsettled hread hsettled]
    | ok s =>
      rw [run_settled hread hsettled]
      exact compileFile_of_not_compiles (fun threshold script hlevel hcompiles =>
        h args script ⟨hread, s.1, s.2, threshold, hsettled, hlevel, hcompiles⟩) _

/-! ## The delivery -/

theorem save_on_disk (dotenv : Dotenv) (environment : Variables) (d : Disk) (p : Path)
    (text : String) :
    ((Disk.host dotenv environment).save p text).run d =
      match d.save p text with
      | .ok after => pure (.ok (), after)
      | .error failure => pure (.error failure.error, failure.left) := by
  cases hsave : d.save p text <;> simp [Disk.host, hsave]

/-- Without a file for it the script is put out, if it can be encoded. -/
theorem run_printed (h : Ready dotenv environment d arguments args script)
    (hout : args.out = none) (htext : Text.isEncodable script = true) :
    Prints dotenv environment d arguments script := by
  obtain ⟨report, hending, -, hrun⟩ := run_ready h
  rw [Prints, hrun, hout, deliver, putOut, if_pos htext]
  exact ⟨{ report with output := script }, rfl, hending, rfl⟩

theorem run_unprinted (h : Ready dotenv environment d arguments args script)
    (hout : args.out = none) (htext : Text.isEncodable script = false) :
    ∃ report, (run (Disk.host dotenv environment) arguments).run d = (report, d) ∧
      report.ending = .fault (.file .notEncodable) ∧ report.output = "" := by
  obtain ⟨report, -, houtput, hrun⟩ := run_ready h
  rw [hrun, hout, deliver, putOut, if_neg (Bool.eq_false_iff.1 htext)]
  exact ⟨_, rfl, rfl, houtput⟩

variable {out : String}

theorem run_saved {after : Disk} (h : Ready dotenv environment d arguments args script)
    (hout : args.out = some out) (hsave : d.save (Path.ofString out) script = .ok after) :
    ∃ report, (run (Disk.host dotenv environment) arguments).run d = (report, after) ∧
      report.ending = .exit 0 ∧ report.output = "" := by
  obtain ⟨report, hending, houtput, hrun⟩ := run_ready h
  rw [hrun, hout, deliver, StateT.run_bind, save_on_disk, hsave]
  exact ⟨_, rfl, hending, houtput⟩

theorem run_unsaved {failure : Disk.Failure} (h : Ready dotenv environment d arguments args script)
    (hout : args.out = some out) (hsave : d.save (Path.ofString out) script = .error failure) :
    ∃ report, (run (Disk.host dotenv environment) arguments).run d = (report, failure.left) ∧
      report.ending = .fault (.file failure.error) ∧ report.output = "" := by
  obtain ⟨report, hending, houtput, hrun⟩ := run_ready h
  rw [hrun, hout, deliver, StateT.run_bind, save_on_disk, hsave]
  exact ⟨{ report with ending := .fault (.file failure.error) }, rfl, rfl, houtput⟩

/-- The same arguments without the file have the same script. -/
theorem Ready.withoutOut (h : Ready dotenv environment d arguments args script) :
    Ready dotenv environment d (Arguments.withoutOut arguments) { args with out := none }
      script := by
  refine ⟨Arguments.read_withoutOut h.read, ?_⟩
  obtain ⟨settings, log, threshold, hsettled, hlevel, hfile, hread, hvalid, hload⟩ := h.compiles
  exact ⟨settings, log, threshold, hsettled, hlevel, hfile, hread, hvalid, hload⟩

/-! ## Main theorem -/

/-- There is a script to deliver that can be encoded, and where a file is named for it, the file can
be opened. -/
def Deliverable (dotenv : Dotenv) (environment : Variables) (d : Disk) (arguments : List String) :
    Prop :=
  ∃ args script, Ready dotenv environment d arguments args script ∧
    Text.isEncodable script = true ∧
    ∀ out, args.out = some out → d.Opens (Path.ofString out)

/-- All or nothing comes of a run, but for one case. If it fails, it puts out nothing, and what was
on the disk is there, with more folders at most; if it ends with a code, the disk is as it was. If
it succeeds, it delivers its script and nothing else. And it succeeds whenever the script can be
delivered. The exception is a script that cannot be encoded: the file for it is opened before this
is found out, and is left empty. -/
structure AllOrNothing (dotenv : Dotenv) (environment : Variables) (d : Disk)
    (arguments : List String) (report : Report) (after : Disk) : Prop where
  nothing : report.ending ≠ .exit 0 → report.output = "" ∧
    ((∀ out, ¬ Spoils dotenv environment d arguments out) → d.MoreFolders after)
  unchanged : ∀ code, code ≠ 0 → report.ending = .exit code → after = d
  all : report.ending = .exit 0 → Delivers dotenv environment d arguments report after
  succeeds_iff : report.ending = .exit 0 ↔ Deliverable dotenv environment d arguments
  spoiled : ∀ out, Spoils dotenv environment d arguments out →
    report.ending = .fault (.file .notEncodable) ∧ d.Gains (Path.ofString out) "" after

theorem Deliverable.not_spoils (h : Deliverable dotenv environment d arguments) (out : String) :
    ¬ Spoils dotenv environment d arguments out := by
  rintro ⟨args, script, hready, -, htext, -⟩
  obtain ⟨args', script', hready', htext', -⟩ := h
  obtain ⟨-, rfl⟩ := hready.unique hready'
  rw [htext] at htext'
  cases htext'

theorem AllOrNothing.of_delivers {report : Report} {after : Disk}
    (hending : report.ending = .exit 0)
    (hdelivers : Delivers dotenv environment d arguments report after)
    (hcan : Deliverable dotenv environment d arguments) :
    AllOrNothing dotenv environment d arguments report after where
  nothing := fun hfail => absurd hending hfail
  unchanged := fun _ hcode hother => absurd (Ending.exit.inj (hother.symm.trans hending)) hcode
  all := fun _ => hdelivers
  succeeds_iff := iff_of_true hending hcan
  spoiled := fun out h => absurd h (hcan.not_spoils out)

theorem AllOrNothing.of_fails {report : Report} {after : Disk} (hending : report.ending ≠ .exit 0)
    (houtput : report.output = "") (hfolders : d.MoreFolders after)
    (hcode : ∀ code, report.ending = .exit code → after = d)
    (hcan : ¬ Deliverable dotenv environment d arguments)
    (hspoils : ∀ out, ¬ Spoils dotenv environment d arguments out) :
    AllOrNothing dotenv environment d arguments report after where
  nothing := fun _ => ⟨houtput, fun _ => hfolders⟩
  unchanged := fun code _ => hcode code
  all := fun hsuccess => absurd hsuccess hending
  succeeds_iff := iff_of_false hending hcan
  spoiled := fun out h => absurd h (hspoils out)

/-- A run that has a script for the output puts it out, or nothing when it cannot be encoded. -/
theorem allOrNothing_of_printed (h : Ready dotenv environment d arguments args script)
    (hout : args.out = none) :
    let outcome := (run (Disk.host dotenv environment) arguments).run d
    AllOrNothing dotenv environment d arguments outcome.1 outcome.2 := by
  cases htext : Text.isEncodable script with
  | true =>
    obtain ⟨report, hrun, hending, houtput⟩ := run_printed h hout htext
    rw [hrun]
    refine .of_delivers hending (.printed h hout houtput)
      ⟨args, script, h, htext, fun out hsome => ?_⟩
    rw [hout] at hsome
    cases hsome
  | false =>
    obtain ⟨report, hrun, hending, houtput⟩ := run_unprinted h hout htext
    rw [hrun]
    refine .of_fails (by rw [hending]; exact nofun) houtput (.refl d) (fun _ _ => rfl) ?_ ?_
    · rintro ⟨args', script', h', htext', -⟩
      obtain ⟨rfl, rfl⟩ := h.unique h'
      rw [htext] at htext'
      cases htext'
    · rintro out ⟨args', script', h', hsome, -⟩
      obtain ⟨rfl, rfl⟩ := h.unique h'
      rw [hout] at hsome
      cases hsome

/-- A run that has a script for a file writes the file, leaves it empty when the script cannot be
encoded, or fails to open it. -/
theorem allOrNothing_of_saved (h : Ready dotenv environment d arguments args script)
    (hout : args.out = some out) :
    let outcome := (run (Disk.host dotenv environment) arguments).run d
    AllOrNothing dotenv environment d arguments outcome.1 outcome.2 := by
  have hsaving := d.saving_save (Path.ofString out) script
  cases hsave : d.save (Path.ofString out) script with
  | ok after =>
    rw [hsave] at hsaving
    obtain ⟨hopens, htext, hgains⟩ := hsaving
    obtain ⟨report, hrun, hending, houtput⟩ := run_saved h hout hsave
    rw [hrun]
    refine .of_delivers hending
      (.saved h hout houtput hgains (run_printed h.withoutOut rfl htext))
      ⟨args, script, h, htext, ?_⟩
    intro other hother
    obtain rfl := Option.some.inj (hout.symm.trans hother)
    exact hopens
  | error failure =>
    obtain ⟨report, hrun, hending, houtput⟩ := run_unsaved h hout hsave
    rw [hsave] at hsaving
    rw [hrun]
    have hfault : ∀ code, report.ending ≠ .exit code := by
      intro code hcode
      rw [hending] at hcode
      cases hcode
    cases hsaving with
    | @spoiled after hopens htext hgains =>
      have hspoils : Spoils dotenv environment d arguments out :=
        ⟨args, script, h, hout, htext, hopens⟩
      have hcan : ¬ Deliverable dotenv environment d arguments := fun hcan =>
        hcan.not_spoils out hspoils
      refine ⟨fun _ => ⟨houtput, fun hno => absurd hspoils (hno out)⟩,
        fun code _ hcode => absurd hcode (hfault code), fun hzero => absurd hzero (hfault 0),
        iff_of_false (hfault 0) hcan, ?_⟩
      rintro other ⟨args', script', h', hother, -⟩
      obtain ⟨rfl, rfl⟩ := h.unique h'
      obtain rfl := Option.some.inj (hout.symm.trans hother)
      exact ⟨hending, hgains⟩
    | refused hopens hfolders =>
      refine .of_fails (hfault 0) houtput hfolders
        (fun code hcode => absurd hcode (hfault code)) ?_ ?_
      · rintro ⟨args', script', h', -, hall⟩
        obtain ⟨rfl, rfl⟩ := h.unique h'
        exact hopens (hall out hout)
      · rintro other ⟨args', script', h', hother, -, hother'⟩
        obtain ⟨rfl, rfl⟩ := h.unique h'
        obtain rfl := Option.some.inj (hout.symm.trans hother)
        exact hopens hother'

/-- Whatever loads the variables, this comes of every run that does not ask for help. -/
theorem run_all_or_nothing (dotenv : Dotenv) (environment : Variables) (d : Disk)
    {arguments : List String} (hhelp : Arguments.read arguments ≠ .error .help) :
    let outcome := (run (Disk.host dotenv environment) arguments).run d
    AllOrNothing dotenv environment d arguments outcome.1 outcome.2 := by
  by_cases hready : ∃ args script, Ready dotenv environment d arguments args script
  · obtain ⟨args, script, h⟩ := hready
    cases hout : args.out with
    | none => exact allOrNothing_of_printed h hout
    | some out => exact allOrNothing_of_saved h hout
  · obtain ⟨report, hending, houtput, hrun⟩ := run_not_ready hhelp fun args script h =>
      hready ⟨args, script, h⟩
    rw [hrun]
    refine .of_fails hending houtput (.refl d) (fun _ _ => rfl) ?_ ?_
    · rintro ⟨args, script, h, -⟩
      exact hready ⟨args, script, h⟩
    · rintro out ⟨args, script, h, -⟩
      exact hready ⟨args, script, h⟩

/-- A graph of one wait. -/
def waitText : String :=
  "\x7b\"graph_name\": \"g\", \"nodes\": [\x7b\"id\": \"w\", \"type\": \"wait\", " ++
    "\"config\": \x7b\"ms\": 5\x7d\x7d]\x7d"

theorem read_out :
    Arguments.read ["g.json", "--out", "out/s.js"] =
      .ok { input := "g.json", out := some "out/s.js" } := by
  have hvalue : Argument.classifyAll ["out/s.js"] = .ok [.plain "out/s.js"] :=
    (Argument.classifyAll_cons (by decide)).2
      ⟨_, _, Argument.classify_plain (by decide +kernel), rfl, rfl⟩
  have hout : Argument.classifyAll ["--out", "out/s.js"] =
      .ok [.named .out none, .plain "out/s.js"] :=
    (Argument.classifyAll_cons (by decide)).2
      ⟨_, _, Argument.classify_spelling (by decide +kernel), hvalue, rfl⟩
  have hall : Argument.classifyAll ["g.json", "--out", "out/s.js"] =
      .ok [.plain "g.json", .named .out none, .plain "out/s.js"] :=
    (Argument.classifyAll_cons (by decide)).2
      ⟨_, _, Argument.classify_plain (by decide +kernel), hout, rfl⟩
  rw [Arguments.read, hall]
  rfl

/-- The script of the graph comes to the disk in a folder of its own, and nothing is put out. -/
theorem run_all_or_nothing_wait :
    let d : Disk := { entries := [(["g.json"], .text waitText)] }
    let host := Disk.host EnvFile.dotenv fun _ => none
    let outcome := (run host ["g.json", "--out", "out/s.js"]).run d
    outcome.1.ending = .exit 0 ∧
      Delivers EnvFile.dotenv (fun _ => none) d ["g.json", "--out", "out/s.js"] outcome.1
        outcome.2 ∧
      outcome.2.look (Path.ofString "out/s.js") =
        some (.text "const seq = new Sequence();\n\nseq.wait(5);\n\nseq.play();\n") := by
  intro d host outcome
  have hhelp : Arguments.read ["g.json", "--out", "out/s.js"] ≠ .error .help := by
    rw [read_out]
    exact nofun
  have hending : outcome.1.ending = .exit 0 := code?_eq_some.1 (by decide +kernel)
  exact ⟨hending, (run_all_or_nothing EnvFile.dotenv (fun _ => none) d hhelp).all hending,
    by decide +kernel⟩

/-- The run on a graph whose script holds a half of a surrogate pair does not succeed, and leaves a
file for the script. -/
theorem run_leaves_empty_file :
    let d : Disk := { entries := [(["g.json"], .text halfText)] }
    let host := Disk.host EnvFile.dotenv fun _ => none
    let outcome := (run host ["g.json", "--out", "out/s.js"]).run d
    outcome.1.ending ≠ .exit 0 ∧ d.look (Path.ofString "out/s.js") = none ∧
      outcome.2.look (Path.ofString "out/s.js") = some (.text "") := by
  intro d host outcome
  have hcode : outcome.1.ending.code? = none := by decide +kernel
  refine ⟨fun hending => ?_, by decide +kernel, by decide +kernel⟩
  rw [code?_eq_some.2 hending] at hcode
  cases hcode

end Run

end CueGraph
