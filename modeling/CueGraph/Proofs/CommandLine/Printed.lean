import CueGraph.CommandLine.Run
import CueGraph.Proofs.Document.Restated
import CueGraph.Settings.EnvFile

/-!
# What a run prints

A run on a disk that finds the text of a document and delivers to the output leaves the disk as it
is (`run_on_disk`). What it says comes from the settings, from the document, or from the notices and
diagnostics of the compilation, and no line but that of a diagnostic looks like one
(`compileDocument_eq`, `not_isDiagnosticLine_settled`). That the lines of the loader of variables do
not is one of its promises.
-/

namespace CueGraph

/-! ## Lines of the log -/

/-- A line of the log reports a diagnostic. -/
def IsDiagnosticLine (line : String) : Prop := ∃ d : Diagnostic, line = d.line

/-- The first two characters of the lines that report diagnostics. -/
def diagnosticStarts : List (List Char) := [['[', 'u'], ['[', 'f'], ['[', 'r'], ['[', 'o']]

theorem start_of_isDiagnosticLine {line : String} (h : IsDiagnosticLine line) :
    line.toList.take 2 ∈ diagnosticStarts := by
  obtain ⟨⟨node, type, kind, message⟩, rfl⟩ := h
  cases kind <;> simp [Diagnostic.line, DiagnosticKind.key, diagnosticStarts]

/-- Two characters tell what reports no diagnostic. -/
theorem not_isDiagnosticLine_append {front rest : String} (hlength : 2 ≤ front.toList.length)
    (hstart : front.toList.take 2 ∉ diagnosticStarts) : ¬ IsDiagnosticLine (front ++ rest) := by
  intro h
  have hmem := start_of_isDiagnosticLine h
  rw [String.toList_append, List.take_append_of_le_length hlength] at hmem
  exact hstart hmem

theorem not_isDiagnosticLine_status (message : String) : ¬ IsDiagnosticLine (Run.status message) :=
  not_isDiagnosticLine_append (by decide) (by decide)

theorem not_isDiagnosticLine_notice (n : Notice) : ¬ IsDiagnosticLine n.line := by
  rw [Notice.line, String.append_assoc, String.append_assoc]
  cases n.level <;> exact not_isDiagnosticLine_append (by decide) (by decide)

theorem not_isDiagnosticLine_loader (rest : String) : ¬ IsDiagnosticLine (Dotenv.title ++ rest) :=
  not_isDiagnosticLine_append (by decide) (by decide)

theorem not_isDiagnosticLine_flag (w : FlagWarning) : ¬ IsDiagnosticLine w.message := by
  simp only [FlagWarning.message, String.append_assoc]
  exact not_isDiagnosticLine_append (by decide) (by decide)

namespace Run

variable {dotenv : Dotenv} {environment : Variables} {d : Disk} {args : Arguments}
  {arguments : List String} {text : String} {settings : Settings} {log : List String}
  {threshold : Nat}

/-! ## Settings -/

/-- The settings with which a run on a disk compiles, and what the log says about them. -/
def settled (dotenv : Dotenv) (environment : Variables) (d : Disk) (choices : Choices) :
    Except FileError (Settings × List String) :=
  (dotenv.load d environment).map (settle choices)

/-- Without a file of variables a run settles by the environment. -/
theorem settled_of_empty (h : EnvFile.textOn d = .ok "") (choices : Choices) :
    settled EnvFile.dotenv environment d choices = .ok (settle choices ⟨environment, []⟩) := by
  rw [settled, EnvFile.load_dotenv, h, Except.map, EnvFile.loadText_empty]
  rfl

/-- What the settings say reports no diagnostic. -/
theorem not_isDiagnosticLine_settled (hdotenv : dotenv.Documented) {choices : Choices}
    (h : settled dotenv environment d choices = .ok (settings, log)) :
    ∀ line ∈ log, ¬ IsDiagnosticLine line := by
  rw [settled] at h
  cases hload : dotenv.load d environment with
  | error e =>
    rw [hload] at h
    cases h
  | ok loaded =>
    rw [hload] at h
    cases h
    rw [List.forall_mem_append, List.forall_mem_map]
    refine ⟨fun line hline => ?_, fun w _ => not_isDiagnosticLine_flag w⟩
    obtain ⟨rest, rfl⟩ := hdotenv.titled hload line hline
    exact not_isDiagnosticLine_loader rest

theorem not_isDiagnosticLine_shown (threshold : Nat) (notices : List Notice) :
    ∀ line ∈ shownNotices threshold notices, ¬ IsDiagnosticLine line :=
  List.forall_mem_map.2 fun n _ => not_isDiagnosticLine_notice n

/-! ## Compiling a document -/

/-- What a run says about a document in front of the diagnostics. -/
theorem compileDocument_eq (style : ScriptStyle) (threshold : Nat) {strict : Bool} {v : Value}
    {warnings : List TypeWarning} {loaded : Loaded}
    (h : Graph.load Registry.builtin.contains strict v = (warnings, .ok loaded)) :
    let compiled := Registry.builtin.compile style loaded.graph
    ∃ front, compileDocument style threshold strict v =
        { script := .ok compiled.text,
          log := front ++ compiled.diagnostics.map (·.line), warnings } ∧
      ∀ line ∈ front, ¬ IsDiagnosticLine line := by
  intro compiled
  refine ⟨_, by rw [compileDocument, h], ?_⟩
  rw [List.forall_mem_append, List.forall_mem_append, List.forall_mem_cons,
    List.forall_mem_singleton]
  exact ⟨⟨not_isDiagnosticLine_shown _ _, not_isDiagnosticLine_status _,
    not_isDiagnosticLine_status _⟩, not_isDiagnosticLine_shown _ _⟩

/-! ## Runs on a disk -/

theorem code?_eq_some {ending : Ending} {code : Nat} :
    ending.code? = some code ↔ ending = .exit code := by
  cases ending with
  | exit other => rw [Ending.code?, Option.some.injEq, Ending.exit.injEq]
  | fault e => exact iff_of_false nofun nofun

/-- The report of a run that delivers to the output. -/
def reportOf (log : List String) (c : Compilation) : Report :=
  match c.script with
  | .error ending => { ending, log := log ++ c.log, warnings := c.warnings }
  | .ok script => putOut { ending := .exit 0, log := log ++ c.log, warnings := c.warnings } script

theorem log_putOut (report : Report) (script : String) :
    (putOut report script).log = report.log := by
  rw [putOut]
  split <;> rfl

theorem look_on_disk (dotenv : Dotenv) (environment : Variables) (d : Disk) (p : Path) :
    ((Disk.host dotenv environment).look p).run d = pure (d.look p, d) := rfl

theorem load_on_disk (dotenv : Dotenv) (environment : Variables) (d : Disk)
    (names : List String) :
    ((Disk.host dotenv environment).load names).run d =
      pure (dotenv.load d environment, d) := rfl

theorem compileFile_on_disk (hout : args.out = none)
    (hlevel : Level.threshold settings.level = .ok threshold)
    (hfile : d.look (Path.ofString args.input) = some (.text text)) (log : List String) :
    (compileFile (Disk.host dotenv environment) args settings log).run d =
      (reportOf log
        (compileText settings.style threshold args.strict (Path.ofString args.input) text), d) := by
  rw [compileFile, hlevel]
  dsimp only
  rw [StateT.run_bind, look_on_disk, pure_bind, hfile, hout]
  dsimp only
  generalize compileText settings.style threshold args.strict (Path.ofString args.input) text = c
  obtain ⟨_ | script, said, warnings⟩ := c
  · rfl
  · rfl

/-- A run that can load the variables goes on with the settings. -/
theorem run_settled (hargs : Arguments.read arguments = .ok args)
    (h : settled dotenv environment d args.toChoices = .ok (settings, log)) :
    (run (Disk.host dotenv environment) arguments).run d =
      (compileFile (Disk.host dotenv environment) args settings log).run d := by
  rw [run, hargs]
  dsimp only
  rw [StateT.run_bind, load_on_disk, pure_bind]
  rw [settled] at h
  cases hload : dotenv.load d environment with
  | error e =>
    rw [hload] at h
    cases h
  | ok loaded =>
    rw [hload] at h
    dsimp only
    rw [Except.ok.inj h]

theorem run_unsettled {e : FileError} (hargs : Arguments.read arguments = .ok args)
    (h : settled dotenv environment d args.toChoices = .error e) :
    (run (Disk.host dotenv environment) arguments).run d = ({ ending := .fault (.file e) }, d) := by
  rw [run, hargs]
  dsimp only
  rw [StateT.run_bind, load_on_disk, pure_bind]
  rw [settled] at h
  cases hload : dotenv.load d environment with
  | error e' =>
    rw [hload] at h
    obtain rfl := Except.error.inj h
    rfl
  | ok loaded =>
    rw [hload] at h
    cases h

/-- A run that finds the text of a document and delivers to the output leaves the disk as it is. -/
theorem run_on_disk (hargs : Arguments.read arguments = .ok args) (hout : args.out = none)
    (h : settled dotenv environment d args.toChoices = .ok (settings, log))
    (hlevel : Level.threshold settings.level = .ok threshold)
    (hfile : d.look (Path.ofString args.input) = some (.text text)) :
    (run (Disk.host dotenv environment) arguments).run d =
      (reportOf log
        (compileText settings.style threshold args.strict (Path.ofString args.input) text), d) :=
  (run_settled hargs h).trans (compileFile_on_disk hout hlevel hfile log)

/-- A graph of one macro whose name is a half of a surrogate pair. -/
def halfText : String :=
  "\x7b\"graph_name\": \"g\", \"nodes\": [\x7b\"id\": \"m\", \"type\": \"macro\", " ++
    "\"config\": \x7b\"macroName\": \"\\ud800\"\x7d\x7d]\x7d"

end Run

end CueGraph
