import CueGraph.Proofs.CommandLine.Delivered
import CueGraph.Proofs.Settings.Flags

/-!
# What settles the style of a script

The wrapping and the empty lines between entries are two options of a script. The arguments can
switch each of them off; otherwise the value of a variable decides, which the environment gives or
else the file of variables (`effective`). What the loader of this file promises is all that is used
of it.

Main statement: `run_precedence`.
-/

namespace CueGraph

namespace Run

open Arguments (Gives)
open Settings (Switches Unknown wrapName separateName)

/-- The values of the variables: those of the environment, though they may be empty, and otherwise
those that a file gives. -/
def effective (environment values : Variables) : Variables :=
  fun name => (environment name).or (values name)

/-- The state of an option that some argument switches off: off if the arguments give this one, and
otherwise as the value of the variable leaves it. -/
def Decided (f : OptionName) (arguments : List String) (value : Option String) (on : Bool) : Prop :=
  (Gives f arguments → on = false) ∧ (¬ Gives f arguments → Switches value on)

/-- A line of the log is a warning about the variable of a flag. -/
def IsFlagLine (line : String) : Prop := ∃ w : FlagWarning, line = w.message

/-- These are the warnings in a log about variables with these values: one about each variable of a
flag whose value is neither blank nor a word for a flag. No other line could be taken for one. -/
structure Warns (value : String → Option String) (log : List String)
    (warnings : List FlagWarning) : Prop where
  once : (warnings.map (·.name)).Sublist [wrapName, separateName]
  mem_iff : ∀ w, w ∈ warnings ↔
    w.name ∈ [wrapName, separateName] ∧ value w.name = some w.value ∧ Unknown w.value
  log_eq : ∃ front rest, log = front ++ warnings.map (·.message) ++ rest ∧
    ∀ line ∈ front ++ rest, ¬ IsFlagLine line

variable {dotenv : Dotenv} {environment values : Variables} {d : Disk} {arguments : List String}
  {args : Arguments} {settings : Settings} {log : List String}

/-! ## The values of the variables -/

/-- A run settles by the values of the variables. -/
theorem settled_effective (hdotenv : dotenv.Documented)
    (hvalues : dotenv.values d environment = .ok values) (choices : Choices) :
    ∃ said, (∀ line ∈ said, ∃ rest, line = Dotenv.title ++ rest) ∧
      settled dotenv environment d choices =
        .ok (settle choices ⟨effective environment values, said⟩) := by
  obtain ⟨said, hload⟩ := hdotenv.adds hvalues
  refine ⟨said, hdotenv.titled hload, ?_⟩
  rw [settled, hload]
  rfl

theorem decided_of_read {f : OptionName} {value : Option String}
    (hread : Arguments.read arguments = .ok args) (hf : f.takesValue = false) :
    Decided f arguments value ((Settings.readFlag value).state && !args.flag f) := by
  have hgives := Arguments.flag_of_read hread hf
  constructor
  · intro h
    rw [hgives.2 h, Bool.not_true, Bool.and_false]
  · intro h
    have hflag : args.flag f = false := by
      rw [← Bool.not_eq_true]
      exact fun hon => h (hgives.1 hon)
    rw [hflag, Bool.not_false, Bool.and_true]
    exact Settings.switches_readFlag value

theorem decided_wrap (loaded : LoadedVariables) (hread : Arguments.read arguments = .ok args) :
    Decided .noWrap arguments (loaded.value wrapName)
      (settle args.toChoices loaded).1.style.wrap :=
  decided_of_read hread rfl

theorem decided_separate (loaded : LoadedVariables) (hread : Arguments.read arguments = .ok args) :
    Decided .compact arguments (loaded.value separateName)
      (settle args.toChoices loaded).1.style.separate :=
  decided_of_read hread rfl

/-- The presence of the argument and the value of the variable leave one state. -/
theorem Decided.unique {f : OptionName} {value value' : Option String} {on on' : Bool}
    {arguments' : List String} (h : Decided f arguments value on)
    (h' : Decided f arguments' value' on') (hsame : Gives f arguments' ↔ Gives f arguments)
    (hvalue : value' = value) : on' = on := by
  subst hvalue
  by_cases hgives : Gives f arguments
  · rw [h.1 hgives, h'.1 (hsame.2 hgives)]
  · rw [← Settings.switches_iff.1 (h.2 hgives),
      Settings.switches_iff.1 (h'.2 fun hg => hgives (hsame.1 hg))]

/-! ## The warnings -/

/-- The first character tells what is no warning about a flag. -/
theorem not_isFlagLine_append {front rest : String} {first : Char}
    (hfirst : front.toList.head? = some first) (hne : first ≠ 'I') :
    ¬ IsFlagLine (front ++ rest) := by
  rintro ⟨w, hw⟩
  have hhead := congrArg (fun line => line.toList.head?) hw
  simp only [FlagWarning.message, String.append_assoc] at hhead
  rw [String.toList_append, List.head?_append, hfirst, String.toList_append,
    List.head?_append] at hhead
  exact hne (Option.some.inj hhead)

theorem not_isFlagLine_loader (rest : String) : ¬ IsFlagLine (Dotenv.title ++ rest) :=
  not_isFlagLine_append rfl (by decide)

theorem not_isFlagLine_status (message : String) : ¬ IsFlagLine (status message) :=
  not_isFlagLine_append rfl (by decide)

theorem not_isFlagLine_failure (message : String) : ¬ IsFlagLine (failure message) :=
  not_isFlagLine_append rfl (by decide)

theorem not_isFlagLine_diagnostic (diagnostic : Diagnostic) : ¬ IsFlagLine diagnostic.line := by
  simp only [Diagnostic.line, String.append_assoc]
  exact not_isFlagLine_append rfl (by decide)

theorem not_isFlagLine_notice (n : Notice) : ¬ IsFlagLine n.line := by
  have hlevel : n.level = .warning ∨ n.level = .debug := by cases n <;> simp [Notice.level]
  simp only [Notice.line, String.append_assoc]
  rcases hlevel with hlevel | hlevel
  · rw [hlevel]
    exact not_isFlagLine_append rfl (by decide)
  · rw [hlevel]
    exact not_isFlagLine_append rfl (by decide)

theorem not_isFlagLine_refuse (e : SchemaError) (warnings : List TypeWarning) :
    ∀ line ∈ (refuse e warnings).log, ¬ IsFlagLine line := by
  rw [refuse, List.forall_mem_singleton]
  exact not_isFlagLine_failure _

theorem not_isFlagLine_shown (threshold : Nat) (notices : List Notice) :
    ∀ line ∈ shownNotices threshold notices, ¬ IsFlagLine line :=
  List.forall_mem_map.2 fun n _ => not_isFlagLine_notice n

theorem not_isFlagLine_compileText (style : ScriptStyle) (threshold : Nat) (strict : Bool)
    (path : Path) (text : String) :
    ∀ line ∈ (compileText style threshold strict path text).log, ¬ IsFlagLine line := by
  unfold compileText
  cases Json.read? text with
  | none => exact not_isFlagLine_refuse _ _
  | some v =>
    dsimp only
    rw [compileDocument]
    rcases Graph.load Registry.builtin.contains strict v with ⟨warnings, e | loaded⟩
    · cases e with
      | schema e => exact not_isFlagLine_refuse e warnings
      | missing key => exact List.forall_mem_nil _
      | shape e => exact List.forall_mem_nil _
      | graph e => exact List.forall_mem_nil _
    · dsimp only
      rw [List.forall_mem_append, List.forall_mem_append, List.forall_mem_append,
        List.forall_mem_cons, List.forall_mem_singleton, List.forall_mem_map]
      exact ⟨⟨⟨not_isFlagLine_shown _ _, not_isFlagLine_status _, not_isFlagLine_status _⟩,
        not_isFlagLine_shown _ _⟩, fun diagnostic _ => not_isFlagLine_diagnostic diagnostic⟩

/-- What a run says behind the lines about its settings is no warning about a flag. -/
theorem log_compileFile (dotenv : Dotenv) (environment : Variables) (d : Disk) (args : Arguments)
    (settings : Settings) (log : List String) :
    ∃ rest, ((compileFile (Disk.host dotenv environment) args settings log).run d).1.log =
        log ++ rest ∧
      ∀ line ∈ rest, ¬ IsFlagLine line := by
  have hnone : ∀ line ∈ ([] : List String), ¬ IsFlagLine line := List.forall_mem_nil _
  rw [compileFile]
  cases Level.threshold settings.level with
  | error e => exact ⟨[], (List.append_nil _).symm, hnone⟩
  | ok threshold =>
    dsimp only
    rw [StateT.run_bind, look_on_disk, pure_bind]
    cases d.look (Path.ofString args.input) with
    | none => exact ⟨_, rfl, List.forall_mem_singleton.2 (not_isFlagLine_failure _)⟩
    | some entry =>
      cases entry with
      | folder => exact ⟨[], (List.append_nil _).symm, hnone⟩
      | binary => exact ⟨[], (List.append_nil _).symm, hnone⟩
      | text text =>
        dsimp only
        have hsaid := not_isFlagLine_compileText settings.style threshold args.strict
          (Path.ofString args.input) text
        generalize compileText settings.style threshold args.strict (Path.ofString args.input)
          text = t at hsaid
        cases t.script with
        | error ending => exact ⟨t.log, rfl, hsaid⟩
        | ok script =>
          cases args.out with
          | none => exact ⟨t.log, log_putOut _ _, hsaid⟩
          | some out =>
            dsimp only
            rw [deliver, StateT.run_bind, save_on_disk]
            cases d.save (Path.ofString out) script with
            | error failure => exact ⟨t.log, rfl, hsaid⟩
            | ok after =>
              refine ⟨_, List.append_assoc _ _ _, ?_⟩
              rw [List.forall_mem_append, List.forall_mem_singleton]
              exact ⟨hsaid, not_isFlagLine_status _⟩

/-- The warnings that the two variables call for, each by its own value. -/
theorem mem_both {value : String → Option String} {w : FlagWarning} :
    w ∈ (Settings.readFlag (value wrapName)).warnings wrapName ++
        (Settings.readFlag (value separateName)).warnings separateName ↔
      w.name ∈ [wrapName, separateName] ∧ value w.name = some w.value ∧ Unknown w.value := by
  rw [List.mem_append, Settings.mem_warnings, Settings.mem_warnings, List.mem_pair]
  constructor
  · rintro (⟨hname, hvalue⟩ | ⟨hname, hvalue⟩)
    · rw [hname]
      exact ⟨.inl rfl, hvalue⟩
    · rw [hname]
      exact ⟨.inr rfl, hvalue⟩
  · rintro ⟨hname | hname, hvalue⟩
    · rw [hname] at hvalue
      exact .inl ⟨hname, hvalue⟩
    · rw [hname] at hvalue
      exact .inr ⟨hname, hvalue⟩

/-- A run warns by the values of the variables that were loaded. -/
theorem warns_run {loaded : LoadedVariables} (hread : Arguments.read arguments = .ok args)
    (hsaid : ∀ line ∈ loaded.said, ∃ rest, line = Dotenv.title ++ rest)
    (hsettled : settled dotenv environment d args.toChoices =
      .ok (settle args.toChoices loaded)) :
    ∃ warnings, Warns loaded.value
      ((run (Disk.host dotenv environment) arguments).run d).1.log warnings := by
  let value := loaded.value
  let warnings := (Settings.readFlag (value wrapName)).warnings wrapName ++
    (Settings.readFlag (value separateName)).warnings separateName
  obtain ⟨rest, hlog, hrest⟩ := log_compileFile dotenv environment d args
    (settle args.toChoices loaded).1 (loaded.said ++ warnings.map (·.message))
  have hfront : ∀ line ∈ loaded.said, ¬ IsFlagLine line := by
    intro line hline
    obtain ⟨rest, rfl⟩ := hsaid line hline
    exact not_isFlagLine_loader rest
  refine ⟨warnings, ?_, fun w => mem_both, loaded.said, rest, ?_, ?_⟩
  · rw [List.map_append]
    exact (Settings.map_name_warnings _ _).append (Settings.map_name_warnings _ _)
  · rw [run_settled hread hsettled]
    exact hlog
  · exact List.forall_mem_append.2 ⟨hfront, hrest⟩

/-! ## Main theorem -/

/-- A run that can read its arguments and the values in the file of variables. The argument
`--no-wrap` or the value of one variable decides whether the script is wrapped, and `--compact` or
the value of the other one whether empty lines separate its entries; in the style that comes of it
the document is compiled to the script that is delivered. The run warns about each of the two
variables whose value is neither blank nor a word for a flag, and about nothing else. Neither option
depends on anything but its own argument and variable: where these are the same in another run, so
is the option. -/
theorem run_precedence (hdotenv : dotenv.Documented)
    (hvalues : dotenv.values d environment = .ok values)
    (hread : Arguments.read arguments = .ok args) :
    let value := effective environment values
    let outcome := (run (Disk.host dotenv environment) arguments).run d
    ∃ settings log, settled dotenv environment d args.toChoices = .ok (settings, log) ∧
      Decided .noWrap arguments (value wrapName) settings.style.wrap ∧
      Decided .compact arguments (value separateName) settings.style.separate ∧
      (∀ threshold script, Level.threshold settings.level = .ok threshold →
        Compiles d args settings.style script → ∃ report,
          outcome = (deliver (Disk.host dotenv environment) args.out report script).run d) ∧
      (∃ warnings, Warns value outcome.1.log warnings) ∧
      ∀ {environment' values' d' arguments' args'}, dotenv.values d' environment' = .ok values' →
        Arguments.read arguments' = .ok args' →
        let value' := effective environment' values'
        ∃ settings' log', settled dotenv environment' d' args'.toChoices = .ok (settings', log') ∧
          ((Gives .noWrap arguments' ↔ Gives .noWrap arguments) →
            value' wrapName = value wrapName → settings'.style.wrap = settings.style.wrap) ∧
          ((Gives .compact arguments' ↔ Gives .compact arguments) →
            value' separateName = value separateName →
            settings'.style.separate = settings.style.separate) := by
  intro value outcome
  obtain ⟨said, hsaid, hsettled⟩ := settled_effective hdotenv hvalues args.toChoices
  have hwrap := decided_wrap ⟨value, said⟩ hread
  have hseparate := decided_separate ⟨value, said⟩ hread
  refine ⟨_, _, hsettled, hwrap, hseparate, ?_, warns_run hread hsaid hsettled, ?_⟩
  · intro threshold script hlevel hscript
    obtain ⟨report, -, -, hrun⟩ := run_compiles hread hsettled hlevel hscript
    exact ⟨report, hrun⟩
  · intro environment' values' d' arguments' args' hvalues' hread' value'
    obtain ⟨said', -, hsettled'⟩ := settled_effective hdotenv hvalues' args'.toChoices
    exact ⟨_, _, hsettled', hwrap.unique (decided_wrap ⟨value', said'⟩ hread'),
      hseparate.unique (decided_separate ⟨value', said'⟩ hread')⟩

/-- A file of variables in the folder above. -/
def flagsText : String := "VISUALENCER_WRAP=off\nVISUALENCER_SEPARATE_ENTRIES=perhaps\n"

/-- The environment knows the first variable, which hides the word in the file; the argument comes
before the second one, about which there is a warning. -/
theorem run_precedence_hidden :
    let d : Disk := { entries :=
      [([".env"], .text flagsText), (["work"], .folder), (["work", "g.json"], .text waitText)]
                      present := ["work"] }
    let environment : Variables := fun name => if name = wrapName then some " " else none
    let values := EnvFile.valuesIn flagsText environment
    let arguments := ["g.json", "--compact"]
    let outcome := (run (Disk.host EnvFile.dotenv environment) arguments).run d
    EnvFile.dotenv.values d environment = .ok values ∧
      outcome.1.output = "const seq = new Sequence();\n\nseq.wait(5);\n\nseq.play();\n" ∧
      Decided .noWrap arguments (some " ") true ∧
      Decided .compact arguments (some "perhaps") false ∧
      ∃ warnings, Warns (effective environment values) outcome.1.log warnings ∧
        ⟨separateName, "perhaps"⟩ ∈ warnings := by
  intro d environment values arguments outcome
  have htext : EnvFile.textOn d = .ok flagsText := rfl
  have hvalues : EnvFile.dotenv.values d environment = .ok values := by
    rw [EnvFile.values_dotenv, htext]
    rfl
  have hperhaps : effective environment values separateName = some "perhaps" := by
    decide +kernel
  have hwarning : ⟨separateName, "perhaps"⟩ ∈
      (Settings.readFlag (some "perhaps")).warnings separateName := by
    decide +kernel
  obtain ⟨-, -, hunknown⟩ := Settings.mem_warnings.1 hwarning
  obtain ⟨settings, log, hsettled, hwrap, hseparate, -, ⟨warnings, hwarns⟩, -⟩ :=
    run_precedence EnvFile.dotenv_documented hvalues Arguments.read_compact
  rw [settled, EnvFile.load_dotenv, htext] at hsettled
  have hsettle := Except.ok.inj hsettled
  have hon : settings.style.wrap = true :=
    (congrArg (fun s => s.1.style.wrap) hsettle).symm.trans (by decide +kernel)
  have hoff : settings.style.separate = false :=
    (congrArg (fun s => s.1.style.separate) hsettle).symm.trans (by decide +kernel)
  have hblank : effective environment values wrapName = some " " := rfl
  rw [hblank, hon] at hwrap
  rw [hperhaps, hoff] at hseparate
  exact ⟨hvalues, by decide +kernel, hwrap, hseparate, warnings, hwarns,
    (hwarns.mem_iff _).2 ⟨by simp, hperhaps, hunknown⟩⟩

end Run

end CueGraph
