import CueGraph.Proofs.CommandLine.Arguments
import CueGraph.Proofs.CommandLine.Printed
import CueGraph.Proofs.Service.Plain

/-!
# The service and the command line agree

The service makes the document of a request anew and checks that one, the command line checks the
document of the file; each has its own way to settle how the script is written. Where they settle on
the same, they refuse the same documents with the same message, and compile the others to the same
script with the same diagnostics. What comes of it is sent or put out only if it can be encoded, and
for a half of a surrogate pair in a text of the document it may be neither (`respond_fails_half`).

Main statement: `respond_agrees`.
-/

namespace CueGraph

namespace Service

/-! ## Agreement -/

/-- A value is sent with a status, unless it cannot be encoded; then sending breaks off. -/
def Sends (status : Nat) (v : Value) (sent : Sent) : Prop :=
  (v.isEncodable = true → sent = .response status v) ∧ (v.isEncodable = false → sent = .crashed)

/-- A run succeeds and puts out a script, unless the script cannot be encoded; then it puts out
nothing and ends with this fault. -/
def PutsOut (script : String) (report : Report) : Prop :=
  (Text.isEncodable script = true → report.ending = .exit 0 ∧ report.output = script) ∧
    (Text.isEncodable script = false →
      report.ending = .fault (.file .notEncodable) ∧ report.output = "")

/-- A value of a response and a line of a log report the same diagnostic. -/
def SameDiagnostic (v : Value) (line : String) : Prop :=
  ∃ node type kind message,
    v = .object [("nodeId", .str node), ("type", .str type), ("kind", .str kind),
      ("message", .str message)] ∧
    line = "[" ++ kind ++ "] " ++ node ++ ": " ++ message

/-- What is sent and what a run reports agree, where the log of the run has other lines in front. -/
inductive Agree (front : List String) (sent : Sent) (report : Report) : Prop
  /-- The document is refused, with one message. -/
  | refused (message : String)
      (hsent : Sends 400 (.object [("detail", .str message)]) sent)
      (hending : report.ending = .exit 1) (houtput : report.output = "")
      (hlog : report.log = front ++ ["[error] Schema validation failed: " ++ message])
  /-- The document is compiled, to one script and the same diagnostics in order. -/
  | compiled (script : String) (diagnostics : List Value) (lines : List String)
      (hsent : Sends 200
        (.object [("script", .str script), ("diagnostics", .list diagnostics)]) sent)
      (hrun : PutsOut script report) (hsame : List.Forall₂ SameDiagnostic diagnostics lines)
      (hlog : report.log = front ++ lines)

variable {framework : Framework} {style : ScriptStyle} {body v : Value}
  {wrap separate : Option Bool} {front log : List String} {sent : Sent} {report : Report}

theorem status?_eq_none : sent.status? = none ↔ sent = .crashed := by
  cases sent with
  | response status v => exact iff_of_false nofun nofun
  | invalid => exact iff_of_false nofun nofun
  | crashed => exact iff_of_true rfl rfl

theorem Sends.status {status : Nat} (h : Sends status v sent) (hsent : sent ≠ .crashed) :
    sent.status? = some status := by
  cases hv : v.isEncodable with
  | true =>
    rw [h.1 hv]
    rfl
  | false => exact absurd (h.2 hv) hsent

theorem PutsOut.ending_ne {script : String} (h : PutsOut script report) :
    report.ending ≠ .exit 1 := by
  intro hending
  cases hs : Text.isEncodable script with
  | true =>
    have hzero := (h.1 hs).1
    rw [hending] at hzero
    cases hzero
  | false =>
    have hfault := (h.2 hs).1
    rw [hending] at hfault
    cases hfault

/-- Unless sending breaks off, a refusal is sent exactly if the run ends with one. -/
theorem Agree.refused_iff (h : Agree front sent report) (hsent : sent ≠ .crashed) :
    sent.status? = some 400 ↔ report.ending = .exit 1 := by
  cases h with
  | refused message hs hending houtput hlog => exact iff_of_true (hs.status hsent) hending
  | compiled script diagnostics lines hs hrun hsame hlog =>
    rw [hs.status hsent]
    exact iff_of_false (by decide) hrun.ending_ne

/-! ## The two sides -/

theorem sends_value (h : framework.Documented) (v : Value) :
    Sends 200 v (framework.send (.ok v)) :=
  ⟨h.returns, h.spoils⟩

theorem sends_refusal (h : framework.Documented) (status : Nat) (text : String) :
    Sends status (.object [("detail", .str text)])
      (framework.send (.error (.refused status text))) :=
  ⟨h.refuses, h.spoilsRefusal⟩

theorem putsOut_putOut (script : String) (log : List String) (warnings : List TypeWarning) :
    PutsOut script (Run.putOut { ending := .exit 0, log, warnings } script) := by
  refine ⟨fun h => ?_, fun h => ?_⟩
  · rw [Run.putOut, if_pos h]
    exact ⟨rfl, rfl⟩
  · rw [Run.putOut, if_neg (Bool.eq_false_iff.1 h)]
    exact ⟨rfl, rfl⟩

theorem forall₂_sameDiagnostic (diagnostics : List Diagnostic) :
    List.Forall₂ SameDiagnostic (diagnostics.map diagnosticValue)
      (diagnostics.map (·.line)) := by
  rw [List.forall₂_map_left_iff, List.forall₂_map_right_iff, List.forall₂_same]
  exact fun d _ => ⟨d.node, d.type, d.kind.key, d.message, rfl, rfl⟩

/-- What is sent for a body that carries a document goes by the check of this document. -/
theorem respond_posted (hframework : framework.Documented) (hv : Document.Shaped v)
    (hb : CompileRequest.Carries body v wrap separate) :
    respond framework style (posted body) = framework.send
      (match (Graph.load Registry.builtin.contains false v).2 with
      | .error (.schema e) => .error (.refused 400 e.message)
      | .error _ => .error .broken
      | .ok loaded =>
        let compiled := Registry.builtin.compile
          ⟨wrap.getD style.wrap, separate.getD style.separate⟩ loaded.graph
        .ok (.object [("script", .str compiled.text),
          ("diagnostics", .list (compiled.diagnostics.map diagnosticValue))])) := by
  obtain ⟨r, hholds, hdispatch⟩ := hframework.calls hv hb
  have hload := Document.load_same (hholds.same hv) Registry.builtin.contains false
  obtain rfl := hholds.wrap
  obtain rfl := hholds.separate
  rw [respond, hdispatch]
  dsimp only
  rw [answer, compile, hload]
  rfl

/-- Behind the lines about the settings a run on a document agrees with what is sent for it. -/
theorem agree_of_load (style : ScriptStyle) (hframework : framework.Documented)
    (hlog : ∀ line ∈ log, ¬ IsDiagnosticLine line) (hv : Document.Shaped v)
    (hb : CompileRequest.Carries body v wrap separate) (threshold : Nat) :
    ∃ front, (∀ line ∈ front, ¬ IsDiagnosticLine line) ∧
      Agree front (respond framework style (posted body))
        (Run.reportOf log (Run.compileDocument
          ⟨wrap.getD style.wrap, separate.getD style.separate⟩ threshold false v)) := by
  rw [respond_posted hframework hv hb]
  cases hcheck : (Schema.validate Registry.builtin.contains false v).result with
  | error fault =>
    have hload : Graph.load Registry.builtin.contains false v =
        ((Schema.validate Registry.builtin.contains false v).warnings, .error (.schema fault)) := by
      rw [Graph.load, hcheck]
    rw [Run.compileDocument, hload]
    exact ⟨log, hlog, .refused fault.message (sends_refusal hframework 400 _) rfl rfl rfl⟩
  | ok checked =>
    -- what passes the check is read, so the endpoint does not break off
    obtain ⟨values, facts, hvalues, hall, hc⟩ := Document.checked_of_validate hcheck
    obtain ⟨loaded, hread, -⟩ := Document.ofDocument_restates hvalues hall hc
    have hload : Graph.load Registry.builtin.contains false v =
        ((Schema.validate Registry.builtin.contains false v).warnings, .ok loaded) := by
      rw [Graph.load, hcheck]
      exact congrArg _ hread
    obtain ⟨front, hcompile, hfront⟩ := Run.compileDocument_eq
      ⟨wrap.getD style.wrap, separate.getD style.separate⟩ threshold hload
    rw [hcompile, hload]
    refine ⟨log ++ front, List.forall_mem_append.2 ⟨hlog, hfront⟩, ?_⟩
    refine .compiled _ _ _ (sends_value hframework _) (putsOut_putOut _ _ _)
      (forall₂_sameDiagnostic _) ?_
    rw [Run.reportOf]
    dsimp only
    rw [Run.log_putOut, List.append_assoc]

/-! ## Main theorem -/

variable {dotenv : Dotenv} {environment : Variables} {d : Disk} {arguments : List String}
  {args : Arguments} {settings : Settings} {threshold : Nat} {text : String}

/-- A document with the shape that a request needs is posted to the service, and compiled by a run
that is not strict, finds the document in a file and delivers to the output. When the options of the
run settle on the same style as the request, the two agree. Either both refuse the document with one
message: the service sends it with the status 400, and the run ends with the code 1; or both compile
it: the service sends the script that the run puts out, with the diagnostics that the log of the run
reports, in order and behind all its other lines. Exactly where what is to be sent or put out cannot
be encoded, sending breaks off or the run ends with a fault. -/
theorem respond_agrees (hframework : framework.Documented) (hdotenv : dotenv.Documented)
    (hv : Document.Shaped v) (hb : CompileRequest.Carries body v wrap separate)
    (hargs : Arguments.read arguments = .ok args) (hstrict : args.strict = false)
    (hout : args.out = none)
    (hsettled : Run.settled dotenv environment d args.toChoices = .ok (settings, log))
    (hlevel : Level.threshold settings.level = .ok threshold)
    (hfile : d.look (Path.ofString args.input) = some (.text text))
    (hread : Json.read? text = some v)
    (hstyle : settings.style = ⟨wrap.getD style.wrap, separate.getD style.separate⟩) :
    let sent := respond framework style (posted body)
    let outcome := (run (Disk.host dotenv environment) arguments).run d
    outcome.2 = d ∧
      (sent ≠ .crashed → (sent.status? = some 400 ↔ outcome.1.ending = .exit 1)) ∧
      ∃ front, (∀ line ∈ front, ¬ IsDiagnosticLine line) ∧ Agree front sent outcome.1 := by
  intro sent outcome
  obtain ⟨front, hfront, hagree⟩ := agree_of_load style hframework
    (Run.not_isDiagnosticLine_settled hdotenv hsettled) hv hb threshold
  have htext : ∀ path, Run.compileText settings.style threshold false path text =
      Run.compileDocument settings.style threshold false v := by
    intro path
    rw [Run.compileText, hread]
  have houtcome : outcome =
      (Run.reportOf log (Run.compileDocument settings.style threshold false v), d) :=
    (Run.run_on_disk hargs hout hsettled hlevel hfile).trans (by rw [hstrict, htext])
  rw [← hstyle] at hagree
  rw [houtcome]
  exact ⟨rfl, hagree.refused_iff, front, hfront, hagree⟩

/-- A wait, and a node of a type that is not built in. -/
def fogText : String :=
  "\x7b\"graph_name\": \"g\", \"nodes\": [\x7b\"id\": \"w\", \"type\": \"wait\", " ++
    "\"config\": \x7b\"ms\": 5\x7d\x7d, \x7b\"id\": \"x\", \"type\": \"fog\"\x7d]\x7d"

def fogDocument : Value :=
  .object [("graph_name", .str "g"), ("nodes", .list
    [.object [("id", .str "w"), ("type", .str "wait"), ("config", .object [("ms", .int 5)])],
      .object [("id", .str "x"), ("type", .str "fog")]])]

theorem shaped_fogDocument : Document.Shaped fogDocument := by
  refine ⟨rfl, ⟨"g", rfl⟩, _, rfl, ?_⟩
  rw [List.forall_mem_cons, List.forall_mem_singleton]
  exact ⟨⟨rfl, ⟨"w", rfl⟩, ⟨"wait", rfl⟩, .inr ⟨_, rfl⟩, .inl (.inl rfl), .inl (.inl rfl)⟩,
    ⟨rfl, ⟨"x", rfl⟩, ⟨"fog", rfl⟩, .inl rfl, .inl (.inl rfl), .inl (.inl rfl)⟩⟩

/-- The request takes the wrapping as it comes, and does without empty lines as the run does. -/
theorem respond_agrees_fog :
    let body : Value := .object (fogDocument.fields ++
      [("wrap", .null), ("separate_entries", .bool false)])
    let d : Disk := { entries := [(["g.json"], .text fogText)] }
    let sent := respond Framework.plain {} (posted body)
    let outcome := (run (Disk.host EnvFile.dotenv fun _ => none) ["g.json", "--compact"]).run d
    sent.status? = some 200 ∧
      outcome.1.output = "const seq = new Sequence();\n\nseq.wait(5);\n\nseq.play();\n" ∧
      ∃ front, (∀ line ∈ front, ¬ IsDiagnosticLine line) ∧ Agree front sent outcome.1 := by
  intro body d sent outcome
  have hcarries : CompileRequest.Carries body fogDocument none (some false) :=
    ⟨rfl, rfl, rfl, .inr rfl, rfl⟩
  have hsettled : Run.settled EnvFile.dotenv (fun _ => none) d { compact := true } =
      .ok ({ style := ⟨true, false⟩ }, []) := Run.settled_of_empty rfl _
  have hfile : d.look (Path.ofString "g.json") = some (.text fogText) := by decide +kernel
  have hread : Json.read? fogText = some fogDocument := by rfl
  obtain ⟨-, -, hagree⟩ := @respond_agrees Framework.plain {} body fogDocument none (some false) []
    EnvFile.dotenv (fun _ => none) d _ _ _ _ _ Framework.plain_documented
    EnvFile.dotenv_documented shaped_fogDocument hcarries Arguments.read_compact rfl rfl hsettled rfl hfile
    hread rfl
  exact ⟨by decide +kernel, by decide +kernel, hagree⟩

/-- A macro whose name is a half of a surrogate pair. -/
def halfDocument : Value :=
  .object [("graph_name", .str "g"), ("nodes", .list
    [.object [("id", .str "m"), ("type", .str "macro"),
      ("config", .object [("macroName", .str (String.ofList (Text.Point.spelling (.half 0))))])]])]

theorem shaped_halfDocument : Document.Shaped halfDocument := by
  refine ⟨rfl, ⟨"g", rfl⟩, _, rfl, ?_⟩
  rw [List.forall_mem_singleton]
  exact ⟨rfl, ⟨"m", rfl⟩, ⟨"macro", rfl⟩, .inr ⟨_, rfl⟩, .inl (.inl rfl), .inl (.inl rfl)⟩

/-- The document has no fault, but nothing is sent for it, and a run on it ends without a code. -/
theorem respond_fails_half :
    let d : Disk := { entries := [(["g.json"], .text Run.halfText)] }
    Json.read? Run.halfText = some halfDocument ∧ Document.Shaped halfDocument ∧
      (Schema.validate Registry.builtin.contains false halfDocument).result = .ok () ∧
      respond Framework.plain {} (posted halfDocument) = .crashed ∧
      ((run (Disk.host EnvFile.dotenv fun _ => none) ["g.json"]).run d).1.ending.code? = none :=
  ⟨rfl, shaped_halfDocument, rfl, status?_eq_none.1 (by decide +kernel), by decide +kernel⟩

end Service

end CueGraph
