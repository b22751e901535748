import CueGraph.Catalog.Appearance
import CueGraph.Proofs.Script.Calls

/-!
# Safe calls and tidy node types

Lists of safe options and of safe calls, for each of the shapes that node types build them in. A
type is `Tidy` when its nodes only add tidy lines, and a child only call lines. For a `modifier`
this comes down to its calls (`tidy_modifier`), for an `opener` and for `statements` to their lines.
-/

namespace CueGraph

open Scan

variable {c : Config} {key method : String} {p : Prop} [Decidable p]

/-! ## Options -/

/-- Every text is a name. -/
def AreNames (keys : List String) : Prop := ∀ key ∈ keys, IsName key

theorem AreNames.nil : AreNames [] := List.forall_mem_nil _

theorem AreNames.cons {keys : List String} (hk : IsName key) (h : AreNames keys) :
    AreNames (key :: keys) := List.forall_mem_cons.2 ⟨hk, h⟩

/-- Every option is safe. -/
def SafeSettings (options : List Setting) : Prop := ∀ option ∈ options, option.Safe

namespace SafeSettings

theorem nil : SafeSettings [] := List.forall_mem_nil _

theorem cons {value : Arg} {options : List Setting} (hk : IsName key) (hv : value.Safe)
    (h : SafeSettings options) : SafeSettings (⟨key, value⟩ :: options) :=
  List.forall_mem_cons.2 ⟨⟨hk, hv⟩, h⟩

theorem append {options more : List Setting} (h : SafeSettings options) (h' : SafeSettings more) :
    SafeSettings (options ++ more) := List.forall_mem_append.2 ⟨h, h'⟩

theorem ite {options more : List Setting} (h : SafeSettings options) (h' : SafeSettings more) :
    SafeSettings (if p then options else more) := by
  split
  · exact h
  · exact h'

theorem flatMap {keys : List String} {f : String → List Setting}
    (h : ∀ key ∈ keys, SafeSettings (f key)) : SafeSettings (keys.flatMap f) := by
  intro option ho
  obtain ⟨key, hkey, ho⟩ := List.mem_flatMap.1 ho
  exact h key hkey option ho

end SafeSettings

theorem safe_settingIf {condition : Bool} {value : Arg} (hk : IsName key) (hv : value.Safe) :
    SafeSettings (settingIf condition key value) := .ite (.cons hk hv .nil) .nil

theorem safe_transition (ease delay : Value) : SafeSettings (transition ease delay) := by
  refine .append (safe_settingIf (.ofList rfl) trivial) ?_
  split
  · exact safe_settingIf (.ofList rfl) trivial
  · exact .nil

theorem safe_trueSettings {keys : List String} (h : AreNames keys) :
    SafeSettings (trueSettings c keys) :=
  .flatMap fun key hkey => safe_settingIf (h key hkey) (Arg.safe_flag _)

theorem safe_numeralSetting (hk : IsName key) : SafeSettings (numeralSetting c key) :=
  safe_settingIf hk trivial

theorem safe_textSetting (hk : IsName key) : SafeSettings (textSetting c key) :=
  safe_settingIf hk trivial

theorem safe_offsetSetting : SafeSettings (offsetSetting c) :=
  safe_settingIf (.ofList rfl) (Arg.safe_point _ _)

/-! ## Calls -/

/-- Every call is safe. -/
def SafeCalls (calls : List Call) : Prop := ∀ call ∈ calls, call.Safe

namespace SafeCalls

theorem nil : SafeCalls [] := List.forall_mem_nil _

theorem one {args : List Arg} {options : List Setting} (hm : IsName method)
    (ha : ∀ arg ∈ args, arg.Safe) (ho : SafeSettings options) :
    SafeCalls [⟨method, args, options⟩] := List.forall_mem_singleton.2 ⟨hm, ha, ho⟩

/-- A call without arguments. -/
theorem bare {options : List Setting} (hm : IsName method) (ho : SafeSettings options) :
    SafeCalls [⟨method, [], options⟩] := one hm (List.forall_mem_nil _) ho

/-- A call with one argument. -/
theorem unary {arg : Arg} {options : List Setting} (hm : IsName method) (ha : arg.Safe)
    (ho : SafeSettings options) : SafeCalls [⟨method, [arg], options⟩] :=
  one hm (List.forall_mem_singleton.2 ha) ho

theorem append {calls more : List Call} (h : SafeCalls calls) (h' : SafeCalls more) :
    SafeCalls (calls ++ more) := List.forall_mem_append.2 ⟨h, h'⟩

theorem ite {calls more : List Call} (h : SafeCalls calls) (h' : SafeCalls more) :
    SafeCalls (if p then calls else more) := by
  split
  · exact h
  · exact h'

theorem lines {calls : List Call} (h : SafeCalls calls) :
    ∀ line ∈ calls.map Call.line, IsCallLine line :=
  List.forall_mem_map.2 fun call hc => (h call hc).isCallLine

end SafeCalls

theorem safe_valueCall (hm : IsName method) : SafeCalls (valueCall method c) := by
  unfold valueCall
  split
  · exact .unary hm trivial .nil
  · exact .nil

theorem safe_targetCall {modes : List TargetMode} {fallback : TargetMode} {options : List Setting}
    (hm : IsName method) (ho : SafeSettings options) :
    SafeCalls (targetCall c modes fallback method options) := by
  unfold targetCall
  split
  · exact .unary hm trivial ho
  · exact .nil

namespace Catalog

theorem safe_atSelectedToken : SafeCalls (atSelectedToken c) :=
  .ite (.unary (.ofList rfl) trivial .nil) .nil

theorem safe_positiveCall (hm : IsName method) :
    SafeCalls (positiveCall method key c) :=
  .ite (.unary hm trivial .nil) .nil

theorem safe_textOption (hm : IsName method) :
    SafeCalls (textOption method key c) :=
  .ite (.unary hm trivial .nil) .nil

theorem safe_trimmedOption (hm : IsName method) :
    SafeCalls (trimmedOption method key c) :=
  .ite (.unary hm trivial .nil) .nil

theorem safe_positiveSettings {keys : List String} (h : AreNames keys) :
    SafeSettings (positiveSettings c keys) :=
  .flatMap fun key hkey => safe_settingIf (h key hkey) trivial

end Catalog

/-! ## Node types -/

/-- The nodes only add tidy lines, and those of a child are call lines. -/
def Behaviour.Tidy : Behaviour → Prop
  | root _ compile =>
    ∀ node, ∃ lines, compile node = .pushAll lines ∧ ∀ line ∈ lines, Scan.Tidy line
  | child _ compile =>
    ∀ node, ∃ lines, compile node = .pushAll lines ∧ ∀ line ∈ lines, IsCallLine line
  | utility compile =>
    ∀ node, ∃ lines, compile node = .emitAll lines ∧ ∀ line ∈ lines, Scan.Tidy line

/-- A type whose nodes add tidy lines only. -/
def NodeType.Tidy (t : NodeType) : Prop := t.behaviour.Tidy

variable {label category : String} {families : List Family} {family : Family} {defaults : Fields}

theorem tidy_modifier {calls : Config → List Call} (h : ∀ c, SafeCalls (calls c)) :
    (modifier label category families defaults calls).Tidy :=
  fun node => ⟨_, rfl, (h (.of node.config)).lines⟩

theorem tidy_opener {lines : Config → List String} (h : ∀ c, ∀ line ∈ lines c, Scan.Tidy line) :
    (opener label family defaults lines).Tidy := fun node => ⟨_, rfl, h (.of node.config)⟩

theorem tidy_statements {lines : Config → List String}
    (h : ∀ c, ∀ line ∈ lines c, Scan.Tidy line) : (statements label defaults lines).Tidy :=
  fun node => ⟨_, rfl, h (.of node.config)⟩

theorem tidy_bareModifier (hm : IsName method) :
    (bareModifier label category families method).Tidy := tidy_modifier fun _ => .bare hm .nil

theorem tidy_valueModifier {default : Value} (hm : IsName method) :
    (valueModifier label category families method default).Tidy :=
  tidy_modifier fun _ => safe_valueCall hm

end CueGraph
