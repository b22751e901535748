import Mathlib.Data.List.Flatten
import CueGraph.Proofs.Compile.Owned
import CueGraph.Proofs.Script.Names

/-!
# The names that a script declares

All declarations of a compilation get their names from the counter of one pass. Where the types
declare under some stems only (`Under`), so does the compilation (`made_visitAll`), and when these
stems are apart, the declarations of the script introduce different names (`introduces_compile`).

Main statement: `names_distinct`.
-/

namespace CueGraph

variable {stems : String → Prop}

/-- A program that declares under these stems only, whatever it finds. -/
def Program.Under {α : Type} (stems : String → Prop) : Program α → Prop
  | done _ => True
  | push _ next => next.Under stems
  | extend _ next => next.Under stems
  | reserve _ _ _ next => next.Under stems
  | fill _ _ next => ∀ filled, (next filled).Under stems
  | slotValue _ next => ∀ value, (next value).Under stems
  | declare stem _ next => stems stem ∧ ∀ name, (next name).Under stems
  | emit _ next => next.Under stems
  | report _ next => next.Under stems

theorem Program.made_run {α : Type} {prog : Program α} (h : prog.Under stems) {w : Workspace}
    (hw : w.pass.Made stems) : (prog.run w).2.pass.Made stems := by
  induction prog generalizing w with
  | done => exact hw
  | push line next ih => exact ih h hw
  | extend lines next ih => exact ih h hw
  | reserve slot line value next ih => exact ih h hw
  | fill slot line next ih => exact ih _ (h _) hw
  | slotValue slot next ih => exact ih _ (h _) hw
  | declare stem expression next ih => exact ih _ (h.2 _) (hw.declare h.1 expression)
  | emit line next ih => exact ih h hw
  | report diagnostic next ih => exact ih h hw

/-- Reports make no difference to what is declared. -/
theorem Pass.Made.alike {p q : Pass} (h : p.Made stems) (hq : q.Alike p) : q.Made stems := by
  obtain ⟨calls, hcalls, hdeclarations, hcounter⟩ := h
  exact ⟨calls, hcalls, hq.declarations_eq.trans hdeclarations, hq.counter_eq.trans hcounter⟩

namespace Registry

variable {r : Registry} {g : Graph} {p : Progress} {node : Node} {w : Workspace}

/-- A registry of types that declare under these stems only. -/
def Under (stems : String → Prop) (r : Registry) : Prop :=
  ∀ type b, r.behaviour? type = some b → ∀ node, (b.compile node).Under stems

/-! ## Visits -/

theorem made_chain (hr : r.Under stems) (children : List Node) (hw : w.pass.Made stems) :
    (r.chain children w).pass.Made stems := by
  induction children generalizing w with
  | nil => exact hw
  | cons child rest ih =>
    rw [chain_cons]
    apply ih
    split
    · unfold join
      split
      · next families compile hb =>
        have hcompile : (compile child).Under stems := hr _ _ hb child
        exact Program.made_run hcompile hw
      · exact hw
    · exact hw

theorem made_passFrom (hr : r.Under stems) (g : Graph) (node : Node) {pass : Pass}
    (h : pass.Made stems) : (r.passFrom g pass node).Made stems := by
  unfold passFrom opened?
  cases hb : r.behaviour? node.type with
  | none => exact h
  | some b =>
    have hcompile : (b.compile node).Under stems := hr _ _ hb node
    cases b with
    | root family compile =>
      have hopen := Program.made_run hcompile (w := ⟨{ node := node.id, family }, pass⟩) h
      rw [Behaviour.compile] at hopen
      dsimp only
      generalize ((compile node).run ⟨{ node := node.id, family }, pass⟩).2 = w at hopen ⊢
      by_cases hempty : w.block.isEmpty = true
      · rw [if_pos hempty]
        exact hopen
      · rw [if_neg hempty]
        exact made_chain hr (g.childrenOf node.id) hopen
    | child families compile => exact h
    | utility compile => exact Program.made_run hcompile h

theorem made_visit (hr : r.Under stems) (g : Graph) (node : Node) (h : p.pass.Made stems) :
    (r.visit g p node).pass.Made stems :=
  (made_passFrom hr g node h).alike (visit_alike g p node)

theorem made_visitAll (hr : r.Under stems) (g : Graph) : (r.visitAll g).pass.Made stems :=
  List.foldlRecOn (motive := fun p : Progress => p.pass.Made stems) g.nodes _
    (Pass.made_empty stems) fun _ h node _ => made_visit hr g node h

/-! ## Declarations of a script -/

theorem sublistForall₂_of_sublist {α β : Type} {R : α → β → Prop} {l l' : List α} {m : List β}
    (h : l'.Sublist l) (hm : List.SublistForall₂ R l m) : List.SublistForall₂ R l' m := by
  induction hm generalizing l' with
  | nil =>
    rw [List.sublist_nil.1 h]
    exact .nil
  | cons hab _ ih =>
    cases h with
    | cons _ hrest => exact .cons_right (ih hrest)
    | cons_cons _ hrest => exact .cons hab (ih hrest)
  | cons_right _ ih => exact .cons_right (ih h)

/-- The declarations of a script are among those of the compilation, in order. -/
theorem declarations_sublist (r : Registry) (style : ScriptStyle) (g : Graph) :
    (r.compile style g).declarations.Sublist (r.visitAll g).pass.declarations := by
  have hall : (r.visitAll g).pass.declarations =
      (r.turns g 0 g.nodes).flatMap fun t => r.raised g t.2 t.1 :=
    (foldl_visit_declarations g g.nodes rfl).trans (List.nil_append _)
  rw [Compiled.declarations, compile_entries_turns, List.filterMap_eq_flatMap_toList,
    List.flatMap_assoc, hall]
  apply List.Sublist.flatMap_right
  intro t _
  cases he : r.ownEntry g t.2 t.1 with
  | none => exact List.nil_sublist _
  | some e =>
    rw [Option.toList_some, List.flatMap_singleton, declarations_ownEntry he]

theorem introduces_compile (hr : r.Under stems) (hstems : Apart stems) (style : ScriptStyle)
    (g : Graph) : ∃ names : List String, names.Nodup ∧
      List.Forall₂ Introduces (r.compile style g).declarations names := by
  obtain ⟨names, hnames, hall⟩ := (made_visitAll hr g).introduces hstems
  obtain ⟨declared, hdeclared, hsublist⟩ := List.sublistForall₂_iff.1
    (sublistForall₂_of_sublist (declarations_sublist r style g) hall)
  exact ⟨declared, hnames.sublist hsublist, hdeclared⟩

end Registry

/-! ## Main theorem -/

/-- The calls of one pass, each for a name from one of some stems. Two of them get the same name
exactly if the number of the later call begins with a number that the stem of the earlier one has
behind the stem of the later one. So all names are different, whatever the calls are, exactly if no
stem is another one with a number behind. In that case the declarations of every script introduce
different names, if the types of the registry declare under these stems. -/
theorem names_distinct (stems : String → Prop) :
    (∀ (calls : List NameCall) (i j : ℕ) (_ : i < calls.length) (_ : j < calls.length), i < j →
      ((({} : Pass).performAll calls).1[i]? = (({} : Pass).performAll calls).1[j]? ↔
        ∃ n > 0, calls[i].stem = calls[j].stem ++ toString n ∧
          toString (j + 1) = toString n ++ toString (i + 1))) ∧
    ((∀ calls : List NameCall, (∀ call ∈ calls, stems call.stem) →
      (({} : Pass).performAll calls).1.Nodup) ↔ Apart stems) ∧
    (Apart stems → ∀ (r : Registry) (style : ScriptStyle) (g : Graph), r.Under stems →
      ∃ names : List String, names.Nodup ∧
        List.Forall₂ Introduces (r.compile style g).declarations names) :=
  ⟨fun calls _ _ _ hj hij => Pass.names_clash_iff calls hij hj, Pass.names_nodup_iff,
    fun hstems _ style g hr => Registry.introduces_compile hr hstems style g⟩

/-- The nodes declare under the name of their type, and show what they declare. -/
def shownTypes : Registry :=
  let shown (stem : String) : String × NodeType :=
    (stem, { behaviour := .utility fun node => do
      let name ← Program.declareName stem node.id
      .emit ("show(" ++ name ++ ");") (.done ()) })
  ⟨["frame", "style"].map shown⟩

def shownGraph : Graph :=
  { nodes := [{ id := "a", type := "frame" }, { id := "b", type := "style" },
      { id := "c", type := "frame" }] }

theorem names_distinct_shown :
    let stems : String → Prop := (· ∈ ["frame", "style"])
    let declarations := (shownTypes.compile {} shownGraph).declarations
    Apart stems ∧ shownTypes.Under stems ∧
      declarations = ["const frame1 = a;", "const style2 = b;", "const frame3 = c;"] ∧
      ∃ names : List String, names.Nodup ∧ List.Forall₂ Introduces declarations names := by
  intro stems declarations
  have hstems : Apart stems := by
    apply apart_of_no_digit
    have hlast : ∀ stem ∈ ["frame", "style"],
        stem.toList.getLast?.all (fun c => !c.isDigit) = true := by
      decide +kernel
    intro stem hstem c hc
    simpa using (Option.all_eq_true _ _).1 (hlast stem hstem) c hc
  have hr : shownTypes.Under stems := by
    intro type b hb node
    rw [Registry.behaviour?, Option.map_eq_some_iff] at hb
    obtain ⟨t, ht, rfl⟩ := hb
    obtain ⟨stem, hstem, hshown⟩ := List.mem_map.1 (Registry.mem_types_of_get? ht)
    obtain ⟨rfl, rfl⟩ := Prod.mk.inj hshown
    exact ⟨hstem, fun _ => True.intro⟩
  obtain ⟨-, -, hscript⟩ := names_distinct stems
  exact ⟨hstems, hr, by decide +kernel, hscript hstems shownTypes {} shownGraph hr⟩

/-- A declaration under `a1`, nine more names, and a declaration under `a`. -/
def clashingCalls : List NameCall :=
  .declare "a1" "1" :: List.replicate 9 (.next "x") ++ [.declare "a" "2"]

/-- The first call and the eleventh get the same name, so it is declared twice. -/
theorem names_clash :
    ¬ (({} : Pass).performAll clashingCalls).1.Nodup ∧
      (({} : Pass).performAll clashingCalls).2.declarations =
        ["const a11 = 1;", "const a11 = 2;"] := by
  decide +kernel

end CueGraph
