import CueGraph.Proofs.Service.Requested
import CueGraph.Service.Plain

/-!
# The plain framework does what is promised

A body with the shape of a document is read field by field, and each field that is there has the
kind that is asked for (`ofValue?_carries`).

Main statement: `Framework.plain_documented`.
-/

namespace CueGraph

open Schema (Absent)
open Document (Shaped ShapedNode)

namespace CompileRequest

variable {v body : Value} {values : List Value} {fields : Fields} {key : String}

theorem object?_eq_some (h : v = .object v.fields) : object? v = some v.fields := by
  rw [h]
  rfl

theorem field?_text (h : Absent fields key ∨ ∃ s, fields.get? key = some (.str s)) :
    ∃ text, field? fields key none textOrNull? = some text ∧ HoldsText fields key text := by
  rcases h with ha | ⟨s, hs⟩
  · refine ⟨none, ?_, ha⟩
    rcases ha with h | h
    · rw [field?, h]
    · rw [field?, h]
      rfl
  · refine ⟨some s, ?_, hs⟩
    rw [field?, hs]
    rfl

theorem field?_flag {flag : Option Bool} (h : HoldsFlag fields key flag) :
    field? fields key none flagOrNull? = some flag := by
  cases flag with
  | none =>
    rcases h with h | h
    · rw [field?, h]
    · rw [field?, h]
      rfl
  | some b =>
    rw [HoldsFlag] at h
    rw [field?, h]
    rfl

theorem field?_config (h : fields.get? "config" = none ∨
    ∃ options, fields.get? "config" = some (.object options)) :
    ∃ options, field? fields "config" [] object? = some options ∧
      (fields.get? "config" = some (.object options) ∨
        (fields.get? "config" = none ∧ options = [])) := by
  rcases h with h | ⟨options, h⟩
  · refine ⟨[], ?_, .inr ⟨h, rfl⟩⟩
    rw [field?, h]
  · refine ⟨options, ?_, .inl h⟩
    rw [field?, h]
    rfl

theorem node?_shaped (h : ShapedNode v) : ∃ node, node? v = some node ∧ HoldsNode v node := by
  obtain ⟨id, hid⟩ := h.id
  obtain ⟨type, htype⟩ := h.type
  obtain ⟨config, hconfig, hholds⟩ := field?_config h.config
  obtain ⟨parent, hparent, hholdsParent⟩ := field?_text h.parent
  obtain ⟨label, hlabel, hholdsLabel⟩ := field?_text h.label
  refine ⟨{ id, type, config, parent, label }, ?_,
    ⟨hid, htype, hholds, hholdsLabel, hholdsParent⟩⟩
  simp only [node?, object?_eq_some h.object, hid, htype, hconfig, hparent, hlabel, text?, bind,
    Option.bind, pure]

theorem nodes?_shaped (h : ∀ node ∈ values, ShapedNode node) :
    ∃ nodes, nodes? (.list values) = some nodes ∧ List.Forall₂ HoldsNode values nodes := by
  rw [nodes?]
  induction values with
  | nil => exact ⟨[], rfl, .nil⟩
  | cons v rest ih =>
    rw [List.forall_mem_cons] at h
    obtain ⟨node, hnode, hholds⟩ := node?_shaped h.1
    obtain ⟨nodes, hnodes, hall⟩ := ih h.2
    refine ⟨node :: nodes, ?_, .cons hholds hall⟩
    rw [List.mapM_cons, hnode, hnodes]
    rfl

/-- A body that carries a document is read as a request with its parts. -/
theorem ofValue?_carries {wrap separate : Option Bool} (hv : Shaped v)
    (h : Carries body v wrap separate) :
    ∃ r, ofValue? body = some r ∧ r.Holds v wrap separate := by
  obtain ⟨name, hname⟩ := hv.name
  obtain ⟨values, hvalues, hshaped⟩ := hv.nodes
  obtain ⟨nodes, hnodes, hholds⟩ := nodes?_shaped hshaped
  have hreadName : field? body.fields "graph_name" "preview" text? = some name := by
    rw [field?, h.name, hname]
    rfl
  have hreadNodes : field? body.fields "nodes" [] nodes? = some nodes := by
    rw [field?, h.nodes, hvalues]
    exact hnodes
  refine ⟨{ name, nodes, wrap, separate }, ?_, ⟨hname, ⟨values, hvalues, hholds⟩, rfl, rfl⟩⟩
  simp only [ofValue?, object?_eq_some h.object, hreadName, hreadNodes, field?_flag h.wrap,
    field?_flag h.separate, bind, Option.bind, pure]

end CompileRequest

namespace Framework

theorem dispatch_posted {body : Value} {r : CompileRequest}
    (h : CompileRequest.ofValue? body = some r) :
    plain.dispatch (Service.posted body) = .call (.compile r) := by
  have hroute : Route.ofTarget? "/api/compile" = some .compile := by decide +kernel
  have hmethod : "POST".map Char.toUpper = Route.method .compile := by decide +kernel
  unfold plain Service.posted
  simp only [hroute, if_pos hmethod]
  unfold callOf
  simp only [Option.bind_some, h]

theorem plain_documented : plain.Documented where
  calls := by
    intro body v wrap separate hv hbody
    obtain ⟨r, hr, hholds⟩ := CompileRequest.ofValue?_carries hv hbody
    exact ⟨r, hholds, dispatch_posted hr⟩
  returns := fun h => if_pos h
  refuses := fun h => if_pos h
  spoils := fun h => if_neg (Bool.eq_false_iff.1 h)
  spoilsRefusal := fun h => if_neg (Bool.eq_false_iff.1 h)

end Framework

end CueGraph
