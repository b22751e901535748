import Mathlib.Data.List.Nodup
import CueGraph.Proofs.NodeType.Registered

/-!
# Loading a catalog

Loading a catalog puts in the entries that its offers make (`Catalog.entries`), one after the other,
and it goes through whatever the registry held (`Catalog.load_eq_iff`). No id is twice in a catalog
(`Catalog.Grown.nodup`), so an id that the catalog has stands for the type of its entry after that,
in its old place, and the new ids come behind the old ones (`Registry.ids_putAll`).
-/

namespace CueGraph

/-! ## Catalogs -/

/-- The node type that an offer describes. -/
def Offer.described? : Offer → Option NodeType
  | foreign _ => none
  | nodeType label category defaults claim behaviour =>
    behaviour.map fun behaviour => { label, category, defaults, behaviour, claim }

/-- The entry that an offer under an id makes. -/
def Offer.entry? : Value × Offer → Option (String × NodeType)
  | (.str id, offer) => offer.described?.map (id, ·)
  | _ => none

/-- The entries that a catalog makes, in order. -/
def Catalog.entries (c : Catalog) : List (String × NodeType) := c.filterMap Offer.entry?

/-- The built-in catalog, and what it grows to when offers are added. -/
inductive Catalog.Grown : Catalog → Prop
  | builtin : Grown Catalog.builtin
  | add {c c' : Catalog} {id : Value} {offer : Offer} (h : Grown c) (ha : c.add id offer = .ok c') :
      Grown c'

theorem Offer.Fits.entry? {id : Value} {offer : Offer} {entry : String × NodeType}
    (h : offer.Fits id entry) : Offer.entry? (id, offer) = some entry := by
  obtain rfl := h.made
  rw [h.id]
  rfl

theorem Value.sameKey_self (v : Value) : v.sameKey v = true := by
  unfold sameKey
  cases v.keyNumber? <;> simp

namespace Catalog

/-- An id that is there already cannot be added. -/
theorem Grown.nodup {c : Catalog} (h : c.Grown) : (c.map (·.1)).Nodup := by
  induction h with
  | builtin =>
    have hids : Catalog.builtin.map (·.1) = (builtinTypes.map (·.1)).map Value.str := by
      simp [Catalog.builtin, Catalog.ofTypes]
    rw [hids]
    exact builtinTypes_ids.map fun _ _ h => Value.str.inj h
  | @add c c' id offer _ ha ih =>
    obtain rfl := eq_of_add ha
    rw [List.map_append, List.map_singleton, List.nodup_append]
    refine ⟨ih, List.nodup_singleton id, ?_⟩
    rintro _ hmem _ hid rfl
    rw [List.mem_singleton] at hid
    obtain ⟨entry, hentry, rfl⟩ := List.mem_map.1 hmem
    have hany : c.any (·.1.sameKey id) = true :=
      List.any_eq_true.2 ⟨entry, hentry, by rw [hid]; exact Value.sameKey_self id⟩
    rw [Catalog.add, hany] at ha
    split at ha <;> cases ha

/-- No two entries of a catalog have one id. -/
theorem nodup_entries {c : Catalog} (h : (c.map (·.1)).Nodup) : (c.entries.map (·.1)).Nodup := by
  have hids : ∀ c : Catalog, ∀ id ∈ c.entries.map (·.1), Value.str id ∈ c.map (·.1) := by
    intro c id hid
    obtain ⟨entry, hentry, rfl⟩ := List.mem_map.1 hid
    obtain ⟨offered, hoffered, hmade⟩ := List.mem_filterMap.1 hentry
    refine List.mem_map.2 ⟨offered, hoffered, ?_⟩
    obtain ⟨id, offer⟩ := offered
    cases id with
    | str s =>
      obtain ⟨t, -, rfl⟩ := Option.map_eq_some_iff.1 hmade
      rfl
    | _ => cases hmade
  induction c with
  | nil => exact List.nodup_nil
  | cons offered rest ih =>
    rw [List.map_cons, List.nodup_cons] at h
    rw [entries, List.filterMap_cons]
    cases hmade : Offer.entry? offered with
    | none => exact ih h.2
    | some entry =>
      dsimp only
      rw [List.map_cons, List.nodup_cons]
      refine ⟨fun hmem => h.1 ?_, ih h.2⟩
      have hid := hids rest entry.1 hmem
      have hown := hids [offered] entry.1 (by simp [entries, hmade])
      rw [List.map_singleton, List.mem_singleton] at hown
      rwa [← hown]

end Catalog

/-! ## Loading -/

namespace Registry

variable {r r' : Registry} {id : String} {t : NodeType} {entries : List (String × NodeType)}

/-- Puts in entries one after the other. -/
def putAll (r : Registry) (entries : List (String × NodeType)) : Registry :=
  entries.foldl (fun r entry => r.put entry.1 entry.2) r

theorem ids_put (r : Registry) (id : String) (t : NodeType) :
    (r.put id t).ids = if id ∈ r.ids then r.ids else r.ids ++ [id] := by
  split
  · next h => exact ids_put_of_mem r id t h
  · next h =>
    rw [put_of_not_mem h, ids, List.map_append]
    rfl

/-- New ids come behind the old ones, in the order of the entries. -/
theorem ids_putAll (hids : (entries.map (·.1)).Nodup) (r : Registry) :
    (r.putAll entries).ids = r.ids ++ (entries.map (·.1)).filter (· ∉ r.ids) := by
  induction entries generalizing r with
  | nil => exact (List.append_nil _).symm
  | cons entry rest ih =>
    rw [List.map_cons, List.nodup_cons] at hids
    refine (ih hids.2 (r.put entry.1 entry.2)).trans ?_
    rw [ids_put, List.map_cons]
    split
    · next h => rw [List.filter_cons_of_neg (by simpa using h)]
    · next h =>
      rw [List.filter_cons_of_pos (by simpa using h), List.append_assoc, List.singleton_append]
      congr 2
      refine List.filter_congr fun id hid => ?_
      have hne : id ≠ entry.1 := fun he => hids.1 (he ▸ hid)
      simp [hne]

theorem get?_putAll_of_not_mem (h : id ∉ entries.map (·.1)) (r : Registry) :
    (r.putAll entries).get? id = r.get? id := by
  induction entries generalizing r with
  | nil => rfl
  | cons entry rest ih =>
    rw [List.map_cons, List.mem_cons, not_or] at h
    exact (ih h.2 (r.put entry.1 entry.2)).trans ((get?_put ..).trans (if_neg h.1))

theorem get?_putAll_of_mem (hids : (entries.map (·.1)).Nodup) {entry : String × NodeType}
    (h : entry ∈ entries) (r : Registry) : (r.putAll entries).get? entry.1 = some entry.2 := by
  induction entries generalizing r with
  | nil => cases h
  | cons first rest ih =>
    rw [List.map_cons, List.nodup_cons] at hids
    rcases List.mem_cons.1 h with rfl | h
    · refine (get?_putAll_of_not_mem hids.1 (r.put entry.1 entry.2)).trans ?_
      rw [get?_put, if_pos rfl]
    · exact ih hids.2 h (r.put first.1 first.2)

/-- A type that an id stands for already is put in without a trace. -/
theorem put_of_get? (h : r.get? id = some t) : r.put id t = r := by
  obtain ⟨types⟩ := r
  rw [put, Registry.mk.injEq]
  rw [get?] at h
  induction types with
  | nil => cases h
  | cons entry rest ih =>
    rw [List.lookup_cons] at h
    rw [putType]
    by_cases he : entry.1 = id
    · subst he
      simp only [beq_self_eq_true, Option.some.injEq] at h
      rw [if_pos rfl, ← h]
    · have hne : (id == entry.1) = false := by simpa using Ne.symm he
      rw [hne] at h
      rw [if_neg he, ih h]

theorem putAll_of_get? (h : ∀ entry ∈ entries, r.get? entry.1 = some entry.2) :
    r.putAll entries = r := by
  induction entries with
  | nil => rfl
  | cons entry rest ih =>
    obtain ⟨hentry, hrest⟩ := List.forall_mem_cons.1 h
    rw [putAll, List.foldl_cons, put_of_get? hentry]
    exact ih hrest

/-- What was put in can be put in again without a trace. -/
theorem putAll_putAll (hids : (entries.map (·.1)).Nodup) (r : Registry) :
    (r.putAll entries).putAll entries = r.putAll entries :=
  putAll_of_get? fun _ hentry => get?_putAll_of_mem hids hentry r

end Registry

/-- A catalog loads when each of its offers is fit, and then puts in its entries. -/
theorem Catalog.load_eq_iff {c : Catalog} {r r' : Registry} :
    c.load r = (r', none) ↔
      (∀ offered ∈ c, ∃ entry, offered.2.Fits offered.1 entry) ∧ r' = r.putAll c.entries := by
  induction c generalizing r with
  | nil => simp [load, entries, Registry.putAll, eq_comm]
  | cons offered rest ih =>
    obtain ⟨id, offer⟩ := offered
    rw [load, List.forall_mem_cons]
    cases hr : r.register id offer with
    | ok r₁ =>
      obtain ⟨entry, hfits, rfl⟩ := Registry.register_eq_ok_iff.1 hr
      have hentries : entries ((id, offer) :: rest) = entry :: entries rest :=
        List.filterMap_cons_some hfits.entry?
      have hfirst : ∃ entry, offer.Fits id entry := ⟨entry, hfits⟩
      dsimp only
      rw [ih, hentries]
      simp only [hfirst, true_and]
      rfl
    | error e =>
      refine iff_of_false (fun h => by cases h) ?_
      rintro ⟨⟨⟨entry, hfits⟩, -⟩, -⟩
      have hok : r.register id offer = .ok (r.put entry.1 entry.2) :=
        Registry.register_eq_ok_iff.2 ⟨entry, hfits, rfl⟩
      rw [hr] at hok
      cases hok

/-- Every offer of the built-in catalog is fit, so it loads into any registry. -/
theorem Catalog.builtin_fits :
    ∀ offered ∈ Catalog.builtin, ∃ entry, offered.2.Fits offered.1 entry := by
  intro offered hoffered
  obtain ⟨entry, hentry, rfl⟩ := List.mem_map.1 hoffered
  obtain ⟨hid, hclaim, hfault⟩ := builtinTypes_fit entry hentry
  exact ⟨entry, NodeType.offer_fits hid hclaim (Option.isNone_iff_eq_none.1 hfault)⟩

end CueGraph
