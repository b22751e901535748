import Mathlib.Data.List.Induction
import CueGraph.Proofs.NodeType.Loaded

/-!
# Registries in the order of their history

A registry is changed by registrations, by taking ids out, and by loading the catalog. What it holds
after changes that succeed can be told from their history alone, a list of events
(`RegistryChange.events`). An id stands for the type of its last registration, if it was not taken
out after that (`Current`). It stands where its first registration since it was last taken out has
put it (`EnteredAt`), so a registration of an id that is known moves nothing.

Main statement: `Registry.changes_ordered`. Changes that succeed are a replay of their events
(`Registry.changeAll?_eq`).
-/

namespace CueGraph

/-! ## Events -/

/-- What can happen to an id. -/
inductive RegistryEvent where
  | registered (id : String) (t : NodeType)
  | unregistered (id : String)

namespace RegistryEvent

def id : RegistryEvent → String
  | registered id _ => id
  | unregistered id => id

end RegistryEvent

/-- The last event of the history that is about the id registers this type. -/
def Current (history : List RegistryEvent) (id : String) (t : NodeType) : Prop :=
  ∃ before after, history = before ++ .registered id t :: after ∧ ∀ event ∈ after, event.id ≠ id

/-- The id came in at this place of the history and has stayed since: it is registered there, was
not there before, and is not taken out after. -/
structure EnteredAt (history : List RegistryEvent) (id : String) (place : Nat) : Prop where
  registered : ∃ t, history[place]? = some (.registered id t)
  fresh : ¬∃ t, Current (history.take place) id t
  kept : .unregistered id ∉ history.drop (place + 1)

/-- The first id came in before the second. -/
def EnteredBefore (history : List RegistryEvent) (first second : String) : Prop :=
  ∃ place later, EnteredAt history first place ∧ EnteredAt history second later ∧ place < later

section

variable {history : List RegistryEvent} {event : RegistryEvent} {id : String} {t : NodeType}
  {place : Nat}

theorem current_concat : Current (history ++ [event]) id t ↔
    event = .registered id t ∨ event.id ≠ id ∧ Current history id t := by
  constructor
  · rintro ⟨before, after, heq, hafter⟩
    rcases List.eq_nil_or_concat after with rfl | ⟨rest, last, rfl⟩
    · obtain ⟨-, hevent⟩ := List.append_inj' heq rfl
      exact .inl (List.singleton_inj.1 hevent)
    · rw [List.concat_eq_append, ← List.cons_append, ← List.append_assoc] at heq
      obtain ⟨hhistory, hevent⟩ := List.append_inj' heq rfl
      obtain rfl := List.singleton_inj.1 hevent
      rw [List.concat_eq_append, List.forall_mem_append, List.forall_mem_singleton] at hafter
      exact .inr ⟨hafter.2, before, rest, hhistory, hafter.1⟩
  · rintro (rfl | ⟨hne, before, after, rfl, hafter⟩)
    · exact ⟨history, [], rfl, List.forall_mem_nil _⟩
    · refine ⟨before, after ++ [event], by simp, ?_⟩
      rw [List.forall_mem_append, List.forall_mem_singleton]
      exact ⟨hafter, hne⟩

theorem EnteredAt.lt (h : EnteredAt history id place) : place < history.length := by
  obtain ⟨t, ht⟩ := h.registered
  exact (List.getElem?_eq_some_iff.1 ht).1

/-- An id that is registered and not taken out after that stands for a type. -/
theorem exists_current {before after : List RegistryEvent}
    (h : history = before ++ .registered id t :: after) (hafter : .unregistered id ∉ after) :
    ∃ t, Current history id t := by
  subst h
  induction after using List.reverseRecOn with
  | nil => exact ⟨t, before, [], rfl, List.forall_mem_nil _⟩
  | append_singleton rest event ih =>
    rw [List.mem_append, List.mem_singleton, not_or] at hafter
    rw [← List.cons_append, ← List.append_assoc]
    by_cases hid : event.id = id
    · cases event with
      | registered other s => exact ⟨s, current_concat.2 (.inl (by rw [← hid]; rfl))⟩
      | unregistered other => exact absurd (by rw [← hid]; rfl) hafter.2
    · exact (ih hafter.1).imp fun _ hcurrent => current_concat.2 (.inr ⟨hid, hcurrent⟩)

/-- An id comes in once, since it is not taken out after that. -/
theorem EnteredAt.le {later : Nat} (h : EnteredAt history id place)
    (hlater : EnteredAt history id later) : later ≤ place := by
  by_contra hlt
  obtain ⟨t, ht⟩ := h.registered
  have hplace : (history.take later)[place]? = some (.registered id t) := by
    rw [List.getElem?_take_of_lt (Nat.lt_of_not_le hlt), ht]
  obtain ⟨hlength, hget⟩ := List.getElem?_eq_some_iff.1 hplace
  have hsplit : history.take later =
      history.take place ++ .registered id t :: (history.take later).drop (place + 1) := by
    rw [← hget, ← List.drop_eq_getElem_cons hlength]
    conv_lhs => rw [← List.take_append_drop place (history.take later)]
    rw [List.take_take, Nat.min_eq_left (Nat.le_of_not_le hlt)]
  refine hlater.fresh (exists_current hsplit fun hmem => h.kept ?_)
  exact ((List.take_sublist later history).drop (place + 1)).subset hmem

/-- An id stays where it came in, unless it is taken out. -/
theorem EnteredAt.concat (h : EnteredAt history id place) (hevent : event ≠ .unregistered id) :
    EnteredAt (history ++ [event]) id place where
  registered := by
    rw [List.getElem?_append_left h.lt]
    exact h.registered
  fresh := by
    rw [List.take_append_of_le_length (Nat.le_of_lt h.lt)]
    exact h.fresh
  kept := by
    rw [List.drop_append_of_le_length h.lt, List.mem_append, List.mem_singleton, not_or]
    exact ⟨h.kept, hevent.symm⟩

/-- An id that is not there comes in with its registration. -/
theorem enteredAt_concat (h : ¬∃ t, Current history id t) :
    EnteredAt (history ++ [.registered id t]) id history.length where
  registered := ⟨t, List.getElem?_concat_length⟩
  fresh := by rwa [List.take_left]
  kept := by simp

end

namespace Registry

/-! ## Replays -/

/-- What an event leaves. -/
def apply (r : Registry) : RegistryEvent → Registry
  | .registered id t => r.put id t
  | .unregistered id => r.unregister id

/-- What the events of a history leave of a new registry. -/
def replay (history : List RegistryEvent) : Registry := history.foldl apply {}

variable {r r' : Registry} {history : List RegistryEvent} {event : RegistryEvent} {id : String}
  {t : NodeType}

theorem replay_concat : replay (history ++ [event]) = (replay history).apply event := by
  rw [replay, List.foldl_append]
  rfl

theorem ids_unregister (r : Registry) (id : String) :
    (r.unregister id).ids = r.ids.filter (· != id) := by
  rw [unregister, ids, ids, List.filter_map]
  rfl

theorem mem_ids_iff : id ∈ r.ids ↔ ∃ t, r.get? id = some t := by
  rw [← Option.isSome_iff_exists, get?, List.lookup_isSome_iff, ids, List.mem_map]
  constructor
  · rintro ⟨entry, hentry, rfl⟩
    exact ⟨entry, hentry, beq_self_eq_true _⟩
  · rintro ⟨entry, hentry, hid⟩
    exact ⟨entry, hentry, (eq_of_beq hid).symm⟩

theorem get?_unregister (r : Registry) (id other : String) :
    (r.unregister id).get? other = if other = id then none else r.get? other := by
  obtain ⟨types⟩ := r
  rw [unregister, get?, get?]
  induction types with
  | nil => simp
  | cons entry rest ih =>
    by_cases h : entry.1 = id
    · rw [List.filter_cons_of_neg (by simpa using h), ih, List.lookup_cons, h]
      by_cases hother : other = id
      · rw [if_pos hother, if_pos hother]
      · have hne : (other == id) = false := by simpa using hother
        rw [if_neg hother, if_neg hother, hne]
    · rw [List.filter_cons_of_pos (by simpa using h), List.lookup_cons, List.lookup_cons, ih]
      by_cases hother : other = id
      · have hne : (other == entry.1) = false := by simpa [hother] using Ne.symm h
        rw [if_pos hother, if_pos hother, hne]
      · rw [if_neg hother, if_neg hother]

/-- An id stands for the type of its last registration, unless it was taken out after that. -/
theorem get?_replay (history : List RegistryEvent) (id : String) (t : NodeType) :
    (replay history).get? id = some t ↔ Current history id t := by
  induction history using List.reverseRecOn with
  | nil =>
    refine iff_of_false (fun h => by cases h) ?_
    rintro ⟨before, after, heq, -⟩
    exact absurd heq (by simp)
  | append_singleton history event ih =>
    rw [replay_concat, current_concat, ← ih]
    cases event with
    | registered other s =>
      rw [apply, get?_put]
      by_cases h : id = other
      · simp [h, RegistryEvent.id]
      · simp [h, Ne.symm h, RegistryEvent.id]
    | unregistered other =>
      rw [apply, get?_unregister]
      by_cases h : id = other
      · simp [h, RegistryEvent.id]
      · simp [h, Ne.symm h, RegistryEvent.id]

/-- Every id has come in at some place of the history. -/
theorem enteredAt_of_mem (h : id ∈ (replay history).ids) :
    ∃ place, EnteredAt history id place := by
  induction history using List.reverseRecOn with
  | nil => cases h
  | append_singleton history event ih =>
    rw [replay_concat] at h
    have hstays : id ∈ (replay history).ids → event ≠ .unregistered id →
        ∃ place, EnteredAt (history ++ [event]) id place := fun hmem hevent =>
      (ih hmem).imp fun _ hplace => hplace.concat hevent
    cases event with
    | registered other t =>
      by_cases hmem : id ∈ (replay history).ids
      · exact hstays hmem nofun
      · have hother : id = other := by
          rw [apply, ids_put] at h
          split at h
          · exact absurd h hmem
          · exact List.mem_singleton.1 ((List.mem_append.1 h).resolve_left hmem)
        subst hother
        refine ⟨_, enteredAt_concat ?_⟩
        simpa only [mem_ids_iff, get?_replay] using hmem
    | unregistered other =>
      rw [apply, ids_unregister, List.mem_filter] at h
      refine hstays h.1 fun he => ?_
      cases he
      simp at h

/-- No id stands twice, and the ids stand in the order in which they came in. -/
theorem ids_replay (history : List RegistryEvent) :
    (replay history).ids.Nodup ∧ (replay history).ids.Pairwise (EnteredBefore history) := by
  induction history using List.reverseRecOn with
  | nil => exact ⟨List.nodup_nil, .nil⟩
  | append_singleton history event ih =>
    obtain ⟨hnodup, hordered⟩ := ih
    rw [replay_concat]
    have hstays : ∀ first second, event ≠ .unregistered first → event ≠ .unregistered second →
        EnteredBefore history first second → EnteredBefore (history ++ [event]) first second := by
      rintro first second hfirst hsecond ⟨place, later, hplace, hlater, hlt⟩
      exact ⟨place, later, hplace.concat hfirst, hlater.concat hsecond, hlt⟩
    cases event with
    | registered id t =>
      have hkept := hordered.imp fun {first second} => hstays first second nofun nofun
      rw [apply, ids_put]
      split
      · exact ⟨hnodup, hkept⟩
      · next hnew =>
        refine ⟨List.nodup_append.2 ⟨hnodup, List.nodup_singleton id, ?_⟩, ?_⟩
        · rintro first hfirst _ hid rfl
          rw [List.mem_singleton] at hid
          exact hnew (hid ▸ hfirst)
        · refine List.pairwise_append.2 ⟨hkept, List.pairwise_singleton _ _, ?_⟩
          intro first hfirst second hsecond
          rw [List.mem_singleton.1 hsecond]
          obtain ⟨place, hplace⟩ := enteredAt_of_mem hfirst
          have hfresh : ¬∃ t, Current history id t := by
            simpa only [mem_ids_iff, get?_replay] using hnew
          exact ⟨place, history.length, hplace.concat nofun, enteredAt_concat hfresh, hplace.lt⟩
    | unregistered id =>
      rw [apply, ids_unregister]
      refine ⟨hnodup.filter _, (hordered.filter _).imp_of_mem fun {first second} hf hs => ?_⟩
      have hne : ∀ other, other ∈ (replay history).ids.filter (· != id) →
          RegistryEvent.unregistered id ≠ .unregistered other := by
        rintro other hother ⟨⟩
        simp at hother
      exact hstays first second (hne first hf) (hne second hs)

end Registry

/-! ## Changes that succeed -/

/-- A call that changes one registry. -/
inductive RegistryChange where
  | register (id : Value) (offer : Offer)
  | unregister (id : Value)
  /-- Loads the catalog. -/
  | load

/-- What a change does to ids, one after the other, when it succeeds. -/
def RegistryChange.events (catalog : Catalog) : RegistryChange → List RegistryEvent
  | register id offer =>
    (Offer.entry? (id, offer)).toList.map fun entry => .registered entry.1 entry.2
  | unregister (.str id) => [.unregistered id]
  | unregister _ => []
  | load => catalog.entries.map fun entry => .registered entry.1 entry.2

namespace Registry

variable {r r' : Registry} {catalog : Catalog} {id : String} {offer : Offer}

/-- What a change leaves, if it succeeds. -/
def change? (catalog : Catalog) (r : Registry) : RegistryChange → Option Registry
  | .register id offer => (r.register id offer).toOption
  | .unregister id => (r.unregisterAny id).toOption
  | .load =>
    match catalog.load r with
    | (r, none) => some r
    | (_, some _) => none

/-- What changes leave, if all of them succeed. -/
def changeAll? (catalog : Catalog) (r : Registry) (changes : List RegistryChange) :
    Option Registry := changes.foldlM (change? catalog) r

theorem change?_register_eq_some_iff {id : Value} :
    r.change? catalog (.register id offer) = some r' ↔
      ∃ entry, offer.Fits id entry ∧ r' = r.put entry.1 entry.2 := by
  rw [← register_eq_ok_iff, change?]
  cases r.register id offer <;> simp [Except.toOption]

theorem change?_load_eq_some_iff :
    r.change? catalog .load = some r' ↔
      (∀ offered ∈ catalog, ∃ entry, offered.2.Fits offered.1 entry) ∧
        r' = r.putAll catalog.entries := by
  rw [← Catalog.load_eq_iff, change?]
  rcases catalog.load r with ⟨loaded, _ | e⟩ <;> simp

/-- A change that succeeds leaves what its events leave. -/
theorem change?_eq {change : RegistryChange} (h : r.change? catalog change = some r') :
    r' = (change.events catalog).foldl apply r := by
  cases change with
  | register id offer =>
    obtain ⟨entry, hfits, rfl⟩ := change?_register_eq_some_iff.1 h
    rw [RegistryChange.events, hfits.entry?]
    rfl
  | unregister id =>
    cases id with
    | str s =>
      cases h
      rfl
    | _ =>
      dsimp only [change?, unregisterAny] at h
      split at h
      · cases h
        rfl
      · cases h
  | load =>
    obtain ⟨-, rfl⟩ := change?_load_eq_some_iff.1 h
    rw [RegistryChange.events, List.foldl_map]
    rfl

theorem changeAll?_cons {change : RegistryChange} {changes : List RegistryChange} :
    r.changeAll? catalog (change :: changes) = some r' ↔
      ∃ r₁, r.change? catalog change = some r₁ ∧ r₁.changeAll? catalog changes = some r' := by
  rw [changeAll?, List.foldlM_cons]
  exact Option.bind_eq_some_iff

/-- Changes that succeed leave what the events of their history leave. -/
theorem changeAll?_eq {changes : List RegistryChange}
    (h : r.changeAll? catalog changes = some r') :
    r' = (changes.flatMap (·.events catalog)).foldl apply r := by
  induction changes generalizing r with
  | nil => exact (Option.some.inj h).symm
  | cons change rest ih =>
    obtain ⟨r₁, hchange, hrest⟩ := changeAll?_cons.1 h
    rw [List.flatMap_cons, List.foldl_append, ← change?_eq hchange]
    exact ih hrest

/-! ## Main theorem -/

/-- After changes that succeed, next to the built-in catalog or what it grew to: an id stands for
the type of its last registration, unless it was taken out after that. Every id that stands for a
type is there once, and they stand in the order of their first registrations since they were last
taken out. So a registration of an id that is there moves nothing, and an id that is taken out and
registered again stands last. Loading the catalog changes the ids that the catalog has in their
place, puts those that were missing behind the others in the order of the catalog, and leaves the
rest; loading it again succeeds and changes nothing. -/
theorem changes_ordered {catalog : Catalog} (hc : catalog.Grown) {changes : List RegistryChange}
    {r : Registry} (h : changeAll? catalog {} changes = some r) :
    let history := changes.flatMap (·.events catalog)
    (∀ id t, r.get? id = some t ↔ Current history id t) ∧
    r.ids.Nodup ∧ (∀ id, id ∈ r.ids ↔ ∃ t, r.get? id = some t) ∧
    (∀ id ∈ r.ids, ∃! place, EnteredAt history id place) ∧
    r.ids.Pairwise (EnteredBefore history) ∧
    (∀ id offer r', r.change? catalog (.register (.str id) offer) = some r' →
      r'.ids = if id ∈ r.ids then r.ids else r.ids ++ [id]) ∧
    (∀ id offer r',
      r.changeAll? catalog [.unregister (.str id), .register (.str id) offer] = some r' →
        r'.ids = r.ids.filter (· != id) ++ [id]) ∧
    ∀ r', r.change? catalog .load = some r' →
      r'.ids = r.ids ++ (catalog.entries.map (·.1)).filter (· ∉ r.ids) ∧
      (∀ entry ∈ catalog.entries, r'.get? entry.1 = some entry.2) ∧
      (∀ id ∉ catalog.entries.map (·.1), r'.get? id = r.get? id) ∧
      r'.change? catalog .load = some r' := by
  intro history
  obtain rfl : r = replay history := changeAll?_eq h
  obtain ⟨hnodup, hordered⟩ := ids_replay history
  refine ⟨get?_replay history, hnodup, fun id => mem_ids_iff, fun id hid => ?_, hordered,
    fun id offer r' hr => ?_, fun id offer r' hr => ?_, fun r' hr => ?_⟩
  · obtain ⟨place, hplace⟩ := enteredAt_of_mem hid
    exact ⟨place, hplace, fun other hother => Nat.le_antisymm (hplace.le hother) (hother.le hplace)⟩
  · obtain ⟨entry, hfits, rfl⟩ := change?_register_eq_some_iff.1 hr
    obtain rfl := Value.str.inj hfits.id
    exact ids_put _ _ _
  · obtain ⟨r₁, hout, hin⟩ := changeAll?_cons.1 hr
    obtain rfl : (replay history).unregister id = r₁ := Option.some.inj hout
    obtain ⟨r₂, hput, hlast⟩ := changeAll?_cons.1 hin
    obtain rfl : r₂ = r' := Option.some.inj hlast
    obtain ⟨entry, hfits, rfl⟩ := change?_register_eq_some_iff.1 hput
    obtain rfl := Value.str.inj hfits.id
    rw [ids_put, ids_unregister, if_neg (by simp)]
  · obtain ⟨hfits, rfl⟩ := change?_load_eq_some_iff.1 hr
    have hids : (catalog.entries.map (·.1)).Nodup := Catalog.nodup_entries hc.nodup
    refine ⟨ids_putAll hids _, fun entry hentry => get?_putAll_of_mem hids hentry _,
      fun id hid => get?_putAll_of_not_mem hid _, ?_⟩
    exact change?_load_eq_some_iff.2 ⟨hfits, (putAll_putAll hids _).symm⟩

/-- Two ids are registered, one of them an id of the catalog, and the other is taken out and
registered again. Then the catalog is loaded. -/
theorem changes_ordered_smoke :
    let offer := smokeOffer (.member .child)
    let changes : List RegistryChange := [.register (.str "smoke") offer,
      .register (.str "start") offer, .unregister (.str "smoke"), .register (.str "smoke") offer]
    ∃ r r', Catalog.Grown Catalog.builtin ∧ changeAll? Catalog.builtin {} changes = some r ∧
      r.ids = ["start", "smoke"] ∧ r.change? Catalog.builtin .load = some r' ∧
      r'.ids.take 4 = ["start", "smoke", "play", "wait"] ∧
      r'.get? "start" = some Catalog.start ∧ r'.get? "smoke" = some smoke ∧
      r'.change? Catalog.builtin .load = some r' := by
  intro offer changes
  let r : Registry := ⟨[("start", smoke), ("smoke", smoke)]⟩
  have hr : changeAll? Catalog.builtin {} changes = some r := rfl
  have hload : r.change? Catalog.builtin .load = some (r.putAll Catalog.builtin.entries) :=
    change?_load_eq_some_iff.2 ⟨Catalog.builtin_fits, rfl⟩
  obtain ⟨-, -, -, -, -, -, -, hloaded⟩ := changes_ordered .builtin hr
  obtain ⟨hids, hin, hout, hagain⟩ := hloaded _ hload
  refine ⟨_, _, .builtin, hr, rfl, hload, ?_, ?_, ?_, hagain⟩
  · rw [hids]
    decide +kernel
  · exact hin ("start", Catalog.start) List.mem_cons_self
  · exact hout "smoke" (by decide +kernel)

end Registry

end CueGraph
