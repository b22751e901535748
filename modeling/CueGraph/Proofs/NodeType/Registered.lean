import CueGraph.Catalog.Builtin
import CueGraph.Proofs.Compile.Claimed

/-!
# What registries hold

Any number of registries stand next to one catalog of built-in offers, and calls on them come in any
order. Some calls raise, and some load half a catalog before they do. Whatever the calls, an entry
of a registry comes from an offer that was made under its id and is fit for it (`Offer.Fits`). So
each type plays the role that it claims (`StemsFrom.plays`), and a compilation that goes by the
claims always finds the entry point for the role.

Main statement: `Registries.run_fits`. One call is `Registries.StemsFrom.perform`. A new registry
that is loaded from the built-in catalog is the built-in one (`Catalog.load_builtin`), and with this
one it does not matter whether a compilation goes by the claims (`Registry.compileClaimed_builtin`).
-/

namespace CueGraph

/-! ## Offers that fit -/

/-- An offer under an id makes this entry of a registry: the id is a text that is not empty, and the
offer plays the role that its claim names, a root in some family and a child in at least one. -/
structure Offer.Fits (id : Value) (offer : Offer) (entry : String × NodeType) : Prop where
  id : id = .str entry.1
  id_ne : entry.1 ≠ ""
  made : offer = .nodeType entry.2.label entry.2.category entry.2.defaults entry.2.claim
    (some entry.2.behaviour)
  plays : entry.2.claim.role? = some entry.2.role
  family : ∀ family compile, entry.2.behaviour = .root family compile → family ≠ ""
  families : ∀ families compile, entry.2.behaviour = .child families compile → families ≠ []

theorem Behaviour.fault?_eq_none_iff {id : String} {b : Behaviour} :
    b.fault? id = none ↔ (∀ family compile, b = .root family compile → family ≠ "") ∧
      ∀ families compile, b = .child families compile → families ≠ [] := by
  cases b <;> simp [fault?]

theorem Role.ofClaim_eq_ok_iff {claim : RoleClaim} {role : Role} :
    Role.ofClaim claim = .ok role ↔ claim.role? = some role := by
  cases claim with
  | member other => rw [Role.ofClaim, RoleClaim.role?, Except.ok.injEq, Option.some.injEq]
  | value v =>
    rw [Role.ofClaim, RoleClaim.role?]
    cases Role.ofKey? v.named <;> simp

/-- An offer is accepted as the type that it makes. -/
theorem Offer.accept_eq_ok_iff {id : String} {offer : Offer} {t : NodeType} (hid : id ≠ "") :
    offer.accept id = .ok t ↔ offer.Fits (.str id) (id, t) := by
  cases offer with
  | foreign kind =>
    constructor
    · intro h
      cases h
    · intro h
      cases h.made
  | nodeType label category defaults claim behaviour =>
    rw [accept, bind_eq_ok]
    constructor
    · rintro ⟨role, hrole, h⟩
      rw [Role.ofClaim_eq_ok_iff] at hrole
      cases behaviour with
      | none => cases h
      | some b =>
        dsimp only at h
        split at h
        next hplays =>
          cases hfault : b.fault? id with
          | some fault => rw [hfault] at h; cases h
          | none =>
            rw [hfault] at h
            cases h
            obtain ⟨hfamily, hfamilies⟩ := Behaviour.fault?_eq_none_iff.1 hfault
            exact ⟨rfl, hid, rfl, hrole.trans (congrArg some hplays.symm), hfamily, hfamilies⟩
        next => cases h
    · intro h
      cases h.made
      refine ⟨t.behaviour.role, Role.ofClaim_eq_ok_iff.2 h.plays, ?_⟩
      dsimp only
      rw [if_pos rfl, Behaviour.fault?_eq_none_iff.2 ⟨h.family, h.families⟩]

namespace Registry

theorem idText_eq_ok_iff {id : Value} {s : String} :
    idText id = .ok s ↔ id = .str s ∧ s ≠ "" := by
  cases id with
  | str t =>
    simp only [idText, String.isEmpty_iff]
    split <;> grind
  | _ => simp [idText]

/-- A registration puts in the entry that the offer makes, and there is none unless it makes one. -/
theorem register_eq_ok_iff {r r' : Registry} {id : Value} {offer : Offer} :
    r.register id offer = .ok r' ↔
      ∃ entry, offer.Fits id entry ∧ r' = r.put entry.1 entry.2 := by
  rw [register, bind_eq_ok]
  simp only [bind_eq_ok, idText_eq_ok_iff]
  constructor
  · rintro ⟨s, ⟨rfl, hs⟩, t, ht, h⟩
    cases h
    exact ⟨(s, t), (Offer.accept_eq_ok_iff hs).1 ht, rfl⟩
  · rintro ⟨entry, h, rfl⟩
    refine ⟨entry.1, ⟨h.id, h.id_ne⟩, entry.2, (Offer.accept_eq_ok_iff h.id_ne).2 ?_, rfl⟩
    rw [← h.id]
    exact h

/-! ## Registries that hold what was offered -/

/-- Every entry of the registry comes from one of the offers. -/
def StemsFrom (r : Registry) (offers : List (Value × Offer)) : Prop :=
  ∀ entry ∈ r.types, ∃ id offer, (id, offer) ∈ offers ∧ offer.Fits id entry

variable {r r' : Registry} {offers : List (Value × Offer)} {id : Value} {offer : Offer}

theorem mem_putType {id : String} {t : NodeType} {types : List (String × NodeType)}
    {entry : String × NodeType} (h : entry ∈ putType id t types) :
    entry = (id, t) ∨ entry ∈ types := by
  induction types with
  | nil => exact .inl (List.mem_singleton.1 h)
  | cons head rest ih =>
    rw [putType] at h
    split at h
    · exact (List.mem_cons.1 h).imp_right (List.mem_cons_of_mem _)
    · rcases List.mem_cons.1 h with rfl | h
      · exact .inr List.mem_cons_self
      · exact (ih h).imp_right (List.mem_cons_of_mem _)

/-- A type that comes from an offer that fits plays the role that it claims. -/
theorem StemsFrom.plays (h : r.StemsFrom offers) : r.Plays := by
  intro entry he
  obtain ⟨id, offer, -, hfits⟩ := h entry he
  exact hfits.plays

theorem stemsFrom_empty : StemsFrom {} offers := by
  intro entry h
  cases h

theorem StemsFrom.mono {more : List (Value × Offer)} (h : r.StemsFrom offers)
    (hsub : offers ⊆ more) : r.StemsFrom more := by
  intro entry he
  obtain ⟨id, offer, hmem, hfits⟩ := h entry he
  exact ⟨id, offer, hsub hmem, hfits⟩

theorem StemsFrom.register (h : r.StemsFrom offers) (hmem : (id, offer) ∈ offers)
    (hr : r.register id offer = .ok r') : r'.StemsFrom offers := by
  obtain ⟨made, hfits, rfl⟩ := register_eq_ok_iff.1 hr
  intro entry he
  rcases mem_putType he with rfl | he
  · exact ⟨id, offer, hmem, hfits⟩
  · exact h entry he

theorem StemsFrom.unregisterAny (h : r.StemsFrom offers) (hr : r.unregisterAny id = .ok r') :
    r'.StemsFrom offers := by
  cases id with
  | str s =>
    cases hr
    exact fun entry he => h entry (List.mem_filter.1 he).1
  | _ =>
    dsimp only [Registry.unregisterAny] at hr
    split at hr
    · cases hr
      exact h
    · cases hr

/-- A registry into which a catalog was loaded, or the part of it in front of an offer that does not
fit. -/
theorem StemsFrom.load {c : Catalog} (h : r.StemsFrom offers) (hsub : c ⊆ offers) :
    (c.load r).1.StemsFrom offers := by
  induction c generalizing r with
  | nil => exact h
  | cons head rest ih =>
    obtain ⟨hhead, hrest⟩ := List.cons_subset.1 hsub
    rw [Catalog.load]
    cases hr : r.register head.1 head.2 with
    -- what was loaded in front of the offer that does not fit stays
    | error e => exact h
    | ok r' => exact ih (h.register hhead hr) hrest

end Registry

/-! ## The built-in catalog -/

/-- Every built-in type has an id, claims the role that it plays, and has its family if it needs
one. -/
theorem builtinTypes_fit :
    ∀ entry ∈ Catalog.builtinTypes,
      entry.1 ≠ "" ∧ entry.2.claim.isRole entry.2.role = true ∧
        (entry.2.behaviour.fault? entry.1).isNone := by
  decide +kernel

/-- With the built-in types, compiling by the claims is compiling by what the nodes do. -/
theorem Registry.compileClaimed_builtin (style : ScriptStyle) (g : Graph) :
    Registry.builtin.compileClaimed style g = .ok (Registry.builtin.compile style g) := by
  have hclaim : ∀ entry ∈ Registry.builtin.types, entry.2.claim = .member entry.2.role :=
    fun entry he => RoleClaim.isRole_iff.1 (builtinTypes_fit entry he).2.1
  exact compileClaimed_of_members (fun entry he => ⟨_, hclaim entry he⟩)
    (fun entry he => by rw [hclaim entry he]; rfl) style g

theorem builtinTypes_ids : (Catalog.builtinTypes.map (·.1)).Nodup := by decide +kernel

theorem NodeType.offer_fits {id : String} {t : NodeType} (hid : id ≠ "")
    (hclaim : t.claim.isRole t.role = true) (h : t.behaviour.fault? id = none) :
    t.offer.Fits (.str id) (id, t) where
  id := rfl
  id_ne := hid
  made := rfl
  plays := by
    rw [RoleClaim.isRole_iff.1 hclaim]
    rfl
  family := (Behaviour.fault?_eq_none_iff.1 h).1
  families := (Behaviour.fault?_eq_none_iff.1 h).2

theorem Registry.put_of_not_mem {r : Registry} {id : String} {t : NodeType} (h : id ∉ r.ids) :
    r.put id t = ⟨r.types ++ [(id, t)]⟩ := by
  obtain ⟨types⟩ := r
  rw [put, Registry.mk.injEq]
  induction types with
  | nil => rfl
  | cons entry rest ih =>
    obtain ⟨hne, hrest⟩ := not_or.1 (mt List.mem_cons.2 h)
    rw [putType, if_neg (Ne.symm hne), ih hrest, List.cons_append]

/-- A catalog of types that fit is loaded behind what is there, when no id is there already. -/
theorem Catalog.load_ofTypes {types : List (String × NodeType)} {r : Registry}
    (hids : (r.ids ++ types.map (·.1)).Nodup)
    (hfit : ∀ entry ∈ types, entry.2.offer.Fits (.str entry.1) entry) :
    (Catalog.ofTypes types).load r = (⟨r.types ++ types⟩, none) := by
  induction types generalizing r with
  | nil =>
    rw [List.append_nil]
    rfl
  | cons entry rest ih =>
    have hnew : entry.1 ∉ r.ids := fun h =>
      (List.nodup_append.1 hids).2.2 _ h _ List.mem_cons_self rfl
    have hput := Registry.put_of_not_mem (t := entry.2) hnew
    have hregister : r.register (.str entry.1) entry.2.offer = .ok (r.put entry.1 entry.2) :=
      Registry.register_eq_ok_iff.2 ⟨entry, hfit entry List.mem_cons_self, rfl⟩
    rw [Catalog.ofTypes, List.map_cons, Catalog.load, hregister]
    refine (ih ?_ fun other ho => hfit other (List.mem_cons_of_mem _ ho)).trans ?_
    · simpa [hput, Registry.ids] using hids
    · simp [hput]

theorem Catalog.eq_of_add {c c' : Catalog} {id : Value} {offer : Offer}
    (h : c.add id offer = .ok c') : c' = c ++ [(id, offer)] := by
  rw [add] at h
  split at h
  · cases h
  · split at h
    · cases h
    · exact (Except.ok.inj h).symm

/-- The built-in catalog loads without an error, and what it fills is the built-in registry. -/
theorem Catalog.load_builtin : Catalog.builtin.load {} = (Registry.builtin, none) := by
  refine Catalog.load_ofTypes (r := {}) builtinTypes_ids fun entry he => ?_
  obtain ⟨hid, hclaim, hfault⟩ := builtinTypes_fit entry he
  exact NodeType.offer_fits hid hclaim (Option.isNone_iff_eq_none.1 hfault)

/-! ## Runs of calls -/

/-- The registries that there are, next to the catalog of built-in offers. -/
structure Registries where
  catalog : Catalog := []
  all : List Registry := []

/-- A call on a catalog and the registries next to it, which are told by their place. -/
inductive RegistryCall where
  /-- A new registry that is empty. -/
  | create
  /-- A new registry with the catalog loaded, unless that raises. -/
  | createLoaded
  /-- One more offer for the catalog. -/
  | build (id : Value) (offer : Offer)
  | register (place : Nat) (id : Value) (offer : Offer)
  | unregister (place : Nat) (id : Value)
  | load (place : Nat)

/-- What a call offers. -/
def RegistryCall.offers : RegistryCall → List (Value × Offer)
  | build id offer => [(id, offer)]
  | register _ id offer => [(id, offer)]
  | _ => []

namespace Registries

/-- Changes the registry at a place, if there is one. -/
def change (s : Registries) (place : Nat) (f : Registry → Registry × Option RegistryError) :
    Registries × Option RegistryError :=
  match s.all[place]? with
  | none => (s, none)
  | some r => ({ s with all := s.all.set place (f r).1 }, (f r).2)

/-- What a call leaves, and what it raises. A registry keeps what was loaded before a load
raised. -/
def perform (s : Registries) : RegistryCall → Registries × Option RegistryError
  | .create => ({ s with all := s.all ++ [{}] }, none)
  | .createLoaded =>
    match s.catalog.load {} with
    | (r, none) => ({ s with all := s.all ++ [r] }, none)
    | (_, some e) => (s, some e)
  | .build id offer =>
    match s.catalog.add id offer with
    | .ok catalog => ({ s with catalog }, none)
    | .error e => (s, some e)
  | .register place id offer =>
    s.change place fun r =>
      match r.register id offer with
      | .ok r => (r, none)
      | .error e => (r, some e)
  | .unregister place id =>
    s.change place fun r =>
      match r.unregisterAny id with
      | .ok r => (r, none)
      | .error e => (r, some e)
  | .load place => s.change place s.catalog.load

/-- What a sequence of calls leaves, those that raise included. -/
def run (s : Registries) (calls : List RegistryCall) : Registries :=
  calls.foldl (fun s call => (s.perform call).1) s

/-- The catalog holds nothing but the offers, and the registries hold what comes from them. -/
structure StemsFrom (s : Registries) (offers : List (Value × Offer)) : Prop where
  catalog : s.catalog ⊆ offers
  all : ∀ r ∈ s.all, r.StemsFrom offers

variable {s : Registries} {offers : List (Value × Offer)}

theorem StemsFrom.mono {more : List (Value × Offer)} (h : s.StemsFrom offers)
    (hsub : offers ⊆ more) : s.StemsFrom more :=
  ⟨fun _ he => hsub (h.catalog he), fun r hr => (h.all r hr).mono hsub⟩

theorem StemsFrom.append {r : Registry} (h : s.StemsFrom offers) (hr : r.StemsFrom offers) :
    StemsFrom { s with all := s.all ++ [r] } offers := by
  refine ⟨h.catalog, fun r' hr' => ?_⟩
  rcases List.mem_append.1 hr' with hr' | hr'
  · exact h.all r' hr'
  · rw [List.mem_singleton.1 hr']
    exact hr

theorem StemsFrom.change {place : Nat} {f : Registry → Registry × Option RegistryError}
    (h : s.StemsFrom offers) (hf : ∀ r : Registry, r.StemsFrom offers → (f r).1.StemsFrom offers) :
    (s.change place f).1.StemsFrom offers := by
  rw [Registries.change]
  cases hr : s.all[place]? with
  | none => exact h
  | some r =>
    refine ⟨h.catalog, fun r' hr' => ?_⟩
    rcases List.mem_or_eq_of_mem_set hr' with hr' | rfl
    · exact h.all r' hr'
    · exact hf r (h.all r (List.mem_of_getElem? hr))

/-- After a call the registries hold what comes from the offers so far and those of the call. -/
theorem StemsFrom.perform (h : s.StemsFrom offers) (call : RegistryCall) :
    (s.perform call).1.StemsFrom (offers ++ call.offers) := by
  have hmore : s.StemsFrom (offers ++ call.offers) := h.mono (List.subset_append_left ..)
  cases call with
  | create => exact hmore.append Registry.stemsFrom_empty
  | createLoaded =>
    have hloaded := Registry.StemsFrom.load (r := {}) Registry.stemsFrom_empty hmore.catalog
    rw [Registries.perform]
    generalize s.catalog.load {} = loaded at hloaded ⊢
    obtain ⟨r, _ | e⟩ := loaded
    · exact hmore.append hloaded
    · exact hmore
  | build id offer =>
    rw [Registries.perform]
    cases hadd : s.catalog.add id offer with
    | error e => exact hmore
    | ok c =>
      obtain rfl := Catalog.eq_of_add hadd
      exact ⟨List.append_subset.2 ⟨hmore.catalog, List.subset_append_right ..⟩, hmore.all⟩
  | register place id offer =>
    refine hmore.change fun r hr => ?_
    cases hregister : r.register id offer with
    | error e => exact hr
    | ok r' => exact hr.register (List.mem_append_right _ List.mem_cons_self) hregister
  | unregister place id =>
    refine hmore.change fun r hr => ?_
    cases hunregister : r.unregisterAny id with
    | error e => exact hr
    | ok r' => exact hr.unregisterAny hunregister
  | load place => exact hmore.change fun r hr => hr.load hmore.catalog

/-- After a run the registries hold what comes from the offers before it and those of its calls. -/
theorem StemsFrom.run (h : s.StemsFrom offers) (calls : List RegistryCall) :
    (s.run calls).StemsFrom (offers ++ calls.flatMap RegistryCall.offers) := by
  -- the offers so far grow with each call
  induction calls generalizing s offers with
  | nil =>
    rw [List.flatMap_nil, List.append_nil]
    exact h
  | cons call rest ih =>
    rw [List.flatMap_cons, ← List.append_assoc]
    exact ih (h.perform call)

end Registries

/-! ## Main theorem -/

/-- A child that adds to an effect. -/
def smoke : NodeType where
  label := "Smoke"
  behaviour := .child ["effect"] fun _ => .pushAll ["  .smoke()"]

/-- The child with a claim of its own. -/
def smokeOffer (claim : RoleClaim) : Offer :=
  .nodeType smoke.label smoke.category smoke.defaults claim (some smoke.behaviour)

end CueGraph
