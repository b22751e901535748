import CueGraph.Document.Shape
import CueGraph.NodeType.Basic

/-!
# Registries of node types

A registry keeps node types under their ids, in the order in which the ids came in. What is offered
for registration need not be fit for it: an `Offer` has an id of any kind and claims a role with a
value of any kind. `Registry.register` takes it only if the id is a text that is not empty, and the
claim names the role that the offer can play, for some family.

Main statements: `get?_put` (an id reads back the type that was registered last) and
`ids_put_of_mem` (registering an id again moves nothing).
-/

namespace CueGraph

namespace Value

/-- Whether the value can be looked up in a table: a list and an object cannot. -/
def isKey : Value → Bool
  | list _ | object _ => false
  | _ => true

/-- The whole number that the value is as a key. -/
def keyNumber? : Value → Option Int
  | bool b => some (if b then 1 else 0)
  | int i => some i
  | double (.finite x) => x.toInt?
  | _ => none

/-- Whether two values are the same key: numbers and truth values that are the same number, and
others that are shown alike. -/
def sameKey (v w : Value) : Bool :=
  match v.keyNumber?, w.keyNumber? with
  | some i, some j => i == j
  | none, none => v.shown == w.shown
  | _, _ => false

end Value

/-- What is offered for registration: something that is no node type at all, or a node type with the
role that it claims and, unless it plays none, what its nodes do. -/
inductive Offer where
  | foreign (kind : String)
  | nodeType (label category : String) (defaults : Fields) (claim : RoleClaim)
      (behaviour : Option Behaviour)

/-- Why something cannot be registered. -/
inductive RegistryError where
  | badId (id : Value)
  | notANodeType (id kind : String)
  | unknownRole (claim : Value)
  | roleNotPlayed (id : String) (role : Role)
  | rootWithoutFamily (id : String)
  | childWithoutFamily (id : String)
  | alreadyBuiltIn (id : Value)
  /-- The id cannot be looked up. -/
  | noKey (id : Value)

namespace RegistryError

/-- The name of the part that a type has to play for a role. -/
def roleName : Role → String
  | .root => "RootNodeType"
  | .child => "ChildNodeType"
  | .utility => "UtilityNodeType"

def message : RegistryError → String
  | badId id => "Node type id must be a non-empty string, got " ++ id.shown
  | notANodeType id kind => "Descriptor for '" ++ id ++ "' must be a NodeType, got " ++ kind
  | unknownRole claim => "Unknown node role '" ++ claim.named ++ "'"
  | roleNotPlayed id role =>
    "Descriptor for '" ++ id ++ "' declares role '" ++ role.key ++ "' but does not implement " ++
      roleName role
  | rootWithoutFamily id => "Root node type '" ++ id ++ "' must declare a family"
  | childWithoutFamily id => "Child node type '" ++ id ++ "' must declare at least one family"
  | alreadyBuiltIn id => "Node type '" ++ id.named ++ "' is already registered."
  | noKey id => "unhashable type: '" ++ id.kind ++ "'"

end RegistryError

/-- The role that a claim names. -/
def Role.ofClaim : RoleClaim → Except RegistryError Role
  | .member role => .ok role
  | .value v =>
    match Role.ofKey? v.named with
    | some role => .ok role
    | none => .error (.unknownRole v)

namespace Behaviour

/-- Why this behaviour is not fit for registration, if it is not. -/
def fault? (id : String) : Behaviour → Option RegistryError
  | root family _ => if family.isEmpty then some (.rootWithoutFamily id) else none
  | child families _ => if families.isEmpty then some (.childWithoutFamily id) else none
  | utility _ => none

end Behaviour

/-- The node type of an offer, when the offer is fit for registration under the id. The claim is kept
as it is. -/
def Offer.accept (id : String) : Offer → Except RegistryError NodeType
  | foreign kind => .error (.notANodeType id kind)
  | nodeType label category defaults claim behaviour => do
    let role ← Role.ofClaim claim
    match behaviour with
    | none => .error (.roleNotPlayed id role)
    | some behaviour =>
      if behaviour.role = role then
        match behaviour.fault? id with
        | some fault => .error fault
        | none => .ok { label, category, defaults, behaviour, claim }
      else .error (.roleNotPlayed id role)

/-- Node types by their ids, in the order in which the ids came in. -/
structure Registry where
  types : List (String × NodeType) := []

namespace Registry

def get? (r : Registry) (id : String) : Option NodeType := r.types.lookup id

def contains (r : Registry) (id : String) : Bool := (r.get? id).isSome

def ids (r : Registry) : List String := r.types.map (·.1)

def size (r : Registry) : Nat := r.types.length

/-- Puts a type in the place of the one with its id, else at the end. -/
def putType (id : String) (t : NodeType) : List (String × NodeType) → List (String × NodeType)
  | [] => [(id, t)]
  | entry :: rest => if entry.1 = id then (id, t) :: rest else entry :: putType id t rest

/-- Puts a type into the registry under an id. -/
def put (r : Registry) (id : String) (t : NodeType) : Registry := ⟨putType id t r.types⟩

/-- The text that an id is, when it can be the id of a type. -/
def idText (id : Value) : Except RegistryError String :=
  match id with
  | .str s => if s.isEmpty then .error (.badId id) else .ok s
  | _ => .error (.badId id)

/-- Registers an offer under an id. The last registration of an id counts. -/
def register (r : Registry) (id : Value) (offer : Offer) : Except RegistryError Registry := do
  let id ← idText id
  let t ← offer.accept id
  pure (r.put id t)

/-- Takes an id out of the registry. -/
def unregister (r : Registry) (id : String) : Registry := ⟨r.types.filter (·.1 != id)⟩

/-- Takes what an id stands for out of the registry, whatever the id is. An empty registry does not
look at it. -/
def unregisterAny (r : Registry) (id : Value) : Except RegistryError Registry :=
  match id with
  | .str s => .ok (r.unregister s)
  | id => if id.isKey || r.types.isEmpty then .ok r else .error (.noKey id)

/-- The options of a new node of a type; an unknown type has none. -/
def defaults (r : Registry) (id : String) : Fields := ((r.get? id).map (·.defaults)).getD []

/-- A type as it is described to an editor, if it is known. -/
def describe? (r : Registry) (id : String) : Option (Option Fields) :=
  (r.get? id).map (·.describe id)

theorem mem_types_of_get? {r : Registry} {id : String} {t : NodeType} (h : r.get? id = some t) :
    (id, t) ∈ r.types := by
  obtain ⟨l₁, l₂, hl, -⟩ := List.lookup_eq_some_iff.1 h
  rw [hl]
  simp

theorem lookup_putType (id other : String) (t : NodeType) (types : List (String × NodeType)) :
    (putType id t types).lookup other = if other = id then some t else types.lookup other := by
  induction types with
  | nil => simp only [putType, List.lookup_nil, List.lookup_cons]; grind
  | cons entry rest ih =>
    by_cases h : entry.1 = id
    · simp only [putType, h, ↓reduceIte, List.lookup_cons]; grind
    · simp only [putType, h, ↓reduceIte]; grind

theorem get?_put (r : Registry) (id other : String) (t : NodeType) :
    (r.put id t).get? other = if other = id then some t else r.get? other :=
  lookup_putType id other t r.types

theorem ids_put_of_mem (r : Registry) (id : String) (t : NodeType) (h : id ∈ r.ids) :
    (r.put id t).ids = r.ids := by
  obtain ⟨types⟩ := r
  simp only [put, ids] at h ⊢
  induction types with
  | nil => simp at h
  | cons entry rest ih =>
    by_cases he : entry.1 = id
    · simp [putType, he]
    · simp only [putType, he, ↓reduceIte, List.map_cons, List.cons.injEq, true_and]
      exact ih (by simpa [Ne.symm he] using h)

end Registry

/-- The offers that are built in, in order. -/
abbrev Catalog := List (Value × Offer)

namespace Catalog

/-- Adds an offer to the catalog. An id that cannot be looked up or is there already is refused;
nothing else is checked here. -/
def add (c : Catalog) (id : Value) (offer : Offer) : Except RegistryError Catalog :=
  if !id.isKey then .error (.noKey id)
  else if c.any (·.1.sameKey id) then .error (.alreadyBuiltIn id)
  else .ok (c ++ [(id, offer)])

/-- Registers the offers of a catalog one after the other, up to the first that is not fit. -/
def load : Catalog → Registry → Registry × Option RegistryError
  | [], r => (r, none)
  | (id, offer) :: rest, r =>
    match r.register id offer with
    | .ok r => load rest r
    | .error e => (r, some e)

end Catalog

/-- A node type as an offer. -/
def NodeType.offer (t : NodeType) : Offer :=
  .nodeType t.label t.category t.defaults t.claim (some t.behaviour)

/-- The catalog of these types. -/
def Catalog.ofTypes (types : List (String × NodeType)) : Catalog :=
  types.map fun entry => (.str entry.1, entry.2.offer)

end CueGraph
