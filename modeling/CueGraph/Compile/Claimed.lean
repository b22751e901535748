import CueGraph.Compile.Graph

/-!
# Compiling by the roles that are claimed

`Registry.compile` goes by what the nodes of a type do. `Registry.compileClaimed` goes by the role
that the type claims, and takes the entry point that belongs to this role. A claim that is no role is
not equal to any, even if it is a text that names one: the type is then taken for a child, and under
a root, where its role is to be mentioned, the compilation breaks off.
-/

namespace CueGraph

/-- What breaks a compilation off. -/
inductive BreakOff where
  /-- A type has no entry point for the role that it claims. -/
  | noEntryPoint (type : String) (role : Role)
  /-- The claim of a type is to be mentioned as a role, and is none. -/
  | bareRole (type : String)

namespace Registry

/-- Whether a type is known and claims to be of this role. -/
def claims (r : Registry) (type : String) (role : Role) : Bool :=
  (r.get? type).any (·.claim.isRole role)

/-- Whether the parent of a node claims to be a root. -/
def hasClaimedRoot (r : Registry) (g : Graph) (node : Node) : Bool :=
  (node.parent.bind g.find?).any fun parent => r.claims parent.type .root

/-- What a node under a root does, by the role that its type claims. -/
def addChildClaimed (r : Registry) (block : Block) (p : Progress) (child : Node) :
    Except BreakOff (Block × Progress) :=
  match r.get? child.type with
  | none => .ok (block, p)
  | some t =>
    match t.claim with
    | .member .child =>
      match t.behaviour with
      | .child families compile =>
        if families.contains block.family then
          let w := ((compile child).run ⟨block, p.pass⟩).2
          .ok (w.block, { p with pass := w.pass })
        else
          .ok (block, p.report (.familyMismatch child block.family)
            (.familyRefused child.id child.type block.family families))
      | _ => .error (.noEntryPoint child.type .child)
    | .member role =>
      .ok (block, p.report (.roleMismatch child role) (.notAChild child.id child.type block.node))
    | .value _ => .error (.bareRole child.type)

def addChildrenClaimed (r : Registry) (children : List Node) (block : Block) (p : Progress) :
    Except BreakOff (Block × Progress) :=
  children.foldlM (fun (block, p) child => r.addChildClaimed block p child) (block, p)

/-- The block of a root with its children, unless the root opens no chain. -/
def visitRootClaimed (r : Registry) (g : Graph) (node : Node) (family : String)
    (compile : Node → Program Unit) (p : Progress) : Except BreakOff (Option Entry × Progress) :=
  let w := ((compile node).run ⟨{ node := node.id, family }, p.pass⟩).2
  let p := { p with pass := w.pass }
  if w.block.isEmpty then
    .ok (none, p.report (.rootOmitted node) (.rootOmitted node.id node.type))
  else do
    let (block, p) ← r.addChildrenClaimed (g.childrenOf node.id) w.block p
    pure (some (.block block), p)

/-- The visit of a node that is taken for a child. -/
def visitAsChild (r : Registry) (g : Graph) (p : Progress) (node : Node) : Progress :=
  let p :=
    if r.hasClaimedRoot g node then p
    else p.report (.orphanChild node) (.orphan node.id node.type)
  p.close none

/-- The visit of a node, by the role that its type claims. What claims neither to be a root nor a
utility is taken for a child. -/
def visitClaimed (r : Registry) (g : Graph) (p : Progress) (node : Node) :
    Except BreakOff Progress :=
  match r.get? node.type with
  | none => .ok (p.report (.unknownType node) (.unknownType node.id node.type))
  | some t =>
    match t.claim with
    | .member .root =>
      match t.behaviour with
      | .root family compile => do
        let (entry, p) ← r.visitRootClaimed g node family compile p
        pure (p.close entry)
      | _ => .error (.noEntryPoint node.type .root)
    | .member .utility =>
      match t.behaviour with
      | .utility compile =>
        let (entry, p) := visitUtility node compile p
        .ok (p.close entry)
      | _ => .error (.noEntryPoint node.type .utility)
    | _ => .ok (r.visitAsChild g p node)

def compileClaimed (r : Registry) (style : ScriptStyle) (g : Graph) : Except BreakOff Compiled := do
  let p ← g.nodes.foldlM (r.visitClaimed g) {}
  pure (p.compiled style g)

end Registry

end CueGraph
