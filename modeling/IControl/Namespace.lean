import IControl.Client

/-!
# Namespaces

Clients are found through namespaces: one for the monitors, one for the system,
and below the system one for each area of its own. A namespace carries a context
and hands it on to every namespace and client that it gives out afterwards, so a
context may be bound on any level of such a chain.
-/

namespace IControl

/-- Areas below the system have a namespace of their own there. -/
def Kind.Area.isNested : Kind.Area → Bool
  | .monitor | .sys => false
  | .software | .disk | .ipfix | .raid | .application | .ecm => true

/-- The namespace of an area. -/
structure Namespace (a : Kind.Area) where
  context : RequestContext := .background
  deriving DecidableEq, Repr

namespace Namespace

variable {a : Kind.Area} {σ : Type}

/-- The same namespace under another context. -/
def withContext (_ : Namespace a) (ctx : RequestContext) : Namespace a := ⟨ctx⟩

/-- The namespace of an area below the system. -/
def nested (ns : Namespace .sys) (area : Kind.Area) : Namespace area := ⟨ns.context⟩

/-- The client of a kind of the area. -/
def client {k : Kind} (ns : Namespace k.area) : Client k.resource := ⟨ns.context⟩

def version (ns : Namespace .sys) (t : Transport σ) (state : σ) : σ × Outcome Stats :=
  callVersion t ns.context state

end Namespace

/-- The levels of a chain from the outermost namespace to a client. -/
inductive Level where
  | outer
  | nested
  | client
  deriving DecidableEq, Repr

/-- The context on a level: the one that is bound there, or else the one from the level above. -/
def Level.contextOn (level : Level) (binding : Option (Level × RequestContext))
    (above : RequestContext) : RequestContext :=
  match binding with
  | some (bound, ctx) => if bound = level then ctx else above
  | none => above

/-- The client of a kind when a context is bound on at most one level of its chain. A level that
the chain does not have binds nothing. -/
def Kind.client (k : Kind) (binding : Option (Level × RequestContext)) : Client k.resource :=
  let ns : Namespace k.area :=
    if k.area.isNested then
      let sys : Namespace .sys := ⟨Level.outer.contextOn binding .background⟩
      let inner := sys.nested k.area
      inner.withContext (Level.nested.contextOn binding inner.context)
    else ⟨Level.outer.contextOn binding .background⟩
  let c := ns.client
  c.withContext (Level.client.contextOn binding c.context)

end IControl
