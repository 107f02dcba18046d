import IControl.Operation
import IControl.Transport

/-!
# Typed clients

A client of a resource carries the context that its calls run under. Whatever
the operation, at most one request is handed to the transport, and a reply that
cannot be read is an error of its own.
-/

namespace IControl

namespace Transport

variable {σ α : Type}

/-- Sends a request, unless it is refused, and reads the reply. -/
def exchange (t : Transport σ) (ctx : RequestContext) (state : σ)
    (request : Except ClientError Request) (readReply : Bytes → Except Fault α) : σ × Outcome α :=
  match request with
  | .error error => (state, some (.error error))
  | .ok r =>
    let (next, reply) := t.send ctx state r
    (next, reply.andThen fun bytes => (readReply bytes).mapError .unmarshal)

theorem exchange_ok (t : Transport σ) (ctx : RequestContext) (state : σ)
    (q : Request) (readReply : Bytes → Except Fault α) :
    t.exchange ctx state (.ok q) readReply = ((t.send ctx state q).1,
      (t.send ctx state q).2.andThen fun bytes => (readReply bytes).mapError .unmarshal) := rfl

end Transport

/-- A client of a resource. -/
structure Client (r : Resource) where
  context : RequestContext := .background
  deriving DecidableEq, Repr

namespace Client

variable {r : Resource} {σ : Type}

/-- The same client under another context. -/
def withContext (_ : Client r) (ctx : RequestContext) : Client r := ⟨ctx⟩

def path (_ : Client r) : ResourcePath := r.path

def call (c : Client r) (t : Transport σ) (state : σ) (op : Operation r.shape) :
    σ × Outcome op.Result :=
  t.exchange c.context state (r.request op) op.readReply

def shown (c : Client r) : String :=
  let title :=
    match r.form with
    | .collection => "ResourceClient"
    | .singleton => "SingletonClient"
  Text.shownRecord title
    [("path", Text.quoted r.path.text), ("ctx", c.context.shown)] true

end Client

/-- The handle that every client shares, as it is shown: without any of its parts. -/
def sharedHandleShown : String := Text.shownRecord "RestClient" [] true

/-- The request for the version of the software that the device runs. -/
def versionRequest : Request := ((ResourcePath.sys "version").apply { method := .get }).request

/-- The version report of a device, which also shows that it can be reached. -/
def callVersion {σ : Type} (t : Transport σ) (ctx : RequestContext) (state : σ) :
    σ × Outcome Stats :=
  t.exchange ctx state (.ok versionRequest) fun bytes => (Shape.stats.read bytes).map Stats.ofValue

end IControl
