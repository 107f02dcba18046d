import IControl.Resource
import IControl.Request.Builder

/-!
# Typed operations

The operations on collections and singletons, with their arguments. Each
operation makes at most one request: an object name that addresses nothing is
refused first, then the record is written, and only then is there a request. A
reply is read as what the operation answers; replies to writes are not read at
all.
-/

namespace IControl

/-- The operations on a resource whose records have a shape. -/
inductive Operation (s : Shape) where
  | list
  | get (name : String)
  | stats (name : String)
  | create (record : s.Value)
  | update (name : String) (record : s.Value)
  | delete (name : String)
  /-- The record of a singleton. -/
  | fetch
  /-- The statistics of a singleton. -/
  | report
  /-- A new record for a singleton. -/
  | replace (record : s.Value)

namespace Operation

variable {s : Shape}

/-- The operation that a verb means, with the arguments that it takes. -/
def of? (form : Kind.Form) (verb : Verb) (name : String) (record : s.Value) : Option (Operation s) :=
  match form, verb with
  | .collection, .list => some .list
  | .collection, .get => some (.get name)
  | .collection, .stats => some (.stats name)
  | .collection, .create => some (.create record)
  | .collection, .update => some (.update name record)
  | .collection, .delete => some (.delete name)
  | .singleton, .get => some .fetch
  | .singleton, .report => some .report
  | .singleton, .update => some (.replace record)
  | _, _ => none

def verb : Operation s → Verb
  | .list => .list
  | .get _ | .fetch => .get
  | .stats _ => .stats
  | .create _ => .create
  | .update _ _ | .replace _ => .update
  | .delete _ => .delete
  | .report => .report

def form : Operation s → Kind.Form
  | .list | .get _ | .stats _ | .create _ | .update _ _ | .delete _ => .collection
  | .fetch | .report | .replace _ => .singleton

def method : Operation s → Method
  | .list | .get _ | .stats _ | .fetch | .report => .get
  | .create _ => .post
  | .update _ _ | .replace _ => .put
  | .delete _ => .delete

/-- The name of the object that an operation is about. -/
def object? : Operation s → Option String
  | .get name | .stats name | .update name _ | .delete name => some name
  | .list | .create _ | .fetch | .report | .replace _ => none

/-- Does the operation ask for statistics? -/
def wantsStats : Operation s → Bool
  | .stats _ | .report => true
  | _ => false

/-- The record that an operation sends. -/
def record? : Operation s → Option s.Value
  | .create record | .update _ record | .replace record => some record
  | .list | .get _ | .stats _ | .delete _ | .fetch | .report => none

/-- What an operation adds to the path of its resource. -/
def steps (op : Operation s) : List Builder.Step :=
  op.object?.toList.map .object ++ (if op.wantsStats then [.stats] else [])

/-- Refuses names that would leave the request at the path of the collection. -/
def checkName : Option String → Except ClientError Unit
  | none => .ok ()
  | some name =>
    if addressesInstance name then .ok ()
    else .error (.invalidRequest
      ("object name " ++ Text.quoted name ++ " does not address an instance"))

/-- The type of what an operation answers. -/
@[reducible] def Result : Operation s → Type
  | .list => Listing s.Value
  | .get _ | .fetch => s.Value
  | .stats _ | .report => Stats
  | .create _ | .update _ _ | .delete _ | .replace _ => Unit

/-- What a reply says to an operation. -/
def readReply : (op : Operation s) → Bytes → Except Fault op.Result
  | .list, bytes => ((Shape.listing s).read bytes).map Listing.ofValue
  | .get _, bytes | .fetch, bytes => s.read bytes
  | .stats _, bytes | .report, bytes => (Shape.stats.read bytes).map Stats.ofValue
  | .create _, _ | .update _ _, _ | .delete _, _ | .replace _, _ => .ok ()

end Operation

namespace Resource

/-- Is this one of the operations that the resource offers? -/
def offers (r : Resource) (op : Operation r.shape) : Bool :=
  op.form == r.form && r.verbs.contains op.verb

/-- The request of an operation, unless it is refused. -/
def request (r : Resource) (op : Operation r.shape) : Except ClientError Request := do
  Operation.checkName op.object?
  let body ←
    match op.record? with
    | none => pure none
    | some record => do
      let text ← r.marshal record
      pure (some text)
  let b := ((r.path.apply { method := op.method }).applyAll op.steps).applyAll
    (body.toList.map .body)
  return b.request

end Resource

end IControl
