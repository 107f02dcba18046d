import IControl.Error
import IControl.Record.Basic

/-!
# Resources

What a typed client needs to know about a resource: its path, whether it is a
collection or a singleton, the shape of its records, and the verbs it offers.
Every kind of configuration object is a resource. A resource of a user's own may
have records that refuse to be written.
-/

namespace IControl

/-- What can be done with a resource. -/
inductive Verb where
  | list
  | get
  | stats
  | create
  | update
  | delete
  /-- The statistics of a singleton. -/
  | report
  deriving DecidableEq, Repr

/-- These verbs send a record. -/
def Verb.takesRecord : Verb → Bool
  | .create | .update => true
  | .list | .get | .stats | .delete | .report => false

structure Resource where
  path : ResourcePath
  form : Kind.Form
  shape : Shape
  verbs : List Verb
  /-- Why the records cannot be written, when they cannot. -/
  refusal : Option String := none

/-- The verbs that a kind offers. -/
def Kind.verbs (k : Kind) : List Verb :=
  (match k.form with
    | .collection => [.list, .get, .stats]
    | .singleton => [.get, .report]) ++
  (if k.isCreatable then [.create] else []) ++
  (if k.isUpdatable then [.update] else []) ++
  (if k.isDeletable then [.delete] else [])

def Kind.resource (k : Kind) : Resource where
  path := k.path
  form := k.form
  shape := k.shape
  verbs := k.verbs

namespace Resource

/-- The written form of a record. -/
def marshal (r : Resource) (record : r.shape.Value) : Except ClientError String :=
  match r.refusal with
  | some reason => .error (.marshal reason)
  | none => .ok (r.shape.write record)

end Resource

end IControl
