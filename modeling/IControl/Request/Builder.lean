import IControl.Name
import IControl.Request.Basic
import IControl.Text.Quoted

/-!
# Building requests

A path has a place for each part, in a fixed order: root, category, manager,
resource, sub-resource, object, and the mark of a statistics view. The steps of
building fill these places in any order, and the last step for a place counts. A
literal part loses the slashes at its ends; one that is blank after that, like
an empty object name, clears its place.
-/

namespace IControl

structure Builder where
  method : Method
  root : Option String := none
  category : Option String := none
  manager : Option String := none
  resource : Option String := none
  subResource : Option String := none
  object : Option String := none
  stats : Bool := false
  body : Option String := none
  deriving DecidableEq, Repr

namespace Builder

inductive Step where
  | root (part : String)
  | category (part : String)
  | manager (part : String)
  | resource (part : String)
  | subResource (part : String)
  | object (name : String)
  | stats
  | body (text : String)
  deriving DecidableEq, Repr

/-- A literal part of a path without slashes at its ends, unless nothing is left. -/
def literal (part : String) : Option String :=
  match Text.trim Text.isSlash part.toList with
  | [] => none
  | cs => some (String.ofList cs)

/-- The segment of an object name, unless the name is empty. -/
def objectSegment (name : String) : Option String :=
  if name = "" then none else some (encodeInstance name)

def apply (b : Builder) : Step → Builder
  | .root part => { b with root := literal part }
  | .category part => { b with category := literal part }
  | .manager part => { b with manager := literal part }
  | .resource part => { b with resource := literal part }
  | .subResource part => { b with subResource := literal part }
  | .object name => { b with object := objectSegment name }
  | .stats => { b with stats := true }
  | .body text => { b with body := some text }

def applyAll (b : Builder) (steps : List Step) : Builder := steps.foldl apply b

/-- The parts that are set, in the order of the path. -/
def segments (b : Builder) : List String :=
  [b.root, b.category, b.manager, b.resource, b.subResource, b.object].filterMap id ++
    (if b.stats then ["stats"] else [])

/-- Every segment after a slash. -/
def slashed (segments : List String) : String :=
  segments.foldr (fun segment path => "/" ++ segment ++ path) ""

/-- The path built so far; a single slash when nothing is set. -/
def path (b : Builder) : String :=
  match b.segments with
  | [] => "/"
  | segments => slashed segments

def request (b : Builder) : Request := ⟨b.method, b.path, b.body⟩

def shown (b : Builder) : String :=
  Text.shownRecord "RequestBuilder"
    [("method", b.method.name), ("path", Text.quoted b.path),
     ("has_body", Text.shownBool b.body.isSome)] true

end Builder

end IControl
