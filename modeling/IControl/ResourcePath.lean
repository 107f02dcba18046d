import IControl.Request.Builder

/-!
# Paths of resources

Where a resource lives below `/mgmt/tm`: a manager, a resource and perhaps a
sub-resource. A path has two renderings. One writes its parts as they are, the
other applies them to a request, where they are trimmed and may vanish; for
parts without slashes at their ends the two agree.
-/

namespace IControl

structure ResourcePath where
  manager : String
  resource : String
  subResource : Option String := none
  deriving DecidableEq, Repr

namespace ResourcePath

/-- The first segment of every path of the management interface. -/
def managementRoot : String := "mgmt"

/-- The category of traffic management, where all configuration lives. -/
def trafficCategory : String := "tm"

def ltm (resource : String) : ResourcePath := ⟨"ltm", resource, none⟩

def sys (resource : String) : ResourcePath := ⟨"sys", resource, none⟩

/-- The path of a resource below this one. -/
def sub (p : ResourcePath) (part : String) : ResourcePath := { p with subResource := some part }

def steps (p : ResourcePath) : List Builder.Step :=
  [.root managementRoot, .category trafficCategory, .manager p.manager, .resource p.resource] ++
    (match p.subResource with
     | some part => [.subResource part]
     | none => [])

/-- Sets the parts of a request to this path. -/
def apply (p : ResourcePath) (b : Builder) : Builder := b.applyAll p.steps

/-- The path with its parts as they are. -/
def text (p : ResourcePath) : String :=
  "/" ++ managementRoot ++ "/" ++ trafficCategory ++ "/" ++ p.manager ++ "/" ++ p.resource ++
    (match p.subResource with
     | some part => "/" ++ part
     | none => "")

def shown (p : ResourcePath) : String :=
  Text.shownRecord "ResourcePath"
    [("manager", Text.quoted p.manager), ("resource", Text.quoted p.resource),
     ("sub_resource", Text.shownOption Text.quoted p.subResource)] false

end ResourcePath

end IControl
