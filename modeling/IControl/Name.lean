import IControl.Text.Percent
import IControl.Text.Trim

/-!
# Names of configuration objects

An object has a name and usually a partition; its full path is
`/Partition/Name`. In a request the object is one segment below its collection:
the slashes of the name become tildes, a qualified name that lacks the first
separator gets it, and the result is percent-encoded. So `/Common/web`,
`Common/web` and `~Common~web` all become the segment `~Common~web`.
-/

namespace IControl

/-- The full path of a name in a partition. -/
def fullPath (partition name : String) : String :=
  "/" ++ String.ofList (Text.trim Text.isSlash partition.toList) ++ "/" ++ name

/-- The name with tildes as separators, and one in front when it is qualified. -/
def tilded (name : List Char) : List Char :=
  let swapped := name.map fun c => if c = '/' then '~' else c
  match name with
  | [] => []
  | c :: _ => if '/' ∈ name ∧ c ≠ '/' ∧ c ≠ '~' then '~' :: swapped else swapped

/-- The segment that addresses the object of a name or full path. -/
def encodeInstance (name : String) : String :=
  String.ofList (Percent.encode (tilded name.toList))

/-- Names made of separators alone address no object. -/
def addressesInstance (name : String) : Bool :=
  name.toList.any fun c => c ≠ '/' ∧ c ≠ '~'

end IControl
