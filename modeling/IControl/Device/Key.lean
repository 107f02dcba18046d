import IControl.Json.Basic
import IControl.Name

/-!
# Keys of stored records

A collection keeps each record under a key: the segment that addresses the full
path of the record or, when it has no partition, its name. A path names a record
by its last segment below the path of the collection. A segment without a
leading tilde that is no key itself stands for a record of the partition
`Common`.
-/

namespace IControl

def defaultPartition : String := "Common"

/-- The key of a record; a record without a name has none. -/
def recordKey? (record : Json) : Option String := do
  let name ← record.textMember? "name"
  match record.textMember? "partition" with
  | some partition => some (encodeInstance (fullPath partition name))
  | none => some (encodeInstance name)

/-- The binding that a segment stands for. -/
def lookupSegment (records : Table Json) (segment : String) : Option (String × Json) :=
  match records.value? segment with
  | some record => some (segment, record)
  | none =>
    if segment.toList.head? = some '~' then none
    else
      let key := "~" ++ defaultPartition ++ "~" ++ segment
      (records.value? key).map (key, ·)

/-- A path of a record as the path of its collection and its segment, both of them not empty. -/
def splitInstance? (path : String) : Option (String × String) :=
  match Text.cutAtLast? '/' path.toList with
  | some (p :: parent, c :: segment) =>
    some (String.ofList (p :: parent), String.ofList (c :: segment))
  | _ => none

/-- The type tag of what lives at a path: the segments below the root, and the last one once more
without its hyphens and with an ending. -/
def kindTag (path ending : String) : String :=
  let segments := ((Text.splitAt '/' (Text.trimStart Text.isSlash path.toList)).drop 1).filter (· ≠ [])
  let last := (segments.getLast?.getD []).filter (· ≠ '-')
  String.intercalate ":" (segments.map String.ofList) ++ ":" ++ String.ofList last ++ ending

end IControl
