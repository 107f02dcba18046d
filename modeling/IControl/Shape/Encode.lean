import IControl.Json.Printer
import IControl.Shape.Basic

/-!
# Writing values of a shape

The members of an object are written in the order of its fields: metadata first,
then the shared settings, the own fields, and last what an open object kept.
-/

namespace IControl

/-- The written value of a slot, or none when it is left out. -/
def Presence.written? {α : Type} (isBlank : α → Bool) : (p : Presence) → p.Slot α → Option α
  | .optional, v => v
  | .required, v => some v
  | .defaulted, v => some v
  | .elided, v => if isBlank v then none else some v

/-- Is this the blank text, list or object? -/
def Shape.isBlank : (s : Shape) → s.Value → Bool
  | .text, v => v == ("" : String)
  | .map, v => List.isEmpty (α := String × Json) v
  | .list _, v => List.isEmpty v
  | _, _ => false

/-- The members that an object kept without having a field for them. -/
def Extra.members : {isOpen : Bool} → Extra isOpen → List (String × Json)
  | true, kept => kept
  | false, _ => []

mutual

/-- The document of a value. -/
def Shape.encode : (s : Shape) → s.Value → Json
  | .text, v => .string v
  | .flag, v => .bool v
  | .count, v => .natural (UInt64.toNat v)
  | .tree, v => v
  | .map, v => .object v
  | .skipped, _ => .null
  | .list item, v => .array (v.map item.encode)
  | .struct fields, v => .object (fields.members v)
  | .layered metadata settings own _, v =>
    .object (metadata.members v.metadata ++ settings.members v.settings ++
      own.members v.own ++ Extra.members v.extra)

/-- The written members of a row. -/
def Fields.members : (fs : Fields) → fs.Row → List (String × Json)
  | .nil, _ => []
  | .cons field shape rest, (v, r) =>
    match field.presence.written? shape.isBlank v with
    | some v => (field.name, shape.encode v) :: rest.members r
    | none => rest.members r

end

/-- The text of a value. -/
def Shape.write (s : Shape) (v : s.Value) : String := (s.encode v).print

end IControl
