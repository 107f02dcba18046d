import IControl.Json.Reader
import IControl.Shape.Basic

/-!
# Reading values of a shape

A document is fitted to a shape in the order of the text, and the first fault
decides. Members of an object are put into the slots of its fields one by one; a
second member for the same slot is a mismatch as soon as its name is read.
Members that a struct has no field for are passed over. A layered object takes
its own fields in the same way and sets every other member aside, as a value;
when the object is complete, the metadata and the settings are taken from what
was set aside, and an open object keeps the rest.

A struct may also be written as an array of its fields in order, where missing
ones at the end count as absent.
-/

namespace IControl

/-- The slots of a row that is being filled. -/
def Fields.Slots : Fields → Type
  | .nil => Unit
  | .cons field shape rest => Option (field.presence.Slot shape.Value) × rest.Slots

def Fields.unfilled : (fs : Fields) → fs.Slots
  | .nil => ()
  | .cons _ _ rest => (none, rest.unfilled)

/-- The value of a field that is absent, if it may be. -/
def Presence.absent? {α : Type} (blank : α) : (p : Presence) → Option (p.Slot α)
  | .optional => some none
  | .required => none
  | .defaulted => some blank
  | .elided => some blank

/-- The row of slots after the last member. -/
def Fields.filled? : (fs : Fields) → fs.Slots → Option fs.Row
  | .nil, _ => some ()
  | .cons field shape rest, (v, slots) => do
    let v ← v <|> field.presence.absent? shape.blank
    let row ← rest.filled? slots
    some (v, row)

/-- Reads the document of a slot; null is no value where that is allowed. -/
def Presence.fit {α : Type} (decode : Document → Except Fault α) :
    (p : Presence) → Document → Except Fault (p.Slot α)
  | .optional, .null => .ok none
  | .optional, d => (decode d).map some
  | .required, d => decode d
  | .defaulted, d => decode d
  | .elided, d => decode d

/-- Fills the slots from values that were set aside, passing over other names. -/
def Fields.collect (fs : Fields)
    (seat : fs.Slots → String → Document → Option (Except Fault fs.Slots))
    (members : List (String × Json)) : Except Fault fs.Row := do
  let slots ← members.foldlM (fun slots m =>
    match seat slots m.1 (Document.ofJson m.2) with
    | some r => r
    | none => .ok slots) fs.unfilled
  match fs.filled? slots with
  | some row => .ok row
  | none => .error .mismatch

/-- What an open object keeps of the members set aside. -/
def Extra.keep (taken : String → Bool) (members : List (String × Json)) :
    (isOpen : Bool) → Extra isOpen
  | true => Table.ofBindings (members.filter fun m => !taken m.1)
  | false => ()

/-- A value that the text is well-formed for, or the fault that it is not. -/
def Fault.unlessSome {α : Type} : Option α → Except Fault α
  | some a => .ok a
  | none => .error .malformed

mutual

/-- The value of a document that nests at most `room` levels. -/
def Shape.decode : (s : Shape) → (room : Nat) → Document → Except Fault s.Value
  | .text, _, d =>
    match d with
    | .string (some t) => .ok t
    | d => .error d.misfit
  | .flag, _, d =>
    match d with
    | .bool b => .ok b
    | d => .error d.misfit
  | .count, _, d =>
    match d with
    | .number (some (.integer i)) =>
      if 0 ≤ i ∧ i < Nat.pow 2 64 then .ok (UInt64.ofNat i.toNat) else .error .mismatch
    | d => .error d.misfit
  | .tree, room, d => Fault.unlessSome (d.value? room)
  | .map, room, d =>
    match d with
    | .object members closed =>
      match Document.value? room (.object members closed) with
      | some (.object ms) => .ok ms
      | _ => .error .malformed
    | d => .error d.misfit
  | .skipped, _, d => if d.isSound then .ok () else .error .malformed
  | .list item, room, d =>
    match d with
    | .array items closed =>
      match room with
      | 0 => .error .malformed
      | room + 1 => do
        let xs ← items.mapM (item.decode room)
        if closed then .ok xs else .error .malformed
    | d => .error d.misfit
  | .struct fields, room, d =>
    match d with
    | .array items closed =>
      match room with
      | 0 => .error .malformed
      | room + 1 => fields.decodeItems room items closed
    | .object members closed =>
      match room with
      | 0 => .error .malformed
      | room + 1 => do
        let slots ← members.foldlM (fun slots m => do
          let name ← Fault.unlessSome m.1
          match fields.seat? room slots name m.2 with
          | some r => r
          | none => if m.2.isSound then .ok slots else .error .malformed) fields.unfilled
        if closed then
          match fields.filled? slots with
          | some row => .ok row
          | none => .error .mismatch
        else .error .malformed
    | d => .error d.misfit
  | .layered metadata settings own isOpen, room, d =>
    match d with
    | .object members closed =>
      match room with
      | 0 => .error .malformed
      | room + 1 => do
        let (slots, aside) ← members.foldlM (fun (state : own.Slots × List (String × Json)) m => do
          let name ← Fault.unlessSome m.1
          match own.seat? room state.1 name m.2 with
          | some r => r.map (·, state.2)
          | none => do
            let x ← Fault.unlessSome (m.2.value? room)
            .ok (state.1, state.2 ++ [(name, x)])) (own.unfilled, [])
        if closed then
          match own.filled? slots with
          | some own => do
            let metadataRow ← metadata.collect (metadata.seat? room) aside
            let settingsRow ← settings.collect (settings.seat? room) aside
            let taken (name : String) : Bool := metadata.answers name || settings.answers name
            .ok { metadata := metadataRow, settings := settingsRow, own,
                  extra := Extra.keep taken aside isOpen }
          | none => .error .mismatch
        else .error .malformed
    | d => .error d.misfit

/-- Puts a member into the slot of its field; none when no field has its name. -/
def Fields.seat? : (fs : Fields) → (room : Nat) → fs.Slots → String → Document →
    Option (Except Fault fs.Slots)
  | .nil, _, _, _, _ => none
  | .cons field shape rest, room, (v, slots), name, d =>
    if field.answers name then
      match v with
      | some _ => some (.error .mismatch)
      | none => some ((field.presence.fit (shape.decode room) d).map fun v => (some v, slots))
    else (rest.seat? room slots name d).map fun r => r.map (v, ·)

/-- The row of a struct that is written as an array. -/
def Fields.decodeItems : (fs : Fields) → (room : Nat) → List Document → (closed : Bool) →
    Except Fault fs.Row
  | .nil, _, [], true => .ok ()
  | .nil, _, _, _ => .error .malformed
  | .cons field shape rest, room, [], true =>
    match field.presence.absent? shape.blank with
    | some v => (rest.decodeItems room [] true).map (v, ·)
    | none => .error .mismatch
  | .cons _ _ _, _, [], false => .error .malformed
  | .cons field shape rest, room, d :: ds, closed => do
    let v ← field.presence.fit (shape.decode room) d
    let row ← rest.decodeItems room ds closed
    .ok (v, row)

end

/-- The value of a text. What follows the document may only be blank. -/
def Shape.read (s : Shape) (bytes : Bytes) : Except Fault s.Value := do
  let (d, ended) := Json.read bytes
  let v ← s.decode Document.maxDepth d
  if ended then .ok v else .error .malformed

end IControl
