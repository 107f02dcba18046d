import IControl.Json.Basic

/-!
# Shapes

A shape says which documents a type of record is written as, and which values
they stand for. Shapes and lists of fields are defined together: a field has a
name, perhaps a second one that is only read, a rule for its absence, and a
shape. `Shape.Value` and `Fields.Row` give the types of values, so that a value
of a shape fits it by construction.

Two shapes have fields. A `struct` is an object of exactly these fields. A
`layered` object is a configuration object as the device serves it: its own
fields are spread over the same object as the metadata that all objects carry
and the settings that a family of them shares, and an open one keeps every other
member as well.
-/

namespace IControl

/-- What the absence of a field means. -/
inductive Presence where
  /-- Absent or null is no value, and no value is left out. -/
  | optional
  /-- It has to be there. -/
  | required
  /-- Absent is the blank value, which is written like any other. -/
  | defaulted
  /-- Absent is the blank value, and the blank value is left out. -/
  | elided
  deriving DecidableEq, Repr

structure Field where
  name : String
  otherName : Option String
  presence : Presence
  deriving DecidableEq, Repr

mutual

inductive Shape where
  | text
  | flag
  | count
  /-- Any value. -/
  | tree
  /-- Any object. -/
  | map
  /-- Any document at all, of which nothing is kept. -/
  | skipped
  | list (item : Shape)
  | struct (fields : Fields)
  | layered (metadata settings own : Fields) (isOpen : Bool)

inductive Fields where
  | nil
  | cons (field : Field) (shape : Shape) (rest : Fields)

end

/-- The type of a field's value under its rule of absence. -/
@[reducible] def Presence.Slot (p : Presence) (α : Type) : Type :=
  match p with
  | .optional => Option α
  | .required | .defaulted | .elided => α

/-- What an open object keeps of the members that it has no field for. -/
@[reducible] def Extra (isOpen : Bool) : Type :=
  match isOpen with
  | true => Table Json
  | false => Unit

/-- A value of a layered object. -/
structure Entry (M S O E : Type) where
  metadata : M
  settings : S
  own : O
  extra : E
  deriving DecidableEq

mutual

/-- The values of a shape. -/
def Shape.Value : Shape → Type
  | .text => String
  | .flag => Bool
  | .count => UInt64
  | .tree => Json
  | .map => Table Json
  | .skipped => Unit
  | .list item => List item.Value
  | .struct fields => fields.Row
  | .layered metadata settings own isOpen =>
    Entry metadata.Row settings.Row own.Row (Extra isOpen)

/-- One value for each field, in their order. -/
def Fields.Row : Fields → Type
  | .nil => Unit
  | .cons field shape rest => field.presence.Slot shape.Value × rest.Row

end

def Presence.decEqSlot (p : Presence) {α : Type} (h : DecidableEq α) : DecidableEq (p.Slot α) :=
  match p with
  | .optional => inferInstanceAs (DecidableEq (Option α))
  | .required | .defaulted | .elided => h

def Extra.decEq : (isOpen : Bool) → DecidableEq (Extra isOpen)
  | true => inferInstanceAs (DecidableEq (List (String × Json)))
  | false => inferInstanceAs (DecidableEq Unit)

mutual

def Shape.decEqValue : (s : Shape) → DecidableEq s.Value
  | .text => inferInstanceAs (DecidableEq String)
  | .flag => inferInstanceAs (DecidableEq Bool)
  | .count => inferInstanceAs (DecidableEq UInt64)
  | .tree => inferInstanceAs (DecidableEq Json)
  | .map => inferInstanceAs (DecidableEq (List (String × Json)))
  | .skipped => inferInstanceAs (DecidableEq Unit)
  | .list item =>
    have := item.decEqValue
    inferInstanceAs (DecidableEq (List item.Value))
  | .struct fields => fields.decEqRow
  | .layered metadata settings own isOpen =>
    have := metadata.decEqRow
    have := settings.decEqRow
    have := own.decEqRow
    have := Extra.decEq isOpen
    inferInstanceAs (DecidableEq (Entry metadata.Row settings.Row own.Row (Extra isOpen)))

def Fields.decEqRow : (fs : Fields) → DecidableEq fs.Row
  | .nil => inferInstanceAs (DecidableEq Unit)
  | .cons field shape rest =>
    have := field.presence.decEqSlot shape.decEqValue
    have := rest.decEqRow
    inferInstanceAs (DecidableEq (field.presence.Slot shape.Value × rest.Row))

end

instance (s : Shape) : DecidableEq s.Value := s.decEqValue

mutual

/-- The value that stands for nothing at all. -/
def Shape.blank : (s : Shape) → s.Value
  | .text => ""
  | .flag => false
  | .count => (0 : UInt64)
  | .tree => Json.null
  | .map => ([] : Table Json)
  | .skipped => ()
  | .list _ => []
  | .struct fields => fields.blankRow
  | .layered metadata settings own isOpen =>
    { metadata := metadata.blankRow, settings := settings.blankRow, own := own.blankRow,
      extra := match isOpen with
        | true => []
        | false => () }

def Fields.blankRow : (fs : Fields) → fs.Row
  | .nil => ()
  | .cons ⟨_, _, .optional⟩ _ rest => (none, rest.blankRow)
  | .cons ⟨_, _, .required⟩ shape rest => (shape.blank, rest.blankRow)
  | .cons ⟨_, _, .defaulted⟩ shape rest => (shape.blank, rest.blankRow)
  | .cons ⟨_, _, .elided⟩ shape rest => (shape.blank, rest.blankRow)

end

def Field.optional (name : String) : Field := ⟨name, none, .optional⟩

def Field.required (name : String) : Field := ⟨name, none, .required⟩

def Field.defaulted (name : String) : Field := ⟨name, none, .defaulted⟩

def Field.elided (name : String) : Field := ⟨name, none, .elided⟩

/-- The same field, read under a second name as well. -/
def Field.orNamed (f : Field) (name : String) : Field := { f with otherName := some name }

/-- Is this a name of the field? -/
def Field.answers (f : Field) (name : String) : Bool :=
  f.name == name || f.otherName == some name

namespace Fields

def ofList : List (Field × Shape) → Fields
  | [] => .nil
  | (f, s) :: rest => .cons f s (ofList rest)

/-- Optional fields of the given names and shapes. -/
def optional (fs : List (String × Shape)) : Fields :=
  ofList (fs.map fun f => (.optional f.1, f.2))

/-- All names under which a field is read. -/
def names : Fields → List String
  | .nil => []
  | .cons f _ rest => f.name :: f.otherName.toList ++ rest.names

def answers : Fields → String → Bool
  | .nil, _ => false
  | .cons f _ rest, name => f.answers name || rest.answers name

end Fields

end IControl
