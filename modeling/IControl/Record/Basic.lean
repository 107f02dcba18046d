import IControl.Record.Fields
import IControl.Record.Metadata
import IControl.Shape.Decode
import IControl.Shape.Encode

/-!
# Records

A record of a kind is its metadata, the settings it shares with its family, its
own fields, and for an open kind the attributes beyond them. Beside records the
device sends two documents of its own: the listing of a collection, where the
items are left out when there are none, and the statistics of an object.
-/

namespace IControl

/-- The shape of a kind's records. -/
def Kind.shape (k : Kind) : Shape := .layered metadataFields k.settings k.own k.isOpen

abbrev Record (k : Kind) : Type := k.shape.Value

namespace Record

variable {k : Kind}

/-- The record, with its parts in the open. -/
def entry (r : Record k) : Entry metadataFields.Row k.settings.Row k.own.Row (Extra k.isOpen) := r

def metadata (r : Record k) : Metadata := .ofRow r.entry.metadata

def withMetadata (r : Record k) (m : Metadata) : Record k :=
  ({ r.entry with metadata := m.toRow } :
    Entry metadataFields.Row k.settings.Row k.own.Row (Extra k.isOpen))

@[simp] theorem metadata_withMetadata (r : Record k) (m : Metadata) :
    (r.withMetadata m).metadata = m := rfl

end Record

/-- The listing of a collection. -/
structure Listing (α : Type) where
  kind : Option String
  selfLink : Option String
  items : List α
  deriving DecidableEq, Repr

/-- The fields that listings and statistics begin with. The link is also read in small letters. -/
def replyFields : List (Field × Shape) :=
  [(.optional "kind", .text), ((Field.optional "selfLink").orNamed "selflink", .text)]

/-- The shape of a listing with items of the given shape. -/
def Shape.listing (item : Shape) : Shape :=
  .struct (.ofList (replyFields ++ [(.defaulted "items", .list item)]))

namespace Listing

def ofValue {item : Shape} (v : (Shape.listing item).Value) : Listing item.Value :=
  let (kind, selfLink, items, _) : Option String × Option String × List item.Value × Unit := v
  { kind, selfLink, items }

def toValue {item : Shape} (l : Listing item.Value) : (Shape.listing item).Value :=
  ((l.kind, l.selfLink, l.items, ()) :
    Option String × Option String × List item.Value × Unit)

@[simp] theorem ofValue_toValue {item : Shape} (l : Listing item.Value) :
    ofValue l.toValue = l := rfl

end Listing

/-- The statistics of an object. -/
structure Stats where
  kind : Option String
  selfLink : Option String
  entries : Table Json
  deriving DecidableEq

def Shape.stats : Shape :=
  .struct (.ofList (replyFields ++ [(.defaulted "entries", .map)]))

namespace Stats

def ofValue (v : Shape.stats.Value) : Stats :=
  let (kind, selfLink, entries, _) : Option String × Option String × Table Json × Unit := v
  { kind, selfLink, entries }

def toValue (s : Stats) : Shape.stats.Value :=
  ((s.kind, s.selfLink, s.entries, ()) : Option String × Option String × Table Json × Unit)

@[simp] theorem ofValue_toValue (s : Stats) : ofValue s.toValue = s := rfl

/-- The text of the statistics. -/
def write (s : Stats) : String := Shape.stats.write s.toValue

end Stats

end IControl
