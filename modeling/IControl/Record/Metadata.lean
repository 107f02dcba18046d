import IControl.Name
import IControl.Shape.Basic

/-!
# Metadata

What every configuration object carries: its name and partition, and the fields
that the device assigns on each write. A singleton has no name. The qualified
name is the full path that the device reported or, before it did, the one that
partition and name make.
-/

namespace IControl

structure Metadata where
  name : String := ""
  partition : Option String := none
  fullPath : Option String := none
  generation : Option UInt64 := none
  kind : Option String := none
  selfLink : Option String := none
  deriving DecidableEq, Repr

/-- The fields of the metadata as they are written. -/
def metadataFields : Fields :=
  .ofList
    [(.elided "name", .text), (.optional "partition", .text), (.optional "fullPath", .text),
     (.optional "generation", .count), (.optional "kind", .text), (.optional "selfLink", .text)]

namespace Metadata

def ofRow (r : metadataFields.Row) : Metadata :=
  let (name, partition, fullPath, generation, kind, selfLink, _) :
    String × Option String × Option String × Option UInt64 × Option String × Option String ×
      Unit := r
  { name, partition, fullPath, generation, kind, selfLink }

def toRow (m : Metadata) : metadataFields.Row :=
  (m.name, m.partition, m.fullPath, m.generation, m.kind, m.selfLink, ())

@[simp] theorem ofRow_toRow (m : Metadata) : ofRow m.toRow = m := rfl

@[simp] theorem toRow_ofRow (r : metadataFields.Row) : (ofRow r).toRow = r := rfl

/-- The metadata of a new object. -/
def named (name : String) : Metadata := { name }

def inPartition (m : Metadata) (partition : String) : Metadata :=
  { m with partition := some partition }

/-- The name under which the object is addressed. -/
def qualifiedName (m : Metadata) : String :=
  match m.fullPath, m.partition with
  | some path, _ => path
  | none, some partition => IControl.fullPath partition m.name
  | none, none => m.name

end Metadata

end IControl
