import IControl.Context
import IControl.Device.Store
import IControl.Operation
import IControl.Proofs.Record.Document

/-!
# Catalogs

A catalog is the plain view of one collection: a finite map from keys to records,
and the number of writes so far. The calls that create, get, update and delete a
record act on this map alone. A record is bound to its own key when it is
created; later its name leads to the key, either as it is or within the default
partition. An update replaces the whole record but for its identity, and each
write assigns what the device decides about.
-/

namespace IControl

namespace Metadata

/-- The metadata with what is assigned when its record is written under a key of a collection. -/
def assigned (m : Metadata) (path key : String) (generation : UInt64) : Metadata :=
  { m with
    fullPath :=
      match m.partition with
      | some partition => some (IControl.fullPath partition m.name)
      | none => m.fullPath
    generation := some generation
    kind := m.kind.or (some (kindTag path "state"))
    selfLink := some ("https://localhost" ++ path ++ "/" ++ key) }

/-- The metadata in place of an old one: with its name and, if it had one, its partition. -/
def replacing (m old : Metadata) : Metadata :=
  { m with
    name := old.name
    partition := old.partition.or m.partition }

theorem assigned_eq {m : Metadata} (unset : m.fullPath = none) (path key : String)
    (generation : UInt64) : m.assigned path key generation = { m with
      fullPath := m.partition.map (IControl.fullPath · m.name)
      generation := some generation
      kind := m.kind.or (some (kindTag path "state"))
      selfLink := some (Store.host ++ path ++ "/" ++ key) } := by
  have full : (m.assigned path key generation).fullPath =
      m.partition.map (IControl.fullPath · m.name) := by
    rw [assigned, unset]
    cases m.partition <;> rfl
  rw [← full]
  rfl

/-- A full path that is assigned is the qualified name that the object had before. -/
theorem qualifiedName_assigned {m : Metadata} (unset : m.fullPath = none) (path key : String)
    (generation : UInt64) : (m.assigned path key generation).qualifiedName = m.qualifiedName := by
  rw [qualifiedName, qualifiedName, assigned, unset]
  cases m.partition <;> rfl

theorem assigned_assigned (m : Metadata) (path key : String) (before after : UInt64) :
    (m.assigned path key before).assigned path key after =
      { m.assigned path key before with generation := some after } := by
  obtain ⟨name, partition, path, generation, kind, link⟩ := m
  cases partition <;> cases kind <;> rfl

theorem replacing_self (m : Metadata) : m.replacing m = m := by
  obtain ⟨name, partition, path, generation, kind, link⟩ := m
  cases partition <;> rfl

end Metadata

namespace Record

variable {k : Kind}

def assigned (r : Record k) (key : String) (generation : UInt64) : Record k :=
  r.withMetadata (r.metadata.assigned k.path.text key generation)

def replacing (r old : Record k) : Record k :=
  r.withMetadata (r.metadata.replacing old.metadata)

theorem replacing_self (r : Record k) : r.replacing r = r :=
  congrArg r.withMetadata r.metadata.replacing_self

end Record

/-- A call about the records of one kind. -/
inductive Crud (k : Kind) where
  | create (record : Record k)
  | get (name : String)
  | update (name : String) (record : Record k)
  | delete (name : String)

namespace Crud

variable {k : Kind}

def operation : Crud k → Operation k.resource.shape
  | .create record => .create record
  | .get name => .get name
  | .update name record => .update name record
  | .delete name => .delete name

/-- The record that a call sends. -/
def record? : Crud k → Option (Record k)
  | .create record | .update _ record => some record
  | .get _ | .delete _ => none

/-- The record that a call answers. -/
def reply : (call : Crud k) → call.operation.Result → Option (Record k)
  | .get _, record => some record
  | .create _, _ | .update _ _, _ | .delete _, _ => none

end Crud

structure Catalog (k : Kind) where
  records : Table (Record k) := []
  /-- The number of writes so far, on 64 bits. -/
  writes : UInt64 := 0

namespace Catalog

variable {k : Kind}

/-- The binding that a name stands for. -/
def find? (c : Catalog k) (name : String) : Option (String × Record k) :=
  match c.records.value? (encodeInstance name) with
  | some record => some (encodeInstance name, record)
  | none =>
    if (encodeInstance name).toList.head? = some '~' then none
    else
      (c.records.value? ("~Common~" ++ encodeInstance name)).map
        ("~Common~" ++ encodeInstance name, ·)

/-- Binds a key to a record as one more write. -/
def put (c : Catalog k) (key : String) (r : Record k) : Catalog k where
  records := c.records.put key (r.assigned key (c.writes + 1))
  writes := c.writes + 1

def without (c : Catalog k) (key : String) : Catalog k :=
  { c with records := c.records.without key }

/-- What a call about a named object does: nothing when the name addresses no object or stands for
no record. -/
def about (c : Catalog k) (name : String)
    (act : String → Record k → Catalog k × Option (Record k)) :
    Catalog k × Except ClientError (Option (Record k)) :=
  if addressesInstance name then
    match c.find? name with
    | some (key, record) => ((act key record).1, .ok (act key record).2)
    | none =>
      (c, .error (.notFound (k.path.text ++ "/" ++ encodeInstance name ++ " - " ++
        "01020036:3: The requested object was not found.")))
  else
    (c, .error (.invalidRequest
      ("object name " ++ Text.quoted name ++ " does not address an instance")))

/-- The catalog after a call, and what the call answers. -/
def call (c : Catalog k) : Crud k → Catalog k × Except ClientError (Option (Record k))
  | .create record =>
    if record.metadata.name = "" then (c, .error (.api 400 "the name attribute is required"))
    else if c.records.has record.metadata.key then
      (c, .error (.api 409 ("01020066:3: The requested object (" ++ record.metadata.key ++
        ") already exists")))
    else (c.put record.metadata.key record, .ok none)
  | .get name => c.about name fun _ record => (c, some record)
  | .update name record => c.about name fun key old => (c.put key (record.replacing old), none)
  | .delete name => c.about name fun key _ => (c.without key, none)

/-- The records as a device keeps them. -/
def documents (c : Catalog k) : Table Json := c.records.map fun b => (b.1, b.2.document)

/-- The stored records and the outcome after each of a sequence of calls. -/
def outcomes (c : Catalog k) : List (Crud k) → List (Table Json × Outcome (Option (Record k)))
  | [] => []
  | call :: calls =>
    ((c.call call).1.documents, some (c.call call).2) :: (c.call call).1.outcomes calls

end Catalog

end IControl
