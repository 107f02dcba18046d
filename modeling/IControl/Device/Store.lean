import IControl.Device.Key
import IControl.Error
import IControl.Json.Printer
import IControl.Json.Reader
import IControl.Request.Basic

/-!
# The store of a device

Configuration objects in memory: collections of records and singleton documents,
each under its path, and a counter of writes. A write to a collection stamps the
record with what a device assigns: the full path, the generation, the type tag
and the link to itself. A request that fails leaves no store behind, so there is
nothing that it could have changed.
-/

namespace IControl

structure Store where
  collections : Table (Table Json) := []
  singletons : Table Json := []
  /-- The number of writes to collections so far, on 64 bits. -/
  generation : UInt64 := 0
  deriving DecidableEq

namespace Store

/-- The address that a device gives in its links. -/
def host : String := "https://localhost"

def collection? (s : Store) (path : String) : Option (Table Json) := s.collections.value? path

def singleton? (s : Store) (path : String) : Option Json := s.singletons.value? path

/-- The record that a name stands for in a collection. -/
def record? (s : Store) (path name : String) : Option Json :=
  (s.collection? path).bind fun records => (lookupSegment records (encodeInstance name)).map Prod.snd

def recordCount (s : Store) (path : String) : Nat := ((s.collection? path).getD []).length

/-- Registers a collection, without records when it is new. -/
def addCollection (s : Store) (path : String) : Store :=
  if s.collections.has path then s else { s with collections := s.collections.put path [] }

def setSingleton (s : Store) (path : String) (document : Json) : Store :=
  { s with singletons := s.singletons.put path document }

/-- The members that a device assigns to a record under a key, as of a generation. -/
def stamped (path key : String) (generation : UInt64) (members : Table Json) : Table Json :=
  let located :=
    match (Json.object members).textMember? "partition", (Json.object members).textMember? "name" with
    | some partition, some name => members.put "fullPath" (Json.string (fullPath partition name))
    | _, _ => members
  let counted := located.put "generation" (Json.natural generation.toNat)
  let tagged :=
    if counted.has "kind" then counted else counted.put "kind" (Json.string (kindTag path "state"))
  tagged.put "selfLink" (Json.string (host ++ path ++ "/" ++ key))

/-- Only objects can be stamped. -/
def stamp (path key : String) (generation : UInt64) : Json → Json
  | .object members => .object (stamped path key generation members)
  | other => other

/-- Stores a record under a key of a collection as one more write. -/
def write (s : Store) (path key : String) (record : Json) : Store × Json :=
  let generation := s.generation + 1
  let record := stamp path key generation record
  let records := ((s.collection? path).getD []).put key record
  ({ s with collections := s.collections.put path records, generation }, record)

/-- Stores a record under its own key; a record without a name cannot be stored. -/
def insert? (s : Store) (path : String) (record : Json) : Option Store :=
  (recordKey? record).map fun key => (s.write path key record).1

def notFound (path : String) : ClientError :=
  .ofStatus 404 path "01020036:3: The requested object was not found."

/-- The document of a request body. -/
def readBody (path : String) : Option String → Except ClientError Json
  | none => .error (.ofStatus 400 path "request body is required")
  | some body =>
    match Json.ofText? body with
    | some document => .ok document
    | none => .error (.ofStatus 400 path "invalid JSON body")

/-- The listing of a collection. Items are left out when there are none. -/
def listing (path : String) (records : Table Json) : Json :=
  let items := records.map Prod.snd
  .ofMembers <|
    [("kind", .string (kindTag path "collectionstate")), ("selfLink", .string (host ++ path))] ++
      (if items.isEmpty then [] else [("items", .array items)])

/-- What is at a path: a collection, a record of one, or a singleton. A path below a collection
never reaches a singleton. -/
def read (s : Store) (path : String) : Except ClientError Json :=
  match s.collection? path with
  | some records => .ok (listing path records)
  | none =>
    let below := do
      let (parent, segment) ← splitInstance? path
      let records ← s.collection? parent
      some (lookupSegment records segment)
    match below with
    | some (some (_, record)) => .ok record
    | some none => .error (notFound path)
    | none =>
      match s.singleton? path with
      | some document => .ok document
      | none => .error (notFound path)

/-- Stores a new record in the collection at a path. -/
def create (s : Store) (path : String) (body : Option String) : Except ClientError (Store × Json) := do
  let record ← readBody path body
  match recordKey? record with
  | none => .error (.ofStatus 400 path "the name attribute is required")
  | some key =>
    if ((s.collection? path).getD []).has key then
      .error (.ofStatus 409 path
        ("01020066:3: The requested object (" ++ key ++ ") already exists"))
    else .ok (s.write path key record)

/-- The record with the name and the partition of the one that it replaces. -/
def withIdentityOf (old record : Json) : Json :=
  match record, old with
  | .object members, .object before =>
    .object (["name", "partition"].foldl (fun ms identity =>
      match Table.value? before identity with
      | some v => Table.put identity v ms
      | none => ms) members)
  | record, _ => record

/-- Replaces the record or the singleton at a path. Which record it is follows from the path, not
from the body. -/
def replace (s : Store) (path : String) (body : Option String) :
    Except ClientError (Store × Json) := do
  let record ← readBody path body
  let below := do
    let (parent, segment) ← splitInstance? path
    let records ← s.collection? parent
    some (parent, lookupSegment records segment)
  match below with
  | some (parent, some (key, old)) => .ok (s.write parent key (withIdentityOf old record))
  | some (_, none) => .error (notFound path)
  | none =>
    match s.singleton? path with
    | some _ => .ok (s.setSingleton path record, record)
    | none => .error (notFound path)

/-- Removes the record at a path. The collection stays, even when it becomes empty. -/
def remove (s : Store) (path : String) : Except ClientError Store :=
  let found := do
    let (parent, segment) ← splitInstance? path
    let records ← s.collection? parent
    let (key, _) ← lookupSegment records segment
    some (parent, records.without key)
  match found with
  | some (parent, records) => .ok { s with collections := s.collections.put parent records }
  | none => .error (notFound path)

/-- The answer to a request: the store after it and the body of the reply. -/
def answer (s : Store) (r : Request) : Except ClientError (Store × String) :=
  match r.method with
  | .get => do
    let document ← s.read r.path
    return (s, document.print)
  | .post => do
    let (next, record) ← s.create r.path r.body
    return (next, record.print)
  | .put => do
    let (next, record) ← s.replace r.path r.body
    return (next, record.print)
  | .delete => do
    let next ← s.remove r.path
    return (next, "")
  | .other name => .error (.ofStatus 405 r.path ("method " ++ name ++ " not supported"))

end Store

end IControl
