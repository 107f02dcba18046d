import IControl.Proofs.Device.Naming
import IControl.Proofs.Device.Run
import IControl.Proofs.ResourcePath

/-!
# Collections and the requests that reach them

A collection is registered under the text of a resource path, but requests go to the
path as it is applied. Where the path is well formed, the two meet: whatever a client
asks, the device answers from the collection under the text, be it the whole of it or
one of its records. This holds for every kind, and for every resource that joins them
with a well-formed path. Where the path is not well formed, requests fall short of the
text, and the collection is not found.
-/

namespace IControl

/-- The path of an object of a resource. -/
def Resource.objectPath (r : Resource) (name : String) : String :=
  r.path.text ++ "/" ++ encodeInstance name

theorem Kind.isWellFormed_path (k : Kind) : k.path.IsWellFormed :=
  ResourcePath.isWellFormed_iff_literal.2 k.literal_path

namespace Store

section
variable {s : Store} {r : Resource} {records : Table Json}
  (registered : s.collection? r.path.text = some records) {name : String}
  (addresses : addressesInstance name = true)
include registered addresses

theorem below?_objectPath : s.below? (r.objectPath name) =
    some (r.path.text, lookupSegment records (encodeInstance name)) := by
  rw [Resource.objectPath, s.below?_named r.path.toList_text_ne_nil addresses, registered]
  rfl

theorem read_objectPath (apart : s.collection? (r.objectPath name) = none) :
    s.read (r.objectPath name) =
      match lookupSegment records (encodeInstance name) with
      | some (_, record) => .ok record
      | none => .error (notFound (r.objectPath name)) := by
  rw [read_eq, apart, below?_objectPath registered addresses]
  cases lookupSegment records (encodeInstance name) <;> rfl

theorem replace_objectPath {body : String} {document : Json}
    (sent : Json.ofText? body = some document) : s.replace (r.objectPath name) (some body) =
      match lookupSegment records (encodeInstance name) with
      | some (key, old) => .ok (s.write r.path.text key (withIdentityOf old document))
      | none => .error (notFound (r.objectPath name)) := by
  rw [replace_eq, below?_objectPath registered addresses, readBody, sent]
  cases lookupSegment records (encodeInstance name) <;> rfl

theorem remove_objectPath : s.remove (r.objectPath name) =
    match lookupSegment records (encodeInstance name) with
    | some (key, _) => .ok (s.without r.path.text key)
    | none => .error (notFound (r.objectPath name)) := by
  rw [remove_eq, below?_objectPath registered addresses]
  cases lookupSegment records (encodeInstance name) <;> rfl

end

theorem read_of_shorter {path text : String} (shorter : path.length < text.length) :
    (addCollection {} text).read path = .error (notFound path) := by
  have unregistered : ∀ other : String, other.length < text.length →
      (addCollection {} text).collection? other = none := by
    intro other short
    have apart : other ≠ text := by
      rintro rfl
      omega
    rw [collection?_addCollection, if_neg apart]
    rfl
  have above : (addCollection {} text).below? path = none := by
    by_contra found
    obtain ⟨⟨parent, bound⟩, below⟩ := Option.ne_none_iff_exists'.1 found
    obtain ⟨segment, records, whole, -, held, -⟩ := below?_eq_some below
    have shortest : parent.length < text.length := by
      rw [whole, String.length_append, String.length_append] at shorter
      omega
    rw [unregistered parent shortest] at held
    exact nomatch held
  rw [read_eq, unregistered path shorter, above]
  rfl

end Store

namespace Device

/-- Under a context, the calls of a client are about the records of the collection under the text of
its path. -/
structure Serves (d : Device) (r : Resource) (ctx : RequestContext) (records : Table Json) :
    Prop where
  list : (⟨ctx⟩ : Client r).call transport d .list =
    (d.accept ⟨.get, r.path.text, none⟩,
      some ((Operation.list.readReply
        (Utf8.encode (Store.listing r.path.text records).print)).mapError .unmarshal))
  create : ∀ (record : r.shape.Value) (body : String), r.marshal record = .ok body →
    (⟨ctx⟩ : Client r).call transport d (.create record) =
      match d.store.create r.path.text (some body) with
      | .ok (store, _) => ({ d.accept ⟨.post, r.path.text, some body⟩ with store }, some (.ok ()))
      | .error error => (d.accept ⟨.post, r.path.text, some body⟩, some (.error error))
  /-- Unless another collection is registered in the place of the object. -/
  get : ∀ name, addressesInstance name = true → d.store.collection? (r.objectPath name) = none →
    (⟨ctx⟩ : Client r).call transport d (.get name) =
      (d.accept ⟨.get, r.objectPath name, none⟩,
        some (match lookupSegment records (encodeInstance name) with
        | some (_, record) => (r.shape.read (Utf8.encode record.print)).mapError .unmarshal
        | none => .error (Store.notFound (r.objectPath name))))
  update : ∀ name (record : r.shape.Value) (body : String) (document : Json),
    addressesInstance name = true → r.marshal record = .ok body →
    Json.ofText? body = some document →
    (⟨ctx⟩ : Client r).call transport d (.update name record) =
      match lookupSegment records (encodeInstance name) with
      | some (key, old) => ({ d.accept ⟨.put, r.objectPath name, some body⟩ with
          store := (d.store.write r.path.text key (Store.withIdentityOf old document)).1 },
          some (.ok ()))
      | none => (d.accept ⟨.put, r.objectPath name, some body⟩,
          some (.error (Store.notFound (r.objectPath name))))
  delete : ∀ name, addressesInstance name = true →
    (⟨ctx⟩ : Client r).call transport d (.delete name) =
      match lookupSegment records (encodeInstance name) with
      | some (key, _) => ({ d.accept ⟨.delete, r.objectPath name, none⟩ with
          store := d.store.without r.path.text key }, some (.ok ()))
      | none => (d.accept ⟨.delete, r.objectPath name, none⟩,
          some (.error (Store.notFound (r.objectPath name))))

section
variable {r : Resource} {d : Device} {ctx : RequestContext}
  (unprepared : ∀ op q, r.request op = .ok q → d.prepared? q = none)
  (patient : ctx.cut? (some d.delay) = none)
include unprepared patient

/-- A client whose path is literal is served from the collection under its text. -/
theorem serves_of_registered (literal : r.path.Literal) {records : Table Json}
    (registered : d.store.collection? r.path.text = some records) : d.Serves r ctx records where
  list := by
    have request : r.request .list = .ok ⟨.get, r.path.text, none⟩ :=
      Resource.request_collection literal rfl rfl rfl
    rw [call_of_unprepared request patient (unprepared _ _ request), Store.answer_get,
      Store.read_eq, registered]
    rfl
  create record body marshalled := by
    have written : (Operation.create record).record?.map r.marshal = (some body).map .ok :=
      congrArg some marshalled
    have request : r.request (.create record) = .ok ⟨.post, r.path.text, some body⟩ :=
      Resource.request_collection literal written rfl rfl
    rw [call_of_unprepared request patient (unprepared _ _ request), Store.answer_post]
    cases d.store.create r.path.text (some body) <;> rfl
  get name addresses apart := by
    have request : r.request (.get name) = .ok ⟨.get, r.objectPath name, none⟩ :=
      Resource.request_object literal rfl rfl rfl addresses
    rw [call_of_unprepared request patient (unprepared _ _ request), Store.answer_get,
      Store.read_objectPath registered addresses apart]
    cases lookupSegment records (encodeInstance name) <;> rfl
  update name record body document addresses marshalled sent := by
    have written : (Operation.update name record).record?.map r.marshal = (some body).map .ok :=
      congrArg some marshalled
    have request : r.request (.update name record) = .ok ⟨.put, r.objectPath name, some body⟩ :=
      Resource.request_object literal written rfl rfl addresses
    rw [call_of_unprepared request patient (unprepared _ _ request), Store.answer_put,
      Store.replace_objectPath registered addresses sent]
    cases lookupSegment records (encodeInstance name) <;> rfl
  delete name addresses := by
    have request : r.request (.delete name) = .ok ⟨.delete, r.objectPath name, none⟩ :=
      Resource.request_object literal rfl rfl rfl addresses
    rw [call_of_unprepared request patient (unprepared _ _ request), Store.answer_delete,
      Store.remove_objectPath registered addresses]
    cases lookupSegment records (encodeInstance name) <;> rfl

theorem list_unreached (broken : ¬r.path.IsWellFormed) (empty : d.store = {}) :
    ((⟨ctx⟩ : Client r).call transport (d.step (.addCollection r.path.text)) .list).2 =
      some (.error (Store.notFound (r.path.apply { method := .get }).path)) := by
  have request : r.request .list = .ok ⟨.get, (r.path.apply { method := .get }).path, none⟩ :=
    Resource.request_eq_ok_iff.2 ⟨rfl, rfl, rfl, rfl⟩
  have waits : ctx.cut? (some (d.step (.addCollection r.path.text)).delay) = none := patient
  have store : (d.step (.addCollection r.path.text)).store = Store.addCollection {} r.path.text := by
    rw [step, empty]
  have shorter := ResourcePath.length_path_apply_lt broken .get
  rw [call_of_unprepared request waits (unprepared _ _ request), Store.answer_get, store,
    Store.read_of_shorter shorter]
  rfl

end

/-- Applying a path drops slashes of its text and nothing else. It drops none exactly when the path is
well formed; otherwise the applied path is shorter, in characters and in bytes. So the requests of a
client go to the text of its path or below exactly when the path is well formed, and that of every
kind is. Then a device without prepared answers for them serves the client from the collection that is
registered under the text, with the records that it had there before. Under a text that is not well
formed, it does not find the only collection that it has. -/
theorem apply_agrees :
    (∀ (p : ResourcePath) (method : Method),
      (p.apply { method }).path.toList.Sublist p.text.toList ∧
      (p.apply { method }).path.toList.filter (· ≠ '/') = p.text.toList.filter (· ≠ '/') ∧
      ((p.apply { method }).path = p.text ↔ p.IsWellFormed) ∧
      (¬p.IsWellFormed → (p.apply { method }).path.length < p.text.length ∧
        (Utf8.encode (p.apply { method }).path).length < (Utf8.encode p.text).length)) ∧
    (∀ k : Kind, k.resource.path.IsWellFormed) ∧
    (∀ (r : Resource) (op : Operation r.shape) (q : Request), r.request op = .ok q →
      (q.path = r.path.text ++ Builder.slashed op.segments ↔ r.path.IsWellFormed)) ∧
    ∀ (r : Resource) (d : Device) (ctx : RequestContext),
      (∀ op q, r.request op = .ok q → d.prepared? q = none) → ctx.cut? (some d.delay) = none →
      (r.path.IsWellFormed → (d.step (.addCollection r.path.text)).Serves r ctx
        ((d.store.collection? r.path.text).getD [])) ∧
      (¬r.path.IsWellFormed → d.store = {} →
        ((⟨ctx⟩ : Client r).call transport (d.step (.addCollection r.path.text)) .list).2 =
          some (.error (Store.notFound (r.path.apply { method := .get }).path))) := by
  refine ⟨fun p method => ⟨p.path_apply_sublist method, p.others_path_apply method,
    p.path_apply_eq_text_iff method, ?_⟩, Kind.isWellFormed_path,
    fun r op q => Resource.path_request_eq_iff, ?_⟩
  · intro broken
    exact ⟨ResourcePath.length_path_apply_lt broken method,
      ResourcePath.length_encode_path_apply_lt broken method⟩
  · intro r d ctx unprepared patient
    constructor
    · intro formed
      have literal := ResourcePath.isWellFormed_iff_literal.1 formed
      have registered := d.store.collection?_addCollection r.path.text r.path.text
      rw [if_pos rfl] at registered
      apply serves_of_registered _ _ literal registered
      · exact unprepared
      · exact patient
    · exact list_unreached unprepared patient

/-- Tunnels, with slashes inside two parts of their path. -/
def tunnels : Resource where
  path := ⟨"net", "tunnels/gre", some "a//b"⟩
  form := .collection
  shape := Kind.folder.shape
  verbs := Kind.folder.verbs

/-- The same records under a path with slashes at the ends of its parts. -/
def selfIps : Resource := { tunnels with path := ⟨"net/", "", some "//self"⟩ }

theorem isWellFormed_tunnels : tunnels.path.IsWellFormed := by
  refine ⟨by constructor <;> decide, by constructor <;> decide, fun part present => ?_⟩
  obtain rfl := Option.some.inj present
  constructor <;> decide

theorem not_isWellFormed_selfIps : ¬selfIps.path.IsWellFormed := by
  intro formed
  exact formed.resource.present rfl

/-- A device with one tunnel. -/
def oneTunnel : Device where
  store := { collections := [("/mgmt/tm/net/tunnels/gre/a//b",
    [("x", .object [("name", .string "x")])])] }

/-- The only tunnel is removed from its collection, and the other collection is not found. -/
theorem apply_agrees_tunnels :
    (∃ next, (⟨.background⟩ : Client tunnels).call transport
      (oneTunnel.step (.addCollection tunnels.path.text)) (.delete "x") = (next, some (.ok ())) ∧
        next.store.collection? "/mgmt/tm/net/tunnels/gre/a//b" = some []) ∧
    ((⟨.background⟩ : Client selfIps).call transport (step {} (.addCollection selfIps.path.text))
      .list).2 = some (.error (Store.notFound "/mgmt/tm/net/self")) ∧
    "/mgmt/tm/net/self".length < selfIps.path.text.length ∧
    ∃ q, tunnels.request (.get "y") = .ok q ∧ q.path = "/mgmt/tm/net/tunnels/gre/a//b/y" := by
  obtain ⟨renderings, -, requests, devices⟩ := apply_agrees
  have applied : (selfIps.path.apply { method := .get }).path = "/mgmt/tm/net/self" := by decide
  have reached := (devices tunnels oneTunnel .background (fun _ _ _ => rfl) rfl).1 isWellFormed_tunnels
  have missed := (devices selfIps {} .background (fun _ _ _ => rfl) rfl).2 not_isWellFormed_selfIps rfl
  have shorter := ((renderings selfIps.path .get).2.2.2 not_isWellFormed_selfIps).1
  rw [applied] at missed shorter
  refine ⟨⟨_, reached.delete "x" (by decide), ?_⟩, missed, shorter, _, rfl, ?_⟩
  · decide +kernel
  · exact (requests tunnels (.get "y") _ rfl).2 isWellFormed_tunnels

end Device

end IControl
