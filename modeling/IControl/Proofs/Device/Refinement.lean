import IControl.Proofs.Device.Documents
import IControl.Proofs.Device.Effects

/-!
# A device behaves as a catalog

Calls about the records of one kind are made on a device that holds nothing else.
The device mirrors a catalog: it keeps the documents of the records, counts the
same writes, and has nothing at any other path. Each call answers on the device
what it answers on the catalog, and the device then mirrors the catalog after the
call.
-/

namespace IControl

variable {k : Kind} {n : Nat}

/-- Every record has a name and can be read again from its text. -/
def Catalog.Sound (n : Nat) (c : Catalog k) : Prop :=
  ∀ key r, c.records.value? key = some r →
    r.metadata.name ≠ "" ∧ k.shape.Holds (Json.Lasting n) r

namespace Catalog

theorem sound_put {c : Catalog k} (h : c.Sound n) (key : String) {r : Record k}
    (named : r.metadata.name ≠ "") (holds : k.shape.Holds (Json.Lasting n) r) :
    (c.put key r).Sound n := by
  intro other s bound
  rw [put, Table.value?_put] at bound
  split_ifs at bound
  · obtain rfl := Option.some.inj bound
    exact ⟨named, Record.holds_withMetadata holds _⟩
  · exact h other s bound

theorem sound_without {c : Catalog k} (h : c.Sound n) (key : String) : (c.without key).Sound n := by
  intro other s bound
  rw [without, Table.value?_without] at bound
  split_ifs at bound
  exact h other s bound

theorem value?_of_find? {c : Catalog k} {name key : String} {r : Record k}
    (h : c.find? name = some (key, r)) : c.records.value? key = some r := by
  unfold find? at h
  split at h
  · rename_i found
    obtain ⟨rfl, rfl⟩ := Prod.mk.inj (Option.some.inj h)
    exact found
  · split_ifs at h
    obtain ⟨found, bound, eq⟩ := Option.map_eq_some_iff.1 h
    obtain ⟨rfl, rfl⟩ := Prod.mk.inj eq
    exact bound

end Catalog

/-- The store keeps the documents of the catalog and nothing else, and counts the same writes. -/
structure Store.Mirrors (s : Store) (c : Catalog k) : Prop where
  records : (s.collection? k.path.text).getD [] = c.documents
  elsewhere : ∀ path, path ≠ k.path.text → s.collection? path = none
  single : ∀ path, s.singleton? path = none
  writes : s.generation = c.writes

namespace Store.Mirrors

variable {s : Store} {c : Catalog k} (h : s.Mirrors c)
include h

theorem write {key : String} {r : Record k} (holds : k.shape.Holds (Json.Lasting n) r)
    (named : r.metadata.name ≠ "") :
    (s.write k.path.text key r.document).1.Mirrors (c.put key r) where
  records := by
    rw [collection?_write, if_pos rfl, Option.getD_some, h.records, h.writes,
      Record.stamp_document holds named, Catalog.documents_put]
  elsewhere path other := by
    rw [collection?_write, if_neg other]
    exact h.elsewhere path other
  single := h.single
  writes := congrArg (· + 1) h.writes

theorem take (key : String) :
    Mirrors { s with collections := s.collections.put k.path.text (c.documents.without key) }
      (c.without key) where
  records := by
    have found := Table.value?_put_self s.collections k.path.text (c.documents.without key)
    rw [collection?, found, Option.getD_some, Catalog.documents_without]
  elsewhere path other := by
    rw [collection?, Table.value?_put_ne _ _ other]
    exact h.elsewhere path other
  single := h.single
  writes := h.writes

theorem below {name : String} (addresses : addressesInstance name = true) :
    s.collection? (k.path.text ++ "/" ++ encodeInstance name) = none ∧
      (s.below? (k.path.text ++ "/" ++ encodeInstance name) =
          some (k.path.text, (c.find? name).map fun b => (b.1, b.2.document)) ∨
        s.below? (k.path.text ++ "/" ++ encodeInstance name) = none ∧ c.find? name = none) := by
  have split := splitInstance?_append k.path.toList_text_ne_nil (encodeInstance_ne_nil addresses)
    (slash_not_mem_encodeInstance name)
  have longer : k.path.text ++ "/" ++ encodeInstance name ≠ k.path.text := by
    intro same
    have lengths := congrArg (fun path => path.toList.length) same
    simp only [String.toList_append, List.length_append] at lengths
    have slash : "/".toList.length = 1 := rfl
    omega
  refine ⟨h.elsewhere _ longer, ?_⟩
  have records := h.records
  have found := c.lookupSegment_documents name
  have below : s.below? (k.path.text ++ "/" ++ encodeInstance name) =
      (s.collection? k.path.text).bind fun records =>
        some (k.path.text, lookupSegment records (encodeInstance name)) := by
    rw [below?, split]
    rfl
  rw [below]
  cases kept : s.collection? k.path.text with
  | none =>
    right
    rw [kept, Option.getD_none] at records
    refine ⟨rfl, ?_⟩
    rw [← records] at found
    cases other : c.find? name with
    | none => rfl
    | some b =>
      rw [other] at found
      unfold lookupSegment at found
      simp at found
  | some documents =>
    left
    rw [kept, Option.getD_some] at records
    rw [Option.bind_some, records, found]

theorem read {name : String} (addresses : addressesInstance name = true) :
    s.read (k.path.text ++ "/" ++ encodeInstance name) =
      match c.find? name with
      | some (_, r) => .ok r.document
      | none => .error (notFound (k.path.text ++ "/" ++ encodeInstance name)) := by
  obtain ⟨other, below⟩ := h.below addresses
  rw [read_eq, other]
  rcases below with below | ⟨below, missing⟩
  · rw [below]
    cases c.find? name <;> rfl
  · rw [below, missing, h.single]

theorem remove {name : String} (addresses : addressesInstance name = true) :
    s.remove (k.path.text ++ "/" ++ encodeInstance name) =
      match c.find? name with
      | some (key, _) => .ok { s with
          collections := s.collections.put k.path.text (c.documents.without key) }
      | none => .error (notFound (k.path.text ++ "/" ++ encodeInstance name)) := by
  obtain ⟨-, below⟩ := h.below addresses
  rw [remove_eq]
  rcases below with below | ⟨below, missing⟩
  · rw [below]
    cases c.find? name with
    | none => rfl
    | some b => exact congrArg (fun documents => Except.ok { s with
        collections := s.collections.put k.path.text (Table.without documents b.1) }) h.records
  · rw [below, missing]

variable {r : Record k} (holds : k.shape.Holds (Json.Lasting n) r)
  (levels : n + k.shape.height ≤ Document.maxDepth)
include holds levels

theorem create : s.create k.path.text (some (k.shape.write r)) =
    if r.metadata.name = "" then .error (.api 400 "the name attribute is required")
    else if c.records.has r.metadata.key then
      .error (.api 409 ("01020066:3: The requested object (" ++ r.metadata.key ++
        ") already exists"))
    else .ok (s.write k.path.text r.metadata.key r.document) := by
  have sent : readBody k.path.text (some (k.shape.write r)) = .ok r.document := by
    rw [readBody, Record.ofText?_write holds levels]
  have key := Record.recordKey?_document holds
  unfold Store.create
  rw [sent, h.records]
  simp only [key, Catalog.has_documents, bind, Except.bind]
  by_cases unnamed : r.metadata.name = ""
  · rw [if_pos unnamed, if_pos unnamed]
    rfl
  · rw [if_neg unnamed, if_neg unnamed]
    rfl

theorem replace {name : String} (addresses : addressesInstance name = true) (sound : c.Sound n) :
    s.replace (k.path.text ++ "/" ++ encodeInstance name) (some (k.shape.write r)) =
      match c.find? name with
      | some (key, old) => .ok (s.write k.path.text key (r.replacing old).document)
      | none => .error (notFound (k.path.text ++ "/" ++ encodeInstance name)) := by
  obtain ⟨-, below⟩ := h.below addresses
  have sent : readBody (k.path.text ++ "/" ++ encodeInstance name) (some (k.shape.write r)) =
      .ok r.document := by
    rw [readBody, Record.ofText?_write holds levels]
  rw [replace_eq, sent, Except.bind]
  rcases below with below | ⟨below, missing⟩
  · rw [below]
    cases found : c.find? name with
    | none => rfl
    | some b =>
      obtain ⟨named, old⟩ := sound b.1 b.2 (Catalog.value?_of_find? found)
      exact congrArg (fun document => Except.ok (s.write k.path.text b.1 document))
        (Record.withIdentityOf_document holds old named)
  · rw [below, missing, h.single]

end Store.Mirrors

/-! ### Calls -/

namespace Device

/-- A call on a device under no bounds: the device after it, and what the call comes to. -/
def crud (d : Device) (call : Crud k) : Device × Outcome (Option (Record k)) :=
  let (next, outcome) := ({} : Client k.resource).call transport d call.operation
  (next, outcome.map fun result => result.map call.reply)

/-- Nothing was prepared, and the store mirrors a catalog that is sound. -/
structure Mirrors (n : Nat) (d : Device) (c : Catalog k) : Prop where
  prepared : d.prepared = []
  store : d.store.Mirrors c
  sound : c.Sound n

section
variable {d : Device} {call : Crud k} {q : Request}

theorem crud_of_refused {error : ClientError}
    (request : k.resource.request call.operation = .error error) :
    d.crud call = (d, some (.error error)) := by
  rw [crud, Client.call, request]
  rfl

theorem crud_of_ok (prepared : d.prepared = [])
    (request : k.resource.request call.operation = .ok q) {store : Store} {text : String}
    (answered : d.store.answer q = .ok (store, text)) {a : call.operation.Result}
    (read : call.operation.readReply (Utf8.encode text) = .ok a) :
    d.crud call = ({ d.accept q with store }, some (.ok (call.reply a))) := by
  rw [crud, call_of_answer request rfl (prepared?_of_nil prepared q) answered, read]
  rfl

theorem crud_of_error (prepared : d.prepared = [])
    (request : k.resource.request call.operation = .ok q) {error : ClientError}
    (answered : d.store.answer q = .error error) :
    d.crud call = (d.accept q, some (.error error)) := by
  rw [crud, call_of_refusal request rfl (prepared?_of_nil prepared q) answered]
  rfl

end

namespace Mirrors

variable {d : Device} {c : Catalog k} (h : d.Mirrors n c)
include h

theorem accept (q : Request) : (d.accept q).Mirrors n c :=
  ⟨h.prepared, h.store, h.sound⟩

/-- A call about a named object, given what the store answers when the name stands for a record and
when it stands for none. -/
theorem about {call : Crud k} {name : String} (named : call.operation.object? = some name)
    (plain : call.operation.wantsStats = false)
    {act : String → Record k → Catalog k × Option (Record k)}
    (bound : addressesInstance name = true → ∀ key r, c.find? name = some (key, r) →
      ∃ store text a, d.store.answer ⟨call.operation.method,
          k.path.text ++ "/" ++ encodeInstance name, call.operation.record?.map k.shape.write⟩ =
            .ok (store, text) ∧
        call.operation.readReply (Utf8.encode text) = .ok a ∧ call.reply a = (act key r).2 ∧
        store.Mirrors (act key r).1 ∧ (act key r).1.Sound n)
    (missing : addressesInstance name = true → c.find? name = none →
      d.store.answer ⟨call.operation.method, k.path.text ++ "/" ++ encodeInstance name,
          call.operation.record?.map k.shape.write⟩ =
        .error (Store.notFound (k.path.text ++ "/" ++ encodeInstance name))) :
    (d.crud call).2 = some (c.about name act).2 ∧
      (d.crud call).1.Mirrors n (c.about name act).1 := by
  unfold Catalog.about
  cases addresses : addressesInstance name with
  | false =>
    rw [crud_of_refused (Kind.request_refused named addresses)]
    exact ⟨rfl, h⟩
  | true =>
    have request := Kind.request_object named plain addresses
    rw [if_pos rfl]
    cases found : c.find? name with
    | none =>
      rw [crud_of_error h.prepared request (missing addresses found)]
      exact ⟨rfl, h.accept _⟩
    | some b =>
      obtain ⟨store, text, a, answered, read, reply, mirrors, sound⟩ :=
        bound addresses b.1 b.2 found
      rw [crud_of_ok h.prepared request answered read]
      exact ⟨congrArg (fun r => some (Except.ok r)) reply, h.prepared, mirrors, sound⟩

theorem get (levels : n + k.shape.height ≤ Document.maxDepth) (name : String) :
    (d.crud (.get name : Crud k)).2 = some (c.call (.get name)).2 ∧
      (d.crud (.get name : Crud k)).1.Mirrors n (c.call (.get name)).1 := by
  refine h.about rfl rfl (fun addresses key r found => ?_) fun addresses found => ?_
  · have holds := (h.sound key r (Catalog.value?_of_find? found)).2
    refine ⟨d.store, r.document.print, r, ?_, Record.read_document holds levels, rfl, h.store,
      h.sound⟩
    refine (Store.answer_get _ _ _).trans ?_
    rw [h.store.read addresses, found]
    rfl
  · refine (Store.answer_get _ _ _).trans ?_
    rw [h.store.read addresses, found]
    rfl

theorem delete (name : String) :
    (d.crud (.delete name : Crud k)).2 = some (c.call (.delete name)).2 ∧
      (d.crud (.delete name : Crud k)).1.Mirrors n (c.call (.delete name)).1 := by
  refine h.about rfl rfl (fun addresses key r found => ?_) fun addresses found => ?_
  · refine ⟨_, "", (), ?_, rfl, rfl, h.store.take key, Catalog.sound_without h.sound key⟩
    refine (Store.answer_delete _ _ _).trans ?_
    rw [h.store.remove addresses, found]
    rfl
  · refine (Store.answer_delete _ _ _).trans ?_
    rw [h.store.remove addresses, found]
    rfl

variable (levels : n + k.shape.height ≤ Document.maxDepth) {r : Record k}
  (holds : k.shape.Holds (Json.Lasting n) r)
include levels holds

theorem update (name : String) :
    (d.crud (.update name r)).2 = some (c.call (.update name r)).2 ∧
      (d.crud (.update name r)).1.Mirrors n (c.call (.update name r)).1 := by
  refine h.about rfl rfl (fun addresses key old found => ?_) fun addresses found => ?_
  · have named : (r.replacing old).metadata.name ≠ "" :=
      (h.sound key old (Catalog.value?_of_find? found)).1
    have replaced : k.shape.Holds (Json.Lasting n) (r.replacing old) :=
      Record.holds_withMetadata holds _
    have mirrors := @Store.Mirrors.write k n d.store c h.store key (r.replacing old) replaced named
    refine ⟨_, (d.store.write k.path.text key (r.replacing old).document).2.print, (), ?_, rfl, rfl,
      mirrors, Catalog.sound_put h.sound key named replaced⟩
    refine (Store.answer_put _ _ _).trans ?_
    refine (congrArg (Except.map _) (h.store.replace holds levels addresses h.sound)).trans ?_
    rw [found]
    rfl
  · refine (Store.answer_put _ _ _).trans ?_
    refine (congrArg (Except.map _) (h.store.replace holds levels addresses h.sound)).trans ?_
    rw [found]
    rfl

theorem create :
    (d.crud (.create r)).2 = some (c.call (.create r)).2 ∧
      (d.crud (.create r)).1.Mirrors n (c.call (.create r)).1 := by
  have request : k.resource.request (Crud.create r).operation =
      .ok ⟨.post, k.path.text, some (k.shape.write r)⟩ := Kind.request_collection rfl rfl
  have created := h.store.create holds levels
  have answered := (d.store.answer_post k.path.text (some (k.shape.write r))).trans
    (congrArg (Except.map _) created)
  rw [Catalog.call]
  by_cases unnamed : r.metadata.name = ""
  · rw [if_pos unnamed] at answered ⊢
    rw [crud_of_error h.prepared request answered]
    exact ⟨rfl, h.accept _⟩
  by_cases bound : c.records.has r.metadata.key = true
  · rw [if_neg unnamed, if_pos bound] at answered ⊢
    rw [crud_of_error h.prepared request answered]
    exact ⟨rfl, h.accept _⟩
  · rw [if_neg unnamed, if_neg bound] at answered ⊢
    rw [crud_of_ok h.prepared request answered (a := ()) rfl]
    exact ⟨rfl, h.prepared, h.store.write holds unnamed, Catalog.sound_put h.sound _ unnamed holds⟩

end Mirrors

/-- One call answers alike, and the device mirrors the catalog again. -/
theorem Mirrors.crud {d : Device} {c : Catalog k} (h : d.Mirrors n c)
    (levels : n + k.shape.height ≤ Document.maxDepth) {call : Crud k}
    (lasting : ∀ r, call.record? = some r → k.shape.Holds (Json.Lasting n) r) :
    (d.crud call).2 = some (c.call call).2 ∧ (d.crud call).1.Mirrors n (c.call call).1 := by
  cases call with
  | create r => exact h.create levels (lasting r rfl)
  | get name => exact h.get levels name
  | update name r => exact h.update levels (lasting r rfl) name
  | delete name => exact h.delete name

/-- The stored records and the outcome after each of a sequence of calls. -/
def outcomes (d : Device) : List (Crud k) → List (Table Json × Outcome (Option (Record k)))
  | [] => []
  | call :: calls =>
    (((d.crud call).1.store.collection? k.path.text).getD [], (d.crud call).2) ::
      (d.crud call).1.outcomes calls

theorem Mirrors.outcomes_eq {d : Device} {c : Catalog k} (h : d.Mirrors n c)
    (levels : n + k.shape.height ≤ Document.maxDepth) {calls : List (Crud k)}
    (lasting : ∀ call ∈ calls, ∀ r, call.record? = some r → k.shape.Holds (Json.Lasting n) r) :
    d.outcomes calls = c.outcomes calls := by
  induction calls generalizing d c with
  | nil => rfl
  | cons call calls ih =>
    obtain ⟨same, mirrors⟩ := h.crud levels (lasting call List.mem_cons_self)
    have others := ih mirrors fun next inside => lasting next (List.mem_cons_of_mem _ inside)
    rw [outcomes, Catalog.outcomes, mirrors.store.records, same, others]

theorem mirrors_empty : ({} : Device).Mirrors n ({} : Catalog k) where
  prepared := rfl
  store := ⟨rfl, fun _ _ => rfl, fun _ => rfl, rfl⟩
  sound _ _ bound := nomatch bound

theorem crud_create_of_unread {d : Device} (prepared : d.prepared = []) {r : Record k}
    (unread : Json.ofText? (k.shape.write r) = none) :
    (d.crud (.create r)).2 = some (.error (.api 400 "invalid JSON body")) := by
  have request : k.resource.request (Crud.create r).operation =
      .ok ⟨.post, k.path.text, some (k.shape.write r)⟩ := Kind.request_collection rfl rfl
  have sent : Store.readBody k.path.text (some (k.shape.write r)) =
      .error (.api 400 "invalid JSON body") := by
    rw [Store.readBody, unread]
    rfl
  have answered : d.store.answer ⟨.post, k.path.text, some (k.shape.write r)⟩ =
      .error (.api 400 "invalid JSON body") := by
    rw [Store.answer_post, Store.create, sent]
    rfl
  rw [crud_of_error prepared request answered]

/-- From the empty device on, all calls about the records of one kind come to what they come to on a
catalog, and leave the documents of its records. -/
theorem outcomes_empty (k : Kind) {n : Nat} (levels : n + k.shape.height ≤ Document.maxDepth)
    (calls : List (Crud k))
    (lasting : ∀ call ∈ calls, ∀ r, call.record? = some r → k.shape.Holds (Json.Lasting n) r) :
    ({} : Device).outcomes calls = ({} : Catalog k).outcomes calls := by
  exact mirrors_empty.outcomes_eq levels lasting

end Device

theorem Device.outcomes_empty_ratioStat :
    (({} : Device).outcomes [.create .ratioStat, .get "ratio", .update "/Common/ratio" .ratioStat,
      .delete "ratio", .get "~"]).map Prod.snd =
    ([.ok none, .ok (some (Record.ratioStat.assigned "ratio" 1)),
      .error (.notFound ("/mgmt/tm/sys/application/custom-stat/~Common~ratio - " ++
        "01020036:3: The requested object was not found.")),
      .ok none, .error (.invalidRequest "object name \"~\" does not address an instance")]).map
        some := by
  have lasting := (Record.holds_ratioStat (Nat.le_refl 2)).imp (fun _ => Json.Plain.lasting) _
  rw [outcomes_empty .customStat (n := 2) (by decide)]
  · decide +kernel
  · intro call inside r sent
    simp only [List.mem_cons, List.not_mem_nil, or_false] at inside
    rcases inside with rfl | rfl | rfl | rfl | rfl
    · exact Option.some.inj sent ▸ lasting
    · exact nomatch sent
    · exact Option.some.inj sent ▸ lasting
    · exact nomatch sent
    · exact nomatch sent

/-- A statistic with one member beside its fields. -/
def Record.statWith (name : String) (value : Json) : Record .customStat :=
  ({ metadata := (Metadata.named "a").toRow, settings := (), own := (none, none, ()),
     extra := [(name, value)] } :
    Entry metadataFields.Row Unit (Option String × Option String × Unit) (Table Json))

/-- The double that `7e-40` is read as. It is written as `6.9999999999999995e-40`, which is read as
another one. -/
def Double.drifting : Double := ⟨false, 8581975028848977, 891⟩

/-- Null within so many arrays. -/
def Json.nested : Nat → Json
  | 0 => .null
  | levels + 1 => .array [nested levels]

theorem Json.numbers_nested {p : Number → Prop} (levels : Nat) : (nested levels).Numbers p := by
  induction levels with
  | zero => trivial
  | succ levels ih => simpa [nested] using ih

theorem Record.ofText?_write_nested :
    Json.ofText? (Kind.customStat.shape.write (Record.statWith "weight" (Json.nested 127))) =
      none := by
  have encoded : Kind.customStat.shape.encode (Record.statWith "weight" (Json.nested 127)) =
      .object [("name", .string "a"), ("weight", Json.nested 127)] := rfl
  rw [Shape.write, encoded]
  refine Json.ofText?_print_of_deep ?_ (by decide +kernel)
  exact ⟨trivial, trivial, Json.numbers_nested 127, trivial⟩

/-- None of the conditions can be left out: a number that is read as another one is not what was
created, a record that nests too deep is not created, and a member under the name of a field takes
the place of that field. -/
theorem Device.outcomes_empty_ne :
    ({} : Device).outcomes
        [.create (Record.statWith "weight" (.number (.double .drifting))), .get "a"] ≠
      ({} : Catalog .customStat).outcomes
        [.create (Record.statWith "weight" (.number (.double .drifting))), .get "a"] ∧
    ({} : Device).outcomes [.create (Record.statWith "weight" (Json.nested 127))] ≠
      ({} : Catalog .customStat).outcomes [.create (Record.statWith "weight" (Json.nested 127))] ∧
    ({} : Device).outcomes [.create (Record.statWith "name" (.string "b"))] ≠
      ({} : Catalog .customStat).outcomes [.create (Record.statWith "name" (.string "b"))] := by
  refine ⟨by decide +kernel, ?_, by decide +kernel⟩
  intro same
  have answers := congrArg (List.map Prod.snd) same
  have refused := crud_create_of_unread (d := {}) rfl Record.ofText?_write_nested
  have created : (({} : Catalog .customStat).call
      (.create (Record.statWith "weight" (Json.nested 127)))).2 = .ok none := rfl
  simp only [outcomes, Catalog.outcomes, List.map_cons, refused, created] at answers
  exact nomatch answers

end IControl
