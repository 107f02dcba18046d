import IControl.Proofs.Device.Documents
import IControl.Proofs.Device.Isolation
import IControl.Proofs.Device.Run

/-!
# Created records stay

A record that was created lies under its key until a call replaces or removes it:
a later creation of the same record is refused, calls about other names resolve
to other keys, and calls about other kinds do not reach it. The name under which
the record is addressed has the segment that the device made its key from, and a
binding under this very segment comes before any other. So the record is found
again, as it was sent but for what the device assigns.
-/

namespace IControl

namespace Store

/-- The key that a name stands for in a collection. -/
def key? (s : Store) (path name : String) : Option String :=
  (s.collection? path).bind fun records =>
    (lookupSegment records (encodeInstance name)).map Prod.fst

theorem Placed.of_collection {s next : Store} (h : s.Placed) {k : Kind} (form : k.form = .collection)
    (registered : ∀ path, (next.collection? path).isSome →
      path = k.path.text ∨ (s.collection? path).isSome)
    (singletons : next.singletons = s.singletons) : next.Placed where
  collections path found := by
    rcases registered path found with here | before
    · exact ⟨k, form, here⟩
    · exact h.collections path before
  singletons path found := by
    rw [singleton?, singletons] at found
    exact h.singletons path found

theorem Placed.addCollection {s : Store} (h : s.Placed) {k : Kind} (form : k.form = .collection) :
    (s.addCollection k.path.text).Placed := by
  refine h.of_collection form (fun path found => ?_) ?_
  · rw [collection?_addCollection] at found
    split_ifs at found with here
    · exact .inl here
    · exact .inr found
  · unfold Store.addCollection
    split <;> rfl

theorem Placed.write {s : Store} (h : s.Placed) {k : Kind} (form : k.form = .collection)
    (key : String) (record : Json) : (s.write k.path.text key record).1.Placed := by
  refine h.of_collection form (fun path found => ?_) rfl
  rw [collection?_write] at found
  split_ifs at found with here
  · exact .inl here
  · exact .inr found

theorem Placed.setSingleton {s : Store} (h : s.Placed) {k : Kind} (form : k.form = .singleton)
    (document : Json) : (s.setSingleton k.path.text document).Placed where
  collections := h.collections
  singletons path found := by
    by_cases here : path = k.path.text
    · exact ⟨k, form, here⟩
    · have other := Table.value?_put_ne s.singletons document here
      rw [singleton?, Store.setSingleton, other] at found
      exact h.singletons path found

end Store

namespace Device

/-- What happens to a device that is set up and used through the namespaces. -/
inductive Event where
  | register (k : Kind) (form : k.form = .collection)
  | insert (k : Kind) (form : k.form = .collection) (record : Json)
  | setSingleton (k : Kind) (form : k.form = .singleton) (document : Json)
  | call (ctx : RequestContext) (c : Call)

def occur (d : Device) : Event → Device
  | .register k _ => d.step (.addCollection k.path.text)
  | .insert k _ record => d.step (.insert k.path.text record)
  | .setSingleton k _ document => d.step (.setSingleton k.path.text document)
  | .call ctx c => c.run ctx d

/-- The device after a sequence of events, with a delay before every answer. -/
def history (delay : Nat) (events : List Event) : Device := events.foldl occur { delay }

theorem Tidy.occur {d : Device} (h : d.Tidy) (event : Event) :
    (d.occur event).Tidy ∧ (d.occur event).delay = d.delay := by
  cases event with
  | register k form => exact ⟨⟨h.prepared, h.placed.addCollection form⟩, rfl⟩
  | insert k form record =>
    cases inserted : d.store.insert? k.path.text record with
    | none =>
      have unchanged : d.occur (.insert k form record) = d := by
        simp only [Device.occur, step, inserted]
      rw [unchanged]
      exact ⟨h, rfl⟩
    | some store =>
      have stored : d.occur (.insert k form record) = { d with store } := by
        simp only [Device.occur, step, inserted]
      rw [stored]
      obtain ⟨key, -, rfl⟩ := Option.map_eq_some_iff.1 inserted
      exact ⟨⟨h.prepared, h.placed.write form key record⟩, rfl⟩
  | setSingleton k form document => exact ⟨⟨h.prepared, h.placed.setSingleton form document⟩, rfl⟩
  | call ctx c =>
    obtain ⟨tidy, delay, -⟩ := h.run c ctx
    exact ⟨tidy, delay⟩

theorem tidy_history (delay : Nat) (events : List Event) :
    (history delay events).Tidy ∧ (history delay events).delay = delay := by
  have whole : ∀ d : Device, d.Tidy → d.delay = delay →
      (events.foldl Device.occur d).Tidy ∧ (events.foldl Device.occur d).delay = delay := by
    induction events with
    | nil => exact fun _ tidy same => ⟨tidy, same⟩
    | cons event events ih =>
      intro d tidy same
      obtain ⟨next, kept⟩ := tidy.occur event
      exact ih (d.occur event) next (kept.trans same)
  have empty : ({ delay } : Device).Tidy :=
    ⟨rfl, ⟨fun _ found => (nomatch found), fun _ found => (nomatch found)⟩⟩
  exact whole { delay } empty rfl

end Device

namespace Store

/-- What a call finds right below the collection of a kind, it finds under its only segment. -/
theorem kind?_of_below? {s : Store} {c : Call} {k : Kind} {found : Option (String × Json)}
    (h : s.below? c.path = some (k.path.text, found)) : c.kind? = some k ∧
      ∃ segment records, c.rest = [segment] ∧ s.collection? k.path.text = some records ∧
        found = lookupSegment records segment := by
  obtain ⟨segment, records, above, slash, kept, same⟩ := below?_eq_some h
  obtain ⟨kind, rest⟩ := Call.kind?_of_above above slash
  exact ⟨kind, segment, records, rest, kept, same⟩

theorem Placed.read_of_recordAt? {s : Store} (h : s.Placed) {k : Kind} {name : String}
    {document : Json} (addresses : addressesInstance name = true)
    (found : s.recordAt? k.path.text (encodeInstance name) = some document) :
    s.read (k.path.text ++ "/" ++ encodeInstance name) = .ok document := by
  obtain ⟨noCollection, -, below⟩ := h.at_object k addresses
  obtain ⟨records, held, bound⟩ := Option.bind_eq_some_iff.1 found
  rw [Store.read_eq, noCollection, below, held, Option.map_some, lookupSegment, bound]

end Store

namespace Call

/-- Does a call succeed in replacing or removing the record under a key? -/
def overwrites (c : Call) (ctx : RequestContext) (d : Device) (k : Kind) (key : String) : Bool :=
  c.kind? == some k && (c.verb == .update || c.verb == .delete) &&
    c.object?.bind (d.store.key? k.path.text) == some key && c.succeeds ctx d

theorem object?_of_rest {c : Call} {segment : String} (writes : c.method = .put ∨ c.method = .delete)
    (rest : c.rest = [segment]) : (c.verb = .update ∨ c.verb = .delete) ∧
      ∃ name, c.object? = some name ∧ segment = encodeInstance name := by
  cases c with
  | version => exact nomatch rest
  | on k op offered =>
    cases op with
    | update name record => exact ⟨.inl rfl, name, rfl, (List.cons.inj rest).1.symm⟩
    | delete name => exact ⟨.inr rfl, name, rfl, (List.cons.inj rest).1.symm⟩
    | list | create | fetch | replace => exact nomatch rest
    | get | stats | report => exact absurd writes (by simp [method, Operation.method])

/-- A record stays under its key unless the call overwrites it. -/
theorem recordAt?_run {d : Device} {k : Kind} {key : String} {record : Json}
    (found : d.store.recordAt? k.path.text key = some record) {c : Call} {ctx : RequestContext}
    (kept : c.overwrites ctx d k key = false) :
    (c.run ctx d).store.recordAt? k.path.text key = some record := by
  rcases c.run_cases ctx d with
    unsent | ⟨q, -, recorded⟩ | ⟨q, next, text, sent, answered, done, succeeds⟩
  · rw [unsent]
    exact found
  · rw [recorded]
    exact found
  · rw [done]
    obtain ⟨method, path⟩ := eq_of_request sent
    rcases (Store.effect_of_answer answered).keeps found with same | ⟨writes, old, below⟩
    · exact same
    · -- The path resolved to this very key, so the call is one that overwrites it.
      rw [method] at writes
      rw [path] at below
      obtain ⟨kind, segment, records, rest, held, bound⟩ := Store.kind?_of_below? below
      obtain ⟨verb, name, object, rfl⟩ := object?_of_rest writes rest
      have resolved : d.store.key? k.path.text name = some key := by
        rw [Store.key?, held, Option.bind_some, ← bound]
        rfl
      have success : c.succeeds ctx d = true := by
        refine succeeds fun get => ?_
        rw [get] at writes
        simp at writes
      have overwritten : c.overwrites ctx d k key = true := by
        simp [overwrites, kind, verb, object, resolved, success]
      exact nomatch kept.symm.trans overwritten

end Call

namespace Device

/-- Does no call of a sequence overwrite the record under a key? -/
def leaves (d : Device) (k : Kind) (key : String) : List (RequestContext × Call) → Bool
  | [] => true
  | (ctx, c) :: cs => !c.overwrites ctx d k key && (c.run ctx d).leaves k key cs

theorem recordAt?_calls {d : Device} {k : Kind} {key : String} {record : Json}
    (found : d.store.recordAt? k.path.text key = some record) {cs : List (RequestContext × Call)}
    (kept : d.leaves k key cs = true) :
    (d.calls cs).store.recordAt? k.path.text key = some record := by
  induction cs generalizing d with
  | nil => exact found
  | cons c cs ih =>
    rw [leaves, Bool.and_eq_true, Bool.not_eq_true'] at kept
    exact ih (Call.recordAt?_run found kept.1) kept.2

theorem delay_calls {d : Device} (tidy : d.Tidy) (cs : List (RequestContext × Call)) :
    (d.calls cs).delay = d.delay := by
  induction cs generalizing d with
  | nil => rfl
  | cons c cs ih =>
    obtain ⟨next, delay, -⟩ := tidy.run c.2 c.1
    exact (ih next).trans delay

theorem answer_of_exchange {α : Type} {d next : Device} (prepared : d.prepared = [])
    {ctx : RequestContext} {q : Request} {readReply : Bytes → Except Fault α} {a : α}
    (h : transport.exchange ctx d (.ok q) readReply = (next, some (.ok a))) :
    ∃ store text, d.store.answer q = .ok (store, text) ∧ next = { d.accept q with store } := by
  rw [Transport.exchange_ok] at h
  rcases d.send_cases ctx q with unsent | ⟨error, cut⟩ | executed
  · rw [unsent] at h
    exact nomatch Option.some.inj (Prod.mk.inj h).2
  · rw [cut] at h
    exact nomatch Option.some.inj (Prod.mk.inj h).2
  · rw [executed, execute_of_unprepared (prepared?_of_nil prepared q)] at h
    cases answered : d.store.answer q with
    | error error =>
      rw [answered] at h
      exact nomatch Option.some.inj (Prod.mk.inj h).2
    | ok reply =>
      rw [answered] at h
      exact ⟨reply.1, reply.2, rfl, (Prod.mk.inj h).1.symm⟩

section
variable {k : Kind} {n : Nat} (levels : n + k.shape.height ≤ Document.maxDepth)
include levels

/-- A record that is created has a name, and then its document lies under its key. -/
theorem recordAt?_create {d next : Device} (prepared : d.prepared = []) {r : Record k}
    (holds : k.shape.Holds (Json.Lasting n) r) {ctx : RequestContext}
    (created : (Client.mk ctx : Client k.resource).call transport d (.create r) =
      (next, some (.ok ()))) :
    next.store.recordAt? k.path.text r.metadata.key =
      some (r.assigned r.metadata.key (d.store.generation + 1)).document := by
  have request : k.resource.request (.create r) =
      .ok ⟨.post, k.path.text, some (k.shape.write r)⟩ := Kind.request_collection rfl rfl
  rw [Client.call, request] at created
  obtain ⟨store, text, answered, rfl⟩ := answer_of_exchange prepared created
  obtain ⟨stored, done, -⟩ := Store.answer_eq_ok_iff.1 answered
  obtain ⟨document, key, sent, carried, -, written⟩ := Store.create_eq_ok_iff.1 done
  have same : document = r.document := by
    rw [Store.readBody, Record.ofText?_write holds levels] at sent
    exact (Except.ok.inj sent).symm
  subst same
  rw [Record.recordKey?_document holds] at carried
  split_ifs at carried with unnamed
  obtain rfl := Option.some.inj carried
  have change := d.store.changes_write k.path.text r.metadata.key r.document
  have stamped := Record.stamp_document holds unnamed r.metadata.key (d.store.generation + 1)
  rw [← stamped]
  obtain ⟨rfl, -⟩ := Prod.mk.inj written
  exact change.after_eq

theorem get_of_recordAt? {d : Device} (tidy : d.Tidy) {x : Record k}
    (holds : k.shape.Holds (Json.Lasting n) x) {name : String}
    (found : d.store.recordAt? k.path.text (encodeInstance name) = some x.document)
    (addresses : addressesInstance name = true) {ctx : RequestContext}
    (patient : ctx.cut? (some d.delay) = none) :
    ((Client.mk ctx : Client k.resource).call transport d (.get name)).2 = some (.ok x) := by
  have request : k.resource.request (.get name) =
      .ok ⟨.get, k.path.text ++ "/" ++ encodeInstance name, none⟩ :=
    Kind.request_object rfl rfl addresses
  have answered : d.store.answer ⟨.get, k.path.text ++ "/" ++ encodeInstance name, none⟩ =
      .ok (d.store, x.document.print) := by
    rw [Store.answer_get, tidy.placed.read_of_recordAt? addresses found]
    rfl
  have decoded : (Operation.get name : Operation k.resource.shape).readReply
      (Utf8.encode x.document.print) = .ok x := Record.read_document holds levels
  rw [call_of_answer request patient (prepared?_of_nil tidy.prepared _) answered, decoded]
  rfl

/-- A record that was created is read under its qualified name after any calls that do not overwrite
it: as it was sent, with what the device assigned to it. -/
theorem get_created {delay : Nat} (events : List Event) (creatable : k.isCreatable = true)
    {r : Record k} (holds : k.shape.Holds (Json.Lasting n) r) (unset : r.metadata.fullPath = none)
    (addresses : addressesInstance r.metadata.qualifiedName = true)
    {ctx reader : RequestContext} {next : Device}
    (created : (Client.mk ctx : Client k.resource).call transport (history delay events)
      (.create r) = (next, some (.ok ())))
    {cs : List (RequestContext × Call)} (kept : next.leaves k r.metadata.key cs = true)
    (patient : reader.cut? (some delay) = none) :
    ∃ found : Record k,
      ((Client.mk reader : Client k.resource).call transport (next.calls cs)
        (.get r.metadata.qualifiedName)).2 = some (.ok found) ∧
      found = r.withMetadata { r.metadata with
        fullPath := r.metadata.partition.map (fullPath · r.metadata.name)
        generation := some ((history delay events).store.generation + 1)
        kind := r.metadata.kind.or (some (kindTag k.path.text "state"))
        selfLink := some (Store.host ++ k.path.text ++ "/" ++ r.metadata.key) } ∧
      found.metadata.qualifiedName = r.metadata.qualifiedName := by
  obtain ⟨before, waits⟩ := tidy_history delay events
  have form := Kind.form_of_isCreatable creatable
  have offered : k.resource.offers (.create r) = true := by
    simp [Resource.offers, Kind.resource, Kind.verbs, Operation.form, Operation.verb, form, creatable]
  have ran : (Call.on k (.create r) offered).run ctx (history delay events) = next :=
    congrArg Prod.fst created
  obtain ⟨after, same, -⟩ := before.run (.on k (.create r) offered) ctx
  rw [ran] at after same
  have stored := recordAt?_calls (recordAt?_create levels before.prepared holds created) kept
  -- The key comes from the document that was sent, the segment of the name from the record.
  rw [Metadata.key_eq unset] at stored
  rw [← waits, ← same, ← delay_calls after cs] at patient
  have read := get_of_recordAt? levels (after.calls cs) (Record.holds_withMetadata holds _)
    stored addresses patient
  refine ⟨_, read, ?_, Metadata.qualifiedName_assigned unset _ _ _⟩
  rw [Metadata.assigned_eq unset, Metadata.key_eq unset]

end

/-- A statistic with a space in its name. -/
def spacedStat (partition : String) : Record .customStat :=
  Record.ratioStat.withMetadata ((Metadata.named "a b").inPartition partition)

/-- A device where a statistic is kept that has the same name and no partition. -/
def crowded : List Event :=
  [.register .folder rfl, .insert .customStat rfl (.object [("name", .string "a b")])]

def statClient : Client Kind.customStat.resource := ⟨.background⟩

def createdStat : Device :=
  (statClient.call transport (history 0 crowded) (.create (spacedStat "/Common/"))).1

/-- Calls about statistics of the same name, and about a folder. -/
def busy : List (RequestContext × Call) :=
  [(.background, .on .customStat (.delete "a b") rfl),
    (.background, .on .customStat (.create (spacedStat "Common")) rfl),
    (.background, Call.aboutFolder "a b" false)]

/-- A statistic in a partition is found again after the one without a partition was removed. -/
theorem get_created_spacedStat :
    (spacedStat "/Common/").metadata.qualifiedName = "/Common/a b" ∧
    ∃ found : Record .customStat,
      (statClient.call transport (createdStat.calls busy)
        (.get (spacedStat "/Common/").metadata.qualifiedName)).2 = some (.ok found) ∧
      found.metadata =
        { name := "a b", partition := some "/Common/", fullPath := some "/Common/a b",
          generation := some 2, kind := some "tm:sys:application:custom-stat:customstatstate",
          selfLink := some ("https://localhost/mgmt/tm/sys/application/custom-stat/" ++
            "~Common~a%20b") } := by
  have lasting := (Record.holds_ratioStat (Nat.le_refl 2)).imp (fun _ => Json.Plain.lasting) _
  have holds := Record.holds_withMetadata lasting ((Metadata.named "a b").inPartition "/Common/")
  have addresses : addressesInstance (spacedStat "/Common/").metadata.qualifiedName = true := by
    decide +kernel
  have success : (statClient.call transport (history 0 crowded)
      (.create (spacedStat "/Common/"))).2 = some (.ok ()) := by
    decide +kernel
  have created : statClient.call transport (history 0 crowded) (.create (spacedStat "/Common/")) =
      (createdStat, some (.ok ())) := by
    rw [createdStat, ← success]
  have kept : createdStat.leaves .customStat (spacedStat "/Common/").metadata.key busy = true := by
    decide +kernel
  have patient : RequestContext.background.cut? (some 0) = none := rfl
  obtain ⟨found, read, same, -⟩ := get_created (k := .customStat) (n := 2) (by decide) crowded rfl
    holds rfl addresses created kept patient
  refine ⟨by decide +kernel, found, read, ?_⟩
  rw [same, Record.metadata_withMetadata]
  decide +kernel

end Device

end IControl
