import IControl.Proofs.Device.Records

/-!
# Writing back what was read

A collection is *stocked* by records: each of its documents is that of a record,
with what the device assigned to it. A record that is read from such a collection
is this record, assigned members and all. Written back under the same name, it
replaces itself: it keeps its identity because it has it already, and the device
assigns what it assigned before, but for the generation.
-/

namespace IControl

namespace Record

variable {k : Kind} {n : Nat}

/-- The record as of another generation. -/
def withGeneration (r : Record k) (generation : UInt64) : Record k :=
  r.withMetadata { r.metadata with generation := some generation }

theorem assigned_assigned (x : Record k) (key : String) (before after : UInt64) :
    (x.assigned key before).assigned key after = (x.assigned key before).withGeneration after :=
  congrArg x.withMetadata (x.metadata.assigned_assigned k.path.text key before after)

theorem document_withGeneration {r : Record k} (h : k.shape.Holds (Json.Lasting n) r)
    {members : Table Json} (document : r.document = .object members) (generation : UInt64) :
    (r.withGeneration generation).document =
      .object (members.put "generation" (Json.natural generation.toNat)) := by
  obtain ⟨ms, same, ordered⟩ := r.ordered_document
  obtain ⟨ns, later, orderedLater⟩ := (r.withGeneration generation).ordered_document
  rw [document] at same
  obtain rfl := Json.object.inj same
  have holds : k.shape.Holds (Json.Lasting n) (r.withGeneration generation) := holds_withMetadata h _
  rw [later]
  refine congrArg Json.object
    (orderedLater.ext (Table.ordered_put ordered _ _) fun name => ?_)
  have after := member?_document holds name
  have before := member?_document h name
  rw [later, Json.member?_object] at after
  rw [document, Json.member?_object] at before
  rw [Table.value?_put, after, before, withGeneration, metadata_withMetadata, others_withMetadata]
  by_cases counted : name = "generation"
  · rw [if_pos counted, if_pos (by rw [counted]; decide), counted]
    rfl
  · rw [if_neg counted]
    simp only [Metadata.member?, if_neg counted]

end Record

namespace Store

theorem binding?_write {s : Store} {path name key : String} {old : Json}
    (bound : s.binding? path name = some (key, old)) (record : Json) :
    (s.write path key record).1.binding? path name =
      some (key, stamp path key (s.generation + 1) record) := by
  rw [binding?_eq] at bound ⊢
  rw [recordAt?_write, recordAt?_write]
  cases own : s.recordAt? path (encodeInstance name) with
  | some found =>
    rw [own] at bound
    obtain ⟨rfl, -⟩ := Prod.mk.inj (Option.some.inj bound)
    rw [if_pos ⟨rfl, rfl⟩]
  | none =>
    rw [own] at bound
    split_ifs at bound with qualified
    obtain ⟨found, -, eq⟩ := Option.map_eq_some_iff.1 bound
    obtain ⟨rfl, -⟩ := Prod.mk.inj eq
    rw [if_neg fun here => commonKey_ne name here.2.symm, if_neg qualified, if_pos ⟨rfl, rfl⟩]
    rfl

end Store

namespace Device

variable {k : Kind} {n : Nat}

/-- What the event puts into the collection of a kind is a record that can be read from its text. -/
def Event.Stocks (k : Kind) (n : Nat) : Event → Prop
  | .insert l _ document =>
    l = k → ∃ x : Record l, l.shape.Holds (Json.Lasting n) x ∧ document = x.document
  | .call _ (.on l op _) => l = k → ∀ x, op.record? = some x → l.shape.Holds (Json.Lasting n) x
  | .register .. | .setSingleton .. | .call _ .version => True

/-- A document that is that of a record with a name, as it was assigned under a key. -/
def Stocked (k : Kind) (n : Nat) (key : String) (document : Json) : Prop :=
  ∃ (x : Record k) (generation : UInt64), x.metadata.name ≠ "" ∧ k.shape.Holds (Json.Lasting n) x ∧
    document = (x.assigned key generation).document

theorem Stocked.stamp {x : Record k} (holds : k.shape.Holds (Json.Lasting n) x)
    (named : x.metadata.name ≠ "") (key : String) (generation : UInt64) :
    Stocked k n key (Store.stamp k.path.text key generation x.document) :=
  ⟨x, generation, named, holds, Record.stamp_document holds named key generation⟩

theorem name_of_recordKey? {x : Record k} (holds : k.shape.Holds (Json.Lasting n) x) {key : String}
    (own : recordKey? x.document = some key) : x.metadata.name ≠ "" := by
  intro unnamed
  rw [Record.recordKey?_document holds, if_pos unnamed] at own
  exact nomatch own

/-- A collection that is filled with records is stocked after any history. -/
theorem stocked_history (form : k.form = .collection) (levels : n + k.shape.height ≤ Document.maxDepth)
    (delay : Nat) {events : List Event} (stocks : ∀ event ∈ events, event.Stocks k n) :
    ∀ key document, (history delay events).store.recordAt? k.path.text key = some document →
      Stocked k n key document := by
  refine records_history form delay fun event inside s key document before writes generation => ?_
  have stocks := stocks event inside
  cases writes with
  | insert own =>
    obtain ⟨x, holds, rfl⟩ := stocks rfl
    exact .stamp holds (name_of_recordKey? holds own) key generation
  | create sent own =>
    have holds := stocks rfl _ rfl
    rw [Record.ofText?_write holds levels] at sent
    obtain rfl := Option.some.inj sent
    exact .stamp holds (name_of_recordKey? holds own) key generation
  | @update _ _ r _ _ _ _ sent bound =>
    have holds := stocks rfl r rfl
    rw [Record.ofText?_write holds levels] at sent
    obtain rfl := Option.some.inj sent
    obtain ⟨x, earlier, named, held, rfl⟩ := before key _ (Store.recordAt?_of_binding? bound)
    have old : k.shape.Holds (Json.Lasting n) (x.assigned key earlier) :=
      Record.holds_withMetadata held _
    have kept : (r.replacing (x.assigned key earlier)).metadata.name ≠ "" := named
    rw [Record.withIdentityOf_document holds old named]
    exact .stamp (Record.holds_withMetadata holds _) kept key generation

/-- A record that is read from a stocked collection is the one whose document lies there. The device
only records the reading. -/
theorem document_of_fetched {d seen : Device} (tidy : d.Tidy)
    (levels : n + k.shape.height ≤ Document.maxDepth)
    (stocked : ∀ key document, d.store.recordAt? k.path.text key = some document →
      Stocked k n key document)
    {ctx : RequestContext} {name : String} {r : Record k}
    (fetched : (⟨ctx⟩ : Client k.resource).call transport d (.get name) =
      (seen, some (.ok r))) :
    addressesInstance name = true ∧ seen = d.accept ⟨.get, k.objectPath name, none⟩ ∧
      ∃ key x generation, d.store.binding? k.path.text name = some (key, r.document) ∧
        r = Record.assigned x key generation ∧ x.metadata.name ≠ "" ∧
          k.shape.Holds (Json.Lasting n) x := by
  have success := congrArg Prod.snd fetched
  have addresses := addresses_of_ok rfl success
  rw [call_of_ok success] at fetched
  have patient := RequestContext.cut?_background d.delay
  cases bound : d.store.binding? k.path.text name with
  | none =>
    rw [(tidy.misses patient addresses bound).get] at fetched
    exact nomatch Option.some.inj (Prod.mk.inj fetched).2
  | some b =>
    obtain ⟨key, document⟩ := b
    obtain ⟨x, generation, named, holds, rfl⟩ :=
      stocked key document (Store.recordAt?_of_binding? bound)
    have read := Record.read_document (r := x.assigned key generation)
      (Record.holds_withMetadata holds _) levels
    rw [(tidy.finds patient addresses bound).get, read] at fetched
    obtain ⟨same, answer⟩ := Prod.mk.inj fetched
    obtain rfl : r = x.assigned key generation := (Except.ok.inj (Option.some.inj answer)).symm
    exact ⟨addresses, same.symm, key, x, generation, rfl, rfl, named, holds⟩

/-- Stamping the document of a record that has what a device assigns changes the generation alone. -/
theorem stamp_assigned {x : Record k} (holds : k.shape.Holds (Json.Lasting n) x)
    (named : x.metadata.name ≠ "") (key : String) (before after : UInt64) :
    Store.stamp k.path.text key after (x.assigned key before).document =
      ((x.assigned key before).withGeneration after).document := by
  have assigned : k.shape.Holds (Json.Lasting n) (x.assigned key before) :=
    Record.holds_withMetadata holds _
  rw [← Record.assigned_assigned]
  exact Record.stamp_document assigned named key after

theorem Tidy.written {d : Device} (tidy : d.Tidy) (form : k.form = .collection) (key : String)
    (document : Json) (q : Request) :
    Tidy { d.accept q with store := (d.store.write k.path.text key document).1 } :=
  ⟨tidy.prepared, tidy.placed.write form key document⟩

/-- An update with what was read under the same name succeeds. It changes the generation of the record
to the new count of writes, in the document and in what is read next, and it changes nothing else. -/
theorem update_fetched (form : k.form = .collection) (levels : n + k.shape.height ≤ Document.maxDepth)
    {delay : Nat} {events : List Event} (stocks : ∀ event ∈ events, event.Stocks k n)
    {ctx : RequestContext} {name : String} {seen : Device} {r : Record k}
    (fetched : (⟨ctx⟩ : Client k.resource).call transport (history delay events) (.get name) =
      (seen, some (.ok r)))
    {writer reader : RequestContext} (writes : writer.cut? (some delay) = none)
    (reads : reader.cut? (some delay) = none) :
    ∃ (next : Device) (key : String) (members : Table Json),
      (⟨writer⟩ : Client k.resource).call transport seen (.update name r) = (next, some (.ok ())) ∧
      next.store.generation = (history delay events).store.generation + 1 ∧
      (history delay events).store.binding? k.path.text name = some (key, .object members) ∧
      (history delay events).store.Changes next.store k.path.text key (some (.object members))
        (some (.object (members.put "generation" (Json.natural next.store.generation.toNat)))) ∧
      ((⟨reader⟩ : Client k.resource).call transport next (.get name)).2 =
        some (.ok (r.withMetadata
          { r.metadata with generation := some next.store.generation })) := by
  obtain ⟨tidy, waits⟩ := tidy_history delay events
  obtain ⟨addresses, rfl, key, x, earlier, bound, rfl, named, held⟩ :=
    document_of_fetched tidy levels (stocked_history form levels delay stocks) fetched
  generalize history delay events = d at tidy waits bound ⊢
  have holds : k.shape.Holds (Json.Lasting n) (x.assigned key earlier) :=
    Record.holds_withMetadata held _
  -- The record replaces itself, since it has the identity that it is given.
  have calm : (d.accept ⟨.get, k.objectPath name, none⟩).Tidy := ⟨tidy.prepared, tidy.placed⟩
  have mayWrite : writer.cut? (some d.delay) = none := by rw [waits, writes]
  have updated := (calm.finds mayWrite addresses bound).update (x.assigned key earlier) _
    (Record.ofText?_write holds levels)
  rw [Record.withIdentityOf_document holds holds named, Record.replacing_self] at updated
  obtain ⟨members, document, -⟩ := (x.assigned key earlier).ordered_document
  have stamped := stamp_assigned held named key earlier (d.store.generation + 1)
  have counted := Record.document_withGeneration holds document (d.store.generation + 1)
  have later := calm.written form key (x.assigned key earlier).document
    ⟨.put, k.objectPath name, some (k.shape.write (x.assigned key earlier))⟩
  refine ⟨_, key, members, updated, rfl, document ▸ bound, ?_, ?_⟩
  · have change := d.store.changes_write k.path.text key (x.assigned key earlier).document
    have written : (d.store.write k.path.text key (x.assigned key earlier).document).2 = _ :=
      stamped.trans counted
    rw [Store.recordAt?_of_binding? bound, written] at change
    rw [← document]
    exact change
  · have after := Store.binding?_write bound (x.assigned key earlier).document
    rw [stamped] at after
    have mayRead : reader.cut? (some d.delay) = none := by rw [waits, reads]
    have read := Record.read_document (r := (x.assigned key earlier).withGeneration
      (d.store.generation + 1)) (Record.holds_withMetadata holds _) levels
    rw [(later.finds mayRead addresses after).get, read]
    rfl

/-- The creation of a statistic in `Common`. -/
def statInCommon : List Event :=
  [.call .background (.on .customStat (.create (spacedStat "/Common")) rfl)]

/-- The statistic as the device keeps it. -/
def storedStat : Record .customStat := (spacedStat "/Common").assigned "~Common~a%20b" 1

/-- The statistic is read under its bare name, and written back as the second write. -/
theorem update_fetched_statInCommon :
    ∃ seen next : Device,
      statClient.call transport (history 0 statInCommon) (.get "a b") =
        (seen, some (.ok storedStat)) ∧
      statClient.call transport seen (.update "a b" storedStat) = (next, some (.ok ())) ∧
      (statClient.call transport next (.get "a b")).2 =
        some (.ok (storedStat.withMetadata
          { storedStat.metadata with generation := some 2 })) := by
  have patient : RequestContext.background.cut? (some 0) = none := rfl
  have lasting := (Record.holds_ratioStat (Nat.le_refl 2)).imp (fun _ => Json.Plain.lasting) _
  have stocks : ∀ event ∈ statInCommon, event.Stocks .customStat 2 := by
    intro event inside
    obtain rfl := List.mem_singleton.1 inside
    intro _ x sent
    obtain rfl := Option.some.inj sent
    exact Record.holds_withMetadata lasting _
  have bound : (history 0 statInCommon).store.binding? Kind.customStat.path.text "a b" =
      some ("~Common~a%20b", storedStat.document) := by
    decide +kernel
  have read : Kind.customStat.shape.read (Utf8.encode storedStat.document.print) = .ok storedStat :=
    Record.read_document (Record.holds_withMetadata lasting _) (by decide)
  have found := ((tidy_history 0 statInCommon).1.finds (RequestContext.cut?_background _) (by decide)
    bound).get
  rw [read] at found
  have first : (history 0 statInCommon).store.generation + 1 = 2 := by decide +kernel
  obtain ⟨next, key, members, updated, counted, -, -, again⟩ :=
    update_fetched (k := .customStat) (n := 2) rfl (by decide) stocks found patient patient
  rw [counted, first] at again
  exact ⟨_, next, found, updated, again⟩

end Device

end IControl
