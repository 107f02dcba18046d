import IControl.Proofs.Device.Assignment
import IControl.Proofs.Device.Naming

/-!
# Where the records of a collection come from

Every record of a collection was put there by an insertion, a creation or an
update, stamped with what the device assigns. So what holds of every record that
is written, given that it holds of the records before, holds of all records after
any history. Creations and updates write what the device reads of the text of a
record, which is an object.
-/

namespace IControl

namespace Device

/-- What an event writes into the collection of a kind, before it is stamped, and under which key. -/
inductive Event.Writes (k : Kind) (s : Store) : Event → String → Json → Prop
  | insert {form : k.form = .collection} {key : String} {record : Json} :
      recordKey? record = some key → Writes k s (.insert k form record) key record
  | create {ctx : RequestContext} {r : Record k} {offered : k.resource.offers (.create r) = true}
      {key : String} {document : Json} :
      Json.ofText? (k.shape.write r) = some document → recordKey? document = some key →
        Writes k s (.call ctx (.on k (.create r) offered)) key document
  | update {ctx : RequestContext} {name : String} {r : Record k}
      {offered : k.resource.offers (.update name r) = true} {key : String} {old document : Json} :
      Json.ofText? (k.shape.write r) = some document →
        s.binding? k.path.text name = some (key, old) →
        Writes k s (.call ctx (.on k (.update name r) offered)) key
          (Store.withIdentityOf old document)

theorem readBody_eq_ok {path text : String} {document : Json}
    (h : Store.readBody path (some text) = .ok document) : Json.ofText? text = some document := by
  cases read : Json.ofText? text with
  | none =>
    simp only [Store.readBody, read] at h
    cases h
  | some found =>
    simp only [Store.readBody, read] at h
    exact congrArg some (Except.ok.inj h)

section
variable {d : Device} (tidy : d.Tidy) {k : Kind} (form : k.form = .collection)
include tidy form

theorem Tidy.origin_call {ctx : RequestContext} {op : Operation k.resource.shape}
    (offered : k.resource.offers op = true) {key : String} {record : Json}
    (found : ((Call.on k op offered).run ctx d).store.recordAt? k.path.text key = some record) :
    d.store.recordAt? k.path.text key = some record ∨
      ∃ document, Event.Writes k d.store (.call ctx (.on k op offered)) key document ∧
        record = Store.stamp k.path.text key (d.store.generation + 1) document := by
  rcases (Call.on k op offered).run_cases ctx d with
    unsent | ⟨q, -, recorded⟩ | ⟨q, next, text, sent, answered, done, -⟩
  · rw [unsent] at found
    exact .inl found
  · rw [recorded] at found
    exact .inl found
  rw [done] at found
  have request : k.resource.request op = .ok q := sent
  have reply := Store.answer_eq_ok_iff.1 answered
  have same := Call.form_eq offered
  cases op with
  | list | get | stats =>
    have get : q.method = .get := Resource.method_request request
    rw [Store.eq_of_answer_get get answered] at found
    exact .inl found
  | create r =>
    obtain rfl : q = ⟨.post, k.path.text, some (k.shape.write r)⟩ :=
      Except.ok.inj (request.symm.trans (Kind.request_collection rfl rfl))
    obtain ⟨stored, created, -⟩ := reply
    obtain ⟨document, own, body, keyed, -, written⟩ := Store.create_eq_ok_iff.1 created
    obtain rfl := congrArg Prod.fst written
    rw [Store.recordAt?_write] at found
    split_ifs at found with here
    · obtain rfl := here.2
      exact .inr ⟨document, .create (readBody_eq_ok body) keyed, (Option.some.inj found).symm⟩
    · exact .inl found
  | update name r =>
    have addresses := Call.addresses_of_request sent name rfl
    obtain rfl : q = ⟨.put, k.objectPath name, some (k.shape.write r)⟩ :=
      Except.ok.inj (request.symm.trans (Kind.request_object rfl rfl addresses))
    obtain ⟨stored, replaced, -⟩ := reply
    have replacement := (tidy.placed.replace_object k addresses _).symm.trans replaced
    obtain ⟨document, body, written⟩ := bind_eq_ok_iff.1 replacement
    cases bound : d.store.binding? k.path.text name with
    | none =>
      rw [bound] at written
      exact nomatch written
    | some b =>
      rw [bound] at written
      obtain rfl := congrArg Prod.fst (Except.ok.inj written)
      rw [Store.recordAt?_write] at found
      split_ifs at found with here
      · obtain rfl := here.2
        exact .inr ⟨_, .update (readBody_eq_ok body) bound, (Option.some.inj found).symm⟩
      · exact .inl found
  | delete name =>
    have addresses := Call.addresses_of_request sent name rfl
    obtain rfl : q = ⟨.delete, k.objectPath name, none⟩ :=
      Except.ok.inj (request.symm.trans (Kind.request_object rfl rfl addresses))
    have removal := (tidy.placed.remove_object k addresses).symm.trans reply.1
    cases bound : d.store.binding? k.path.text name with
    | none =>
      rw [bound] at removal
      exact nomatch removal
    | some b =>
      rw [bound] at removal
      obtain rfl := Except.ok.inj removal
      have change := d.store.changes_without k.path.text b.1
      by_cases here : key = b.1
      · rw [here, change.after_eq] at found
        exact nomatch found
      · exact .inl ((change.others key here).symm.trans found)
  | fetch | report | replace => exact nomatch same.trans form

theorem Tidy.origin {event : Event} {key : String} {record : Json}
    (found : (d.occur event).store.recordAt? k.path.text key = some record) :
    d.store.recordAt? k.path.text key = some record ∨
      ∃ document, event.Writes k d.store key document ∧
        record = Store.stamp k.path.text key (d.store.generation + 1) document := by
  cases event with
  | register l _ =>
    have registered : (d.store.addCollection l.path.text).recordAt? k.path.text key =
        some record := found
    rw [Store.recordAt?_addCollection] at registered
    exact .inl registered
  | insert l collection sent =>
    cases own : recordKey? sent with
    | none =>
      have unchanged : d.occur (.insert l collection sent) = d := by
        simp only [Device.occur, step, Store.insert?, own, Option.map_none]
      rw [unchanged] at found
      exact .inl found
    | some carried =>
      have stored : d.occur (.insert l collection sent) =
          { d with store := (d.store.write l.path.text carried sent).1 } := by
        simp only [Device.occur, step, Store.insert?, own, Option.map_some]
      rw [stored, Store.recordAt?_write] at found
      split_ifs at found with here
      · obtain rfl := Kind.eq_of_text here.1
        obtain rfl := here.2
        exact .inr ⟨sent, .insert own, (Option.some.inj found).symm⟩
      · exact .inl found
  | setSingleton l _ document => exact .inl found
  | call ctx c =>
    by_cases kind : c.kind? = some k
    · cases c with
      | version => cases kind
      | on l op offered =>
        obtain rfl : l = k := Option.some.inj kind
        exact tidy.origin_call form offered found
    · have same := ((tidy.run c ctx).2.2 k kind).1
      exact .inl ((congrArg (Option.bind · _) same).symm.trans found)

end

/-- What holds of every record that an event writes, given that it holds of the records before, holds
of all records of the collection after any history. -/
theorem records_history {k : Kind} (form : k.form = .collection) {P : String → Json → Prop}
    (delay : Nat) {events : List Event}
    (written : ∀ event ∈ events, ∀ (s : Store) (key : String) (document : Json),
      (∀ key record, s.recordAt? k.path.text key = some record → P key record) →
        event.Writes k s key document → ∀ generation,
          P key (Store.stamp k.path.text key generation document)) :
    ∀ key record, (history delay events).store.recordAt? k.path.text key = some record →
      P key record := by
  have whole : ∀ d : Device, d.Tidy →
      (∀ key record, d.store.recordAt? k.path.text key = some record → P key record) →
      ∀ key record, (events.foldl Device.occur d).store.recordAt? k.path.text key = some record →
        P key record := by
    induction events with
    | nil => exact fun _ _ holds => holds
    | cons event events ih =>
      intro d tidy holds
      refine ih (fun later inside => written later (List.mem_cons_of_mem _ inside)) _
        (tidy.occur event).1 fun key record found => ?_
      rcases tidy.origin form found with before | ⟨document, writes, rfl⟩
      · exact holds key record before
      · exact written event List.mem_cons_self d.store key document holds writes _
  exact whole { delay } (tidy_history delay []).1 fun _ _ found => nomatch found

/-- The creation of a blank record with this metadata. -/
def Event.creating (k : Kind) (m : Metadata)
    (offered : k.resource.offers (.create (Record.withMetadata (k := k) k.shape.blank m)) = true) :
    Event :=
  .call .background (.on k (.create (Record.withMetadata (k := k) k.shape.blank m)) offered)

end Device

end IControl
