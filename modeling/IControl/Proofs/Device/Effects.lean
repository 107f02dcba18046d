import IControl.Client
import IControl.Device.Basic
import IControl.Proofs.Device.Store
import IControl.Proofs.Request

/-!
# Effects of calls on a device

A call commits at one point: when the device answers from its store. Whatever
ends a call before that point leaves the store alone, and so does a prepared
answer. After that point only the reading of the reply can fail; the replies to
writes are not read at all, and a request that only reads leaves the store that
it found.
-/

namespace IControl

namespace Device

/-- A request that is executed is recorded, and then it gets a prepared answer, is refused by the
store, or is answered from the store. -/
theorem execute_cases (d : Device) (r : Request) :
    (d.prepared? r).isSome ∧ (d.execute r).1 = d.accept r ∨
    d.prepared? r = none ∧
      ((∃ error, d.store.answer r = .error error ∧ d.execute r = (d.accept r, .error error)) ∨
        ∃ next text, d.store.answer r = .ok (next, text) ∧
          d.execute r = ({ d.accept r with store := next }, .ok (Utf8.encode text))) := by
  have prepared : (d.accept r).prepared? r = d.prepared? r := rfl
  have store : (d.accept r).store = d.store := rfl
  rw [execute, answer, prepared, store]
  cases d.prepared? r with
  | some p =>
    refine .inl ⟨rfl, ?_⟩
    cases p <;> rfl
  | none =>
    refine .inr ⟨rfl, ?_⟩
    cases answered : d.store.answer r with
    | error error => exact .inl ⟨error, rfl, rfl⟩
    | ok reply => exact .inr ⟨reply.1, reply.2, rfl, rfl⟩

theorem prepared?_of_nil {d : Device} (prepared : d.prepared = []) (r : Request) :
    d.prepared? r = none := by
  rw [prepared?, prepared]
  rfl

theorem execute_of_unprepared {d : Device} {r : Request} (unprepared : d.prepared? r = none) :
    d.execute r =
      match d.store.answer r with
      | .ok (store, text) => ({ d.accept r with store }, .ok (Utf8.encode text))
      | .error error => (d.accept r, .error error) := by
  rcases d.execute_cases r with ⟨canned, -⟩ | ⟨-, failed | succeeded⟩
  · rw [unprepared] at canned
    exact nomatch canned
  · obtain ⟨error, refused, executed⟩ := failed
    rw [executed, refused]
  · obtain ⟨store, text, answered, executed⟩ := succeeded
    rw [executed, answered]

theorem send_of_patient {d : Device} {ctx : RequestContext} (patient : ctx.cut? (some d.delay) = none)
    (q : Request) : transport.send ctx d q = ((d.execute q).1, some (d.execute q).2) := by
  have waits : transport.wait (transport.accept d q) q = some d.delay := rfl
  rw [Transport.send, transport.call_of_wait waits patient]
  rfl

section
variable {r : Resource} {op : Operation r.shape} {d : Device} {ctx : RequestContext} {q : Request}
  (request : r.request op = .ok q) (patient : ctx.cut? (some d.delay) = none)
  (unprepared : d.prepared? q = none)
include request patient unprepared

theorem call_of_unprepared : (Client.mk ctx).call transport d op =
    match d.store.answer q with
    | .ok (store, text) =>
      ({ d.accept q with store }, some ((op.readReply (Utf8.encode text)).mapError .unmarshal))
    | .error error => (d.accept q, some (.error error)) := by
  rw [Client.call, request, Transport.exchange_ok, send_of_patient patient,
    execute_of_unprepared unprepared]
  cases d.store.answer q <;> rfl

theorem call_of_answer {store : Store} {text : String}
    (answered : d.store.answer q = .ok (store, text)) :
    (Client.mk ctx).call transport d op =
      ({ d.accept q with store }, some ((op.readReply (Utf8.encode text)).mapError .unmarshal)) := by
  rw [call_of_unprepared request patient unprepared, answered]

theorem call_of_refusal {error : ClientError} (refused : d.store.answer q = .error error) :
    (Client.mk ctx).call transport d op = (d.accept q, some (.error error)) := by
  rw [call_of_unprepared request patient unprepared, refused]

end

theorem send_cases (d : Device) (ctx : RequestContext) (r : Request) :
    transport.send ctx d r = (d, some (.error .cancelled)) ∨
    (∃ error, transport.send ctx d r = (d.accept r, some (.error error))) ∨
    transport.send ctx d r = ((d.execute r).1, some (d.execute r).2) := by
  unfold Transport.send
  rcases transport.call_cases ctx d r with
    ⟨-, unsent⟩ | ⟨-, ⟨error, -, cut⟩ | ⟨_, -, -, answered⟩ | ⟨forever, -⟩⟩
  · rw [unsent]
    exact .inl rfl
  · rw [cut]
    exact .inr (.inl ⟨error, rfl⟩)
  · rw [answered]
    exact .inr (.inr rfl)
  · exact nomatch forever

/-- What a call with one request does: it leaves the device with at most the request recorded, or
commits what the store answers and then reads the reply. -/
theorem exchange_cases {α : Type} (d : Device) (ctx : RequestContext)
    (request : Except ClientError Request) (readReply : Bytes → Except Fault α) :
    (transport.exchange ctx d request readReply).1 = d ∨
    (∃ q, request = .ok q ∧ (transport.exchange ctx d request readReply).1 = d.accept q) ∨
    ∃ q store text, request = .ok q ∧ d.store.answer q = .ok (store, text) ∧
      transport.exchange ctx d request readReply = ({ d.accept q with store },
        some ((readReply (Utf8.encode text)).mapError .unmarshal)) := by
  cases request with
  | error error => exact .inl rfl
  | ok q =>
    rw [Transport.exchange_ok]
    rcases d.send_cases ctx q with unsent | ⟨error, cut⟩ | executed
    · rw [unsent]
      exact .inl rfl
    · rw [cut]
      exact .inr (.inl ⟨q, rfl, rfl⟩)
    · rw [executed]
      rcases d.execute_cases q with ⟨-, recorded⟩ | ⟨-, failed | succeeded⟩
      · exact .inr (.inl ⟨q, rfl, recorded⟩)
      · obtain ⟨error, -, refused⟩ := failed
        rw [refused]
        exact .inr (.inl ⟨q, rfl, rfl⟩)
      · obtain ⟨store, text, answered, committed⟩ := succeeded
        rw [committed]
        exact .inr (.inr ⟨q, store, text, rfl, answered, rfl⟩)

theorem isSome_exchange {α : Type} (d : Device) (ctx : RequestContext)
    (request : Except ClientError Request) (readReply : Bytes → Except Fault α) :
    (transport.exchange ctx d request readReply).2.isSome = true := by
  cases request with
  | error error => rfl
  | ok q =>
    rw [Transport.exchange_ok]
    rcases d.send_cases ctx q with sent | ⟨error, sent⟩ | sent <;>
      · rw [sent]
        rfl

end Device

/-- Every call has an outcome. One that fails leaves the store as it was, and the device with at most
the request recorded. Only a create, an update or a delete that succeeds leaves another store. -/
theorem Device.call_effect (d : Device) (ctx : RequestContext) :
    (∀ (r : Resource) (op : Operation r.shape) (called : Device × Outcome op.Result),
      (Client.mk ctx).call Device.transport d op = called → called.2.isSome = true ∧
        (∀ error, called.2 = some (.error error) → called.1.store = d.store ∧
          (called.1 = d ∨ ∃ q, r.request op = .ok q ∧ called.1 = d.accept q)) ∧
        (called.1.store ≠ d.store →
          op.verb ∈ [Verb.create, .update, .delete] ∧ ∃ a, called.2 = some (.ok a))) ∧
    (callVersion Device.transport ctx d).1.store = d.store := by
  constructor
  · intro r op called h
    unfold Client.call at h
    refine ⟨h ▸ d.isSome_exchange ctx (r.request op) op.readReply, ?_⟩
    rcases d.exchange_cases ctx (r.request op) op.readReply with
      unsent | ⟨q, request, recorded⟩ | ⟨q, store, text, request, stored, committed⟩
    · rw [h] at unsent
      rw [unsent]
      exact ⟨fun error _ => ⟨rfl, .inl rfl⟩, fun changed => absurd rfl changed⟩
    · rw [h] at recorded
      rw [recorded]
      exact ⟨fun error _ => ⟨rfl, .inr ⟨q, request, rfl⟩⟩, fun changed => absurd rfl changed⟩
    · rw [h] at committed
      subst committed
      by_cases get : op.method = .get
      · have same : store = d.store :=
          Store.eq_of_answer_get ((Resource.method_request request).trans get) stored
        subst same
        exact ⟨fun error _ => ⟨rfl, .inr ⟨q, request, rfl⟩⟩, fun changed => absurd rfl changed⟩
      · obtain ⟨a, read⟩ := Operation.readReply_of_method get (Utf8.encode text)
        have succeeded : (op.readReply (Utf8.encode text)).mapError ClientError.unmarshal = .ok a := by
          rw [read]
          rfl
        refine ⟨fun error failed => ?_,
          fun _ => ⟨Operation.verb_of_method get, a, congrArg some succeeded⟩⟩
        exact nomatch succeeded.symm.trans (Option.some.inj failed)
  · rcases d.exchange_cases ctx (.ok versionRequest) fun bytes =>
      (Shape.stats.read bytes).map Stats.ofValue with
      unsent | ⟨q, request, recorded⟩ | ⟨q, store, text, request, stored, committed⟩
    · exact (congrArg store unsent).trans rfl
    · exact (congrArg store recorded).trans rfl
    · obtain rfl := Except.ok.inj request
      have same : store = d.store := Store.eq_of_answer_get rfl stored
      unfold callVersion
      rw [committed]
      exact same

/-- A device that needs five milliseconds for an answer. -/
def Device.slow : Device where
  store := Store.addCollection {} "/mgmt/tm/sys/folder"
  delay := 5

/-- The creation of a folder. -/
def Operation.createFolder (name : String) : Operation Kind.folder.resource.shape :=
  .create (Record.withMetadata (k := .folder) Kind.folder.shape.blank (.named name))

theorem Device.call_effect_slow :
    ((Client.mk (.ofLimit (.ofMilliseconds 1))).call transport slow (.createFolder "a")).1.store =
      slow.store ∧
    ∃ a, ((Client.mk .background).call transport slow (.createFolder "a")).2 = some (.ok a) := by
  constructor
  · have late : ((Client.mk (.ofLimit (.ofMilliseconds 1))).call transport slow
        (.createFolder "a")).2 = some (.error (.timeout (.ofMilliseconds 1))) := by rfl
    have effect := (slow.call_effect (.ofLimit (.ofMilliseconds 1))).1 _ (.createFolder "a") _ rfl
    exact (effect.2.1 _ late).1
  · have changed : ((Client.mk .background).call transport slow
        (.createFolder "a")).1.store ≠ slow.store := by decide +kernel
    have effect := (slow.call_effect .background).1 _ (.createFolder "a") _ rfl
    exact (effect.2.2 changed).2

end IControl
