import IControl.Proofs.Http.Session
import IControl.Proofs.Json.Reading
import IControl.Proofs.Shape.RoundTrip

/-!
# What a reply means

A reply is a success or an error by its status alone. A success answers with the
bytes of the body as they are. An error carries the device's own message: the
reason that the body gives, if the body is a document that explains a failure,
and else the whole text of the body, so nothing that the device said is lost.
-/

namespace IControl

open Document

namespace Http

open Json (IsText)

/-! ### Explanations -/

/-- The text explains a failure by a reason: it is an object with one member of the name `message`,
which is the reason, or the array of the reason alone. The other members may be anything, but each
has a name, and half of a surrogate pair is none. -/
inductive Explains (text reason : String) : Prop where
  | object {before after : List (String × Document)} : "message" ∉ before.map Prod.fst →
      "message" ∉ after.map Prod.fst →
        IsText text (.object (named (before ++ ("message", .string (some reason)) :: after)) true) →
          Explains text reason
  | array : IsText text (.array [.string (some reason)] true) → Explains text reason

theorem answers_message_iff {name : String} :
    (Field.optional "message").answers name = true ↔ name = "message" :=
  (Fields.field_answers_iff _ name).trans List.mem_singleton

theorem not_mem_names_iff {ms : List (String × Document)} : "message" ∉ ms.map Prod.fst ↔
    ∀ m ∈ ms, ¬(Field.optional "message").answers m.1 = true := by
  simp only [answers_message_iff, List.mem_map, not_exists, not_and]

theorem decode_failureShape_object_iff {room : Nat} {members : List (Option String × Document)}
    {closed : Bool} {reason : String} :
    failureShape.decode (room + 1) (.object members closed) = .ok (some reason, ()) ↔
      closed = true ∧ ∃ before after, "message" ∉ before.map Prod.fst ∧
        "message" ∉ after.map Prod.fst ∧
        members = named (before ++ ("message", .string (some reason)) :: after) ∧
          membersSound members = true := by
  have nodup : (Fields.ofList [(.optional "message", .text)]).names.Nodup := by decide
  refine (Shape.decode_struct_object_eq_ok_iff nodup).trans (and_congr_right fun _ => ?_)
  constructor
  · rintro ⟨r, ms, same, rfl, sound, picked⟩
    obtain ⟨⟨-, absent⟩ | ⟨m, one, fits⟩, -⟩ := Fields.pick_cons_eq_some_iff.1 picked
    · exact nomatch absent
    obtain ⟨before, after, rfl, others, named, rest⟩ := List.filter_eq_cons_iff.1 one
    obtain ⟨name, d⟩ := m
    obtain rfl := answers_message_iff.1 named
    obtain rfl := Presence.fit_text_iff.1 fits
    refine ⟨before, after, not_mem_names_iff.2 others,
      not_mem_names_iff.2 (List.filter_eq_nil_iff.1 rest), rfl, membersSound_named.2 ?_⟩
    intro m inside
    cases answered : (Field.optional "message").answers m.1 with
    | true =>
      obtain rfl := List.mem_singleton.1 (one ▸ List.mem_filter.2 ⟨inside, answered⟩)
      rfl
    | false => exact sound m inside ((Bool.or_false _).trans answered)
  · rintro ⟨before, after, others, rest, rfl, sound⟩
    refine ⟨room, _, rfl, rfl, fun m inside _ => membersSound_named.1 sound m inside, ?_⟩
    refine Fields.pick_cons_eq_some_iff.2 ⟨.inr ⟨("message", .string (some reason)), ?_, ?_⟩, rfl⟩
    · refine List.filter_eq_cons_iff.2 ⟨before, after, rfl, not_mem_names_iff.1 others,
        answers_message_iff.2 rfl, List.filter_eq_nil_iff.2 (not_mem_names_iff.1 rest)⟩
    · exact Presence.fit_text_iff.2 rfl

theorem decode_failureShape_array_iff {room : Nat} {items : List Document} {closed : Bool}
    {reason : String} :
    failureShape.decode (room + 1) (.array items closed) = .ok (some reason, ()) ↔
      closed = true ∧ items = [.string (some reason)] := by
  refine Shape.decode_struct_array_eq_ok_iff.trans ?_
  constructor
  · rintro ⟨r, same, decoded⟩
    obtain ⟨⟨-, -, absent⟩ | ⟨d, first, fits⟩, ended⟩ := Fields.decodeItems_cons_eq_ok_iff.1 decoded
    · exact nomatch absent
    obtain rfl := Presence.fit_text_iff.1 fits
    match items, closed, first, ended with
    | [_], true, first, _ => exact ⟨rfl, congrArg (· :: []) (Option.some.inj first)⟩
  · rintro ⟨rfl, rfl⟩
    exact ⟨room, rfl, rfl⟩

theorem read_failureShape_iff {text reason : String} :
    failureShape.read (Utf8.encode text) = .ok (some reason, ()) ↔ Explains text reason := by
  refine Shape.read_eq_ok_iff.trans ?_
  constructor
  · rintro ⟨decoded, ended⟩
    obtain ⟨d, read⟩ : ∃ d, Json.read (Utf8.encode text) = (d, true) := ⟨_, Prod.ext rfl ended⟩
    rw [read] at decoded
    cases d with
    | object members closed =>
      obtain ⟨rfl, before, after, others, rest, rfl, sound⟩ :=
        decode_failureShape_object_iff.1 decoded
      exact .object others rest (Json.read_eq_iff.1 ⟨read, Bool.and_eq_true_iff.2 ⟨sound, rfl⟩⟩)
    | array items closed =>
      obtain ⟨rfl, rfl⟩ := decode_failureShape_array_iff.1 decoded
      exact .array (Json.read_eq_iff.1 ⟨read, rfl⟩)
    | _ => exact nomatch decoded
  · intro explains
    cases explains with
    | object others rest isText =>
      obtain ⟨read, sound⟩ := Json.read_eq_iff.2 isText
      rw [read]
      exact ⟨decode_failureShape_object_iff.2
        ⟨rfl, _, _, others, rest, rfl, (Bool.and_eq_true_iff.1 sound).1⟩, rfl⟩
    | array isText =>
      rw [(Json.read_eq_iff.2 isText).1]
      exact ⟨decode_failureShape_array_iff.2 ⟨rfl, rfl⟩, rfl⟩

/-! ### Messages -/

/-- The device's own message in a text: the reason that the text explains a failure by, or else the
whole text. -/
inductive IsMessage (text : String) : String → Prop where
  | reason {reason : String} : Explains text reason → IsMessage text reason
  | whole : (∀ reason, ¬Explains text reason) → IsMessage text text

theorem failureMessage_of_explains {text reason : String} (h : Explains text reason) :
    failureMessage text = reason := by
  rw [failureMessage, read_failureShape_iff.2 h]
  rfl

theorem failureMessage_of_not_explains {text : String} (h : ∀ reason, ¬Explains text reason) :
    failureMessage text = text := by
  unfold failureMessage
  split
  · rename_i v read
    obtain ⟨message, ⟨⟩⟩ : Option String × Unit := v
    cases message with
    | none => rfl
    | some reason => exact absurd (read_failureShape_iff.1 read) (h reason)
  · rfl

/-- The message of a failure is the device's own, and there is no other one. -/
theorem isMessage_iff {text message : String} :
    IsMessage text message ↔ failureMessage text = message := by
  constructor
  · intro isMessage
    cases isMessage with
    | reason explains => exact failureMessage_of_explains explains
    | whole none => exact failureMessage_of_not_explains none
  · rintro rfl
    by_cases explained : ∃ reason, Explains text reason
    · obtain ⟨reason, explains⟩ := explained
      rw [failureMessage_of_explains explains]
      exact .reason explains
    · have none := not_exists.1 explained
      rw [failureMessage_of_not_explains none]
      exact .whole none

/-! ### Outcomes -/

theorem isSuccess_iff {status : Nat} : isSuccess status = true ↔ 200 ≤ status ∧ status ≤ 299 := by
  simp [isSuccess]

/-- What a reply to a request for `path` has to come to. -/
structure Classified (path : String) (reply : Reply) (outcome : Except ClientError Bytes) :
    Prop where
  /-- Exactly a success answers, with the bytes of its body. -/
  ok_iff : ∀ body, outcome = .ok body ↔
    (200 ≤ reply.status ∧ reply.status ≤ 299) ∧ body = reply.body
  /-- Exactly the status 404 is reported as an object that is not there. -/
  isNotFound_iff : (∃ error, outcome = .error error ∧ error.isNotFound = true) ↔ reply.status = 404
  /-- The body has one message. -/
  message : ∃! message, IsMessage (Utf8.lossy reply.body) message
  notFound : reply.status = 404 → ∀ message, IsMessage (Utf8.lossy reply.body) message →
    outcome = .error (.notFound (path ++ " - " ++ message))
  authentication : reply.status = 401 ∨ reply.status = 403 →
    ∀ message, IsMessage (Utf8.lossy reply.body) message →
      outcome = .error (.authentication (toString reply.status ++ " - " ++ message))
  /-- Every other status that is no success is kept. -/
  api : ¬(200 ≤ reply.status ∧ reply.status ≤ 299) → reply.status ∉ [401, 403, 404] →
    ∀ message, IsMessage (Utf8.lossy reply.body) message →
      outcome = .error (.api reply.status message)

theorem isNotFound_ofStatus {status : Nat} {path detail : String} :
    (ClientError.ofStatus status path detail).isNotFound = true ↔ status = 404 := by
  unfold ClientError.ofStatus
  split_ifs <;> simp [ClientError.isNotFound, *]

section
variable {path message : String} {reply : Reply}

theorem readReply_of_success (success : 200 ≤ reply.status ∧ reply.status ≤ 299) :
    readReply path (some reply) = .ok reply.body := if_pos (isSuccess_iff.2 success)

theorem readReply_of_failure (failure : ¬(200 ≤ reply.status ∧ reply.status ≤ 299))
    (isMessage : IsMessage (Utf8.lossy reply.body) message) :
    readReply path (some reply) = .error (.ofStatus reply.status path message) := by
  rw [← isMessage_iff.1 isMessage]
  exact if_neg (mt isSuccess_iff.1 failure)

end

theorem classified_readReply (path : String) (reply : Reply) :
    Classified path reply (readReply path (some reply)) where
  ok_iff body := by
    by_cases success : 200 ≤ reply.status ∧ reply.status ≤ 299
    · rw [readReply_of_success success, Except.ok.injEq, eq_comm]
      exact (and_iff_right success).symm
    · rw [readReply_of_failure success (isMessage_iff.2 rfl)]
      exact ⟨nofun, fun h => absurd h.1 success⟩
  isNotFound_iff := by
    by_cases success : 200 ≤ reply.status ∧ reply.status ≤ 299
    · rw [readReply_of_success success]
      exact ⟨nofun, fun missing => by omega⟩
    · rw [readReply_of_failure success (isMessage_iff.2 rfl)]
      constructor
      · rintro ⟨error, same, notFound⟩
        exact isNotFound_ofStatus.1 (Except.error.inj same ▸ notFound)
      · exact fun missing => ⟨_, rfl, isNotFound_ofStatus.2 missing⟩
  message := ⟨_, isMessage_iff.2 rfl, fun _ other => (isMessage_iff.1 other).symm⟩
  notFound missing message isMessage := by
    rw [readReply_of_failure (by omega) isMessage, ClientError.ofStatus, if_pos missing]
  authentication refused message isMessage := by
    rw [readReply_of_failure (by omega) isMessage, ClientError.ofStatus, if_neg (by omega),
      if_pos refused]
  api failure other message isMessage := by
    simp only [List.mem_cons, List.not_mem_nil, or_false, not_or] at other
    rw [readReply_of_failure failure isMessage, ClientError.ofStatus, if_neg (by omega),
      if_neg (by omega)]

variable {ν : Type}

/-- A request that is put on the network and answered in time comes to what the reply is read as. -/
theorem Session.send_transport {s : Session} {net : Network ν} {ctx : RequestContext} {state : ν}
    {r : Request} {m : Message} (message : s.message? r = some m) {ms : Nat}
    (waits : net.wait (net.accept state m) m = some ms) (patient : ctx.cut? (some ms) = none) :
    (Transport.send (s.transport net) ctx state r).2 =
      some (readReply r.path (net.answer (net.accept state m) m).2) := by
  have wait : (s.transport net).wait ((s.transport net).accept state r) r = some ms := by
    simp only [transport, overNetwork, message, waits]
  rw [Transport.send, Service.call_of_wait _ wait patient]
  simp only [transport, overNetwork, message]
  rfl

/-- Whatever the status and the body of the reply, a request that is answered by it in time succeeds
or fails by the status alone, and a failure carries the device's own message. -/
theorem send_classified (s : Session) (net : Network ν) (ctx : RequestContext) (state : ν)
    (r : Request) {m : Message} {ms : Nat} {reply : Reply} (message : s.message? r = some m)
    (waits : net.wait (net.accept state m) m = some ms) (patient : ctx.cut? (some ms) = none)
    (answered : (net.answer (net.accept state m) m).2 = some reply) :
    ∃ outcome, (Transport.send (s.transport net) ctx state r).2 = some outcome ∧
      Classified r.path reply outcome := by
  refine ⟨_, Session.send_transport message waits patient, ?_⟩
  rw [answered]
  exact classified_readReply r.path reply

/-- A device that does not know an object says so, after the status of the failure. -/
def unknownObject : Reply :=
  ⟨404, Utf8.encode "\x7b\"code\":404,\"message\":\"a is gone\",\"errorStack\":[]\x7d"⟩

/-- The reason in the document of a failure is what the error says. -/
theorem send_classified_unknownObject :
    (Transport.send ((Session.ofSettings {}).transport Session.replying) .background
      [unknownObject] ⟨.get, "/a", none⟩).2 = some (.error (.notFound "/a - a is gone")) := by
  have fit : ((Session.ofSettings {}).message? ⟨.get, "/a", none⟩).isSome = true := by
    decide +kernel
  obtain ⟨m, message⟩ := Option.isSome_iff_exists.1 fit
  have said : IsMessage (Utf8.lossy unknownObject.body) "a is gone" :=
    isMessage_iff.2 (by decide +kernel)
  obtain ⟨outcome, sent, classified⟩ := send_classified (Session.ofSettings {}) Session.replying
    .background [unknownObject] ⟨.get, "/a", none⟩ message rfl rfl rfl
  exact sent.trans (congrArg some (classified.notFound rfl _ said))

end Http

end IControl
