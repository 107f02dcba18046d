import IControl.Proofs.Json.Document
import IControl.Proofs.Shape.Fields
import Mathlib.Data.List.Induction

/-!
# When a document fits a shape

For each shape the documents that it takes, and the value that it makes of them,
without the order in which members are read. An object fits a struct when its
fields can be picked from its members. It fits a layered shape when its own
fields can be picked, the other members can be taken over as values, and the
metadata and the settings can be picked from those.
-/

namespace IControl

theorem unlessSome_eq_ok_iff {α : Type} {a : Option α} {b : α} :
    Fault.unlessSome a = .ok b ↔ a = some b := by
  cases a <;> simp [Fault.unlessSome]

open Document

namespace Fields

variable {fs : Fields} {room : Nat}

theorem collect_step {slots after : fs.Slots} {name : String} {d : Document} :
    (match fs.seat? room slots name d with
      | some r => r
      | none => .ok slots) = .ok after ↔ fs.Seated room slots name d after := by
  cases answered : fs.answers name with
  | true =>
    obtain ⟨r, seated⟩ := seat?_isSome fs room slots name d answered
    simp [Seated, answered, seated]
  | false => simp [Seated, answered, seat?_eq_none fs room slots name d answered]

theorem foldlM_collect (nodup : fs.names.Nodup) {ms : List (String × Json)} {slots : fs.Slots} :
    ms.foldlM (fun slots m =>
      match fs.seat? room slots m.1 (ofJson m.2) with
      | some r => r
      | none => .ok slots) fs.unfilled = .ok slots ↔
      fs.slots? room (ofTable ms) = some slots := by
  induction ms using List.reverseRecOn generalizing slots with
  | nil =>
    rw [ofTable, List.map_nil, slots?_nil, Option.some.injEq]
    exact ⟨fun h => Except.ok.inj h, fun h => congrArg Except.ok h⟩
  | append_singleton ms m ih =>
    rw [List.foldlM_append, bind_eq_ok_iff, ofTable, List.map_append, List.map_singleton,
      slots?_concat_eq_some_iff nodup]
    simp only [ih, List.foldlM_cons, List.foldlM_nil, bind_pure, collect_step, ofTable]

theorem collect_eq_ok_iff (nodup : fs.names.Nodup) {ms : List (String × Json)} {row : fs.Row} :
    fs.collect (fs.seat? room) ms = .ok row ↔ fs.pick room (ofTable ms) = some row := by
  rw [collect, bind_eq_ok_iff, pick, Option.bind_eq_some_iff]
  refine exists_congr fun slots => and_congr (foldlM_collect nodup) ?_
  cases fs.filled? slots <;> simp

theorem struct_step {slots after : fs.Slots} {m : Option String × Document} :
    (do
      let name ← Fault.unlessSome m.1
      match fs.seat? room slots name m.2 with
      | some r => r
      | none => if m.2.isSound then .ok slots else .error .malformed) = .ok after ↔
      ∃ name, m.1 = some name ∧ (fs.answers name = false → m.2.isSound = true) ∧
        fs.Seated room slots name m.2 after := by
  rw [bind_eq_ok_iff]
  refine exists_congr fun name => and_congr unlessSome_eq_ok_iff ?_
  cases answered : fs.answers name with
  | true =>
    obtain ⟨r, seated⟩ := seat?_isSome fs room slots name m.2 answered
    simp [Seated, answered, seated]
  | false =>
    rw [seat?_eq_none fs room slots name m.2 answered]
    cases m.2.isSound <;> simp [Seated, answered]

theorem foldlM_struct (nodup : fs.names.Nodup) {members : List (Option String × Document)}
    {slots : fs.Slots} :
    members.foldlM (fun slots m => do
      let name ← Fault.unlessSome m.1
      match fs.seat? room slots name m.2 with
      | some r => r
      | none => if m.2.isSound then .ok slots else .error .malformed) fs.unfilled = .ok slots ↔
      ∃ ms, members = named ms ∧ (∀ m ∈ ms, fs.answers m.1 = false → m.2.isSound = true) ∧
        fs.slots? room ms = some slots := by
  induction members using List.reverseRecOn generalizing slots with
  | nil =>
    constructor
    · intro h
      exact ⟨[], rfl, by simp, Except.ok.inj h ▸ slots?_nil fs room⟩
    · rintro ⟨ms, empty, -, filled⟩
      rw [List.map_eq_nil_iff.1 empty.symm, slots?_nil] at filled
      exact congrArg Except.ok (Option.some.inj filled)
  | append_singleton members m ih =>
    rw [List.foldlM_append, bind_eq_ok_iff]
    simp only [ih, List.foldlM_cons, List.foldlM_nil, bind_pure, struct_step]
    constructor
    · rintro ⟨before, ⟨ms, rfl, sound, filled⟩, name, isName, whole, seated⟩
      refine ⟨ms ++ [(name, m.2)], ?_, ?_, ?_⟩
      · rw [named_concat, ← isName]
      · intro n hn
        rcases List.mem_append.1 hn with hn | hn
        · exact sound n hn
        · exact List.mem_singleton.1 hn ▸ whole
      · exact (slots?_concat_eq_some_iff nodup).2 ⟨before, filled, seated⟩
    · rintro ⟨ms, eq, sound, filled⟩
      obtain ⟨ms, n, rfl, rfl, rfl⟩ := eq_named_of_concat eq
      obtain ⟨before, filled, seated⟩ := (slots?_concat_eq_some_iff nodup).1 filled
      exact ⟨before, ⟨ms, rfl, fun n hn => sound n (List.mem_append_left _ hn), filled⟩, n.1, rfl,
        sound n (by simp), seated⟩

/-- A member taken over as a value. -/
def takenOver? (room : Nat) (m : String × Document) : Option (String × Json) :=
  (m.2.value? room).map (m.1, ·)

/-- The values of the members that no field answers to, in their order. -/
def aside? (fs : Fields) (room : Nat) (ms : List (String × Document)) :
    Option (List (String × Json)) :=
  (ms.filter fun m => !fs.answers m.1).mapM (takenOver? room)

theorem aside?_concat {ms : List (String × Document)} {m : String × Document}
    {aside : List (String × Json)} :
    fs.aside? room (ms ++ [m]) = some aside ↔ ∃ before, fs.aside? room ms = some before ∧
      (fs.answers m.1 = true ∧ before = aside ∨
        fs.answers m.1 = false ∧ ∃ x, m.2.value? room = some x ∧ before ++ [(m.1, x)] = aside) := by
  rw [aside?, List.filter_append]
  cases answered : fs.answers m.1 with
  | true => simp [aside?, answered]
  | false =>
    simp [aside?, answered, takenOver?, Option.bind_eq_some_iff]

theorem layered_step {slots after : fs.Slots} {kept aside : List (String × Json)}
    {m : Option String × Document} :
    (do
      let name ← Fault.unlessSome m.1
      match fs.seat? room slots name m.2 with
      | some r => r.map (·, kept)
      | none => do
        let x ← Fault.unlessSome (m.2.value? room)
        .ok (slots, kept ++ [(name, x)])) = .ok (after, aside) ↔
      ∃ name, m.1 = some name ∧ fs.Seated room slots name m.2 after ∧
        (fs.answers name = true ∧ kept = aside ∨
          fs.answers name = false ∧ ∃ x, m.2.value? room = some x ∧ kept ++ [(name, x)] = aside) := by
  rw [bind_eq_ok_iff]
  refine exists_congr fun name => and_congr unlessSome_eq_ok_iff ?_
  cases answered : fs.answers name with
  | true =>
    obtain ⟨r, seated⟩ := seat?_isSome fs room slots name m.2 answered
    cases r <;> simp [Seated, answered, seated, Except.map]
  | false =>
    rw [seat?_eq_none fs room slots name m.2 answered]
    cases m.2.value? room <;> simp [Seated, answered, Fault.unlessSome, bind_eq_ok_iff]

theorem foldlM_layered (nodup : fs.names.Nodup) {members : List (Option String × Document)}
    {slots : fs.Slots} {aside : List (String × Json)} :
    members.foldlM (fun (state : fs.Slots × List (String × Json)) m => do
      let name ← Fault.unlessSome m.1
      match fs.seat? room state.1 name m.2 with
      | some r => r.map (·, state.2)
      | none => do
        let x ← Fault.unlessSome (m.2.value? room)
        .ok (state.1, state.2 ++ [(name, x)])) (fs.unfilled, []) = .ok (slots, aside) ↔
      ∃ ms, members = named ms ∧ fs.aside? room ms = some aside ∧
        fs.slots? room ms = some slots := by
  induction members using List.reverseRecOn generalizing slots aside with
  | nil =>
    constructor
    · intro h
      obtain ⟨rfl, rfl⟩ := Prod.mk.inj (Except.ok.inj h)
      exact ⟨[], rfl, rfl, slots?_nil fs room⟩
    · rintro ⟨ms, empty, taken, filled⟩
      obtain rfl := List.map_eq_nil_iff.1 empty.symm
      rw [slots?_nil] at filled
      rw [← Option.some.inj filled, ← Option.some.inj taken]
      rfl
  | append_singleton members m ih =>
    rw [List.foldlM_append, bind_eq_ok_iff]
    simp only [Prod.exists, ih, List.foldlM_cons, List.foldlM_nil, bind_pure, layered_step]
    constructor
    · rintro ⟨before, kept, ⟨ms, rfl, taken, filled⟩, name, isName, seated, further⟩
      refine ⟨ms ++ [(name, m.2)], ?_, ?_, ?_⟩
      · rw [named_concat, ← isName]
      · exact aside?_concat.2 ⟨kept, taken, further⟩
      · exact (slots?_concat_eq_some_iff nodup).2 ⟨before, filled, seated⟩
    · rintro ⟨ms, eq, taken, filled⟩
      obtain ⟨ms, n, rfl, rfl, rfl⟩ := eq_named_of_concat eq
      obtain ⟨before, filled, seated⟩ := (slots?_concat_eq_some_iff nodup).1 filled
      obtain ⟨kept, taken, further⟩ := aside?_concat.1 taken
      exact ⟨before, kept, ⟨ms, rfl, taken, filled⟩, n.1, rfl, seated, further⟩

/-- An array gives the first field its first item, and the others the rest of the items. -/
theorem decodeItems_cons_eq_ok_iff {f : Field} {s : Shape} {rest : Fields}
    {ds : List Document} {closed : Bool} {v : f.presence.Slot s.Value} {row : rest.Row} :
    (cons f s rest).decodeItems room ds closed = .ok (v, row) ↔
      (ds = [] ∧ closed = true ∧ f.presence.absent? s.blank = some v ∨
        ∃ d, ds.head? = some d ∧ f.presence.fit (s.decode room) d = .ok v) ∧
      rest.decodeItems room ds.tail closed = .ok row := by
  match ds, closed with
  | [], false => simp [decodeItems]
  | [], true =>
    constructor
    · intro h
      rw [decodeItems] at h
      cases absent : f.presence.absent? s.blank with
      | none => simp [absent] at h
      | some w =>
        rw [absent] at h
        obtain ⟨others, decoded, eq⟩ := map_eq_ok_iff.1 h
        obtain ⟨rfl, rfl⟩ := Prod.mk.inj eq
        exact ⟨.inl ⟨rfl, rfl, rfl⟩, decoded⟩
    · rintro ⟨⟨-, -, absent⟩ | ⟨d, head, -⟩, decoded⟩
      · rw [decodeItems, absent]
        exact map_eq_ok_iff.2 ⟨row, decoded, rfl⟩
      · exact nomatch head
  | d :: ds, closed =>
    constructor
    · intro h
      obtain ⟨w, fits, others⟩ := bind_eq_ok_iff.1 h
      obtain ⟨r, decoded, eq⟩ := bind_eq_ok_iff.1 others
      obtain ⟨rfl, rfl⟩ := Prod.mk.inj (Except.ok.inj eq)
      exact ⟨.inr ⟨d, rfl, fits⟩, decoded⟩
    · rintro ⟨⟨empty, -⟩ | ⟨d, head, fits⟩, decoded⟩
      · exact nomatch empty
      · obtain rfl := Option.some.inj head
        exact bind_eq_ok_iff.2 ⟨v, fits, bind_eq_ok_iff.2 ⟨row, decoded, rfl⟩⟩

end Fields

namespace Shape

theorem decode_struct_array_eq_ok_iff {fields : Fields} {room : Nat} {ds : List Document}
    {closed : Bool} {row : fields.Row} :
    (Shape.struct fields).decode room (.array ds closed) = .ok row ↔
      ∃ r, room = r + 1 ∧ fields.decodeItems r ds closed = .ok row := by
  constructor
  · intro h
    rw [decode.eq_def] at h
    cases room with
    | zero => exact nomatch h
    | succ r => exact ⟨r, rfl, h⟩
  · rintro ⟨r, rfl, decoded⟩
    rw [decode.eq_def]
    exact decoded

theorem decode_list_eq_ok_iff {item : Shape} {room : Nat} {d : Document}
    {v : (Shape.list item).Value} : (Shape.list item).decode room d = .ok v ↔
      ∃ r ds, room = r + 1 ∧ d = .array ds true ∧
        List.Forall₂ (fun d x => item.decode r d = .ok x) ds v := by
  constructor
  · intro h
    rw [decode.eq_def] at h
    cases d with
    | array ds closed =>
      cases room with
      | zero => exact nomatch h
      | succ r =>
        obtain ⟨xs, items, h⟩ := bind_eq_ok_iff.1 h
        cases closed with
        | false => exact nomatch h
        | true => exact ⟨r, ds, rfl, rfl, Except.ok.inj h ▸ mapM_eq_ok_iff.1 items⟩
    | _ => exact nomatch h
  · rintro ⟨r, ds, rfl, rfl, items⟩
    rw [decode.eq_def]
    exact bind_eq_ok_iff.2 ⟨v, mapM_eq_ok_iff.2 items, rfl⟩

theorem decode_list_ofJson_iff {item : Shape} {room : Nat} {xs : List Json}
    {ys : List item.Value} : (Shape.list item).decode (room + 1) (ofJson (.array xs)) = .ok ys ↔
      List.Forall₂ (fun x y => item.decode room (ofJson x) = .ok y) xs ys := by
  rw [ofJson_array]
  constructor
  · intro decoded
    obtain ⟨r, ds, fits, same, items⟩ := decode_list_eq_ok_iff.1 decoded
    obtain rfl := Nat.succ.inj fits
    obtain ⟨rfl, -⟩ := Document.array.inj same
    exact List.forall₂_map_left_iff.1 items
  · intro items
    exact decode_list_eq_ok_iff.2 ⟨room, _, rfl, rfl, List.forall₂_map_left_iff.2 items⟩

theorem decode_map_eq_ok_iff {room : Nat} {d : Document} {v : Shape.map.Value} :
    Shape.map.decode room d = .ok v ↔
      ∃ r ms ns, room = r + 1 ∧ d = .object ms true ∧
        List.Forall₂ (fun m n => m.1 = some n.1 ∧ m.2.value? r = some n.2) ms ns ∧
          v = Table.ofBindings ns := by
  constructor
  · intro h
    rw [decode.eq_def] at h
    cases d with
    | object ms closed =>
      simp only at h
      cases taken : value? room (.object ms closed) with
      | none => simp [taken] at h
      | some j =>
        obtain ⟨rfl, r, ns, rfl, members, rfl⟩ := value?_object_eq_some_iff.1 taken
        rw [taken] at h
        exact ⟨r, ms, ns, rfl, rfl, members, (Except.ok.inj h).symm⟩
    | _ => exact nomatch h
  · rintro ⟨r, ms, ns, rfl, rfl, members, rfl⟩
    have taken : value? (r + 1) (.object ms true) = some (.ofMembers ns) :=
      value?_object_eq_some_iff.2 ⟨rfl, r, ns, rfl, members, rfl⟩
    rw [decode.eq_def]
    simp only [taken]
    rfl

theorem decode_struct_object_eq_ok_iff {fields : Fields} (nodup : fields.names.Nodup) {room : Nat}
    {members : List (Option String × Document)} {closed : Bool} {row : fields.Row} :
    (Shape.struct fields).decode room (.object members closed) = .ok row ↔ closed = true ∧
      ∃ r ms, room = r + 1 ∧ members = named ms ∧
        (∀ m ∈ ms, fields.answers m.1 = false → m.2.isSound = true) ∧
          fields.pick r ms = some row := by
  constructor
  · intro h
    rw [decode.eq_def] at h
    cases room with
    | zero => exact nomatch h
    | succ r =>
      obtain ⟨slots, folded, ended⟩ := bind_eq_ok_iff.1 h
      obtain ⟨ms, rfl, sound, filled⟩ := (Fields.foldlM_struct nodup).1 folded
      cases closed with
      | false => exact nomatch ended
      | true =>
        refine ⟨rfl, r, ms, rfl, rfl, sound, Option.bind_eq_some_iff.2 ⟨slots, filled, ?_⟩⟩
        cases whole : fields.filled? slots with
        | none => simp [whole] at ended
        | some row =>
          simp only [whole, if_true] at ended
          exact congrArg some (Except.ok.inj ended)
  · rintro ⟨rfl, r, ms, rfl, rfl, sound, picked⟩
    obtain ⟨slots, filled, whole⟩ := Option.bind_eq_some_iff.1 picked
    rw [decode.eq_def]
    refine bind_eq_ok_iff.2 ⟨slots, (Fields.foldlM_struct nodup).2 ⟨ms, rfl, sound, filled⟩, ?_⟩
    simp only [if_true, whole]

theorem decode_layered_eq_ok_iff {metadata settings own : Fields} {isOpen : Bool}
    (metadataNodup : metadata.names.Nodup) (settingsNodup : settings.names.Nodup)
    (ownNodup : own.names.Nodup) {room : Nat} {d : Document}
    {v : (Shape.layered metadata settings own isOpen).Value} :
    (Shape.layered metadata settings own isOpen).decode room d = .ok v ↔
      ∃ r ms aside, room = r + 1 ∧ d = .object (named ms) true ∧
        own.aside? r ms = some aside ∧ own.pick r ms = some (Entry.own v) ∧
        metadata.pick r (ofTable aside) = some (Entry.metadata v) ∧
        settings.pick r (ofTable aside) = some (Entry.settings v) ∧
        Extra.keep (fun name => metadata.answers name || settings.answers name) aside isOpen =
          Entry.extra v := by
  constructor
  · intro h
    rw [decode.eq_def] at h
    cases d with
    | object members closed =>
      cases room with
      | zero => exact nomatch h
      | succ r =>
        obtain ⟨⟨slots, aside⟩, folded, ended⟩ := bind_eq_ok_iff.1 h
        obtain ⟨ms, rfl, taken, filled⟩ := (Fields.foldlM_layered ownNodup).1 folded
        cases closed with
        | false => exact nomatch ended
        | true =>
          cases whole : own.filled? slots with
          | none => simp [whole] at ended
          | some row =>
            simp only [whole, if_true] at ended
            obtain ⟨m, metadataPicked, others⟩ := bind_eq_ok_iff.1 ended
            obtain ⟨s, settingsPicked, made⟩ := bind_eq_ok_iff.1 others
            obtain rfl := Except.ok.inj made
            exact ⟨r, ms, aside, rfl, rfl, taken, Option.bind_eq_some_iff.2 ⟨slots, filled, whole⟩,
              (Fields.collect_eq_ok_iff metadataNodup).1 metadataPicked,
              (Fields.collect_eq_ok_iff settingsNodup).1 settingsPicked, rfl⟩
    | _ => exact nomatch h
  · rintro ⟨r, ms, aside, rfl, rfl, taken, picked, metadataPicked, settingsPicked, kept⟩
    obtain ⟨slots, filled, whole⟩ := Option.bind_eq_some_iff.1 picked
    rw [decode.eq_def]
    refine bind_eq_ok_iff.2 ⟨(slots, aside), (Fields.foldlM_layered ownNodup).2
      ⟨ms, rfl, taken, filled⟩, ?_⟩
    simp only [if_true, whole]
    refine bind_eq_ok_iff.2 ⟨_, (Fields.collect_eq_ok_iff metadataNodup).2 metadataPicked, ?_⟩
    refine bind_eq_ok_iff.2 ⟨_, (Fields.collect_eq_ok_iff settingsNodup).2 settingsPicked, ?_⟩
    rw [kept]
    rfl

end Shape

theorem Presence.fit_text_iff {room : Nat} {d : Document} {text : String} :
    Presence.fit (Shape.text.decode room) .optional d = .ok (some text) ↔
      d = .string (some text) := by
  cases d with
  | string s =>
    cases s with
    | none => exact ⟨nofun, nofun⟩
    | some t =>
      refine ⟨fun fits => ?_, fun same => ?_⟩
      · rw [Option.some.inj (Except.ok.inj fits)]
      · rw [Option.some.inj (Document.string.inj same)]
        rfl
  | _ => exact ⟨nofun, nofun⟩

end IControl
