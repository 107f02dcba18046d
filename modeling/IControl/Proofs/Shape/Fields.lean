import IControl.Proofs.Outcome
import IControl.Shape.Decode
import Mathlib.Data.List.Basic
import Mathlib.Data.List.Nodup
import Mathlib.Data.List.Perm.Basic

/-!
# Filling the fields of an object

Members are put into the slots of their fields one by one. What the slots hold in
the end depends for each field only on the members that answer to it: there may
be one of them, or none when the field may be absent. Read this way, the row of
an object is the same for every order of its members, and members of other names
do not matter.
-/

namespace IControl

namespace Fields

theorem field_answers_iff (f : Field) (name : String) :
    f.answers name = true ↔ name ∈ f.name :: f.otherName.toList := by
  simp only [Field.answers, Bool.or_eq_true, beq_iff_eq, List.mem_cons, Option.mem_toList,
    @eq_comm _ name]

theorem answers_iff (fs : Fields) (name : String) : fs.answers name = true ↔ name ∈ fs.names := by
  match fs with
  | .nil => simp [answers, names]
  | .cons f s rest =>
    rw [answers, names, Bool.or_eq_true, field_answers_iff, answers_iff rest name, List.mem_append]

/-- The value of a slot from the members that answer to its field. -/
def slot? (f : Field) (s : Shape) (room : Nat) :
    List (String × Document) → Option (Option (f.presence.Slot s.Value))
  | [] => some none
  | [m] => ((f.presence.fit (s.decode room) m.2).map some).toOption
  | _ => none

/-- The slots that the members fill, whatever their order. -/
def slots? : (fs : Fields) → (room : Nat) → List (String × Document) → Option fs.Slots
  | .nil, _, _ => some ()
  | .cons f s rest, room, ms => do
    let v ← slot? f s room (ms.filter fun m => f.answers m.1)
    let slots ← rest.slots? room ms
    some (v, slots)

/-- The row that the members make. -/
def pick (fs : Fields) (room : Nat) (ms : List (String × Document)) : Option fs.Row :=
  (fs.slots? room ms).bind fs.filled?

theorem slots?_cons_eq_some_iff {f : Field} {s : Shape} {rest : Fields} {room : Nat}
    {ms : List (String × Document)} {v : Option (f.presence.Slot s.Value)} {slots : rest.Slots} :
    (cons f s rest).slots? room ms = some (v, slots) ↔
      slot? f s room (ms.filter fun m => f.answers m.1) = some v ∧
        rest.slots? room ms = some slots := by
  constructor
  · intro h
    rw [slots?] at h
    obtain ⟨w, own, h⟩ := Option.bind_eq_some_iff.1 h
    obtain ⟨others, filled, h⟩ := Option.bind_eq_some_iff.1 h
    obtain ⟨rfl, rfl⟩ := Prod.mk.inj (Option.some.inj h)
    exact ⟨own, filled⟩
  · rintro ⟨own, filled⟩
    rw [slots?, own, filled]
    rfl

theorem slot?_eq_none {f : Field} {s : Shape} {room : Nat} {ms : List (String × Document)}
    (h : slot? f s room ms = some none) : ms = [] := by
  match ms with
  | [] => rfl
  | [m] =>
    cases fits : f.presence.fit (s.decode room) m.2 <;>
      simp [slot?, fits, Except.map, Except.toOption] at h
  | _ :: _ :: _ => simp [slot?] at h

theorem slot?_concat {f : Field} {s : Shape} {room : Nat} {ms : List (String × Document)}
    {m : String × Document} {v : Option (f.presence.Slot s.Value)} :
    slot? f s room (ms ++ [m]) = some v ↔
      ms = [] ∧ ∃ w, f.presence.fit (s.decode room) m.2 = .ok w ∧ v = some w := by
  match ms with
  | [] =>
    cases fits : f.presence.fit (s.decode room) m.2 <;>
      simp [slot?, fits, Except.map, Except.toOption, eq_comm]
  | [_] => simp [slot?]
  | _ :: _ :: _ => simp [slot?]

theorem slots?_nil (fs : Fields) (room : Nat) : fs.slots? room [] = some fs.unfilled := by
  match fs with
  | .nil => rfl
  | .cons f s rest =>
    have others := slots?_nil rest room
    rw [slots?, others]
    rfl

theorem slots?_filter (fs : Fields) (room : Nat) (keep : String → Bool)
    (ms : List (String × Document)) (h : ∀ name, fs.answers name = true → keep name = true) :
    fs.slots? room (ms.filter fun m => keep m.1) = fs.slots? room ms := by
  match fs with
  | .nil => rfl
  | .cons f s rest =>
    have others := slots?_filter rest room keep ms fun name hn => h name (by simp [answers, hn])
    have own : (ms.filter fun m => keep m.1).filter (fun m => f.answers m.1) =
        ms.filter fun m => f.answers m.1 := by
      rw [List.filter_filter]
      refine List.filter_congr fun m _ => ?_
      cases answered : f.answers m.1 with
      | false => rfl
      | true => rw [h m.1 (by simp [answers, answered]), Bool.and_self]
    rw [slots?, slots?, own, others]

theorem slots?_pass (fs : Fields) (room : Nat) (ms : List (String × Document))
    (m : String × Document) (h : fs.answers m.1 = false) :
    fs.slots? room (ms ++ [m]) = fs.slots? room ms := by
  rw [← slots?_filter fs room fs.answers (ms ++ [m]) fun _ h => h,
    ← slots?_filter fs room fs.answers ms fun _ h => h, List.filter_append,
    List.filter_cons_of_neg (by simp [h]), List.filter_nil, List.append_nil]

theorem slots?_perm (fs : Fields) (room : Nat) {ms ns : List (String × Document)}
    (h : ms.Perm ns) : fs.slots? room ms = fs.slots? room ns := by
  match fs with
  | .nil => rfl
  | .cons f s rest =>
    have others := slots?_perm rest room h
    have own : slot? f s room (ms.filter fun m => f.answers m.1) =
        slot? f s room (ns.filter fun m => f.answers m.1) := by
      have perm := h.filter fun m => f.answers m.1
      generalize ms.filter (fun m => f.answers m.1) = xs at perm ⊢
      generalize ns.filter (fun m => f.answers m.1) = ys at perm ⊢
      match xs, ys, perm.length_eq with
      | [], [], _ => rfl
      | [x], [y], _ => rw [List.perm_singleton.1 perm]
      | _ :: _ :: _, _ :: _ :: _, _ => rfl
    rw [slots?, slots?, own, others]

theorem pick_filter (fs : Fields) (room : Nat) (keep : String → Bool)
    (ms : List (String × Document)) (h : ∀ name, fs.answers name = true → keep name = true) :
    fs.pick room (ms.filter fun m => keep m.1) = fs.pick room ms := by
  rw [pick, slots?_filter fs room keep ms h, pick]

theorem pick_perm (fs : Fields) (room : Nat) {ms ns : List (String × Document)}
    (h : ms.Perm ns) : fs.pick room ms = fs.pick room ns := by
  rw [pick, slots?_perm fs room h, pick]

/-- What picking a field gives: the value of the one member that answers to it, or what its absence
means. -/
theorem pick_cons_eq_some_iff {f : Field} {s : Shape} {rest : Fields} {room : Nat}
    {ms : List (String × Document)} {v : f.presence.Slot s.Value} {row : rest.Row} :
    (cons f s rest).pick room ms = some (v, row) ↔
      (ms.filter (fun m => f.answers m.1) = [] ∧ f.presence.absent? s.blank = some v ∨
        ∃ m, ms.filter (fun m => f.answers m.1) = [m] ∧
          f.presence.fit (s.decode room) m.2 = .ok v) ∧ rest.pick room ms = some row := by
  constructor
  · intro h
    obtain ⟨⟨w, slots⟩, filled, whole⟩ := Option.bind_eq_some_iff.1 h
    obtain ⟨own, others⟩ := slots?_cons_eq_some_iff.1 filled
    rw [filled?] at whole
    obtain ⟨x, isValue, made⟩ := Option.bind_eq_some_iff.1 whole
    obtain ⟨r, rowMade, made⟩ := Option.bind_eq_some_iff.1 made
    obtain ⟨rfl, rfl⟩ := Prod.mk.inj (Option.some.inj made)
    refine ⟨?_, Option.bind_eq_some_iff.2 ⟨slots, others, rowMade⟩⟩
    generalize ms.filter (fun m => f.answers m.1) = answering at own ⊢
    match answering with
    | [] =>
      obtain rfl := Option.some.inj own
      exact .inl ⟨rfl, isValue⟩
    | [m] =>
      cases fits : f.presence.fit (s.decode room) m.2 with
      | error e => simp [slot?, fits, Except.map, Except.toOption] at own
      | ok y =>
        simp only [slot?, fits, Except.map, Except.toOption, Option.some.injEq] at own
        subst own
        exact .inr ⟨m, rfl, fits.trans (congrArg Except.ok (Option.some.inj isValue))⟩
    | _ :: _ :: _ => exact nomatch own
  · rintro ⟨own, others⟩
    obtain ⟨slots, filled, rowMade⟩ := Option.bind_eq_some_iff.1 others
    rcases own with ⟨none, absent⟩ | ⟨m, one, fits⟩
    · refine Option.bind_eq_some_iff.2 ⟨(Option.none, slots),
        slots?_cons_eq_some_iff.2 ⟨by rw [none]; rfl, filled⟩, ?_⟩
      simp only [filled?, rowMade, absent]
      rfl
    · refine Option.bind_eq_some_iff.2 ⟨(some v, slots),
        slots?_cons_eq_some_iff.2 ⟨by rw [one, slot?, fits]; rfl, filled⟩, ?_⟩
      simp only [filled?, rowMade]
      rfl

section
variable {f : Field} {s : Shape} {rest : Fields} {room : Nat} {ms : List (String × Document)}
  {v : f.presence.Slot s.Value} {row : rest.Row}

theorem pick_cons_of_absent (none : ms.filter (fun m => f.answers m.1) = []) :
    (cons f s rest).pick room ms = some (v, row) ↔
      f.presence.absent? s.blank = some v ∧ rest.pick room ms = some row := by
  rw [pick_cons_eq_some_iff, none]
  simp

theorem pick_cons_of_present {m : String × Document}
    (one : ms.filter (fun m => f.answers m.1) = [m]) :
    (cons f s rest).pick room ms = some (v, row) ↔
      f.presence.fit (s.decode room) m.2 = .ok v ∧ rest.pick room ms = some row := by
  rw [pick_cons_eq_some_iff, one]
  simp

end

theorem seat?_eq_none (fs : Fields) (room : Nat) (slots : fs.Slots) (name : String) (d : Document)
    (h : fs.answers name = false) : fs.seat? room slots name d = none := by
  match fs, slots with
  | .nil, _ => rfl
  | .cons f s rest, (v, slots) =>
    rw [answers, Bool.or_eq_false_iff] at h
    have others := seat?_eq_none rest room slots name d h.2
    simp [seat?, h.1, others]

theorem seat?_isSome (fs : Fields) (room : Nat) (slots : fs.Slots) (name : String) (d : Document)
    (h : fs.answers name = true) : ∃ r, fs.seat? room slots name d = some r := by
  match fs, slots with
  | .nil, _ => simp [answers] at h
  | .cons f s rest, (v, slots) =>
    cases answered : f.answers name with
    | true => cases v <;> simp [seat?, answered]
    | false =>
      have other : rest.answers name = true := by simpa [answers, answered] using h
      obtain ⟨r, seated⟩ := seat?_isSome rest room slots name d other
      exact ⟨r.map (v, ·), by simp [seat?, answered, seated]⟩

section
variable {f : Field} {s : Shape} {rest : Fields} {room : Nat} {name : String} {d : Document}
  {v w : Option (f.presence.Slot s.Value)} {before after : rest.Slots}

theorem seat?_cons_of_answers (h : f.answers name = true) :
    (cons f s rest).seat? room (w, before) name d = some (.ok (v, after)) ↔
      w = none ∧ before = after ∧ ∃ x, f.presence.fit (s.decode room) d = .ok x ∧ v = some x := by
  cases w with
  | some w => simp [seat?, h]
  | none =>
    constructor
    · intro seated
      simp only [seat?, h, if_true] at seated
      obtain ⟨x, fits, eq⟩ := map_eq_ok_iff.1 (Option.some.inj seated)
      obtain ⟨rfl, rfl⟩ := Prod.mk.inj eq
      exact ⟨rfl, rfl, x, fits, rfl⟩
    · rintro ⟨-, rfl, x, fits, rfl⟩
      simp only [seat?, h, if_true, fits]
      rfl

theorem seat?_cons_of_not_answers (h : f.answers name = false) :
    (cons f s rest).seat? room (w, before) name d = some (.ok (v, after)) ↔
      w = v ∧ rest.seat? room before name d = some (.ok after) := by
  constructor
  · intro seated
    simp only [seat?, h] at seated
    obtain ⟨r, inner, mapped⟩ := Option.map_eq_some_iff.1 seated
    obtain ⟨filled, rfl, eq⟩ := map_eq_ok_iff.1 mapped
    obtain ⟨rfl, rfl⟩ := Prod.mk.inj eq
    exact ⟨rfl, inner⟩
  · rintro ⟨rfl, seated⟩
    simp only [seat?, h, seated]
    rfl

end

/-- A member that a field answers to goes to its slot, unless there is one already. -/
theorem slots?_concat {fs : Fields} (nodup : fs.names.Nodup) {room : Nat}
    {ms : List (String × Document)} {m : String × Document} (h : fs.answers m.1 = true)
    {slots : fs.Slots} : fs.slots? room (ms ++ [m]) = some slots ↔
      ∃ before, fs.slots? room ms = some before ∧
        fs.seat? room before m.1 m.2 = some (.ok slots) := by
  match fs, slots with
  | .nil, _ => simp [answers] at h
  | .cons f s rest, (v, others) =>
    rw [names, List.nodup_append'] at nodup
    obtain ⟨-, nodup, apart⟩ := nodup
    refine slots?_cons_eq_some_iff.trans ?_
    rw [List.filter_append]
    cases answered : f.answers m.1 with
    | true =>
      have passed : rest.slots? room (ms ++ [m]) = rest.slots? room ms :=
        slots?_pass rest room ms m (Bool.eq_false_iff.2 fun h =>
          apart ((field_answers_iff f m.1).1 answered) ((answers_iff rest m.1).1 h))
      have own : [m].filter (fun m => f.answers m.1) = [m] := List.filter_cons_of_pos answered
      rw [passed, own, slot?_concat]
      constructor
      · rintro ⟨⟨unfilled, x, fits, rfl⟩, filled⟩
        have none : slot? f s room (ms.filter fun m => f.answers m.1) = some none := by
          rw [unfilled]
          rfl
        exact ⟨(_, others), slots?_cons_eq_some_iff.2 ⟨none, filled⟩,
          (seat?_cons_of_answers answered).2 ⟨rfl, rfl, x, fits, rfl⟩⟩
      · rintro ⟨⟨w, before⟩, filled, seated⟩
        obtain ⟨own, others⟩ := slots?_cons_eq_some_iff.1 filled
        obtain ⟨rfl, rfl, x, fits, rfl⟩ := (seat?_cons_of_answers answered).1 seated
        exact ⟨⟨slot?_eq_none own, x, fits, rfl⟩, others⟩
    | false =>
      have other : rest.answers m.1 = true := by simpa [answers, answered] using h
      have own : [m].filter (fun m => f.answers m.1) = [] := by simp [answered]
      rw [own, List.append_nil, slots?_concat nodup other]
      constructor
      · rintro ⟨own, before, filled, seated⟩
        exact ⟨(v, before), slots?_cons_eq_some_iff.2 ⟨own, filled⟩,
          (seat?_cons_of_not_answers answered).2 ⟨rfl, seated⟩⟩
      · rintro ⟨⟨w, before⟩, filled, seated⟩
        obtain ⟨own, others⟩ := slots?_cons_eq_some_iff.1 filled
        obtain ⟨rfl, inner⟩ := (seat?_cons_of_not_answers answered).1 seated
        exact ⟨own, before, others, inner⟩

/-- What one member does to the slots: it fills the slot of its field, or changes nothing. -/
def Seated (fs : Fields) (room : Nat) (before : fs.Slots) (name : String) (d : Document)
    (after : fs.Slots) : Prop :=
  fs.answers name = true ∧ fs.seat? room before name d = some (.ok after) ∨
    fs.answers name = false ∧ before = after

theorem slots?_concat_eq_some_iff {fs : Fields} (nodup : fs.names.Nodup) {room : Nat}
    {ms : List (String × Document)} {m : String × Document} {slots : fs.Slots} :
    fs.slots? room (ms ++ [m]) = some slots ↔
      ∃ before, fs.slots? room ms = some before ∧ fs.Seated room before m.1 m.2 slots := by
  cases answered : fs.answers m.1 with
  | true => simp [slots?_concat nodup answered, Seated, answered]
  | false => simp [slots?_pass fs room ms m answered, Seated, answered]

end Fields

end IControl
