import IControl.Proofs.Shape.Decode
import IControl.Shape.Encode

/-!
# What values keep

Most of a value is determined by its type. Three parts are not: any value that a
field may hold, an object of any members, and what an open object keeps. Objects
of any members are tables, and an open object keeps no member that has a field.
Whatever document a value is decoded from, it is of this form, and numbers and
nesting of what it keeps are those of the document.
-/

namespace IControl

/-- A value with its objects in order, whose numbers are integers of the range in which integers
are kept, and which nests at most so many levels. -/
structure Json.Plain (n : Nat) (j : Json) : Prop where
  ordered : j.Ordered
  integral : j.Integral
  depth_le : j.depth ≤ n

/-- A value with its objects in order, whose numbers survive being written, and which nests at most
so many levels. -/
structure Json.Lasting (n : Nat) (j : Json) : Prop where
  ordered : j.Ordered
  survives : j.Numbers Number.Survives
  depth_le : j.depth ≤ n

theorem Json.Plain.lasting {n : Nat} {j : Json} (h : j.Plain n) : j.Lasting n :=
  ⟨h.ordered, h.integral.imp fun _ => Number.InRange.survives, h.depth_le⟩

/-- A table of bindings with the property. -/
def Table.Keeps {α : Type} (p : String → α → Prop) (t : Table α) : Prop :=
  t.Ordered ∧ ∀ b ∈ t, p b.1 b.2

/-- Every value of a slot has the property. -/
def Presence.Each {α : Type} (p : α → Prop) : (q : Presence) → q.Slot α → Prop
  | .optional, v => ∀ x, v = some x → p x
  | .required, v => p v
  | .defaulted, v => p v
  | .elided, v => p v

mutual

/-- All free values that a value keeps have the property, objects of any members are tables, and an
open object keeps no member under a name of its fields. -/
def Shape.Holds (p : Json → Prop) : (s : Shape) → s.Value → Prop
  | .tree, v => p v
  | .map, v => Table.Keeps (fun _ => p) v
  | .list item, v => List.Forall (item.Holds p) v
  | .struct fields, v => fields.Holds p v
  | .layered metadata settings own _, v =>
    metadata.Holds p v.metadata ∧ settings.Holds p v.settings ∧ own.Holds p v.own ∧
      Table.Keeps (fun name x => name ∉ metadata.names ++ settings.names ++ own.names ∧ p x)
        (Extra.members v.extra)
  | .text, _ => True
  | .flag, _ => True
  | .count, _ => True
  | .skipped, _ => True

def Fields.Holds (p : Json → Prop) : (fs : Fields) → fs.Row → Prop
  | .nil, _ => True
  | .cons field shape rest, (v, row) => field.presence.Each (shape.Holds p) v ∧ rest.Holds p row

end

/-- These shapes may write null, which an optional field takes for no value. -/
def Shape.writesNull : Shape → Bool
  | .tree | .skipped => true
  | _ => false

mutual

/-- No two fields of one object share a name, and no optional field may write null as its value. -/
def Shape.wellFormed : Shape → Bool
  | .list item => item.wellFormed
  | .struct fields => decide fields.names.Nodup && fields.wellFormed
  | .layered metadata settings own _ =>
    decide (metadata.names ++ settings.names ++ own.names).Nodup && metadata.wellFormed &&
      settings.wellFormed && own.wellFormed
  | _ => true

def Fields.wellFormed : Fields → Bool
  | .nil => true
  | .cons field shape rest =>
    !(field.presence == .optional && shape.writesNull) && shape.wellFormed && rest.wellFormed

end

theorem Shape.wellFormed_struct {fields : Fields} :
    (Shape.struct fields).wellFormed = true ↔ fields.names.Nodup ∧ fields.wellFormed = true := by
  simp [wellFormed]

/-- What well-formedness says about a layered shape. -/
structure Shape.WellLayered (metadata settings own : Fields) : Prop where
  nodup : (metadata.names ++ settings.names ++ own.names).Nodup
  metadataNodup : metadata.names.Nodup
  settingsNodup : settings.names.Nodup
  ownNodup : own.names.Nodup
  settingsApart : metadata.names.Disjoint settings.names
  ownApart : (metadata.names ++ settings.names).Disjoint own.names
  metadataFormed : metadata.wellFormed = true
  settingsFormed : settings.wellFormed = true
  ownFormed : own.wellFormed = true

theorem Shape.wellLayered {metadata settings own : Fields} {isOpen : Bool}
    (h : (Shape.layered metadata settings own isOpen).wellFormed = true) :
    WellLayered metadata settings own := by
  simp only [wellFormed, Bool.and_eq_true, decide_eq_true_eq] at h
  obtain ⟨⟨⟨nodup, metadataFormed⟩, settingsFormed⟩, ownFormed⟩ := h
  obtain ⟨both, ownNodup, ownApart⟩ := List.nodup_append'.1 nodup
  obtain ⟨metadataNodup, settingsNodup, settingsApart⟩ := List.nodup_append'.1 both
  exact ⟨nodup, metadataNodup, settingsNodup, ownNodup, settingsApart, ownApart, metadataFormed,
    settingsFormed, ownFormed⟩

theorem Fields.wellFormed_cons {f : Field} {s : Shape} {rest : Fields} :
    (cons f s rest).wellFormed = true ↔ (f.presence = .optional → s.writesNull = false) ∧
      s.wellFormed = true ∧ rest.wellFormed = true := by
  cases f with | mk name otherName presence =>
  cases presence <;> cases written : s.writesNull <;> simp [wellFormed, written]

theorem Table.keeps_nil {α : Type} {p : String → α → Prop} : Keeps p ([] : Table α) :=
  ⟨ordered_nil, fun _ h => absurd h List.not_mem_nil⟩

mutual

theorem Shape.holds_blank {p : Json → Prop} (null : p .null) (s : Shape) : s.Holds p s.blank := by
  match s with
  | .text => trivial
  | .flag => trivial
  | .count => trivial
  | .skipped => trivial
  | .tree => exact null
  | .map => exact Table.keeps_nil
  | .list item => trivial
  | .struct fields => exact Fields.holds_blankRow null fields
  | .layered metadata settings own isOpen =>
    refine ⟨Fields.holds_blankRow null metadata, Fields.holds_blankRow null settings,
      Fields.holds_blankRow null own, ?_⟩
    cases isOpen with
    | true => exact Table.keeps_nil
    | false => exact Table.keeps_nil

theorem Fields.holds_blankRow {p : Json → Prop} (null : p .null) (fs : Fields) :
    fs.Holds p fs.blankRow := by
  match fs with
  | .nil => trivial
  | .cons ⟨_, _, .optional⟩ s rest => exact ⟨nofun, Fields.holds_blankRow null rest⟩
  | .cons ⟨_, _, .required⟩ s rest => exact ⟨s.holds_blank null, Fields.holds_blankRow null rest⟩
  | .cons ⟨_, _, .defaulted⟩ s rest => exact ⟨s.holds_blank null, Fields.holds_blankRow null rest⟩
  | .cons ⟨_, _, .elided⟩ s rest => exact ⟨s.holds_blank null, Fields.holds_blankRow null rest⟩

end

mutual

/-- A shape whose values keep no free value and no members of any name. -/
def Shape.isDetermined : Shape → Bool
  | .text | .flag | .count | .skipped => true
  | .tree | .map => false
  | .list item => item.isDetermined
  | .struct fields => fields.isDetermined
  | .layered metadata settings own isOpen =>
    metadata.isDetermined && settings.isDetermined && own.isDetermined && !isOpen

def Fields.isDetermined : Fields → Bool
  | .nil => true
  | .cons _ shape rest => shape.isDetermined && rest.isDetermined

end

theorem Presence.each_of_forall {α : Type} {p : α → Prop} (h : ∀ a, p a) {presence : Presence}
    (v : presence.Slot α) : presence.Each p v := by
  cases presence with
  | optional => exact fun x _ => h x
  | required => exact h v
  | defaulted => exact h v
  | elided => exact h v

mutual

/-- Where there is no free value, every value has what is asked of the free ones. -/
theorem Shape.holds_of_isDetermined {p : Json → Prop} (s : Shape) (determined : s.isDetermined = true)
    (v : s.Value) : s.Holds p v := by
  match s with
  | .text => trivial
  | .flag => trivial
  | .count => trivial
  | .skipped => trivial
  | .tree => exact nomatch determined
  | .map => exact nomatch determined
  | .list item =>
    exact List.forall_iff_forall_mem.2 fun x _ => Shape.holds_of_isDetermined item determined x
  | .struct fields => exact Fields.holds_of_isDetermined fields determined v
  | .layered metadata settings own true => simp [Shape.isDetermined] at determined
  | .layered metadata settings own false =>
    simp only [Shape.isDetermined, Bool.and_eq_true] at determined
    obtain ⟨⟨⟨metadataDetermined, settingsDetermined⟩, ownDetermined⟩, -⟩ := determined
    exact ⟨Fields.holds_of_isDetermined metadata metadataDetermined _,
      Fields.holds_of_isDetermined settings settingsDetermined _,
      Fields.holds_of_isDetermined own ownDetermined _, Table.keeps_nil⟩

theorem Fields.holds_of_isDetermined {p : Json → Prop} (fs : Fields)
    (determined : fs.isDetermined = true) (row : fs.Row) : fs.Holds p row := by
  match fs, row with
  | .nil, _ => trivial
  | .cons f s rest, (v, row) =>
    rw [Fields.isDetermined, Bool.and_eq_true] at determined
    exact ⟨Presence.each_of_forall (Shape.holds_of_isDetermined s determined.1) v,
      Fields.holds_of_isDetermined rest determined.2 row⟩

end

section
variable {p q : Json → Prop}

theorem Table.Keeps.imp {α : Type} {p q : String → α → Prop} (h : ∀ name a, p name a → q name a)
    {t : Table α} (ht : Keeps p t) : Keeps q t :=
  ⟨ht.1, fun b hb => h b.1 b.2 (ht.2 b hb)⟩

theorem Presence.Each.imp {α : Type} {p q : α → Prop} (h : ∀ a, p a → q a) {presence : Presence}
    {v : presence.Slot α} (hv : presence.Each p v) : presence.Each q v := by
  cases presence with
  | optional => exact fun x is => h x (hv x is)
  | required => exact h v hv
  | defaulted => exact h v hv
  | elided => exact h v hv

mutual

theorem Shape.Holds.imp (h : ∀ j, p j → q j) (s : Shape) {v : s.Value} (hv : s.Holds p v) :
    s.Holds q v := by
  match s with
  | .text => trivial
  | .flag => trivial
  | .count => trivial
  | .skipped => trivial
  | .tree => exact h v hv
  | .map => exact Table.Keeps.imp (fun _ => h) hv
  | .list item => exact List.Forall.imp (fun x hx => Shape.Holds.imp h item hx) hv
  | .struct fields => exact Fields.Holds.imp h fields hv
  | .layered metadata settings own isOpen =>
    obtain ⟨metadataHolds, settingsHolds, ownHolds, kept⟩ := hv
    refine ⟨Fields.Holds.imp h metadata metadataHolds, Fields.Holds.imp h settings settingsHolds,
      Fields.Holds.imp h own ownHolds, ?_⟩
    exact Table.Keeps.imp (fun _ x hx => ⟨hx.1, h x hx.2⟩) kept

theorem Fields.Holds.imp (h : ∀ j, p j → q j) (fs : Fields) {row : fs.Row} (hrow : fs.Holds p row) :
    fs.Holds q row := by
  match fs, row with
  | .nil, _ => trivial
  | .cons _ s rest, (v, row) =>
    exact ⟨Presence.Each.imp (fun _ hx => Shape.Holds.imp h s hx) hrow.1,
      Fields.Holds.imp h rest hrow.2⟩

end

end

namespace Document

/-- A property of documents that passes to their parts and gives the values taken over from them a
property. -/
structure Carries (D : Document → Prop) (p : Json → Prop) : Prop where
  null : p .null
  item {ds : List Document} {closed : Bool} {d : Document} : D (.array ds closed) → d ∈ ds → D d
  member {ms : List (Option String × Document)} {closed : Bool} {m : Option String × Document} :
    D (.object ms closed) → m ∈ ms → D m.2
  value {d : Document} {room : Nat} {j : Json} : D d → d.value? room = some j → p j ∧ D (ofJson j)

theorem carries_ordered : Carries (fun _ => True) Json.Ordered where
  null := trivial
  item _ _ := trivial
  member _ _ := trivial
  value _ taken := ⟨ordered_of_value? taken, trivial⟩

theorem carries_plain (n : Nat) : Carries (Plain n) (Json.Plain n) where
  null := ⟨trivial, trivial, Nat.zero_le n⟩
  item := by
    rintro ds closed d (⟨⟩ | ⟨⟩ | ⟨⟩ | ⟨⟩ | ⟨⟩ | ⟨_, each⟩) hd
    exact (each d hd).mono (Nat.le_succ _)
  member := by
    rintro ms closed m (⟨⟩ | ⟨⟩ | ⟨⟩ | ⟨⟩ | ⟨⟩ | ⟨⟩ | ⟨_, each⟩) hm
    exact (each m hm).mono (Nat.le_succ _)
  value plain taken := by
    obtain ⟨integral, nested⟩ := plain.value taken
    exact ⟨⟨ordered_of_value? taken, integral, nested⟩, plain_ofJson integral nested⟩

end Document

section
variable {D : Document → Prop} {p : Json → Prop}

theorem Presence.each_absent {α : Type} {q : α → Prop} {blank : α} (h : q blank)
    {presence : Presence} {v : presence.Slot α} (absent : presence.absent? blank = some v) :
    presence.Each q v := by
  cases presence with
  | optional =>
    obtain rfl := Option.some.inj absent
    exact nofun
  | required => exact nomatch absent
  | defaulted =>
    obtain rfl := Option.some.inj absent
    exact h
  | elided =>
    obtain rfl := Option.some.inj absent
    exact h

theorem Presence.each_fit {α : Type} {q : α → Prop} {decode : Document → Except Fault α}
    {d : Document} (h : ∀ v, decode d = .ok v → q v) {presence : Presence} {v : presence.Slot α}
    (fits : presence.fit decode d = .ok v) : presence.Each q v := by
  cases presence with
  | optional =>
    rw [Presence.fit.eq_def] at fits
    cases d with
    | null =>
      obtain rfl := Except.ok.inj fits
      exact nofun
    | _ =>
      obtain ⟨x, isValue, rfl⟩ := map_eq_ok_iff.1 fits
      exact fun y same => Option.some.inj same ▸ h x isValue
  | required => exact h v fits
  | defaulted => exact h v fits
  | elided => exact h v fits

theorem Extra.mem_members_keep {taken : String → Bool} {aside : List (String × Json)}
    {isOpen : Bool} {m : String × Json} (h : m ∈ Extra.members (Extra.keep taken aside isOpen)) :
    m ∈ aside ∧ taken m.1 = false := by
  cases isOpen with
  | true => simpa using List.mem_filter.1 (Table.mem_ofBindings h)
  | false => exact absurd h List.not_mem_nil

theorem Extra.ordered_keep (taken : String → Bool) (aside : List (String × Json))
    (isOpen : Bool) : Table.Ordered (Extra.members (Extra.keep taken aside isOpen)) := by
  cases isOpen with
  | true => exact Table.ordered_ofBindings _
  | false => exact Table.ordered_nil

theorem Fields.mem_aside {fs : Fields} {room : Nat} {ms : List (String × Document)}
    {aside : List (String × Json)} (h : fs.aside? room ms = some aside) {x : String × Json}
    (hx : x ∈ aside) :
    fs.answers x.1 = false ∧ ∃ d, (x.1, d) ∈ ms ∧ d.value? room = some x.2 := by
  obtain ⟨m, hm, taken⟩ := exists_of_mem_right (mapM_eq_some_iff.1 h) hx
  obtain ⟨y, isValue, rfl⟩ := Option.map_eq_some_iff.1 taken
  obtain ⟨inside, passed⟩ := List.mem_filter.1 hm
  exact ⟨by simpa using passed, m.2, inside, isValue⟩

mutual

theorem Shape.holds_of_decode (carries : Document.Carries D p) (s : Shape)
    (formed : s.wellFormed = true) {room : Nat} {d : Document} {v : s.Value}
    (decoded : s.decode room d = .ok v) (hd : D d) : s.Holds p v := by
  match s with
  | .text => trivial
  | .flag => trivial
  | .count => trivial
  | .skipped => trivial
  | .tree => exact (carries.value hd (unlessSome_eq_ok_iff.1 decoded)).1
  | .map =>
    obtain ⟨r, ms, ns, rfl, rfl, members, rfl⟩ := Shape.decode_map_eq_ok_iff.1 decoded
    refine ⟨Table.ordered_ofBindings ns, fun n hn => ?_⟩
    obtain ⟨m, hm, -, taken⟩ := exists_of_mem_right members (Table.mem_ofBindings hn)
    exact (carries.value (carries.member hd hm) taken).1
  | .list item =>
    obtain ⟨r, ds, rfl, rfl, items⟩ := Shape.decode_list_eq_ok_iff.1 decoded
    refine List.forall_iff_forall_mem.2 fun x hx => ?_
    obtain ⟨d, inside, decoded⟩ := exists_of_mem_right items hx
    exact Shape.holds_of_decode carries item formed decoded (carries.item hd inside)
  | .struct fields =>
    obtain ⟨nodup, formed⟩ := Shape.wellFormed_struct.1 formed
    cases d with
    | object members closed =>
      obtain ⟨-, r, ms, -, rfl, -, picked⟩ :=
        (Shape.decode_struct_object_eq_ok_iff nodup).1 decoded
      refine Fields.holds_of_pick carries fields formed picked fun m hm => ?_
      exact carries.member hd (List.mem_map_of_mem (f := fun m => (some m.1, m.2)) hm)
    | array items closed =>
      obtain ⟨r, -, decoded⟩ := Shape.decode_struct_array_eq_ok_iff.1 decoded
      exact Fields.holds_of_decodeItems carries fields formed decoded fun d => carries.item hd
    | _ => exact nomatch decoded
  | .layered metadata settings own isOpen =>
    have well := Shape.wellLayered formed
    obtain ⟨r, ms, aside, rfl, rfl, set, ownPicked, metadataPicked, settingsPicked, kept⟩ :=
      (Shape.decode_layered_eq_ok_iff well.metadataNodup well.settingsNodup well.ownNodup).1 decoded
    have members : ∀ m ∈ ms, D m.2 := fun m hm =>
      carries.member hd (List.mem_map_of_mem (f := fun m => (some m.1, m.2)) hm)
    have values : ∀ x ∈ aside, p x.2 ∧ D (Document.ofJson x.2) := fun x hx => by
      obtain ⟨-, d, inside, taken⟩ := Fields.mem_aside set hx
      exact carries.value (members _ inside) taken
    have documents : ∀ m ∈ Document.ofTable aside, D m.2 :=
      List.forall_mem_map.2 fun x hx => (values x hx).2
    refine ⟨Fields.holds_of_pick carries metadata well.metadataFormed metadataPicked documents,
      Fields.holds_of_pick carries settings well.settingsFormed settingsPicked documents,
      Fields.holds_of_pick carries own well.ownFormed ownPicked members, ?_⟩
    rw [← kept]
    refine ⟨Extra.ordered_keep _ aside isOpen, fun x hx => ?_⟩
    obtain ⟨inside, passed⟩ := Extra.mem_members_keep hx
    obtain ⟨notOwn, -⟩ := Fields.mem_aside set inside
    rw [Bool.or_eq_false_iff] at passed
    refine ⟨fun named => ?_, (values x inside).1⟩
    rcases List.mem_append.1 named with named | named
    · rcases List.mem_append.1 named with named | named
      · rw [(Fields.answers_iff _ _).2 named] at passed
        exact absurd passed.1 (by decide)
      · rw [(Fields.answers_iff _ _).2 named] at passed
        exact absurd passed.2 (by decide)
    · rw [(Fields.answers_iff _ _).2 named] at notOwn
      exact absurd notOwn (by decide)

theorem Fields.holds_of_pick (carries : Document.Carries D p) (fs : Fields)
    (formed : fs.wellFormed = true) {room : Nat} {ms : List (String × Document)} {row : fs.Row}
    (picked : fs.pick room ms = some row) (members : ∀ m ∈ ms, D m.2) : fs.Holds p row := by
  match fs, row with
  | .nil, _ => trivial
  | .cons f s rest, (v, row) =>
    obtain ⟨-, shapeFormed, restFormed⟩ := Fields.wellFormed_cons.1 formed
    obtain ⟨own, others⟩ := Fields.pick_cons_eq_some_iff.1 picked
    refine ⟨?_, Fields.holds_of_pick carries rest restFormed others members⟩
    rcases own with ⟨-, absent⟩ | ⟨m, one, fits⟩
    · exact Presence.each_absent (s.holds_blank carries.null) absent
    · have inside : m ∈ ms := List.mem_of_mem_filter (one ▸ List.mem_singleton_self m)
      exact Presence.each_fit (fun v decoded =>
        Shape.holds_of_decode carries s shapeFormed decoded (members m inside)) fits

theorem Fields.holds_of_decodeItems (carries : Document.Carries D p) (fs : Fields)
    (formed : fs.wellFormed = true) {room : Nat} {ds : List Document} {closed : Bool}
    {row : fs.Row} (decoded : fs.decodeItems room ds closed = .ok row) (items : ∀ d ∈ ds, D d) :
    fs.Holds p row := by
  match fs, row with
  | .nil, _ => trivial
  | .cons f s rest, (v, row) =>
    obtain ⟨-, shapeFormed, restFormed⟩ := Fields.wellFormed_cons.1 formed
    obtain ⟨own, others⟩ := Fields.decodeItems_cons_eq_ok_iff.1 decoded
    refine ⟨?_, Fields.holds_of_decodeItems carries rest restFormed others fun d hd =>
      items d (List.mem_of_mem_tail hd)⟩
    rcases own with ⟨-, -, absent⟩ | ⟨d, head, fits⟩
    · exact Presence.each_absent (s.holds_blank carries.null) absent
    · exact Presence.each_fit (fun v decoded => Shape.holds_of_decode carries s shapeFormed decoded
        (items d (List.mem_of_mem_head? head))) fits

end

end

end IControl
