import IControl.Proofs.Shape.Order

/-!
# Values are read back as they were written

The document of a value names no member twice, and nests as deep as its shape and
what it keeps. A field is picked back from the written members because no other
field has its name, and what is left out is what absence means. The metadata and
the settings of a layered object are picked from the members that its own fields
leave over, and the members that no field has a name for are what it keeps.
-/

namespace IControl

open Document Json

/-- A value that names no member twice, whose numbers survive being written, and which nests at most
so many levels. -/
structure Json.Written (n : Nat) (j : Json) : Prop where
  distinct : j.Distinct
  survives : j.Numbers Number.Survives
  depth_le : j.depth ≤ n

namespace Json

theorem Lasting.written {n : Nat} {j : Json} (h : j.Lasting n) : j.Written n :=
  ⟨h.ordered.distinct, h.survives, h.depth_le⟩

theorem Written.mono {n m : Nat} {j : Json} (h : j.Written n) (le : n ≤ m) : j.Written m :=
  ⟨h.distinct, h.survives, Nat.le_trans h.depth_le le⟩

theorem Written.array {n : Nat} {xs : List Json} (h : ∀ x ∈ xs, x.Written n) :
    (Json.array xs).Written (n + 1) where
  distinct := (distinct_array xs).2 fun x hx => (h x hx).distinct
  survives := (numbers_array xs).2 fun x hx => (h x hx).survives
  depth_le := (depth_array_le xs).2 fun x hx => (h x hx).depth_le

theorem Written.object {n : Nat} {ms : List (String × Json)} (nodup : (Table.names ms).Nodup)
    (h : ∀ m ∈ ms, m.2.Written n) : (Json.object ms).Written (n + 1) where
  distinct := (distinct_object ms).2 ⟨nodup, fun m hm => (h m hm).distinct⟩
  survives := (numbers_object ms).2 fun m hm => (h m hm).survives
  depth_le := (depth_object_le ms).2 fun m hm => (h m hm).depth_le

end Json

mutual

/-- The number of levels that documents of a shape nest by themselves. -/
def Shape.height : Shape → Nat
  | .map => 1
  | .list item => item.height + 1
  | .struct fields => fields.height + 1
  | .layered metadata settings own _ =>
    max (max metadata.height settings.height) own.height + 1
  | _ => 0

def Fields.height : Fields → Nat
  | .nil => 0
  | .cons _ shape rest => max shape.height rest.height

end

theorem Presence.each_written {α : Type} {isBlank : α → Bool} {q : α → Prop}
    {presence : Presence} {v : presence.Slot α} (h : presence.Each q v) {x : α}
    (written : presence.written? isBlank v = some x) : q x := by
  cases presence with
  | optional => exact h x written
  | required => exact Option.some.inj written ▸ h
  | defaulted => exact Option.some.inj written ▸ h
  | elided =>
    rw [written?] at written
    split at written
    · exact nomatch written
    · exact Option.some.inj written ▸ h

namespace Fields

theorem members_cons (f : Field) (s : Shape) (rest : Fields) (v : f.presence.Slot s.Value)
    (row : rest.Row) : (cons f s rest).members (v, row) =
      ((f.presence.written? s.isBlank v).map fun x => (f.name, s.encode x)).toList ++
        rest.members row := by
  rw [members]
  cases f.presence.written? s.isBlank v <;> rfl

theorem value?_members_cons (f : Field) (s : Shape) (rest : Fields)
    (v : f.presence.Slot s.Value) (row : rest.Row) (name : String) :
    Table.value? ((cons f s rest).members (v, row)) name =
      (if name = f.name then (f.presence.written? s.isBlank v).map s.encode else none).or
        (Table.value? (rest.members row) name) := by
  rw [members_cons, Table.value?_append]
  cases f.presence.written? s.isBlank v with
  | none => simp
  | some x => simp [Table.value?_cons]

theorem names_members_sublist (fs : Fields) (row : fs.Row) :
    (Table.names (fs.members row)).Sublist fs.names := by
  match fs, row with
  | .nil, _ => exact List.Sublist.refl []
  | .cons f s rest, (v, row) =>
    have others := (names_members_sublist rest row).trans
      (List.sublist_append_right f.otherName.toList rest.names)
    rw [members_cons, Table.names_append, names]
    cases f.presence.written? s.isBlank v with
    | none => exact others.cons f.name
    | some x => exact others.cons_cons f.name

end Fields

theorem Extra.keeps_names {p : Json → Prop} {wire : List String} {ms : List (String × Json)}
    (h : Table.Keeps (fun name x => name ∉ wire ∧ p x) ms) : wire.Disjoint (Table.names ms) := by
  intro name named inside
  obtain ⟨x, hx⟩ := Table.mem_names.1 inside
  exact (h.2 _ hx).1 named

mutual

theorem Shape.written_encode (s : Shape) (formed : s.wellFormed = true) {n : Nat} {v : s.Value}
    (h : s.Holds (Json.Lasting n) v) : (s.encode v).Written (n + s.height) := by
  match s with
  | .text => exact ⟨trivial, trivial, Nat.zero_le _⟩
  | .flag => exact ⟨trivial, trivial, Nat.zero_le _⟩
  | .count =>
    have small := UInt64.toNat_lt v
    have inside : (Number.integer (UInt64.toNat v)).InRange := ⟨by omega, by omega⟩
    exact ⟨trivial, inside.survives, Nat.zero_le _⟩
  | .skipped => exact ⟨trivial, trivial, Nat.zero_le _⟩
  | .tree => exact Json.Lasting.written h
  | .map => exact Written.object h.1.nodup fun m hm => (h.2 m hm).written
  | .list item =>
    refine Written.array (List.forall_mem_map.2 fun x hx => ?_)
    exact Shape.written_encode item formed (List.forall_iff_forall_mem.1 h x hx)
  | .struct fields =>
    obtain ⟨nodup, formed⟩ := Shape.wellFormed_struct.1 formed
    exact Written.object (nodup.sublist (fields.names_members_sublist v))
      (Fields.written_members fields formed h)
  | .layered metadata settings own isOpen =>
    have well := Shape.wellLayered formed
    obtain ⟨metadataHolds, settingsHolds, ownHolds, kept⟩ := h
    have sublist := ((metadata.names_members_sublist v.metadata).append
      (settings.names_members_sublist v.settings)).append (own.names_members_sublist v.own)
    refine Written.object ?_ fun m hm => ?_
    · rw [Table.names_append, Table.names_append, Table.names_append, List.nodup_append']
      refine ⟨well.nodup.sublist sublist, kept.1.nodup, fun name named => ?_⟩
      exact Extra.keeps_names kept (sublist.subset named)
    · rcases List.mem_append.1 hm with hm | hm
      · rcases List.mem_append.1 hm with hm | hm
        · rcases List.mem_append.1 hm with hm | hm
          · exact (Fields.written_members metadata well.metadataFormed metadataHolds m hm).mono
              (Nat.add_le_add_left (by omega) n)
          · exact (Fields.written_members settings well.settingsFormed settingsHolds m hm).mono
              (Nat.add_le_add_left (by omega) n)
        · exact (Fields.written_members own well.ownFormed ownHolds m hm).mono
            (Nat.add_le_add_left (by omega) n)
      · exact (kept.2 m hm).2.written.mono (Nat.le_add_right n _)

theorem Fields.written_members (fs : Fields) (formed : fs.wellFormed = true) {n : Nat}
    {row : fs.Row} (h : fs.Holds (Json.Lasting n) row) :
    ∀ m ∈ fs.members row, m.2.Written (n + fs.height) := by
  match fs, row with
  | .nil, _ => exact fun m hm => absurd hm List.not_mem_nil
  | .cons f s rest, (v, row) =>
    obtain ⟨-, shapeFormed, restFormed⟩ := Fields.wellFormed_cons.1 formed
    rw [Fields.members_cons]
    intro m hm
    rcases List.mem_append.1 hm with hm | hm
    · obtain ⟨x, written, rfl⟩ := Option.map_eq_some_iff.1 (Option.mem_toList.1 hm)
      have value := Shape.written_encode s shapeFormed (Presence.each_written h.1 written)
      exact value.mono (Nat.add_le_add_left (Nat.le_max_left _ _) n)
    · have other := Fields.written_members rest restFormed h.2 m hm
      exact other.mono (Nat.add_le_add_left (Nat.le_max_right _ _) n)

end

theorem Shape.encode_ne_null {s : Shape} (h : s.writesNull = false) (v : s.Value) :
    s.encode v ≠ .null := by
  cases s with
  | tree => exact nomatch h
  | skipped => exact nomatch h
  | _ => exact nofun

theorem Shape.eq_blank_of_isBlank {s : Shape} {v : s.Value} (h : s.isBlank v = true) :
    v = s.blank := by
  cases s with
  | text => exact eq_of_beq h
  | map => exact List.isEmpty_iff.1 h
  | list item => exact List.isEmpty_iff.1 h
  | _ => exact nomatch h

/-- What is left out is what absence means. -/
theorem Presence.absent_of_written {s : Shape} {presence : Presence} {v : presence.Slot s.Value}
    (h : presence.written? s.isBlank v = none) : presence.absent? s.blank = some v := by
  cases presence with
  | optional => exact congrArg some (Eq.symm h)
  | required => exact nomatch h
  | defaulted => exact nomatch h
  | elided =>
    rw [written?] at h
    split at h
    · rename_i blank
      exact congrArg some (Shape.eq_blank_of_isBlank blank).symm
    · exact nomatch h

theorem Presence.fit_written {α : Type} {isBlank : α → Bool} {decode : Document → Except Fault α}
    {d : Document} {presence : Presence} {v : presence.Slot α} {x : α}
    (written : presence.written? isBlank v = some x) (decoded : decode d = .ok x)
    (notNull : presence = .optional → d ≠ .null) : presence.fit decode d = .ok v := by
  cases presence with
  | optional =>
    rw [fit_optional (notNull rfl), decoded]
    exact congrArg Except.ok (Eq.symm written)
  | required => exact decoded.trans (congrArg Except.ok (Option.some.inj written).symm)
  | defaulted => exact decoded.trans (congrArg Except.ok (Option.some.inj written).symm)
  | elided =>
    rw [written?] at written
    split at written
    · exact nomatch written
    · exact decoded.trans (congrArg Except.ok (Option.some.inj written).symm)

namespace Fields

variable {fs : Fields} {room : Nat}

theorem answers_eq_false {name : String} (h : name ∉ fs.names) : fs.answers name = false := by
  rw [Bool.eq_false_iff, ne_eq, answers_iff]
  exact h

theorem filter_others {ms : List (String × Json)} (h : fs.names.Disjoint (Table.names ms)) :
    ms.filter (fun m => !fs.answers m.1) = ms := by
  refine List.filter_eq_self.2 fun m hm => ?_
  rw [answers_eq_false fun named => h named (Table.mem_names.2 ⟨m.2, hm⟩)]
  rfl

theorem filter_own {ms : List (String × Json)} (h : Table.names ms ⊆ fs.names) :
    ms.filter (fun m => !fs.answers m.1) = [] := by
  refine List.filter_eq_nil_iff.2 fun m hm => ?_
  rw [(answers_iff fs m.1).2 (h (Table.mem_names.2 ⟨m.2, hm⟩))]
  exact Bool.false_ne_true

theorem pick_between {before ms after : List (String × Json)}
    (hb : fs.names.Disjoint (Table.names before)) (ha : fs.names.Disjoint (Table.names after)) :
    fs.pick room (ofTable (before ++ ms ++ after)) = fs.pick room (ofTable ms) := by
  have passed : ∀ others : List (String × Json), fs.names.Disjoint (Table.names others) →
      others.filter (fun m => fs.answers m.1) = [] := fun others apart =>
    List.filter_eq_nil_iff.2 fun m hm answered =>
      apart ((answers_iff fs m.1).1 answered) (Table.mem_names.2 ⟨m.2, hm⟩)
  rw [← pick_filter fs room fs.answers (ofTable (before ++ ms ++ after)) fun _ h => h,
    ← pick_filter fs room fs.answers (ofTable ms) fun _ h => h, filter_ofTable, filter_ofTable,
    List.filter_append, List.filter_append, passed before hb, passed after ha, List.append_nil,
    List.nil_append]

end Fields

theorem Fields.aside?_between {fs : Fields} {room : Nat} {before ms after : List (String × Json)}
    (nested : ∀ m ∈ before ++ ms ++ after, m.2.depth ≤ room)
    (hb : fs.names.Disjoint (Table.names before)) (own : Table.names ms ⊆ fs.names)
    (ha : fs.names.Disjoint (Table.names after)) :
    fs.aside? room (ofTable (before ++ ms ++ after)) =
      some (sortedValues before ++ sortedValues after) := by
  rw [aside?_ofTable nested, List.filter_append, List.filter_append, filter_others hb,
    filter_own own, filter_others ha, List.append_nil, sortedValues_append]

/-- What an open object kept is what remains of the members that were set aside for it. -/
theorem Extra.keep_append {taken : String → Bool} {isOpen : Bool} {e : Extra isOpen}
    {others : List (String × Json)} (hothers : ∀ m ∈ others, taken m.1 = true)
    (hkept : ∀ m ∈ Extra.members e, taken m.1 = false)
    (ordered : Table.Ordered (Extra.members e)) :
    Extra.keep taken (others ++ Extra.members e) isOpen = e := by
  cases isOpen with
  | false => rfl
  | true =>
    have gone : others.filter (fun m => !taken m.1) = [] :=
      List.filter_eq_nil_iff.2 fun m hm => by simp [hothers m hm]
    have stay : (Extra.members e).filter (fun m => !taken m.1) = Extra.members e :=
      List.filter_eq_self.2 fun m hm => by simp [hkept m hm]
    rw [Extra.keep, List.filter_append, gone, stay, List.nil_append]
    exact ordered.ofBindings_eq

/-- A layered object is decoded from the members of its parts, one part after the other. -/
theorem Shape.decode_parts {metadata settings own : Fields} {isOpen : Bool}
    (well : WellLayered metadata settings own) {r : Nat}
    {v : Entry metadata.Row settings.Row own.Row (Extra isOpen)} {ms ss os : List (String × Json)}
    (metadataNames : Table.names ms ⊆ metadata.names)
    (settingsNames : Table.names ss ⊆ settings.names) (ownNames : Table.names os ⊆ own.names)
    (kept : Table.Keeps (fun name x =>
      name ∉ metadata.names ++ settings.names ++ own.names ∧ x.Ordered) (Extra.members v.extra))
    (distinct : ∀ m ∈ ms ++ ss ++ os ++ Extra.members v.extra, m.2.Distinct)
    (nested : ∀ m ∈ ms ++ ss ++ os ++ Extra.members v.extra, m.2.depth ≤ r)
    (metadataPicked : metadata.pick r (ofTable ms) = some v.metadata)
    (settingsPicked : settings.pick r (ofTable ss) = some v.settings)
    (ownPicked : own.pick r (ofTable os) = some v.own) :
    (Shape.layered metadata settings own isOpen).decode (r + 1)
      (ofJson (.object (ms ++ ss ++ os ++ Extra.members v.extra))) = .ok v := by
  have apart := Extra.keeps_names kept
  have ordered := fun m hm => (kept.2 m hm).2
  generalize written : Extra.members v.extra = extra at *
  have msNotOwn : own.names.Disjoint (Table.names ms) := fun name isOwn inside =>
    well.ownApart (List.mem_append_left _ (metadataNames inside)) isOwn
  have ssNotOwn : own.names.Disjoint (Table.names ss) := fun name isOwn inside =>
    well.ownApart (List.mem_append_right _ (settingsNames inside)) isOwn
  have extraNotOwn : own.names.Disjoint (Table.names extra) := fun name isOwn inside =>
    apart (List.mem_append_right _ isOwn) inside
  have extraNotSettings : settings.names.Disjoint (Table.names extra) := fun name is inside =>
    apart (List.mem_append_left _ (List.mem_append_right _ is)) inside
  have extraNotMetadata : metadata.names.Disjoint (Table.names extra) := fun name is inside =>
    apart (List.mem_append_left _ (List.mem_append_left _ is)) inside
  have beforeNotOwn : own.names.Disjoint (Table.names (ms ++ ss)) := by
    rw [Table.names_append, List.disjoint_append_right]
    exact ⟨msNotOwn, ssNotOwn⟩
  have aside : own.aside? r (ofTable (ms ++ ss ++ os ++ extra)) =
      some (sortedValues ms ++ sortedValues ss ++ extra) := by
    rw [Fields.aside?_between nested beforeNotOwn ownNames extraNotOwn, sortedValues_append,
      sortedValues_of_ordered ordered]
  rw [ofJson_object_eq]
  refine (decode_layered_eq_ok_iff well.metadataNodup well.settingsNodup well.ownNodup).2
    ⟨r, _, _, rfl, rfl, aside, ?_, ?_, ?_, ?_⟩
  · rw [Fields.pick_between beforeNotOwn extraNotOwn, ownPicked]
  · have sorted := Fields.pick_sorted metadata well.metadataFormed
      (fun m hm => distinct m (by simp [hm])) (fun m hm => nested m (by simp [hm])) metadataPicked
    rw [← List.nil_append (sortedValues ms ++ sortedValues ss ++ extra), List.append_assoc,
      ← List.append_assoc, Fields.pick_between (List.disjoint_nil_right _), sorted]
    rw [Table.names_append, List.disjoint_append_right, names_sortedValues]
    exact ⟨fun name isMetadata inside => well.settingsApart isMetadata (settingsNames inside),
      extraNotMetadata⟩
  · have sorted := Fields.pick_sorted settings well.settingsFormed
      (fun m hm => distinct m (by simp [hm])) (fun m hm => nested m (by simp [hm])) settingsPicked
    rw [Fields.pick_between _ extraNotSettings, sorted]
    rw [names_sortedValues]
    exact fun name isSettings inside => well.settingsApart (metadataNames inside) isSettings
  · subst written
    refine Extra.keep_append (fun m hm => ?_) (fun m hm => ?_) kept.1
    · rw [Bool.or_eq_true, Fields.answers_iff, Fields.answers_iff]
      rcases List.mem_append.1 hm with hm | hm
      · have named := Table.mem_names.2 ⟨m.2, hm⟩
        rw [names_sortedValues] at named
        exact .inl (metadataNames named)
      · have named := Table.mem_names.2 ⟨m.2, hm⟩
        rw [names_sortedValues] at named
        exact .inr (settingsNames named)
    · have named := Table.mem_names.2 ⟨m.2, hm⟩
      rw [Bool.or_eq_false_iff]
      exact ⟨Fields.answers_eq_false fun is => extraNotMetadata is named,
        Fields.answers_eq_false fun is => extraNotSettings is named⟩

mutual

/-- A value is decoded again from its document. -/
theorem Shape.decode_encode (s : Shape) (formed : s.wellFormed = true) {n room : Nat} {v : s.Value}
    (h : s.Holds (Json.Lasting n) v) (fits : n + s.height ≤ room) :
    s.decode room (ofJson (s.encode v)) = .ok v := by
  match s with
  | .text => rfl
  | .flag => rfl
  | .count =>
    have small := UInt64.toNat_lt v
    have inside : (0 : Int) ≤ UInt64.toNat v ∧ (UInt64.toNat v : Int) < Nat.pow 2 64 :=
      ⟨Int.natCast_nonneg _, Int.ofNat_lt.2 small⟩
    simp only [Shape.encode, Json.natural, ofJson, Shape.decode, if_pos inside, Int.toNat_natCast]
    exact congrArg Except.ok UInt64.ofNat_toNat
  | .skipped => rfl
  | .tree =>
    refine unlessSome_eq_ok_iff.2 ?_
    rw [Shape.encode, value?_ofJson (Nat.le_trans h.depth_le fits), h.ordered.sorted_eq]
    rfl
  | .map =>
    have nested : (Json.object v).depth ≤ room :=
      Nat.le_trans ((depth_object_le v).2 fun m hm => (h.2 m hm).depth_le) fits
    rw [Shape.encode, Shape.decode_map_ofJson nested,
      sortedValues_of_ordered fun m hm => (h.2 m hm).ordered, h.1.ofBindings_eq]
  | .list item =>
    obtain ⟨r, rfl⟩ : ∃ r, room = r + 1 := ⟨room - 1, by simp only [Shape.height] at fits; omega⟩
    have each : ∀ x : item.Value, item.Holds (Json.Lasting n) x →
        item.decode r (ofJson (item.encode x)) = .ok x := fun x hx =>
      Shape.decode_encode item formed hx (Nat.le_of_succ_le_succ fits)
    have items : ∀ xs : List item.Value, xs.Forall (item.Holds (Json.Lasting n)) →
        List.Forall₂ (fun d x => item.decode r d = .ok x) ((xs.map item.encode).map ofJson) xs := by
      intro xs hxs
      rw [List.forall₂_map_left_iff, List.forall₂_map_left_iff, List.forall₂_same]
      exact fun x hx => each x (List.forall_iff_forall_mem.1 hxs x hx)
    rw [Shape.encode, ofJson_array]
    exact Shape.decode_list_eq_ok_iff.2 ⟨r, _, rfl, rfl, items v h⟩
  | .struct fields =>
    obtain ⟨nodup, formed⟩ := Shape.wellFormed_struct.1 formed
    obtain ⟨r, rfl⟩ : ∃ r, room = r + 1 := ⟨room - 1, by simp only [Shape.height] at fits; omega⟩
    rw [Shape.encode, ofJson_object_eq]
    refine (Shape.decode_struct_object_eq_ok_iff nodup).2 ⟨rfl, r, _, rfl, rfl, ?_, ?_⟩
    · exact List.forall_mem_map.2 fun m _ _ => isSound_ofJson m.2
    · exact Fields.pick_members fields formed nodup h (Nat.le_of_succ_le_succ fits)
  | .layered metadata settings own isOpen =>
    have well := Shape.wellLayered formed
    have written := Shape.written_encode _ formed h
    obtain ⟨metadataHolds, settingsHolds, ownHolds, kept⟩ := h
    obtain ⟨r, rfl⟩ : ∃ r, room = r + 1 := ⟨room - 1, by simp only [Shape.height] at fits; omega⟩
    have room : n + metadata.height ≤ r ∧ n + settings.height ≤ r ∧ n + own.height ≤ r := by
      simp only [Shape.height] at fits
      omega
    have nested := Nat.le_trans written.depth_le fits
    have metadataPicked := Fields.pick_members metadata well.metadataFormed well.metadataNodup
      metadataHolds room.1
    have settingsPicked := Fields.pick_members settings well.settingsFormed well.settingsNodup
      settingsHolds room.2.1
    have ownPicked := Fields.pick_members own well.ownFormed well.ownNodup ownHolds room.2.2
    have metadataNames := (metadata.names_members_sublist v.metadata).subset
    have settingsNames := (settings.names_members_sublist v.settings).subset
    have ownNames := (own.names_members_sublist v.own).subset
    rw [Shape.encode] at nested ⊢
    rw [depth_object_le] at nested
    have distinct := ((distinct_object _).1 written.distinct).2
    exact Shape.decode_parts well metadataNames settingsNames ownNames
      ⟨kept.1, fun m hm => ⟨(kept.2 m hm).1, (kept.2 m hm).2.ordered⟩⟩ distinct nested
      metadataPicked settingsPicked ownPicked

theorem Fields.pick_members (fs : Fields) (formed : fs.wellFormed = true)
    (nodup : fs.names.Nodup) {n room : Nat} {row : fs.Row} (h : fs.Holds (Json.Lasting n) row)
    (fits : n + fs.height ≤ room) : fs.pick room (ofTable (fs.members row)) = some row := by
  match fs, row with
  | .nil, _ => rfl
  | .cons f s rest, (v, row) =>
    obtain ⟨notNull, shapeFormed, restFormed⟩ := Fields.wellFormed_cons.1 formed
    obtain ⟨-, restNodup, apart⟩ := List.nodup_append'.1 nodup
    have others := Fields.pick_members rest restFormed restNodup h.2
      (Nat.le_trans (Nat.add_le_add_left (Nat.le_max_right _ _) n) fits)
    have notOwn : ∀ name, f.answers name = true → name ∉ rest.names := fun name answered =>
      apart ((Fields.field_answers_iff f name).1 answered)
    have passed : (ofTable (rest.members row)).filter (fun m => f.answers m.1) = [] := by
      rw [List.filter_eq_nil_iff, ofTable, List.forall_mem_map]
      exact fun m hm answered => notOwn m.1 answered
        ((rest.names_members_sublist row).subset (Table.mem_names.2 ⟨m.2, hm⟩))
    refine Fields.pick_cons_eq_some_iff.2 ?_
    rw [Fields.members_cons]
    cases written : f.presence.written? s.isBlank v with
    | none => exact ⟨.inl ⟨passed, Presence.absent_of_written written⟩, others⟩
    | some x =>
      have answered : f.answers f.name = true :=
        (Fields.field_answers_iff f f.name).2 List.mem_cons_self
      refine ⟨.inr ⟨(f.name, ofJson (s.encode x)), ?_, Presence.fit_written written ?_ ?_⟩, ?_⟩
      · have first : (ofTable ((f.name, s.encode x) :: rest.members row)).filter
            (fun m => f.answers m.1) = (f.name, ofJson (s.encode x)) ::
              (ofTable (rest.members row)).filter fun m => f.answers m.1 :=
          List.filter_cons_of_pos answered
        rw [passed] at first
        exact first
      · exact Shape.decode_encode s shapeFormed (Presence.each_written h.1 written)
          (Nat.le_trans (Nat.add_le_add_left (Nat.le_max_left _ _) n) fits)
      · exact fun optional null => Shape.encode_ne_null (notNull optional) x (ofJson_eq_null null)
      · have alone := @Fields.pick_between rest room [(f.name, s.encode x)] (rest.members row) []
          (fun name named other => notOwn name (by simp_all) named) (List.disjoint_nil_right _)
        rw [List.append_nil] at alone
        exact alone.trans others

end

namespace Shape

theorem read_eq_ok_iff {s : Shape} {bytes : Bytes} {v : s.Value} : s.read bytes = .ok v ↔
    s.decode maxDepth (Json.read bytes).1 = .ok v ∧ (Json.read bytes).2 = true := by
  rw [read]
  refine bind_eq_ok_iff.trans ⟨?_, ?_⟩
  · rintro ⟨w, decoded, ended⟩
    split at ended
    · rename_i whole
      exact ⟨Except.ok.inj ended ▸ decoded, whole⟩
    · exact nomatch ended
  · rintro ⟨decoded, whole⟩
    exact ⟨v, decoded, if_pos whole⟩

/-- A value is read again from its text. -/
theorem read_write {s : Shape} (formed : s.wellFormed = true) {n : Nat} {v : s.Value}
    (h : s.Holds (Json.Lasting n) v) (fits : n + s.height ≤ maxDepth) :
    s.read (Utf8.encode (s.write v)) = .ok v := by
  have written := s.written_encode formed h
  rw [read_eq_ok_iff, write, Json.read_print written.survives]
  exact ⟨s.decode_encode formed h fits, rfl⟩

theorem holds_of_read {s : Shape} (formed : s.wellFormed = true) {bytes : Bytes} {v : s.Value}
    (h : s.read bytes = .ok v) : s.Holds Json.Ordered v :=
  s.holds_of_decode carries_ordered formed (read_eq_ok_iff.1 h).1 trivial

/-- What was read from a plain text is read again from its own text. -/
theorem read_write_read {s : Shape} (formed : s.wellFormed = true) {n : Nat}
    (fits : n + s.height ≤ maxDepth) {bytes : Bytes} {v : s.Value} (h : s.read bytes = .ok v)
    (plain : (Json.read bytes).1.Plain n) : s.read (Utf8.encode (s.write v)) = .ok v := by
  have holds := s.holds_of_decode (carries_plain n) formed (read_eq_ok_iff.1 h).1 plain
  exact read_write formed (holds.imp (fun _ => Json.Plain.lasting) s) fits

end Shape

end IControl
