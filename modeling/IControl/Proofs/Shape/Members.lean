import IControl.Proofs.Shape.RoundTrip

/-!
# The members that a value depends on

What a layered object is decoded to depends on the members that its fields answer
to and on nothing else. The members may come in any order. A member of another
name goes to what an open object keeps, and nowhere else. A null under the name of
an optional field is no value, so it is as good as no member at all.
-/

namespace IControl

open Document Json

namespace Fields

variable {fs : Fields} {room : Nat} {ms ns : List (String × Document)}

theorem names_aside_sublist {aside : List (String × Json)} (h : fs.aside? room ms = some aside) :
    (Table.names aside).Sublist (Table.names ms) := by
  have same : ∀ {xs : List (String × Document)} {ys : List (String × Json)},
      List.Forall₂ (fun m y => takenOver? room m = some y) xs ys →
        Table.names ys = xs.map Prod.fst := by
    intro xs ys taken
    induction taken with
    | nil => rfl
    | cons first _ ih =>
      obtain ⟨x, -, rfl⟩ := Option.map_eq_some_iff.1 first
      rw [Table.names_cons, ih, List.map_cons]
  rw [same (mapM_eq_some_iff.1 h)]
  exact List.filter_sublist.map Prod.fst

theorem aside?_perm (perm : ms.Perm ns) {aside : List (String × Json)}
    (h : fs.aside? room ms = some aside) :
    ∃ others, fs.aside? room ns = some others ∧ aside.Perm others := by
  have filtered := perm.filter fun m => !fs.answers m.1
  obtain ⟨others, taken, same⟩ := List.perm_comp_forall₂ filtered.symm (mapM_eq_some_iff.1 h)
  exact ⟨others, mapM_eq_some_iff.2 taken, same.symm⟩

theorem pick_pass {m : String × Document} (h : fs.answers m.1 = false) :
    fs.pick room (ms ++ [m]) = fs.pick room ms := by
  rw [pick, slots?_pass fs room ms m h, pick]

/-- The names of the fields that null is no value of. -/
def optionalNames : Fields → List String
  | .nil => []
  | .cons f _ rest =>
    (if f.presence = .optional then f.name :: f.otherName.toList else []) ++ rest.optionalNames

theorem optionalNames_subset (fs : Fields) : fs.optionalNames ⊆ fs.names := by
  match fs with
  | .nil => exact List.Subset.refl []
  | .cons f s rest =>
    rw [optionalNames, names]
    refine List.append_subset.2 ⟨?_, ?_⟩
    · split_ifs
      · exact List.subset_append_left (f.name :: f.otherName.toList) rest.names
      · exact List.nil_subset _
    · exact List.Subset.trans (optionalNames_subset rest) (List.subset_append_right _ _)

/-- Without the null of an optional field the row is the same. -/
theorem pick_of_null {fs : Fields} (nodup : fs.names.Nodup) {name : String}
    (optional : name ∈ fs.optionalNames) {row : fs.Row}
    (picked : fs.pick room (ms ++ [(name, .null)]) = some row) : fs.pick room ms = some row := by
  match fs, row with
  | .nil, _ => exact absurd optional List.not_mem_nil
  | .cons f s rest, (v, row) =>
    rw [names, List.nodup_append'] at nodup
    obtain ⟨-, nodup, apart⟩ := nodup
    obtain ⟨own, others⟩ := pick_cons_eq_some_iff.1 picked
    cases answered : f.answers name with
    | true =>
      have elsewhere : name ∉ rest.names := apart ((field_answers_iff f name).1 answered)
      rw [pick_pass (answers_eq_false elsewhere)] at others
      refine pick_cons_eq_some_iff.2 ⟨.inl ?_, others⟩
      -- The null is the only member of this field, so without it there is none.
      have last : [(name, Document.null)].filter (fun m => f.answers m.1) = [(name, .null)] :=
        List.filter_cons_of_pos answered
      rw [List.filter_append, last] at own
      rcases own with ⟨none, -⟩ | ⟨m, one, fits⟩
      · exact absurd none (by simp)
      · obtain ⟨none, last⟩ := List.append_eq_singleton_iff.1 one |>.resolve_right (by simp)
        obtain rfl := (List.cons.inj last).1
        refine ⟨none, ?_⟩
        rw [optionalNames] at optional
        split_ifs at optional with mayBeNull
        · obtain ⟨label, other, presence⟩ := f
          obtain rfl : presence = .optional := mayBeNull
          exact congrArg some (Except.ok.inj fits)
        · exact absurd (rest.optionalNames_subset optional) elsewhere
    | false =>
      have passed : [(name, Document.null)].filter (fun m => f.answers m.1) = [] := by
        simp [answered]
      rw [List.filter_append, passed, List.append_nil] at own
      have inRest : name ∈ rest.optionalNames := by
        rw [optionalNames, List.mem_append] at optional
        refine optional.resolve_left fun here => ?_
        split_ifs at here
        · exact absurd ((field_answers_iff f name).2 here) (by simp [answered])
        · exact absurd here List.not_mem_nil
      exact pick_cons_eq_some_iff.2 ⟨own, pick_of_null nodup inRest others⟩

theorem pick_of_null_or_pass (nodup : fs.names.Nodup) {name : String}
    (h : name ∈ fs.optionalNames ∨ name ∉ fs.names) {row : fs.Row}
    (picked : fs.pick room (ms ++ [(name, .null)]) = some row) : fs.pick room ms = some row := by
  rcases h with optional | free
  · exact pick_of_null nodup optional picked
  · exact (pick_pass (answers_eq_false free)).symm.trans picked

end Fields

/-- What is kept once one more member is set aside. -/
def Extra.gaining : {isOpen : Bool} → Extra isOpen → String → Json → Extra isOpen
  | true, kept, name, x => Table.put name x kept
  | false, kept, _, _ => kept

/-- The entry with one more attribute, if it keeps attributes. -/
def Entry.gaining {M S O : Type} {isOpen : Bool} (e : Entry M S O (Extra isOpen)) (name : String)
    (x : Json) : Entry M S O (Extra isOpen) :=
  { e with extra := e.extra.gaining name x }

theorem Extra.keep_concat {taken : String → Bool} {name : String} (free : taken name = false)
    (aside : List (String × Json)) (x : Json) (isOpen : Bool) :
    Extra.keep taken (aside ++ [(name, x)]) isOpen =
      (Extra.keep taken aside isOpen).gaining name x := by
  cases isOpen with
  | true =>
    have last : [(name, x)].filter (fun m => !taken m.1) = [(name, x)] :=
      List.filter_cons_of_pos (by simp [free])
    rw [keep, List.filter_append, last]
    exact Table.ofBindings_concat _ _
  | false => rfl

theorem Extra.keep_concat_of_taken {taken : String → Bool} {name : String}
    (own : taken name = true) (aside : List (String × Json)) (x : Json) (isOpen : Bool) :
    Extra.keep taken (aside ++ [(name, x)]) isOpen = Extra.keep taken aside isOpen := by
  cases isOpen with
  | true =>
    have last : [(name, x)].filter (fun m => !taken m.1) = [] := by simp [own]
    rw [keep, List.filter_append, last, List.append_nil]
    rfl
  | false => rfl

namespace Shape

theorem WellLayered.optional_name {metadata settings own : Fields}
    (well : WellLayered metadata settings own) {name : String}
    (optional : name ∈ metadata.optionalNames ++ settings.optionalNames ++ own.optionalNames) :
    (name ∈ metadata.optionalNames ∨ name ∉ metadata.names) ∧
      (name ∈ settings.optionalNames ∨ name ∉ settings.names) ∧
      (name ∈ own.optionalNames ∨ name ∉ own.names) ∧
      (name ∉ own.names → name ∈ metadata.names ∨ name ∈ settings.names) := by
  rcases List.mem_append.1 optional with others | inOwn
  · rcases List.mem_append.1 others with inMetadata | inSettings
    · have named := metadata.optionalNames_subset inMetadata
      exact ⟨.inl inMetadata, .inr (well.settingsApart named),
        .inr (well.ownApart (List.mem_append_left _ named)), fun _ => .inl named⟩
    · have named := settings.optionalNames_subset inSettings
      exact ⟨.inr fun here => well.settingsApart here named, .inl inSettings,
        .inr (well.ownApart (List.mem_append_right _ named)), fun _ => .inr named⟩
  · have named := own.optionalNames_subset inOwn
    exact ⟨.inr fun here => well.ownApart (List.mem_append_left _ here) named,
      .inr fun here => well.ownApart (List.mem_append_right _ here) named, .inl inOwn,
      fun free => absurd named free⟩

variable {metadata settings own : Fields} {isOpen : Bool}
  (well : WellLayered metadata settings own) {room : Nat} {ms ns : List (String × Document)}
  {v : Entry metadata.Row settings.Row own.Row (Extra isOpen)}
include well

theorem decode_layered_perm (distinct : (Table.names ms).Nodup) (perm : ms.Perm ns)
    (decoded : (Shape.layered metadata settings own isOpen).decode room (.object (named ms) true) =
      .ok v) :
    (Shape.layered metadata settings own isOpen).decode room (.object (named ns) true) = .ok v := by
  obtain ⟨r, ms, aside, rfl, same, set, ownPicked, metadataPicked, settingsPicked, kept⟩ :=
    (decode_layered_eq_ok_iff well.metadataNodup well.settingsNodup well.ownNodup).1 decoded
  obtain rfl := named_injective (Document.object.inj same).1
  obtain ⟨others, setOthers, reordered⟩ := Fields.aside?_perm perm set
  have apart : (Table.names aside).Nodup := distinct.sublist (Fields.names_aside_sublist set)
  refine (decode_layered_eq_ok_iff well.metadataNodup well.settingsNodup well.ownNodup).2
    ⟨r, ns, others, rfl, rfl, setOthers, ?_, ?_, ?_, ?_⟩
  · exact (Fields.pick_perm own r perm).symm.trans ownPicked
  · exact (Fields.pick_perm metadata r (reordered.map _)).symm.trans metadataPicked
  · exact (Fields.pick_perm settings r (reordered.map _)).symm.trans settingsPicked
  · rw [← Extra.keep_perm apart reordered, kept]

theorem names_extra_subset
    (decoded : (Shape.layered metadata settings own isOpen).decode room (.object (named ms) true) =
      .ok v) :
    Table.names (Extra.members v.extra) ⊆ Table.names ms := by
  obtain ⟨r, ms, aside, rfl, same, set, -, -, -, kept⟩ :=
    (decode_layered_eq_ok_iff well.metadataNodup well.settingsNodup well.ownNodup).1 decoded
  obtain rfl := named_injective (Document.object.inj same).1
  rw [← kept]
  intro name inside
  obtain ⟨x, hx⟩ := Table.mem_names.1 inside
  have among : name ∈ Table.names aside := Table.mem_names.2 ⟨x, (Extra.mem_members_keep hx).1⟩
  exact (Fields.names_aside_sublist set).subset among

/-- A member of a name that no field has is taken over, and only an open object keeps it. -/
theorem decode_layered_concat {name : String} {d : Document} {x : Json}
    (free : name ∉ metadata.names ++ settings.names ++ own.names) (taken : d.value? room = some x)
    (decoded : (Shape.layered metadata settings own isOpen).decode (room + 1)
      (.object (named ms) true) = .ok v) :
    (Shape.layered metadata settings own isOpen).decode (room + 1)
      (.object (named (ms ++ [(name, d)])) true) = .ok (v.gaining name x) := by
  obtain ⟨r, ms, aside, fits, same, set, ownPicked, metadataPicked, settingsPicked, kept⟩ :=
    (decode_layered_eq_ok_iff well.metadataNodup well.settingsNodup well.ownNodup).1 decoded
  obtain rfl := Nat.succ.inj fits
  obtain rfl := named_injective (Document.object.inj same).1
  rw [List.mem_append, List.mem_append, not_or, not_or] at free
  have notMetadata := Fields.answers_eq_false free.1.1
  have notSettings := Fields.answers_eq_false free.1.2
  have notOwn := Fields.answers_eq_false free.2
  have last : ofTable (aside ++ [(name, x)]) = ofTable aside ++ [(name, ofJson x)] := List.map_append
  refine (decode_layered_eq_ok_iff well.metadataNodup well.settingsNodup well.ownNodup).2
    ⟨room, _, aside ++ [(name, x)], rfl, rfl, ?_, ?_, ?_, ?_, ?_⟩
  · exact Fields.aside?_concat.2 ⟨aside, set, .inr ⟨notOwn, x, taken, rfl⟩⟩
  · rw [Fields.pick_pass notOwn]
    exact ownPicked
  · rw [last, Fields.pick_pass notMetadata]
    exact metadataPicked
  · rw [last, Fields.pick_pass notSettings]
    exact settingsPicked
  · rw [Extra.keep_concat (by rw [notMetadata, notSettings]; rfl), kept]
    rfl

/-- The null of an optional field may be left out. -/
theorem decode_layered_of_null {name : String}
    (optional : name ∈ metadata.optionalNames ++ settings.optionalNames ++ own.optionalNames)
    (decoded : (Shape.layered metadata settings own isOpen).decode room
      (.object (named (ms ++ [(name, .null)])) true) = .ok v) :
    (Shape.layered metadata settings own isOpen).decode room (.object (named ms) true) = .ok v := by
  obtain ⟨r, whole, aside, rfl, same, set, ownPicked, metadataPicked, settingsPicked, kept⟩ :=
    (decode_layered_eq_ok_iff well.metadataNodup well.settingsNodup well.ownNodup).1 decoded
  obtain rfl := named_injective (Document.object.inj same).1
  obtain ⟨inMetadata, inSettings, inOwn, elsewhere⟩ := well.optional_name optional
  obtain ⟨before, setBefore, further⟩ := Fields.aside?_concat.1 set
  have ownKept := Fields.pick_of_null_or_pass well.ownNodup inOwn ownPicked
  refine (decode_layered_eq_ok_iff well.metadataNodup well.settingsNodup well.ownNodup).2
    ⟨r, ms, before, rfl, rfl, setBefore, ownKept, ?_⟩
  rcases further with ⟨-, rfl⟩ | ⟨notOwn, x, null, rfl⟩
  · exact ⟨metadataPicked, settingsPicked, kept⟩
  · -- The null was set aside, and then it is that of the metadata or the settings.
    obtain rfl := Option.some.inj null
    have last : ofTable (before ++ [(name, Json.null)]) = ofTable before ++ [(name, .null)] :=
      List.map_append
    rw [last] at metadataPicked settingsPicked
    have taken : (metadata.answers name || settings.answers name) = true := by
      have free : name ∉ own.names := fun named =>
        Bool.false_ne_true (notOwn.symm.trans ((Fields.answers_iff own name).2 named))
      rw [Bool.or_eq_true, Fields.answers_iff, Fields.answers_iff]
      exact elsewhere free
    rw [Extra.keep_concat_of_taken taken] at kept
    exact ⟨Fields.pick_of_null_or_pass well.metadataNodup inMetadata metadataPicked,
      Fields.pick_of_null_or_pass well.settingsNodup inSettings settingsPicked, kept⟩

end Shape

end IControl
