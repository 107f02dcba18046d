import IControl.Proofs.Shape.Members

/-!
# What decoding keeps of an object

An open object keeps every member under a name that it has no field for. A field
whose value is a text, a flag or a count keeps its member too, unless absence and
presence are not told apart: a null stands for no value, and a blank value is left
out. Apart from these each member of the object is in one part of the decoded
value, from where it is written under its name again.
-/

namespace IControl

open Document Json

namespace Shape

/-- Texts, flags and counts are written as they were read. -/
def isScalar : Shape → Bool
  | .text | .flag | .count => true
  | _ => false

theorem encode_of_decode {s : Shape} (scalar : s.isScalar = true) {room : Nat} {j : Json}
    {v : s.Value} (decoded : s.decode room (ofJson j) = .ok v) : s.encode v = j := by
  cases s with
  | text =>
    cases j with
    | string t =>
      obtain rfl := Except.ok.inj decoded
      rfl
    | _ => cases decoded
  | flag =>
    cases j with
    | bool b =>
      obtain rfl := Except.ok.inj decoded
      rfl
    | _ => cases decoded
  | count =>
    cases j with
    | number n =>
      cases n with
      | integer i =>
        rw [ofJson, decode] at decoded
        split_ifs at decoded with inside
        obtain rfl := Except.ok.inj decoded
        have small : i.toNat < UInt64.size := by
          have bound : i < 18446744073709551616 := inside.2
          have size : UInt64.size = 18446744073709551616 := rfl
          omega
        have same : ((UInt64.ofNat i.toNat).toNat : Int) = i := by
          rw [UInt64.toNat_ofNat_of_lt' small, Int.toNat_of_nonneg inside.1]
        exact congrArg (fun n => Json.number (.integer n)) same
      | double x => cases decoded
    | _ => cases decoded
  | _ => cases scalar

theorem encode_blank {s : Shape} (scalar : s.isScalar = true) (elidable : s.isBlank s.blank = true) :
    s.encode s.blank = .string "" := by
  cases s with
  | text => rfl
  | flag => cases elidable
  | count => cases elidable
  | _ => cases scalar

end Shape

/-- A field of one name that is written exactly when a value was read for it. -/
structure Field.Restores (f : Field) (s : Shape) : Prop where
  otherName : f.otherName = none
  scalar : s.isScalar = true
  notDefaulted : f.presence ≠ .defaulted
  elidable : f.presence = .elided → s.isBlank s.blank = true

instance (f : Field) (s : Shape) : Decidable (f.Restores s) :=
  decidable_of_iff (f.otherName = none ∧ s.isScalar = true ∧ f.presence ≠ .defaulted ∧
    (f.presence = .elided → s.isBlank s.blank = true))
    ⟨fun h => ⟨h.1, h.2.1, h.2.2.1, h.2.2.2⟩,
      fun h => ⟨h.otherName, h.scalar, h.notDefaulted, h.elidable⟩⟩

namespace Presence

variable {s : Shape} {presence : Presence} {v : presence.Slot s.Value}

theorem written_of_absent (notDefaulted : presence ≠ .defaulted)
    (elidable : presence = .elided → s.isBlank s.blank = true)
    (absent : presence.absent? s.blank = some v) : presence.written? s.isBlank v = none := by
  cases presence with
  | optional => exact (Option.some.inj absent).symm
  | required => cases absent
  | defaulted => exact absurd rfl notDefaulted
  | elided =>
    obtain rfl := Option.some.inj absent
    exact if_pos (elidable rfl)

theorem written_of_fit (scalar : s.isScalar = true) {room : Nat} {x : Json}
    (notNull : x ≠ .null) (notBlank : presence = .elided → x ≠ s.encode s.blank)
    (fits : presence.fit (s.decode room) (ofJson x) = .ok v) :
    (presence.written? s.isBlank v).map s.encode = some x := by
  cases presence with
  | optional =>
    rw [fit_optional fun null => notNull (ofJson_eq_null null)] at fits
    obtain ⟨y, decoded, rfl⟩ := map_eq_ok_iff.1 fits
    exact congrArg some (Shape.encode_of_decode scalar decoded)
  | required => exact congrArg some (Shape.encode_of_decode scalar fits)
  | defaulted => exact congrArg some (Shape.encode_of_decode scalar fits)
  | elided =>
    have same := Shape.encode_of_decode scalar fits
    have written : written? s.isBlank .elided v = some v := by
      refine if_neg fun blank => notBlank rfl ?_
      rw [← Shape.eq_blank_of_isBlank blank, same]
    rw [written, Option.map_some, same]

end Presence

namespace Fields

/-- Every field is written exactly when a value was read for it. -/
def restores : Fields → Bool
  | .nil => true
  | .cons f s rest => decide (f.Restores s) && rest.restores

/-- The names of the fields that are left out when they are blank. -/
def elidedNames : Fields → List String
  | .nil => []
  | .cons f _ rest => (if f.presence = .elided then [f.name] else []) ++ rest.elidedNames

theorem written_of_pick {f : Field} {s : Shape} (restored : f.Restores s) {room : Nat}
    {ms : List (String × Json)} {v : f.presence.Slot s.Value}
    (notNull : Table.value? ms f.name ≠ some .null)
    (notBlank : f.presence = .elided → Table.value? ms f.name ≠ some (.string ""))
    (picked : (ofTable ms).filter (fun m => f.answers m.1) = [] ∧ f.presence.absent? s.blank = some v ∨
      ∃ m, (ofTable ms).filter (fun m => f.answers m.1) = [m] ∧
        f.presence.fit (s.decode room) m.2 = .ok v) :
    (f.presence.written? s.isBlank v).map s.encode = Table.value? ms f.name := by
  have answered : f.answers f.name = true := (field_answers_iff f f.name).2 List.mem_cons_self
  have own := Table.value?_filter f.answers ms f.name
  rw [if_pos answered] at own
  rw [filter_ofTable f.answers] at picked
  rcases picked with ⟨none, absent⟩ | ⟨m, one, fits⟩
  · rw [List.map_eq_nil_iff.1 none, Table.value?_nil] at own
    rw [Presence.written_of_absent restored.notDefaulted restored.elidable absent, ← own]
    rfl
  · obtain ⟨⟨name, x⟩, only, rfl⟩ := List.map_eq_singleton_iff.1 one
    have among : (name, x) ∈ ms.filter fun m => f.answers m.1 := only ▸ List.mem_singleton_self _
    have named : name ∈ f.name :: f.otherName.toList :=
      (field_answers_iff f name).1 (List.mem_filter.1 among).2
    rw [restored.otherName] at named
    obtain rfl := List.mem_singleton.1 named
    rw [only, Table.value?_cons, if_pos rfl] at own
    rw [← own] at notNull notBlank ⊢
    refine Presence.written_of_fit restored.scalar (fun null => notNull (congrArg some null))
      (fun elided blank => notBlank elided ?_) fits
    rw [blank, Shape.encode_blank restored.scalar (restored.elidable elided)]

/-- No member under a name of the fields is read as if there was none. -/
structure Shows (fs : Fields) (ms : List (String × Json)) : Prop where
  notNull : ∀ name ∈ fs.names, Table.value? ms name ≠ some .null
  notBlank : ∀ name ∈ fs.elidedNames, Table.value? ms name ≠ some (.string "")

/-- The members of a row are those that it was picked from. -/
theorem value?_members_of_pick (fs : Fields) (restored : fs.restores = true) {room : Nat}
    {ms : List (String × Json)} (shows : fs.Shows ms) {row : fs.Row}
    (picked : fs.pick room (ofTable ms) = some row) (name : String) :
    Table.value? (fs.members row) name = if name ∈ fs.names then Table.value? ms name else none := by
  match fs, row with
  | .nil, _ => rfl
  | .cons f s rest, (v, row) =>
    rw [restores, Bool.and_eq_true, decide_eq_true_eq] at restored
    obtain ⟨notNull, notBlank⟩ := shows
    rw [names] at notNull ⊢
    rw [elidedNames] at notBlank
    obtain ⟨own, others⟩ := pick_cons_eq_some_iff.1 picked
    have written := written_of_pick restored.1 (notNull f.name List.mem_cons_self)
      (fun elided => notBlank f.name (by simp [elided])) own
    have shown : rest.Shows ms :=
      ⟨fun name inside => notNull name (List.mem_append_right _ inside),
        fun name inside => notBlank name (List.mem_append_right _ inside)⟩
    have further := value?_members_of_pick rest restored.2 shown others name
    rw [value?_members_cons, written, further, restored.1.otherName]
    by_cases same : name = f.name
    · subst same
      cases Table.value? ms f.name <;> simp
    · simp [same]

theorem Shows.aside {fs others : Fields} {room : Nat} {ms aside : List (String × Json)}
    (shows : fs.Shows ms) (nested : ∀ m ∈ ms, m.2.depth ≤ room)
    (set : others.aside? room (ofTable ms) = some aside) : fs.Shows aside := by
  constructor
  · intro name named null
    obtain ⟨x, bound, isNull⟩ := exists_of_value?_aside nested set null
    exact shows.notNull name named (bound.trans (congrArg some (eq_null_of_sorted isNull)))
  · intro name named blank
    obtain ⟨x, bound, isBlank⟩ := exists_of_value?_aside nested set blank
    exact shows.notBlank name named (bound.trans (congrArg some (eq_string_of_sorted isBlank)))

end Fields

theorem Extra.value?_members_keep {isOpen : Bool} (kept : isOpen = true) (taken : String → Bool)
    {aside : List (String × Json)} (nodup : (Table.names aside).Nodup) (name : String) :
    Table.value? (Extra.members (Extra.keep taken aside isOpen)) name =
      if taken name then none else Table.value? aside name := by
  subst kept
  have remaining := Table.value?_filter (fun name => !taken name) aside name
  have apart : (Table.names (aside.filter fun m => !taken m.1)).Nodup :=
    nodup.sublist (List.filter_sublist.map Prod.fst)
  refine (Table.value?_ofBindings apart name).trans (remaining.trans ?_)
  cases taken name <;> rfl

namespace Shape

variable {metadata settings own : Fields} {isOpen : Bool} {room : Nat} {ms : List (String × Json)}
  {v : Entry metadata.Row settings.Row own.Row (Extra isOpen)}

/-- Under each name the members of a layered object are those that it was decoded from. -/
theorem value?_members_of_decode (well : WellLayered metadata settings own) (kept : isOpen = true)
    (metadataRestored : metadata.restores = true) (settingsRestored : settings.restores = true)
    (ownRestored : own.restores = true) (metadataShown : metadata.Shows ms)
    (settingsShown : settings.Shows ms) (ownShown : own.Shows ms)
    (distinct : (Table.names ms).Nodup) (nested : (Json.object ms).depth ≤ room)
    (decoded : (Shape.layered metadata settings own isOpen).decode room (ofJson (.object ms)) =
      .ok v) (name : String) :
    (Table.value? (metadata.members v.metadata ++ settings.members v.settings ++
      own.members v.own ++ Extra.members v.extra) name).map sorted =
        (Table.value? ms name).map sorted := by
  rw [ofJson_object_eq] at decoded
  obtain ⟨r, whole, aside, rfl, same, set, ownPicked, metadataPicked, settingsPicked, extra⟩ :=
    (decode_layered_eq_ok_iff well.metadataNodup well.settingsNodup well.ownNodup).1 decoded
  obtain rfl := named_injective (Document.object.inj same).1
  rw [depth_object_le] at nested
  have asideFound := Fields.value?_aside nested set
  have asideNodup : (Table.names aside).Nodup :=
    (names_ofTable ms ▸ distinct).sublist (Fields.names_aside_sublist set)
  have metadataFound := metadata.value?_members_of_pick metadataRestored
    (metadataShown.aside nested set) metadataPicked name
  have settingsFound := settings.value?_members_of_pick settingsRestored
    (settingsShown.aside nested set) settingsPicked name
  have ownFound := own.value?_members_of_pick ownRestored ownShown ownPicked name
  have extraFound := Extra.value?_members_keep kept
    (fun name => metadata.answers name || settings.answers name) asideNodup name
  rw [asideFound] at metadataFound settingsFound
  rw [extra, asideFound] at extraFound
  rw [Table.value?_append, Table.value?_append, Table.value?_append, metadataFound, settingsFound,
    ownFound, extraFound]
  have again : ((Table.value? ms name).map sorted).map sorted = (Table.value? ms name).map sorted := by
    cases Table.value? ms name with
    | none => rfl
    | some x => exact congrArg some (ordered_sorted x).sorted_eq
  -- A name belongs to one of the three parts or to none, and only there it is looked up.
  by_cases inOwn : name ∈ own.names
  · have notMetadata : name ∉ metadata.names := fun named =>
      well.ownApart (List.mem_append_left _ named) inOwn
    have notSettings : name ∉ settings.names := fun named =>
      well.ownApart (List.mem_append_right _ named) inOwn
    simp [inOwn, notMetadata, notSettings]
  by_cases inMetadata : name ∈ metadata.names
  · have notSettings : name ∉ settings.names := well.settingsApart inMetadata
    have answered := (Fields.answers_iff metadata name).2 inMetadata
    simp [inOwn, inMetadata, notSettings, answered, again]
  have notMetadata := Fields.answers_eq_false inMetadata
  by_cases inSettings : name ∈ settings.names
  · have answered := (Fields.answers_iff settings name).2 inSettings
    simp [inOwn, inMetadata, inSettings, answered, again]
  · have notSettings := Fields.answers_eq_false inSettings
    simp [inOwn, inMetadata, inSettings, notMetadata, notSettings, again]

end Shape

end IControl
