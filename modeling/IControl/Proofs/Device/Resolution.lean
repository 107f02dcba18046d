import IControl.Proofs.Device.Identity
import IControl.Proofs.Device.Records

/-!
# Names of records in `Common`

A record lies under the key that its name and its partition make. An update may
give a partition to a record that was stored without one, and then the record
stays under the segment of its name. So when this segment is free, a record of
`Common` lies under its key there, and its name leads to it unless the name is
qualified. A qualified name says itself where its object is: of a name with a
slash, as an address with the length of its network, the part before the slash
is taken for a partition, and nothing is found.
-/

namespace IControl

/-- A record carries its key, or at least the name whose segment its key is. -/
def Keyed (key : String) (record : Json) : Prop :=
  ∃ name, record.textMember? "name" = some name ∧
    (key = encodeInstance name ∨ recordKey? record = some key)

namespace Keyed

variable {key : String} {record : Json}

theorem of_recordKey? (own : recordKey? record = some key) : Keyed key record := by
  obtain ⟨name, named, -⟩ := Option.bind_eq_some_iff.1 own
  exact ⟨name, named, .inr own⟩

theorem stamp (h : Keyed key record) (path : String) (generation : UInt64) :
    Keyed key (Store.stamp path key generation record) := by
  obtain ⟨name, named, place⟩ := h
  refine ⟨name, ?_, ?_⟩
  · rw [Json.textMember?_congr (Store.member?_stamp path key generation record (by decide)), named]
  · rwa [Store.recordKey?_stamp]

/-- A replacement keeps the name, and the key unless it brings the first partition; then the key is
the segment of the name. -/
theorem withIdentityOf (h : Keyed key record) (members : Table Json) :
    Keyed key (Store.withIdentityOf record (.object members)) := by
  obtain ⟨name, named, place⟩ := h
  obtain ⟨x, present, text⟩ := Option.bind_eq_some_iff.1 named
  obtain ⟨before, rfl⟩ := Json.eq_object_of_member? present
  have kept : (Store.withIdentityOf (.object before) (.object members)).textMember? "name" =
      some name := by
    rw [Json.member?_object] at present
    rw [Store.textMember?_withIdentityOf (.inl rfl), present, Option.isSome_some, if_pos rfl, named]
  refine ⟨name, kept, ?_⟩
  rcases place with segment | own
  · exact .inl segment
  by_cases brings : Table.value? before "partition" = none ∧
      ((Json.object members).textMember? "partition").isSome
  · have unplaced : (Json.object before).textMember? "partition" = none := by
      rw [Json.textMember?, Json.member?_object, brings.1, Option.bind_none]
    rw [recordKey?, named, unplaced] at own
    exact .inl (Option.some.inj own).symm
  · exact .inr ((Store.recordKey?_withIdentityOf own).2 brings)

theorem eq_commonKey {name : String} (h : Keyed key record)
    (named : record.textMember? "name" = some name)
    (placed : record.textMember? "partition" = some defaultPartition)
    (apart : key ≠ encodeInstance name) (bare : ¬IsQualified name) : key = commonKey name := by
  obtain ⟨other, same, place⟩ := h
  obtain rfl := Option.some.inj (same.symm.trans named)
  have own := place.resolve_left apart
  rw [recordKey?, named, placed] at own
  exact (Option.some.inj own).symm.trans (encodeInstance_fullPath bare)

end Keyed

namespace Device

variable {k : Kind}

theorem keyed_history (form : k.form = .collection) (delay : Nat) (events : List Event) :
    ∀ key record, (history delay events).store.recordAt? k.path.text key = some record →
      Keyed key record := by
  refine records_history form delay fun event _ s key document before writes generation => ?_
  refine Keyed.stamp ?_ _ generation
  cases writes with
  | insert own => exact .of_recordKey? own
  | create _ own => exact .of_recordKey? own
  | @update _ _ r _ _ old document sent bound =>
    have written : k.shape.write r = (k.shape.encode r).print := rfl
    rw [written, r.encode_eq] at sent
    obtain ⟨members, rfl⟩ := Json.object_of_ofText?_print sent
    exact (before key old (Store.recordAt?_of_binding? bound)).withIdentityOf members

/-- A record of `Common` whose name has a free segment is found by all calls about this name, and by
the look at the store from outside, unless the name is qualified. Then none of them finds anything. -/
theorem resolves_in_common (form : k.form = .collection) {delay : Nat} (events : List Event)
    {key name : String} {record : Json}
    (found : (history delay events).store.recordAt? k.path.text key = some record)
    (named : record.textMember? "name" = some name)
    (placed : record.textMember? "partition" = some "Common")
    (addresses : addressesInstance name = true)
    (free : (history delay events).store.recordAt? k.path.text (encodeInstance name) = none)
    {ctx : RequestContext} (patient : ctx.cut? (some delay) = none) :
    (¬IsQualified name → key = "~Common~" ++ encodeInstance name ∧
      (history delay events).Finds k ctx name key record) ∧
    (IsQualified name → (history delay events).Misses k ctx name) ∧
    ∀ r : Record k, Json.ofText? (k.shape.write r) = none →
      ((⟨ctx⟩ : Client k.resource).call transport (history delay events) (.update name r)).2 =
        some (.error (.api 400 "invalid JSON body")) := by
  obtain ⟨tidy, waits⟩ := tidy_history delay events
  rw [← waits] at patient
  have meaning := (history delay events).store.binding?_eq k.path.text name
  rw [free] at meaning
  refine ⟨fun bare => ?_, fun qualified => ?_, fun r unread => ?_⟩
  · have apart : key ≠ encodeInstance name := by
      rintro rfl
      exact nomatch found.symm.trans free
    have place := (keyed_history form delay events key record found).eq_commonKey named placed apart bare
    have bound : (history delay events).store.binding? k.path.text name = some (key, record) := by
      rw [meaning, if_neg bare, ← place, found, Option.map_some]
    exact ⟨place, tidy.finds patient addresses bound⟩
  · rw [if_pos qualified] at meaning
    exact tidy.misses patient addresses meaning
  · rw [tidy.update_unread patient addresses unread]

/-- A folder and a management address in `Common`. -/
def inCommon : List Event :=
  [.creating .folder ((Metadata.named "web").inPartition "Common") rfl,
    .creating .managementIp ((Metadata.named "10.1.1.245/24").inPartition "Common") rfl]

/-- A management address in `Common` lies under its key there and nothing lies under the segment of its
name, and yet the name leads nowhere. -/
theorem not_resolves_in_common :
    ((history 0 inCommon).store.recordAt? Kind.managementIp.path.text
        "~Common~10.1.1.245~24").map (fun record =>
      (record.textMember? "name", record.textMember? "partition")) =
        some (some "10.1.1.245/24", some "Common") ∧
    addressesInstance "10.1.1.245/24" = true ∧
    (history 0 inCommon).store.recordAt? Kind.managementIp.path.text
      (encodeInstance "10.1.1.245/24") = none ∧
    (history 0 inCommon).store.record? Kind.managementIp.path.text "10.1.1.245/24" = none ∧
    (({} : Client Kind.managementIp.resource).call transport (history 0 inCommon)
      (.get "10.1.1.245/24")).2.result?.isSome = false := by
  decide +kernel

/-- The folder is found by its bare name, and the management address is not. -/
theorem resolves_in_common_web :
    (∃ record, (history 0 inCommon).Finds .folder .background "web" "~Common~web" record) ∧
    (history 0 inCommon).Misses .managementIp .background "10.1.1.245/24" := by
  have patient : RequestContext.background.cut? (some 0) = none := rfl
  constructor
  · have stored : ((history 0 inCommon).store.recordAt? Kind.folder.path.text "~Common~web").map
        (fun record => (record.textMember? "name", record.textMember? "partition")) =
          some (some "web", some "Common") := by
      decide +kernel
    obtain ⟨record, found, members⟩ := Option.map_eq_some_iff.1 stored
    obtain ⟨named, placed⟩ := Prod.mk.inj members
    have free : (history 0 inCommon).store.recordAt? Kind.folder.path.text
        (encodeInstance "web") = none := by
      decide +kernel
    have resolved := resolves_in_common (k := .folder) rfl inCommon found named placed (by decide)
      free patient
    exact ⟨record, (resolved.1 (by decide)).2⟩
  · have stored : ((history 0 inCommon).store.recordAt? Kind.managementIp.path.text
        "~Common~10.1.1.245~24").map
        (fun record => (record.textMember? "name", record.textMember? "partition")) =
          some (some "10.1.1.245/24", some "Common") := by
      decide +kernel
    obtain ⟨record, found, members⟩ := Option.map_eq_some_iff.1 stored
    obtain ⟨named, placed⟩ := Prod.mk.inj members
    have free : (history 0 inCommon).store.recordAt? Kind.managementIp.path.text
        (encodeInstance "10.1.1.245/24") = none := by
      decide +kernel
    have resolved := resolves_in_common (k := .managementIp) rfl inCommon found named placed
      (by decide) free patient
    exact resolved.2.1 (by decide)

end Device

end IControl
