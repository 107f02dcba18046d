import IControl.Proofs.Device.Keys
import IControl.Proofs.Record.RoundTrip
import IControl.Proofs.Shape.Room

/-!
# Listings and the records they list

A collection is seen in two ways: as a whole, in its listing, and record by record,
each under its own path. Both show the same documents, in the order of the keys and
none left out, and the listing has no items exactly when there are no records. A
typed listing reads the items one by one, with two levels less to nest than a
record that comes alone, and it is refused as a whole when one of them is no record
of its kind.
-/

namespace IControl

open Document

namespace Store

/-- The members of a listing in their order. -/
def listed (path : String) (records : Table Json) : List (String × Json) :=
  (if records = [] then [] else [("items", .array (records.map Prod.snd))]) ++
    [("kind", .string (kindTag path "collectionstate")), ("selfLink", .string (host ++ path))]

theorem ordered_listed (path : String) (records : Table Json) :
    Table.Ordered (listed path records) := by
  have names : Table.Ordered (listed path records) ↔
      (Table.names (listed path records)).Pairwise (· < ·) := List.pairwise_map.symm
  rw [names]
  cases records with
  | nil => exact (by decide : ["kind", "selfLink"].Pairwise (· < ·))
  | cons b records => exact (by decide : ["items", "kind", "selfLink"].Pairwise (· < ·))

theorem listing_eq (path : String) (records : Table Json) :
    listing path records = .object (listed path records) := by
  have ordered := ordered_listed path records
  refine congrArg Json.object (Eq.trans ?_ ordered.ofBindings_eq)
  refine (Table.ofBindings_perm ordered.nodup ?_).symm
  cases records with
  | nil => exact List.Perm.refl _
  | cons b records => exact List.perm_append_comm

theorem items_listing (path : String) (records : Table Json) :
    (listing path records).sorted.member? "items" =
      if records = [] then none else some (.array (records.map fun b => b.2.sorted)) := by
  rw [listing_eq, Json.sorted_object, Json.ofMembers, Json.member?_object,
    ((ordered_listed path records).map Json.sorted).ofBindings_eq, Table.value?_map]
  cases records with
  | nil => rfl
  | cons b records => simp [listed, Table.value?_cons]

theorem survives_listing {path : String} {records : Table Json}
    (survives : ∀ b ∈ records, b.2.Numbers Number.Survives) :
    (listing path records).Numbers Number.Survives := by
  have items : (Json.array (records.map Prod.snd)).Numbers Number.Survives :=
    (Json.numbers_array _).2 (List.forall_mem_map.2 survives)
  rw [listing_eq, Json.numbers_object]
  cases records with
  | nil => exact List.forall_mem_cons.2 ⟨trivial, List.forall_mem_singleton.2 trivial⟩
  | cons b records =>
    exact List.forall_mem_cons.2
      ⟨items, List.forall_mem_cons.2 ⟨trivial, List.forall_mem_singleton.2 trivial⟩⟩

theorem depth_listing_le {path : String} {records : Table Json} {n : Nat}
    (nested : ∀ b ∈ records, b.2.depth ≤ n) : (listing path records).depth ≤ n + 2 := by
  have items : (Json.array (records.map Prod.snd)).depth ≤ n + 1 :=
    (Json.depth_array_le _).2 (List.forall_mem_map.2 nested)
  have text : ∀ s : String, (Json.string s).depth ≤ n + 1 := fun _ => Nat.zero_le _
  rw [listing_eq, Json.depth_object_le]
  cases records with
  | nil => exact List.forall_mem_cons.2 ⟨text _, List.forall_mem_singleton.2 (text _)⟩
  | cons b records =>
    exact List.forall_mem_cons.2
      ⟨items, List.forall_mem_cons.2 ⟨text _, List.forall_mem_singleton.2 (text _)⟩⟩

theorem read_below {s : Store} {path key : String} {record : Json} (nonempty : path ≠ "")
    (named : key ≠ "") (slash : '/' ∉ key.toList)
    (apart : s.collection? (path ++ "/" ++ key) = none)
    (found : s.recordAt? path key = some record) : s.read (path ++ "/" ++ key) = .ok record := by
  obtain ⟨records, held, bound⟩ := Option.bind_eq_some_iff.1 found
  have parts : splitInstance? (path ++ "/" ++ key) = some (path, key) :=
    splitInstance?_append (fun empty => nonempty (String.toList_eq_nil_iff.1 empty))
      (fun empty => named (String.toList_eq_nil_iff.1 empty)) slash
  have below : s.below? (path ++ "/" ++ key) = some (path, some (key, record)) := by
    simp [below?, parts, held, lookupSegment, bound]
  rw [read_eq, apart, below]

end Store

/-- The fields of a listing. -/
def Shape.listingFields (item : Shape) : Fields :=
  .cons (.optional "kind") .text (.cons ((Field.optional "selfLink").orNamed "selflink") .text
    (.cons (.defaulted "items") (.list item) .nil))

section
variable {item : Shape} {path : String} {records : Table Json}

/-- The items of a listing are read from its records, with two levels less than the whole document
has. -/
theorem Fields.pick_items {items : List item.Value} :
    (Fields.cons (.defaulted "items") (.list item) .nil).pick 126
        (ofTable (Store.listed path records)) = some ((items, ()) : List item.Value × Unit) ↔
      List.Forall₂ (fun b x => item.decode 125 (ofJson b.2) = .ok x) records items := by
  cases records with
  | nil =>
    refine (pick_cons_of_absent rfl).trans ?_
    rw [List.forall₂_nil_left_iff]
    exact ⟨fun h => (Option.some.inj h.1).symm, fun h => ⟨congrArg some h.symm, rfl⟩⟩
  | cons b records =>
    have one : (ofTable (Store.listed path (b :: records))).filter
        (fun m => (Field.defaulted "items").answers m.1) =
          [("items", ofJson (.array ((b :: records).map Prod.snd)))] := rfl
    refine (pick_cons_of_present one).trans ((and_iff_left rfl).trans ?_)
    exact Shape.decode_list_ofJson_iff.trans List.forall₂_map_left_iff

theorem Shape.decode_listing_iff {l : Listing item.Value} :
    (Shape.listing item).decode maxDepth (ofJson (Store.listing path records)) = .ok l.toValue ↔
      l.kind = some (kindTag path "collectionstate") ∧ l.selfLink = some (Store.host ++ path) ∧
        List.Forall₂ (fun b x => item.decode 125 (ofJson b.2) = .ok x) records l.items := by
  have kind : (ofTable (Store.listed path records)).filter
      (fun m => (Field.optional "kind").answers m.1) =
        [("kind", .string (some (kindTag path "collectionstate")))] := by
    cases records <;> rfl
  have link : (ofTable (Store.listed path records)).filter
      (fun m => ((Field.optional "selfLink").orNamed "selflink").answers m.1) =
        [("selfLink", .string (some (Store.host ++ path)))] := by
    cases records <;> rfl
  have picked : item.listingFields.pick 126 (ofTable (Store.listed path records)) =
      some l.toValue ↔ l.kind = some (kindTag path "collectionstate") ∧
        l.selfLink = some (Store.host ++ path) ∧
          List.Forall₂ (fun b x => item.decode 125 (ofJson b.2) = .ok x) records l.items := by
    refine (Fields.pick_cons_of_present kind).trans (and_congr ?_
      ((Fields.pick_cons_of_present link).trans (and_congr ?_ Fields.pick_items)))
    · exact ⟨fun h => (Except.ok.inj h).symm, fun h => congrArg Except.ok h.symm⟩
    · exact ⟨fun h => (Except.ok.inj h).symm, fun h => congrArg Except.ok h.symm⟩
  have nodup : item.listingFields.names.Nodup :=
    (by decide : ["kind", "selfLink", "selflink", "items"].Nodup)
  rw [Store.listing_eq, ofJson_object_eq]
  refine (decode_struct_object_eq_ok_iff nodup).trans ?_
  constructor
  · rintro ⟨-, r, ms, room, same, -, fits⟩
    obtain rfl := Nat.succ.inj room
    obtain rfl := named_injective same
    exact picked.1 fits
  · intro h
    refine ⟨rfl, 126, _, rfl, rfl, ?_, picked.2 h⟩
    exact List.forall_mem_map.2 fun m _ _ => isSound_ofJson m.2

end

namespace Device

/-- A state that a device can get into. -/
def Reachable (d : Device) : Prop := ∃ actions, acted actions = d

/-- Nothing stands in the way of reading a collection and each of its records: the paths are those of
what is stored, no answers are prepared for them, and the records can be printed. -/
structure Readable (d : Device) (path : String) (records : Table Json) : Prop where
  held : d.store.collection? path = some records
  nonempty : path ≠ ""
  named : ∀ b ∈ records, b.1 ≠ ""
  apart : ∀ b ∈ records, d.store.collection? (path ++ "/" ++ b.1) = none
  unprepared : d.prepared? ⟨.get, path, none⟩ = none
  recordsUnprepared : ∀ b ∈ records, d.prepared? ⟨.get, path ++ "/" ++ b.1, none⟩ = none
  survives : ∀ b ∈ records, b.2.Numbers Number.Survives
  depth_le : ∀ b ∈ records, b.2.depth ≤ 120

theorem execute_read {d : Device} {path : String} {document : Json}
    (unprepared : d.prepared? ⟨.get, path, none⟩ = none) (read : d.store.read path = .ok document) :
    (d.execute ⟨.get, path, none⟩).2 = .ok (Utf8.encode document.print) := by
  have answered : d.store.answer ⟨.get, path, none⟩ = .ok (d.store, document.print) := by
    rw [Store.answer_get, read]
    rfl
  rw [execute_of_unprepared unprepared, answered]

namespace Readable

variable {d : Device} {path : String} {records : Table Json} (h : d.Readable path records)
include h

theorem execute_record (keyed : d.store.Keyed) {b : String × Json} (inside : b ∈ records) :
    (d.execute ⟨.get, path ++ "/" ++ b.1, none⟩).2 = .ok (Utf8.encode b.2.print) := by
  have bound : d.store.recordAt? path b.1 = some b.2 := by
    rw [Store.recordAt?_of_collection? h.held]
    exact Table.value?_of_mem (keyed.ordered path records h.held).nodup inside
  obtain ⟨name, segment⟩ := keyed.encoded path b.1 b.2 bound
  have slash : '/' ∉ b.1.toList := segment ▸ slash_not_mem_encodeInstance name
  exact execute_read (h.recordsUnprepared b inside)
    (Store.read_below h.nonempty (h.named b inside) slash (h.apart b inside) bound)

theorem execute_collection : (d.execute ⟨.get, path, none⟩).2 =
    .ok (Utf8.encode (Store.listing path records).print) := by
  refine execute_read h.unprepared ?_
  rw [Store.read_eq, h.held]

theorem parse_record {b : String × Json} (inside : b ∈ records) :
    Json.parse? (Utf8.encode b.2.print) = some b.2.sorted :=
  Json.ofText?_print (h.survives b inside) (Nat.le_trans (h.depth_le b inside) (by decide))

theorem parse_listing : Json.parse? (Utf8.encode (Store.listing path records).print) =
    some (Store.listing path records).sorted :=
  Json.ofText?_print (Store.survives_listing h.survives)
    (Nat.le_trans (Store.depth_listing_le h.depth_le) (by decide))

section
variable {k : Kind}

/-- A record is read from a listing as it is when it comes alone. -/
theorem read_record_iff {b : String × Json} (inside : b ∈ records) {r : Record k} :
    k.shape.read (Utf8.encode b.2.print) = .ok r ↔ k.shape.decode 125 (ofJson b.2) = .ok r := by
  have deep := Nat.le_trans (h.depth_le b inside) (by decide : 120 ≤ 125)
  have deeper := Nat.le_trans (h.depth_le b inside) (by decide : 120 ≤ maxDepth)
  rw [Shape.read_eq_ok_iff, Json.read_print (h.survives b inside)]
  refine (and_iff_left rfl).trans ⟨fun decoded => ?_, fun decoded => ?_⟩
  · exact Shape.decode_room k.shape k.wellFormed_shape deeper deep decoded
  · exact Shape.decode_room k.shape k.wellFormed_shape deep deeper decoded

theorem read_listing_iff {l : Listing (Record k)} :
    (Shape.listing k.shape).read (Utf8.encode (Store.listing path records).print) =
        .ok l.toValue ↔
      l.kind = some (kindTag path "collectionstate") ∧ l.selfLink = some (Store.host ++ path) ∧
        List.Forall₂ (fun b r => k.shape.read (Utf8.encode b.2.print) = .ok r) records l.items := by
  rw [Shape.read_eq_ok_iff, Json.read_print (Store.survives_listing h.survives)]
  refine (and_iff_left rfl).trans (Shape.decode_listing_iff.trans ?_)
  refine and_congr_right fun _ => and_congr_right fun _ => ?_
  rw [List.forall₂_iff_get, List.forall₂_iff_get]
  refine and_congr_right fun _ => forall_congr' fun i => forall_congr' fun hi => ?_
  exact forall_congr' fun _ => (h.read_record_iff (List.get_mem records ⟨i, hi⟩)).symm

variable (home : k.path.text = path) {ctx : RequestContext} (patient : ctx.cut? (some d.delay) = none)
include home patient

theorem call_list : ((⟨ctx⟩ : Client k.resource).call transport d .list).2 =
    some ((((Shape.listing k.shape).read (Utf8.encode (Store.listing path records).print)).map
      Listing.ofValue).mapError .unmarshal) := by
  subst home
  have answered : d.store.answer ⟨.get, k.path.text, none⟩ =
      .ok (d.store, (Store.listing k.path.text records).print) := by
    rw [Store.answer_get, Store.read_eq, h.held]
    rfl
  have request : k.resource.request .list = .ok ⟨.get, k.path.text, none⟩ :=
    Kind.request_collection rfl rfl
  rw [call_of_answer request patient h.unprepared answered]
  generalize Utf8.encode (Store.listing k.path.text records).print = bytes
  rfl

theorem list_eq_ok_iff {l : Listing (Record k)} :
    ((⟨ctx⟩ : Client k.resource).call transport d .list).2 = some (.ok l) ↔
      l.kind = some (kindTag path "collectionstate") ∧ l.selfLink = some (Store.host ++ path) ∧
        List.Forall₂ (fun b r => k.shape.read (Utf8.encode b.2.print) = .ok r) records l.items := by
  rw [h.call_list home patient, ← h.read_listing_iff]
  cases read : (Shape.listing k.shape).read (Utf8.encode (Store.listing path records).print) with
  | error fault => exact ⟨fun same => (nomatch Option.some.inj same), nofun⟩
  | ok v =>
    constructor
    · intro same
      obtain rfl := Except.ok.inj (Option.some.inj same)
      rfl
    · intro same
      obtain rfl := Except.ok.inj same
      rfl

theorem list_eq_error {error : ClientError}
    (failed : ((⟨ctx⟩ : Client k.resource).call transport d .list).2 = some (.error error)) :
    ∃ fault, error = .unmarshal fault := by
  rw [h.call_list home patient] at failed
  cases read : (Shape.listing k.shape).read (Utf8.encode (Store.listing path records).print) with
  | error fault =>
    rw [read] at failed
    exact ⟨fault, (Except.error.inj (Option.some.inj failed)).symm⟩
  | ok v =>
    rw [read] at failed
    exact nomatch Option.some.inj failed

end

end Readable

/-- A collection is listed in the order of the bytes of its keys, each record once and as it is read
under its own key, and a typed listing reads all of its records or none. -/
theorem listing_agrees {d : Device} (reachable : d.Reachable) {path : String} {records : Table Json}
    (readable : d.Readable path records) :
    ((records.names.map Utf8.encode).Pairwise (· < ·) ∧
      records.length = d.store.recordCount path) ∧
    ∃ (whole : Bytes) (document : Json) (replies : List Bytes),
      List.Forall₂ (fun key reply => (d.execute ⟨.get, path ++ "/" ++ key, none⟩).2 = .ok reply)
        records.names replies ∧
      (d.execute ⟨.get, path, none⟩).2 = .ok whole ∧ Json.parse? whole = some document ∧
      (document.member? "items" = none ↔ d.store.recordCount path = 0) ∧
      (∀ items, document.member? "items" = some items → ∃ xs, items = .array xs ∧
        List.Forall₂ (fun reply x => Json.parse? reply = some x) replies xs) ∧
      ∀ (k : Kind) (ctx : RequestContext), k.path.text = path → ctx.cut? (some d.delay) = none →
        ((∃ l, ((⟨ctx⟩ : Client k.resource).call transport d .list).2 = some (.ok l)) ↔
          ∀ reply ∈ replies, ∃ r, k.shape.read reply = .ok r) ∧
        (∀ l : Listing (Record k),
          ((⟨ctx⟩ : Client k.resource).call transport d .list).2 = some (.ok l) →
          l.items.length = d.store.recordCount path ∧
            List.Forall₂ (fun reply r => k.shape.read reply = .ok r) replies l.items) ∧
        ∀ error, ((⟨ctx⟩ : Client k.resource).call transport d .list).2 = some (.error error) →
          ∃ fault, error = .unmarshal fault := by
  obtain ⟨actions, rfl⟩ := reachable
  have keyed := keyed_acted actions
  generalize acted actions = d at keyed readable ⊢
  have count : d.store.recordCount path = records.length := by
    rw [Store.recordCount, readable.held, Option.getD_some]
  have ascending : (records.names.map Utf8.encode).Pairwise (· < ·) := by
    rw [Table.names, List.map_map, List.pairwise_map]
    exact (keyed.ordered path records readable.held).imp Utf8.encode_lt
  have documented := Store.items_listing path records
  refine ⟨⟨ascending, count.symm⟩, _, _, records.map fun b => Utf8.encode b.2.print, ?_,
    readable.execute_collection, readable.parse_listing, ?_, ?_, ?_⟩
  · rw [Table.names, List.forall₂_map_left_iff]
    exact forall₂_map_self fun b inside => readable.execute_record keyed inside
  · rw [documented, count, List.length_eq_zero_iff]
    split_ifs with empty <;> simp [empty]
  · intro items present
    rw [documented] at present
    split_ifs at present
    refine ⟨_, (Option.some.inj present).symm, ?_⟩
    rw [List.forall₂_map_left_iff]
    exact forall₂_map_self fun b inside => readable.parse_record inside
  · intro k ctx home patient
    have listed {l : Listing (Record k)} := readable.list_eq_ok_iff home patient (l := l)
    refine ⟨⟨?_, fun each => ?_⟩, ?_, fun error => readable.list_eq_error home patient⟩
    · rintro ⟨l, success⟩
      obtain ⟨-, -, decoded⟩ := listed.1 success
      rw [List.forall_mem_map]
      intro b inside
      obtain ⟨r, -, read⟩ := exists_of_mem_right decoded.flip inside
      exact ⟨r, read⟩
    · rw [List.forall_mem_map] at each
      obtain ⟨rs, decoded⟩ := exists_forall₂ each
      exact ⟨⟨_, _, rs⟩, listed.2 ⟨rfl, rfl, decoded⟩⟩
    · intro l success
      obtain ⟨-, -, decoded⟩ := listed.1 success
      rw [List.forall₂_map_left_iff]
      exact ⟨decoded.length_eq.symm.trans count.symm, decoded⟩

/-- Two folders, of which the later one comes first. -/
def twoFolders : List Action :=
  [.step (.addCollection "/mgmt/tm/sys/folder"),
   .step (.insert "/mgmt/tm/sys/folder"
     (.object [("name", .string "a"), ("partition", .string "Common")])),
   .send .background ⟨.post, "/mgmt/tm/sys/folder", some "\x7b\"name\":\"b c\"\x7d"⟩]

/-- The folders as the device keeps them. -/
def twoRecords : Table Json :=
  [("b%20c", .object
     [("generation", .natural 2), ("kind", .string "tm:sys:folder:folderstate"),
      ("name", .string "b c"), ("selfLink", .string "https://localhost/mgmt/tm/sys/folder/b%20c")]),
   ("~Common~a", .object
     [("fullPath", .string "/Common/a"), ("generation", .natural 1),
      ("kind", .string "tm:sys:folder:folderstate"), ("name", .string "a"),
      ("partition", .string "Common"),
      ("selfLink", .string "https://localhost/mgmt/tm/sys/folder/~Common~a")])]

theorem readable_twoFolders : (acted twoFolders).Readable "/mgmt/tm/sys/folder" twoRecords where
  held := by decide +kernel
  nonempty := by decide
  named := by decide
  apart := by decide +kernel
  unprepared := by decide +kernel
  recordsUnprepared := by decide +kernel
  survives := by
    have first := (show (Number.integer 1).InRange from ⟨by decide, by decide⟩).survives
    have second := (show (Number.integer 2).InRange from ⟨by decide, by decide⟩).survives
    refine List.forall_mem_cons.2 ⟨?_, List.forall_mem_singleton.2 ?_⟩
    · exact ⟨trivial, second, trivial, trivial, trivial, trivial⟩
    · exact ⟨trivial, trivial, first, trivial, trivial, trivial, trivial, trivial⟩
  depth_le := by decide

/-- Both folders are listed. -/
theorem listing_agrees_twoFolders : ∃ l : Listing (Record .folder),
    ((⟨.background⟩ : Client Kind.folder.resource).call transport (acted twoFolders) .list).2 =
      some (.ok l) ∧ l.items.length = 2 := by
  obtain ⟨⟨-, count⟩, whole, document, replies, -, -, -, -, -, typed⟩ :=
    listing_agrees ⟨twoFolders, rfl⟩ readable_twoFolders
  obtain ⟨-, decoded, -⟩ := typed .folder .background rfl rfl
  have each : ∀ b ∈ twoRecords, ∃ r : Record .folder,
      Kind.folder.shape.read (Utf8.encode b.2.print) = .ok r := by
    have fits : ∀ b ∈ twoRecords, (Kind.folder.shape.decode 125 (ofJson b.2)).isOk = true := by
      decide +kernel
    intro b inside
    cases decoded : Kind.folder.shape.decode 125 (ofJson b.2) with
    | error fault => exact absurd (fits b inside) (by simp [decoded, Except.isOk, Except.toBool])
    | ok r => exact ⟨r, (readable_twoFolders.read_record_iff inside).2 decoded⟩
  obtain ⟨rs, read⟩ := exists_forall₂ each
  have patient : RequestContext.background.cut? (some (acted twoFolders).delay) = none := rfl
  have listed := (readable_twoFolders.list_eq_ok_iff (k := .folder) (l := ⟨_, _, rs⟩) rfl
    patient).2 ⟨rfl, rfl, read⟩
  exact ⟨_, listed, (decoded _ listed).1.trans count.symm⟩

end Device

end IControl
