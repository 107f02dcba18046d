import IControl.Device.Key
import IControl.Proofs.Record.RoundTrip

/-!
# Documents of records

A record is sent as a text, kept as the document of this text, and read again
from the printed document. In the document the members of the metadata stand
beside those of the settings, the own fields and the extra members of the record,
which never carry a name of the metadata. So the document is looked up in part by
part, and another metadata changes only its own members.
-/

namespace IControl

/-- The written members of a metadata. -/
def Metadata.members (m : Metadata) : List (String × Json) := metadataFields.members m.toRow

/-- What is written of a metadata under a name. -/
def Metadata.member? (m : Metadata) (name : String) : Option Json :=
  if name = "name" then if m.name = "" then none else some (.string m.name)
  else if name = "partition" then m.partition.map .string
  else if name = "fullPath" then m.fullPath.map .string
  else if name = "generation" then m.generation.map fun g => .natural g.toNat
  else if name = "kind" then m.kind.map .string
  else if name = "selfLink" then m.selfLink.map .string
  else none

namespace Metadata

theorem names_metadataFields : metadataFields.names =
    ["name", "partition", "fullPath", "generation", "kind", "selfLink"] := rfl

theorem holds_toRow {p : Json → Prop} (m : Metadata) : metadataFields.Holds p m.toRow :=
  ⟨trivial, fun _ _ => trivial, fun _ _ => trivial, fun _ _ => trivial, fun _ _ => trivial,
    fun _ _ => trivial, trivial⟩

theorem member?_eq_none {name : String} (h : name ∉ metadataFields.names) (m : Metadata) :
    m.member? name = none := by
  rw [names_metadataFields] at h
  simp only [List.mem_cons, List.not_mem_nil, or_false, not_or] at h
  simp [member?, h]

theorem value?_members (m : Metadata) (name : String) :
    Table.value? m.members name = m.member? name := by
  obtain ⟨text, partition, path, generation, kind, link⟩ := m
  have field := fun (f : Field) (s : Shape) (rest : Fields) (v : f.presence.Slot s.Value)
    (row : rest.Row) => Fields.value?_members_cons f s rest v row name
  have fields := (field (.elided "name") .text _ text _).trans <| congrArg _ <|
    (field (.optional "partition") .text _ partition _).trans <| congrArg _ <|
    (field (.optional "fullPath") .text _ path _).trans <| congrArg _ <|
    (field (.optional "generation") .count _ generation _).trans <| congrArg _ <|
    (field (.optional "kind") .text _ kind _).trans <| congrArg _ <|
    field (.optional "selfLink") .text .nil link ()
  have named : (Presence.written? Shape.text.isBlank .elided text).map Shape.text.encode =
      if text = "" then none else some (.string text) := by
    by_cases blank : text = ""
    · subst blank
      rfl
    · have written : Presence.written? Shape.text.isBlank .elided text = some text :=
        if_neg (Bool.not_eq_true _ ▸ beq_eq_false_iff_ne.2 blank)
      rw [written, if_neg blank]
      rfl
  refine Eq.trans fields ?_
  change ((if name = "name" then
      (Presence.written? Shape.text.isBlank .elided text).map Shape.text.encode else none).or
    ((if name = "partition" then partition.map .string else none).or
    ((if name = "fullPath" then path.map .string else none).or
    ((if name = "generation" then generation.map fun g => .natural g.toNat else none).or
    ((if name = "kind" then kind.map .string else none).or
    ((if name = "selfLink" then link.map .string else none).or none)))))) = _
  rw [named, member?]
  clear fields field named
  split_ifs <;> simp_all

theorem member?_sorted (m : Metadata) (name : String) :
    (m.member? name).map Json.sorted = m.member? name := by
  obtain ⟨text, partition, path, generation, kind, link⟩ := m
  unfold member?
  split_ifs
  · rfl
  · rfl
  · cases partition <;> rfl
  · cases path <;> rfl
  · cases generation <;> rfl
  · cases kind <;> rfl
  · cases link <;> rfl
  · rfl

/-- The segment that addresses an object of this metadata. -/
def key (m : Metadata) : String :=
  encodeInstance
    (match m.partition with
    | some partition => IControl.fullPath partition m.name
    | none => m.name)

theorem key_eq {m : Metadata} (unset : m.fullPath = none) :
    m.key = encodeInstance m.qualifiedName := by
  rw [key, qualifiedName, unset]
  cases m.partition <;> rfl

end Metadata

namespace Record

variable {k : Kind}

/-- The members of a record beside those of its metadata. -/
def others (r : Record k) : List (String × Json) :=
  k.settings.members r.entry.settings ++ k.own.members r.entry.own ++ Extra.members r.entry.extra

@[simp] theorem others_withMetadata (r : Record k) (m : Metadata) :
    (r.withMetadata m).others = r.others := rfl

/-- The document of a record, with its members in order. -/
def document (r : Record k) : Json := (k.shape.encode r).sorted

theorem encode_eq (r : Record k) : k.shape.encode r = .object (r.metadata.members ++ r.others) := by
  rw [others, ← List.append_assoc, ← List.append_assoc]
  rfl

theorem holds_withMetadata {p : Json → Prop} {r : Record k} (h : k.shape.Holds p r) (m : Metadata) :
    k.shape.Holds p (r.withMetadata m) :=
  ⟨m.holds_toRow, h.2⟩

theorem ordered_document (r : Record k) : ∃ ms, r.document = .object ms ∧ Table.Ordered ms := by
  have written := r.encode_eq
  refine ⟨_, by rw [document, written, Json.sorted_object, Json.ofMembers], ?_⟩
  exact Table.ordered_ofBindings _

section
variable {n : Nat} {r : Record k} (h : k.shape.Holds (Json.Lasting n) r)
include h

theorem written : (k.shape.encode r).Written (n + k.shape.height) :=
  k.shape.written_encode k.wellFormed_shape h

theorem value?_others {name : String} (named : name ∈ metadataFields.names) :
    Table.value? r.others name = none := by
  have well := Shape.wellLayered k.wellFormed_shape
  have settings := (k.settings.names_members_sublist r.entry.settings).subset
  have own := (k.own.names_members_sublist r.entry.own).subset
  refine Table.value?_eq_none_iff.2 fun inside => ?_
  rw [others, Table.names_append, Table.names_append] at inside
  rcases List.mem_append.1 inside with inside | inside
  · rcases List.mem_append.1 inside with inside | inside
    · exact well.settingsApart named (settings inside)
    · exact well.ownApart (List.mem_append_left _ named) (own inside)
  · exact Extra.keeps_names h.2.2.2
      (List.mem_append_left _ (List.mem_append_left _ named)) inside

/-- The document of a record under a name: the metadata decides about its own names. -/
theorem member?_document (name : String) : r.document.member? name =
    if name ∈ metadataFields.names then r.metadata.member? name
    else (Table.value? r.others name).map Json.sorted := by
  have distinct := (written h).distinct
  rw [encode_eq, Json.distinct_object] at distinct
  rw [document, encode_eq, Json.sorted_object, Json.ofMembers, Json.member?,
    Table.value?_ofBindings (by rw [Table.names_map]; exact distinct.1), Table.value?_map,
    Table.value?_append, Metadata.value?_members]
  split_ifs with named
  · rw [value?_others h named, Option.or_none, Metadata.member?_sorted]
  · rw [Metadata.member?_eq_none named, Option.none_or]

theorem textMember?_name : r.document.textMember? "name" =
    if r.metadata.name = "" then none else some r.metadata.name := by
  have name := member?_document h "name"
  rw [if_pos (by decide), Metadata.member?, if_pos rfl] at name
  rw [Json.textMember?, name]
  split_ifs <;> rfl

theorem textMember?_partition : r.document.textMember? "partition" = r.metadata.partition := by
  have partition := member?_document h "partition"
  rw [if_pos (by decide), Metadata.member?, if_neg (by decide), if_pos rfl] at partition
  rw [Json.textMember?, partition]
  cases r.metadata.partition <;> rfl

theorem recordKey?_document : recordKey? r.document =
    if r.metadata.name = "" then none else some r.metadata.key := by
  rw [recordKey?, textMember?_name h, textMember?_partition h, Metadata.key]
  split_ifs
  · rfl
  · cases r.metadata.partition <;> rfl

variable (levels : n + k.shape.height ≤ Document.maxDepth)
include levels

theorem ofText?_write : Json.ofText? (k.shape.write r) = some r.document :=
  Json.ofText?_print (written h).survives (Nat.le_trans (written h).depth_le levels)

/-- A record is read again from its printed document. -/
theorem read_document : k.shape.read (Utf8.encode r.document.print) = .ok r := by
  have decoded := k.shape.decode_encode k.wellFormed_shape h levels
  have sorted := k.shape.decode_sorted k.wellFormed_shape (written h).distinct
    (Nat.le_trans (written h).depth_le levels) decoded
  rw [Shape.read_eq_ok_iff, document, Json.read_print (written h).survives.sorted]
  exact ⟨sorted, rfl⟩

end

end Record

end IControl
