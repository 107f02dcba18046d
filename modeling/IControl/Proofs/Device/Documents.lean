import IControl.Proofs.Catalog
import IControl.Proofs.Device.Store

/-!
# Documents of a catalog

A device that keeps the documents of the records of a catalog looks them up, binds
them and takes them out as the catalog does with the records. What it stamps into
a document is assigned to the record, and giving a document the identity of
another one replaces that record.
-/

namespace IControl

namespace Catalog

variable {k : Kind}

theorem value?_documents (c : Catalog k) (key : String) :
    c.documents.value? key = (c.records.value? key).map Record.document :=
  Table.value?_map Record.document c.records key

theorem has_documents (c : Catalog k) (key : String) :
    c.documents.has key = c.records.has key := by
  rw [Table.has, Table.has, value?_documents, Option.isSome_map]

theorem documents_put (c : Catalog k) (key : String) (r : Record k) :
    (c.put key r).documents = c.documents.put key (r.assigned key (c.writes + 1)).document :=
  Table.map_put Record.document c.records key _

theorem documents_without (c : Catalog k) (key : String) :
    (c.without key).documents = c.documents.without key :=
  Table.map_without Record.document c.records key

theorem lookupSegment_documents (c : Catalog k) (name : String) :
    lookupSegment c.documents (encodeInstance name) =
      (c.find? name).map fun b => (b.1, b.2.document) := by
  have common : "~" ++ defaultPartition ++ "~" = "~Common~" := by decide
  unfold lookupSegment find?
  rw [common, value?_documents]
  cases c.records.value? (encodeInstance name) with
  | some record => rfl
  | none =>
    dsimp only [Option.map_none]
    split_ifs
    · rfl
    · rw [value?_documents]
      cases c.records.value? ("~Common~" ++ encodeInstance name) <;> rfl

end Catalog

namespace Store

theorem ordered_stamped {members : Table Json} (h : members.Ordered) (path key : String)
    (generation : UInt64) : (stamped path key generation members).Ordered := by
  unfold stamped
  extract_lets located counted tagged
  have placed : located.Ordered := by
    unfold located
    split
    · exact Table.ordered_put h _ _
    · exact h
  have count : counted.Ordered := Table.ordered_put placed _ _
  have tag : tagged.Ordered := by
    unfold tagged
    split
    · exact count
    · exact Table.ordered_put count _ _
  exact Table.ordered_put tag _ _

theorem ordered_withIdentityOf (before : Table Json) {members : Table Json}
    (h : members.Ordered) : ∃ ms, withIdentityOf (.object before) (.object members) = .object ms ∧
      Table.Ordered ms := by
  refine ⟨_, rfl, ?_⟩
  simp only [List.foldl_cons, List.foldl_nil]
  cases before.value? "name" with
  | none =>
    cases before.value? "partition" with
    | none => exact h
    | some placed => exact Table.ordered_put h _ _
  | some named =>
    cases before.value? "partition" with
    | none => exact Table.ordered_put h _ _
    | some placed => exact Table.ordered_put (Table.ordered_put h _ _) _ _

end Store

namespace Metadata

theorem member?_assigned (m : Metadata) (path key : String) (generation : UInt64) (name : String) :
    (m.assigned path key generation).member? name =
      if name = "selfLink" then some (.string (Store.host ++ path ++ "/" ++ key))
      else if name = "kind" then (m.member? "kind").or (some (.string (kindTag path "state")))
      else if name = "generation" then some (.natural generation.toNat)
      else if name = "fullPath" then (m.assigned path key generation).fullPath.map .string
      else m.member? name := by
  by_cases own : name ∈ metadataFields.names
  · rw [names_metadataFields] at own
    simp only [List.mem_cons, List.not_mem_nil, or_false] at own
    rcases own with rfl | rfl | rfl | rfl | rfl | rfl
    · rfl
    · rfl
    · rfl
    · rfl
    · cases tag : m.kind <;> simp [member?, assigned, tag]
    · rfl
  · rw [member?_eq_none own, member?_eq_none own]
    rw [names_metadataFields] at own
    simp only [List.mem_cons, List.not_mem_nil, or_false, not_or] at own
    simp only [own, if_false]

/-- A replaced metadata under the names that identify an object, and under the others. -/
theorem member?_replacing (m old : Metadata) (named : old.name ≠ "") (name : String) :
    (m.replacing old).member? name =
      if name = "name" ∨ name = "partition" then (old.member? name).or (m.member? name)
      else m.member? name := by
  by_cases own : name ∈ metadataFields.names
  · rw [names_metadataFields] at own
    simp only [List.mem_cons, List.not_mem_nil, or_false] at own
    rcases own with rfl | rfl | rfl | rfl | rfl | rfl
    · simp [member?, replacing, named]
    · cases placed : old.partition <;> simp [member?, replacing, placed]
    · rfl
    · rfl
    · rfl
    · rfl
  · rw [member?_eq_none own, member?_eq_none own, member?_eq_none own]
    simp

end Metadata

namespace Record

variable {k : Kind} {n : Nat} {r : Record k} (h : k.shape.Holds (Json.Lasting n) r)
include h

theorem assignedPath?_document {ms : Table Json} (document : r.document = .object ms)
    (named : r.metadata.name ≠ "") (path key : String) (generation : UInt64) :
    Store.assignedPath? ms = (r.metadata.assigned path key generation).fullPath.map .string := by
  have name := textMember?_name h
  have partition := textMember?_partition h
  have own := member?_document h "fullPath"
  rw [if_neg named] at name
  rw [if_pos (by decide), Metadata.member?, if_neg (by decide), if_neg (by decide), if_pos rfl,
    document, Json.member?_object] at own
  rw [document] at name partition
  rw [Store.assignedPath?, name, partition, own, Metadata.assigned]
  cases r.metadata.partition <;> rfl

theorem stamp_document (named : r.metadata.name ≠ "") (key : String) (generation : UInt64) :
    Store.stamp k.path.text key generation r.document = (r.assigned key generation).document := by
  obtain ⟨ms, document, ordered⟩ := r.ordered_document
  obtain ⟨ns, assigned, orderedAssigned⟩ := (r.assigned key generation).ordered_document
  rw [document, assigned, Store.stamp]
  refine congrArg Json.object ((Store.ordered_stamped ordered _ _ _).ext orderedAssigned ?_)
  intro name
  have path := assignedPath?_document h document named k.path.text key generation
  have holds : k.shape.Holds (Json.Lasting n) (r.assigned key generation) := holds_withMetadata h _
  have before := member?_document h name
  have kind := member?_document h "kind"
  have after := member?_document holds name
  rw [if_pos (by decide)] at kind
  simp only [document, assigned, Json.member?_object] at before kind after
  rw [Store.value?_stamped, path, kind, before, after, Record.assigned, metadata_withMetadata,
    others_withMetadata, Metadata.member?_assigned]
  by_cases own : name ∈ metadataFields.names
  · rw [if_pos own, if_pos own]
  · have apart := own
    rw [Metadata.names_metadataFields] at apart
    simp only [List.mem_cons, List.not_mem_nil, or_false, not_or] at apart
    simp only [own, apart, if_false]

/-- Giving a document the identity of another one replaces that record. -/
theorem withIdentityOf_document {old : Record k} (hold : k.shape.Holds (Json.Lasting n) old)
    (named : old.metadata.name ≠ "") :
    Store.withIdentityOf old.document r.document = (r.replacing old).document := by
  obtain ⟨ms, document, ordered⟩ := r.ordered_document
  obtain ⟨before, oldDocument, -⟩ := old.ordered_document
  obtain ⟨ns, replaced, orderedReplaced⟩ := (r.replacing old).ordered_document
  obtain ⟨identified, eq, orderedIdentified⟩ := Store.ordered_withIdentityOf before ordered
  have holds : k.shape.Holds (Json.Lasting n) (r.replacing old) := holds_withMetadata h _
  rw [document, oldDocument, replaced, eq]
  refine congrArg Json.object (orderedIdentified.ext orderedReplaced fun name => ?_)
  have identity := Store.member?_withIdentityOf before ms name
  have new := member?_document h name
  have kept := member?_document hold name
  have after := member?_document holds name
  simp only [document, oldDocument, replaced, eq, Json.member?_object] at identity new kept after
  rw [identity, new, kept, after, Record.replacing, metadata_withMetadata, others_withMetadata,
    Metadata.member?_replacing _ _ named]
  by_cases own : name ∈ metadataFields.names
  · rw [if_pos own, if_pos own, if_pos own]
  · rw [if_neg own, if_neg own, if_neg own, if_neg]
    rintro (rfl | rfl)
    · exact own (by decide)
    · exact own (by decide)

end Record

end IControl
