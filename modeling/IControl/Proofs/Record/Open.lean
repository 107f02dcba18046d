import IControl.Proofs.Record.Members
import IControl.Proofs.Shape.Kept

/-!
# Open records lose nothing

The fields of the open kinds are texts and counts, and all others of their members
are kept as attributes. So whatever the device sends of such an object has one place
in the record, and all of it is sent back: every member once, under its own name and
with its own value. Only a null and an empty name are not told from a missing member.
-/

namespace IControl

open Document Json

namespace Kind

theorem metadata_restores : metadataFields.restores = true := by decide

theorem restores_of_isOpen {k : Kind} (isOpen : k.isOpen = true) :
    k.settings.restores = true ∧ k.own.restores = true := by
  revert isOpen
  cases k <;> decide

/-- Only the name is left out of an open record when it is empty. -/
theorem elidedNames_of_isOpen {k : Kind} (isOpen : k.isOpen = true) :
    metadataFields.elidedNames = ["name"] ∧ k.settings.elidedNames = [] ∧ k.own.elidedNames = [] := by
  revert isOpen
  cases k <;> decide

end Kind

namespace Record

variable {k : Kind}

/-- A record of an open kind is written with the members that it was read from, each of them once, and
no field has the name of an attribute. -/
theorem encode_read (isOpen : k.isOpen = true) {bytes : Bytes} {ms : List (String × Json)}
    (spelled : Json.Spells bytes (ofTable ms)) (distinct : (Json.object ms).Distinct)
    (integral : (Json.object ms).Integral) (nested : (Json.object ms).depth ≤ 120)
    (notNull : ∀ name ∈ k.wireNames, Table.value? ms name ≠ some .null)
    (hasName : Table.value? ms "name" ≠ some (.string "")) {r : Record k}
    (read : k.shape.read bytes = .ok r) :
    ∃ ns, k.shape.encode r = .object ns ∧ (Json.object ns).sorted = (Json.object ms).sorted ∧
      Json.Spells (Utf8.encode (k.shape.write r)) (ofTable ns) ∧ (Json.object ns).Distinct ∧
      k.wireNames.Disjoint (Table.names (Extra.members r.entry.extra)) := by
  have formed := k.wellFormed_shape
  have decoded := (read_spelled_iff spelled).1 read
  rw [← ofJson_object_eq] at decoded
  have holds := k.shape.holds_of_decode (carries_plain 120) formed decoded
    (plain_ofJson integral nested)
  have written := k.shape.written_encode formed (holds.imp (fun _ => Plain.lasting) _)
  obtain ⟨settingsRestored, ownRestored⟩ := Kind.restores_of_isOpen isOpen
  obtain ⟨metadataElided, settingsElided, ownElided⟩ := Kind.elidedNames_of_isOpen isOpen
  have metadataShown : metadataFields.Shows ms := by
    refine ⟨fun name inside => notNull name (by simp [Kind.wireNames, inside]), ?_⟩
    simpa [metadataElided] using hasName
  have settingsShown : k.settings.Shows ms :=
    ⟨fun name inside => notNull name (by simp [Kind.wireNames, inside]), by simp [settingsElided]⟩
  have ownShown : k.own.Shows ms :=
    ⟨fun name inside => notNull name (by simp [Kind.wireNames, inside]), by simp [ownElided]⟩
  have sameNames := ((distinct_object ms).1 distinct).1
  have room : (Json.object ms).depth ≤ maxDepth := Nat.le_trans nested (by decide)
  have same := Shape.value?_members_of_decode k.wellLayered isOpen Kind.metadata_restores
    settingsRestored ownRestored metadataShown settingsShown ownShown sameNames room decoded
  refine ⟨_, rfl, ?_, spells_print written.survives, written.distinct, ?_⟩
  · exact sorted_object_congr ((distinct_object _).1 written.distinct).1 sameNames same
  · exact Extra.keeps_names holds.2.2.2

/-- The members of the statistic with an attribute, in an order of their own. -/
def ratioMembers : List (String × Json) :=
  [("keyspace", .array [.natural 1, .object [("keys", .null)]]), ("name", .string "ratio"),
   ("description", .string "hits/misses")]

theorem encode_read_ratioStat :
    ∃ ns, Kind.customStat.shape.encode ratioStat = .object ns ∧
      (Json.object ns).sorted = (Json.object ratioMembers).sorted ∧
      Json.Spells (Utf8.encode (Kind.customStat.shape.write ratioStat)) (ofTable ns) ∧
      (Json.object ns).Distinct ∧
      Kind.customStat.wireNames.Disjoint (Table.names (Extra.members ratioStat.entry.extra)) := by
  have number : (Number.integer 1).InRange := ⟨by decide, by decide⟩
  have integral : (Json.object ratioMembers).Integral :=
    ⟨trivial, ⟨trivial, number, ⟨trivial, trivial, trivial⟩, trivial⟩, trivial, trivial, trivial⟩
  have distinct : (Json.object ratioMembers).Distinct :=
    ⟨by decide, ⟨trivial, trivial, ⟨by decide, trivial, trivial⟩, trivial⟩, trivial, trivial, trivial⟩
  have spelled : Json.Spells (textOf ratioMembers) (ofTable ratioMembers) :=
    spells_print (integral.imp fun _ => Number.InRange.survives)
  have read : Kind.customStat.shape.read (textOf ratioMembers) = .ok ratioStat := by
    decide +kernel
  exact encode_read rfl spelled distinct integral (by decide) (by decide) (by decide) read

end Record

end IControl
