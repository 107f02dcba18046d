import IControl.Proofs.Shape.RoundTrip
import IControl.Record.Basic

/-!
# Records are read back as they were written

In the shape of every kind of record no two fields share a name, not even a field
of its own with the metadata or the settings it is written among, and no optional
field may write null. The same holds of the shapes that occur inside records or
around them. None of them nests more than six levels by itself, which leaves 120
of the 127 levels of a document to the free values that a record keeps.
-/

namespace IControl

/-- The shapes of parts of records, and of what the device sends beside records. -/
def Shape.parts : List Shape :=
  [.struct metadataFields, .struct monitorSettings, .reference, .stats,
   .listing (.struct metadataFields), .volumeMedia, .syslogServer, .serviceVariable, .serviceList,
   .serviceTable, .serviceTableRow]

/-- The shapes of records and of their parts. -/
def Shape.Served (s : Shape) : Prop := (∃ k : Kind, s = k.shape) ∨ s ∈ Shape.parts

namespace Kind

theorem wellFormed_shape (k : Kind) : k.shape.wellFormed = true := by
  cases k <;> decide +kernel

theorem height_shape (k : Kind) : k.shape.height ≤ 6 := by
  cases k <;> decide +kernel

end Kind

namespace Shape

theorem wellFormed_parts : ∀ s ∈ parts, s.wellFormed = true := by
  decide +kernel

theorem height_parts : ∀ s ∈ parts, s.height ≤ 6 := by
  decide +kernel

theorem Served.wellFormed {s : Shape} (h : s.Served) : s.wellFormed = true := by
  rcases h with ⟨k, rfl⟩ | h
  · exact k.wellFormed_shape
  · exact wellFormed_parts s h

theorem Served.fits {s : Shape} (h : s.Served) : 120 + s.height ≤ Document.maxDepth := by
  have low : s.height ≤ 6 := by
    rcases h with ⟨k, rfl⟩ | h
    · exact k.height_shape
    · exact height_parts s h
  have levels : Document.maxDepth = 127 := rfl
  omega

/-- A value that keeps only plain values is read again from its text. A value that was read from any
text keeps no member under a name of its fields, and if the text is plain, it is read again from its
own text. -/
theorem Served.read_back {s : Shape} (served : s.Served) :
    (∀ v, s.Holds (Json.Plain 120) v → s.read (Utf8.encode (s.write v)) = .ok v) ∧
    ∀ bytes v, s.read bytes = .ok v → s.Holds Json.Ordered v ∧
      ((Json.read bytes).1.Plain 120 → s.read (Utf8.encode (s.write v)) = .ok v) := by
  have formed := served.wellFormed
  have fits := served.fits
  constructor
  · intro v h
    exact read_write formed (h.imp (fun _ => Json.Plain.lasting) s) fits
  · intro bytes v h
    exact ⟨holds_of_read formed h, fun plain => read_write_read formed fits h plain⟩

end Shape

/-- A statistic with an attribute beyond its fields. -/
def Record.ratioStat : Record .customStat :=
  ({ metadata := (Metadata.named "ratio").toRow, settings := (), own := (some "hits/misses", none, ()),
     extra := [("keyspace", .array [.natural 1, .object [("keys", .null)]])] } :
    Entry metadataFields.Row Unit (Option String × Option String × Unit) (Table Json))

theorem Record.holds_ratioStat {n : Nat} (levels : 2 ≤ n) :
    Kind.customStat.shape.Holds (Json.Plain n) Record.ratioStat := by
  refine ⟨?_, trivial, ?_, List.pairwise_singleton _ _, ?_⟩
  · exact ⟨trivial, fun _ _ => trivial, fun _ _ => trivial, fun _ _ => trivial,
      fun _ _ => trivial, fun _ _ => trivial, trivial⟩
  · exact ⟨fun _ _ => trivial, fun _ _ => trivial, trivial⟩
  · intro m hm
    obtain rfl := List.mem_singleton.1 hm
    have number : (Number.integer 1).InRange := ⟨by decide, by decide⟩
    have nested : Json.depth (.array [.natural 1, .object [("keys", .null)]]) ≤ 2 := by decide
    refine ⟨by decide, ?_, ?_, Nat.le_trans nested levels⟩
    · exact ⟨trivial, trivial, ⟨List.pairwise_singleton _ _, trivial, trivial⟩, trivial⟩
    · exact ⟨trivial, number, ⟨trivial, trivial, trivial⟩, trivial⟩

theorem Shape.Served.read_back_ratioStat :
    Kind.customStat.shape.read (Utf8.encode (Kind.customStat.shape.write Record.ratioStat)) =
      .ok Record.ratioStat ∧
    Kind.customStat.shape.Holds Json.Ordered Record.ratioStat ∧
    (Json.read (Utf8.encode (Kind.customStat.shape.write Record.ratioStat))).1.Plain 120 := by
  have served : Kind.customStat.shape.Served := .inl ⟨.customStat, rfl⟩
  have lasting := (Record.holds_ratioStat (Nat.le_refl 2)).imp (fun _ => Json.Plain.lasting) _
  have written := Shape.written_encode _ served.wellFormed lasting
  have number : (Number.integer 1).InRange := ⟨by decide, by decide⟩
  have integral : (Kind.customStat.shape.encode Record.ratioStat).Integral :=
    ⟨trivial, trivial, trivial, ⟨trivial, number, ⟨trivial, trivial, trivial⟩, trivial⟩, trivial⟩
  have plain : (Json.read (Utf8.encode (Kind.customStat.shape.write Record.ratioStat))).1.Plain
      120 := by
    rw [Shape.write, Json.read_print written.survives]
    exact Document.plain_ofJson integral (Nat.le_trans written.depth_le (by decide +kernel))
  have read := served.read_back.1 Record.ratioStat (Record.holds_ratioStat (by decide))
  obtain ⟨kept, again⟩ := served.read_back.2 _ Record.ratioStat read
  exact ⟨again plain, kept, plain⟩

end IControl
