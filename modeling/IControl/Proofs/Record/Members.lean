import IControl.Proofs.Record.RoundTrip
import IControl.Proofs.Shape.Members

/-!
# Records depend on their own members

The device may send the members of an object in any order, and later versions of
its software may send more of them. A record is read from the members that it has
names for: in whatever order they come, whatever stands between them, and whether
an optional one is null or missing. Only the kinds that keep the attributes beyond
their fields see a member of another name, and they keep exactly that one more.
-/

namespace IControl

namespace Json

/-- The text is that of an object with these members, each under its name. -/
def Spells (bytes : Bytes) (ms : List (String × Document)) : Prop :=
  read bytes = (.object (Document.named ms) true, true)

theorem spells_print {ms : List (String × Json)} (survives : (Json.object ms).Numbers Number.Survives) :
    Spells (Utf8.encode (Json.object ms).print) (Document.ofTable ms) := by
  rw [Spells, read_print survives, Document.ofJson_object_eq]

end Json

namespace Kind

/-- The names under which members of a record are written or read. -/
def wireNames (k : Kind) : List String := metadataFields.names ++ k.settings.names ++ k.own.names

/-- The names of the members that may be null. -/
def optionalNames (k : Kind) : List String :=
  metadataFields.optionalNames ++ k.settings.optionalNames ++ k.own.optionalNames

theorem wellLayered (k : Kind) : Shape.WellLayered metadataFields k.settings k.own :=
  @Shape.wellLayered metadataFields k.settings k.own k.isOpen k.wellFormed_shape

end Kind

namespace Record

variable {k : Kind}

/-- The record with one more attribute, if it keeps attributes beyond its fields. -/
def gaining (r : Record k) (name : String) (x : Json) : Record k := r.entry.gaining name x

theorem gaining_of_closed (closed : k.isOpen = false) (r : Record k) (name : String) (x : Json) :
    r.gaining name x = r := by
  have kept : ∀ {isOpen : Bool} (e : Extra isOpen), isOpen = false → e.gaining name x = e := by
    rintro _ e rfl
    rfl
  rw [gaining, Entry.gaining, kept r.entry.extra closed]
  rfl

theorem read_spelled_iff {bytes : Bytes} {ms : List (String × Document)} (spelled : Json.Spells bytes ms)
    {r : Record k} : k.shape.read bytes = .ok r ↔
      k.shape.decode Document.maxDepth (.object (Document.named ms) true) = .ok r := by
  rw [Shape.read_eq_ok_iff, spelled]
  exact and_iff_left rfl

/-- A record that is read from a text of distinct members is read from any text of the same members,
of one more member under a name that no field has, or of all but the null of an optional member. Only
a kind that keeps attributes beyond its fields gains the member of the new name. -/
theorem read_members {bytes : Bytes} {ms : List (String × Document)}
    (spelled : Json.Spells bytes ms) (distinct : (Table.names ms).Nodup) {r : Record k}
    (read : k.shape.read bytes = .ok r) :
    (∀ other ns, Json.Spells other ns → ms.Perm ns → k.shape.read other = .ok r) ∧
    (∀ other before after name d x, before ++ after = ms →
      Json.Spells other (before ++ (name, d) :: after) → name ∉ k.wireNames →
      name ∉ Table.names ms → d.value? (Document.maxDepth - 1) = some x →
        k.shape.read other = .ok (r.gaining name x) ∧
        (k.isOpen = false → r.gaining name x = r) ∧
        name ∉ Table.names (Extra.members r.entry.extra)) ∧
    ∀ other before after name, before ++ (name, .null) :: after = ms → name ∈ k.optionalNames →
      Json.Spells other (before ++ after) → k.shape.read other = .ok r := by
  have well := k.wellLayered
  have decoded := (read_spelled_iff spelled).1 read
  refine ⟨?_, ?_, ?_⟩
  · intro other ns spells perm
    exact (read_spelled_iff spells).2 (Shape.decode_layered_perm well distinct perm decoded)
  · rintro other before after name d x rfl spells free fresh taken
    have whole := Shape.decode_layered_concat well (d := d) free taken decoded
    -- The new member may as well come last.
    have perm : (before ++ after ++ [(name, d)]).Perm (before ++ (name, d) :: after) :=
      (List.perm_append_singleton _ _).trans List.perm_middle.symm
    have apart : (Table.names (before ++ after ++ [(name, d)])).Nodup := by
      rw [Table.names_append]
      exact distinct.append (List.nodup_singleton name) (List.disjoint_singleton.2 fresh)
    refine ⟨(read_spelled_iff spells).2 (Shape.decode_layered_perm well apart perm whole),
      fun closed => r.gaining_of_closed closed name x, fun kept => fresh ?_⟩
    exact Shape.names_extra_subset well decoded kept
  · rintro other before after name rfl optional spells
    have perm : (before ++ (name, Document.null) :: after).Perm
        (before ++ after ++ [(name, .null)]) :=
      List.perm_middle.trans (List.perm_append_singleton _ _).symm
    have last := Shape.decode_layered_perm well distinct perm decoded
    exact (read_spelled_iff spells).2 (Shape.decode_layered_of_null well optional last)

/-- A statistic of which the device only sends the name. -/
def plainStat : Record .customStat :=
  Record.withMetadata (k := .customStat) Kind.customStat.shape.blank (.named "a")

/-- The text of an object. -/
def textOf (ms : List (String × Json)) : Bytes := Utf8.encode (Json.object ms).print

/-- The statistic in another order, with an attribute in front, and without its null. -/
theorem read_members_plainStat :
    Kind.customStat.shape.read (textOf [("description", .null), ("name", .string "a")]) =
      .ok plainStat ∧
    Kind.customStat.shape.read
        (textOf [("keys", .array []), ("name", .string "a"), ("description", .null)]) =
      .ok (plainStat.gaining "keys" (.array [])) ∧
    Kind.customStat.shape.read (textOf [("name", .string "a")]) = .ok plainStat := by
  have sent : Json.Spells (textOf [("name", .string "a"), ("description", .null)]) _ :=
    Json.spells_print ⟨trivial, trivial, trivial, trivial⟩
  have turned : Json.Spells (textOf [("description", .null), ("name", .string "a")]) _ :=
    Json.spells_print ⟨trivial, trivial, trivial, trivial⟩
  have longer : Json.Spells
      (textOf [("keys", .array []), ("name", .string "a"), ("description", .null)]) _ :=
    Json.spells_print ⟨trivial, ⟨trivial, trivial⟩, trivial, trivial, trivial⟩
  have shorter : Json.Spells (textOf [("name", .string "a")]) _ :=
    Json.spells_print ⟨trivial, trivial, trivial⟩
  have read : Kind.customStat.shape.read
      (textOf [("name", .string "a"), ("description", .null)]) = .ok plainStat := by
    decide +kernel
  obtain ⟨reordered, gained, reduced⟩ := read_members sent (by decide) read
  refine ⟨reordered _ _ turned (List.Perm.swap _ _ _), ?_, ?_⟩
  · exact (gained _ [] _ "keys" _ (.array []) rfl longer (by decide) (by decide) rfl).1
  · exact reduced _ [("name", .string (some "a"))] [] "description" rfl (by decide) shorter

end Record

end IControl
