import IControl.Proofs.Name

/-!
# One segment for one object

The segment of a name is percent-encoded, so it can stand in a path, and it
gives the name back with tildes as separators. Two names without tildes have the
same segment only when they are the same, or differ in the first separator of a
qualified name. So no two objects are addressed by one segment, whatever
characters their names hold.
-/

namespace IControl

/-- A name is relative when it is qualified but does not begin with a separator. -/
def IsRelative (name : List Char) : Prop :=
  '/' ∈ name ∧ name.head? ≠ some '/' ∧ name.head? ≠ some '~'

instance (name : List Char) : Decidable (IsRelative name) := by
  unfold IsRelative
  infer_instance

theorem tilded_of_isRelative {name : List Char} (h : IsRelative name) :
    tilded name = '~' :: swapped name := by
  obtain ⟨qualified, slash, tilde⟩ := h
  cases name with
  | nil => exact absurd qualified List.not_mem_nil
  | cons c cs =>
    have first : c ≠ '/' ∧ c ≠ '~' := by simpa using And.intro slash tilde
    rw [tilded, if_pos ⟨qualified, first⟩]
    rfl

theorem tilded_of_not_isRelative {name : List Char} (h : ¬IsRelative name) :
    tilded name = swapped name := by
  cases name with
  | nil => rfl
  | cons c cs =>
    rw [tilded, if_neg]
    · rfl
    · rintro ⟨qualified, slash, tilde⟩
      exact h ⟨qualified, by simpa using slash, by simpa using tilde⟩

theorem swapped_cons (c : Char) (cs : List Char) :
    swapped (c :: cs) = (if c = '/' then '~' else c) :: swapped cs := rfl

theorem swapped_append (cs ds : List Char) : swapped (cs ++ ds) = swapped cs ++ swapped ds :=
  List.map_append

theorem swapped_injective {cs ds : List Char} (hc : '~' ∉ cs) (hd : '~' ∉ ds)
    (same : swapped cs = swapped ds) : cs = ds := by
  induction cs generalizing ds with
  | nil => exact (List.map_eq_nil_iff.1 same.symm).symm
  | cons c cs ih =>
    cases ds with
    | nil => exact nomatch same
    | cons d ds =>
      simp only [List.mem_cons, not_or] at hc hd
      rw [swapped_cons, swapped_cons, List.cons.injEq] at same
      obtain ⟨first, others⟩ := same
      have firsts : c = d := by
        split_ifs at first with slash other
        · exact slash.trans other.symm
        · exact absurd first hd.1
        · exact absurd first.symm hc.1
        · exact first
      rw [firsts, ih hc.2 hd.2 others]

theorem eq_slash_cons {cs ds : List Char} (hc : '~' ∉ cs) (hd : '~' ∉ ds)
    (same : swapped cs = '~' :: swapped ds) : cs = '/' :: ds := by
  refine swapped_injective hc ?_ same
  simpa using hd

/-- Names without tildes have the same characters with tildes as separators when they are the same
but for the first separator of a relative one. -/
theorem tilded_eq_iff {cs ds : List Char} (hc : '~' ∉ cs) (hd : '~' ∉ ds) :
    tilded cs = tilded ds ↔
      cs = ds ∨ IsRelative cs ∧ ds = '/' :: cs ∨ IsRelative ds ∧ cs = '/' :: ds := by
  have rooted : ∀ name, ¬IsRelative ('/' :: name) := fun name relative => relative.2.1 rfl
  constructor
  · intro same
    by_cases left : IsRelative cs <;> by_cases right : IsRelative ds
    · rw [tilded_of_isRelative left, tilded_of_isRelative right, List.cons.injEq] at same
      exact .inl (swapped_injective hc hd same.2)
    · rw [tilded_of_isRelative left, tilded_of_not_isRelative right] at same
      exact .inr (.inl ⟨left, eq_slash_cons hd hc same.symm⟩)
    · rw [tilded_of_not_isRelative left, tilded_of_isRelative right] at same
      exact .inr (.inr ⟨right, eq_slash_cons hc hd same⟩)
    · rw [tilded_of_not_isRelative left, tilded_of_not_isRelative right] at same
      exact .inl (swapped_injective hc hd same)
  · rintro (rfl | ⟨relative, rfl⟩ | ⟨relative, rfl⟩)
    · rfl
    · rw [tilded_of_isRelative relative, tilded_of_not_isRelative (rooted cs), swapped_cons,
        if_pos rfl]
    · rw [tilded_of_isRelative relative, tilded_of_not_isRelative (rooted ds), swapped_cons,
        if_pos rfl]

theorem tilded_eq_dots (cs : List Char) (n : Nat) :
    tilded cs = List.replicate n '.' ↔ cs = List.replicate n '.' := by
  have chars : swapped cs = List.replicate n '.' ↔ cs = List.replicate n '.' := by
    rw [List.eq_replicate_iff, List.eq_replicate_iff, swapped, List.length_map,
      List.forall_mem_map]
    refine and_congr_right fun _ => forall₂_congr fun c _ => ?_
    split_ifs with slash
    · simp [slash]
    · rfl
  by_cases relative : IsRelative cs
  · rw [tilded_of_isRelative relative]
    constructor
    · intro same
      have tilde : '~' ∈ List.replicate n '.' := same ▸ List.mem_cons_self
      simp at tilde
    · rintro rfl
      simpa using relative.1
  · rw [tilded_of_not_isRelative relative, chars]

theorem encodeInstance_eq_iff_tilded (a b : String) :
    encodeInstance a = encodeInstance b ↔ tilded a.toList = tilded b.toList := by
  constructor
  · intro same
    exact Percent.encode_injective (String.ofList_injective same)
  · intro same
    rw [encodeInstance, encodeInstance, same]

theorem tilded_separators (partition object : List Char) :
    tilded ('~' :: (partition ++ '~' :: object)) =
      '~' :: (swapped partition ++ '~' :: swapped object) := by
  have rooted : ¬IsRelative ('~' :: (partition ++ '~' :: object)) := fun relative =>
    relative.2.2 rfl
  rw [tilded_of_not_isRelative rooted, swapped_cons, if_neg (by decide), swapped_append,
    swapped_cons, if_neg (by decide)]

theorem tilded_slashes (partition object : List Char) :
    tilded ('/' :: (partition ++ '/' :: object)) =
      '~' :: (swapped partition ++ '~' :: swapped object) := by
  rw [tilded_slash, swapped_append, swapped_cons, if_pos rfl]

theorem tilded_relative {partition : List Char} (present : partition ≠ [])
    (slash : partition.head? ≠ some '/') (tilde : partition.head? ≠ some '~') (object : List Char) :
    tilded (partition ++ '/' :: object) = '~' :: (swapped partition ++ '~' :: swapped object) := by
  have relative : IsRelative (partition ++ '/' :: object) := by
    refine ⟨by simp, ?_, ?_⟩
    · rwa [List.head?_append_of_ne_nil _ present]
    · rwa [List.head?_append_of_ne_nil _ present]
  rw [tilded_of_isRelative relative, swapped_append, swapped_cons, if_pos rfl]

/-- The segment of a name is percent-encoded, free of the characters that divide a URL, and decodes
to the name with tildes as separators. Names without tildes share a segment only when one of them is
the other, or is relative and the other is it after a separator. All ways to write the separators
between a partition and an object make the same segment. -/
theorem encodeInstance_faithful :
    (∀ name : String,
      Percent.Encoded (encodeInstance name).toList ∧
      (∀ c ∈ ['/', '?', '#', ' '], c ∉ (encodeInstance name).toList) ∧
      Percent.decode? (encodeInstance name) = some (String.ofList
        ((if IsRelative name.toList then ['~'] else []) ++
          name.toList.map fun c => if c = '/' then '~' else c))) ∧
    (∀ a b : String, '~' ∉ a.toList → '~' ∉ b.toList →
      (encodeInstance a = encodeInstance b ↔
        a = b ∨ IsRelative a.toList ∧ b = "/" ++ a ∨ IsRelative b.toList ∧ a = "/" ++ b)) ∧
    ∀ partition object : String,
      encodeInstance ("/" ++ partition ++ "/" ++ object) =
        encodeInstance ("~" ++ partition ++ "~" ++ object) ∧
      (partition ≠ "" → partition.toList.head? ≠ some '/' → partition.toList.head? ≠ some '~' →
        encodeInstance (partition ++ "/" ++ object) =
          encodeInstance ("~" ++ partition ++ "~" ++ object)) := by
  refine ⟨fun name => ⟨?_, ?_, ?_⟩, fun a b ha hb => ?_, fun partition object => ⟨?_, ?_⟩⟩
  · rw [encodeInstance, String.toList_ofList]
    exact Percent.encoded_encode _
  · intro c dividing
    rw [encodeInstance, String.toList_ofList]
    exact (Percent.encoded_encode _).not_mem dividing
  · rw [encodeInstance, Percent.decode?_encode]
    split_ifs with relative
    · rw [tilded_of_isRelative relative]
      rfl
    · rw [tilded_of_not_isRelative relative]
      rfl
  · have after : ∀ s t : String, t.toList = '/' :: s.toList ↔ t = "/" ++ s := by
      intro s t
      rw [← String.toList_inj, String.toList_append]
      rfl
    rw [encodeInstance_eq_iff_tilded, tilded_eq_iff ha hb, String.toList_inj, after, after]
  · rw [encodeInstance_eq_iff_tilded]
    simp only [String.toList_append, List.append_assoc]
    exact (tilded_slashes _ _).trans (tilded_separators _ _).symm
  · intro present slash tilde
    have chars : partition.toList ≠ [] := by simpa using present
    rw [encodeInstance_eq_iff_tilded]
    simp only [String.toList_append, List.append_assoc]
    exact (tilded_relative chars slash tilde _).trans (tilded_separators _ _).symm

/-- A relative name shares its segment with the rooted one, and not with the name at its end. -/
theorem encodeInstance_faithful_web :
    encodeInstance "Common/my app" = encodeInstance "/Common/my app" ∧
    encodeInstance "Common/my app" ≠ encodeInstance "my app" ∧
    encodeInstance "Common/my app" = encodeInstance "~Common~my app" := by
  obtain ⟨-, iff, forms⟩ := encodeInstance_faithful
  refine ⟨?_, ?_, ?_⟩
  · exact (iff "Common/my app" "/Common/my app" (by decide) (by decide)).2
      (.inr (.inl ⟨by decide, by decide⟩))
  · intro same
    have related := (iff "Common/my app" "my app" (by decide) (by decide)).1 same
    exact absurd related (by decide)
  · exact (forms "Common" "my app").2 (by decide) (by decide) (by decide)

end IControl
