import IControl.Device.Key
import IControl.Name
import IControl.Proofs.Text.Percent
import IControl.Proofs.Text.Trim

/-!
# Segments of names

The segment of a name holds no slash, so it is the last segment of the path that
it ends, and it is empty only for the empty name. The segment of a full path is
longer than the segment of the name at its end, so it is never the same. Cutting
off the last segment of a path undoes adding one, and the other way round.
-/

namespace IControl

/-- The characters of a name with tildes as separators. -/
def swapped (name : List Char) : List Char := name.map fun c => if c = '/' then '~' else c

theorem tilded_eq (name : List Char) :
    tilded name = swapped name ∨ tilded name = '~' :: swapped name := by
  cases name with
  | nil => exact .inl rfl
  | cons c cs =>
    rw [tilded]
    split_ifs
    · exact .inr rfl
    · exact .inl rfl

theorem tilded_slash (name : List Char) : tilded ('/' :: name) = '~' :: swapped name := by
  simp [tilded, swapped]

theorem toList_fullPath (partition name : String) : (fullPath partition name).toList =
    '/' :: (Text.trim Text.isSlash partition.toList ++ '/' :: name.toList) := by
  simp [fullPath]

theorem slash_not_mem_encodeInstance (name : String) : '/' ∉ (encodeInstance name).toList := by
  rw [encodeInstance, String.toList_ofList]
  exact Percent.slash_not_mem_encode _

theorem encodeInstance_fullPath_ne (partition name : String) :
    encodeInstance (fullPath partition name) ≠ encodeInstance name := by
  intro same
  have chars := congrArg String.toList same
  rw [encodeInstance, encodeInstance, String.toList_ofList, String.toList_ofList, toList_fullPath,
    tilded_slash] at chars
  have lengths := congrArg List.length chars
  have whole : (Percent.encode ('~' :: swapped (Text.trim Text.isSlash partition.toList ++
      '/' :: name.toList))).length ≥ (Percent.encode (swapped name.toList)).length + 2 := by
    have split : swapped (Text.trim Text.isSlash partition.toList ++ '/' :: name.toList) =
        swapped (Text.trim Text.isSlash partition.toList) ++ '~' :: swapped name.toList := by
      simp [swapped]
    rw [split, Percent.encode_tilde_cons, Percent.encode_append, Percent.encode_tilde_cons]
    simp only [List.length_cons, List.length_append]
    omega
  have short : (Percent.encode (tilded name.toList)).length ≤
      (Percent.encode (swapped name.toList)).length + 1 := by
    rcases tilded_eq name.toList with same | same
    · exact Nat.le_succ_of_le (Nat.le_of_eq (by rw [same]))
    · exact Nat.le_of_eq (by rw [same, Percent.encode_tilde_cons, List.length_cons])
  omega

theorem encodeInstance_ne_empty {name : String} (h : name ≠ "") : encodeInstance name ≠ "" := by
  intro none
  have chars : Percent.encode (tilded name.toList) = [] := String.ofList_eq_empty_iff.1 none
  have tildes := Percent.encode_eq_nil chars
  rcases tilded_eq name.toList with same | same
  · rw [same, swapped, List.map_eq_nil_iff] at tildes
    exact h (String.toList_eq_nil_iff.1 tildes)
  · exact nomatch same.symm.trans tildes

theorem encodeInstance_ne_nil {name : String} (h : addressesInstance name = true) :
    (encodeInstance name).toList ≠ [] := by
  have present : name ≠ "" := by
    rintro rfl
    exact absurd h (by decide)
  exact mt String.toList_eq_nil_iff.1 (encodeInstance_ne_empty present)

theorem splitInstance?_append {parent segment : String} (hp : parent.toList ≠ [])
    (hs : segment.toList ≠ []) (slash : '/' ∉ segment.toList) :
    splitInstance? (parent ++ "/" ++ segment) = some (parent, segment) := by
  have chars : (parent ++ "/" ++ segment).toList = parent.toList ++ '/' :: segment.toList := by simp
  rw [splitInstance?, chars, Text.cutAtLast?_eq_some_iff.2 ⟨rfl, slash⟩]
  cases before : parent.toList with
  | nil => exact absurd before hp
  | cons p ps =>
    cases after : segment.toList with
    | nil => exact absurd after hs
    | cons c cs => simp only [← before, ← after, String.ofList_toList]

theorem eq_of_splitInstance? {path parent segment : String}
    (h : splitInstance? path = some (parent, segment)) :
    path = parent ++ "/" ++ segment ∧ '/' ∉ segment.toList := by
  unfold splitInstance? at h
  split at h
  · rename_i p before c after cut
    obtain ⟨whole, slash⟩ := Text.cutAtLast?_eq_some_iff.1 cut
    obtain ⟨rfl, rfl⟩ := Prod.mk.inj (Option.some.inj h)
    refine ⟨String.toList_inj.1 ?_, by rwa [String.toList_ofList]⟩
    simp [whole]
  · exact nomatch h

end IControl
