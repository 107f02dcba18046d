import IControl.Proofs.Builder
import IControl.Proofs.Text.Utf8

/-!
# Renderings of resource paths

A resource path has two renderings: its text, with the parts as they are, and the
path of a request that it is applied to, where the parts are trimmed and blank ones
are left out. Applying drops slashes and nothing else, so the applied path is always
a subsequence of the text. It is the whole text exactly when every part is a segment,
that is, not empty and without slashes at its ends: what one part loses, no other
part makes up for. Otherwise it is shorter, in characters and in bytes.
-/

namespace IControl

namespace Builder

theorem literal_sublist {part value : String} (kept : literal part = some value) :
    value.toList.Sublist part.toList := by
  obtain ⟨-, ⟨m, n, around⟩, -, -⟩ := literal_eq_some_iff.1 kept
  rw [around, List.append_assoc]
  have front := List.sublist_append_left value.toList (List.replicate n '/')
  exact front.trans (List.sublist_append_right _ _)

theorem literal_eq_self_iff {part : String} : literal part = some part ↔ IsSegment part := by
  rw [literal_eq_some_iff]
  constructor
  · intro ⟨present, core⟩
    exact ⟨present, core.first, core.last⟩
  · intro segment
    have whole : part.toList = List.replicate 0 '/' ++ part.toList ++ List.replicate 0 '/' := by simp
    exact ⟨segment.present, ⟨0, 0, whole⟩, segment.first, segment.last⟩

/-- The path of the literal parts is the path of all parts without some of its slashes. -/
theorem slashed_literal_sublist (parts : List String) :
    (slashed (parts.filterMap literal)).toList.Sublist (slashed parts).toList := by
  induction parts with
  | nil => exact List.Sublist.refl _
  | cons part parts ih =>
    rw [toList_slashed_cons]
    cases kept : literal part with
    | none =>
      rw [List.filterMap_cons_none kept]
      apply List.Sublist.cons
      exact ih.trans (List.sublist_append_right _ _)
    | some value =>
      rw [List.filterMap_cons_some kept, toList_slashed_cons]
      apply List.Sublist.cons_cons
      exact (literal_sublist kept).append ih

theorem others_slashed_literal (parts : List String) :
    (slashed (parts.filterMap literal)).toList.filter (· ≠ '/') =
      (slashed parts).toList.filter (· ≠ '/') := by
  have slashes : ∀ n, (List.replicate n '/').filter (· ≠ '/') = [] := by simp
  induction parts with
  | nil => rfl
  | cons part parts ih =>
    rw [toList_slashed_cons, List.filter_cons_of_neg (by simp), List.filter_append, ← ih]
    cases kept : literal part with
    | none =>
      have blank : part.toList.filter (· ≠ '/') = [] := by
        simpa using literal_eq_none_iff.1 kept
      rw [List.filterMap_cons_none kept, blank, List.nil_append]
    | some value =>
      obtain ⟨-, ⟨m, n, around⟩, -, -⟩ := literal_eq_some_iff.1 kept
      rw [List.filterMap_cons_some kept, toList_slashed_cons, List.filter_cons_of_neg (by simp),
        List.filter_append, around, List.filter_append, List.filter_append, slashes, slashes,
        List.nil_append, List.append_nil]

/-- No part makes up for the slashes that another one loses. -/
theorem slashed_literal_eq_iff {parts : List String} :
    slashed (parts.filterMap literal) = slashed parts ↔ ∀ part ∈ parts, IsSegment part := by
  induction parts with
  | nil => simp
  | cons part parts ih =>
    have others := slashed_literal_sublist parts
    rw [List.forall_mem_cons, ← ih, ← literal_eq_self_iff, ← String.toList_inj,
      toList_slashed_cons]
    cases kept : literal part with
    | none =>
      -- A blank part takes its own slash with it.
      rw [List.filterMap_cons_none kept]
      have lengths := others.length_le
      apply iff_of_false
      · intro same
        have whole := congrArg List.length same
        simp only [List.length_cons, List.length_append] at whole
        omega
      · simp
    | some value =>
      rw [List.filterMap_cons_some kept, toList_slashed_cons, List.cons.injEq, Option.some.injEq,
        ← String.toList_inj, ← String.toList_inj]
      constructor
      · -- Neither half is longer than before, so none is shorter when the whole is the same.
        intro ⟨_, same⟩
        have first := (literal_sublist kept).length_le
        have rest := others.length_le
        have whole := congrArg List.length same
        simp only [List.length_append] at whole
        exact List.append_inj same (by omega)
      · intro ⟨first, rest⟩
        rw [first, rest]
        exact ⟨rfl, rfl⟩

end Builder

namespace ResourcePath

/-- Every part of the path is a segment: it is not empty and has no slash at its ends. -/
structure IsWellFormed (p : ResourcePath) : Prop where
  manager : Builder.IsSegment p.manager
  resource : Builder.IsSegment p.resource
  subResource : ∀ part, p.subResource = some part → Builder.IsSegment part

theorem isWellFormed_iff_literal {p : ResourcePath} : p.IsWellFormed ↔ p.Literal := by
  constructor
  · intro ⟨manager, resource, sub⟩
    exact ⟨Builder.literal_eq_self_iff.2 manager, Builder.literal_eq_self_iff.2 resource,
      fun part present => Builder.literal_eq_self_iff.2 (sub part present)⟩
  · intro ⟨manager, resource, sub⟩
    exact ⟨Builder.literal_eq_self_iff.1 manager, Builder.literal_eq_self_iff.1 resource,
      fun part present => Builder.literal_eq_self_iff.1 (sub part present)⟩

theorem isWellFormed_iff_segments {p : ResourcePath} :
    p.IsWellFormed ↔ ∀ part ∈ p.segments, Builder.IsSegment part := by
  have root : Builder.IsSegment managementRoot := by constructor <;> decide
  have category : Builder.IsSegment trafficCategory := by constructor <;> decide
  constructor
  · intro ⟨manager, resource, sub⟩
    simpa [segments, root, category, manager, resource] using sub
  · intro each
    simp only [segments, List.cons_append, List.nil_append, List.forall_mem_cons,
      Option.mem_toList] at each
    exact ⟨each.2.2.1, each.2.2.2.1, each.2.2.2.2⟩

section
variable (p : ResourcePath) (method : Method)

theorem path_apply_sublist : (p.apply { method }).path.toList.Sublist p.text.toList := by
  rw [path_apply, text_eq]
  exact Builder.slashed_literal_sublist p.segments

theorem others_path_apply :
    (p.apply { method }).path.toList.filter (· ≠ '/') = p.text.toList.filter (· ≠ '/') := by
  rw [path_apply, text_eq]
  exact Builder.others_slashed_literal p.segments

theorem path_apply_eq_text_iff : (p.apply { method }).path = p.text ↔ p.IsWellFormed := by
  rw [path_apply, text_eq, isWellFormed_iff_segments]
  exact Builder.slashed_literal_eq_iff

end

section
variable {p : ResourcePath} (broken : ¬p.IsWellFormed) (method : Method)
include broken

theorem length_path_apply_lt : (p.apply { method }).path.length < p.text.length := by
  have part := p.path_apply_sublist method
  rw [← String.length_toList, ← String.length_toList]
  apply Nat.lt_of_le_of_ne part.length_le
  intro lengths
  apply broken
  rw [← path_apply_eq_text_iff p method, ← String.toList_inj]
  exact part.eq_of_length lengths

theorem length_encode_path_apply_lt :
    (Utf8.encode (p.apply { method }).path).length < (Utf8.encode p.text).length := by
  apply Utf8.length_encode_lt (p.path_apply_sublist method)
  rwa [Ne, path_apply_eq_text_iff]

end

end ResourcePath

namespace Resource

variable {r : Resource} {op : Operation r.shape} {q : Request}

theorem path_request (request : r.request op = .ok q) :
    q.path = (r.path.apply { method := op.method }).path ++ Builder.slashed op.segments := by
  obtain ⟨checked, -, -, path⟩ := request_eq_ok_iff.1 request
  rw [path]
  apply ResourcePath.path_operation
  exact Operation.checkName_eq_ok_iff.1 checked

/-- The path of a request begins with the text of the path of its resource when this is well formed,
and only then. -/
theorem path_request_eq_iff (request : r.request op = .ok q) :
    q.path = r.path.text ++ Builder.slashed op.segments ↔ r.path.IsWellFormed := by
  rw [path_request request, String.append_left_inj, ResourcePath.path_apply_eq_text_iff]

end Resource

end IControl
