import IControl.Text.Trim
import Mathlib.Data.List.Basic
import Mathlib.Data.List.TakeDrop
import Mathlib.Tactic.SplitIfs

/-!
# Trimmed texts and their pieces

Trimming takes away unwanted characters at the ends and stops at the first one
that stays. Text that is added behind such a character is trimmed on its own. A
text is cut at the first character that fails a test, so a text without
separators is the first piece of whatever follows it, and cutting at the last
separator undoes putting one between two texts.
-/

namespace IControl.Text

section
variable {p : Char → Bool}

theorem trim_of_forall {cs : List Char} (h : ∀ c ∈ cs, p c = false) :
    trim p cs = cs := by
  have whole : ∀ ds : List Char, (∀ c ∈ ds, p c = false) → ds.dropWhile p = ds := by
    intro ds none
    cases ds with
    | nil => rfl
    | cons d ds => rw [List.dropWhile_cons_of_neg (Bool.eq_false_iff.1 (none d List.mem_cons_self))]
  rw [trim, trimStart, trimEnd, whole cs h,
    whole cs.reverse fun c inside => h c (List.mem_reverse.1 inside), List.reverse_reverse]

theorem trimStart_append {xs : List Char} (present : trimStart p xs ≠ []) (ys : List Char) :
    trimStart p (xs ++ ys) = trimStart p xs ++ ys := by
  have begins : ¬(xs.dropWhile p).isEmpty = true := mt List.isEmpty_iff.1 present
  rw [trimStart, List.dropWhile_append, if_neg begins, trimStart]

theorem trimEnd_append_blanks (cs : List Char) :
    ∃ blanks, cs = trimEnd p cs ++ blanks ∧ ∀ c ∈ blanks, p c = true := by
  refine ⟨(cs.reverse.takeWhile p).reverse, ?_, fun c inside => ?_⟩
  · rw [trimEnd, ← List.reverse_append, List.takeWhile_append_dropWhile, List.reverse_reverse]
  · exact List.all_eq_true.1 List.all_takeWhile c (List.mem_reverse.1 inside)

theorem trimEnd_append_cons {c : Char} (stays : p c = false) (xs ys : List Char) :
    trimEnd p (xs ++ c :: ys) = xs ++ c :: trimEnd p ys := by
  rw [trimEnd, trimEnd, List.reverse_append, List.reverse_cons, List.append_assoc,
    List.dropWhile_append, List.singleton_append]
  split_ifs with empty
  · rw [List.dropWhile_cons_of_neg (Bool.eq_false_iff.1 stays), List.isEmpty_iff.1 empty]
    simp
  · simp

end

/-! ### Slashes -/

/-- What is left of a text without the slashes at its ends. -/
structure IsCore (cs core : List Char) : Prop where
  around : ∃ m n, cs = List.replicate m '/' ++ core ++ List.replicate n '/'
  first : core.head? ≠ some '/'
  last : core.getLast? ≠ some '/'

theorem trimStart_replicate_append (n : Nat) (cs : List Char) :
    trimStart isSlash (List.replicate n '/' ++ cs) = trimStart isSlash cs := by
  refine List.dropWhile_append_of_pos fun c inside => ?_
  rw [List.eq_of_mem_replicate inside]
  rfl

theorem trimStart_of_head?_ne {cs : List Char} (h : cs.head? ≠ some '/') :
    trimStart isSlash cs = cs := by
  cases cs with
  | nil => rfl
  | cons c cs =>
    have other : c ≠ '/' := by simpa using h
    exact List.dropWhile_cons_of_neg (by simpa [isSlash] using other)

theorem eq_replicate_append_trimStart (cs : List Char) :
    (∃ n, cs = List.replicate n '/' ++ trimStart isSlash cs) ∧
      (trimStart isSlash cs).head? ≠ some '/' := by
  induction cs with
  | nil => exact ⟨⟨0, rfl⟩, nofun⟩
  | cons c cs ih =>
    by_cases slash : c = '/'
    · obtain ⟨⟨n, around⟩, first⟩ := ih
      have dropped : trimStart isSlash (c :: cs) = trimStart isSlash cs :=
        List.dropWhile_cons_of_pos (by simp [isSlash, slash])
      rw [dropped]
      exact ⟨⟨n + 1, by rw [List.replicate_succ, List.cons_append, ← around, slash]⟩, first⟩
    · have other : (c :: cs).head? ≠ some '/' := by simpa using slash
      rw [trimStart_of_head?_ne other]
      exact ⟨⟨0, rfl⟩, other⟩

theorem eq_trimEnd_append_replicate (cs : List Char) :
    (∃ n, cs = trimEnd isSlash cs ++ List.replicate n '/') ∧
      (trimEnd isSlash cs).getLast? ≠ some '/' := by
  obtain ⟨⟨n, around⟩, first⟩ := eq_replicate_append_trimStart cs.reverse
  have reversed : (trimEnd isSlash cs).reverse = trimStart isSlash cs.reverse := by
    rw [trimEnd, List.reverse_reverse, trimStart]
  rw [← reversed] at around first
  refine ⟨⟨n, ?_⟩, by rwa [List.head?_reverse] at first⟩
  rw [← List.reverse_inj, List.reverse_append, List.reverse_replicate]
  exact around

theorem trim_isSlash_eq_iff {cs core : List Char} : trim isSlash cs = core ↔ IsCore cs core := by
  constructor
  · rintro rfl
    obtain ⟨⟨m, before⟩, first⟩ := eq_replicate_append_trimStart cs
    obtain ⟨⟨n, ending⟩, last⟩ := eq_trimEnd_append_replicate (trimStart isSlash cs)
    rw [← trim] at ending last
    refine ⟨⟨m, n, ?_⟩, ?_, last⟩
    · rw [List.append_assoc, ← ending]
      exact before
    · intro slash
      rw [ending, List.head?_append, slash] at first
      exact first rfl
  · rintro ⟨⟨m, n, rfl⟩, first, last⟩
    have ending : trimEnd isSlash (core ++ List.replicate n '/') = core := by
      have kept : core.reverse.head? ≠ some '/' := by rwa [List.head?_reverse]
      have dropped := (trimStart_replicate_append n core.reverse).trans (trimStart_of_head?_ne kept)
      rw [trimStart] at dropped
      rw [trimEnd, List.reverse_append, List.reverse_replicate, dropped, List.reverse_reverse]
    rw [trim, List.append_assoc, trimStart_replicate_append]
    cases core with
    | nil =>
      have none := trimStart_replicate_append n []
      rw [List.append_nil] at none
      rw [List.nil_append, none]
      rfl
    | cons c core => rw [trimStart_of_head?_ne (by simpa using first), ending]

/-! ### Cuts -/

/-- A text is cut behind the longest beginning whose characters all pass a test. -/
theorem span_eq_iff {p : Char → Bool} {cs xs ys : List Char} : cs.span p = (xs, ys) ↔
    cs = xs ++ ys ∧ (∀ c ∈ xs, p c = true) ∧ ∀ c ∈ ys.head?, p c = false := by
  rw [List.span_eq_takeWhile_dropWhile, Prod.mk.injEq]
  constructor
  · rintro ⟨rfl, rfl⟩
    refine ⟨List.takeWhile_append_dropWhile.symm, fun c inside => ?_, fun c first => ?_⟩
    · exact List.all_eq_true.1 List.all_takeWhile c inside
    · have ends := List.head?_dropWhile_not p cs
      rw [Option.mem_def.1 first] at ends
      simpa using ends
  · rintro ⟨rfl, inside, ends⟩
    rw [List.takeWhile_append_of_pos inside, List.dropWhile_append_of_pos inside]
    cases ys with
    | nil => simp
    | cons c ys =>
      have stop := ends c rfl
      simp [stop]

section
variable {sep : Char}

theorem splitAt_append {cs rest : List Char} {pieces : List (List Char)} (h : sep ∉ cs)
    (first : splitAt sep rest = [] :: pieces) : splitAt sep (cs ++ rest) = cs :: pieces := by
  induction cs with
  | nil => exact first
  | cons c cs ih =>
    have other : c ≠ sep := fun same => h (same ▸ List.mem_cons_self)
    have tail := ih fun inside => h (List.mem_cons_of_mem _ inside)
    rw [List.cons_append, splitAt, if_neg other, tail]

theorem cutAtLast?_eq_some_iff {cs before after : List Char} :
    cutAtLast? sep cs = some (before, after) ↔ cs = before ++ sep :: after ∧ sep ∉ after := by
  constructor
  · intro h
    unfold cutAtLast? at h
    split at h
    · exact nomatch h
    · rename_i after' x before' cut
      obtain ⟨whole, others, first⟩ := span_eq_iff.1 cut
      obtain rfl : x = sep := by simpa using first x rfl
      obtain ⟨rfl, rfl⟩ := Prod.mk.inj (Option.some.inj h)
      refine ⟨?_, fun inside => ?_⟩
      · rw [← List.reverse_inj, whole]
        simp
      · simpa using others x (List.mem_reverse.1 inside)
  · rintro ⟨rfl, free⟩
    have cut : (before ++ sep :: after).reverse.span (fun c => decide (c ≠ sep)) =
        (after.reverse, sep :: before.reverse) := by
      refine span_eq_iff.2 ⟨by simp, fun c inside => decide_eq_true ?_, by simp⟩
      rintro rfl
      exact free (List.mem_reverse.1 inside)
    simp only [cutAtLast?, cut, List.reverse_reverse]

end

end IControl.Text
