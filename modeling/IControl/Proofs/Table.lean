import IControl.Table
import Mathlib.Data.List.Basic
import Mathlib.Data.List.Nodup
import Mathlib.Data.List.Perm.Basic

/-!
# Tables and the bindings they come from

A table binds no name twice, so it is determined by what it binds each name to.
Bindings of distinct names may be gathered in any order: the table keeps all of
them and nothing else, and bindings that are in order already are the table.
-/

namespace IControl.Table

variable {α β : Type}

@[simp] theorem names_nil : names ([] : Table α) = [] := rfl

@[simp] theorem names_cons (b : String × α) (t : Table α) : names (b :: t) = b.1 :: names t := rfl

@[simp] theorem names_append (s t : Table α) : names (s ++ t) = names s ++ names t := by
  simp [names]

theorem mem_names {t : Table α} {name : String} : name ∈ t.names ↔ ∃ a, (name, a) ∈ t := by
  simp [names]

theorem value?_eq_none_iff {t : Table α} {name : String} :
    t.value? name = none ↔ name ∉ t.names := by
  induction t with
  | nil => simp
  | cons b t ih =>
    rw [value?_cons, names_cons, List.mem_cons]
    split_ifs with h <;> simp [h, ih]

theorem mem_of_value? {t : Table α} {name : String} {a : α} (h : t.value? name = some a) :
    (name, a) ∈ t := by
  induction t with
  | nil => simp at h
  | cons b t ih =>
    rw [value?_cons] at h
    split_ifs at h with same
    · obtain ⟨n, c⟩ := b
      simp_all
    · exact List.mem_cons_of_mem _ (ih h)

theorem value?_of_mem {t : Table α} (nodup : t.names.Nodup) {name : String} {a : α}
    (h : (name, a) ∈ t) : t.value? name = some a := by
  induction t with
  | nil => simp at h
  | cons b t ih =>
    rw [names_cons, List.nodup_cons] at nodup
    rw [value?_cons]
    rcases List.mem_cons.1 h with rfl | h
    · simp
    · rw [if_neg, ih nodup.2 h]
      rintro rfl
      exact nodup.1 (mem_names.2 ⟨a, h⟩)

theorem value?_append (s t : Table α) (name : String) :
    value? (s ++ t) name = (s.value? name).or (t.value? name) := by
  induction s with
  | nil => simp
  | cons b s ih =>
    rw [List.cons_append, value?_cons, value?_cons, ih]
    split_ifs <;> simp

theorem value?_map (f : α → β) (t : Table α) (name : String) :
    value? (t.map fun b => (b.1, f b.2)) name = (t.value? name).map f := by
  induction t with
  | nil => simp
  | cons b t ih =>
    rw [List.map_cons, value?_cons, value?_cons, ih]
    split_ifs <;> simp

/-- Bindings are looked up among those that are kept by their names. -/
theorem value?_filter (keep : String → Bool) (t : Table α) (name : String) :
    value? (t.filter fun b => keep b.1) name = if keep name then t.value? name else none := by
  induction t with
  | nil => simp
  | cons b t ih =>
    rw [List.filter_cons, value?_cons]
    by_cases same : name = b.1
    · subst same
      cases kept : keep b.1 with
      | true => simp [value?_cons]
      | false => simpa [kept] using ih
    · rw [if_neg same, ← ih]
      cases keep b.1 with
      | true => simp [value?_cons, same]
      | false => simp

@[simp] theorem names_map (f : α → β) (t : Table α) :
    names (t.map fun b => (b.1, f b.2)) = t.names := by
  simp [names]

theorem Ordered.nodup {t : Table α} (h : t.Ordered) : t.names.Nodup := by
  refine List.pairwise_map.2 (List.Pairwise.imp ?_ h)
  intro a b before same
  exact String.lt_irrefl _ (same ▸ before)

theorem Ordered.map {t : Table α} (h : t.Ordered) (f : α → β) :
    Ordered (t.map fun b => (b.1, f b.2)) :=
  List.pairwise_map.2 h

/-- A table is determined by its values. -/
theorem Ordered.ext {s t : Table α} (hs : s.Ordered) (ht : t.Ordered)
    (same : ∀ name, s.value? name = t.value? name) : s = t := by
  have bindings : ∀ b, b ∈ s ↔ b ∈ t := fun b =>
    ⟨fun h => mem_of_value? ((same b.1).symm.trans (value?_of_mem hs.nodup h)),
      fun h => mem_of_value? ((same b.1).trans (value?_of_mem ht.nodup h))⟩
  have perm : s.Perm t := (List.perm_ext_iff_of_nodup hs.nodup.of_map ht.nodup.of_map).2 bindings
  refine List.Perm.eq_of_pairwise (fun a b _ _ ab ba => ?_) hs ht perm
  exact absurd (String.lt_trans ab ba) (String.lt_irrefl _)

theorem value?_put (t : Table α) (name other : String) (a : α) :
    (t.put name a).value? other = if other = name then some a else t.value? other := by
  split_ifs with same
  · rw [same, value?_put_self]
  · rw [value?_put_ne t a same]

theorem map_put (f : α → β) (t : Table α) (name : String) (a : α) :
    (t.put name a).map (fun b => (b.1, f b.2)) =
      Table.put name (f a) (t.map fun b => (b.1, f b.2)) := by
  induction t with
  | nil => rfl
  | cons b t ih =>
    rw [put, List.map_cons, put]
    split_ifs
    · rfl
    · rfl
    · rw [List.map_cons, ih]

theorem map_without (f : α → β) (t : Table α) (name : String) :
    (t.without name).map (fun b => (b.1, f b.2)) =
      Table.without (t.map fun b => (b.1, f b.2)) name := by
  rw [without, without, List.filter_map]
  rfl

theorem value?_foldl_put {bindings : List (String × α)} (nodup : (names bindings).Nodup)
    (t : Table α) (name : String) :
    value? (bindings.foldl (fun t b => t.put b.1 b.2) t) name =
      (value? bindings name).or (t.value? name) := by
  induction bindings generalizing t with
  | nil => simp
  | cons b bindings ih =>
    rw [names_cons, List.nodup_cons] at nodup
    rw [List.foldl_cons, ih nodup.2, value?_cons]
    split_ifs with same
    · rw [same, value?_put_self, value?_eq_none_iff.2 nodup.1]
      simp
    · rw [value?_put_ne _ _ same]

theorem value?_ofBindings {bindings : List (String × α)} (nodup : (names bindings).Nodup)
    (name : String) : (ofBindings bindings).value? name = value? bindings name := by
  rw [ofBindings, value?_foldl_put nodup]
  simp

theorem mem_foldl_put {bindings : List (String × α)} {t : Table α} {b : String × α}
    (h : b ∈ bindings.foldl (fun t b => t.put b.1 b.2) t) : b ∈ t ∨ b ∈ bindings := by
  induction bindings generalizing t with
  | nil => exact .inl h
  | cons c bindings ih =>
    rcases ih h with h | h
    · rcases mem_put h with rfl | h
      · exact .inr List.mem_cons_self
      · exact .inl h
    · exact .inr (List.mem_cons_of_mem _ h)

theorem mem_ofBindings {bindings : List (String × α)} {b : String × α}
    (h : b ∈ ofBindings bindings) : b ∈ bindings :=
  (mem_foldl_put h).resolve_left List.not_mem_nil

theorem Ordered.ofBindings_eq {t : Table α} (h : t.Ordered) : ofBindings t = t :=
  (ordered_ofBindings t).ext h (value?_ofBindings h.nodup)

theorem perm_ofBindings {bindings : List (String × α)} (nodup : (names bindings).Nodup) :
    (ofBindings bindings).Perm bindings := by
  have ordered := ordered_ofBindings bindings
  refine (List.perm_ext_iff_of_nodup ordered.nodup.of_map nodup.of_map).2 fun b =>
    ⟨mem_ofBindings, fun h => ?_⟩
  exact mem_of_value? ((value?_ofBindings nodup b.1).trans (value?_of_mem nodup h))

theorem ofBindings_concat (bindings : List (String × α)) (b : String × α) :
    ofBindings (bindings ++ [b]) = (ofBindings bindings).put b.1 b.2 := by
  rw [ofBindings, List.foldl_append]
  rfl

/-- The table of distinct bindings does not depend on their order. -/
theorem ofBindings_perm {s t : List (String × α)} (nodup : (names s).Nodup) (h : s.Perm t) :
    ofBindings s = ofBindings t := by
  have other : (names t).Nodup := (h.map Prod.fst).nodup_iff.1 nodup
  refine (ordered_ofBindings s).ext (ordered_ofBindings t) fun name => ?_
  rw [value?_ofBindings nodup, value?_ofBindings other]
  cases bound : value? t name with
  | none =>
    rw [value?_eq_none_iff] at bound ⊢
    exact fun inside => bound ((h.map Prod.fst).mem_iff.1 inside)
  | some a => exact value?_of_mem nodup (h.mem_iff.2 (mem_of_value? bound))

end IControl.Table
