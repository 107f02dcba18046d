import IControl.Json.Document
import IControl.Proofs.Table
import Mathlib.Algebra.Group.Int.Defs
import Mathlib.Algebra.Group.Nat.Defs

/-!
# Properties of JSON trees

What later statements say about values: a property that holds of every part, how
deep arrays and objects nest, and the value with the members of every object in
the order of their names. That last form is what a value becomes when it is taken
over from a text: a text that nests at most so many levels as there is room for
is taken over, and nothing but the order of members changes.
-/

namespace IControl

/-- The integers that a document keeps as they are. -/
def Number.InRange : Number → Prop
  | .integer i => -2 ^ 63 ≤ i ∧ i < 2 ^ 64
  | .double _ => False

namespace Json

/-- Induction over a tree, with the hypothesis for all items and all members at once. -/
theorem tree_induction {motive : Json → Prop} (null : motive .null)
    (bool : ∀ b, motive (.bool b)) (number : ∀ n, motive (.number n))
    (string : ∀ s, motive (.string s))
    (array : ∀ xs, (∀ x ∈ xs, motive x) → motive (.array xs))
    (object : ∀ ms, (∀ m ∈ ms, motive m.2) → motive (.object ms)) (j : Json) : motive j :=
  @Json.rec motive (fun xs => ∀ x ∈ xs, motive x) (fun ms => ∀ m ∈ ms, motive m.2)
    (fun m => motive m.2) null bool number string array object
    (fun _ h => absurd h List.not_mem_nil)
    (fun _ _ first others => List.forall_mem_cons.2 ⟨first, others⟩)
    (fun _ h => absurd h List.not_mem_nil)
    (fun _ _ first others => List.forall_mem_cons.2 ⟨first, others⟩)
    (fun _ _ h => h) j

/-! ### Members -/

theorem member?_object (ms : List (String × Json)) (name : String) :
    (Json.object ms).member? name = Table.value? ms name := rfl

theorem eq_object_of_member? {j x : Json} {name : String} (h : j.member? name = some x) :
    ∃ ms, j = .object ms := by
  cases j with
  | object ms => exact ⟨ms, rfl⟩
  | _ => exact nomatch h

theorem textMember?_congr {i j : Json} {name : String} (h : i.member? name = j.member? name) :
    i.textMember? name = j.textMember? name := by
  rw [textMember?, textMember?, h]

theorem natural_inj {m n : Nat} : Json.natural m = Json.natural n ↔ m = n := by
  simp only [Json.natural, Json.number.injEq, Number.integer.injEq, Int.ofNat_inj]

/-! ### Parts -/

mutual

/-- The property holds of every part of a value, and of the value itself. -/
def Everywhere (p : Json → Prop) : Json → Prop
  | .array items => p (.array items) ∧ EveryItem p items
  | .object members => p (.object members) ∧ EveryMember p members
  | .null => p .null
  | .bool b => p (.bool b)
  | .number n => p (.number n)
  | .string s => p (.string s)

def EveryItem (p : Json → Prop) : List Json → Prop
  | [] => True
  | x :: xs => Everywhere p x ∧ EveryItem p xs

def EveryMember (p : Json → Prop) : List (String × Json) → Prop
  | [] => True
  | (_, x) :: ms => Everywhere p x ∧ EveryMember p ms

end

section
variable {p q : Json → Prop}

theorem everyItem_iff (xs : List Json) : EveryItem p xs ↔ ∀ x ∈ xs, Everywhere p x := by
  induction xs with
  | nil => simp [EveryItem]
  | cons x xs ih => simp [EveryItem, ih]

theorem everyMember_iff (ms : List (String × Json)) :
    EveryMember p ms ↔ ∀ m ∈ ms, Everywhere p m.2 := by
  induction ms with
  | nil => simp [EveryMember]
  | cons m ms ih => simp [EveryMember, ih]

@[simp] theorem everywhere_array (xs : List Json) :
    Everywhere p (.array xs) ↔ p (.array xs) ∧ ∀ x ∈ xs, Everywhere p x := by
  rw [Everywhere, everyItem_iff]

@[simp] theorem everywhere_object (ms : List (String × Json)) :
    Everywhere p (.object ms) ↔ p (.object ms) ∧ ∀ m ∈ ms, Everywhere p m.2 := by
  rw [Everywhere, everyMember_iff]

theorem Everywhere.imp (h : ∀ j, p j → q j) {j : Json} (hj : j.Everywhere p) : j.Everywhere q := by
  induction j using tree_induction with
  | array xs ih =>
    rw [everywhere_array] at hj ⊢
    exact ⟨h _ hj.1, fun x hx => ih x hx (hj.2 x hx)⟩
  | object ms ih =>
    rw [everywhere_object] at hj ⊢
    exact ⟨h _ hj.1, fun m hm => ih m hm (hj.2 m hm)⟩
  | _ => exact h _ hj

end

/-- All numbers have the property. -/
def Numbers (p : Number → Prop) : Json → Prop :=
  Everywhere fun
    | .number n => p n
    | _ => True

/-- All numbers are integers of the range in which documents keep integers. -/
def Integral : Json → Prop := Numbers Number.InRange

/-- All objects are tables. -/
def Ordered : Json → Prop :=
  Everywhere fun
    | .object ms => Table.Ordered ms
    | _ => True

/-- No object has two members of one name. -/
def Distinct : Json → Prop :=
  Everywhere fun
    | .object ms => (Table.names ms).Nodup
    | _ => True

@[simp] theorem numbers_array {p : Number → Prop} (xs : List Json) :
    Numbers p (.array xs) ↔ ∀ x ∈ xs, Numbers p x := by
  simp [Numbers]

@[simp] theorem numbers_object {p : Number → Prop} (ms : List (String × Json)) :
    Numbers p (.object ms) ↔ ∀ m ∈ ms, Numbers p m.2 := by
  simp [Numbers]

theorem Numbers.imp {p q : Number → Prop} (h : ∀ n, p n → q n) {j : Json} (hj : j.Numbers p) :
    j.Numbers q :=
  Everywhere.imp (fun j hj => by
    cases j with
    | number n => exact h n hj
    | _ => trivial) hj

@[simp] theorem ordered_array (xs : List Json) : Ordered (.array xs) ↔ ∀ x ∈ xs, Ordered x := by
  simp [Ordered]

@[simp] theorem ordered_object (ms : List (String × Json)) :
    Ordered (.object ms) ↔ Table.Ordered ms ∧ ∀ m ∈ ms, Ordered m.2 := by
  simp [Ordered]

@[simp] theorem distinct_array (xs : List Json) : Distinct (.array xs) ↔ ∀ x ∈ xs, Distinct x := by
  simp [Distinct]

@[simp] theorem distinct_object (ms : List (String × Json)) :
    Distinct (.object ms) ↔ (Table.names ms).Nodup ∧ ∀ m ∈ ms, Distinct m.2 := by
  simp [Distinct]

theorem Ordered.distinct {j : Json} (h : j.Ordered) : j.Distinct :=
  Everywhere.imp (fun j hj => by
    cases j with
    | object ms => exact Table.Ordered.nodup hj
    | _ => trivial) h

/-! ### Depth -/

mutual

/-- The number of levels that arrays and objects nest. -/
def depth : Json → Nat
  | .array items => itemsDepth items + 1
  | .object members => membersDepth members + 1
  | _ => 0

def itemsDepth : List Json → Nat
  | [] => 0
  | x :: xs => max (depth x) (itemsDepth xs)

def membersDepth : List (String × Json) → Nat
  | [] => 0
  | (_, x) :: ms => max (depth x) (membersDepth ms)

end

theorem itemsDepth_le_iff {n : Nat} (xs : List Json) :
    itemsDepth xs ≤ n ↔ ∀ x ∈ xs, x.depth ≤ n := by
  induction xs with
  | nil => simp [itemsDepth]
  | cons x xs ih => rw [itemsDepth, Nat.max_le, ih, List.forall_mem_cons]

theorem membersDepth_le_iff {n : Nat} (ms : List (String × Json)) :
    membersDepth ms ≤ n ↔ ∀ m ∈ ms, m.2.depth ≤ n := by
  induction ms with
  | nil => simp [membersDepth]
  | cons m ms ih => rw [membersDepth, Nat.max_le, ih, List.forall_mem_cons]

@[simp] theorem depth_array_le {n : Nat} (xs : List Json) :
    (array xs).depth ≤ n + 1 ↔ ∀ x ∈ xs, x.depth ≤ n := by
  rw [depth, Nat.add_le_add_iff_right, itemsDepth_le_iff]

@[simp] theorem depth_object_le {n : Nat} (ms : List (String × Json)) :
    (object ms).depth ≤ n + 1 ↔ ∀ m ∈ ms, m.2.depth ≤ n := by
  rw [depth, Nat.add_le_add_iff_right, membersDepth_le_iff]

/-- What has room for an array has one level less for its items. -/
theorem exists_of_depth_array_le {xs : List Json} {room : Nat} (h : (array xs).depth ≤ room) :
    ∃ r, room = r + 1 ∧ ∀ x ∈ xs, x.depth ≤ r := by
  cases room with
  | zero => exact absurd h (by simp [depth])
  | succ r => exact ⟨r, rfl, (depth_array_le xs).1 h⟩

theorem exists_of_depth_object_le {ms : List (String × Json)} {room : Nat}
    (h : (object ms).depth ≤ room) : ∃ r, room = r + 1 ∧ ∀ m ∈ ms, m.2.depth ≤ r := by
  cases room with
  | zero => exact absurd h (by simp [depth])
  | succ r => exact ⟨r, rfl, (depth_object_le ms).1 h⟩

/-! ### Order -/

mutual

/-- The value with the members of every object in the order of their names. -/
def sorted : Json → Json
  | .array items => .array (sortedItems items)
  | .object members => .ofMembers (sortedMembers members)
  | .null => .null
  | .bool b => .bool b
  | .number n => .number n
  | .string s => .string s

def sortedItems : List Json → List Json
  | [] => []
  | x :: xs => sorted x :: sortedItems xs

def sortedMembers : List (String × Json) → List (String × Json)
  | [] => []
  | (k, x) :: ms => (k, sorted x) :: sortedMembers ms

end

@[simp] theorem sorted_array (xs : List Json) : sorted (.array xs) = .array (xs.map sorted) := by
  have items : ∀ xs, sortedItems xs = xs.map sorted := fun xs => by
    induction xs with
    | nil => rfl
    | cons x xs ih => rw [sortedItems, ih, List.map_cons]
  rw [sorted, items]

@[simp] theorem sorted_object (ms : List (String × Json)) :
    sorted (.object ms) = .ofMembers (ms.map fun m => (m.1, m.2.sorted)) := by
  have members : ∀ ms, sortedMembers ms = ms.map fun m => (m.1, m.2.sorted) := fun ms => by
    induction ms with
    | nil => rfl
    | cons m ms ih => rw [sortedMembers, ih, List.map_cons]
  rw [sorted, members]

theorem mem_sorted_members {ms : List (String × Json)} {m : String × Json}
    (h : m ∈ Table.ofBindings (ms.map fun m => (m.1, m.2.sorted))) :
    ∃ x, (m.1, x) ∈ ms ∧ m.2 = x.sorted := by
  obtain ⟨⟨k, x⟩, hx, rfl⟩ := List.mem_map.1 (Table.mem_ofBindings h)
  exact ⟨x, hx, rfl⟩

theorem ordered_sorted (j : Json) : j.sorted.Ordered := by
  induction j using tree_induction with
  | array xs ih => simpa using ih
  | object ms ih =>
    rw [sorted_object, ofMembers, ordered_object]
    refine ⟨Table.ordered_ofBindings _, fun m hm => ?_⟩
    obtain ⟨x, hx, eq⟩ := mem_sorted_members hm
    exact eq ▸ ih _ hx
  | _ => trivial

theorem Numbers.sorted {p : Number → Prop} {j : Json} (h : j.Numbers p) : j.sorted.Numbers p := by
  induction j using tree_induction with
  | array xs ih =>
    rw [numbers_array] at h
    simpa using fun x hx => ih x hx (h x hx)
  | object ms ih =>
    rw [numbers_object] at h
    rw [sorted_object, ofMembers, numbers_object]
    intro m hm
    obtain ⟨x, hx, eq⟩ := mem_sorted_members hm
    exact eq ▸ ih _ hx (h _ hx)
  | _ => exact h

theorem depth_sorted_le {j : Json} {n : Nat} (h : j.depth ≤ n) : j.sorted.depth ≤ n := by
  induction j using tree_induction generalizing n with
  | array xs ih =>
    cases n with
    | zero => simp [depth] at h
    | succ n =>
      rw [depth_array_le] at h
      simpa using fun x hx => ih x hx (h x hx)
  | object ms ih =>
    cases n with
    | zero => simp [depth] at h
    | succ n =>
      rw [depth_object_le] at h
      rw [sorted_object, ofMembers, depth_object_le]
      intro m hm
      obtain ⟨x, hx, eq⟩ := mem_sorted_members hm
      exact eq ▸ ih _ hx (h _ hx)
  | _ => exact h

theorem Ordered.sorted_eq {j : Json} (h : j.Ordered) : j.sorted = j := by
  induction j using tree_induction with
  | array xs ih =>
    rw [ordered_array] at h
    rw [sorted_array, List.map_congr_left fun x hx => ih x hx (h x hx), List.map_id']
  | object ms ih =>
    rw [ordered_object] at h
    rw [sorted_object, List.map_congr_left fun m hm => by rw [ih m hm (h.2 m hm)], List.map_id',
      ofMembers, h.1.ofBindings_eq]
  | _ => rfl

theorem eq_null_of_sorted {j : Json} (h : j.sorted = .null) : j = .null := by
  cases j with
  | null => rfl
  | array xs => exact nomatch (sorted_array xs).symm.trans h
  | object ms => exact nomatch (sorted_object ms).symm.trans h
  | _ => exact nomatch h

theorem eq_string_of_sorted {j : Json} {t : String} (h : j.sorted = .string t) :
    j = .string t := by
  cases j with
  | string u => exact h
  | array xs => exact nomatch (sorted_array xs).symm.trans h
  | object ms => exact nomatch (sorted_object ms).symm.trans h
  | _ => exact nomatch h

/-! ### Members in order -/

/-- Members with their values in order. -/
def sortedValues (ms : List (String × Json)) : List (String × Json) :=
  ms.map fun m => (m.1, m.2.sorted)

theorem names_sortedValues (ms : List (String × Json)) :
    Table.names (sortedValues ms) = Table.names ms :=
  Table.names_map sorted ms

theorem value?_sortedValues (ms : List (String × Json)) (name : String) :
    Table.value? (sortedValues ms) name = (Table.value? ms name).map sorted :=
  Table.value?_map sorted ms name

theorem sortedValues_sortedValues (ms : List (String × Json)) :
    sortedValues (sortedValues ms) = sortedValues ms := by
  rw [sortedValues, sortedValues, List.map_map]
  refine List.map_congr_left fun m _ => ?_
  rw [Function.comp_apply, (ordered_sorted m.2).sorted_eq]

theorem sortedValues_append (ms ns : List (String × Json)) :
    sortedValues (ms ++ ns) = sortedValues ms ++ sortedValues ns :=
  List.map_append

theorem sortedValues_of_ordered {ms : List (String × Json)} (h : ∀ m ∈ ms, m.2.Ordered) :
    sortedValues ms = ms := by
  have same : ∀ m ∈ ms, (m.1, m.2.sorted) = id m := fun m hm => by rw [(h m hm).sorted_eq]; rfl
  rw [sortedValues, List.map_congr_left same, List.map_id]

/-- Objects of the same values under the same names differ in the order of members only. -/
theorem sorted_object_congr {ms ns : List (String × Json)} (msNodup : (Table.names ms).Nodup)
    (nsNodup : (Table.names ns).Nodup)
    (same : ∀ name, (Table.value? ms name).map sorted = (Table.value? ns name).map sorted) :
    (Json.object ms).sorted = (Json.object ns).sorted := by
  rw [sorted_object, sorted_object]
  refine congrArg Json.object ?_
  refine (Table.ordered_ofBindings _).ext (Table.ordered_ofBindings _) fun name => ?_
  rw [Table.value?_ofBindings (names_sortedValues ms ▸ msNodup),
    Table.value?_ofBindings (names_sortedValues ns ▸ nsNodup), Table.value?_map, Table.value?_map]
  exact same name

theorem sortedValues_of_perm {ms ns : List (String × Json)} (h : ms.Perm ns) :
    (sortedValues ms).Perm (sortedValues ns) :=
  h.map _

theorem sortedValues_filter (keep : String → Bool) (ms : List (String × Json)) :
    (sortedValues ms).filter (fun m => keep m.1) = sortedValues (ms.filter fun m => keep m.1) := by
  rw [sortedValues, sortedValues, List.filter_map]
  rfl

theorem depth_sortedValues {n : Nat} {ms : List (String × Json)} (h : ∀ m ∈ ms, m.2.depth ≤ n) :
    ∀ m ∈ Table.ofBindings (sortedValues ms), m.2.depth ≤ n := by
  intro m hm
  obtain ⟨x, hx, eq⟩ := mem_sorted_members hm
  exact eq ▸ depth_sorted_le (h _ hx)

theorem sortedValues_perm {ms : List (String × Json)} (nodup : (Table.names ms).Nodup) :
    (Table.ofBindings (sortedValues ms)).Perm (sortedValues ms) :=
  Table.perm_ofBindings (names_sortedValues ms ▸ nodup)

end Json

end IControl
