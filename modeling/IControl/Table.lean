/-!
# Tables

A finite map from names, kept as the list of its bindings. `put` inserts at the
place where the names stay in ascending order, so a table that grows from the
empty one by `put` is ordered and binds no name twice, and its bindings can be
listed without sorting. The order of names is that of their code points, which
is also the order of their UTF-8 bytes.
-/

namespace IControl

abbrev Table (α : Type) := List (String × α)

namespace Table

variable {α : Type}

def value? (t : Table α) (name : String) : Option α := t.lookup name

def has (t : Table α) (name : String) : Bool := (t.value? name).isSome

def names (t : Table α) : List String := t.map Prod.fst

/-- Binds `name` to `a`, in place of what it was bound to before. -/
def put (name : String) (a : α) : Table α → Table α
  | [] => [(name, a)]
  | (n, b) :: rest =>
    if name < n then (name, a) :: (n, b) :: rest
    else if name = n then (name, a) :: rest
    else (n, b) :: put name a rest

/-- The binding of `name` taken out. -/
def without (t : Table α) (name : String) : Table α := t.filter fun b => b.1 ≠ name

/-- The table of the given bindings; the last one of a name counts. -/
def ofBindings (bindings : List (String × α)) : Table α :=
  bindings.foldl (fun t b => t.put b.1 b.2) []

/-- The names stand in ascending order, none of them twice. -/
def Ordered (t : Table α) : Prop := t.Pairwise fun a b => a.1 < b.1

@[simp] theorem value?_nil (name : String) : value? ([] : Table α) name = none := rfl

theorem value?_cons (b : String × α) (t : Table α) (name : String) :
    value? (b :: t) name = if name = b.1 then some b.2 else value? t name := by
  rcases b with ⟨n, a⟩
  by_cases h : name = n
  · simp [value?, h]
  · simp [value?, List.lookup_cons, beq_eq_false_iff_ne.2 h, h]

@[simp] theorem value?_put_self (t : Table α) (name : String) (a : α) :
    (t.put name a).value? name = some a := by
  induction t with
  | nil => simp [put, value?_cons]
  | cons b t ih =>
    simp only [put]
    split
    · simp [value?_cons]
    · split
      · simp [value?_cons]
      · rename_i h
        simp [value?_cons, h, ih]

theorem value?_put_ne (t : Table α) {name other : String} (a : α) (h : other ≠ name) :
    (t.put name a).value? other = t.value? other := by
  induction t with
  | nil => simp [put, value?_cons, h]
  | cons b t ih =>
    simp only [put]
    split
    · simp [value?_cons, h]
    · split
      · rename_i same
        simp [value?_cons, ← same, h]
      · simp [value?_cons, ih]

theorem value?_without (t : Table α) (name other : String) :
    (t.without name).value? other = if other = name then none else t.value? other := by
  induction t with
  | nil => simp [without]
  | cons b t ih =>
    simp only [without, List.filter_cons, decide_not] at ih ⊢
    by_cases same : b.1 = name
    · by_cases h : other = name <;> simp_all [value?_cons]
    · by_cases h : other = name
      · simp_all [value?_cons, Ne.symm same]
      · simp_all [value?_cons]

theorem mem_put {t : Table α} {name : String} {a : α} {b : String × α} (h : b ∈ t.put name a) :
    b = (name, a) ∨ b ∈ t := by
  induction t with
  | nil => simpa [put] using h
  | cons c t ih =>
    simp only [put] at h
    split at h
    · simpa using h
    · split at h
      · rcases List.mem_cons.1 h with h | h
        · exact .inl h
        · exact .inr (List.mem_cons_of_mem _ h)
      · rcases List.mem_cons.1 h with h | h
        · exact .inr (h ▸ List.mem_cons_self)
        · exact (ih h).imp_right (List.mem_cons_of_mem _)

theorem ordered_nil : Ordered ([] : Table α) := .nil

theorem ordered_put {t : Table α} (h : t.Ordered) (name : String) (a : α) :
    (t.put name a).Ordered := by
  induction t with
  | nil => simp [put, Ordered]
  | cons b t ih =>
    obtain ⟨first, rest⟩ := List.pairwise_cons.1 h
    simp only [put]
    split
    · rename_i before
      exact List.pairwise_cons.2 ⟨fun c hc => by
        rcases List.mem_cons.1 hc with rfl | hc
        · exact before
        · exact String.lt_trans before (first c hc), h⟩
    · split
      · rename_i same
        exact List.pairwise_cons.2 ⟨fun c hc => same ▸ first c hc, rest⟩
      · rename_i notBefore notSame
        have after : b.1 < name := String.not_le.1 fun le =>
          notSame (String.le_antisymm le (String.not_lt.1 notBefore))
        exact List.pairwise_cons.2 ⟨fun c hc => by
          rcases mem_put hc with rfl | hc
          · exact after
          · exact first c hc, ih rest⟩

theorem ordered_ofBindings (bindings : List (String × α)) : (ofBindings bindings).Ordered := by
  suffices h : ∀ t : Table α, t.Ordered →
      Ordered (bindings.foldl (fun t b => t.put b.1 b.2) t) from h [] ordered_nil
  induction bindings with
  | nil => exact fun _ h => h
  | cons b bindings ih => exact fun t h => ih _ (ordered_put h b.1 b.2)

end Table

end IControl
