import IControl.Proofs.Json.RoundTrip
import IControl.Proofs.Outcome
import Mathlib.Data.List.Induction

/-!
# Taking documents over as values

The document of a value that nests no deeper than there is room for is taken over
as the same value with its objects in order. Whatever a document is, the value
taken over from it has its objects in order, and numbers and nesting are those of
the document.
-/

namespace IControl

namespace Document

/-- Induction over a document, with the hypothesis for all items and all members at once. -/
theorem tree_induction {motive : Document → Prop} (fault : motive .fault) (null : motive .null)
    (bool : ∀ b, motive (.bool b)) (number : ∀ n, motive (.number n))
    (string : ∀ s, motive (.string s))
    (array : ∀ ds closed, (∀ d ∈ ds, motive d) → motive (.array ds closed))
    (object : ∀ ms closed, (∀ m ∈ ms, motive m.2) → motive (.object ms closed))
    (d : Document) : motive d :=
  @Document.rec motive (fun ds => ∀ d ∈ ds, motive d) (fun ms => ∀ m ∈ ms, motive m.2)
    (fun m => motive m.2) fault null bool number string
    (fun ds closed h => array ds closed h) (fun ms closed h => object ms closed h)
    (fun _ h => absurd h List.not_mem_nil)
    (fun _ _ first others => List.forall_mem_cons.2 ⟨first, others⟩)
    (fun _ h => absurd h List.not_mem_nil)
    (fun _ _ first others => List.forall_mem_cons.2 ⟨first, others⟩)
    (fun _ _ h => h) d

theorem ofItems_eq (xs : List Json) : ofItems xs = xs.map ofJson := by
  induction xs with
  | nil => rfl
  | cons x xs ih => rw [ofItems, ih, List.map_cons]

theorem ofMembers_eq (ms : List (String × Json)) :
    ofMembers ms = ms.map fun m => (some m.1, ofJson m.2) := by
  induction ms with
  | nil => rfl
  | cons m ms ih => rw [ofMembers, ih, List.map_cons]

@[simp] theorem ofJson_array (xs : List Json) :
    ofJson (.array xs) = .array (xs.map ofJson) true := by
  rw [ofJson, ofItems_eq]

@[simp] theorem ofJson_object (ms : List (String × Json)) :
    ofJson (.object ms) = .object (ms.map fun m => (some m.1, ofJson m.2)) true := by
  rw [ofJson, ofMembers_eq]

theorem ofJson_eq_null {j : Json} (h : ofJson j = .null) : j = .null := by
  cases j with
  | null => rfl
  | array xs => exact nomatch (ofJson_array xs).symm.trans h
  | object ms => exact nomatch (ofJson_object ms).symm.trans h
  | _ => exact nomatch h

/-! ### Members with names -/

/-- Members that have a name. -/
def named (ms : List (String × Document)) : List (Option String × Document) :=
  ms.map fun m => (some m.1, m.2)

/-- Members as they were set aside. -/
def ofTable (ms : List (String × Json)) : List (String × Document) :=
  ms.map fun m => (m.1, ofJson m.2)

theorem ofJson_object_eq (ms : List (String × Json)) :
    ofJson (.object ms) = .object (named (ofTable ms)) true := by
  simp [named, ofTable]

theorem names_ofTable (ms : List (String × Json)) : Table.names (ofTable ms) = Table.names ms :=
  Table.names_map ofJson ms

theorem filter_ofTable (keep : String → Bool) (ms : List (String × Json)) :
    (ofTable ms).filter (fun m => keep m.1) = ofTable (ms.filter fun m => keep m.1) := by
  rw [ofTable, ofTable, List.filter_map]
  rfl

theorem named_injective {ms ns : List (String × Document)} (h : named ms = named ns) : ms = ns := by
  refine List.map_injective_iff.2 (fun a b same => ?_) h
  exact Prod.ext (Option.some.inj (Prod.mk.inj same).1) (Prod.mk.inj same).2

theorem named_concat (ms : List (String × Document)) (m : String × Document) :
    named (ms ++ [m]) = named ms ++ [(some m.1, m.2)] := by
  simp [named]

theorem eq_named_of_concat {ms : List (Option String × Document)}
    {m : Option String × Document} {ns : List (String × Document)} (h : ms ++ [m] = named ns) :
    ∃ before n, ns = before ++ [n] ∧ ms = named before ∧ m = (some n.1, n.2) := by
  induction ns using List.reverseRecOn with
  | nil => simp [named] at h
  | append_singleton before n _ =>
    rw [named_concat] at h
    obtain ⟨same, last⟩ := List.append_inj' h rfl
    exact ⟨before, n, rfl, same, (List.cons.inj last).1⟩

theorem membersSound_named {ms : List (String × Document)} :
    membersSound (named ms) = true ↔ ∀ m ∈ ms, m.2.isSound = true := by
  induction ms with
  | nil => simp [named, membersSound]
  | cons m ms ih =>
    rw [List.forall_mem_cons, ← ih]
    exact Bool.and_eq_true_iff

/-! ### Values -/

theorem values?_eq (room : Nat) (ds : List Document) :
    values? room ds = ds.mapM (value? room) := by
  induction ds with
  | nil => rfl
  | cons d ds ih => rw [values?, ih, List.mapM_cons]; rfl

/-- The value of a member that has a name. -/
def memberValue? (room : Nat) (m : Option String × Document) : Option (String × Json) := do
  let k ← m.1
  let x ← m.2.value? room
  some (k, x)

theorem memberValues?_eq (room : Nat) (ms : List (Option String × Document)) :
    memberValues? room ms = ms.mapM (memberValue? room) := by
  induction ms with
  | nil => rfl
  | cons m ms ih =>
    rw [memberValues?, ih, List.mapM_cons]
    obtain ⟨_ | k, d⟩ := m
    · rfl
    · cases h : d.value? room <;> simp [memberValue?, h]

theorem memberValue?_eq_some_iff {room : Nat} {m : Option String × Document} {n : String × Json} :
    memberValue? room m = some n ↔ m.1 = some n.1 ∧ m.2.value? room = some n.2 := by
  obtain ⟨_ | k, d⟩ := m
  · simp [memberValue?]
  · cases h : d.value? room <;> simp [memberValue?, h, Prod.ext_iff]

theorem value?_array_eq_some_iff {room : Nat} {ds : List Document} {closed : Bool} {j : Json} :
    (array ds closed).value? room = some j ↔ closed = true ∧ ∃ r xs, room = r + 1 ∧
      List.Forall₂ (fun d x => d.value? r = some x) ds xs ∧ j = .array xs := by
  cases room with
  | zero => simp [value?]
  | succ r =>
    simp only [value?, values?_eq, Option.bind_eq_bind, Option.bind_eq_some_iff, mapM_eq_some_iff]
    cases closed <;> simp [eq_comm]

theorem value?_object_eq_some_iff {room : Nat} {ms : List (Option String × Document)}
    {closed : Bool} {j : Json} :
    (object ms closed).value? room = some j ↔ closed = true ∧ ∃ r ns, room = r + 1 ∧
      List.Forall₂ (fun m n => m.1 = some n.1 ∧ m.2.value? r = some n.2) ms ns ∧
        j = .ofMembers ns := by
  cases room with
  | zero => simp [value?]
  | succ r =>
    simp only [value?, memberValues?_eq, Option.bind_eq_bind, Option.bind_eq_some_iff,
      mapM_eq_some_iff, memberValue?_eq_some_iff]
    cases closed <;> simp [eq_comm]

/-! ### Documents of values -/

theorem value?_ofJson {j : Json} {room : Nat} (h : j.depth ≤ room) :
    (ofJson j).value? room = some j.sorted := by
  induction j using Json.tree_induction generalizing room with
  | array xs ih =>
    obtain ⟨r, rfl⟩ : ∃ r, room = r + 1 := ⟨room - 1, by simp only [Json.depth] at h; omega⟩
    rw [Json.depth_array_le] at h
    rw [ofJson_array, value?_array_eq_some_iff, Json.sorted_array]
    refine ⟨rfl, r, _, rfl, ?_, rfl⟩
    rw [List.forall₂_map_left_iff]
    exact forall₂_map_self fun x hx => ih x hx (h x hx)
  | object ms ih =>
    obtain ⟨r, rfl⟩ : ∃ r, room = r + 1 := ⟨room - 1, by simp only [Json.depth] at h; omega⟩
    rw [Json.depth_object_le] at h
    rw [ofJson_object, value?_object_eq_some_iff, Json.sorted_object]
    refine ⟨rfl, r, _, rfl, ?_, rfl⟩
    rw [List.forall₂_map_left_iff]
    exact forall₂_map_self fun m hm => ⟨rfl, ih m hm (h m hm)⟩
  | _ => rfl

theorem depth_le_of_value? {j x : Json} {room : Nat} (h : (ofJson j).value? room = some x) :
    j.depth ≤ room := by
  induction j using Json.tree_induction generalizing room x with
  | array xs ih =>
    rw [ofJson_array] at h
    obtain ⟨-, r, ys, rfl, items, -⟩ := value?_array_eq_some_iff.1 h
    rw [List.forall₂_map_left_iff] at items
    rw [Json.depth_array_le]
    intro y hy
    obtain ⟨taken, -, is⟩ := exists_of_mem_right items.flip hy
    exact ih y hy is
  | object ms ih =>
    rw [ofJson_object] at h
    obtain ⟨-, r, ns, rfl, members, -⟩ := value?_object_eq_some_iff.1 h
    rw [List.forall₂_map_left_iff] at members
    rw [Json.depth_object_le]
    intro m hm
    obtain ⟨taken, -, -, is⟩ := exists_of_mem_right members.flip hm
    exact ih m hm is
  | _ => exact Nat.zero_le _

theorem isSound_ofJson (j : Json) : (ofJson j).isSound = true := by
  have items : ∀ ds, (∀ d ∈ ds, isSound d = true) → allSound ds = true := fun ds h => by
    induction ds with
    | nil => rfl
    | cons d ds ih =>
      rw [allSound, h d List.mem_cons_self, ih fun e he => h e (List.mem_cons_of_mem _ he)]
      rfl
  have members : ∀ ms : List (Option String × Document), (∀ m ∈ ms, isSound m.2 = true) →
      membersSound ms = true := fun ms h => by
    induction ms with
    | nil => rfl
    | cons m ms ih =>
      rw [membersSound, h m List.mem_cons_self, ih fun n hn => h n (List.mem_cons_of_mem _ hn)]
      rfl
  induction j using Json.tree_induction with
  | array xs ih =>
    rw [ofJson_array, isSound, items _ (by simpa using ih)]
    rfl
  | object ms ih =>
    rw [ofJson_object, isSound, members]
    · rfl
    · intro m hm
      obtain ⟨n, hn, rfl⟩ := List.mem_map.1 hm
      exact ih n hn
  | _ => rfl

/-! ### Values of documents -/

theorem ordered_of_value? {room : Nat} {d : Document} {j : Json} (h : d.value? room = some j) :
    j.Ordered := by
  induction d using tree_induction generalizing room j with
  | fault => simp [value?] at h
  | null | bool => exact Option.some.inj h ▸ trivial
  | number n =>
    obtain ⟨x, -, rfl⟩ := Option.map_eq_some_iff.1 h
    trivial
  | string s =>
    obtain ⟨x, -, rfl⟩ := Option.map_eq_some_iff.1 h
    trivial
  | array ds closed ih =>
    obtain ⟨-, r, xs, -, items, rfl⟩ := value?_array_eq_some_iff.1 h
    rw [Json.ordered_array]
    intro x hx
    obtain ⟨d, hd, taken⟩ := exists_of_mem_right items hx
    exact ih d hd taken
  | object ms closed ih =>
    obtain ⟨-, r, ns, -, members, rfl⟩ := value?_object_eq_some_iff.1 h
    rw [Json.ofMembers, Json.ordered_object]
    refine ⟨Table.ordered_ofBindings _, fun n hn => ?_⟩
    obtain ⟨m, hm, -, taken⟩ := exists_of_mem_right members (Table.mem_ofBindings hn)
    exact ih m hm taken

/-- A document that nests at most so many levels, and in which every number is an integer of the
range in which integers are kept. -/
inductive Plain : Nat → Document → Prop where
  | fault (n : Nat) : Plain n .fault
  | null (n : Nat) : Plain n .null
  | bool (n : Nat) (b : Bool) : Plain n (.bool b)
  | number (n : Nat) {x : Number} (h : x.InRange) : Plain n (.number (some x))
  | string (n : Nat) (s : Option String) : Plain n (.string s)
  | array {n : Nat} {ds : List Document} (closed : Bool) (h : ∀ d ∈ ds, Plain n d) :
    Plain (n + 1) (.array ds closed)
  | object {n : Nat} {ms : List (Option String × Document)} (closed : Bool)
    (h : ∀ m ∈ ms, Plain n m.2) : Plain (n + 1) (.object ms closed)

theorem Plain.mono {n : Nat} {d : Document} (h : d.Plain n) {m : Nat} (le : n ≤ m) : d.Plain m := by
  induction h generalizing m with
  | array closed _ ih =>
    obtain ⟨m, rfl⟩ : ∃ k, m = k + 1 := ⟨m - 1, by omega⟩
    exact .array closed fun d hd => ih d hd (by omega)
  | object closed _ ih =>
    obtain ⟨m, rfl⟩ : ∃ k, m = k + 1 := ⟨m - 1, by omega⟩
    exact .object closed fun e he => ih e he (by omega)
  | fault => exact .fault m
  | null => exact .null m
  | bool _ b => exact .bool m b
  | number _ h => exact .number m h
  | string _ s => exact .string m s

theorem Plain.value {n : Nat} {d : Document} (h : d.Plain n) {room : Nat} {j : Json}
    (taken : d.value? room = some j) : j.Integral ∧ j.depth ≤ n := by
  induction h generalizing room j with
  | array closed _ ih =>
    obtain ⟨-, r, xs, -, items, rfl⟩ := value?_array_eq_some_iff.1 taken
    have each : ∀ x ∈ xs, x.Integral ∧ x.depth ≤ _ := fun x hx => by
      obtain ⟨d, hd, hx⟩ := exists_of_mem_right items hx
      exact ih d hd hx
    rw [Json.Integral, Json.numbers_array, Json.depth_array_le]
    exact ⟨fun x hx => (each x hx).1, fun x hx => (each x hx).2⟩
  | object closed _ ih =>
    obtain ⟨-, r, ns, -, members, rfl⟩ := value?_object_eq_some_iff.1 taken
    have each : ∀ n ∈ Table.ofBindings ns, n.2.Integral ∧ n.2.depth ≤ _ := fun n hn => by
      obtain ⟨m, hm, -, hn⟩ := exists_of_mem_right members (Table.mem_ofBindings hn)
      exact ih m hm hn
    rw [Json.ofMembers, Json.Integral, Json.numbers_object, Json.depth_object_le]
    exact ⟨fun n hn => (each n hn).1, fun n hn => (each n hn).2⟩
  | fault => simp [value?] at taken
  | null | bool => exact Option.some.inj taken ▸ ⟨trivial, Nat.zero_le _⟩
  | number _ h => exact Option.some.inj taken ▸ ⟨h, Nat.zero_le _⟩
  | string _ s =>
    cases s with
    | none => simp [value?] at taken
    | some s => exact Option.some.inj taken ▸ ⟨trivial, Nat.zero_le _⟩

theorem plain_ofJson {j : Json} {n : Nat} (numbers : j.Integral) (nested : j.depth ≤ n) :
    (ofJson j).Plain n := by
  induction j using Json.tree_induction generalizing n with
  | array xs ih =>
    obtain ⟨n, rfl⟩ : ∃ r, n = r + 1 := ⟨n - 1, by simp only [Json.depth] at nested; omega⟩
    rw [Json.Integral, Json.numbers_array] at numbers
    rw [Json.depth_array_le] at nested
    rw [ofJson_array]
    exact .array _ (List.forall_mem_map.2 fun x hx => ih x hx (numbers x hx) (nested x hx))
  | object ms ih =>
    obtain ⟨n, rfl⟩ : ∃ r, n = r + 1 := ⟨n - 1, by simp only [Json.depth] at nested; omega⟩
    rw [Json.Integral, Json.numbers_object] at numbers
    rw [Json.depth_object_le] at nested
    rw [ofJson_object]
    exact .object _ (List.forall_mem_map.2 fun m hm => ih m hm (numbers m hm) (nested m hm))
  | null => exact .null n
  | bool b => exact .bool n b
  | number x => exact .number n numbers
  | string s => exact .string n (some s)

end Document

namespace Json

/-- The text of a value is the value again, with its objects in order. -/
theorem ofText?_print {j : Json} (numbers : j.Numbers Number.Survives)
    (nested : j.depth ≤ Document.maxDepth) :
    ofText? j.print = some j.sorted := by
  rw [ofText?, parse?, read_print numbers]
  exact Document.value?_ofJson nested

theorem ofText?_print_of_deep {j : Json} (numbers : j.Numbers Number.Survives)
    (deep : Document.maxDepth < j.depth) : ofText? j.print = none := by
  rw [ofText?, parse?, read_print numbers]
  refine Option.eq_none_iff_forall_ne_some.2 fun x taken => ?_
  exact Nat.not_lt.2 (Document.depth_le_of_value? taken) deep

theorem chars_object (ms : List (String × Json)) : ∃ rest, (Json.object ms).chars = '\x7b' :: rest := by
  cases ms with
  | nil => exact ⟨_, by rw [chars]⟩
  | cons m ms =>
    obtain ⟨name, x⟩ := m
    exact ⟨_, by rw [chars]; rfl⟩

theorem readValue_brace (fuel : Nat) (rest : List Utf8.Symbol) :
    ∃ ms closed, (readValue (fuel + 1) (.char '\x7b' :: rest)).1 = .object ms closed := by
  have first : skipBlank (.char '\x7b' :: rest) = .char '\x7b' :: rest := rfl
  rw [readValue, first]
  split
  · rename_i bracket
    exact absurd (Utf8.Symbol.char.inj (List.cons.inj bracket).1) (by decide)
  · split
    · exact ⟨_, _, rfl⟩
    · exact ⟨_, _, rfl⟩
  · rename_i other
    exact (other rest rfl).elim

theorem object_of_ofText?_print {ms : List (String × Json)} {j : Json}
    (h : ofText? (Json.object ms).print = some j) : ∃ ns, j = .object ns := by
  obtain ⟨rest, chars⟩ := chars_object ms
  have symbols : Utf8.symbols (Utf8.encode (Json.object ms).print) =
      .char '\x7b' :: rest.map .char := by
    rw [Utf8.symbols_encode, print, String.toList_ofList, chars, List.map_cons]
  obtain ⟨members, closed, read⟩ :=
    readValue_brace (2 * (rest.map Utf8.Symbol.char).length.succ + 1) (rest.map .char)
  rw [ofText?, parse?, Json.read, symbols, readSymbols] at h
  split at h
  · rename_i document same
    obtain rfl : document = Document.object members closed :=
      (congrArg Prod.fst same).symm.trans read
    obtain ⟨-, r, ns, -, -, rfl⟩ := Document.value?_object_eq_some_iff.1 h
    exact ⟨_, rfl⟩
  · cases h

end Json

end IControl
