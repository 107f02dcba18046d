import IControl.Proofs.Shape.Values

/-!
# The order of members does not matter

A document of a value keeps the order in which members are written; once taken
over, the members of every object are in the order of their names. Both are
decoded to the same value.
-/

namespace IControl

open Document Json

namespace Fields

variable {fs : Fields} {room : Nat}

/-- Values that there is room for are set aside in order. -/
theorem aside?_ofTable {ms : List (String × Json)} (nested : ∀ m ∈ ms, m.2.depth ≤ room) :
    fs.aside? room (ofTable ms) = some (sortedValues (ms.filter fun m => !fs.answers m.1)) := by
  rw [aside?, filter_ofTable fun name => !fs.answers name, mapM_eq_some_iff, ofTable,
    List.forall₂_map_left_iff]
  refine forall₂_map_self fun m hm => ?_
  rw [takenOver?, value?_ofJson (nested m (List.mem_of_mem_filter hm))]
  rfl

theorem value?_aside {ms aside : List (String × Json)} (nested : ∀ m ∈ ms, m.2.depth ≤ room)
    (set : fs.aside? room (ofTable ms) = some aside) (name : String) :
    Table.value? aside name =
      if name ∈ fs.names then none else (Table.value? ms name).map sorted := by
  rw [aside?_ofTable nested] at set
  obtain rfl := Option.some.inj set
  rw [value?_sortedValues, Table.value?_filter fun name => !fs.answers name]
  have answered := answers_iff fs name
  cases found : fs.answers name <;> simp_all

theorem exists_of_value?_aside {ms aside : List (String × Json)}
    (nested : ∀ m ∈ ms, m.2.depth ≤ room) (set : fs.aside? room (ofTable ms) = some aside)
    {name : String} {x : Json} (bound : Table.value? aside name = some x) :
    ∃ y, Table.value? ms name = some y ∧ y.sorted = x := by
  rw [value?_aside nested set] at bound
  split_ifs at bound
  exact Option.map_eq_some_iff.1 bound

end Fields

namespace Presence

variable {α : Type} {decode : Document → Except Fault α}

theorem fit_optional {d : Document} (h : d ≠ .null) :
    fit decode .optional d = (decode d).map some := by
  rw [fit.eq_def]
  cases d with
  | null => exact absurd rfl h
  | _ => rfl

theorem fit_sorted {j : Json}
    (h : ∀ v, decode (ofJson j) = .ok v → decode (ofJson j.sorted) = .ok v)
    {presence : Presence} {v : presence.Slot α} (fits : presence.fit decode (ofJson j) = .ok v) :
    presence.fit decode (ofJson j.sorted) = .ok v := by
  cases presence with
  | optional =>
    by_cases null : j = .null
    · subst null
      exact fits
    · rw [fit_optional fun h => null (ofJson_eq_null h)] at fits
      rw [fit_optional fun h => null (eq_null_of_sorted (ofJson_eq_null h))]
      obtain ⟨x, decoded, rfl⟩ := map_eq_ok_iff.1 fits
      exact map_eq_ok_iff.2 ⟨x, h x decoded, rfl⟩
  | required => exact h v fits
  | defaulted => exact h v fits
  | elided => exact h v fits

end Presence

theorem Fields.pick_table {fs : Fields} {room : Nat} {ms : List (String × Json)}
    (nodup : (Table.names ms).Nodup) :
    fs.pick room (ofTable (Table.ofBindings (sortedValues ms))) =
      fs.pick room (ofTable (sortedValues ms)) :=
  pick_perm fs room ((sortedValues_perm nodup).map _)

theorem Shape.decode_map_ofJson {room : Nat} {ms : List (String × Json)}
    (nested : (Json.object ms).depth ≤ room) :
    Shape.map.decode room (ofJson (.object ms)) = .ok (Table.ofBindings (sortedValues ms)) := by
  have taken := value?_ofJson nested
  rw [ofJson_object_eq] at taken ⊢
  rw [Shape.decode.eq_def]
  simp only [taken, sorted_object]
  rfl

theorem Extra.keep_perm {taken : String → Bool} {aside others : List (String × Json)}
    (nodup : (Table.names aside).Nodup) (h : aside.Perm others) (isOpen : Bool) :
    Extra.keep taken aside isOpen = Extra.keep taken others isOpen := by
  cases isOpen with
  | true =>
    refine Table.ofBindings_perm ?_ (h.filter _)
    exact nodup.sublist (List.filter_sublist.map Prod.fst)
  | false => rfl

theorem Shape.decode_map_sorted {room : Nat} {ms : List (String × Json)} {v : Shape.map.Value}
    (nested : (Json.object ms).depth ≤ room)
    (decoded : Shape.map.decode room (ofJson (.object ms)) = .ok v) :
    Shape.map.decode room (ofJson (Json.object ms).sorted) = .ok v := by
  have ordered := ordered_sorted (.object ms)
  have fits := depth_sorted_le nested
  rw [Shape.decode_map_ofJson nested] at decoded
  obtain rfl := Except.ok.inj decoded
  rw [sorted_object, Json.ofMembers] at ordered fits ⊢
  rw [Shape.decode_map_ofJson fits]
  have same := ordered.sorted_eq
  rw [sorted_object] at same
  exact congrArg Except.ok (Json.object.inj same)

/-- A struct is decoded from a sorted object when its row is picked from sorted members. -/
theorem Shape.decode_struct_sorted {fields : Fields} (nodup : fields.names.Nodup) {room : Nat}
    {ms : List (String × Json)} {v : fields.Row} (distinct : (Table.names ms).Nodup)
    (decoded : (Shape.struct fields).decode (room + 1) (ofJson (.object ms)) = .ok v)
    (sorted : fields.pick room (ofTable ms) = some v →
      fields.pick room (ofTable (sortedValues ms)) = some v) :
    (Shape.struct fields).decode (room + 1) (ofJson (Json.object ms).sorted) = .ok v := by
  rw [ofJson_object_eq] at decoded
  obtain ⟨-, r, ns, fits, same, -, picked⟩ := (decode_struct_object_eq_ok_iff nodup).1 decoded
  obtain rfl := Nat.succ.inj fits
  obtain rfl := named_injective same
  rw [sorted_object, Json.ofMembers, ofJson_object_eq]
  refine (decode_struct_object_eq_ok_iff nodup).2 ⟨rfl, room, _, rfl, rfl, ?_, ?_⟩
  · exact List.forall_mem_map.2 fun m _ _ => isSound_ofJson m.2
  · exact (Fields.pick_table distinct).trans (sorted picked)

theorem Shape.decode_layered_sorted {metadata settings own : Fields} {isOpen : Bool}
    (well : WellLayered metadata settings own) {room : Nat} {ms : List (String × Json)}
    {v : Entry metadata.Row settings.Row own.Row (Extra isOpen)} (distinct : (Table.names ms).Nodup)
    (nested : ∀ m ∈ ms, m.2.depth ≤ room)
    (decoded : (Shape.layered metadata settings own isOpen).decode (room + 1)
      (ofJson (.object ms)) = .ok v)
    (sorted : own.pick room (ofTable ms) = some v.own →
      own.pick room (ofTable (sortedValues ms)) = some v.own) :
    (Shape.layered metadata settings own isOpen).decode (room + 1)
      (ofJson (Json.object ms).sorted) = .ok v := by
  rw [ofJson_object_eq] at decoded
  obtain ⟨r, ns, aside, fits, eq, set, ownPicked, metadataPicked, settingsPicked, kept⟩ :=
    (decode_layered_eq_ok_iff well.metadataNodup well.settingsNodup well.ownNodup).1 decoded
  obtain rfl := Nat.succ.inj fits
  obtain rfl := named_injective (Document.object.inj eq).1
  rw [Fields.aside?_ofTable nested] at set
  obtain rfl := Option.some.inj set
  have table := sortedValues_perm distinct
  have perm : (sortedValues ((Table.ofBindings (sortedValues ms)).filter fun m =>
      !own.answers m.1)).Perm (sortedValues (ms.filter fun m => !own.answers m.1)) := by
    have filtered := sortedValues_of_perm (table.filter fun m => !own.answers m.1)
    rw [sortedValues_filter fun name => !own.answers name, sortedValues_sortedValues] at filtered
    exact filtered
  rw [sorted_object, Json.ofMembers, ofJson_object_eq]
  refine (decode_layered_eq_ok_iff well.metadataNodup well.settingsNodup well.ownNodup).2
    ⟨room, _, _, rfl, rfl, Fields.aside?_ofTable (depth_sortedValues nested), ?_, ?_, ?_, ?_⟩
  · exact (Fields.pick_table distinct).trans (sorted ownPicked)
  · exact (Fields.pick_perm metadata room (perm.map _)).trans metadataPicked
  · exact (Fields.pick_perm settings room (perm.map _)).trans settingsPicked
  · rw [← kept]
    refine Extra.keep_perm ((perm.map Prod.fst).nodup_iff.2 ?_) perm isOpen
    exact (names_sortedValues ms ▸ distinct).sublist ((List.filter_sublist.map _).map Prod.fst)

mutual

theorem Shape.decode_sorted (s : Shape) (formed : s.wellFormed = true) {room : Nat} {j : Json}
    {v : s.Value} (distinct : j.Distinct) (nested : j.depth ≤ room)
    (decoded : s.decode room (ofJson j) = .ok v) : s.decode room (ofJson j.sorted) = .ok v := by
  match s with
  | .text =>
    cases j with
    | array xs => exact nomatch decoded
    | object ms => exact nomatch decoded
    | _ => exact decoded
  | .flag =>
    cases j with
    | array xs => exact nomatch decoded
    | object ms => exact nomatch decoded
    | _ => exact decoded
  | .count =>
    cases j with
    | array xs => exact nomatch decoded
    | object ms => exact nomatch decoded
    | _ => exact decoded
  | .tree =>
    have taken := unlessSome_eq_ok_iff.1 decoded
    rw [value?_ofJson nested] at taken
    refine unlessSome_eq_ok_iff.2 ?_
    rw [value?_ofJson (depth_sorted_le nested), (ordered_sorted j).sorted_eq, taken]
  | .map =>
    cases j with
    | object ms => exact Shape.decode_map_sorted nested decoded
    | array xs => exact nomatch decoded
    | _ => exact decoded
  | .skipped =>
    rw [Shape.decode, isSound_ofJson]
    rfl
  | .list item =>
    cases j with
    | array xs =>
      rw [ofJson_array] at decoded
      obtain ⟨r, ds, rfl, eq, items⟩ := Shape.decode_list_eq_ok_iff.1 decoded
      obtain ⟨rfl, -⟩ := Document.array.inj eq
      rw [distinct_array] at distinct
      rw [depth_array_le] at nested
      rw [sorted_array, ofJson_array, List.map_map]
      refine Shape.decode_list_eq_ok_iff.2 ⟨r, _, rfl, rfl, forall₂_map_of items fun x hx y decoded => ?_⟩
      exact Shape.decode_sorted item formed (distinct x hx) (nested x hx) decoded
    | object ms => exact nomatch decoded
    | _ => exact decoded
  | .struct fields =>
    obtain ⟨nodup, formed⟩ := Shape.wellFormed_struct.1 formed
    cases j with
    | object ms =>
      obtain ⟨r, rfl⟩ : ∃ r, room = r + 1 := ⟨room - 1, by simp only [depth] at nested; omega⟩
      rw [distinct_object] at distinct
      rw [depth_object_le] at nested
      exact Shape.decode_struct_sorted nodup distinct.1 decoded
        (Fields.pick_sorted fields formed distinct.2 nested)
    | array xs =>
      rw [distinct_array] at distinct
      rw [ofJson_array] at decoded
      obtain ⟨r, rfl, decoded⟩ := Shape.decode_struct_array_eq_ok_iff.1 decoded
      rw [depth_array_le] at nested
      rw [sorted_array, ofJson_array, List.map_map]
      exact Shape.decode_struct_array_eq_ok_iff.2 ⟨r, rfl,
        Fields.decodeItems_sorted fields formed distinct nested decoded⟩
    | _ => exact decoded
  | .layered metadata settings own isOpen =>
    have well := Shape.wellLayered formed
    cases j with
    | object ms =>
      obtain ⟨r, rfl⟩ : ∃ r, room = r + 1 := ⟨room - 1, by simp only [depth] at nested; omega⟩
      rw [distinct_object] at distinct
      rw [depth_object_le] at nested
      exact Shape.decode_layered_sorted well distinct.1 nested decoded
        (Fields.pick_sorted own well.ownFormed distinct.2 nested)
    | array xs => exact nomatch decoded
    | _ => exact decoded

theorem Fields.pick_sorted (fs : Fields) (formed : fs.wellFormed = true) {room : Nat}
    {ms : List (String × Json)} {row : fs.Row} (distinct : ∀ m ∈ ms, m.2.Distinct)
    (nested : ∀ m ∈ ms, m.2.depth ≤ room) (picked : fs.pick room (ofTable ms) = some row) :
    fs.pick room (ofTable (sortedValues ms)) = some row := by
  match fs, row with
  | .nil, _ => exact picked
  | .cons f s rest, (v, row) =>
    obtain ⟨-, shapeFormed, restFormed⟩ := Fields.wellFormed_cons.1 formed
    obtain ⟨own, others⟩ := Fields.pick_cons_eq_some_iff.1 picked
    refine Fields.pick_cons_eq_some_iff.2
      ⟨?_, Fields.pick_sorted rest restFormed distinct nested others⟩
    rw [filter_ofTable f.answers] at own ⊢
    rw [sortedValues_filter f.answers]
    rcases own with ⟨none, absent⟩ | ⟨m, one, fits⟩
    · rw [List.map_eq_nil_iff.1 none]
      exact .inl ⟨rfl, absent⟩
    · obtain ⟨x, single, rfl⟩ := List.map_eq_singleton_iff.1 one
      have inside : x ∈ ms := List.mem_of_mem_filter (single ▸ List.mem_singleton_self x)
      rw [single]
      refine .inr ⟨(x.1, ofJson x.2.sorted), rfl, Presence.fit_sorted (fun v decoded => ?_) fits⟩
      exact Shape.decode_sorted s shapeFormed (distinct x inside) (nested x inside) decoded

theorem Fields.decodeItems_sorted (fs : Fields) (formed : fs.wellFormed = true) {room : Nat}
    {xs : List Json} {closed : Bool} {row : fs.Row} (distinct : ∀ x ∈ xs, x.Distinct)
    (nested : ∀ x ∈ xs, x.depth ≤ room)
    (decoded : fs.decodeItems room (xs.map ofJson) closed = .ok row) :
    fs.decodeItems room (xs.map (ofJson ∘ Json.sorted)) closed = .ok row := by
  match fs, row with
  | .nil, _ =>
    cases xs with
    | nil => exact decoded
    | cons x xs => exact nomatch decoded
  | .cons f s rest, (v, row) =>
    obtain ⟨-, shapeFormed, restFormed⟩ := Fields.wellFormed_cons.1 formed
    obtain ⟨own, others⟩ := Fields.decodeItems_cons_eq_ok_iff.1 decoded
    cases xs with
    | nil => exact decoded
    | cons x xs =>
      refine Fields.decodeItems_cons_eq_ok_iff.2 ⟨.inr ⟨ofJson x.sorted, rfl, ?_⟩, ?_⟩
      · rcases own with ⟨empty, -⟩ | ⟨d, head, fits⟩
        · exact nomatch empty
        · obtain rfl := Option.some.inj head
          exact Presence.fit_sorted (fun v decoded => Shape.decode_sorted s shapeFormed
            (distinct x List.mem_cons_self) (nested x List.mem_cons_self) decoded) fits
      · exact Fields.decodeItems_sorted rest restFormed
          (fun y hy => distinct y (List.mem_cons_of_mem _ hy))
          (fun y hy => nested y (List.mem_cons_of_mem _ hy)) others

end

end IControl
