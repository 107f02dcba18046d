import IControl.Proofs.Shape.Order

/-!
# The room that is left does not matter

Deep inside a document there is less room to nest than at its top. The document of
a value that fits into both is decoded to the same value in either place, so what
a record is read as does not depend on whether it comes alone or in a listing.
-/

namespace IControl

open Document Json

theorem Presence.fit_mono {α : Type} {decode further : Document → Except Fault α} {d : Document}
    (h : ∀ v, decode d = .ok v → further d = .ok v) {presence : Presence} {v : presence.Slot α}
    (fits : presence.fit decode d = .ok v) : presence.fit further d = .ok v := by
  cases presence with
  | optional =>
    by_cases null : d = .null
    · subst null
      exact fits
    · rw [fit_optional null] at fits ⊢
      obtain ⟨x, decoded, rfl⟩ := map_eq_ok_iff.1 fits
      exact map_eq_ok_iff.2 ⟨x, h x decoded, rfl⟩
  | required => exact h v fits
  | defaulted => exact h v fits
  | elided => exact h v fits

mutual

theorem Shape.decode_room (s : Shape) (formed : s.wellFormed = true) {room other : Nat} {j : Json}
    {v : s.Value} (nested : j.depth ≤ room) (fits : j.depth ≤ other)
    (decoded : s.decode room (ofJson j) = .ok v) : s.decode other (ofJson j) = .ok v := by
  match s with
  | .text => exact decoded
  | .flag => exact decoded
  | .count => exact decoded
  | .skipped => exact decoded
  | .tree =>
    have taken := unlessSome_eq_ok_iff.1 decoded
    rw [value?_ofJson nested] at taken
    exact unlessSome_eq_ok_iff.2 ((value?_ofJson fits).trans taken)
  | .map =>
    cases j with
    | object ms =>
      rw [Shape.decode_map_ofJson nested] at decoded
      rw [Shape.decode_map_ofJson fits, decoded]
    | array xs => exact nomatch decoded
    | _ => exact decoded
  | .list item =>
    cases j with
    | array xs =>
      rw [ofJson_array] at decoded ⊢
      obtain ⟨r, ds, rfl, same, items⟩ := Shape.decode_list_eq_ok_iff.1 decoded
      obtain ⟨rfl, -⟩ := Document.array.inj same
      obtain ⟨o, rfl, each⟩ := exists_of_depth_array_le fits
      rw [depth_array_le] at nested
      refine Shape.decode_list_eq_ok_iff.2 ⟨o, _, rfl, rfl, forall₂_map_of items fun x hx y decoded => ?_⟩
      exact Shape.decode_room item formed (nested x hx) (each x hx) decoded
    | object ms => exact nomatch decoded
    | _ => exact decoded
  | .struct fields =>
    obtain ⟨nodup, formed⟩ := Shape.wellFormed_struct.1 formed
    cases j with
    | object ms =>
      obtain ⟨o, rfl, each⟩ := exists_of_depth_object_le fits
      rw [ofJson_object_eq] at decoded ⊢
      obtain ⟨-, r, ns, rfl, same, sound, picked⟩ := (Shape.decode_struct_object_eq_ok_iff nodup).1 decoded
      obtain rfl := named_injective same
      rw [depth_object_le] at nested
      exact (Shape.decode_struct_object_eq_ok_iff nodup).2
        ⟨rfl, o, _, rfl, rfl, sound, Fields.pick_room fields formed nested each picked⟩
    | array xs =>
      obtain ⟨o, rfl, each⟩ := exists_of_depth_array_le fits
      rw [ofJson_array] at decoded ⊢
      obtain ⟨r, rfl, decoded⟩ := Shape.decode_struct_array_eq_ok_iff.1 decoded
      rw [depth_array_le] at nested
      exact Shape.decode_struct_array_eq_ok_iff.2
        ⟨o, rfl, Fields.decodeItems_room fields formed nested each decoded⟩
    | _ => exact decoded
  | .layered metadata settings own isOpen =>
    have well := Shape.wellLayered formed
    cases j with
    | object ms =>
      obtain ⟨o, rfl, each⟩ := exists_of_depth_object_le fits
      rw [ofJson_object_eq] at decoded ⊢
      obtain ⟨r, ns, aside, rfl, same, set, ownPicked, metadataPicked, settingsPicked, kept⟩ :=
        (Shape.decode_layered_eq_ok_iff well.metadataNodup well.settingsNodup well.ownNodup).1 decoded
      obtain rfl := named_injective (Document.object.inj same).1
      rw [depth_object_le] at nested
      rw [Fields.aside?_ofTable nested] at set
      obtain rfl := Option.some.inj set
      -- What is set aside nests no deeper than the members that it was taken over from.
      have setAside : ∀ {n : Nat}, (∀ m ∈ ms, m.2.depth ≤ n) →
          ∀ m ∈ sortedValues (ms.filter fun m => !own.answers m.1), m.2.depth ≤ n := by
        intro n bound
        exact List.forall_mem_map.2 fun m hm =>
          depth_sorted_le (bound m (List.mem_of_mem_filter hm))
      exact (Shape.decode_layered_eq_ok_iff well.metadataNodup well.settingsNodup well.ownNodup).2
        ⟨o, _, _, rfl, rfl, Fields.aside?_ofTable each,
          Fields.pick_room own well.ownFormed nested each ownPicked,
          Fields.pick_room metadata well.metadataFormed (setAside nested) (setAside each)
            metadataPicked,
          Fields.pick_room settings well.settingsFormed (setAside nested) (setAside each)
            settingsPicked, kept⟩
    | array xs => exact nomatch decoded
    | _ => exact decoded

theorem Fields.pick_room (fs : Fields) (formed : fs.wellFormed = true) {room other : Nat}
    {ms : List (String × Json)} {row : fs.Row} (nested : ∀ m ∈ ms, m.2.depth ≤ room)
    (fits : ∀ m ∈ ms, m.2.depth ≤ other) (picked : fs.pick room (ofTable ms) = some row) :
    fs.pick other (ofTable ms) = some row := by
  match fs, row with
  | .nil, _ => exact picked
  | .cons f s rest, (v, row) =>
    obtain ⟨-, shapeFormed, restFormed⟩ := Fields.wellFormed_cons.1 formed
    obtain ⟨own, others⟩ := Fields.pick_cons_eq_some_iff.1 picked
    refine Fields.pick_cons_eq_some_iff.2 ⟨?_, Fields.pick_room rest restFormed nested fits others⟩
    refine own.imp_right ?_
    rintro ⟨m, one, found⟩
    refine ⟨m, one, Presence.fit_mono (fun v decoded => ?_) found⟩
    have inside : m ∈ ofTable ms := List.mem_of_mem_filter (one ▸ List.mem_singleton_self m)
    obtain ⟨x, hx, rfl⟩ := List.mem_map.1 inside
    exact Shape.decode_room s shapeFormed (nested x hx) (fits x hx) decoded

theorem Fields.decodeItems_room (fs : Fields) (formed : fs.wellFormed = true) {room other : Nat}
    {xs : List Json} {closed : Bool} {row : fs.Row} (nested : ∀ x ∈ xs, x.depth ≤ room)
    (fits : ∀ x ∈ xs, x.depth ≤ other)
    (decoded : fs.decodeItems room (xs.map ofJson) closed = .ok row) :
    fs.decodeItems other (xs.map ofJson) closed = .ok row := by
  match fs, row with
  | .nil, _ =>
    cases xs with
    | nil => cases closed <;> exact decoded
    | cons x xs => exact nomatch decoded
  | .cons f s rest, (v, row) =>
    obtain ⟨-, shapeFormed, restFormed⟩ := Fields.wellFormed_cons.1 formed
    obtain ⟨own, others⟩ := Fields.decodeItems_cons_eq_ok_iff.1 decoded
    cases xs with
    | nil =>
      refine Fields.decodeItems_cons_eq_ok_iff.2
        ⟨own.imp_right ?_, Fields.decodeItems_room rest restFormed nested fits others⟩
      rintro ⟨d, head, -⟩
      exact nomatch head
    | cons x xs =>
      refine Fields.decodeItems_cons_eq_ok_iff.2 ⟨.inr ⟨ofJson x, rfl, ?_⟩, ?_⟩
      · rcases own with ⟨empty, -⟩ | ⟨d, head, found⟩
        · exact nomatch empty
        · obtain rfl := Option.some.inj head
          exact Presence.fit_mono (fun v decoded => Shape.decode_room s shapeFormed
            (nested x List.mem_cons_self) (fits x List.mem_cons_self) decoded) found
      · exact Fields.decodeItems_room rest restFormed
          (fun y hy => nested y (List.mem_cons_of_mem _ hy))
          (fun y hy => fits y (List.mem_cons_of_mem _ hy)) others

end

end IControl
