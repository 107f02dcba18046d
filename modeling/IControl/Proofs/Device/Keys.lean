import IControl.Proofs.Device.Assignment
import IControl.Proofs.Device.Naming

/-!
# The keys of a collection

Whatever is done to a device, its store is altered in one of four ways: a
collection is registered, a record is written under its own key or under one that
is there already, a record is taken out, or a singleton gets a document. So the
keys of a collection stay in ascending order, none of them twice, and every one of
them is the segment of a name, which holds no slash.
-/

namespace IControl

namespace Store

/-- What one action may do to a store. -/
inductive Alters (s : Store) : Store → Prop where
  | refl : Alters s s
  | register (path : String) : Alters s (s.addCollection path)
  | write {path key : String} {record : Json}
      (known : recordKey? record = some key ∨ (s.recordAt? path key).isSome) :
      Alters s (s.write path key record).1
  | without (path key : String) : Alters s (s.without path key)
  | setSingleton (path : String) (document : Json) : Alters s (s.setSingleton path document)

theorem alters_answer {s next : Store} {r : Request} {text : String}
    (answered : s.answer r = .ok (next, text)) : s.Alters next := by
  have reply := answer_eq_ok_iff.1 answered
  cases method : r.method with
  | get => exact eq_of_answer_get method answered ▸ .refl
  | post =>
    rw [method] at reply
    obtain ⟨stored, created, -⟩ := reply
    obtain ⟨record, key, -, own, -, written⟩ := create_eq_ok_iff.1 created
    obtain rfl := congrArg Prod.fst written
    exact .write (.inl own)
  | put =>
    rw [method] at reply
    obtain ⟨stored, replaced, -⟩ := reply
    obtain ⟨record, -, ⟨parent, key, old, below, written⟩ | ⟨-, -, set⟩⟩ :=
      replace_eq_ok_iff.1 replaced
    · obtain rfl := congrArg Prod.fst written
      exact .write (.inr (Option.isSome_of_eq_some (recordAt?_of_below? below)))
    · obtain rfl := congrArg Prod.fst set
      exact .setSingleton r.path record
  | delete =>
    rw [method] at reply
    obtain ⟨parent, key, old, records, -, held, rfl⟩ := remove_eq_ok_iff.1 reply.1
    have same := Alters.without (s := s) parent key
    rw [without, held, Option.getD_some] at same
    exact same
  | other name =>
    rw [method] at reply
    exact reply.elim

/-- The keys of each collection are in ascending order, and each is the segment of a name. -/
structure Keyed (s : Store) : Prop where
  ordered : ∀ path records, s.collection? path = some records → Table.Ordered records
  encoded : ∀ path key record, s.recordAt? path key = some record →
    ∃ name, key = encodeInstance name

theorem keyed_empty : Keyed {} := ⟨nofun, nofun⟩

theorem exists_of_recordKey? {record : Json} {key : String} (h : recordKey? record = some key) :
    ∃ name, key = encodeInstance name := by
  obtain ⟨name, -, own⟩ := Option.bind_eq_some_iff.1 h
  cases partition : record.textMember? "partition" with
  | none =>
    rw [partition] at own
    exact ⟨name, (Option.some.inj own).symm⟩
  | some partition' =>
    rw [partition] at own
    exact ⟨fullPath partition' name, (Option.some.inj own).symm⟩

namespace Keyed

variable {s : Store} (h : s.Keyed)
include h

theorem ordered_getD (path : String) : Table.Ordered ((s.collection? path).getD []) := by
  cases held : s.collection? path with
  | none => exact Table.ordered_nil
  | some records => exact h.ordered path records held

theorem addCollection (path : String) : (s.addCollection path).Keyed where
  ordered other records held := by
    rw [collection?_addCollection] at held
    split_ifs at held with here
    · exact Option.some.inj held ▸ h.ordered_getD path
    · exact h.ordered other records held
  encoded other key record found := by
    rw [recordAt?_addCollection] at found
    exact h.encoded other key record found

theorem write {key : String} (made : ∃ name, key = encodeInstance name) (path : String)
    (record : Json) : (s.write path key record).1.Keyed where
  ordered other records held := by
    rw [collection?_write] at held
    split_ifs at held with here
    · exact Option.some.inj held ▸ Table.ordered_put (h.ordered_getD path) _ _
    · exact h.ordered other records held
  encoded other k found bound := by
    rw [recordAt?_write] at bound
    split_ifs at bound with here
    · exact here.2 ▸ made
    · exact h.encoded other k found bound

theorem without (path key : String) : (s.without path key).Keyed where
  ordered other records held := by
    have lookup := Table.value?_put s.collections path other
      (((s.collection? path).getD []).without key)
    rw [collection?, Store.without, lookup] at held
    split_ifs at held with here
    · exact Option.some.inj held ▸ (h.ordered_getD path).sublist List.filter_sublist
    · exact h.ordered other records held
  encoded other k record found := by
    have change := s.changes_without path key
    by_cases here : other = path ∧ k = key
    · rw [here.1, here.2, change.after_eq] at found
      cases found
    · rw [change.recordAt?_eq here] at found
      exact h.encoded other k record found

theorem alters {next : Store} (altered : s.Alters next) : next.Keyed := by
  cases altered with
  | refl => exact h
  | register path => exact h.addCollection path
  | @write path key record known =>
    refine h.write ?_ path record
    rcases known with own | bound
    · exact exists_of_recordKey? own
    · obtain ⟨old, found⟩ := Option.isSome_iff_exists.1 bound
      exact h.encoded path key old found
  | without path key => exact h.without path key
  | setSingleton path document => exact ⟨h.ordered, h.encoded⟩

end Keyed

end Store

namespace Device

theorem alters_send (d : Device) (ctx : RequestContext) (r : Request) :
    d.store.Alters (transport.send ctx d r).1.store := by
  rcases d.send_cases ctx r with unsent | ⟨error, cut⟩ | executed
  · rw [unsent]
    exact .refl
  · rw [cut]
    exact .refl
  · rw [executed]
    rcases d.execute_cases r with ⟨-, recorded⟩ | ⟨-, ⟨error, -, refused⟩ | succeeded⟩
    · rw [recorded]
      exact .refl
    · rw [refused]
      exact .refl
    · obtain ⟨next, text, answered, committed⟩ := succeeded
      rw [committed]
      exact Store.alters_answer answered

theorem alters_act (d : Device) (a : Action) : d.store.Alters (d.act a).store := by
  cases a with
  | step s =>
    cases s with
    | addCollection path => exact .register path
    | insert path record =>
      cases inserted : d.store.insert? path record with
      | none =>
        rw [act, step, inserted]
        exact .refl
      | some store =>
        rw [act, step, inserted]
        obtain ⟨key, own, rfl⟩ := Option.map_eq_some_iff.1 inserted
        exact .write (.inl own)
    | setSingleton path document => exact .setSingleton path document
    | prepare method path answer => exact .refl
    | execute r => exact d.alters_send .background r
  | send ctx r => exact d.alters_send ctx r
  | setDelay ms => exact .refl
  | forget => exact .refl

/-- Whatever was done to a device, its collections are in the order of their keys. -/
theorem keyed_acted (actions : List Action) : (acted actions).store.Keyed := by
  induction actions using List.reverseRecOn with
  | nil => exact Store.keyed_empty
  | append_singleton before a ih =>
    rw [acted_concat]
    exact ih.alters ((acted before).alters_act a)

end Device

end IControl
