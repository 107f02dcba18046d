import IControl.Proofs.Device.Effects

/-!
# What one request changes

A request that is answered from the store changes one record, or the document of
one singleton, or nothing, and everything else stays. A record is added where
there was none, replaced where there was one, or removed; only adding a record
may register a collection, and removing the last record leaves its collection
registered. So an update never creates anything. Which record or singleton it is
follows from the path: a path below a collection is about a record of it, and
only a path below none can be about a singleton.
-/

namespace IControl

namespace Store

/-- The record under a key of a collection. -/
def recordAt? (s : Store) (path key : String) : Option Json :=
  (s.collection? path).bind fun records => records.value? key

/-- From one store to the next nothing changes but what one collection has under one key. -/
structure Changes (s next : Store) (path key : String) (before after : Option Json) : Prop where
  before_eq : s.recordAt? path key = before
  after_eq : next.recordAt? path key = after
  others : ∀ k, k ≠ key → next.recordAt? path k = s.recordAt? path k
  elsewhere : ∀ p, p ≠ path → next.collection? p = s.collection? p
  singletons : next.singletons = s.singletons

/-- From one store to the next nothing changes but the document of one singleton. -/
structure Resets (s next : Store) (path : String) (before after : Json) : Prop where
  before_eq : s.singleton? path = some before
  after_eq : next.singleton? path = some after
  others : ∀ p, p ≠ path → next.singleton? p = s.singleton? p
  collections : next.collections = s.collections
  generation : next.generation = s.generation

/-- What a request does to the store that answers it, by the method of the request. -/
def Effect (s : Store) (r : Request) (next : Store) : Prop :=
  match r.method with
  | .post => ∃ key record, s.Changes next r.path key none (some record) ∧
      next.generation = s.generation + 1
  | .put =>
      (∃ path key old record, s.below? r.path = some (path, some (key, old)) ∧
        s.Changes next path key (some old) (some record) ∧
        next.generation = s.generation + 1) ∨
      s.below? r.path = none ∧ ∃ old document, s.Resets next r.path old document
  | .delete => ∃ path key old, s.below? r.path = some (path, some (key, old)) ∧
      s.Changes next path key (some old) none ∧ (next.collection? path).isSome ∧
      next.generation = s.generation
  | .get | .other _ => next = s

theorem recordAt?_of_collection? {s : Store} {path : String} {records : Table Json}
    (found : s.collection? path = some records) (key : String) :
    s.recordAt? path key = records.value? key := by
  rw [recordAt?, found, Option.bind_some]

theorem value?_getD (s : Store) (path key : String) :
    ((s.collection? path).getD []).value? key = s.recordAt? path key := by
  rw [recordAt?]
  cases s.collection? path <;> rfl

theorem isSome_collection?_of_recordAt? {s : Store} {path key : String} {record : Json}
    (h : s.recordAt? path key = some record) : (s.collection? path).isSome := by
  obtain ⟨records, found, -⟩ := Option.bind_eq_some_iff.1 h
  rw [found]
  rfl

theorem recordAt?_of_below? {s : Store} {path parent key : String} {record : Json}
    (h : s.below? path = some (parent, some (key, record))) :
    s.recordAt? parent key = some record := by
  obtain ⟨records, found, bound⟩ := below?_bound h
  rw [recordAt?_of_collection? found, bound]

/-- Other records for a collection change one record when they differ under one key. -/
theorem changes_put {s : Store} {path key : String} {records : Table Json} (generation : UInt64)
    (others : ∀ k, k ≠ key → records.value? k = s.recordAt? path k) :
    s.Changes { s with collections := s.collections.put path records, generation } path key
      (s.recordAt? path key) (records.value? key) := by
  have lookup := Table.value?_put s.collections path
  have bound : ∀ k, recordAt? { s with collections := s.collections.put path records, generation }
      path k = records.value? k := by
    intro k
    rw [recordAt?, collection?, lookup, if_pos rfl, Option.bind_some]
  refine ⟨rfl, bound key, fun k other => (bound k).trans (others k other), fun p other => ?_, rfl⟩
  rw [collection?, lookup, if_neg other, collection?]

theorem Changes.recordAt?_eq {s next : Store} {path key : String} {before after : Option Json}
    (h : s.Changes next path key before after) {p k : String} (apart : ¬(p = path ∧ k = key)) :
    next.recordAt? p k = s.recordAt? p k := by
  by_cases same : p = path
  · subst same
    exact h.others k fun here => apart ⟨rfl, here⟩
  · rw [recordAt?, h.elsewhere p same, recordAt?]

theorem changes_write (s : Store) (path key : String) (record : Json) :
    s.Changes (s.write path key record).1 path key (s.recordAt? path key)
      (some (s.write path key record).2) := by
  have others : ∀ k, k ≠ key → (((s.collection? path).getD []).put key
      (s.write path key record).2).value? k = s.recordAt? path k := by
    intro k other
    rw [Table.value?_put_ne _ _ other, value?_getD]
  have change := changes_put (s.generation + 1) others
  rw [Table.value?_put_self] at change
  exact change

theorem resets_setSingleton {s : Store} {path : String} {old : Json}
    (present : s.singleton? path = some old) (document : Json) :
    s.Resets (s.setSingleton path document) path old document where
  before_eq := present
  after_eq := Table.value?_put_self s.singletons path document
  others _ other := Table.value?_put_ne s.singletons document other
  collections := rfl
  generation := rfl

/-- A request that is answered has the effect of its method. -/
theorem effect_of_answer {s next : Store} {r : Request} {text : String}
    (answered : s.answer r = .ok (next, text)) : s.Effect r next := by
  have effect := answer_eq_ok_iff.1 answered
  unfold Effect
  cases method : r.method with
  | get =>
    rw [method] at effect
    obtain ⟨-, -, same, -⟩ := effect
    exact same
  | post =>
    rw [method] at effect
    obtain ⟨stored, created, -⟩ := effect
    obtain ⟨record, key, -, -, absent, written⟩ := create_eq_ok_iff.1 created
    obtain ⟨rfl, rfl⟩ := Prod.mk.inj written
    have change := s.changes_write r.path key record
    have free : s.recordAt? r.path key = none := by
      rw [← value?_getD]
      exact Option.not_isSome_iff_eq_none.1 (Bool.eq_false_iff.1 absent)
    rw [free] at change
    exact ⟨key, _, change, rfl⟩
  | put =>
    rw [method] at effect
    obtain ⟨stored, replaced, -⟩ := effect
    obtain ⟨record, -, ⟨parent, key, old, below, written⟩ | ⟨below, present, set⟩⟩ :=
      replace_eq_ok_iff.1 replaced
    · obtain ⟨rfl, rfl⟩ := Prod.mk.inj written
      have change := s.changes_write parent key (withIdentityOf old record)
      rw [recordAt?_of_below? below] at change
      exact .inl ⟨parent, key, old, _, below, change, rfl⟩
    · obtain ⟨rfl, rfl⟩ := Prod.mk.inj set
      obtain ⟨old, document⟩ := Option.isSome_iff_exists.1 present
      exact .inr ⟨below, old, _, resets_setSingleton document _⟩
  | delete =>
    rw [method] at effect
    obtain ⟨parent, key, old, records, below, found, rfl⟩ := remove_eq_ok_iff.1 effect.1
    have kept : ∀ k, k ≠ key → (records.without key).value? k = s.recordAt? parent k := by
      intro k other
      rw [Table.value?_without, if_neg other, recordAt?_of_collection? found]
    have change := changes_put s.generation kept
    have registered : Table.value? (s.collections.put parent (records.without key)) parent =
        some (records.without key) := Table.value?_put_self _ _ _
    rw [recordAt?_of_below? below, Table.value?_without, if_pos rfl] at change
    exact ⟨parent, key, old, below, change, Option.isSome_of_eq_some registered, rfl⟩
  | other name =>
    rw [method] at effect
    exact effect.elim

namespace Effect

variable {s next : Store} {r : Request} (h : s.Effect r next)
include h

theorem eq_of_method (reads : r.method ∉ [Method.post, .put, .delete]) : next = s := by
  unfold Effect at h
  split at h
  · rename_i method
    exact absurd (by simp [method]) reads
  · rename_i method
    exact absurd (by simp [method]) reads
  · rename_i method
    exact absurd (by simp [method]) reads
  · exact h
  · exact h

/-- A request leaves the store as it was, adds a record at its path, changes a record that its path
stands for, or resets the singleton at its path. -/
theorem inversion :
    next = s ∨
    (r.method = .post ∧ ∃ key record, s.Changes next r.path key none (some record)) ∨
    ((r.method = .put ∨ r.method = .delete) ∧ ∃ path key old after,
      s.below? r.path = some (path, some (key, old)) ∧ s.Changes next path key (some old) after) ∨
    ∃ old document, s.Resets next r.path old document := by
  unfold Effect at h
  split at h
  · rename_i method
    obtain ⟨key, record, change, -⟩ := h
    exact .inr (.inl ⟨method, key, record, change⟩)
  · rename_i method
    rcases h with ⟨path, key, old, record, below, change, -⟩ | ⟨-, reset⟩
    · exact .inr (.inr (.inl ⟨.inl method, path, key, old, some record, below, change⟩))
    · exact .inr (.inr (.inr reset))
  · rename_i method
    obtain ⟨path, key, old, below, change, -⟩ := h
    exact .inr (.inr (.inl ⟨.inr method, path, key, old, none, below, change⟩))
  · exact .inl h
  · exact .inl h

/-- A request touches nothing but what is at its path or at the path right above, when that is a
collection. -/
theorem elsewhere : ∃ path, (path = r.path ∨ ∃ found, s.below? r.path = some (path, found)) ∧
    ∀ other, other ≠ path → next.collection? other = s.collection? other ∧
      next.singleton? other = s.singleton? other := by
  have changed : ∀ {path key before after}, s.Changes next path key before after →
      ∀ other, other ≠ path → next.collection? other = s.collection? other ∧
        next.singleton? other = s.singleton? other := by
    intro path key before after change other apart
    exact ⟨change.elsewhere other apart, congrArg (Table.value? · other) change.singletons⟩
  rcases h.inversion with rfl | ⟨-, key, record, change⟩ |
    ⟨-, path, key, old, after, below, change⟩ | ⟨old, document, reset⟩
  · exact ⟨r.path, .inl rfl, fun _ _ => ⟨rfl, rfl⟩⟩
  · exact ⟨r.path, .inl rfl, changed change⟩
  · exact ⟨path, .inr ⟨_, below⟩, changed change⟩
  · refine ⟨r.path, .inl rfl, fun other apart => ⟨?_, reset.others other apart⟩⟩
    rw [collection?, reset.collections, collection?]

theorem keeps {path key : String} {record : Json} (found : s.recordAt? path key = some record) :
    next.recordAt? path key = some record ∨ (r.method = .put ∨ r.method = .delete) ∧
      ∃ old, s.below? r.path = some (path, some (key, old)) := by
  rcases h.inversion with rfl | ⟨-, k, added, change⟩ |
    ⟨method, p, k, old, after, below, change⟩ | ⟨old, document, reset⟩
  · exact .inl found
  · refine .inl ((change.recordAt?_eq ?_).trans found)
    rintro ⟨rfl, rfl⟩
    exact nomatch found.symm.trans change.before_eq
  · by_cases same : path = p ∧ key = k
    · obtain ⟨rfl, rfl⟩ := same
      exact .inr ⟨method, old, below⟩
    · exact .inl ((change.recordAt?_eq same).trans found)
  · rw [recordAt?, collection?, reset.collections, ← collection?, ← recordAt?]
    exact .inl found

theorem isSome_collection? {path : String} (registered : (next.collection? path).isSome) :
    (s.collection? path).isSome ∨ r.method = .post ∧ path = r.path := by
  rcases h.inversion with rfl | ⟨method, key, record, change⟩ |
    ⟨-, p, key, old, after, -, change⟩ | ⟨old, document, reset⟩
  · exact .inl registered
  · by_cases same : path = r.path
    · exact .inr ⟨method, same⟩
    · exact .inl (change.elsewhere path same ▸ registered)
  · by_cases same : path = p
    · exact .inl (isSome_collection?_of_recordAt? (same ▸ change.before_eq))
    · exact .inl (change.elsewhere path same ▸ registered)
  · rw [collection?, reset.collections] at registered
    exact .inl registered

theorem isSome_singleton? {path : String} (registered : (next.singleton? path).isSome) :
    (s.singleton? path).isSome := by
  rcases h.inversion with rfl | ⟨-, key, record, change⟩ |
    ⟨-, p, key, old, after, -, change⟩ | ⟨old, document, reset⟩
  · exact registered
  · rwa [singleton?, change.singletons] at registered
  · rwa [singleton?, change.singletons] at registered
  · by_cases here : path = r.path
    · exact Option.isSome_of_eq_some (here ▸ reset.before_eq)
    · exact reset.others path here ▸ registered

end Effect

end Store

namespace Device

/-- Executing a request records it and changes the store at most. The store stays as it was unless it
answers the request itself, successfully, and the method is one that writes; and then the store
changes as the method says. -/
theorem execute_effect (d : Device) (r : Request) :
    (d.execute r).1 =
      { d with received := d.received ++ [r], store := (d.execute r).1.store } ∧
    ((d.prepared? r).isSome ∨ r.method ∉ [Method.post, .put, .delete] ∨
        (∃ error, (d.execute r).2 = .error error) → (d.execute r).1.store = d.store) ∧
    ∀ bytes, d.prepared? r = none → (d.execute r).2 = .ok bytes →
      d.store.Effect r (d.execute r).1.store := by
  rcases d.execute_cases r with ⟨prepared, recorded⟩ | ⟨unprepared, failed | succeeded⟩
  · rw [recorded]
    refine ⟨rfl, fun _ => rfl, fun _ unprepared _ => ?_⟩
    rw [unprepared] at prepared
    exact nomatch prepared
  · obtain ⟨error, -, executed⟩ := failed
    rw [executed]
    exact ⟨rfl, fun _ => rfl, fun _ _ reply => nomatch reply⟩
  · obtain ⟨next, text, answered, executed⟩ := succeeded
    have effect := Store.effect_of_answer answered
    rw [executed]
    refine ⟨rfl, ?_, fun _ _ _ => effect⟩
    rintro (prepared | reads | ⟨error, failed⟩)
    · rw [unprepared] at prepared
      exact nomatch prepared
    · exact effect.eq_of_method reads
    · exact nomatch failed

/-- A device with one folder. -/
def oneFolder : Device where
  store := { collections := [("/mgmt/tm/sys/folder", [("a", .object [("name", .string "a")])])] }

/-- The only folder is removed and its collection stays; a folder that is not there is not created by
an update. -/
theorem execute_effect_oneFolder :
    oneFolder.store.Effect ⟨.delete, "/mgmt/tm/sys/folder/a", none⟩
      (oneFolder.execute ⟨.delete, "/mgmt/tm/sys/folder/a", none⟩).1.store ∧
    (oneFolder.execute ⟨.put, "/mgmt/tm/sys/folder/b", some "\x7b\x7d"⟩).1.store =
      oneFolder.store := by
  have removed : (oneFolder.execute ⟨.delete, "/mgmt/tm/sys/folder/a", none⟩).2 = .ok [] := by
    decide +kernel
  have refused : (oneFolder.execute ⟨.put, "/mgmt/tm/sys/folder/b", some "\x7b\x7d"⟩).2 =
      .error (Store.notFound "/mgmt/tm/sys/folder/b") := by
    decide +kernel
  have first := oneFolder.execute_effect ⟨.delete, "/mgmt/tm/sys/folder/a", none⟩
  have second := oneFolder.execute_effect ⟨.put, "/mgmt/tm/sys/folder/b", some "\x7b\x7d"⟩
  exact ⟨first.2.2 [] rfl removed, second.2.1 (.inr (.inr ⟨_, refused⟩))⟩

end Device

end IControl
