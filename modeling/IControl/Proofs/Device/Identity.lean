import IControl.Proofs.Device.Run
import IControl.Proofs.Name
import Mathlib.Data.List.Induction

/-!
# Records and the keys they are stored under

A store is *identified* when every record carries the name and the partition that
make its key. Registering, inserting, creating and removing keep a store
identified. A replacement takes the name and the partition over from the record
before, but only as far as that record has them: one that was stored without a
partition takes the partition of the body, and from then on it lies under a key
that is not its own. No other step does this.
-/

namespace IControl

namespace Store

/-- Every record of a collection carries its key. -/
def Identified (s : Store) : Prop :=
  ∀ path records key record, s.collection? path = some records →
    records.value? key = some record → recordKey? record = some key

theorem identified_empty : Identified {} := fun _ _ _ _ found => nomatch found

/-- No two records of one collection carry the same partition and name. -/
def NamesApart (s : Store) : Prop :=
  ∀ path records k l a b, s.collection? path = some records → records.value? k = some a →
    records.value? l = some b → a.textMember? "name" = b.textMember? "name" →
      a.textMember? "partition" = b.textMember? "partition" → k = l

theorem Identified.namesApart {s : Store} (h : s.Identified) : s.NamesApart := by
  intro path records k l a b found ha hb name partition
  have same := recordKey?_congr name partition
  rw [h path records k a found ha, h path records l b found hb] at same
  exact Option.some.inj same

theorem Identified.addCollection {s : Store} (h : s.Identified) (path : String) :
    (s.addCollection path).Identified := by
  intro other records key record found bound
  rw [collection?_addCollection] at found
  split_ifs at found with same
  · obtain rfl := Option.some.inj found
    cases present : s.collection? path with
    | none =>
      rw [present] at bound
      exact nomatch bound
    | some records =>
      rw [present] at bound
      exact h path records key record present bound
  · exact h other records key record found bound

/-- A write keeps a store identified exactly when it writes a record under its own key. -/
theorem Identified.write_iff {s : Store} (h : s.Identified) (path key : String) (record : Json) :
    (s.write path key record).1.Identified ↔ recordKey? record = some key := by
  constructor
  · intro identified
    have carried := identified path _ key _ (by rw [collection?_write, if_pos rfl])
      (Table.value?_put_self _ key _)
    rwa [recordKey?_stamp] at carried
  · intro carried other records l stored found bound
    rw [collection?_write] at found
    split_ifs at found with same
    · obtain rfl := Option.some.inj found
      rw [Table.value?_put] at bound
      split_ifs at bound with sameKey
      · rw [← Option.some.inj bound, recordKey?_stamp, carried, sameKey]
      · cases present : s.collection? path with
        | none =>
          rw [present] at bound
          exact nomatch bound
        | some records =>
          rw [present] at bound
          exact h path records l stored present bound
    · exact h other records l stored found bound

theorem Identified.remove {s next : Store} (h : s.Identified) {path : String}
    (removed : s.remove path = .ok next) : next.Identified := by
  obtain ⟨parent, key, -, records, -, found, rfl⟩ := remove_eq_ok_iff.1 removed
  intro other kept l stored held bound
  have lookup := Table.value?_put s.collections parent other (records.without key)
  rw [collection?, lookup] at held
  split_ifs at held with same
  · obtain rfl := Option.some.inj held
    rw [Table.value?_without] at bound
    split_ifs at bound
    exact h parent records l stored found bound
  · exact h other kept l stored held bound

theorem textMember?_withIdentityOf {before members : Table Json} {name : String}
    (h : name = "name" ∨ name = "partition") :
    (withIdentityOf (.object before) (.object members)).textMember? name =
      if (before.value? name).isSome then (Json.object before).textMember? name
      else (Json.object members).textMember? name := by
  rw [Json.textMember?, member?_withIdentityOf, if_pos h]
  cases carried : before.value? name with
  | none => simp [Json.textMember?, Json.member?]
  | some x => simp [Json.textMember?, Json.member?, carried]

theorem name_withIdentityOf {before members : Table Json} {key : String}
    (carried : recordKey? (.object before) = some key) :
    (withIdentityOf (.object before) (.object members)).textMember? "name" =
      (Json.object before).textMember? "name" := by
  obtain ⟨name, named, -⟩ := Option.bind_eq_some_iff.1 carried
  obtain ⟨x, present, -⟩ := Option.bind_eq_some_iff.1 named
  have isNamed : (before.value? "name").isSome := Option.isSome_iff_exists.2 ⟨x, present⟩
  rw [textMember?_withIdentityOf (.inl rfl), if_pos isNamed]

/-- A replacement has the partition of the record before, unless that record has none and the
replacement brings one. -/
theorem partition_withIdentityOf {before members : Table Json}
    (kept : ¬(before.value? "partition" = none ∧
      ((Json.object members).textMember? "partition").isSome)) :
    (withIdentityOf (.object before) (.object members)).textMember? "partition" =
      (Json.object before).textMember? "partition" := by
  rw [textMember?_withIdentityOf (.inr rfl)]
  cases placed : before.value? "partition" with
  | some x => simp
  | none =>
    have brings : (Json.object members).textMember? "partition" = none := by simpa [placed] using kept
    have had : (Json.object before).textMember? "partition" = none := by
      simp [Json.textMember?, Json.member?, placed]
    simp [brings, had]

/-- A replacement carries the key of the record before, unless that record has no partition and the
replacement brings one. -/
theorem recordKey?_withIdentityOf {before members : Table Json} {key : String}
    (carried : recordKey? (.object before) = some key) :
    recordKey? (withIdentityOf (.object before) (.object members)) = some key ↔
      ¬(before.value? "partition" = none ∧
        ((Json.object members).textMember? "partition").isSome) := by
  have name := @name_withIdentityOf before members key carried
  constructor
  · rintro same ⟨placed, brings⟩
    obtain ⟨partition, brought⟩ := Option.isSome_iff_exists.1 brings
    have had : (Json.object before).textMember? "partition" = none := by
      simp [Json.textMember?, Json.member?, placed]
    have new : (withIdentityOf (.object before) (.object members)).textMember? "partition" =
        some partition := by
      rw [textMember?_withIdentityOf (.inr rfl), placed, Option.isSome_none,
        if_neg Bool.false_ne_true, brought]
    obtain ⟨text, named, rest⟩ := Option.bind_eq_some_iff.1 carried
    rw [had] at rest
    rw [recordKey?, name, named, new, ← rest] at same
    exact encodeInstance_fullPath_ne partition text (Option.some.inj same)
  · intro kept
    rw [recordKey?_congr name (partition_withIdentityOf kept), carried]

/-- The records of every collection keep their names and partitions from one store to the next. -/
def KeepsIdentity (s next : Store) : Prop :=
  ∀ path records key record, s.collection? path = some records →
    records.value? key = some record → ∃ after replaced, next.collection? path = some after ∧
      after.value? key = some replaced ∧
      replaced.textMember? "name" = record.textMember? "name" ∧
      replaced.textMember? "partition" = record.textMember? "partition"

/-- Does a replacement give a partition to a record that was stored without one? -/
def repartitions (s : Store) (path : String) (body : Option String) : Bool :=
  match s.below? path, readBody path body with
  | some (_, some (_, old)), .ok record =>
    (old.member? "partition").isNone && (record.textMember? "partition").isSome
  | _, _ => false

theorem replace_of_repartitions {s : Store} {path : String} {body : Option String}
    (h : s.repartitions path body = true) : ∃ out, s.replace path body = .ok out := by
  unfold repartitions at h
  split at h
  · rename_i parent key old record below sent
    exact ⟨_, replace_eq_ok_iff.2 ⟨record, sent, .inl ⟨parent, key, old, below, rfl⟩⟩⟩
  · exact nomatch h

theorem Identified.insert {s next : Store} (h : s.Identified) {path : String} {record : Json}
    (inserted : s.insert? path record = some next) : next.Identified := by
  obtain ⟨key, carried, rfl⟩ := Option.map_eq_some_iff.1 inserted
  exact (h.write_iff path key record).2 carried

theorem Identified.create {s next : Store} (h : s.Identified) {path : String}
    {body : Option String} {stored : Json} (created : s.create path body = .ok (next, stored)) :
    next.Identified := by
  obtain ⟨record, key, -, carried, -, written⟩ := create_eq_ok_iff.1 created
  have identified := (h.write_iff path key record).2 carried
  rwa [← written] at identified

theorem eq_object_of_recordKey? {record : Json} {key : String} (h : recordKey? record = some key) :
    ∃ members, record = .object members := by
  obtain ⟨name, named, -⟩ := Option.bind_eq_some_iff.1 h
  obtain ⟨x, carried, -⟩ := Option.bind_eq_some_iff.1 named
  exact Json.eq_object_of_member? carried

/-- A replacement keeps a store identified unless it gives a partition to a record without one. -/
theorem Identified.replace_iff {s next : Store} (h : s.Identified) {path : String}
    {body : Option String} {stored : Json}
    (object : ∀ record, readBody path body = .ok record → ∃ members, record = .object members)
    (replaced : s.replace path body = .ok (next, stored)) :
    next.Identified ↔ s.repartitions path body = false := by
  obtain ⟨record, sent, ⟨parent, key, old, below, written⟩ | ⟨below, -, set⟩⟩ :=
    replace_eq_ok_iff.1 replaced
  · obtain ⟨records, found, bound⟩ := below?_bound below
    have carried := h parent records key old found bound
    obtain ⟨before, rfl⟩ := eq_object_of_recordKey? carried
    obtain ⟨members, rfl⟩ := object record sent
    have identified := h.write_iff parent key (withIdentityOf (.object before) (.object members))
    rw [← written] at identified
    rw [identified, recordKey?_withIdentityOf carried, repartitions, below, sent]
    simp [Json.member?_object]
  · obtain ⟨rfl, -⟩ := Prod.mk.inj set
    rw [repartitions, below]
    exact iff_of_true h rfl

theorem Identified.keepsIdentity {s next : Store} (h : s.Identified) {path : String}
    {body : Option String} {stored : Json}
    (object : ∀ record, readBody path body = .ok record → ∃ members, record = .object members)
    (replaced : s.replace path body = .ok (next, stored))
    (kept : s.repartitions path body = false) : s.KeepsIdentity next := by
  intro other records key record found bound
  obtain ⟨sentRecord, sent, ⟨parent, changed, old, below, written⟩ | ⟨below, -, set⟩⟩ :=
    replace_eq_ok_iff.1 replaced
  · obtain rfl : next = (s.write parent changed (withIdentityOf old sentRecord)).1 :=
      congrArg Prod.fst written
    rw [collection?_write]
    by_cases sameParent : other = parent
    · subst sameParent
      rw [if_pos rfl, found]
      by_cases sameKey : key = changed
      · subst sameKey
        refine ⟨_, _, rfl, Table.value?_put_self _ _ _, ?_⟩
        obtain ⟨held, foundOld, boundOld⟩ := below?_bound below
        obtain rfl := Option.some.inj (found.symm.trans foundOld)
        obtain rfl := Option.some.inj (bound.symm.trans boundOld)
        have carried := h other records key record found bound
        obtain ⟨before, rfl⟩ := eq_object_of_recordKey? carried
        obtain ⟨members, rfl⟩ := object sentRecord sent
        rw [repartitions, below, sent] at kept
        constructor
        · rw [Json.textMember?_congr (member?_stamp _ _ _ _ (by decide))]
          exact name_withIdentityOf carried
        · rw [Json.textMember?_congr (member?_stamp _ _ _ _ (by decide))]
          exact partition_withIdentityOf (by simpa [Json.member?_object] using kept)
      · refine ⟨_, record, rfl, ?_, rfl, rfl⟩
        rw [Table.value?_put_ne _ _ sameKey]
        exact bound
    · rw [if_neg sameParent]
      exact ⟨records, record, found, bound, rfl, rfl⟩
  · obtain ⟨rfl, -⟩ := Prod.mk.inj set
    exact ⟨records, record, found, bound, rfl, rfl⟩

end Store

namespace Device

/-- Does the step give a partition to a record that was stored without one? It is a replacement that
the store answers. -/
def repartitions (d : Device) : Step → Bool
  | .execute r =>
    r.method == .put && (d.prepared? r).isNone && d.store.repartitions r.path r.body
  | _ => false

/-- Is the body of the request an object, if it is a document at all? -/
def Step.sendsObject : Step → Bool
  | .execute r =>
    match r.body.bind Json.ofText? with
    | none | some (.object _) => true
    | some _ => false
  | _ => true

theorem Step.readBody_object {r : Request} (h : (Step.execute r).sendsObject = true) (record : Json)
    (sent : Store.readBody r.path r.body = .ok record) : ∃ members, record = .object members := by
  unfold Store.readBody at sent
  cases body : r.body with
  | none => simp [body] at sent
  | some text =>
    cases document : Json.ofText? text with
    | none => simp [body, document] at sent
    | some found =>
      simp only [body, document] at sent
      obtain rfl := Except.ok.inj sent
      cases found with
      | object members => exact ⟨members, rfl⟩
      | _ => simp [sendsObject, body, document] at h

/-- A request that the store answers keeps it identified unless it is a replacement that gives a
partition to a record without one. -/
theorem identified_answer_iff {s next : Store} (h : s.Identified) {r : Request} {text : String}
    (object : (Step.execute r).sendsObject = true) (answered : s.answer r = .ok (next, text)) :
    next.Identified ↔ (r.method == .put && s.repartitions r.path r.body) = false := by
  have effect := Store.answer_eq_ok_iff.1 answered
  cases method : r.method with
  | get =>
    rw [method] at effect
    obtain ⟨-, -, rfl, -⟩ := effect
    exact iff_of_true h rfl
  | post =>
    rw [method] at effect
    obtain ⟨record, created, -⟩ := effect
    exact iff_of_true (h.create created) rfl
  | put =>
    rw [method] at effect
    obtain ⟨record, replaced, -⟩ := effect
    exact h.replace_iff (Step.readBody_object object) replaced
  | delete =>
    rw [method] at effect
    exact iff_of_true (h.remove effect.1) rfl
  | other name =>
    rw [method] at effect
    exact effect.elim

theorem repartitions_of_refused {s : Store} {r : Request} {error : ClientError}
    (refused : s.answer r = .error error) :
    (r.method == .put && s.repartitions r.path r.body) = false := by
  refine Bool.eq_false_iff.2 fun changes => ?_
  rw [Bool.and_eq_true, beq_iff_eq] at changes
  obtain ⟨out, replaced⟩ := Store.replace_of_repartitions changes.2
  have reply := @Store.answer_eq_ok_iff s out.1 r out.2.print
  rw [changes.1] at reply
  exact nomatch refused.symm.trans (reply.2 ⟨out.2, replaced, rfl⟩)

/-- One step keeps a store identified exactly when it does not give a partition to a record that was
stored without one. -/
theorem identified_step_iff {d : Device} (h : d.store.Identified) {s : Step}
    (object : s.sendsObject = true) :
    (d.step s).store.Identified ↔ d.repartitions s = false := by
  cases s with
  | addCollection path => exact iff_of_true (h.addCollection path) rfl
  | insert path record =>
    refine iff_of_true ?_ rfl
    cases inserted : d.store.insert? path record with
    | none => simpa only [step, inserted] using h
    | some store => simpa only [step, inserted] using h.insert inserted
  | setSingleton path document => exact iff_of_true h rfl
  | prepare method path answer => exact iff_of_true h rfl
  | execute r =>
    have executed : (d.step (.execute r)).store = _ := d.store_execute r
    rw [executed, repartitions]
    cases prepared : d.prepared? r with
    | some answer => exact iff_of_true h (by simp)
    | none =>
      rw [Option.isNone_none, Bool.and_true]
      cases answered : d.store.answer r with
      | error error => exact iff_of_true h (repartitions_of_refused answered)
      | ok reply => exact identified_answer_iff h object answered

theorem keepsIdentity_put {d : Device} (h : d.store.Identified) {r : Request} (put : r.method = .put)
    (object : (Step.execute r).sendsObject = true) (kept : d.repartitions (.execute r) = false) :
    d.store.KeepsIdentity (d.step (.execute r)).store := by
  have same : d.store.KeepsIdentity d.store := fun _ records _ record found bound =>
    ⟨records, record, found, bound, rfl, rfl⟩
  have executed : (d.step (.execute r)).store = _ := d.store_execute r
  rw [executed]
  cases prepared : d.prepared? r with
  | some answer => exact same
  | none =>
    cases answered : d.store.answer r with
    | error error => exact same
    | ok reply =>
      obtain ⟨next, text⟩ := reply
      have effect := Store.answer_eq_ok_iff.1 answered
      rw [put] at effect
      obtain ⟨record, replaced, -⟩ := effect
      rw [repartitions, put, prepared] at kept
      exact h.keepsIdentity (Step.readBody_object object) replaced (by simpa using kept)

/-- The store is identified all along a run exactly when no step of the run gives a partition to a
record that was stored without one. In such a run no two records of a collection ever carry the same
partition and name, and a replacement changes the partition and the name of none. -/
theorem identified_run_iff (steps : List Step) (objects : ∀ s ∈ steps, s.sendsObject = true) :
    ((∀ before, before <+: steps → (run before).store.Identified) ↔
      ∀ before s, before ++ [s] <+: steps → (run before).repartitions s = false) ∧
    ((∀ before s, before ++ [s] <+: steps → (run before).repartitions s = false) →
      (∀ before, before <+: steps → (run before).store.NamesApart) ∧
      ∀ before r, before ++ [.execute r] <+: steps → r.method = .put →
        (run before).store.KeepsIdentity (run (before ++ [.execute r])).store) := by
  have object : ∀ before s, before ++ [s] <+: steps → s.sendsObject = true := fun before s inside =>
    objects s (inside.subset (by simp))
  have shorter : ∀ before s, before ++ [s] <+: steps → before <+: steps := fun before s inside =>
    (List.prefix_append before [s]).trans inside
  have identified : (∀ before s, before ++ [s] <+: steps → (run before).repartitions s = false) →
      ∀ before, before <+: steps → (run before).store.Identified := by
    intro kept before inside
    induction before using List.reverseRecOn with
    | nil => exact Store.identified_empty
    | append_singleton before s ih =>
      rw [run_concat]
      exact (identified_step_iff (ih (shorter before s inside)) (object before s inside)).2
        (kept before s inside)
  refine ⟨⟨fun h before s inside => ?_, identified⟩, fun kept => ⟨?_, ?_⟩⟩
  · have next := h (before ++ [s]) inside
    rw [run_concat] at next
    exact (identified_step_iff (h before (shorter before s inside)) (object before s inside)).1 next
  · intro before inside
    exact (identified kept before inside).namesApart
  · intro before r inside put
    rw [run_concat]
    exact keepsIdentity_put (identified kept before (shorter before _ inside)) put
      (object before _ inside) (kept before _ inside)

/-- A folder is created in a partition, and its replacement names another one. -/
def keepingRun : List Step :=
  [.addCollection "/mgmt/tm/sys/folder",
   .execute ⟨.post, "/mgmt/tm/sys/folder",
     some "\x7b\"name\":\"a\",\"partition\":\"Common\"\x7d"⟩,
   .execute ⟨.put, "/mgmt/tm/sys/folder/~Common~a", some "\x7b\"partition\":\"Other\"\x7d"⟩]

theorem identified_run_keeping : (run keepingRun).store.Identified ∧
    (run keepingRun).store.NamesApart := by
  have objects : ∀ s ∈ keepingRun, s.sendsObject = true := by decide +kernel
  have kept : ∀ before s, before ++ [s] <+: keepingRun → (run before).repartitions s = false := by
    rintro before s ⟨rest, steps⟩
    match before, steps with
    | [], steps =>
      cases steps
      rfl
    | [_], steps =>
      cases steps
      rfl
    | [_, _], steps =>
      cases steps
      decide +kernel
    | _ :: _ :: _ :: before, steps =>
      have lengths := congrArg List.length steps
      simp [keepingRun] at lengths
  have whole := identified_run_iff keepingRun objects
  exact ⟨whole.1.2 kept keepingRun (List.prefix_refl _), (whole.2 kept).1 _ (List.prefix_refl _)⟩

/-- A folder is created without a partition, and its replacement brings one. -/
def repartitioningRun : List Step :=
  [.addCollection "/mgmt/tm/sys/folder",
   .execute ⟨.post, "/mgmt/tm/sys/folder", some "\x7b\"name\":\"a\"\x7d"⟩,
   .execute ⟨.put, "/mgmt/tm/sys/folder/a", some "\x7b\"partition\":\"Common\"\x7d"⟩]

/-- After that the folder lies under the key `a` and carries the key `~Common~a`. -/
theorem not_identified_repartitioning : ¬(run repartitioningRun).store.Identified := by
  intro identified
  have carried : ((run repartitioningRun).store.collection? "/mgmt/tm/sys/folder").bind
      (fun records => (records.value? "a").map recordKey?) = some (some "~Common~a") := by
    decide +kernel
  obtain ⟨records, found, bound⟩ := Option.bind_eq_some_iff.1 carried
  obtain ⟨record, stored, key⟩ := Option.map_eq_some_iff.1 bound
  rw [identified _ records "a" record found stored] at key
  exact absurd key (by decide)

end Device

end IControl
