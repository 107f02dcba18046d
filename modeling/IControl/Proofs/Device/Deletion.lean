import IControl.Proofs.Device.Records

/-!
# What a removal leaves

A removal takes away the one record that its name stands for. What the name stands
for afterwards depends on what was behind that record: a name without a partition
reaches the record of `Common` only while there is none under its own segment. So
the removal is final, or it brings the record of `Common` to light, and then the
next removal is final.
-/

namespace IControl

namespace Store

/-- The record of `Common` that a name does not reach because there is one under its own segment. -/
def behind? (s : Store) (path name : String) : Option Json :=
  if IsQualified name ∨ s.recordAt? path (encodeInstance name) = none then none
  else s.recordAt? path (commonKey name)

section
variable {s : Store} {path name key : String} {record : Json}
  (bound : s.binding? path name = some (key, record))
include bound

theorem recordAt?_without_own : (s.without path key).recordAt? path (encodeInstance name) = none := by
  have change := s.changes_without path key
  by_cases same : encodeInstance name = key
  · rw [same, change.after_eq]
  · rw [change.others _ same]
    rw [binding?_eq] at bound
    cases own : s.recordAt? path (encodeInstance name) with
    | none => rfl
    | some found =>
      rw [own] at bound
      exact absurd (Prod.mk.inj (Option.some.inj bound)).1 same

/-- With the record that it stood for a name loses its meaning, unless there is one behind. -/
theorem binding?_without : (s.without path key).binding? path name =
    (s.behind? path name).map (commonKey name, ·) := by
  have change := s.changes_without path key
  rw [binding?_eq, recordAt?_without_own bound, behind?]
  rw [binding?_eq] at bound
  cases own : s.recordAt? path (encodeInstance name) with
  | some found =>
    rw [own] at bound
    obtain ⟨rfl, -⟩ := Prod.mk.inj (Option.some.inj bound)
    rw [change.others _ (commonKey_ne name)]
    by_cases qualified : IsQualified name <;> simp [qualified]
  | none =>
    rw [own] at bound
    split_ifs at bound with qualified
    obtain ⟨found, -, eq⟩ := Option.map_eq_some_iff.1 bound
    obtain ⟨rfl, -⟩ := Prod.mk.inj eq
    rw [change.after_eq]
    simp

theorem behind?_without : (s.without path key).behind? path name = none :=
  if_pos (.inr (recordAt?_without_own bound))

end

end Store

namespace Device

variable {k : Kind} {name : String} {ctx : RequestContext}

/-- A removal that succeeds takes the record away that the name stands for. -/
theorem store_of_deleted {d next : Device} (tidy : d.Tidy)
    (deleted : (⟨ctx⟩ : Client k.resource).call transport d (.delete name) =
      (next, some (.ok ()))) :
    addressesInstance name = true ∧ ∃ key record,
      d.store.binding? k.path.text name = some (key, record) ∧
        next.store = d.store.without k.path.text key := by
  have success := congrArg Prod.snd deleted
  have addresses := addresses_of_ok rfl success
  rw [call_of_ok success] at deleted
  have patient := RequestContext.cut?_background d.delay
  cases bound : d.store.binding? k.path.text name with
  | none =>
    rw [(tidy.misses patient addresses bound).delete] at deleted
    exact nomatch Option.some.inj (Prod.mk.inj deleted).2
  | some b =>
    rw [(tidy.finds patient addresses bound).delete] at deleted
    obtain ⟨rfl, -⟩ := Prod.mk.inj deleted
    exact ⟨addresses, b.1, b.2, rfl, rfl⟩

theorem Tidy.called {d : Device} (tidy : d.Tidy) {op : Operation k.resource.shape}
    (offered : k.resource.offers op = true) (ctx : RequestContext) :
    ((⟨ctx⟩ : Client k.resource).call transport d op).1.Tidy ∧
      ((⟨ctx⟩ : Client k.resource).call transport d op).1.delay = d.delay := by
  obtain ⟨after, delay, -⟩ := tidy.run (.on k op offered) ctx
  exact ⟨after, delay⟩

theorem store_get (d : Device) (ctx : RequestContext) :
    ((⟨ctx⟩ : Client k.resource).call transport d (.get name)).1.store = d.store := by
  by_contra changed
  have writes := (((d.call_effect ctx).1 k.resource (.get name) _ rfl).2.2 changed).1
  simp [Operation.verb] at writes

/-- After a removal that succeeded, and after the name was read once more, the name stands for nothing,
or for the record of `Common` that was behind the one that is gone. In this case the next removal
leaves nothing that the name could stand for. -/
theorem resolves_after_delete {delay : Nat} (events : List Event) (deletable : k.isDeletable = true)
    {next : Device}
    (deleted : (⟨ctx⟩ : Client k.resource).call transport (history delay events) (.delete name) =
      (next, some (.ok ())))
    {reader : RequestContext} (patient : reader.cut? (some delay) = none) :
    ∀ d ∈ [next, ((⟨reader⟩ : Client k.resource).call transport next (.get name)).1],
      ((history delay events).store.behind? k.path.text name = none → d.Misses k reader name) ∧
      ∀ record, (history delay events).store.behind? k.path.text name = some record →
        d.Finds k reader name (commonKey name) record ∧
        ((⟨reader⟩ : Client k.resource).call transport d (.delete name)).1.Misses k reader name := by
  obtain ⟨before, waits⟩ := tidy_history delay events
  obtain ⟨addresses, key, record, bound, removed⟩ := store_of_deleted before deleted
  have form := Kind.form_of_isDeletable deletable
  have reads : k.resource.offers (.get name) = true := by
    simp [Resource.offers, Kind.resource, Kind.verbs, Operation.form, Operation.verb, form]
  have removes : k.resource.offers (.delete name) = true := by
    simp [Resource.offers, Kind.resource, Kind.verbs, Operation.form, Operation.verb, form, deletable]
  obtain ⟨after, same⟩ := before.called removes ctx
  rw [deleted] at after same
  intro d inside
  have left : d.Tidy ∧ d.delay = delay ∧ d.store = next.store := by
    simp only [List.mem_cons, List.not_mem_nil, or_false] at inside
    rcases inside with rfl | rfl
    · exact ⟨after, same.trans waits, rfl⟩
    · obtain ⟨tidy, kept⟩ := after.called reads reader
      exact ⟨tidy, kept.trans (same.trans waits), store_get next reader⟩
  obtain ⟨tidy, delays, store⟩ := left
  have meaning := Store.binding?_without bound
  rw [← removed, ← store] at meaning
  constructor
  · intro final
    rw [final, Option.map_none] at meaning
    exact tidy.misses (delays ▸ patient) addresses meaning
  · intro common behind
    rw [behind, Option.map_some] at meaning
    have finds := tidy.finds (delays ▸ patient) addresses meaning
    obtain ⟨last, kept⟩ := tidy.called removes reader
    refine ⟨finds, last.misses (kept.trans delays ▸ patient) addresses ?_⟩
    -- Nothing is under the name's own segment any more, so there is nothing behind.
    have nothing := Store.behind?_without bound
    rw [← removed, ← store] at nothing
    rw [finds.delete]
    exact (Store.binding?_without meaning).trans (by rw [nothing, Option.map_none])

/-- A folder without a partition and one of the same name in `Common`. -/
def twins : List Event :=
  [.creating .folder (.named "a") rfl,
    .creating .folder ((Metadata.named "a").inPartition "Common") rfl]

def folderClient : Client Kind.folder.resource := ⟨.background⟩

/-- The device after the removal of the folder without a partition. -/
def widowed : Device := (folderClient.call transport (history 0 twins) (.delete "a")).1

/-- A removal that succeeds need not be final: the name then finds the folder in `Common`, and the next
removal succeeds too. -/
theorem found_after_delete :
    (folderClient.call transport (history 0 twins) (.delete "a")).2 = some (.ok ()) ∧
    (folderClient.call transport widowed (.get "a")).2.result?.isSome = true ∧
    (folderClient.call transport widowed (.delete "a")).2 = some (.ok ()) := by
  decide +kernel

/-- The folder in `Common` was behind the one that is gone, and it can be removed in its turn. -/
theorem resolves_after_delete_twins :
    ∃ record, (history 0 twins).store.behind? Kind.folder.path.text "a" = some record ∧
      widowed.Finds .folder .background "a" "~Common~a" record ∧
      (folderClient.call transport widowed (.delete "a")).1.Misses .folder .background "a" := by
  have success : (folderClient.call transport (history 0 twins) (.delete "a")).2 = some (.ok ()) := by
    decide +kernel
  have deleted : folderClient.call transport (history 0 twins) (.delete "a") =
      (widowed, some (.ok ())) := by
    rw [widowed, ← success]
  have patient : RequestContext.background.cut? (some 0) = none := rfl
  have present : ((history 0 twins).store.behind? Kind.folder.path.text "a").isSome = true := by
    decide +kernel
  obtain ⟨record, behind⟩ := Option.isSome_iff_exists.1 present
  have resolved := resolves_after_delete (k := .folder) twins (by decide) deleted patient
  have key : commonKey "a" = "~Common~a" := by decide +kernel
  rw [← key]
  exact ⟨record, behind, (resolved widowed List.mem_cons_self).2 record behind⟩

end Device

end IControl
