import IControl.Proofs.Device.Effects

/-!
# Runs of a device

What can be done to a device: collections, records and singletons are put into
its store directly, answers are prepared, and requests are executed. A run is a
sequence of such steps from the empty device.
-/

namespace IControl.Device

inductive Step where
  | addCollection (path : String)
  | insert (path : String) (record : Json)
  | setSingleton (path : String) (document : Json)
  | prepare (method : Method) (path : String) (answer : Prepared)
  | execute (request : Request)

/-- One step. A record without a name is not inserted. -/
def step (d : Device) : Step → Device
  | .addCollection path => { d with store := d.store.addCollection path }
  | .insert path record =>
    match d.store.insert? path record with
    | some store => { d with store }
    | none => d
  | .setSingleton path document => { d with store := d.store.setSingleton path document }
  | .prepare method path answer => d.prepare method path answer
  | .execute request => (d.execute request).1

/-- The device after a run. -/
def run (steps : List Step) : Device := steps.foldl step {}

theorem run_concat (steps : List Step) (s : Step) : run (steps ++ [s]) = (run steps).step s := by
  rw [run, List.foldl_append]
  rfl

theorem store_execute (d : Device) (r : Request) : (d.execute r).1.store =
    match d.prepared? r, d.store.answer r with
    | none, .ok (next, _) => next
    | _, _ => d.store := by
  rcases d.execute_cases r with ⟨prepared, recorded⟩ | ⟨unprepared, failed | succeeded⟩
  · obtain ⟨canned, found⟩ := Option.isSome_iff_exists.1 prepared
    rw [recorded, found]
    rfl
  · obtain ⟨error, refused, executed⟩ := failed
    rw [executed, unprepared, refused]
    rfl
  · obtain ⟨next, text, answered, executed⟩ := succeeded
    rw [executed, unprepared, answered]

end IControl.Device
