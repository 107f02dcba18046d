import IControl.Device.Store
import IControl.Proofs.Json.Tree
import IControl.Proofs.Outcome

/-!
# What the operations of a store do

Each operation in terms of what can be looked up afterwards. A write puts one
record into one collection, with the members that the device assigns; the other
members of the record stay as they were sent, and so its key stays the same.
-/

namespace IControl

theorem recordKey?_congr {i j : Json} (name : i.textMember? "name" = j.textMember? "name")
    (partition : i.textMember? "partition" = j.textMember? "partition") :
    recordKey? i = recordKey? j := by
  rw [recordKey?, recordKey?, name, partition]

namespace Store

/-- The names of the members that a device assigns. -/
def assigned : List String := ["fullPath", "generation", "kind", "selfLink"]

/-- The full path that a device assigns; a record keeps its own without a name or partition. -/
def assignedPath? (members : Table Json) : Option Json :=
  match (Json.object members).textMember? "partition", (Json.object members).textMember? "name" with
  | some partition, some name => some (.string (fullPath partition name))
  | _, _ => members.value? "fullPath"

/-- What a device assigns to a record, by the names of the members. -/
theorem value?_stamped (path key : String) (generation : UInt64) (members : Table Json)
    (name : String) : (stamped path key generation members).value? name =
      if name = "selfLink" then some (.string (host ++ path ++ "/" ++ key))
      else if name = "kind" then
        (members.value? "kind").or (some (.string (kindTag path "state")))
      else if name = "generation" then some (.natural generation.toNat)
      else if name = "fullPath" then assignedPath? members
      else members.value? name := by
  unfold stamped
  extract_lets located counted tagged
  have placed : ∀ name, located.value? name =
      if name = "fullPath" then assignedPath? members else members.value? name := by
    intro name
    unfold located assignedPath?
    cases (Json.object members).textMember? "partition" with
    | none => split_ifs with same <;> simp_all
    | some partition =>
      cases (Json.object members).textMember? "name" with
      | none => split_ifs with same <;> simp_all
      | some named => exact Table.value?_put members _ name _
  have count : ∀ name, counted.value? name =
      if name = "generation" then some (.natural generation.toNat) else located.value? name :=
    fun name => Table.value?_put located _ name _
  have tag : ∀ name, tagged.value? name =
      if name = "kind" then (members.value? "kind").or (some (.string (kindTag path "state")))
      else counted.value? name := by
    intro name
    have own : counted.value? "kind" = members.value? "kind" := by simp [count, placed]
    unfold tagged
    rw [Table.has, own]
    cases present : members.value? "kind" with
    | none => simp [Table.value?_put]
    | some kind =>
      by_cases same : name = "kind"
      · simp [same, own, present]
      · simp [same]
  rw [Table.value?_put, tag, count, placed]

theorem member?_stamp (path key : String) (generation : UInt64) (record : Json) {name : String}
    (h : name ∉ assigned) : (stamp path key generation record).member? name = record.member? name := by
  cases record with
  | object members =>
    simp only [assigned, List.mem_cons, List.not_mem_nil, or_false, not_or] at h
    rw [stamp, Json.member?_object, Json.member?_object, value?_stamped]
    simp [h]
  | _ => rfl

theorem recordKey?_stamp (path key : String) (generation : UInt64) (record : Json) :
    recordKey? (stamp path key generation record) = recordKey? record :=
  recordKey?_congr (Json.textMember?_congr (member?_stamp path key generation record (by decide)))
    (Json.textMember?_congr (member?_stamp path key generation record (by decide)))

/-- A replacement has the identity of the record before, as far as that record has one. -/
theorem member?_withIdentityOf (before members : Table Json) (name : String) :
    (withIdentityOf (.object before) (.object members)).member? name =
      if name = "name" ∨ name = "partition" then (before.value? name).or (members.value? name)
      else members.value? name := by
  simp only [withIdentityOf, List.foldl_cons, List.foldl_nil, Json.member?_object]
  cases named : before.value? "name" <;> cases placed : before.value? "partition" <;>
    by_cases isName : name = "name" <;> by_cases isPartition : name = "partition" <;>
    simp_all [Table.value?_put]

/-! ### Writes -/

theorem collection?_write (s : Store) (path key : String) (record : Json) (other : String) :
    (s.write path key record).1.collection? other =
      if other = path then
        some (((s.collection? path).getD []).put key (stamp path key (s.generation + 1) record))
      else s.collection? other :=
  Table.value?_put s.collections path other _

theorem collection?_addCollection (s : Store) (path other : String) :
    (s.addCollection path).collection? other =
      if other = path then some ((s.collection? path).getD []) else s.collection? other := by
  unfold addCollection
  split
  · rename_i present
    obtain ⟨records, found⟩ := Option.isSome_iff_exists.1 present
    split_ifs with same
    · rw [same, collection?, found]
      rfl
    · rfl
  · rename_i absent
    have missing : s.collections.value? path = none := by simpa [Table.has] using absent
    rw [show s.collection? path = none from missing]
    exact Table.value?_put s.collections path other []

/-! ### Operations -/

/-- The collection that a path leads below, and what its last segment stands for there. -/
def below? (s : Store) (path : String) : Option (String × Option (String × Json)) := do
  let (parent, segment) ← splitInstance? path
  let records ← s.collection? parent
  some (parent, lookupSegment records segment)

theorem lookupSegment_bound {records : Table Json} {segment key : String} {record : Json}
    (h : lookupSegment records segment = some (key, record)) : records.value? key = some record := by
  unfold lookupSegment at h
  split at h
  · rename_i found
    obtain ⟨rfl, rfl⟩ := Prod.mk.inj (Option.some.inj h)
    exact found
  · split_ifs at h
    obtain ⟨found, bound, eq⟩ := Option.map_eq_some_iff.1 h
    obtain ⟨rfl, rfl⟩ := Prod.mk.inj eq
    exact bound

theorem below?_bound {s : Store} {path parent key : String} {record : Json}
    (h : s.below? path = some (parent, some (key, record))) :
    ∃ records, s.collection? parent = some records ∧ records.value? key = some record := by
  unfold below? at h
  obtain ⟨⟨collection, segment⟩, -, rest⟩ := Option.bind_eq_some_iff.1 h
  obtain ⟨records, found, eq⟩ := Option.bind_eq_some_iff.1 rest
  obtain ⟨rfl, bound⟩ := Prod.mk.inj (Option.some.inj eq)
  exact ⟨records, found, lookupSegment_bound bound⟩

theorem read_eq (s : Store) (path : String) : s.read path =
    match s.collection? path with
    | some records => .ok (listing path records)
    | none =>
      match s.below? path with
      | some (_, some (_, record)) => .ok record
      | some (_, none) => .error (notFound path)
      | none =>
        match s.singleton? path with
        | some document => .ok document
        | none => .error (notFound path) := by
  unfold read below?
  cases s.collection? path with
  | some records => rfl
  | none =>
    rcases splitInstance? path with _ | ⟨parent, segment⟩
    · rfl
    · cases found : s.collection? parent with
      | none => cases s.singleton? path <;> simp [found]
      | some records => cases bound : lookupSegment records segment <;> simp [found, bound]

theorem remove_eq (s : Store) (path : String) : s.remove path =
    match s.below? path with
    | some (parent, some (key, _)) => .ok { s with
        collections := s.collections.put parent (((s.collection? parent).getD []).without key) }
    | _ => .error (notFound path) := by
  unfold remove below?
  rcases splitInstance? path with _ | ⟨parent, segment⟩
  · rfl
  · cases found : s.collection? parent with
    | none => simp [found]
    | some records => cases bound : lookupSegment records segment <;> simp [found, bound]

theorem replace_eq (s : Store) (path : String) (body : Option String) : s.replace path body =
    (readBody path body).bind fun record =>
      match s.below? path with
      | some (parent, some (key, old)) => .ok (s.write parent key (withIdentityOf old record))
      | some (_, none) => .error (notFound path)
      | none =>
        match s.singleton? path with
        | some _ => .ok (s.setSingleton path record, record)
        | none => .error (notFound path) := rfl

theorem create_eq_ok_iff {s : Store} {path : String} {body : Option String} {out : Store × Json} :
    s.create path body = .ok out ↔ ∃ record key, readBody path body = .ok record ∧
      recordKey? record = some key ∧ ((s.collection? path).getD []).has key = false ∧
        out = s.write path key record := by
  unfold create
  constructor
  · intro h
    obtain ⟨record, sent, stored⟩ := bind_eq_ok_iff.1 h
    cases keyed : recordKey? record with
    | none => simp [keyed] at stored
    | some key =>
      cases present : ((s.collection? path).getD []).has key with
      | true => simp [keyed, present] at stored
      | false =>
        simp only [keyed, present, Bool.false_eq_true, if_false] at stored
        exact ⟨record, key, sent, keyed, present, (Except.ok.inj stored).symm⟩
  · rintro ⟨record, key, sent, keyed, present, rfl⟩
    refine bind_eq_ok_iff.2 ⟨record, sent, ?_⟩
    simp only [keyed, present, Bool.false_eq_true, if_false]

theorem replace_eq_ok_iff {s : Store} {path : String} {body : Option String} {out : Store × Json} :
    s.replace path body = .ok out ↔ ∃ record, readBody path body = .ok record ∧
      ((∃ parent key old, s.below? path = some (parent, some (key, old)) ∧
          out = s.write parent key (withIdentityOf old record)) ∨
        s.below? path = none ∧ (s.singleton? path).isSome ∧
          out = (s.setSingleton path record, record)) := by
  rw [replace_eq]
  refine bind_eq_ok_iff.trans (exists_congr fun record => and_congr_right fun _ => ?_)
  rcases s.below? path with _ | ⟨parent, _ | ⟨key, old⟩⟩
  · cases s.singleton? path <;> simp [eq_comm]
  · simp
  · constructor
    · intro h
      exact .inl ⟨parent, key, old, rfl, (Except.ok.inj h).symm⟩
    · rintro (⟨_, _, _, below, rfl⟩ | ⟨none, -⟩)
      · cases below
        rfl
      · exact nomatch none

theorem remove_eq_ok_iff {s next : Store} {path : String} :
    s.remove path = .ok next ↔ ∃ parent key record records,
      s.below? path = some (parent, some (key, record)) ∧ s.collection? parent = some records ∧
        next = { s with collections := s.collections.put parent (records.without key) } := by
  rw [remove_eq]
  rcases below : s.below? path with _ | ⟨parent, _ | ⟨key, record⟩⟩
  · simp
  · simp
  · obtain ⟨records, found, -⟩ := below?_bound below
    dsimp only
    rw [found, Option.getD_some]
    constructor
    · intro h
      exact ⟨parent, key, record, records, rfl, found, (Except.ok.inj h).symm⟩
    · rintro ⟨_, _, _, kept, bound, held, rfl⟩
      cases bound
      obtain rfl := Option.some.inj (found.symm.trans held)
      rfl

/-! ### Answers -/

theorem answer_get (s : Store) (path : String) (body : Option String) :
    s.answer ⟨.get, path, body⟩ = (s.read path).map fun document => (s, document.print) := by
  unfold answer
  cases s.read path <;> rfl

theorem answer_post (s : Store) (path : String) (body : Option String) :
    s.answer ⟨.post, path, body⟩ = (s.create path body).map fun w => (w.1, w.2.print) := by
  unfold answer
  cases s.create path body <;> rfl

theorem answer_put (s : Store) (path : String) (body : Option String) :
    s.answer ⟨.put, path, body⟩ = (s.replace path body).map fun w => (w.1, w.2.print) := by
  unfold answer
  cases s.replace path body <;> rfl

theorem answer_delete (s : Store) (path : String) (body : Option String) :
    s.answer ⟨.delete, path, body⟩ = (s.remove path).map fun next => (next, "") := by
  unfold answer
  cases s.remove path <;> rfl

theorem map_print_eq_ok_iff {x : Except ClientError (Store × Json)} {next : Store} {text : String} :
    x.map (fun w => (w.1, w.2.print)) = .ok (next, text) ↔
      ∃ record, x = .ok (next, record) ∧ text = record.print := by
  constructor
  · intro h
    obtain ⟨⟨written, record⟩, done, same⟩ := map_eq_ok_iff.1 h
    cases same
    exact ⟨record, done, rfl⟩
  · rintro ⟨record, done, rfl⟩
    rw [done]
    rfl

/-- What an answer is, by the method of the request. -/
theorem answer_eq_ok_iff {s next : Store} {r : Request} {text : String} :
    s.answer r = .ok (next, text) ↔
      match r.method with
      | .get => ∃ document, s.read r.path = .ok document ∧ next = s ∧ text = document.print
      | .post => ∃ record, s.create r.path r.body = .ok (next, record) ∧ text = record.print
      | .put => ∃ record, s.replace r.path r.body = .ok (next, record) ∧ text = record.print
      | .delete => s.remove r.path = .ok next ∧ text = ""
      | .other _ => False := by
  obtain ⟨method, path, body⟩ := r
  cases method with
  | get =>
    rw [answer_get, map_eq_ok_iff]
    refine exists_congr fun document => and_congr_right fun _ => ?_
    rw [Prod.mk.injEq, eq_comm, @eq_comm _ document.print]
  | post =>
    rw [answer_post]
    exact map_print_eq_ok_iff
  | put =>
    rw [answer_put]
    exact map_print_eq_ok_iff
  | delete =>
    rw [answer_delete, map_eq_ok_iff]
    constructor
    · rintro ⟨left, removed, same⟩
      cases same
      exact ⟨removed, rfl⟩
    · rintro ⟨removed, rfl⟩
      exact ⟨next, removed, rfl⟩
  | other name => exact ⟨nofun, nofun⟩

theorem eq_of_answer_get {s next : Store} {r : Request} {text : String} (get : r.method = .get)
    (h : s.answer r = .ok (next, text)) : next = s := by
  have answered := answer_eq_ok_iff.1 h
  rw [get] at answered
  obtain ⟨-, -, same, -⟩ := answered
  exact same

end Store

end IControl
