import IControl.Proofs.Device.Frame
import IControl.Proofs.Device.Run
import Mathlib.Data.List.Induction

/-!
# What a device assigns

A device assigns a link, a type, a full path and a generation to each record that
it stores, whatever the record brings for them. The generation is the number of
the write, so a record that is written has a greater one than all others, and no
two records have the same. Records are written by insertions and by the requests
that create or replace them; everything else can only take records away. The
counter has 64 bits, so this holds up to as many writes.
-/

namespace IControl

namespace Store

theorem generation_write {s : Store} (room : s.generation.toNat + 1 < UInt64.size) (path key : String)
    (record : Json) : (s.write path key record).1.generation.toNat = s.generation.toNat + 1 := by
  have sum : (s.generation + 1).toNat = (s.generation.toNat + 1) % UInt64.size :=
    UInt64.toNat_add s.generation 1
  exact sum.trans (Nat.mod_eq_of_lt room)

theorem recordAt?_write (s : Store) (path key : String) (record : Json) (p k : String) :
    (s.write path key record).1.recordAt? p k =
      if p = path ∧ k = key then some (stamp path key (s.generation + 1) record)
      else s.recordAt? p k := by
  have change := s.changes_write path key record
  split_ifs with here
  · rw [here.1, here.2]
    exact change.after_eq
  · exact change.recordAt?_eq here

theorem recordAt?_addCollection (s : Store) (path p k : String) :
    (s.addCollection path).recordAt? p k = s.recordAt? p k := by
  rw [recordAt?, collection?_addCollection]
  split_ifs with here
  · rw [here, Option.bind_some, value?_getD]
  · rfl

theorem generation_addCollection (s : Store) (path : String) :
    (s.addCollection path).generation = s.generation := by
  unfold addCollection
  split <;> rfl

/-- From one store to the next nothing is written; records may be gone. -/
structure Keeps (s next : Store) : Prop where
  generation_eq : next.generation = s.generation
  recordAt? : ∀ path key record, next.recordAt? path key = some record →
    s.recordAt? path key = some record

theorem Keeps.refl (s : Store) : s.Keeps s := ⟨rfl, fun _ _ _ found => found⟩

/-- Where a request that is answered from the store writes a record: the collection and the key. -/
def place? (s : Store) (r : Request) : Option (String × String) :=
  match r.method with
  | .post => (readBody r.path r.body).toOption.bind fun record => (recordKey? record).map (r.path, ·)
  | .put => (s.below? r.path).bind fun (parent, bound) => bound.map fun (key, _) => (parent, key)
  | _ => none

theorem answer_cases {s next : Store} {r : Request} {text : String}
    (answered : s.answer r = .ok (next, text)) :
    s.place? r = none ∧ s.Keeps next ∨
      ∃ path key record, s.place? r = some (path, key) ∧ next = (s.write path key record).1 := by
  have reply := answer_eq_ok_iff.1 answered
  have effect := effect_of_answer answered
  unfold Effect at effect
  unfold place?
  cases method : r.method with
  | get =>
    rw [method] at effect
    exact .inl ⟨rfl, effect ▸ .refl s⟩
  | post =>
    rw [method] at reply
    obtain ⟨stored, created, -⟩ := reply
    obtain ⟨record, key, sent, keyed, -, written⟩ := create_eq_ok_iff.1 created
    refine .inr ⟨r.path, key, record, ?_, congrArg Prod.fst written⟩
    rw [sent]
    simp [Except.toOption, keyed]
  | put =>
    rw [method] at reply
    obtain ⟨stored, replaced, -⟩ := reply
    obtain ⟨record, -, ⟨parent, key, old, below, written⟩ | ⟨below, -, set⟩⟩ :=
      replace_eq_ok_iff.1 replaced
    · refine .inr ⟨parent, key, withIdentityOf old record, ?_, congrArg Prod.fst written⟩
      simp [below]
    · obtain rfl := congrArg Prod.fst set
      exact .inl ⟨by simp [below], rfl, fun _ _ _ found => found⟩
  | delete =>
    rw [method] at effect
    obtain ⟨path, key, old, -, change, -, generation⟩ := effect
    refine .inl ⟨rfl, generation, fun p k record found => ?_⟩
    by_cases here : p = path ∧ k = key
    · rw [here.1, here.2, change.after_eq] at found
      exact nomatch found
    · rwa [change.recordAt?_eq here] at found
  | other name =>
    rw [method] at reply
    exact reply.elim

/-! ### Assigned members -/

/-- The members have what a device assigns, where its counter has the given value. -/
structure Assigned (path key : String) (counter : UInt64) (members : Table Json) : Prop where
  selfLink : members.value? "selfLink" = some (.string (host ++ path ++ "/" ++ key))
  kind : (members.value? "kind").isSome
  fullPath : ∀ partition name, (Json.object members).textMember? "partition" = some partition →
    (Json.object members).textMember? "name" = some name →
      members.value? "fullPath" = some (.string (fullPath partition name))
  generation : ∃ g, members.value? "generation" = some (.natural g) ∧ 1 ≤ g ∧ g ≤ counter.toNat

theorem Assigned.mono {path key : String} {counter later : UInt64} {members : Table Json}
    (h : Assigned path key counter members) (grows : counter.toNat ≤ later.toNat) :
    Assigned path key later members := by
  obtain ⟨g, numbered, positive, bounded⟩ := h.generation
  exact { h with generation := ⟨g, numbered, positive, Nat.le_trans bounded grows⟩ }

theorem generation_stamped (path key : String) (generation : UInt64) (members : Table Json) :
    (stamped path key generation members).value? "generation" = some (.natural generation.toNat) := by
  simp [value?_stamped]

theorem assigned_stamped (path key : String) {generation : UInt64} (positive : 1 ≤ generation.toNat)
    (members : Table Json) :
    Assigned path key generation (stamped path key generation members) where
  selfLink := by simp [value?_stamped]
  kind := by simp [value?_stamped]
  fullPath := by
    intro partition name placed named
    have kept : ∀ other ∉ assigned,
        (Json.object (stamped path key generation members)).textMember? other =
          (Json.object members).textMember? other := fun other free =>
      Json.textMember?_congr (member?_stamp path key generation (.object members) free)
    rw [kept _ (by decide)] at placed named
    simp [value?_stamped, assignedPath?, placed, named]
  generation := ⟨_, generation_stamped path key generation members, positive, Nat.le_refl _⟩

theorem eq_object_of_stamp {path key : String} {generation : UInt64} {record : Json}
    {members : Table Json} (h : stamp path key generation record = .object members) :
    ∃ sent, members = stamped path key generation sent := by
  cases record with
  | object sent => exact ⟨sent, (Json.object.inj h).symm⟩
  | _ => exact nomatch h

/-- Every object in a collection has what the device assigns, and no two have the same generation. -/
structure Stamped (s : Store) : Prop where
  assigned : ∀ path key members, s.recordAt? path key = some (.object members) →
    Assigned path key s.generation members
  apart : ∀ p k (a : Table Json) q l (b : Table Json), s.recordAt? p k = some (.object a) → s.recordAt? q l = some (.object b) →
    a.value? "generation" = b.value? "generation" → p = q ∧ k = l

theorem stamped_empty : Stamped {} where
  assigned _ _ _ found := nomatch found
  apart _ _ _ _ _ _ found := nomatch found

theorem Stamped.keeps {s next : Store} (h : s.Stamped) (kept : s.Keeps next) : next.Stamped where
  assigned path key members found := by
    rw [kept.generation_eq]
    exact h.assigned path key members (kept.recordAt? path key _ found)
  apart p k a q l b ha hb := h.apart p k a q l b (kept.recordAt? p k _ ha) (kept.recordAt? q l _ hb)

theorem Stamped.le_generation {s : Store} (h : s.Stamped) {path key : String} {members : Table Json}
    (found : s.recordAt? path key = some (.object members)) {g : Nat}
    (numbered : members.value? "generation" = some (.natural g)) : g ≤ s.generation.toNat := by
  obtain ⟨n, counted, -, bounded⟩ := (h.assigned path key members found).generation
  obtain rfl := Json.natural_inj.1 (Option.some.inj (counted.symm.trans numbered))
  exact bounded

/-- A write gives its record a greater generation than any other record has. -/
theorem Stamped.write {s : Store} (h : s.Stamped) (room : s.generation.toNat + 1 < UInt64.size)
    (path key : String) (record : Json) : (s.write path key record).1.Stamped := by
  have next : (s.generation + 1).toNat = s.generation.toNat + 1 := generation_write room path key record
  -- A record of the new store is the written one or was there before, with a smaller generation.
  have origin : ∀ p k (members : Table Json),
      (s.write path key record).1.recordAt? p k = some (.object members) →
        (p = path ∧ k = key ∧ ∃ sent, members = stamped path key (s.generation + 1) sent) ∨
          s.recordAt? p k = some (.object members) := by
    intro p k members found
    rw [recordAt?_write] at found
    split_ifs at found with here
    · exact .inl ⟨here.1, here.2, eq_object_of_stamp (Option.some.inj found)⟩
    · exact .inr found
  have older : ∀ p k (members sent : Table Json), s.recordAt? p k = some (.object members) →
      members.value? "generation" ≠
        (stamped path key (s.generation + 1) sent).value? "generation" := by
    intro p k members sent found same
    rw [generation_stamped] at same
    have bounded := h.le_generation found same
    omega
  constructor
  · intro p k members found
    rcases origin p k members found with ⟨rfl, rfl, sent, rfl⟩ | before
    · exact assigned_stamped p k (next ▸ Nat.le_add_left 1 _) sent
    · exact (h.assigned p k members before).mono (next ▸ Nat.le_succ _)
  · intro p k a q l b ha hb same
    rcases origin p k a ha with ⟨rfl, rfl, sent, rfl⟩ | beforeA
    · rcases origin q l b hb with ⟨rfl, rfl, -⟩ | beforeB
      · exact ⟨rfl, rfl⟩
      · exact absurd same.symm (older q l b sent beforeB)
    · rcases origin q l b hb with ⟨rfl, rfl, sent, rfl⟩ | beforeB
      · exact absurd same (older p k a sent beforeA)
      · exact h.apart p k a q l b beforeA beforeB same

theorem Stamped.generation_lt {s : Store} (h : s.Stamped) (room : s.generation.toNat + 1 < UInt64.size)
    (path key : String) (record : Json) :
    ∃ stored, (s.write path key record).1.recordAt? path key = some stored ∧
      ∀ members, stored = .object members → ∃ g,
        Table.value? members "generation" = some (.natural g) ∧
        ∀ p k others n, s.recordAt? p k = some (.object others) →
          Table.value? others "generation" = some (.natural n) → n < g := by
  refine ⟨stamp path key (s.generation + 1) record, by simp [recordAt?_write], fun members object => ?_⟩
  obtain ⟨sent, rfl⟩ := eq_object_of_stamp object
  have next : (s.generation + 1).toNat = s.generation.toNat + 1 := generation_write room path key record
  refine ⟨_, generation_stamped path key (s.generation + 1) sent, fun p k others n found numbered => ?_⟩
  rw [next]
  exact Nat.lt_succ_of_le (h.le_generation found numbered)

end Store

namespace Device

/-! ### Actions -/

/-- What can be done to a device: a step of a run, a request under a context, a change of the delay,
or a removal of the requests that were recorded. -/
inductive Action where
  | step (s : Step)
  | send (ctx : RequestContext) (request : Request)
  | setDelay (ms : Nat)
  | forget

def act (d : Device) : Action → Device
  | .step s => d.step s
  | .send ctx request => (transport.send ctx d request).1
  | .setDelay ms => { d with delay := ms }
  | .forget => { d with received := [] }

/-- The device after a sequence of actions. -/
def acted (actions : List Action) : Device := actions.foldl act {}

theorem acted_concat (actions : List Action) (a : Action) :
    acted (actions ++ [a]) = (acted actions).act a := by
  rw [acted, List.foldl_append]
  rfl

/-- Where a request that is sent under a context writes a record, if it does. -/
def sentPlace? (d : Device) (ctx : RequestContext) (r : Request) : Option (String × String) :=
  match d.prepared? r, (transport.send ctx d r).2 with
  | none, some (.ok _) => d.store.place? r
  | _, _ => none

/-- Where an action writes a record, if it does: the collection and the key. -/
def place? (d : Device) : Action → Option (String × String)
  | .step (.insert path record) => (recordKey? record).map (path, ·)
  | .step (.execute r) => d.sentPlace? .background r
  | .send ctx r => d.sentPlace? ctx r
  | _ => none

/-- How many of the actions write a record. -/
def writes (d : Device) : List Action → Nat
  | [] => 0
  | a :: actions => (if (d.place? a).isSome then 1 else 0) + writes (d.act a) actions

theorem writes_append (d : Device) (actions more : List Action) :
    d.writes (actions ++ more) = d.writes actions + writes (actions.foldl act d) more := by
  induction actions generalizing d with
  | nil => simp [writes]
  | cons a actions ih => simp only [List.cons_append, writes, ih, List.foldl_cons, Nat.add_assoc]

theorem writes_concat (actions : List Action) (a : Action) : writes {} (actions ++ [a]) =
    writes {} actions + if ((acted actions).place? a).isSome then 1 else 0 := by
  rw [writes_append]
  rfl

theorem sent_cases (d : Device) (ctx : RequestContext) (r : Request) :
    d.sentPlace? ctx r = none ∧ d.store.Keeps (transport.send ctx d r).1.store ∨
      ∃ path key record, d.sentPlace? ctx r = some (path, key) ∧
        (transport.send ctx d r).1.store = (d.store.write path key record).1 := by
  unfold sentPlace?
  rcases d.send_cases ctx r with unsent | ⟨error, cut⟩ | executed
  · rw [unsent]
    exact .inl ⟨by cases d.prepared? r <;> rfl, .refl _⟩
  · rw [cut]
    exact .inl ⟨by cases d.prepared? r <;> rfl, .refl _⟩
  · rw [executed]
    rcases d.execute_cases r with ⟨prepared, recorded⟩ | ⟨unprepared, failed | succeeded⟩
    · obtain ⟨canned, found⟩ := Option.isSome_iff_exists.1 prepared
      rw [found, recorded]
      exact .inl ⟨rfl, .refl _⟩
    · obtain ⟨error, -, refused⟩ := failed
      rw [refused, unprepared]
      exact .inl ⟨rfl, .refl _⟩
    · obtain ⟨next, text, answered, committed⟩ := succeeded
      rw [committed, unprepared]
      exact Store.answer_cases answered

theorem act_cases (d : Device) (a : Action) :
    d.place? a = none ∧ d.store.Keeps (d.act a).store ∨
      ∃ path key record, d.place? a = some (path, key) ∧
        (d.act a).store = (d.store.write path key record).1 := by
  cases a with
  | step s =>
    cases s with
    | addCollection path =>
      refine .inl ⟨rfl, d.store.generation_addCollection path, fun p k record found => ?_⟩
      rwa [act, step, Store.recordAt?_addCollection] at found
    | insert path record =>
      rw [place?, act, step, Store.insert?]
      cases recordKey? record with
      | none => exact .inl ⟨rfl, .refl _⟩
      | some key => exact .inr ⟨path, key, record, rfl, rfl⟩
    | setSingleton path document => exact .inl ⟨rfl, rfl, fun _ _ _ found => found⟩
    | prepare method path answer => exact .inl ⟨rfl, .refl _⟩
    | execute r => exact d.sent_cases .background r
  | send ctx r => exact d.sent_cases ctx r
  | setDelay ms => exact .inl ⟨rfl, .refl _⟩
  | forget => exact .inl ⟨rfl, .refl _⟩

/-! ### Runs -/

/-- The counter tells the number of writes, as long as it has room for them. -/
theorem stamped_acted (actions : List Action) (few : writes {} actions < UInt64.size) :
    (acted actions).store.generation.toNat = writes {} actions ∧ (acted actions).store.Stamped := by
  induction actions using List.reverseRecOn with
  | nil => exact ⟨rfl, Store.stamped_empty⟩
  | append_singleton before a ih =>
    rw [writes_concat] at few ⊢
    obtain ⟨number, stamped⟩ := ih (by omega)
    rw [acted_concat]
    rcases (acted before).act_cases a with ⟨nowhere, kept⟩ | ⟨path, key, record, place, written⟩
    · rw [kept.generation_eq, nowhere, number]
      exact ⟨rfl, stamped.keeps kept⟩
    · rw [place, Option.isSome_some, if_pos rfl, ← number] at few ⊢
      rw [written]
      exact ⟨Store.generation_write few path key record, stamped.write few path key record⟩

/-- Along a run whose writes fit into 64 bits the counter tells their number, every object in a
collection has what the device assigns, and its generation is its own. An action that writes a
record leaves it at its place, and if it is an object its generation is greater than all that there
were. No other action brings a record that was not there. -/
theorem stamped_run (actions : List Action) (few : writes {} actions < UInt64.size) :
    (∀ before, before <+: actions →
      (acted before).store.generation.toNat = writes {} before ∧ (acted before).store.Stamped) ∧
    ∀ before a, before ++ [a] <+: actions →
      (∀ path key, (acted before).place? a = some (path, key) →
        ∃ record, (acted (before ++ [a])).store.recordAt? path key = some record ∧
          ∀ members, record = .object members → ∃ g,
            Table.value? members "generation" = some (.natural g) ∧
            ∀ p k others n, (acted before).store.recordAt? p k = some (.object others) →
              Table.value? others "generation" = some (.natural n) → n < g) ∧
      ((acted before).place? a = none → ∀ p k record,
        (acted (before ++ [a])).store.recordAt? p k = some record →
          (acted before).store.recordAt? p k = some record) := by
  have fewer : ∀ before, before <+: actions → writes {} before < UInt64.size := by
    rintro before ⟨more, rfl⟩
    rw [writes_append] at few
    omega
  refine ⟨fun before inside => stamped_acted before (fewer before inside), ?_⟩
  intro before a inside
  obtain ⟨number, stamped⟩ :=
    stamped_acted before (fewer before ((List.prefix_append before [a]).trans inside))
  have room := fewer (before ++ [a]) inside
  rw [writes_concat] at room
  rw [acted_concat]
  rcases (acted before).act_cases a with ⟨nowhere, kept⟩ | ⟨path, key, record, place, written⟩
  · rw [nowhere]
    exact ⟨nofun, fun _ => kept.recordAt?⟩
  · rw [place, written]
    refine ⟨?_, nofun⟩
    intro p k same
    cases same
    rw [place, Option.isSome_some, if_pos rfl, ← number] at room
    exact stamped.generation_lt room path key record

/-- A folder is created, and its replacement brings members that only the device assigns. -/
def creation : List Action :=
  [.step (.addCollection "/mgmt/tm/sys/folder"),
   .send .background ⟨.post, "/mgmt/tm/sys/folder", some "\x7b\"name\":\"a\"\x7d"⟩]

def replacement : Action :=
  .send .background ⟨.put, "/mgmt/tm/sys/folder/a",
    some "\x7b\"generation\":1,\"selfLink\":\"b\",\"fullPath\":\"c\"\x7d"⟩

theorem stamped_run_replacement : writes {} (creation ++ [replacement]) < UInt64.size ∧
    (acted (creation ++ [replacement])).store.Stamped ∧
    ∃ record, (acted (creation ++ [replacement])).store.recordAt? "/mgmt/tm/sys/folder" "a" =
      some record := by
  have few : writes {} (creation ++ [replacement]) < UInt64.size := by decide +kernel
  have place : (acted creation).place? replacement = some ("/mgmt/tm/sys/folder", "a") := by
    decide +kernel
  obtain ⟨stamped, written⟩ := stamped_run (creation ++ [replacement]) few
  obtain ⟨record, found, -⟩ := (written creation replacement (List.prefix_refl _)).1 _ _ place
  exact ⟨few, (stamped _ (List.prefix_refl _)).2, record, found⟩

end Device

end IControl
