import IControl.Proofs.Device.Frame
import IControl.Proofs.Routing

/-!
# Records of different kinds are kept apart

A device is used through the namespaces: collections and singletons are
registered only where kinds have their paths. Then a call reaches at most what is
at the path of its own kind, because no resource path begins another one and no
name holds a slash. So a call about one kind changes nothing that a call about
another kind, or the version report, could read.
-/

namespace IControl

namespace Store

/-- Collections are registered only at the paths of kinds that form collections, and singletons only
at those of kinds that are singletons. -/
structure Placed (s : Store) : Prop where
  collections : ∀ path, (s.collection? path).isSome →
    ∃ k : Kind, k.form = .collection ∧ path = k.path.text
  singletons : ∀ path, (s.singleton? path).isSome →
    ∃ k : Kind, k.form = .singleton ∧ path = k.path.text

theorem below?_eq_some {s : Store} {path parent : String} {found : Option (String × Json)}
    (h : s.below? path = some (parent, found)) : ∃ segment records,
      path = parent ++ "/" ++ segment ∧ '/' ∉ segment.toList ∧
        s.collection? parent = some records ∧ found = lookupSegment records segment := by
  obtain ⟨⟨left, segment⟩, split, rest⟩ := Option.bind_eq_some_iff.1 h
  obtain ⟨records, kept, same⟩ := Option.bind_eq_some_iff.1 rest
  obtain ⟨rfl, rfl⟩ := Prod.mk.inj (Option.some.inj same)
  obtain ⟨whole, slash⟩ := eq_of_splitInstance? split
  exact ⟨segment, records, whole, slash, kept, rfl⟩

theorem below?_named (s : Store) {path name : String} (present : path.toList ≠ [])
    (addresses : addressesInstance name = true) :
    s.below? (path ++ "/" ++ encodeInstance name) = (s.collection? path).map fun records =>
      (path, lookupSegment records (encodeInstance name)) := by
  rw [below?, splitInstance?_append present (encodeInstance_ne_nil addresses)
    (slash_not_mem_encodeInstance name)]
  exact Option.map_eq_bind.symm

end Store

namespace Call

/-- The path of a call, and the path right above it. -/
def Reaches (c : Call) (path : String) : Prop :=
  path = c.path ∨ ∃ segment : String, c.path = path ++ "/" ++ segment ∧ '/' ∉ segment.toList

theorem Reaches.kind?_eq {c : Call} {k : Kind} (h : c.Reaches k.path.text) : c.kind? = some k := by
  rcases h with here | ⟨segment, above, slash⟩
  · exact (kind?_of_home here.symm).1
  · exact (kind?_of_above above slash).1

theorem path_of_post {c : Call} (post : c.method = .post) :
    ∃ k : Kind, k.form = .collection ∧ c.kind? = some k ∧ c.path = k.path.text := by
  cases c with
  | version => exact nomatch post
  | on k op offered =>
    cases op with
    | create record =>
      refine ⟨k, (form_eq offered).symm, rfl, ?_⟩
      rw [ResourcePath.text_eq]
      exact congrArg Builder.slashed (List.append_nil _)
    | list | get | stats | update | delete | fetch | report | replace => exact nomatch post

end Call

theorem Kind.object_ne_text (k : Kind) {segment : String} (slash : '/' ∉ segment.toList) (l : Kind) :
    k.path.text ++ "/" ++ segment ≠ l.path.text := by
  intro same
  rw [ResourcePath.text_eq, ResourcePath.text_eq, ← Builder.slashed_concat] at same
  have whole : k.path.segments ++ [segment] = l.path.segments := by
    refine Builder.slashed_injective ?_ (slash_not_mem_home (some l)) same
    exact List.forall_mem_append.2 ⟨slash_not_mem_home (some k), by simpa using slash⟩
  obtain rfl : k = l := Option.some.inj (home_segments_apart (a := some k) (b := some l) ⟨_, whole⟩)
  simp at whole

namespace Store

theorem Placed.collection?_eq_none {s : Store} (h : s.Placed) {path : String}
    (apart : ∀ k : Kind, path ≠ k.path.text) : s.collection? path = none := by
  by_contra registered
  obtain ⟨k, -, home⟩ := h.collections path (Option.isSome_iff_ne_none.2 registered)
  exact apart k home

theorem Placed.singleton?_eq_none {s : Store} (h : s.Placed) {path : String}
    (apart : ∀ k : Kind, path ≠ k.path.text) : s.singleton? path = none := by
  by_contra registered
  obtain ⟨k, -, home⟩ := h.singletons path (Option.isSome_iff_ne_none.2 registered)
  exact apart k home

theorem Placed.at_object {s : Store} (h : s.Placed) (k : Kind) {name : String}
    (addresses : addressesInstance name = true) :
    s.collection? (k.path.text ++ "/" ++ encodeInstance name) = none ∧
      s.singleton? (k.path.text ++ "/" ++ encodeInstance name) = none ∧
      s.below? (k.path.text ++ "/" ++ encodeInstance name) =
        (s.collection? k.path.text).map fun records =>
          (k.path.text, lookupSegment records (encodeInstance name)) := by
  have apart := k.object_ne_text (slash_not_mem_encodeInstance name)
  exact ⟨h.collection?_eq_none apart, h.singleton?_eq_none apart,
    s.below?_named k.path.toList_text_ne_nil addresses⟩

/-- What stores have at the path of a call, and right above it, they have at the path of its kind. -/
theorem Placed.agree {s t : Store} (hs : s.Placed) (ht : t.Placed) {c : Call}
    (same : ∀ k, c.kind? = some k → s.collection? k.path.text = t.collection? k.path.text ∧
      s.singleton? k.path.text = t.singleton? k.path.text) {path : String} (h : c.Reaches path) :
    s.collection? path = t.collection? path ∧ s.singleton? path = t.singleton? path := by
  by_cases home : ∃ k : Kind, path = k.path.text
  · obtain ⟨k, rfl⟩ := home
    exact same k h.kind?_eq
  · have apart : ∀ k : Kind, path ≠ k.path.text := fun k here => home ⟨k, here⟩
    rw [hs.collection?_eq_none apart, ht.collection?_eq_none apart, hs.singleton?_eq_none apart,
      ht.singleton?_eq_none apart]
    exact ⟨rfl, rfl⟩

/-- Stores that have the same at the path of a kind answer the calls about this kind alike. -/
theorem Placed.read_eq {s t : Store} (hs : s.Placed) (ht : t.Placed) {c : Call}
    (same : ∀ k, c.kind? = some k → s.collection? k.path.text = t.collection? k.path.text ∧
      s.singleton? k.path.text = t.singleton? k.path.text) : s.read c.path = t.read c.path := by
  obtain ⟨collection, singleton⟩ := hs.agree ht same (.inl rfl)
  have below : s.below? c.path = t.below? c.path := by
    unfold below?
    cases split : splitInstance? c.path with
    | none => rfl
    | some parts =>
      obtain ⟨whole, slash⟩ := eq_of_splitInstance? split
      have above := hs.agree ht same (.inr ⟨parts.2, whole, slash⟩)
      exact congrArg (Option.bind · _) above.1
  rw [Store.read_eq, Store.read_eq, collection, below, singleton]

section
variable {s next : Store} {c : Call} {q : Request} {text : String} (placed : s.Placed)
  (sent : c.request = .ok q) (answered : s.answer q = .ok (next, text))
include placed sent answered

theorem Placed.answer : next.Placed := by
  have effect := effect_of_answer answered
  obtain ⟨method, path⟩ := Call.eq_of_request sent
  refine ⟨fun other registered => ?_, fun other registered => ?_⟩
  · rcases effect.isSome_collection? registered with before | ⟨post, here⟩
    · exact placed.collections other before
    · obtain ⟨k, form, -, home⟩ := Call.path_of_post (method.symm.trans post)
      exact ⟨k, form, here.trans (path.trans home)⟩
  · exact placed.singletons other (effect.isSome_singleton? registered)

omit placed in
/-- A call about one kind leaves what is at the path of any other kind. -/
theorem answer_apart {k : Kind} (apart : c.kind? ≠ some k) :
    next.collection? k.path.text = s.collection? k.path.text ∧
      next.singleton? k.path.text = s.singleton? k.path.text := by
  obtain ⟨path, touched, elsewhere⟩ := (effect_of_answer answered).elsewhere
  have reached : c.Reaches path := by
    have here := (Call.eq_of_request sent).2
    rcases touched with same | ⟨found, below⟩
    · exact .inl (same.trans here)
    · obtain ⟨segment, -, whole, slash, -⟩ := below?_eq_some below
      exact .inr ⟨segment, here.symm.trans whole, slash⟩
  refine elsewhere _ fun same => apart ?_
  exact (same ▸ reached : c.Reaches k.path.text).kind?_eq

end

end Store

namespace Call

/-- The device after a call under a context. -/
def run (c : Call) (ctx : RequestContext) (d : Device) : Device :=
  match c with
  | version => (callVersion Device.transport ctx d).1
  | on k op _ => ((Client.mk ctx : Client k.resource).call Device.transport d op).1

def succeeds (c : Call) (ctx : RequestContext) (d : Device) : Bool :=
  match c with
  | version => (callVersion Device.transport ctx d).2.result?.isSome
  | on k op _ => ((Client.mk ctx : Client k.resource).call Device.transport d op).2.result?.isSome

/-- A call makes no request, has its request recorded, or is answered from the store. A call that
writes succeeds when it is answered. -/
theorem run_cases (c : Call) (ctx : RequestContext) (d : Device) :
    c.run ctx d = d ∨ (∃ q, c.request = .ok q ∧ c.run ctx d = d.accept q) ∨
      ∃ q next text, c.request = .ok q ∧ d.store.answer q = .ok (next, text) ∧
        c.run ctx d = { d.accept q with store := next } ∧
        (c.method ≠ .get → c.succeeds ctx d = true) := by
  cases c with
  | version =>
    rcases d.exchange_cases ctx (.ok versionRequest) fun bytes =>
        (Shape.stats.read bytes).map Stats.ofValue with
      unsent | recorded | ⟨q, next, text, request, answered, committed⟩
    · exact .inl unsent
    · exact .inr (.inl recorded)
    · exact .inr (.inr ⟨q, next, text, request, answered, congrArg Prod.fst committed,
        fun writes => absurd rfl writes⟩)
  | on k op offered =>
    rcases d.exchange_cases ctx (k.resource.request op) op.readReply with
      unsent | recorded | ⟨q, next, text, request, answered, committed⟩
    · exact .inl unsent
    · exact .inr (.inl recorded)
    · refine .inr (.inr ⟨q, next, text, request, answered, congrArg Prod.fst committed, ?_⟩)
      intro writes
      obtain ⟨a, read⟩ := Operation.readReply_of_method writes (Utf8.encode text)
      have reply := congrArg (fun out => out.2.result?.isSome) committed
      rw [read] at reply
      exact reply

end Call

namespace Device

/-- The device after a sequence of calls, each under its context. -/
def calls (d : Device) (cs : List (RequestContext × Call)) : Device :=
  cs.foldl (fun d c => c.2.run c.1 d) d

/-- No answers are prepared, and collections and singletons are registered only at the paths of
their kinds. -/
structure Tidy (d : Device) : Prop where
  prepared : d.prepared = []
  placed : d.store.Placed

theorem Tidy.run {d : Device} (h : d.Tidy) (c : Call) (ctx : RequestContext) :
    (c.run ctx d).Tidy ∧ (c.run ctx d).delay = d.delay ∧
      ∀ k, c.kind? ≠ some k →
        (c.run ctx d).store.collection? k.path.text = d.store.collection? k.path.text ∧
        (c.run ctx d).store.singleton? k.path.text = d.store.singleton? k.path.text := by
  rcases c.run_cases ctx d with unsent | ⟨q, -, recorded⟩ | ⟨q, next, text, sent, answered, done, -⟩
  · rw [unsent]
    exact ⟨h, rfl, fun _ _ => ⟨rfl, rfl⟩⟩
  · rw [recorded]
    exact ⟨⟨h.prepared, h.placed⟩, rfl, fun _ _ => ⟨rfl, rfl⟩⟩
  · rw [done]
    exact ⟨⟨h.prepared, h.placed.answer sent answered⟩, rfl,
      fun k apart => Store.answer_apart sent answered apart⟩

theorem Tidy.calls {d : Device} (h : d.Tidy) (cs : List (RequestContext × Call)) :
    (d.calls cs).Tidy := by
  induction cs generalizing d with
  | nil => exact h
  | cons c cs ih => exact ih (h.run c.2 c.1).1

theorem execute_get {d : Device} (prepared : d.prepared = []) {q : Request} (get : q.method = .get) :
    (d.execute q).2 = (d.store.read q.path).map fun document => Utf8.encode document.print := by
  obtain ⟨method, path, body⟩ := q
  obtain rfl : method = .get := get
  rw [execute_of_unprepared (prepared?_of_nil prepared _), Store.answer_get]
  cases d.store.read path <;> rfl

/-- A call about one kind leaves every reply as it was that a call about another kind, or the version
report, can get by reading. -/
theorem reply_after_call {d : Device} (tidy : d.Tidy) (earlier : List (RequestContext × Call))
    (ctx : RequestContext) {c other : Call} (apart : c.kind? ≠ other.kind?)
    (reads : other.method = .get) {q : Request} (sent : other.request = .ok q) :
    ((c.run ctx (d.calls earlier)).execute q).2 = ((d.calls earlier).execute q).2 := by
  have before := tidy.calls earlier
  obtain ⟨after, -, same⟩ := before.run c ctx
  obtain ⟨method, path⟩ := Call.eq_of_request sent
  have read := after.placed.read_eq before.placed fun k kind =>
    same k (fun own => apart (own.trans kind.symm))
  rw [execute_get after.prepared (method.trans reads), execute_get before.prepared
    (method.trans reads), path, read]

theorem tidy_oneFolder : oneFolder.Tidy where
  prepared := rfl
  placed := by
    refine ⟨fun path registered => ⟨.folder, rfl, ?_⟩, fun path registered => nomatch registered⟩
    by_contra elsewhere
    have other : path ≠ "/mgmt/tm/sys/folder" := elsewhere
    have missing : oneFolder.store.collection? path = none := by
      rw [Store.collection?, oneFolder, Table.value?_cons, if_neg other, Table.value?_nil]
    rw [missing] at registered
    exact absurd registered Bool.false_ne_true

/-- The creation of a route. -/
def createRoute (name : String) : Call :=
  .on .managementRoute (.create (Record.withMetadata (k := .managementRoute)
    Kind.managementRoute.shape.blank (.named name))) rfl

/-- A new route registers a collection, and the folder is read as before. -/
theorem reply_after_call_oneFolder :
    (((createRoute "a").run .background oneFolder).execute
      ⟨.get, "/mgmt/tm/sys/folder/a", none⟩).2 = .ok (Utf8.encode "\x7b\"name\":\"a\"\x7d") := by
  have sent : (Call.aboutFolder "a" false).request =
      .ok ⟨.get, "/mgmt/tm/sys/folder/a", none⟩ := by decide +kernel
  have apart : (createRoute "a").kind? ≠ (Call.aboutFolder "a" false).kind? := by decide
  have reply := reply_after_call tidy_oneFolder [] .background apart rfl sent
  refine reply.trans ?_
  decide +kernel

end Device

end IControl
