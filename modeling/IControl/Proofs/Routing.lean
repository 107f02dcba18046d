import IControl.Namespace
import IControl.Proofs.Request

/-!
# Routes of calls

The path of a request is the list of its segments, each after a slash. No segment
holds a slash, so a path gives its segments back. In the table of resource paths
none begins another one. So the path of a call tells the kind of the records that
it is about, the object that its name addresses, and whether it asks for
statistics; together with the method it tells the operation. No name leads a call
anywhere else, whatever characters it holds.
-/

namespace IControl

namespace Builder

theorem splitAt_slashed {segments : List String} (h : ∀ s ∈ segments, '/' ∉ s.toList) :
    Text.splitAt '/' (slashed segments).toList = [] :: segments.map String.toList := by
  induction segments with
  | nil => simp [slashed, Text.splitAt]
  | cons s segments ih =>
    have others := ih fun t inside => h t (List.mem_cons_of_mem _ inside)
    have first := Text.splitAt_append (h s List.mem_cons_self) others
    rw [toList_slashed_cons, Text.splitAt, if_pos rfl, first, List.map_cons]

theorem slashed_injective {xs ys : List String} (hx : ∀ s ∈ xs, '/' ∉ s.toList)
    (hy : ∀ s ∈ ys, '/' ∉ s.toList) (same : slashed xs = slashed ys) : xs = ys := by
  have pieces : [] :: xs.map String.toList = [] :: ys.map String.toList := by
    rw [← splitAt_slashed hx, ← splitAt_slashed hy, same]
  exact List.map_injective_iff.2 (fun _ _ => String.toList_inj.1) (List.cons.inj pieces).2

end Builder

namespace ResourcePath

/-- The path of the records of a kind, or of the version report, which is about no kind. -/
def home : Option Kind → ResourcePath
  | none => .sys "version"
  | some k => k.path

end ResourcePath

namespace Kind

theorem mem_all (k : Kind) : k ∈ all := by
  cases k <;> decide

/-- The version report and every kind. -/
def homes : List (Option Kind) := none :: all.map some

theorem mem_homes (a : Option Kind) : a ∈ homes := by
  cases a with
  | none => exact List.mem_cons_self
  | some k => exact List.mem_cons_of_mem _ (List.mem_map_of_mem k.mem_all)

/-- No resource path begins another one. -/
theorem home_segments_apart {a b : Option Kind}
    (h : (ResourcePath.home a).segments <+: (ResourcePath.home b).segments) : a = b := by
  have table : ∀ a ∈ homes, ∀ b ∈ homes,
      (ResourcePath.home a).segments <+: (ResourcePath.home b).segments → a = b := by
    decide +kernel
  exact table a (mem_homes a) b (mem_homes b) h

theorem slash_not_mem_home (a : Option Kind) :
    ∀ s ∈ (ResourcePath.home a).segments, '/' ∉ s.toList := by
  have table : ∀ a ∈ homes, ∀ s ∈ (ResourcePath.home a).segments, '/' ∉ s.toList := by
    decide +kernel
  exact table a (mem_homes a)

theorem eq_of_text {k l : Kind} (h : k.path.text = l.path.text) : k = l := by
  rw [ResourcePath.text_eq, ResourcePath.text_eq] at h
  have segments : k.path.segments = l.path.segments :=
    Builder.slashed_injective (slash_not_mem_home (some k)) (slash_not_mem_home (some l)) h
  exact Option.some.inj (home_segments_apart (a := some k) (b := some l) (by
    rw [show ResourcePath.home (some k) = k.path from rfl, segments]
    exact List.prefix_rfl))

end Kind

namespace Operation

variable {s : Shape}

theorem slash_not_mem_segments (op : Operation s) : ∀ t ∈ op.segments, '/' ∉ t.toList := by
  intro t inside
  rcases List.mem_append.1 inside with named | marked
  · obtain ⟨name, -, rfl⟩ := Option.map_eq_some_iff.1 (Option.mem_toList.1 named)
    exact slash_not_mem_encodeInstance name
  · split_ifs at marked
    · rw [List.mem_singleton.1 marked]
      decide
    · exact absurd marked List.not_mem_nil

/-- The form, the method and the mark of statistics tell the verb of an operation, as far as it is
known whether it has an object. -/
theorem verb_eq (op : Operation s) : op.verb =
    match op.form, op.method with
    | .collection, .get =>
      if op.wantsStats then .stats else if op.object?.isSome then .get else .list
    | .singleton, .get => if op.wantsStats then .report else .get
    | _, .post => .create
    | _, .put => .update
    | _, .delete => .delete
    | _, .other _ => .get := by
  cases op <;> rfl

theorem method_eq (op : Operation s) : op.method =
    match op.verb with
    | .list | .get | .stats | .report => .get
    | .create => .post
    | .update => .put
    | .delete => .delete := by
  cases op <;> rfl

theorem wantsStats_eq (op : Operation s) :
    op.wantsStats = (op.verb == .stats || op.verb == .report) := by
  cases op <;> rfl

theorem head?_segments {op : Operation s} (collection : op.form = .collection) :
    op.segments.head? = op.object?.map encodeInstance := by
  cases op with
  | list | get | stats | create | update | delete => rfl
  | fetch | report | replace => exact nomatch collection

theorem object?_eq_none {op : Operation s} (singleton : op.form = .singleton) :
    op.object? = none := by
  cases op with
  | list | get | stats | create | update | delete => exact nomatch singleton
  | fetch | report | replace => rfl

end Operation

/-- A call that the namespaces offer: for the version report, or for an operation on the records of
a kind. -/
inductive Call where
  | version
  | on (k : Kind) (op : Operation k.resource.shape) (offered : k.resource.offers op = true)

namespace Call

/-- The kind of the records that a call is about. -/
def kind? : Call → Option Kind
  | version => none
  | on k _ _ => some k

def verb : Call → Verb
  | version => .get
  | on _ op _ => op.verb

def method : Call → Method
  | version => .get
  | on _ op _ => op.method

/-- The name of the object that a call is about. -/
def object? : Call → Option String
  | version => none
  | on _ op _ => op.object?

def wantsStats : Call → Bool
  | version => false
  | on _ op _ => op.wantsStats

def request : Call → Except ClientError Request
  | version => .ok versionRequest
  | on k op _ => k.resource.request op

/-- The segment that addresses the object of a call. -/
def segment? (c : Call) : Option String := c.object?.map encodeInstance

/-- The name in a call, if there is one, addresses an object. -/
def Addresses (c : Call) : Prop := ∀ name, c.object? = some name → addressesInstance name = true

/-- What a call adds to the path of its kind. -/
def rest : Call → List String
  | version => []
  | on _ op _ => op.segments

theorem rest_eq (c : Call) :
    c.rest = c.segment?.toList ++ (if c.wantsStats then ["stats"] else []) := by
  cases c <;> rfl

theorem slash_not_mem_rest (c : Call) : ∀ t ∈ c.rest, '/' ∉ t.toList := by
  cases c with
  | version => exact fun _ inside => absurd inside List.not_mem_nil
  | on k op offered => exact op.slash_not_mem_segments

/-- The path of the request of a call. -/
def path (c : Call) : String := Builder.slashed ((ResourcePath.home c.kind?).segments ++ c.rest)

theorem request_eq {c : Call} (h : c.Addresses) :
    ∃ body, c.request = .ok ⟨c.method, c.path, body⟩ := by
  cases c with
  | version => exact ⟨none, by decide +kernel⟩
  | on k op offered => exact ⟨_, Kind.request_eq h⟩

theorem addresses_of_request {c : Call} {q : Request} (h : c.request = .ok q) : c.Addresses := by
  intro name object
  cases c with
  | version => exact nomatch object
  | on k op offered =>
    by_contra refused
    have error := Kind.request_refused object (Bool.eq_false_iff.2 refused)
    exact nomatch h.symm.trans error

theorem eq_of_request {c : Call} {q : Request} (h : c.request = .ok q) :
    q.method = c.method ∧ q.path = c.path := by
  obtain ⟨body, request⟩ := request_eq (addresses_of_request h)
  obtain rfl := Except.ok.inj (h.symm.trans request)
  exact ⟨rfl, rfl⟩

/-- A path below the records of a kind is that of a call about this kind. -/
theorem kind?_of_path {c : Call} {a : Option Kind} {segments : List String}
    (slashless : ∀ t ∈ segments, '/' ∉ t.toList)
    (same : c.path = Builder.slashed ((ResourcePath.home a).segments ++ segments)) :
    c.kind? = a ∧ c.rest = segments := by
  have whole : (ResourcePath.home c.kind?).segments ++ c.rest =
      (ResourcePath.home a).segments ++ segments := by
    refine Builder.slashed_injective ?_ ?_ same
    · exact List.forall_mem_append.2 ⟨Kind.slash_not_mem_home _, c.slash_not_mem_rest⟩
    · exact List.forall_mem_append.2 ⟨Kind.slash_not_mem_home _, slashless⟩
  -- Both resource paths begin the same list, so one of them begins the other.
  have kind : c.kind? = a := by
    have begins := List.prefix_append (ResourcePath.home c.kind?).segments c.rest
    rw [whole] at begins
    rcases List.prefix_or_prefix_of_prefix begins (List.prefix_append _ segments) with h | h
    · exact Kind.home_segments_apart h
    · exact (Kind.home_segments_apart h).symm
  rw [kind] at whole
  exact ⟨kind, List.append_cancel_left whole⟩

theorem kind?_of_home {c : Call} {k : Kind} (h : c.path = k.path.text) :
    c.kind? = some k ∧ c.rest = [] := by
  have same : c.path = Builder.slashed ((ResourcePath.home (some k)).segments ++ []) := by
    rw [h, ResourcePath.text_eq, List.append_nil]
    rfl
  exact kind?_of_path (fun _ inside => absurd inside List.not_mem_nil) same

theorem kind?_of_above {c : Call} {k : Kind} {segment : String}
    (h : c.path = k.path.text ++ "/" ++ segment) (slash : '/' ∉ segment.toList) :
    c.kind? = some k ∧ c.rest = [segment] := by
  have same : c.path = Builder.slashed ((ResourcePath.home (some k)).segments ++ [segment]) := by
    rw [h, ResourcePath.text_eq, Builder.slashed_concat]
    rfl
  have slashless : ∀ t ∈ [segment], '/' ∉ t.toList := by
    intro t inside
    rwa [List.mem_singleton.1 inside]
  exact kind?_of_path slashless same

theorem form_eq {k : Kind} {op : Operation k.resource.shape} (offered : k.resource.offers op = true) :
    op.form = k.form := by
  rw [Resource.offers, Bool.and_eq_true, beq_iff_eq] at offered
  exact offered.1

theorem segment?_eq (c : Call) : c.segment? =
    if c.kind?.map Kind.form = some .collection then c.rest.head? else none := by
  cases c with
  | version => rfl
  | on k op offered =>
    have form := form_eq offered
    have object : (on k op offered).segment? = op.object?.map encodeInstance := rfl
    rw [kind?, Option.map_some, ← form, object]
    cases shape : op.form with
    | collection => exact (Operation.head?_segments shape).symm
    | singleton =>
      rw [Operation.object?_eq_none shape]
      rfl

/-- What calls about the same kind add to its path tells the object and the mark of statistics. -/
theorem rest_eq_iff {a b : Call} (kind : a.kind? = b.kind?) :
    a.rest = b.rest ↔ a.segment? = b.segment? ∧ a.wantsStats = b.wantsStats := by
  constructor
  · intro same
    have segment : a.segment? = b.segment? := by rw [segment?_eq, segment?_eq, kind, same]
    have marks := same
    rw [rest_eq, rest_eq, segment, List.append_cancel_left_eq] at marks
    refine ⟨segment, ?_⟩
    cases left : a.wantsStats <;> cases right : b.wantsStats <;> simp [left, right] at marks ⊢
  · rintro ⟨segment, stats⟩
    rw [rest_eq, rest_eq, segment, stats]

/-- Two calls have the same path when they are about the same kind and object, both for statistics or
both not. -/
theorem path_eq_iff {a b : Call} : a.path = b.path ↔
    a.kind? = b.kind? ∧ a.segment? = b.segment? ∧ a.wantsStats = b.wantsStats := by
  constructor
  · intro same
    obtain ⟨kind, rest⟩ := kind?_of_path b.slash_not_mem_rest same
    exact ⟨kind, (rest_eq_iff kind).1 rest⟩
  · rintro ⟨kind, place⟩
    rw [path, path, kind, (rest_eq_iff kind).2 place]

theorem verb_eq_iff {a b : Call} (kind : a.kind? = b.kind?) (segment : a.segment? = b.segment?) :
    a.verb = b.verb ↔ a.method = b.method ∧ a.wantsStats = b.wantsStats := by
  cases a with
  | version =>
    cases b with
    | version => simp
    | on l op offered => exact nomatch kind
  | on k op offered =>
    cases b with
    | version => exact nomatch kind
    | on l other offers =>
      obtain rfl : k = l := Option.some.inj kind
      have form : op.form = other.form := (form_eq offered).trans (form_eq offers).symm
      have object : op.object?.isSome = other.object?.isSome := by
        have mapped := congrArg Option.isSome segment
        simpa [segment?, object?] using mapped
      constructor
      · intro (verb : op.verb = other.verb)
        have method : op.method = other.method := by rw [op.method_eq, other.method_eq, verb]
        have stats : op.wantsStats = other.wantsStats := by
          rw [op.wantsStats_eq, other.wantsStats_eq, verb]
        exact ⟨method, stats⟩
      · rintro ⟨method, stats⟩
        have same : op.method = other.method := method
        have marks : op.wantsStats = other.wantsStats := stats
        change op.verb = other.verb
        rw [op.verb_eq, other.verb_eq, form, same, marks, object]

/-- Two calls whose names address objects make requests with the same path only when they are about
the same kind and object, both for statistics or both not; and requests with the same method and path
only when they are the same operation on the same object of the same kind. -/
theorem sameRoute_iff (a b : Call) (ha : a.Addresses) (hb : b.Addresses) :
    ∃ p q, a.request = .ok p ∧ b.request = .ok q ∧
      (p.path = q.path ↔
        a.kind? = b.kind? ∧ a.segment? = b.segment? ∧ a.wantsStats = b.wantsStats) ∧
      (p.method = q.method ∧ p.path = q.path ↔
        a.kind? = b.kind? ∧ a.verb = b.verb ∧ a.segment? = b.segment?) := by
  obtain ⟨body, first⟩ := request_eq ha
  obtain ⟨other, second⟩ := request_eq hb
  refine ⟨_, _, first, second, path_eq_iff, ?_⟩
  constructor
  · rintro ⟨method, path⟩
    obtain ⟨kind, segment, stats⟩ := path_eq_iff.1 path
    exact ⟨kind, (verb_eq_iff kind segment).2 ⟨method, stats⟩, segment⟩
  · rintro ⟨kind, verb, segment⟩
    obtain ⟨method, stats⟩ := (verb_eq_iff kind segment).1 verb
    exact ⟨method, path_eq_iff.2 ⟨kind, segment, stats⟩⟩

/-- A call about the folder of a name: for its record, or for its statistics. -/
def aboutFolder (name : String) (stats : Bool) : Call :=
  if stats then on .folder (.stats name) rfl else on .folder (.get name) rfl

theorem addresses_aboutFolder {name : String} (h : addressesInstance name = true) (stats : Bool) :
    (aboutFolder name stats).Addresses := by
  intro other object
  cases stats with
  | true => exact Option.some.inj object ▸ h
  | false => exact Option.some.inj object ▸ h

/-- The folder `a/stats` is not mistaken for the statistics of `a`, and it has the same route as
`/a/stats`. -/
theorem sameRoute_folders :
    (∃ p q, (aboutFolder "a/stats" false).request = .ok p ∧
      (aboutFolder "a" true).request = .ok q ∧ p.path ≠ q.path) ∧
    ∃ p q, (aboutFolder "a/stats" false).request = .ok p ∧
      (aboutFolder "/a/stats" false).request = .ok q ∧ p.method = q.method ∧ p.path = q.path := by
  have named := @addresses_aboutFolder "a/stats" (by decide) false
  have report := @addresses_aboutFolder "a" (by decide) true
  have slashed := @addresses_aboutFolder "/a/stats" (by decide) false
  obtain ⟨p, q, first, second, path, -⟩ := sameRoute_iff _ _ named report
  obtain ⟨r, t, third, fourth, -, route⟩ := sameRoute_iff _ _ named slashed
  refine ⟨⟨p, q, first, second, fun same => ?_⟩, r, t, third, fourth, ?_⟩
  · exact absurd (path.1 same).2.2 (by decide)
  · exact route.2 ⟨rfl, rfl, by decide⟩

end Call

end IControl
