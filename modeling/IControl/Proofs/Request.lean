import IControl.Operation
import IControl.Proofs.Name
import IControl.Proofs.Outcome

/-!
# Requests of operations

The path of a resource whose parts have no slashes at their ends is the same in
both renderings, and an object adds one segment to it. An operation makes its
request unless the name of its object is refused or its record cannot be written,
and then the request has the method of the operation, this path, and the written
record as its body. Records of kinds can always be written.
-/

namespace IControl

namespace Builder

theorem method_apply (b : Builder) (step : Builder.Step) :
    (b.apply step).method = b.method := by
  cases step <;> rfl

theorem method_applyAll (b : Builder) (steps : List Builder.Step) :
    (b.applyAll steps).method = b.method := by
  induction steps generalizing b with
  | nil => rfl
  | cons step steps ih => exact (ih (b.apply step)).trans (b.method_apply step)

theorem body_applyAll (b : Builder) {steps : List Builder.Step}
    (h : ∀ text, Step.body text ∉ steps) : (b.applyAll steps).body = b.body := by
  induction steps generalizing b with
  | nil => rfl
  | cons step steps ih =>
    have first : (b.apply step).body = b.body := by
      cases step with
      | body text => exact absurd List.mem_cons_self (h text)
      | _ => rfl
    exact (ih (b.apply step) fun text inside => h text (List.mem_cons_of_mem _ inside)).trans first

theorem toList_slashed_cons (segment : String) (segments : List String) :
    (slashed (segment :: segments)).toList =
      '/' :: (segment.toList ++ (slashed segments).toList) := by
  simp [slashed]

theorem mem_slashed {segments : List String} {c : Char}
    (h : c ∈ (slashed segments).toList) : c = '/' ∨ ∃ s ∈ segments, c ∈ s.toList := by
  induction segments with
  | nil => exact absurd h List.not_mem_nil
  | cons s segments ih =>
    rw [toList_slashed_cons] at h
    rcases List.mem_cons.1 h with slash | inside
    · exact .inl slash
    rcases List.mem_append.1 inside with here | later
    · exact .inr ⟨s, List.mem_cons_self, here⟩
    · refine (ih later).imp_right ?_
      rintro ⟨t, segment, inside⟩
      exact ⟨t, List.mem_cons_of_mem _ segment, inside⟩

theorem slash_intercalate {segments : List String} (present : segments ≠ []) :
    "/" ++ String.intercalate "/" segments = slashed segments := by
  induction segments with
  | nil => exact absurd rfl present
  | cons s segments ih =>
    cases segments with
    | nil => simp [slashed]
    | cons t segments =>
      have others := ih (List.cons_ne_nil t segments)
      rw [String.intercalate_cons_cons, ← String.append_assoc, ← String.append_assoc,
        String.append_assoc, others]
      rfl

theorem slashed_append (xs ys : List String) : slashed (xs ++ ys) = slashed xs ++ slashed ys := by
  induction xs with
  | nil => simp [slashed]
  | cons x xs ih =>
    have step : ∀ zs, slashed (x :: zs) = "/" ++ x ++ slashed zs := fun _ => rfl
    rw [List.cons_append, step, step, ih, String.append_assoc, String.append_assoc,
      String.append_assoc]

theorem slashed_concat (xs : List String) (y : String) :
    slashed (xs ++ [y]) = slashed xs ++ "/" ++ y := by
  have last : slashed [y] = "/" ++ y := by simp [slashed]
  rw [slashed_append, last, String.append_assoc]

theorem request_body (b : Builder) (text : Option String) :
    (b.applyAll (text.toList.map .body)).request = ⟨b.method, b.path, text.or b.body⟩ := by
  cases text with
  | none => rfl
  | some text => rfl

end Builder

namespace ResourcePath

/-- The parts of the path are literal as they are. -/
structure Literal (p : ResourcePath) : Prop where
  manager : Builder.literal p.manager = some p.manager
  resource : Builder.literal p.resource = some p.resource
  subResource : ∀ part, p.subResource = some part → Builder.literal part = some part

theorem literal_managementRoot : Builder.literal managementRoot = some managementRoot := by
  decide

theorem literal_trafficCategory : Builder.literal trafficCategory = some trafficCategory := by
  decide

/-- The segments of a path. -/
def segments (p : ResourcePath) : List String :=
  [managementRoot, trafficCategory, p.manager, p.resource] ++ p.subResource.toList

theorem text_eq (p : ResourcePath) : p.text = Builder.slashed p.segments := by
  refine String.toList_inj.1 ?_
  obtain ⟨manager, resource, _ | part⟩ := p <;> simp [text, segments, Builder.slashed]

theorem toList_text_ne_nil (p : ResourcePath) : p.text.toList ≠ [] := by
  simp [text]

/-- A path is applied as what its segments are as literal parts. -/
theorem segments_apply (p : ResourcePath) (method : Method) :
    (p.apply { method }).segments = p.segments.filterMap Builder.literal := by
  obtain ⟨manager, resource, sub⟩ := p
  cases sub <;>
    simp [apply, steps, segments, Builder.applyAll, Builder.apply, Builder.segments,
      literal_managementRoot, literal_trafficCategory, List.filterMap_cons]

theorem path_apply (p : ResourcePath) (method : Method) :
    (p.apply { method }).path = Builder.slashed (p.segments.filterMap Builder.literal) := by
  rw [Builder.path, segments_apply, segments, List.cons_append,
    List.filterMap_cons_some literal_managementRoot]

theorem Literal.path_apply {p : ResourcePath} (h : p.Literal) (method : Method) :
    (p.apply { method }).path = p.text := by
  have kept : p.segments.filterMap Builder.literal = p.segments := by
    obtain ⟨manager, resource, sub⟩ := p
    cases sub with
    | none => simp [segments, literal_managementRoot, literal_trafficCategory, h.manager, h.resource]
    | some part =>
      simp [segments, literal_managementRoot, literal_trafficCategory, h.manager, h.resource,
        h.subResource part rfl]
  rw [ResourcePath.path_apply, kept, text_eq]

end ResourcePath

namespace Operation

variable {s : Shape}

/-- The segments that an operation adds to the path of its resource. -/
def segments (op : Operation s) : List String :=
  (op.object?.map encodeInstance).toList ++ (if op.wantsStats then ["stats"] else [])

theorem body_not_mem_steps (op : Operation s) (text : String) : Builder.Step.body text ∉ op.steps := by
  cases op <;> simp [steps, object?, wantsStats]

theorem segments_of_object {op : Operation s} {name : String} (named : op.object? = some name) :
    op.segments = encodeInstance name :: if op.wantsStats then ["stats"] else [] := by
  rw [Operation.segments, named]
  rfl

theorem addresses_of_object {op : Operation s} {name : String} (named : op.object? = some name)
    (h : addressesInstance name = true) :
    ∀ other, op.object? = some other → addressesInstance other = true := by
  intro other same
  obtain rfl := Option.some.inj (named.symm.trans same)
  exact h

theorem verb_of_method {op : Operation s} (h : op.method ≠ .get) :
    op.verb ∈ [Verb.create, .update, .delete] := by
  cases op with
  | list | get | stats | fetch | report => exact absurd rfl h
  | create | update | delete | replace => simp [verb]

theorem readReply_of_method {op : Operation s} (h : op.method ≠ .get) (bytes : Bytes) :
    ∃ a, op.readReply bytes = .ok a := by
  cases op with
  | list | get | stats | fetch | report => exact absurd rfl h
  | create | update | delete | replace => exact ⟨(), rfl⟩

theorem slashed_segments (op : Operation s) : Builder.slashed op.segments =
    (op.object?.elim "" fun name => "/" ++ encodeInstance name) ++
      (if op.wantsStats then "/stats" else "") := by
  cases op <;>
    simp [segments, object?, wantsStats, Builder.slashed, String.append_assoc]

theorem checkName_of_refused {name : String} (h : addressesInstance name = false) :
    checkName (some name) = .error (.invalidRequest
      ("object name " ++ Text.quoted name ++ " does not address an instance")) := by
  rw [checkName, h]
  rfl

theorem checkName_eq_ok_iff {object? : Option String} :
    checkName object? = .ok () ↔ ∀ name, object? = some name → addressesInstance name = true := by
  cases object? with
  | none => simp [checkName]
  | some name => cases addresses : addressesInstance name <;> simp [checkName, addresses]

end Operation

namespace Builder

/-- The object comes after the parts of the path, and before the mark of statistics. -/
theorem segments_eq_append (b : Builder) :
    b.segments = [b.root, b.category, b.manager, b.resource, b.subResource].filterMap id ++
      (b.object.toList ++ if b.stats then ["stats"] else []) := by
  have parts : [b.root, b.category, b.manager, b.resource, b.subResource, b.object] =
      [b.root, b.category, b.manager, b.resource, b.subResource] ++ [b.object] := rfl
  rw [segments, parts, List.filterMap_append, List.append_assoc]
  cases b.object <;> rfl

theorem segments_operation {s : Shape} {op : Operation s}
    (addresses : ∀ name, op.object? = some name → addressesInstance name = true) {b : Builder}
    (unnamed : b.object = none) (plain : b.stats = false) :
    (b.applyAll op.steps).segments = b.segments ++ op.segments := by
  have named : ∀ name, op.object? = some name → objectSegment name =
      some (encodeInstance name) := by
    intro name object
    refine if_neg ?_
    rintro rfl
    exact absurd (addresses "" object) (by decide)
  have placed : b.applyAll op.steps =
      { b with object := op.object?.map encodeInstance, stats := op.wantsStats } := by
    cases b
    cases op <;>
      simp_all [Operation.steps, Operation.object?, Operation.wantsStats, applyAll, apply]
  rw [placed, segments_eq_append, segments_eq_append, unnamed, plain, Operation.segments]
  simp

end Builder

namespace ResourcePath

/-- An operation adds its segments to the applied path, unless the name of its object is refused. -/
theorem path_operation (p : ResourcePath) (method : Method) {s : Shape} {op : Operation s}
    (addresses : ∀ name, op.object? = some name → addressesInstance name = true) :
    ((p.apply { method }).applyAll op.steps).path =
      (p.apply { method }).path ++ Builder.slashed op.segments := by
  have fresh : (p.apply { method }).object = none ∧ (p.apply { method }).stats = false := by
    obtain ⟨manager, resource, _ | part⟩ := p <;> exact ⟨rfl, rfl⟩
  rw [path_apply, ← Builder.slashed_append, Builder.path,
    Builder.segments_operation addresses fresh.1 fresh.2, segments_apply, segments,
    List.cons_append, List.filterMap_cons_some literal_managementRoot]
  rfl

theorem body_not_mem_steps (p : ResourcePath) (text : String) :
    Builder.Step.body text ∉ p.steps := by
  obtain ⟨manager, resource, _ | part⟩ := p <;> simp [steps]

end ResourcePath

namespace Resource

variable {r : Resource}

/-- An operation makes its request when the name of its object is not refused and its record, if it
has one, can be written. -/
theorem request_eq_ok_iff {op : Operation r.shape} {q : Request} :
    r.request op = .ok q ↔ Operation.checkName op.object? = .ok () ∧
      op.record?.map r.marshal = q.body.map .ok ∧ q.method = op.method ∧
      q.path = ((r.path.apply { method := op.method }).applyAll op.steps).path := by
  have method := Builder.method_applyAll (r.path.apply { method := op.method }) op.steps
  have placed := Builder.method_applyAll { method := op.method } r.path.steps
  have body := Builder.body_applyAll (r.path.apply { method := op.method }) op.body_not_mem_steps
  have empty := Builder.body_applyAll { method := op.method } r.path.body_not_mem_steps
  have made : ∀ text : Option String, (((r.path.apply { method := op.method }).applyAll
      op.steps).applyAll (text.toList.map .body)).request =
        ⟨op.method, ((r.path.apply { method := op.method }).applyAll op.steps).path, text⟩ := by
    intro text
    rw [Builder.request_body, method, body, ResourcePath.apply, placed, empty, Option.or_none]
  unfold request
  constructor
  · intro h
    obtain ⟨_, checked, prepared⟩ := bind_eq_ok_iff.1 h
    refine ⟨checked, ?_⟩
    cases record : op.record? with
    | none =>
      rw [record] at prepared
      obtain rfl := (made none).symm.trans (Except.ok.inj prepared)
      exact ⟨rfl, rfl, rfl⟩
    | some value =>
      rw [record] at prepared
      obtain ⟨text, marshalled, sent⟩ := bind_eq_ok_iff.1 prepared
      obtain rfl := (made (some text)).symm.trans (Except.ok.inj sent)
      exact ⟨congrArg some marshalled, rfl, rfl⟩
  · intro ⟨checked, written, sameMethod, samePath⟩
    obtain ⟨_, _, body⟩ := q
    subst sameMethod samePath
    rw [checked]
    cases record : op.record? with
    | none =>
      rw [record] at written
      obtain rfl : body = none := Option.map_eq_none_iff.1 written.symm
      exact congrArg Except.ok (made none)
    | some value =>
      rw [record] at written
      obtain ⟨text, rfl, marshalled⟩ := Option.map_eq_some_iff.1 written.symm
      simp only [← marshalled]
      exact congrArg Except.ok (made (some text))

theorem method_request {op : Operation r.shape} {q : Request} (h : r.request op = .ok q) :
    q.method = op.method :=
  (request_eq_ok_iff.1 h).2.2.1

theorem request_refused {op : Operation r.shape} {name : String} (named : op.object? = some name)
    (h : addressesInstance name = false) : r.request op = .error (.invalidRequest
      ("object name " ++ Text.quoted name ++ " does not address an instance")) := by
  unfold request
  rw [named, Operation.checkName_of_refused h]
  rfl

section
variable (literal : r.path.Literal) {op : Operation r.shape} {body : Option String}
  (written : op.record?.map r.marshal = body.map .ok)
include literal written

theorem request_literal
    (addresses : ∀ name, op.object? = some name → addressesInstance name = true) :
    r.request op = .ok ⟨op.method, Builder.slashed (r.path.segments ++ op.segments), body⟩ := by
  refine request_eq_ok_iff.2 ⟨Operation.checkName_eq_ok_iff.2 addresses, written, rfl, ?_⟩
  rw [r.path.path_operation op.method addresses, literal.path_apply, ResourcePath.text_eq,
    Builder.slashed_append]

theorem request_collection (unnamed : op.object? = none) (plain : op.wantsStats = false) :
    r.request op = .ok ⟨op.method, r.path.text, body⟩ := by
  have addresses : ∀ name, op.object? = some name → addressesInstance name = true := by
    intro name named
    rw [unnamed] at named
    exact nomatch named
  have none : op.segments = [] := by rw [Operation.segments, unnamed, plain]; rfl
  rw [request_literal literal written addresses, none, List.append_nil, ← ResourcePath.text_eq]

theorem request_object {name : String} (named : op.object? = some name)
    (plain : op.wantsStats = false) (h : addressesInstance name = true) :
    r.request op = .ok ⟨op.method, r.path.text ++ "/" ++ encodeInstance name, body⟩ := by
  have one : op.segments = [encodeInstance name] := by
    rw [Operation.segments_of_object named, plain]
    rfl
  rw [request_literal literal written (Operation.addresses_of_object named h), one,
    Builder.slashed_concat, ← ResourcePath.text_eq]

end

end Resource

namespace Kind

theorem literal_path (k : Kind) : k.path.Literal := by
  cases k <;> exact ⟨by decide, by decide, by decide⟩

theorem form_of_isCreatable {k : Kind} (h : k.isCreatable = true) : k.form = .collection := by
  cases k <;> first | rfl | exact nomatch h

theorem form_of_isDeletable {k : Kind} (h : k.isDeletable = true) : k.form = .collection := by
  cases k <;> first | rfl | exact nomatch h

variable {k : Kind}

theorem written (op : Operation k.resource.shape) :
    op.record?.map k.resource.marshal = (op.record?.map k.shape.write).map .ok := by
  cases op.record? <;> rfl

theorem request_eq {op : Operation k.resource.shape}
    (addresses : ∀ name, op.object? = some name → addressesInstance name = true) :
    k.resource.request op = .ok ⟨op.method, Builder.slashed (k.path.segments ++ op.segments),
      op.record?.map k.shape.write⟩ :=
  Resource.request_literal k.literal_path (written op) addresses

theorem request_collection {op : Operation k.resource.shape} (unnamed : op.object? = none)
    (plain : op.wantsStats = false) :
    k.resource.request op = .ok ⟨op.method, k.path.text, op.record?.map k.shape.write⟩ :=
  Resource.request_collection k.literal_path (written op) unnamed plain

theorem request_object {op : Operation k.resource.shape} {name : String}
    (named : op.object? = some name) (plain : op.wantsStats = false)
    (h : addressesInstance name = true) : k.resource.request op =
      .ok ⟨op.method, k.path.text ++ "/" ++ encodeInstance name, op.record?.map k.shape.write⟩ :=
  Resource.request_object k.literal_path (written op) named plain h

theorem path_of_object {op : Operation k.resource.shape} {name : String}
    (named : op.object? = some name) : Builder.slashed (k.path.segments ++ op.segments) =
      k.path.text ++ "/" ++ encodeInstance name ++ if op.wantsStats then "/stats" else "" := by
  rw [Builder.slashed_append, ← ResourcePath.text_eq, op.slashed_segments, named, Option.elim_some,
    ← String.append_assoc, ← String.append_assoc]

theorem request_refused {op : Operation k.resource.shape} {name : String}
    (named : op.object? = some name) (h : addressesInstance name = false) :
    k.resource.request op = .error (.invalidRequest
      ("object name " ++ Text.quoted name ++ " does not address an instance")) :=
  Resource.request_refused named h

end Kind

end IControl
