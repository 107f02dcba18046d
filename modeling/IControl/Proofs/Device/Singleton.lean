import IControl.Proofs.Device.Records

/-!
# Singletons are replaced whole

The path of a singleton is neither that of a collection nor right below one, so
reading it and replacing it come down to the document that is registered there,
if there is one. The new document is the one that was sent: nothing of the old
one is kept, and nothing is assigned. A record of a singleton has no free values
to lose, so whatever record is sent is read again as it is.
-/

namespace IControl

/-- Records of singletons keep nothing that their type does not determine. -/
theorem Kind.isDetermined_of_singleton {k : Kind} (form : k.form = .singleton) :
    k.shape.isDetermined = true := by
  cases k <;> first | decide +kernel | exact nomatch form

theorem Kind.fits (k : Kind) : 120 + k.shape.height ≤ Document.maxDepth :=
  Shape.Served.fits (.inl ⟨k, rfl⟩)

theorem Record.holds_of_singleton {k : Kind} (form : k.form = .singleton) (r : Record k) :
    k.shape.Holds (Json.Lasting 120) r :=
  k.shape.holds_of_isDetermined (Kind.isDetermined_of_singleton form) r

namespace Store

section
variable {s : Store} (placed : s.Placed) (k : Kind)
include placed

theorem Placed.below?_text : s.below? k.path.text = none := by
  by_contra found
  obtain ⟨⟨parent, bound⟩, below⟩ := Option.ne_none_iff_exists'.1 found
  obtain ⟨segment, records, whole, slash, held, -⟩ := below?_eq_some below
  obtain ⟨l, -, rfl⟩ := placed.collections parent (Option.isSome_of_eq_some held)
  exact l.object_ne_text slash k whole.symm

variable {k} (form : k.form = .singleton)
include form

theorem Placed.collection?_singleton : s.collection? k.path.text = none := by
  by_contra registered
  obtain ⟨l, collection, same⟩ := placed.collections _ (Option.isSome_iff_ne_none.2 registered)
  obtain rfl := Kind.eq_of_text same
  exact nomatch form.symm.trans collection

theorem Placed.read_singleton : s.read k.path.text =
    match s.singleton? k.path.text with
    | some document => .ok document
    | none => .error (notFound k.path.text) := by
  have read := s.read_eq k.path.text
  rw [placed.collection?_singleton form, placed.below?_text k] at read
  exact read

omit form in
theorem Placed.replace_text (body : Option String) : s.replace k.path.text body =
    (readBody k.path.text body).bind fun document =>
      match s.singleton? k.path.text with
      | some _ => .ok (s.setSingleton k.path.text document, document)
      | none => .error (notFound k.path.text) := by
  have replaced := s.replace_eq k.path.text body
  rw [placed.below?_text k] at replaced
  exact replaced

end

end Store

namespace Device

section
variable {d : Device} (tidy : d.Tidy) {k : Kind} (form : k.form = .singleton) {ctx : RequestContext}
  (patient : ctx.cut? (some d.delay) = none)
include tidy form patient

theorem Tidy.fetch_document {r : Record k}
    (found : d.store.singleton? k.path.text = some r.document) :
    ((⟨ctx⟩ : Client k.resource).call transport d .fetch).2 = some (.ok r) := by
  have answered : d.store.answer ⟨.get, k.path.text, none⟩ = .ok (d.store, r.document.print) := by
    rw [Store.answer_get, tidy.placed.read_singleton form, found]
    rfl
  have decoded : (Operation.fetch : Operation k.resource.shape).readReply
      (Utf8.encode r.document.print) = .ok r :=
    Record.read_document (Record.holds_of_singleton form r) (Kind.fits k)
  have request : k.resource.request .fetch = .ok ⟨.get, k.path.text, none⟩ :=
    Kind.request_collection rfl rfl
  rw [call_of_answer request patient (prepared?_of_nil tidy.prepared _) answered, decoded]
  rfl

theorem Tidy.fetch_missing (missing : d.store.singleton? k.path.text = none) :
    ((⟨ctx⟩ : Client k.resource).call transport d .fetch).2 =
      some (.error (Store.notFound k.path.text)) := by
  have refused : d.store.answer ⟨.get, k.path.text, none⟩ =
      .error (Store.notFound k.path.text) := by
    rw [Store.answer_get, tidy.placed.read_singleton form, missing]
    rfl
  have request : k.resource.request .fetch = .ok ⟨.get, k.path.text, none⟩ :=
    Kind.request_collection rfl rfl
  rw [call_of_refusal request patient (prepared?_of_nil tidy.prepared _) refused]

end

/-- A record that is sent to a singleton takes the place of its document, whole and as it was sent, and
is read again as it is. Where no singleton is registered, none comes to be, and nothing is found. -/
theorem fetch_replaced {d : Device} (tidy : d.Tidy) {k : Kind} (form : k.form = .singleton)
    (r : Record k) {writer reader : RequestContext} (writes : writer.cut? (some d.delay) = none)
    (reads : reader.cut? (some d.delay) = none) :
    ∃ (next : Device) (outcome : Except ClientError Unit),
      (⟨writer⟩ : Client k.resource).call transport d (.replace r) = (next, some outcome) ∧
      (∀ old, d.store.singleton? k.path.text = some old →
        outcome = .ok () ∧ d.store.Resets next.store k.path.text old r.document ∧
        ((⟨reader⟩ : Client k.resource).call transport next .fetch).2 = some (.ok r)) ∧
      (d.store.singleton? k.path.text = none →
        outcome = .error (Store.notFound k.path.text) ∧ next.store = d.store ∧
        ((⟨reader⟩ : Client k.resource).call transport next .fetch).2 =
          some (.error (Store.notFound k.path.text))) := by
  have request : k.resource.request (.replace r) =
      .ok ⟨.put, k.path.text, some (k.shape.write r)⟩ := Kind.request_collection rfl rfl
  have unprepared := prepared?_of_nil tidy.prepared ⟨.put, k.path.text, some (k.shape.write r)⟩
  have sent : Store.readBody k.path.text (some (k.shape.write r)) = .ok r.document := by
    rw [Store.readBody, Record.ofText?_write (Record.holds_of_singleton form r) (Kind.fits k)]
  cases held : d.store.singleton? k.path.text with
  | some old =>
    have answered : d.store.answer ⟨.put, k.path.text, some (k.shape.write r)⟩ =
        .ok (d.store.setSingleton k.path.text r.document, r.document.print) := by
      rw [Store.answer_put, tidy.placed.replace_text, sent, held]
      rfl
    have reset := Store.resets_setSingleton held r.document
    have calm : Tidy { d.accept ⟨.put, k.path.text, some (k.shape.write r)⟩ with
        store := d.store.setSingleton k.path.text r.document } :=
      ⟨tidy.prepared, tidy.placed.setSingleton form r.document⟩
    refine ⟨_, _, call_of_answer request writes unprepared answered, ?_,
      fun missing => absurd missing (Option.some_ne_none old)⟩
    intro before same
    obtain rfl := Option.some.inj same
    exact ⟨rfl, reset, calm.fetch_document form reads reset.after_eq⟩
  | none =>
    have refused : d.store.answer ⟨.put, k.path.text, some (k.shape.write r)⟩ =
        .error (Store.notFound k.path.text) := by
      rw [Store.answer_put, tidy.placed.replace_text, sent, held]
      rfl
    have calm : (d.accept ⟨.put, k.path.text, some (k.shape.write r)⟩).Tidy :=
      ⟨tidy.prepared, tidy.placed⟩
    refine ⟨_, _, call_of_refusal request writes unprepared refused,
      fun old same => absurd same.symm (Option.some_ne_none old), fun _ => ?_⟩
    exact ⟨rfl, rfl, calm.fetch_missing form reads held⟩

/-- A device where the resolver is registered, with a member that its records have no field for, and
the clock is not. -/
def resolving : Device :=
  history 5 [.setSingleton .dns rfl (.object [("cache", .bool true), ("search", .array [])])]

/-- The settings of a resolver. -/
def resolver : Record .dns :=
  ({ metadata := (Metadata.named "").toRow, settings := (),
     own := (none, some ["192.0.2.1", "ns\"\n"], some 2, none, none, ()), extra := () } :
    Entry metadataFields.Row Unit
      (Option String × Option (List String) × Option UInt64 × Option (List String) ×
        Option String × Unit) Unit)

/-- The resolver forgets what it had, and the clock stays unknown. -/
theorem fetch_replaced_resolving :
    ((⟨.ofLimit (.ofMilliseconds 9)⟩ : Client Kind.dns.resource).call transport
      ((⟨.background⟩ : Client Kind.dns.resource).call transport resolving (.replace resolver)).1
      .fetch).2 = some (.ok resolver) ∧
    ((⟨.background⟩ : Client Kind.ntp.resource).call transport resolving
      (.replace Kind.ntp.shape.blank)).2 = some (.error (Store.notFound "/mgmt/tm/sys/ntp")) := by
  obtain ⟨tidy, waits⟩ : resolving.Tidy ∧ resolving.delay = 5 := tidy_history 5 _
  have writes : RequestContext.background.cut? (some resolving.delay) = none := rfl
  have reads : (RequestContext.ofLimit (.ofMilliseconds 9)).cut? (some resolving.delay) = none := by
    rw [waits]
    decide
  obtain ⟨next, outcome, called, known, -⟩ :=
    fetch_replaced tidy (k := .dns) rfl resolver writes reads
  obtain ⟨other, missed, sent, -, unknown⟩ :=
    fetch_replaced tidy (k := .ntp) rfl Kind.ntp.shape.blank writes reads
  rw [called, sent]
  exact ⟨(known _ rfl).2.2, congrArg some (unknown rfl).1⟩

end Device

end IControl
