import IControl.Proofs.Device.Persistence
import IControl.Proofs.Segment

/-!
# What a name stands for

A name leads to the record under its own segment. When there is none, a name that
holds no slash and does not begin with a tilde leads to the record of this name
in `Common`. This is the binding of the name, and everything follows it: the calls
that get, update and delete an object, and the look at the store from outside. So
they all find the same record under the same key, or they all find nothing.
-/

namespace IControl

/-- Names that hold a slash or begin with a tilde say where their object is. -/
def IsQualified (name : String) : Prop := '/' ∈ name.toList ∨ name.toList.head? = some '~'

instance (name : String) : Decidable (IsQualified name) := inferInstanceAs (Decidable (_ ∨ _))

theorem head?_encodeInstance (name : String) :
    (encodeInstance name).toList.head? = some '~' ↔ IsQualified name := by
  rw [encodeInstance, String.toList_ofList, Percent.head?_encode, IsQualified]
  by_cases relative : IsRelative name.toList
  · rw [tilded_of_isRelative relative]
    exact iff_of_true rfl (.inl relative.1)
  · rw [tilded_of_not_isRelative relative]
    cases chars : name.toList with
    | nil => simp [swapped]
    | cons c cs =>
      rw [chars] at relative
      rw [swapped_cons, List.head?_cons, List.head?_cons]
      by_cases slash : c = '/'
      · simp [slash]
      by_cases tilde : c = '~'
      · simp [tilde]
      · have free : '/' ∉ c :: cs := fun qualified =>
          relative ⟨qualified, by simpa using slash, by simpa using tilde⟩
        simp [slash, tilde, free]

/-- The key of a name in `Common`. -/
def commonKey (name : String) : String := "~" ++ defaultPartition ++ "~" ++ encodeInstance name

theorem commonKey_ne (name : String) : commonKey name ≠ encodeInstance name := by
  intro same
  have lengths := congrArg String.length same
  have longer : 0 < ("~" ++ defaultPartition ++ "~").length := by decide
  rw [commonKey, String.length_append] at lengths
  omega

theorem encodeInstance_fullPath {name : String} (bare : ¬IsQualified name) :
    encodeInstance (fullPath defaultPartition name) = commonKey name := by
  have relative : ¬IsRelative name.toList := fun h => bare (.inl h.1)
  have trimmed : Text.trim Text.isSlash defaultPartition.toList = defaultPartition.toList := by decide
  have partition : Percent.encode (swapped defaultPartition.toList) = defaultPartition.toList := by
    decide +kernel
  refine String.toList_inj.1 ?_
  rw [commonKey, encodeInstance, encodeInstance, String.toList_ofList, toList_fullPath, trimmed,
    tilded_slash, tilded_of_not_isRelative relative, swapped_append, swapped_cons, if_pos rfl,
    Percent.encode_tilde_cons, Percent.encode_append, Percent.encode_tilde_cons, partition]
  simp

namespace Store

/-- The key and the record that a name stands for in a collection. -/
def binding? (s : Store) (path name : String) : Option (String × Json) :=
  (s.collection? path).bind fun records => lookupSegment records (encodeInstance name)

theorem record?_eq (s : Store) (path name : String) :
    s.record? path name = (s.binding? path name).map Prod.snd := by
  rw [record?, binding?, Option.map_bind]
  rfl

/-- A name stands for the record under its own segment or, when it is not qualified, for the one in
`Common`. -/
theorem binding?_eq (s : Store) (path name : String) : s.binding? path name =
    match s.recordAt? path (encodeInstance name) with
    | some record => some (encodeInstance name, record)
    | none =>
      if IsQualified name then none
      else (s.recordAt? path (commonKey name)).map (commonKey name, ·) := by
  rw [binding?, recordAt?, recordAt?]
  cases s.collection? path with
  | none => simp
  | some records =>
    simp only [Option.bind_some, lookupSegment, head?_encodeInstance]
    rfl

theorem recordAt?_of_binding? {s : Store} {path name key : String} {record : Json}
    (h : s.binding? path name = some (key, record)) : s.recordAt? path key = some record := by
  obtain ⟨records, found, bound⟩ := Option.bind_eq_some_iff.1 h
  rw [recordAt?_of_collection? found, lookupSegment_bound bound]

/-- The store without the record under a key. -/
def without (s : Store) (path key : String) : Store :=
  { s with collections := s.collections.put path (((s.collection? path).getD []).without key) }

theorem changes_without (s : Store) (path key : String) :
    s.Changes (s.without path key) path key (s.recordAt? path key) none := by
  have others : ∀ k, k ≠ key →
      (((s.collection? path).getD []).without key).value? k = s.recordAt? path k := by
    intro k other
    rw [Table.value?_without, if_neg other, value?_getD]
  have change := changes_put s.generation others
  rw [Table.value?_without, if_pos rfl] at change
  exact change

end Store

/-! ### Requests about a name -/

/-- The path of the object of a name. -/
def Kind.objectPath (k : Kind) (name : String) : String :=
  k.path.text ++ "/" ++ encodeInstance name

namespace Store

section
variable {s : Store} (placed : s.Placed) (k : Kind) {name : String}
  (addresses : addressesInstance name = true)
include placed addresses

/-- The path of an object leads below the collection to the binding of the name, if the collection
is registered. -/
theorem Placed.below?_object :
    s.below? (k.objectPath name) = some (k.path.text, s.binding? k.path.text name) ∨
      s.below? (k.objectPath name) = none ∧ s.binding? k.path.text name = none := by
  rw [Kind.objectPath, (placed.at_object k addresses).2.2, binding?]
  cases s.collection? k.path.text with
  | none => exact .inr ⟨rfl, rfl⟩
  | some records => exact .inl rfl

theorem Placed.read_object : s.read (k.objectPath name) =
    match s.binding? k.path.text name with
    | some (_, record) => .ok record
    | none => .error (notFound (k.objectPath name)) := by
  obtain ⟨noCollection, noSingleton, -⟩ := placed.at_object k addresses
  rw [Store.read_eq, Kind.objectPath, noCollection, noSingleton, ← Kind.objectPath]
  rcases placed.below?_object k addresses with below | ⟨below, missing⟩
  · rw [below]
    cases s.binding? k.path.text name <;> rfl
  · rw [below, missing]

theorem Placed.remove_object : s.remove (k.objectPath name) =
    match s.binding? k.path.text name with
    | some (key, _) => .ok (s.without k.path.text key)
    | none => .error (notFound (k.objectPath name)) := by
  rw [remove_eq]
  rcases placed.below?_object k addresses with below | ⟨below, missing⟩
  · rw [below]
    cases s.binding? k.path.text name <;> rfl
  · rw [below, missing]

theorem Placed.replace_object (body : Option String) : s.replace (k.objectPath name) body =
    (readBody (k.objectPath name) body).bind fun document =>
      match s.binding? k.path.text name with
      | some (key, old) => .ok (s.write k.path.text key (withIdentityOf old document))
      | none => .error (notFound (k.objectPath name)) := by
  obtain ⟨-, noSingleton, -⟩ := placed.at_object k addresses
  rw [replace_eq, Kind.objectPath, noSingleton, ← Kind.objectPath]
  rcases placed.below?_object k addresses with below | ⟨below, missing⟩
  · rw [below]
    cases s.binding? k.path.text name <;> rfl
  · rw [below, missing]

end

end Store

namespace Device

/-- Under a context, the calls about a name and the look at the store from outside all find the record
under one key. -/
structure Finds (d : Device) (k : Kind) (ctx : RequestContext) (name key : String) (record : Json) :
    Prop where
  record? : d.store.record? k.path.text name = some record
  get : (⟨ctx⟩ : Client k.resource).call transport d (.get name) =
    (d.accept ⟨.get, k.objectPath name, none⟩,
      some ((k.shape.read (Utf8.encode record.print)).mapError .unmarshal))
  update : ∀ (r : Record k) (document : Json), Json.ofText? (k.shape.write r) = some document →
    (⟨ctx⟩ : Client k.resource).call transport d (.update name r) =
      ({ d.accept ⟨.put, k.objectPath name, some (k.shape.write r)⟩ with
          store := (d.store.write k.path.text key (Store.withIdentityOf record document)).1 },
        some (.ok ()))
  delete : (⟨ctx⟩ : Client k.resource).call transport d (.delete name) =
    ({ d.accept ⟨.delete, k.objectPath name, none⟩ with
        store := d.store.without k.path.text key }, some (.ok ()))

/-- Under a context, the calls about a name and the look at the store from outside all find nothing. -/
structure Misses (d : Device) (k : Kind) (ctx : RequestContext) (name : String) : Prop where
  record? : d.store.record? k.path.text name = none
  get : (⟨ctx⟩ : Client k.resource).call transport d (.get name) =
    (d.accept ⟨.get, k.objectPath name, none⟩, some (.error (Store.notFound (k.objectPath name))))
  update : ∀ (r : Record k) (document : Json), Json.ofText? (k.shape.write r) = some document →
    (⟨ctx⟩ : Client k.resource).call transport d (.update name r) =
      (d.accept ⟨.put, k.objectPath name, some (k.shape.write r)⟩,
        some (.error (Store.notFound (k.objectPath name))))
  delete : (⟨ctx⟩ : Client k.resource).call transport d (.delete name) =
    (d.accept ⟨.delete, k.objectPath name, none⟩,
      some (.error (Store.notFound (k.objectPath name))))

/-- A call that succeeds under a context does what it does under no bounds. -/
theorem call_of_ok {k : Kind} {d : Device} {ctx : RequestContext} {op : Operation k.resource.shape}
    {a : op.Result} (success : ((⟨ctx⟩ : Client k.resource).call transport d op).2 = some (.ok a)) :
    (⟨ctx⟩ : Client k.resource).call transport d op =
      (⟨.background⟩ : Client k.resource).call transport d op := by
  rw [Client.call] at success
  rw [Client.call, Client.call]
  cases request : k.resource.request op with
  | error error => rfl
  | ok q =>
    rw [request, Transport.exchange_ok] at success
    rw [Transport.exchange_ok, Transport.exchange_ok]
    rcases d.send_cases ctx q with unsent | ⟨error, cut⟩ | executed
    · rw [unsent] at success
      cases Option.some.inj success
    · rw [cut] at success
      cases Option.some.inj success
    · rw [executed]
      rfl

theorem addresses_of_ok {k : Kind} {d : Device} {ctx : RequestContext}
    {op : Operation k.resource.shape} {name : String} (named : op.object? = some name) {a : op.Result}
    (success : ((⟨ctx⟩ : Client k.resource).call transport d op).2 = some (.ok a)) :
    addressesInstance name = true := by
  by_contra refused
  rw [Client.call, Kind.request_refused named (Bool.eq_false_iff.2 refused)] at success
  cases Option.some.inj success

section
variable {d : Device} (tidy : d.Tidy) {ctx : RequestContext} (patient : ctx.cut? (some d.delay) = none)
  {k : Kind} {name : String} (addresses : addressesInstance name = true)
include tidy patient addresses

theorem Tidy.call_answered {op : Operation k.resource.shape} (named : op.object? = some name)
    (plain : op.wantsStats = false) {store : Store} {text : String}
    (answered : d.store.answer ⟨op.method, k.objectPath name, op.record?.map k.shape.write⟩ =
      .ok (store, text)) :
    (⟨ctx⟩ : Client k.resource).call transport d op =
      ({ d.accept ⟨op.method, k.objectPath name, op.record?.map k.shape.write⟩ with store },
        some ((op.readReply (Utf8.encode text)).mapError .unmarshal)) := by
  exact call_of_answer (Kind.request_object named plain addresses) patient
    (prepared?_of_nil tidy.prepared _) answered

theorem Tidy.call_refused {op : Operation k.resource.shape} (named : op.object? = some name)
    (plain : op.wantsStats = false) {error : ClientError}
    (refused : d.store.answer ⟨op.method, k.objectPath name, op.record?.map k.shape.write⟩ =
      .error error) :
    (⟨ctx⟩ : Client k.resource).call transport d op =
      (d.accept ⟨op.method, k.objectPath name, op.record?.map k.shape.write⟩,
        some (.error error)) := by
  exact call_of_refusal (Kind.request_object named plain addresses) patient
    (prepared?_of_nil tidy.prepared _) refused

/-- The calls about a name find the record that it stands for. -/
theorem Tidy.finds {key : String} {record : Json}
    (bound : d.store.binding? k.path.text name = some (key, record)) :
    d.Finds k ctx name key record where
  record? := by rw [Store.record?_eq, bound, Option.map_some]
  get := by
    have answered : d.store.answer ⟨.get, k.objectPath name, none⟩ =
        .ok (d.store, record.print) := by
      rw [Store.answer_get, tidy.placed.read_object k addresses, bound]
      rfl
    exact tidy.call_answered patient addresses rfl rfl answered
  update r document sent := by
    have answered : d.store.answer ⟨.put, k.objectPath name, some (k.shape.write r)⟩ =
        .ok ((d.store.write k.path.text key (Store.withIdentityOf record document)).1,
          (d.store.write k.path.text key (Store.withIdentityOf record document)).2.print) := by
      rw [Store.answer_put, tidy.placed.replace_object k addresses, Store.readBody, sent, bound]
      rfl
    exact tidy.call_answered patient addresses rfl rfl answered
  delete := by
    have answered : d.store.answer ⟨.delete, k.objectPath name, none⟩ =
        .ok (d.store.without k.path.text key, "") := by
      rw [Store.answer_delete, tidy.placed.remove_object k addresses, bound]
      rfl
    exact tidy.call_answered patient addresses rfl rfl answered

theorem Tidy.misses (unbound : d.store.binding? k.path.text name = none) :
    d.Misses k ctx name where
  record? := by rw [Store.record?_eq, unbound, Option.map_none]
  get := by
    have refused : d.store.answer ⟨.get, k.objectPath name, none⟩ =
        .error (Store.notFound (k.objectPath name)) := by
      rw [Store.answer_get, tidy.placed.read_object k addresses, unbound]
      rfl
    exact tidy.call_refused patient addresses rfl rfl refused
  update r document sent := by
    have refused : d.store.answer ⟨.put, k.objectPath name, some (k.shape.write r)⟩ =
        .error (Store.notFound (k.objectPath name)) := by
      rw [Store.answer_put, tidy.placed.replace_object k addresses, Store.readBody, sent, unbound]
      rfl
    exact tidy.call_refused patient addresses rfl rfl refused
  delete := by
    have refused : d.store.answer ⟨.delete, k.objectPath name, none⟩ =
        .error (Store.notFound (k.objectPath name)) := by
      rw [Store.answer_delete, tidy.placed.remove_object k addresses, unbound]
      rfl
    exact tidy.call_refused patient addresses rfl rfl refused

theorem Tidy.update_unread {r : Record k} (unread : Json.ofText? (k.shape.write r) = none) :
    (⟨ctx⟩ : Client k.resource).call transport d (.update name r) =
      (d.accept ⟨.put, k.objectPath name, some (k.shape.write r)⟩,
        some (.error (.api 400 "invalid JSON body"))) := by
  have refused : d.store.answer ⟨.put, k.objectPath name, some (k.shape.write r)⟩ =
      .error (.api 400 "invalid JSON body") := by
    rw [Store.answer_put, tidy.placed.replace_object k addresses, Store.readBody, unread]
    rfl
  exact tidy.call_refused patient addresses rfl rfl refused

end

end Device

end IControl
