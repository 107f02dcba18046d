import IControl.Proofs.Routing
import Mathlib.Data.List.Induction

/-!
# Paths of builders

A step of building fills one place of the request or clears it, and leaves every
other place as it is. So a place holds in the end what the last step for it
leaves there, whatever stands between such steps, and steps for different places
can change their order. The path is made of the places in their fixed order. What
is left in a place is not empty and has no slash at its ends, so the path begins
with one slash and, unless it is a single slash, ends with none.
-/

namespace IControl

namespace Builder

theorem literal_eq_some_iff {part value : String} :
    literal part = some value ↔ value ≠ "" ∧ Text.IsCore part.toList value.toList := by
  rw [← Text.trim_isSlash_eq_iff, literal]
  cases Text.trim Text.isSlash part.toList with
  | nil =>
    refine iff_of_false nofun fun ⟨present, empty⟩ => present ?_
    exact String.toList_inj.1 empty.symm
  | cons c cs =>
    rw [Option.some.injEq, ← String.toList_inj, String.toList_ofList]
    refine ⟨fun same => ⟨?_, same⟩, And.right⟩
    rintro rfl
    exact nomatch same

theorem literal_eq_none_iff {part : String} : literal part = none ↔ ∀ c ∈ part.toList, c = '/' := by
  have blank : literal part = none ↔ Text.trim Text.isSlash part.toList = [] := by
    rw [literal]
    cases Text.trim Text.isSlash part.toList <;> simp
  rw [blank, Text.trim_isSlash_eq_iff]
  constructor
  · rintro ⟨⟨m, n, around⟩, -, -⟩ c inside
    rw [around, List.append_nil, ← List.replicate_add] at inside
    exact List.eq_of_mem_replicate inside
  · intro slashes
    refine ⟨⟨part.toList.length, 0, ?_⟩, nofun, nofun⟩
    rw [List.append_nil, List.replicate_zero, List.append_nil]
    exact List.eq_replicate_of_mem slashes

/-! ### Places -/

/-- The places of a request: those of its path, and the body. -/
inductive Place where
  | root
  | category
  | manager
  | resource
  | subResource
  | object
  | stats
  | body
  deriving DecidableEq, Repr

/-- The places of a path in their order. -/
def Place.ofPath : List Place :=
  [.root, .category, .manager, .resource, .subResource, .object, .stats]

/-- The place that a step is for. -/
def Step.place : Step → Place
  | .root _ => .root
  | .category _ => .category
  | .manager _ => .manager
  | .resource _ => .resource
  | .subResource _ => .subResource
  | .object _ => .object
  | .stats => .stats
  | .body _ => .body

/-- What a step leaves in its place: a literal part without the slashes at its ends, the segment of
a name, the mark of statistics or a body. A part of slashes only and an empty name leave nothing. -/
def Step.value? : Step → Option String
  | .root part | .category part | .manager part | .resource part | .subResource part => literal part
  | .object name => objectSegment name
  | .stats => some "stats"
  | .body text => some text

/-- What a place holds. -/
def held? (b : Builder) : Place → Option String
  | .root => b.root
  | .category => b.category
  | .manager => b.manager
  | .resource => b.resource
  | .subResource => b.subResource
  | .object => b.object
  | .stats => if b.stats then some "stats" else none
  | .body => b.body

theorem held?_apply (b : Builder) (step : Step) (place : Place) :
    (b.apply step).held? place = if step.place = place then step.value? else b.held? place := by
  cases step <;> cases place <;> rfl

/-- What the last step for a place leaves there; nothing if there is none. -/
def lastValue? (steps : List Step) (place : Place) : Option String :=
  (steps.reverse.find? (·.place = place)).bind Step.value?

theorem lastValue?_concat (steps : List Step) (step : Step) (place : Place) :
    lastValue? (steps ++ [step]) place =
      if step.place = place then step.value? else lastValue? steps place := by
  rw [lastValue?, List.reverse_concat, List.find?_cons]
  split_ifs with own <;> simp [own, lastValue?]

/-- A fresh builder after some steps. -/
def made (method : Method) (steps : List Step) : Builder := applyAll { method } steps

/-- After some steps every place of a fresh builder holds what the last step for it leaves there. -/
theorem held?_made (method : Method) (steps : List Step) (place : Place) :
    (made method steps).held? place = lastValue? steps place := by
  induction steps using List.reverseRecOn with
  | nil => cases place <;> rfl
  | append_singleton steps step ih =>
    rw [made, applyAll, List.foldl_concat, held?_apply, lastValue?_concat]
    split_ifs
    · rfl
    · exact ih

theorem eq_of_held? {b c : Builder} (method : b.method = c.method)
    (held : ∀ place, b.held? place = c.held? place) : b = c := by
  have stats : b.stats = c.stats := by
    have marks := held .stats
    rw [held?, held?] at marks
    cases isSet : b.stats <;> cases isSet' : c.stats <;> simp [isSet, isSet'] at marks ⊢
  obtain ⟨_, _, _, _, _, _, _, _, _⟩ := b
  obtain ⟨_, _, _, _, _, _, _, _, _⟩ := c
  rw [mk.injEq]
  exact ⟨method, held .root, held .category, held .manager, held .resource, held .subResource,
    held .object, stats, held .body⟩

theorem apply_apply_comm (b : Builder) {first second : Step} (apart : first.place ≠ second.place) :
    (b.apply first).apply second = (b.apply second).apply first := by
  refine eq_of_held? ?_ fun place => ?_
  · simp only [method_apply]
  · simp only [held?_apply]
    by_cases own : second.place = place
    · have other : first.place ≠ place := fun same => apart (same.trans own.symm)
      rw [if_pos own, if_neg other, if_pos own]
    · rw [if_neg own, if_neg own]

theorem made_swap (method : Method) (before after : List Step) {first second : Step}
    (apart : first.place ≠ second.place) :
    made method (before ++ first :: second :: after) =
      made method (before ++ second :: first :: after) := by
  simp only [made, applyAll, List.foldl_append, List.foldl_cons, apply_apply_comm _ apart]

/-! ### Paths -/

theorem segments_eq (b : Builder) : b.segments = Place.ofPath.filterMap b.held? := by
  have places : Place.ofPath.map b.held? =
      [b.root, b.category, b.manager, b.resource, b.subResource, b.object] ++
        [if b.stats then some "stats" else none] := rfl
  have whole : Place.ofPath.filterMap b.held? = (Place.ofPath.map b.held?).filterMap id := by
    rw [List.filterMap_map, Function.id_comp]
  rw [whole, places, List.filterMap_append, segments]
  cases b.stats <;> rfl

/-- Every segment after a slash, or a single slash. -/
def pathOf (segments : List String) : String :=
  if segments = [] then "/" else String.join (segments.map ("/" ++ ·))

theorem slashed_eq_join (segments : List String) :
    slashed segments = String.join (segments.map ("/" ++ ·)) := by
  induction segments with
  | nil => rfl
  | cons s segments ih => rw [List.map_cons, String.join_cons, ← ih]; rfl

theorem path_eq (b : Builder) : b.path = pathOf b.segments := by
  rw [path, pathOf]
  cases b.segments with
  | nil => rfl
  | cons s segments => rw [if_neg (List.cons_ne_nil s segments), ← slashed_eq_join]

/-- The path of a builder is made of what the last step for each place leaves there. -/
theorem path_made (method : Method) (steps : List Step) :
    (made method steps).path = pathOf (Place.ofPath.filterMap (lastValue? steps)) := by
  rw [path_eq, segments_eq, funext (held?_made method steps)]

/-! ### Ends of paths -/

/-- A segment is not empty and has no slash at its ends. -/
structure IsSegment (segment : String) : Prop where
  present : segment ≠ ""
  first : segment.toList.head? ≠ some '/'
  last : segment.toList.getLast? ≠ some '/'

theorem isSegment_of_slash_not_mem {segment : String} (present : segment ≠ "")
    (free : '/' ∉ segment.toList) : IsSegment segment :=
  ⟨present, fun first => free (List.mem_of_head? first),
    fun last => free (List.mem_of_getLast? last)⟩

theorem isSegment_of_value? {step : Step} (path : step.place ∈ Place.ofPath) {value : String}
    (set : step.value? = some value) : IsSegment value := by
  have literals : ∀ part, literal part = some value → IsSegment value := by
    intro part set
    obtain ⟨present, -, first, last⟩ := literal_eq_some_iff.1 set
    exact ⟨present, first, last⟩
  cases step with
  | root part | category part | manager part | resource part | subResource part =>
    exact literals part set
  | object name =>
    by_cases empty : name = ""
    · rw [Step.value?, objectSegment, if_pos empty] at set
      exact nomatch set
    · rw [Step.value?, objectSegment, if_neg empty] at set
      obtain rfl := Option.some.inj set
      exact isSegment_of_slash_not_mem (encodeInstance_ne_empty empty)
        (slash_not_mem_encodeInstance name)
  | stats =>
    obtain rfl := Option.some.inj set
    exact ⟨by decide, by decide, by decide⟩
  | body text => exact absurd (show Place.body ∈ Place.ofPath from path) (by decide)

theorem isSegment_of_lastValue? {steps : List Step} {place : Place} (path : place ∈ Place.ofPath)
    {value : String} (set : lastValue? steps place = some value) : IsSegment value := by
  obtain ⟨step, last, left⟩ := Option.bind_eq_some_iff.1 set
  have own : step.place = place := by simpa using List.find?_some last
  exact isSegment_of_value? (own ▸ path) left

theorem head?_slashed_tail {s : String} {segments : List String} (first : IsSegment s) :
    (s.toList ++ (slashed segments).toList).head? ≠ some '/' := by
  obtain ⟨c, cs, chars⟩ := List.exists_cons_of_ne_nil (mt String.toList_eq_nil_iff.1 first.present)
  have other := first.first
  rw [chars] at other ⊢
  exact other

theorem getLast?_slashed {segments : List String} (present : segments ≠ [])
    (each : ∀ s ∈ segments, IsSegment s) : (slashed segments).toList.getLast? ≠ some '/' := by
  obtain ⟨others, last, rfl⟩ := (List.eq_nil_or_concat segments).resolve_left present
  have segment := each last (by simp)
  rw [List.concat_eq_append, slashed_concat, String.toList_append]
  have chars : last.toList ≠ [] := mt String.toList_eq_nil_iff.1 segment.present
  rw [List.getLast?_append_of_ne_nil _ chars]
  exact segment.last

/-- A path begins with one slash, and ends with one only when it is nothing more. -/
theorem pathOf_ends {segments : List String} (each : ∀ s ∈ segments, IsSegment s) :
    (∃ rest, (pathOf segments).toList = '/' :: rest ∧ rest.head? ≠ some '/') ∧
      ((pathOf segments).toList.getLast? = some '/' ↔ pathOf segments = "/") := by
  cases segments with
  | nil => exact ⟨⟨[], rfl, nofun⟩, iff_of_true rfl rfl⟩
  | cons s segments =>
    have present := List.cons_ne_nil s segments
    have ending := getLast?_slashed present each
    rw [pathOf, if_neg present, ← slashed_eq_join]
    refine ⟨⟨_, toList_slashed_cons s segments, head?_slashed_tail (each s List.mem_cons_self)⟩,
      iff_of_false ending fun single => ending ?_⟩
    rw [single]
    rfl

theorem path_made_ends (method : Method) (steps : List Step) :
    (∃ rest, (made method steps).path.toList = '/' :: rest ∧ rest.head? ≠ some '/') ∧
      ((made method steps).path.toList.getLast? = some '/' ↔ (made method steps).path = "/") := by
  rw [path_made]
  refine pathOf_ends fun segment inside => ?_
  obtain ⟨place, path, set⟩ := List.mem_filterMap.1 inside
  exact isSegment_of_lastValue? path set

/-- Only the last steps for the places of a path count. -/
theorem path_made_congr (method : Method) {steps others : List Step}
    (same : ∀ place ∈ Place.ofPath, lastValue? others place = lastValue? steps place) :
    (made method others).path = (made method steps).path := by
  rw [path_made, path_made, List.filterMap_congr same]

end Builder

end IControl
