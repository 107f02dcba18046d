import IControl.Proofs.Http.Url
import IControl.Proofs.Routing
import IControl.Proofs.Segment
import Mathlib.Data.List.TakeWhile

/-!
# Requests that stay at their object

On the way to a server the dot segments of a path are resolved. The segment of a
name consists of dots only when the name does, because a dot is never written as
a percent sign and two digits. So the request for an object arrives at the path
that was built for it, one segment below the path of its kind, unless the object
is named by one dot or two: such a request arrives at the path of the collection
or at the one above.
-/

namespace IControl

namespace Http

/-! ### Dot segments -/

theorem dotCount?_encodeByte (b : UInt8) (rest : List Char) :
    dotCount? (Percent.encodeByte Percent.isUnreserved b ++ rest) =
      if b = 0x2E then (dotCount? rest).map (· + 1) else none := by
  have bytes : ∀ n < 256, UInt8.ofNat n ≠ 0x2E →
      if Percent.isUnreserved (UInt8.ofNat n) then
        Char.ofNat (UInt8.ofNat n).toNat ≠ '.' ∧ Char.ofNat (UInt8.ofNat n).toNat ≠ '%'
      else Percent.hexDigit (n / 16) = '2' →
        Percent.hexDigit (n % 16) ≠ 'e' ∧ Percent.hexDigit (n % 16) ≠ 'E' := by
    decide +kernel
  have byte := bytes b.toNat b.toNat_lt
  rw [UInt8.ofNat_toNat] at byte
  split_ifs with dot
  · rw [dot]
    rfl
  · have other := byte dot
    unfold Percent.encodeByte
    split_ifs at other ⊢ with stays
    · rw [List.singleton_append, dotCount?.eq_def]
      split <;> simp_all
    · rw [List.cons_append, List.cons_append, List.cons_append, List.nil_append,
        dotCount?.eq_def]
      split <;> simp_all

theorem dotCount?_bytes (bs : Bytes) (n : Nat) :
    dotCount? (bs.flatMap (Percent.encodeByte Percent.isUnreserved)) = some n ↔
      bs = List.replicate n 0x2E := by
  induction bs generalizing n with
  | nil => cases n <;> simp [dotCount?, List.replicate_succ]
  | cons b bs ih =>
    rw [List.flatMap_cons, dotCount?_encodeByte]
    cases n with
    | zero => split_ifs <;> simp
    | succ n =>
      split_ifs with dot
      · simp [ih, dot, List.replicate_succ]
      · simp [dot, List.replicate_succ]

theorem dotCount?_encode (cs : List Char) (n : Nat) :
    dotCount? (Percent.encode cs) = some n ↔ cs = List.replicate n '.' := by
  have dots : List.replicate n 0x2E = Utf8.encodeChars (List.replicate n '.') := by
    induction n with
    | zero => rfl
    | succ n ih => rw [List.replicate_succ, List.replicate_succ, ih]; rfl
  rw [Percent.encode, Percent.encodeExcept, dotCount?_bytes, dots]
  constructor
  · intro same
    refine Percent.encode_injective ?_
    rw [Percent.encode, Percent.encode, Percent.encodeExcept, Percent.encodeExcept, same]
  · rintro rfl
    rfl

/-- The segment of a name consists of dots only when the name does. -/
theorem dotCount?_encodeInstance (name : String) (n : Nat) :
    dotCount? (encodeInstance name).toList = some n ↔ name.toList = List.replicate n '.' := by
  rw [encodeInstance, String.toList_ofList, dotCount?_encode, tilded_eq_dots]

/-- The segment is no dot segment. -/
def Stays (segment : List Char) : Prop :=
  dotCount? segment ≠ some 1 ∧ dotCount? segment ≠ some 2

instance (segment : List Char) : Decidable (Stays segment) := inferInstanceAs (Decidable (_ ∧ _))

theorem resolveDots_cons {segment : List Char} (stays : Stays segment) (done : List (List Char))
    {rest : List (List Char)} (more : rest ≠ []) :
    resolveDots done (segment :: rest) = resolveDots (segment :: done) rest := by
  obtain ⟨next, others, rfl⟩ := List.exists_cons_of_ne_nil more
  rw [resolveDots]
  · split
    · rename_i one
      exact absurd one stays.1
    · rename_i two
      exact absurd two stays.2
    · rfl
  · simp

theorem resolveDots_append {segments : List (List Char)} (stay : ∀ s ∈ segments, Stays s)
    (done : List (List Char)) {rest : List (List Char)} (more : rest ≠ []) :
    resolveDots done (segments ++ rest) = resolveDots (segments.reverse ++ done) rest := by
  induction segments generalizing done with
  | nil => rfl
  | cons s segments ih =>
    have following : segments ++ rest ≠ [] := fun none => more (List.append_eq_nil_iff.1 none).2
    rw [List.cons_append, resolveDots_cons (stay s List.mem_cons_self) done following,
      ih (fun t inside => stay t (List.mem_cons_of_mem _ inside)), List.reverse_cons,
      List.append_assoc, List.singleton_append]

theorem resolveDots_of_stays {segments : List (List Char)} (stay : ∀ s ∈ segments, Stays s) :
    resolveDots [] segments = segments := by
  rcases List.eq_nil_or_concat segments with rfl | ⟨others, last, rfl⟩
  · rfl
  · rw [List.concat_eq_append] at stay ⊢
    have ends := stay last (by simp)
    rw [resolveDots_append (fun s inside => stay s (List.mem_append_left _ inside)) [] (by simp),
      resolveDots]
    split
    · rename_i one
      exact absurd one ends.1
    · rename_i two
      exact absurd two ends.2
    · simp

theorem resolveDots_ne_nil (done : List (List Char)) {segments : List (List Char)}
    (present : segments ≠ []) : resolveDots done segments ≠ [] := by
  fun_induction resolveDots done segments with
  | case1 => exact absurd rfl present
  | case2 => simp
  | case3 => simp
  | case4 => simp
  | case5 _ _ _ more _ ih => exact ih (by simpa using more)
  | case6 _ _ _ more _ ih => exact ih (by simpa using more)
  | case7 _ _ _ more _ _ ih => exact ih (by simpa using more)

theorem removeDotSegments_slashed {segments : List String} (present : segments ≠ [])
    (slashless : ∀ s ∈ segments, '/' ∉ s.toList) :
    removeDotSegments (Builder.slashed segments) =
      Builder.slashed ((resolveDots [] (segments.map String.toList)).map String.ofList) := by
  obtain ⟨s, others, rfl⟩ := List.exists_cons_of_ne_nil present
  have pieces := Builder.splitAt_slashed slashless
  rw [Builder.toList_slashed_cons, Text.splitAt, if_pos rfl] at pieces
  have resolved : resolveDots [] ((s :: others).map String.toList) ≠ [] :=
    resolveDots_ne_nil [] (List.cons_ne_nil _ _)
  rw [removeDotSegments, Builder.toList_slashed_cons, Text.trimOne]
  simp only [Text.isSlash, beq_self_eq_true, if_true]
  rw [(List.cons.inj pieces).2, Builder.slash_intercalate]
  exact fun none => resolved (List.map_eq_nil_iff.1 none)

/-- A dot segment leaves nothing behind, and two dots take the segment before them away. -/
theorem resolveDots_dotted {segment : List Char} {n : Nat} (dots : dotCount? segment = some n)
    (few : n = 1 ∨ n = 2) (done : List (List Char)) (stats : Bool) :
    resolveDots done (segment :: if stats then ["stats".toList] else []) =
      (done.drop (n - 1)).reverse ++ [if stats then "stats".toList else []] := by
  have stays : dotCount? ['s', 't', 'a', 't', 's'] = none := by decide
  rcases few with rfl | rfl <;> cases stats <;> simp [resolveDots, dots, stays]

/-- The segment of a name below a path without dot segments is resolved only when the name is made of
one dot or two. -/
theorem resolveDots_object {home : List (List Char)} (stay : ∀ s ∈ home, Stays s) (name : String)
    (stats : Bool) :
    resolveDots [] (home ++ (encodeInstance name).toList :: if stats then ["stats".toList] else []) =
      if name = "." then home ++ [if stats then "stats".toList else []]
      else if name = ".." then home.dropLast ++ [if stats then "stats".toList else []]
      else home ++ (encodeInstance name).toList :: if stats then ["stats".toList] else [] := by
  have dots := dotCount?_encodeInstance name
  by_cases one : name = "."
  · have dotted : dotCount? (encodeInstance name).toList = some 1 := (dots 1).2 (by rw [one]; rfl)
    rw [if_pos one, resolveDots_append stay [] (List.cons_ne_nil _ _),
      resolveDots_dotted dotted (.inl rfl), List.append_nil, List.drop_zero, List.reverse_reverse]
  by_cases two : name = ".."
  · have dotted : dotCount? (encodeInstance name).toList = some 2 := (dots 2).2 (by rw [two]; rfl)
    rw [if_neg one, if_pos two, resolveDots_append stay [] (List.cons_ne_nil _ _),
      resolveDots_dotted dotted (.inr rfl), List.append_nil, List.drop_one, List.tail_reverse,
      List.reverse_reverse]
  · rw [if_neg one, if_neg two]
    refine resolveDots_of_stays
      (List.forall_mem_append.2 ⟨stay, List.forall_mem_cons.2 ⟨⟨?_, ?_⟩, ?_⟩⟩)
    · intro dotted
      exact one (String.toList_inj.1 ((dots 1).1 dotted))
    · intro dotted
      exact two (String.toList_inj.1 ((dots 2).1 dotted))
    · cases stats <;> decide

/-! ### Targets -/

/-- The characters of the paths that are built: those of encoded segments, and slashes. -/
def isRouteChar (c : Char) : Bool := Percent.isPlainChar c || c == '%' || c == '/'

theorem toNat_routeChar_lt {c : Char} (h : isRouteChar c = true) : c.toNat < 128 := by
  have letterOrMark : c.isAlphanum = true ∨ c ∈ ['-', '.', '_', '~', '%', '/'] := by
    simp only [isRouteChar, Percent.isPlainChar, Bool.or_eq_true, List.contains_iff_mem,
      beq_iff_eq] at h
    rcases h with ((letter | mark) | rfl) | rfl
    · exact .inl letter
    · exact .inr (List.mem_append_left ['%', '/'] mark)
    · exact .inr (by decide)
    · exact .inr (by decide)
  rcases letterOrMark with letter | mark
  · rw [Percent.isAlphanum_iff] at letter
    omega
  · simp only [List.mem_cons, List.not_mem_nil, or_false] at mark
    rcases mark with rfl | rfl | rfl | rfl | rfl | rfl <;> decide

/-- A character of a path is sent as it is, and neither blank nor a mark that divides a URL. -/
theorem routeChar_sent {c : Char} (h : isRouteChar c = true) :
    0x20 < c.toNat ∧ c ∉ ['?', '#', '\\'] ∧
      (String.utf8EncodeChar c).flatMap (Percent.encodeByte isPathByte) = [c] := by
  have table : ∀ n < 128, isRouteChar (Char.ofNat n) = true →
      0x20 < (Char.ofNat n).toNat ∧ Char.ofNat n ∉ ['?', '#', '\\'] ∧
        (String.utf8EncodeChar (Char.ofNat n)).flatMap (Percent.encodeByte isPathByte) =
          [Char.ofNat n] := by
    decide +kernel
  have char := table c.toNat (toNat_routeChar_lt h)
  rw [Char.ofNat_toNat] at char
  exact char h

theorem encodeExcept_of_route {cs : List Char} (h : ∀ c ∈ cs, isRouteChar c = true) :
    Percent.encodeExcept isPathByte cs = cs := by
  induction cs with
  | nil => rfl
  | cons c cs ih =>
    have others := ih fun d inside => h d (List.mem_cons_of_mem _ inside)
    have first := (routeChar_sent (h c List.mem_cons_self)).2.2
    rw [Percent.encodeExcept, Utf8.encodeChars] at others ⊢
    rw [List.flatMap_cons, List.flatMap_append, first, others, List.singleton_append]

/-- What is sent of the URL of a path is the path with its dot segments resolved. -/
theorem target?_append {url path : String} (address : IsAddress url)
    (rooted : path.toList.head? = some '/') (route : ∀ c ∈ path.toList, isRouteChar c = true) :
    target? (url ++ path) = some (removeDotSegments path) := by
  have clean : ∀ c ∈ path.toList, isControl c = false := fun c inside =>
    decide_eq_false (Nat.not_le.2 (routeChar_sent (route c inside)).1)
  obtain ⟨scheme, host, parts⟩ := address.ofText?_append rooted clean
  -- No character of the path begins a query or a fragment, and none of them is escaped.
  have free : ∀ c ∈ path.toList, c ≠ '?' ∧ c ≠ '#' ∧ c ≠ '\\' := by
    intro c inside
    simpa using (routeChar_sent (route c inside)).2.1
  have noFragment : path.toList.takeWhile (fun c => decide (c ≠ '#')) = path.toList :=
    List.takeWhile_eq_self_iff.2 fun c inside => decide_eq_true (free c inside).2.1
  have noQuery : path.toList.takeWhile (fun c => decide (c ≠ '?')) = path.toList :=
    List.takeWhile_eq_self_iff.2 fun c inside => decide_eq_true (free c inside).1
  have query : path.toList.dropWhile (fun c => decide (c ≠ '?')) = [] :=
    List.dropWhile_eq_nil_iff.2 fun c inside => decide_eq_true (free c inside).1
  have same : path.toList.map (fun c => if c = '\\' then '/' else c) = path.toList := by
    refine (List.map_congr_left fun c inside => if_neg (free c inside).2.2).trans (List.map_id _)
  rw [target?, parts, Option.map_some, Url.target]
  simp only [noFragment, noQuery, query, same, encodeExcept_of_route route, String.ofList_toList]
  simp

/-! ### Objects -/

theorem routeChar_segments (k : Kind) : ∀ s ∈ k.path.segments,
    (∀ c ∈ s.toList, isRouteChar c = true) ∧ Stays s.toList := by
  have table : ∀ k ∈ Kind.all, ∀ s ∈ k.path.segments,
      s.toList.all isRouteChar = true ∧ Stays s.toList := by
    decide +kernel
  intro s inside
  obtain ⟨route, stays⟩ := table k k.mem_all s inside
  exact ⟨List.all_eq_true.1 route, stays⟩

theorem routeChar_encodeInstance (name : String) :
    ∀ c ∈ (encodeInstance name).toList, isRouteChar c = true := by
  intro c inside
  rw [encodeInstance, String.toList_ofList] at inside
  rcases (Percent.encoded_encode _).mem inside with plain | percent | hex
  · simp [isRouteChar, plain]
  · simp [isRouteChar, percent]
  · simp [isRouteChar, Percent.isPlainChar_of_isHexChar hex]

section
variable {k : Kind} {op : Operation k.resource.shape} {name : String}

theorem slash_not_mem_object : ∀ s ∈ k.path.segments ++ op.segments, '/' ∉ s.toList :=
  List.forall_mem_append.2 ⟨Kind.slash_not_mem_home (some k), op.slash_not_mem_segments⟩

theorem routeChar_object :
    ∀ c ∈ (Builder.slashed (k.path.segments ++ op.segments)).toList, isRouteChar c = true := by
  intro c inside
  rcases Builder.mem_slashed inside with rfl | ⟨s, segment, inside⟩
  · decide
  rcases List.mem_append.1 segment with home | added
  · exact (routeChar_segments k s home).1 c inside
  rcases List.mem_append.1 added with object | mark
  · obtain ⟨name, -, rfl⟩ := Option.map_eq_some_iff.1 (Option.mem_toList.1 object)
    exact routeChar_encodeInstance name c inside
  · split_ifs at mark
    · obtain rfl := List.mem_singleton.1 mark
      have letters : "stats".toList.all isRouteChar = true := by decide
      exact List.all_eq_true.1 letters c inside
    · exact absurd mark List.not_mem_nil

theorem removeDotSegments_object (named : op.object? = some name) :
    removeDotSegments (Builder.slashed (k.path.segments ++ op.segments)) =
      if name = "." then Builder.slashed (k.path.segments ++ [if op.wantsStats then "stats" else ""])
      else if name = ".." then
        Builder.slashed (k.path.segments.dropLast ++ [if op.wantsStats then "stats" else ""])
      else Builder.slashed (k.path.segments ++ op.segments) := by
  have present : k.path.segments ++ op.segments ≠ [] := by
    simp [Operation.segments_of_object named]
  have stay : ∀ s ∈ k.path.segments.map String.toList, Stays s :=
    List.forall_mem_map.2 fun s inside => (routeChar_segments k s inside).2
  -- The texts of segments are their characters again.
  have texts : ∀ segments : List String, (segments.map String.toList).map String.ofList = segments := by
    intro segments
    rw [List.map_map]
    exact (List.map_congr_left fun s _ => String.ofList_toList).trans (List.map_id _)
  have resolved := resolveDots_object stay name op.wantsStats
  rw [removeDotSegments_slashed present slash_not_mem_object, List.map_append,
    Operation.segments_of_object named, List.map_cons, apply_ite (List.map String.toList), List.map_singleton,
    List.map_nil, resolved]
  by_cases one : name = "."
  · rw [if_pos one, if_pos one, List.map_append, texts, List.map_singleton,
      apply_ite String.ofList, String.ofList_toList, String.ofList_nil]
  by_cases two : name = ".."
  · rw [if_neg one, if_pos two, if_neg one, if_pos two, List.map_append, ← List.map_dropLast, texts,
      List.map_singleton, apply_ite String.ofList, String.ofList_toList, String.ofList_nil]
  · rw [if_neg one, if_neg two, if_neg one, if_neg two, List.map_append, List.map_cons, texts,
      apply_ite (List.map String.ofList), List.map_singleton, List.map_nil, String.ofList_toList,
      String.ofList_toList]

theorem removeDotSegments_object_iff (named : op.object? = some name) :
    removeDotSegments (Builder.slashed (k.path.segments ++ op.segments)) =
      Builder.slashed (k.path.segments ++ op.segments) ↔ name ≠ "." ∧ name ≠ ".." := by
  have resolved := removeDotSegments_object (k := k) named
  have home : ∀ s ∈ k.path.segments, '/' ∉ s.toList := Kind.slash_not_mem_home (some k)
  have mark : ∀ s ∈ [if op.wantsStats then "stats" else ""], '/' ∉ s.toList := by
    cases op.wantsStats <;> decide
  have segments := Operation.segments_of_object named
  rw [resolved]
  constructor
  · intro same
    refine ⟨?_, ?_⟩
    · rintro rfl
      rw [if_pos rfl] at same
      have pieces := Builder.slashed_injective (List.forall_mem_append.2 ⟨home, mark⟩)
        slash_not_mem_object same
      rw [List.append_cancel_left_eq, segments] at pieces
      have dot : encodeInstance "." = "." := by decide +kernel
      have first := (List.cons.inj pieces).1
      rw [dot] at first
      cases stats : op.wantsStats <;> simp [stats] at first
    · rintro rfl
      rw [if_neg (by decide), if_pos rfl] at same
      have pieces := Builder.slashed_injective (List.forall_mem_append.2
        ⟨fun s inside => home s (List.dropLast_subset _ inside), mark⟩) slash_not_mem_object same
      have lengths := congrArg List.length pieces
      rw [List.length_append, List.length_append, List.length_dropLast, segments] at lengths
      simp [ResourcePath.segments] at lengths
  · rintro ⟨one, two⟩
    rw [if_neg one, if_neg two]

/-- An operation on an object goes to a path with one segment more than that of its kind, which is not
empty, and perhaps the mark of statistics. What a session sends to a server is this path with its dot
segments resolved. That is the same path, unless the name is one dot or two: one dot leads to the
collection, two dots to what is above it. -/
theorem resolved_request (named : op.object? = some name) (addresses : addressesInstance name = true) :
    ∃ q, k.resource.request op = .ok q ∧
      q.path = k.path.text ++ "/" ++ encodeInstance name ++ (if op.wantsStats then "/stats" else "") ∧
      encodeInstance name ≠ "" ∧ '/' ∉ (encodeInstance name).toList ∧
      (∀ s : Session, IsAddress s.baseUrl →
        target? (s.url q.path) = some (removeDotSegments q.path)) ∧
      (removeDotSegments q.path = q.path ↔ name ≠ "." ∧ name ≠ "..") ∧
      (name = "." →
        removeDotSegments q.path = k.path.text ++ if op.wantsStats then "/stats" else "/") ∧
      (name = ".." → removeDotSegments q.path =
        Builder.slashed k.path.segments.dropLast ++ if op.wantsStats then "/stats" else "/") := by
  have request : k.resource.request op = .ok ⟨op.method,
      Builder.slashed (k.path.segments ++ op.segments), op.record?.map k.shape.write⟩ :=
    Kind.request_eq (Operation.addresses_of_object named addresses)
  have resolved := removeDotSegments_object (k := k) named
  have ending : ∀ segments : List String,
      Builder.slashed (segments ++ [if op.wantsStats then "stats" else ""]) =
        Builder.slashed segments ++ if op.wantsStats then "/stats" else "/" := by
    intro segments
    rw [Builder.slashed_concat, String.append_assoc]
    cases op.wantsStats <;> rfl
  refine ⟨_, request, Kind.path_of_object named, ?_, slash_not_mem_encodeInstance name, ?_,
    removeDotSegments_object_iff named, ?_, ?_⟩
  · intro empty
    exact encodeInstance_ne_nil addresses (by rw [empty]; rfl)
  · intro s address
    have rooted : (Builder.slashed (k.path.segments ++ op.segments)).toList.head? = some '/' := by
      rw [Kind.path_of_object named]
      simp [ResourcePath.text]
    rw [(url_of_rooted rooted s).2]
    exact target?_append address rooted routeChar_object
  · rintro rfl
    rw [resolved, if_pos rfl, ending, ResourcePath.text_eq]
  · rintro rfl
    rw [resolved, if_neg (by decide), if_pos rfl, ending]

end

/-- The name of a single dot is accepted, and the removal of that folder is sent to the path of all
folders. -/
theorem resolved_request_collection :
    addressesInstance "." = true ∧
      ∃ q, Kind.folder.resource.request (.delete ".") = .ok q ∧ q.path = "/mgmt/tm/sys/folder/." ∧
        removeDotSegments q.path = "/mgmt/tm/sys/folder/" ∧ removeDotSegments q.path ≠ q.path := by
  refine ⟨by decide, _, rfl, ?_, ?_, ?_⟩ <;> decide +kernel

/-- A session with a device. -/
def bigip : Session := ⟨"https://bigip.example", "admin", "admin", none⟩

/-- A name of three dots is no dot segment. -/
theorem resolved_request_dots :
    Operation.object? (.delete "..." : Operation Kind.folder.resource.shape) = some "..." ∧
      addressesInstance "..." = true ∧ IsAddress bigip.baseUrl ∧
      ∃ q, Kind.folder.resource.request (.delete "...") = .ok q ∧
        target? (bigip.url q.path) = some "/mgmt/tm/sys/folder/..." := by
  have named : Operation.object? (.delete "..." : Operation Kind.folder.resource.shape) =
      some "..." := rfl
  have accepted : addressesInstance "..." = true := by decide
  have parts : Url.ofText? bigip.baseUrl =
      some ⟨"https".toList, "bigip.example".toList, []⟩ := by
    decide +kernel
  have address : IsAddress bigip.baseUrl := ⟨by simp [bigip, isControl], _, _, parts⟩
  obtain ⟨q, request, path, -, -, sent, same, -, -⟩ :=
    resolved_request (k := .folder) named accepted
  have text : q.path = "/mgmt/tm/sys/folder/..." := by
    rw [path]
    decide +kernel
  refine ⟨named, accepted, address, q, request, ?_⟩
  rw [sent bigip address, same.2 (by decide), text]

end Http

end IControl
