import IControl.Proofs.Future
import IControl.Service

/-!
# Contexts and their runs

The outcome of a run is a matter of three times, and it is the one that the polls
of a supervised job have. A limit or a token that is added leaves the outcome or
takes its place; a limit that is raised or taken away leaves every result that a
job had. The call of a service is such a job: it begins with handing the request
over and finishes with the answer.
-/

namespace IControl

namespace RequestContext

variable {σ α : Type} {ctx : RequestContext} {job : Job σ α} {state : σ}

/-! ### The same without polls -/

theorem cut?_cases {wait : Option Nat} {error : ClientError} (h : ctx.cut? wait = some error) :
    error = .cancelled ∨ ∃ limit, error = .timeout limit := by
  have bounds : ∀ b, ctx.bound? = some b → b.2 = .cancelled ∨ ∃ limit, b.2 = .timeout limit := by
    intro b bound
    unfold bound? at bound
    split at bound
    · exact nomatch bound
    · cases bound
      exact .inl rfl
    · cases bound
      exact .inr ⟨_, rfl⟩
    · split_ifs at bound
      · cases bound
        exact .inl rfl
      · cases bound
        exact .inr ⟨_, rfl⟩
  unfold cut? at h
  split_ifs at h
  · exact .inl (Option.some.inj h).symm
  · split at h
    · exact nomatch h
    · rename_i bound
      split_ifs at h
      exact Option.some.inj h ▸ bounds _ bound

/-- A run ends in what cuts it short, or in its own result after its wait. -/
theorem run_cases {wait : Option Nat} {result r : Except ClientError α}
    (h : ctx.run wait result = some r) :
    (∃ error, ctx.cut? wait = some error ∧ r = .error error) ∨
      ctx.cut? wait = none ∧ wait.isSome = true ∧ r = result := by
  unfold run at h
  split at h
  · rename_i error cut
    exact .inl ⟨error, cut, (Option.some.inj h).symm⟩
  · rename_i patient
    obtain ⟨ms, rfl, rfl⟩ := Option.map_eq_some_iff.1 h
    exact .inr ⟨patient, rfl, rfl⟩

theorem run_of_patient {ms : Nat} (patient : ctx.cut? (some ms) = none)
    (result : Except ClientError α) : ctx.run (some ms) result = some result := by
  simp [run, patient]

theorem andThen_run {β : Type} (wait : Option Nat) (result : Except ClientError α)
    (f : α → Except ClientError β) :
    (ctx.run wait result).andThen f = ctx.run wait (result.bind f) := by
  unfold run Outcome.andThen
  cases ctx.cut? wait with
  | some error => rfl
  | none => cases wait <;> rfl

theorem isSome_run_ofLimit (limit : Duration) (wait : Option Nat) (result : Except ClientError α) :
    ((ofLimit limit).run wait result).isSome = true := by
  unfold run
  split
  · rfl
  · rename_i patient
    cases wait with
    | some ms => rfl
    | none => exact nomatch patient

theorem le_time_bound?_iff (ctx : RequestContext) (t : ℕ∞) :
    t ≤ time (ctx.bound?.map Prod.fst) ↔ t ≤ ctx.limitTime ∧ t ≤ ctx.cancelTime := by
  unfold bound? limitTime cancelTime
  cases ctx.cancelTime? with
  | none => cases ctx.limit <;> simp
  | some c =>
    cases ctx.limit with
    | none => simp
    | some limit =>
      by_cases before : c ≤ limit.milliseconds
      · have early : (c : ℕ∞) ≤ limit.milliseconds := Nat.cast_le.2 before
        simpa [before] using fun h : t ≤ c => h.trans early
      · have early : (limit.milliseconds : ℕ∞) ≤ c := Nat.cast_le.2 (Nat.le_of_not_le before)
        simpa [before] using fun h : t ≤ limit.milliseconds => h.trans early

theorem bound?_of_expired {limit : Duration} (set : ctx.limit = some limit)
    (token : ctx.limitTime < ctx.cancelTime) :
    ctx.bound? = some (limit.milliseconds, .timeout limit) := by
  unfold limitTime cancelTime at token
  unfold bound?
  rw [set] at token ⊢
  cases later : ctx.cancelTime? with
  | none => rfl
  | some c =>
    rw [later] at token
    have before : limit.milliseconds < c := Nat.cast_lt.1 token
    simp only [if_neg (Nat.not_le.2 before)]

theorem bound?_of_cancelled {ms : Nat} (later : ctx.cancelTime? = some ms)
    (limit : ctx.cancelTime < ctx.limitTime) : ctx.bound? = some (ms, .cancelled) := by
  unfold limitTime cancelTime at limit
  unfold bound?
  rw [later] at limit ⊢
  cases set : ctx.limit with
  | none => rfl
  | some d =>
    rw [set] at limit
    have before : ms < d.milliseconds := Nat.cast_lt.1 limit
    simp only [if_pos before.le]

theorem cut?_of_bound {wait : Option Nat} {ms : Nat} {error : ClientError}
    (begun : ctx.isCancelled = false) (bound : ctx.bound? = some (ms, error))
    (early : (ms : ℕ∞) < time wait) : ctx.cut? wait = some error := by
  have late : wait.all (ms < ·) = true := by
    cases wait with
    | none => rfl
    | some w => exact decide_eq_true (Nat.cast_lt.1 early)
  simp [cut?, begun, bound, late]

theorem cut?_of_letsFinish {ms : Nat} (h : ctx.LetsFinish (some ms)) :
    ctx.cut? (some ms) = none := by
  obtain ⟨begun, w, same, inTime⟩ := h
  obtain rfl := Option.some.inj same
  rcases inTime with rfl | ⟨limit, token⟩
  · exact cut?_zero begun
  · have inTime := (ctx.le_time_bound?_iff ms).2 ⟨limit, token.le⟩
    cases first : ctx.bound? with
    | none => simp [cut?, begun, first]
    | some b =>
      rw [first] at inTime
      have notBefore : ¬b.1 < ms := Nat.not_lt.2 (Nat.cast_le.1 inTime)
      simp [cut?, begun, first, notBefore]

/-- What ends a run is nothing but what cuts it short. -/
theorem Comes.cut {out : σ × Except ClientError α} (h : ctx.Comes job state out) :
    ctx.isCancelled = true ∧ out = (state, .error .cancelled) ∨
    ctx.isCancelled = false ∧
      ((∃ error, ctx.cut? job.wait = some error ∧ out = (job.begin state, .error error)) ∨
        ∃ ms, job.wait = some ms ∧ ctx.cut? (some ms) = none ∧
          out = job.finish (job.begin state)) := by
  cases h with
  | refused cancelled => exact .inl ⟨cancelled, rfl⟩
  | finished lets =>
    obtain ⟨begun, ms, waits, _⟩ := id lets
    exact .inr ⟨begun, .inr ⟨ms, waits, cut?_of_letsFinish (waits ▸ lets), rfl⟩⟩
  | expired limit begun set wait token =>
    rw [limitTime, set] at wait
    exact .inr ⟨begun, .inl ⟨_, cut?_of_bound begun (bound?_of_expired set token) wait, rfl⟩⟩
  | cancelled begun wait limit =>
    cases later : ctx.cancelTime? with
    | none => exact absurd (congrArg time later) (ne_top_of_lt wait)
    | some ms =>
      rw [cancelTime, later] at wait
      exact .inr ⟨begun, .inl ⟨_, cut?_of_bound begun (bound?_of_cancelled later limit) wait, rfl⟩⟩

theorem Comes.run_eq {out : σ × Except ClientError α} (h : ctx.Comes job state out) :
    ctx.run job.wait (job.finish (job.begin state)).2 = some out.2 := by
  rcases h.cut with ⟨cancelled, rfl⟩ | ⟨-, ⟨error, cut, rfl⟩ | ⟨ms, waits, patient, rfl⟩⟩
  · simp [run, cut?_of_isCancelled cancelled]
  · simp [run, cut]
  · simp [run, waits, patient]

theorem time_eq_top_iff {t : Option Nat} : time t = ⊤ ↔ t = none := by
  cases t <;> simp

theorem Endless.cut?_eq_none {wait : Option Nat} (h : ctx.Endless wait) : ctx.cut? wait = none := by
  have unbound : ctx.bound? = none := by
    have last := (ctx.le_time_bound?_iff ⊤).2 ⟨h.limit.ge, h.token.ge⟩
    exact Option.map_eq_none_iff.1 (time_eq_top_iff.1 (top_le_iff.1 last))
  simp [cut?, h.begun, unbound]

theorem Endless.run_eq_none {wait : Option Nat} (h : ctx.Endless wait)
    (result : Except ClientError α) : ctx.run wait result = none := by
  obtain rfl := time_eq_top_iff.1 h.wait
  simp [run, h.cut?_eq_none]

theorem run_eq_some_iff (apart : ctx.Apart job.wait) (state : σ) (r : Except ClientError α) :
    ctx.run job.wait (job.finish (job.begin state)).2 = some r ↔
      ∃ next, ctx.Comes job state (next, r) := by
  refine ⟨fun ran => ?_, fun ⟨_, comes⟩ => comes.run_eq⟩
  rcases comes_or_endless apart state with ⟨out, comes⟩ | endless
  · obtain rfl := Option.some.inj (ran.symm.trans comes.run_eq)
    exact ⟨out.1, comes⟩
  · exact nomatch ran.symm.trans (endless.run_eq_none _)

theorem LetsFinish.run_eq {wait : Option Nat} (h : ctx.LetsFinish wait)
    (result : Except ClientError α) : ctx.run wait result = some result := by
  let job : Job Unit α := ⟨id, wait, fun _ => ((), result)⟩
  have comes : ctx.Comes job () ((), result) := .finished h
  exact comes.run_eq

/-- A context lets a run finish exactly when the run has whatever result it waits for. -/
theorem letsFinish_iff {wait : Option Nat} (apart : ctx.Apart wait) :
    ctx.LetsFinish wait ↔ ∀ result : Except ClientError α, ctx.run wait result = some result := by
  refine ⟨LetsFinish.run_eq, fun own => ?_⟩
  -- A run that is cut short cannot have an error of another kind.
  let job : Job Unit α := ⟨id, wait, fun _ => ((), .error .http)⟩
  have ran : ctx.run job.wait (job.finish (job.begin ())).2 = some (.error .http) := own _
  obtain ⟨next, comes⟩ := (run_eq_some_iff apart () _).1 ran
  cases comes with
  | finished lets => exact lets

/-! ### Other contexts -/

/-- A limit that is raised or taken away lets every run finish that could. -/
theorem LetsFinish.of_le {other : RequestContext} {wait : Option Nat} (h : ctx.LetsFinish wait)
    (token : other.token = ctx.token) (raised : ctx.limitTime ≤ other.limitTime) :
    other.LetsFinish wait := by
  obtain ⟨begun, ms, waits, inTime⟩ := h
  have sameTime : other.cancelTime = ctx.cancelTime := by
    rw [cancelTime, cancelTime, cancelTime?, cancelTime?, token]
  refine ⟨by rw [isCancelled, token]; exact begun, ms, waits, inTime.imp_right ?_⟩
  rintro ⟨limit, cancel⟩
  exact ⟨limit.trans raised, sameTime ▸ cancel⟩

/-- A limit that is added leaves what the run ends in or takes its place. -/
theorem Comes.withLimit {limit : Duration} {out : σ × Except ClientError α}
    (unlimited : ctx.limit = none) (h : (ctx.withLimit limit).Comes job state out) :
    ctx.Comes job state out ∨ out = (job.begin state, .error (.timeout limit)) := by
  have top : ctx.limitTime = ⊤ := by rw [limitTime, unlimited]; rfl
  cases h with
  | refused cancelled => exact .inl (.refused cancelled)
  | finished lets => exact .inl (.finished (lets.of_le rfl (top ▸ le_top)))
  | expired other _ set =>
    obtain rfl := Option.some.inj set
    exact .inr rfl
  | cancelled begun wait before => exact .inl (.cancelled begun wait (top ▸ lt_top_of_lt before))

theorem Comes.withToken {token : Cancellation} {out : σ × Except ClientError α}
    (free : ctx.token = none) (h : (ctx.withToken token).Comes job state out) :
    ctx.Comes job state out ∨ out.2 = .error .cancelled := by
  have begun : ctx.isCancelled = false := by rw [isCancelled, free]; rfl
  have top : ctx.cancelTime = ⊤ := by rw [cancelTime, cancelTime?, free]; rfl
  cases h with
  | refused => exact .inr rfl
  | finished lets =>
    obtain ⟨_, ms, waits, inTime⟩ := lets
    refine .inl (.finished ⟨begun, ms, waits, inTime.imp_right ?_⟩)
    rintro ⟨limit, before⟩
    exact ⟨limit, top ▸ lt_top_of_lt before⟩
  | expired limit _ set wait before =>
    exact .inl (.expired limit begun set wait (top ▸ lt_top_of_lt before))
  | cancelled => exact .inr rfl

theorem exists_ends_withLimit {limit : Duration} (apart : (ctx.withLimit limit).Apart job.wait)
    (state : σ) : ∃ out, ((ctx.withLimit limit).supervise job.future).Ends state out := by
  rcases comes_or_endless apart state with ⟨out, comes⟩ | endless
  · exact ⟨out, comes.ends⟩
  · exact absurd endless.limit (ENat.natCast_ne_top limit.milliseconds)

theorem exists_ends_withToken {token : Cancellation} (free : ctx.token = none)
    (apart : (ctx.withToken token).Apart job.wait)
    (h : ∃ out, (ctx.supervise job.future).Ends state out) :
    ∃ out, ((ctx.withToken token).supervise job.future).Ends state out := by
  rcases comes_or_endless apart state with ⟨out, comes⟩ | endless
  · exact ⟨out, comes.ends⟩
  · have endless' : ctx.Endless job.wait :=
      ⟨by rw [isCancelled, free]; rfl, endless.wait, endless.limit,
        by rw [cancelTime, cancelTime?, free]; rfl⟩
    obtain ⟨out, ends⟩ := h
    exact absurd ends (endless'.not_ends out)

/-- A supervised job ends in what the table says, unless a cancellation that is still to come falls
on the end of the wait or on the limit, and that is the outcome of its run. A limit that is added
leaves this or makes it the error of that very limit; a token that is added leaves it or makes it the
error of a cancellation. A limit that is raised or taken away leaves the result of a job. -/
theorem supervise_ends (ctx : RequestContext) (job : Job σ α) (state : σ)
    (apart : ctx.Apart job.wait) :
    (∀ out, (ctx.supervise job.future).Ends state out ↔ ctx.Comes job state out) ∧
    (∀ r, ctx.run job.wait (job.finish (job.begin state)).2 = some r ↔
      ∃ next, (ctx.supervise job.future).Ends state (next, r)) ∧
    (∀ ms, (Duration.ofMilliseconds ms).milliseconds = ms) ∧
    (∀ limit, ctx.limit = none → (ctx.withLimit limit).Apart job.wait →
      ∃ out, ((ctx.withLimit limit).supervise job.future).Ends state out ∧
        ((ctx.supervise job.future).Ends state out ∨
          out = (job.begin state, .error (.timeout limit)))) ∧
    (∀ token, ctx.token = none → (ctx.withToken token).Apart job.wait →
      (∀ out, ((ctx.withToken token).supervise job.future).Ends state out →
        (ctx.supervise job.future).Ends state out ∨ out.2 = .error .cancelled) ∧
      ((∃ out, (ctx.supervise job.future).Ends state out) →
        ∃ out, ((ctx.withToken token).supervise job.future).Ends state out)) ∧
    ∀ other : RequestContext, other.token = ctx.token → ctx.limitTime ≤ other.limitTime →
      (∀ x : Except ClientError α, ctx.run job.wait x = some x) →
        (other.supervise job.future).Ends state (job.finish (job.begin state)) ∧
        ∀ x : Except ClientError α, other.run job.wait x = some x := by
  refine ⟨ends_iff_comes apart state, fun r => ?_, fun ms => ?_, fun limit unlimited apart' => ?_,
    fun token free apart' => ⟨fun out ends => ?_, exists_ends_withToken free apart'⟩, ?_⟩
  · simp only [run_eq_some_iff apart, ends_iff_comes apart]
  · change (ms * 1000000 + 999999) / 1000000 = ms
    omega
  · obtain ⟨out, ends⟩ := exists_ends_withLimit apart' state
    have comes := (ends_iff_comes apart' state out).1 ends
    exact ⟨out, ends, (comes.withLimit unlimited).imp_left Comes.ends⟩
  · have comes := (ends_iff_comes apart' state out).1 ends
    exact (comes.withToken free).imp_left Comes.ends
  · intro other token raised own
    have lets := ((letsFinish_iff apart).2 own).of_le token raised
    exact ⟨Comes.ends (.finished lets), lets.run_eq⟩

/-- A job that writes down what it does. -/
def noted (wait : Nat) : Job (List String) Nat where
  begin := fun log => log ++ ["begun"]
  wait := some wait
  finish := fun log => (log ++ ["done"], .ok log.length)

/-- A limit of 20 milliseconds and a token that is cancelled after some time. -/
def hurried (cancelled : Nat) : RequestContext :=
  { limit := some (.ofMilliseconds 20), token := some (.after cancelled) }

theorem apart_hurried {cancelled wait : Nat} (differ : wait ≠ cancelled ∧ 20 ≠ cancelled) :
    (hurried cancelled).Apart (some wait) := by
  intro ms later
  obtain rfl := Option.some.inj later
  exact ⟨fun same => differ.1 (Nat.cast_inj.1 same), fun same => differ.2 (Nat.cast_inj.1 same)⟩

/-- A job that takes as long as the limit is in time. One that takes longer is cut short by the
limit, and one that a cancellation precedes by that. -/
theorem supervise_ends_hurried :
    ((hurried 30).supervise (noted 20).future).Ends [] (["begun", "done"], .ok 1) ∧
    ((hurried 30).supervise (noted 25).future).Ends []
      (["begun"], .error (.timeout (.ofMilliseconds 20))) ∧
    ((hurried 10).supervise (noted 15).future).Ends [] (["begun"], .error .cancelled) := by
  refine ⟨?_, ?_, ?_⟩
  · have table := (supervise_ends (hurried 30) (noted 20) [] (apart_hurried (by decide))).1
    have inTime : (hurried 30).LetsFinish (some 20) :=
      ⟨rfl, 20, rfl, .inr ⟨Nat.cast_le.2 (by decide), Nat.cast_lt.2 (by decide)⟩⟩
    exact (table _).2 (.finished inTime)
  · have table := (supervise_ends (hurried 30) (noted 25) [] (apart_hurried (by decide))).1
    exact (table _).2 (.expired _ rfl rfl (Nat.cast_lt.2 (by decide)) (Nat.cast_lt.2 (by decide)))
  · have table := (supervise_ends (hurried 10) (noted 15) [] (apart_hurried (by decide))).1
    exact (table _).2 (.cancelled rfl (Nat.cast_lt.2 (by decide)) (Nat.cast_lt.2 (by decide)))

end RequestContext

namespace Service

variable {σ Q A : Type}

/-- A call comes to what the run comes to that waits for its answer. -/
theorem call_snd (s : Service σ Q A) (ctx : RequestContext) (state : σ) (q : Q) :
    (s.call ctx state q).2 =
      ctx.run (s.wait (s.accept state q) q) (.ok (s.answer (s.accept state q) q).2) := by
  unfold RequestContext.run
  rcases s.call_cases ctx state q with
    ⟨cancelled, called⟩ | ⟨-, ⟨error, cut, called⟩ | ⟨ms, waits, patient, called⟩ |
      ⟨forever, patient, called⟩⟩
  · rw [called, RequestContext.cut?_of_isCancelled cancelled]
  · rw [called, cut]
  · rw [called, waits, patient]
    rfl
  · rw [called, forever, patient]
    rfl

/-- A call as a job. It begins with handing the request over and finishes with the answer. -/
def job (s : Service σ Q A) (state : σ) (q : Q) : Job σ A where
  begin := fun now => s.accept now q
  wait := s.wait (s.accept state q) q
  finish := fun now => ((s.answer now q).1, .ok (s.answer now q).2)

open RequestContext in
/-- A call has an outcome when its supervised job ends, and it is what the job ends in. -/
theorem ends_call_iff (s : Service σ Q A) (ctx : RequestContext) (state : σ) (q : Q)
    (apart : ctx.Apart (s.job state q).wait) (out : σ × Except ClientError A) :
    (ctx.supervise (s.job state q).future).Ends state out ↔
      s.call ctx state q = (out.1, some out.2) := by
  rcases comes_or_endless apart state with ⟨last, comes⟩ | endless
  · have called : s.call ctx state q = (last.1, some last.2) := by
      rcases comes.cut with ⟨cancelled, rfl⟩ | ⟨begun, ⟨error, cut, rfl⟩ | ⟨ms, waits, patient, rfl⟩⟩
      · exact s.call_of_isCancelled cancelled state q
      · exact s.call_of_cut begun cut
      · exact s.call_of_wait waits patient
    rw [called, Prod.mk.injEq, Option.some.injEq, ← Prod.ext_iff]
    exact ⟨fun ends => comes.ends.unique ends, fun same => same ▸ comes.ends⟩
  · have forever : s.wait (s.accept state q) q = none := time_eq_top_iff.1 endless.wait
    have patient : ctx.cut? (s.wait (s.accept state q) q) = none := endless.cut?_eq_none
    rw [s.call_of_endless forever (forever ▸ patient)]
    exact ⟨fun ends => absurd ends (endless.not_ends out), fun same => nomatch congrArg Prod.snd same⟩

end Service

end IControl
