import IControl.Future
import Mathlib.Data.ENat.Basic
import Mathlib.Tactic.SplitIfs

/-!
# What ends a run

A job under a context ends in one of four ways. It is not begun when the token is
cancelled already. Otherwise the first of three times decides: the end of the
wait, the limit and the cancellation. A job that needs no waiting is done with its
first poll, and at the limit itself a job is still in time. The proof looks at the
first poll that does not go on; every poll before it leaves the job as it found it.
-/

namespace IControl

namespace Future

variable {σ ρ : Type} {f : Future σ ρ} {state : σ}

theorem polled_succ_of_none {n : Nat} {next : σ} (h : f.polled state n = (next, none)) :
    f.polled state (n + 1) = f n next := by
  rw [polled, h]

theorem polled_of_le {n m : Nat} {out : σ × ρ} (h : f.polled state n = (out.1, some out.2))
    (le : n ≤ m) : f.polled state m = (out.1, some out.2) := by
  induction m, le using Nat.le_induction with
  | base => exact h
  | succ m _ ih => rw [polled, ih]

theorem Ends.unique {out other : σ × ρ} (h : f.Ends state out) (h' : f.Ends state other) :
    out = other := by
  obtain ⟨n, first⟩ := h
  obtain ⟨m, second⟩ := h'
  have same := (polled_of_le first (Nat.le_max_left n m)).symm.trans
    (polled_of_le second (Nat.le_max_right n m))
  rw [Prod.mk.injEq, Option.some.injEq] at same
  exact Prod.ext same.1 same.2

end Future

namespace RequestContext

/-- A time that may never come. -/
def time (t : Option Nat) : ℕ∞ := t.elim ⊤ fun ms => ms

@[simp] theorem time_none : time none = ⊤ := rfl

@[simp] theorem time_some (ms : Nat) : time (some ms) = ms := rfl

/-- The time of the limit. -/
def limitTime (ctx : RequestContext) : ℕ∞ := time (ctx.limit.map (·.milliseconds))

/-- The time of a cancellation that is still to come. -/
def cancelTime (ctx : RequestContext) : ℕ∞ := time ctx.cancelTime?

/-- A cancellation that is still to come comes neither at the end of the wait nor at the limit. -/
def Apart (ctx : RequestContext) (wait : Option Nat) : Prop :=
  ∀ ms, ctx.cancelTime? = some ms → time wait ≠ ms ∧ ctx.limitTime ≠ ms

/-- The wait ends in time: there is none, or it is over before the cancellation and not after the
limit. -/
def LetsFinish (ctx : RequestContext) (wait : Option Nat) : Prop :=
  ctx.isCancelled = false ∧ ∃ ms, wait = some ms ∧
    (ms = 0 ∨ (ms : ℕ∞) ≤ ctx.limitTime ∧ (ms : ℕ∞) < ctx.cancelTime)

variable {σ α : Type}

/-- What a job comes to under a context, and the state that it leaves. -/
inductive Comes (ctx : RequestContext) (job : Job σ α) (state : σ) : σ × Except ClientError α → Prop
  | refused : ctx.isCancelled = true → Comes ctx job state (state, .error .cancelled)
  | finished : ctx.LetsFinish job.wait → Comes ctx job state (job.finish (job.begin state))
  | expired (limit : Duration) : ctx.isCancelled = false → ctx.limit = some limit →
      ctx.limitTime < time job.wait → ctx.limitTime < ctx.cancelTime →
        Comes ctx job state (job.begin state, .error (.timeout limit))
  | cancelled : ctx.isCancelled = false → ctx.cancelTime < time job.wait →
      ctx.cancelTime < ctx.limitTime → Comes ctx job state (job.begin state, .error .cancelled)

end RequestContext

/-! ### Polls -/

namespace Job

variable {σ α : Type} (job : Job σ α) (state : σ)

/-- The state that a poll finds while the job goes on. -/
def found (now : Nat) : σ := if now = 0 then state else job.begin state

theorem begin_found (now : Nat) :
    (if now = 0 then job.begin (job.found state now) else job.found state now) =
      job.begin state := by
  unfold found
  split_ifs <;> rfl

variable {job}

theorem future_of_wait {now ms : Nat} (waits : job.wait = some ms) (elapsed : ms ≤ now) :
    job.future now (job.found state now) =
      ((job.finish (job.begin state)).1, some (job.finish (job.begin state)).2) := by
  unfold future
  simp only [begin_found, waits, if_pos elapsed]

theorem future_of_lt {now : Nat} (waits : (now : ℕ∞) < RequestContext.time job.wait) :
    job.future now (job.found state now) = (job.begin state, none) := by
  unfold future
  simp only [begin_found]
  cases wait : job.wait with
  | none => rfl
  | some ms =>
    rw [wait] at waits
    have later : now < ms := Nat.cast_lt.1 waits
    simp only [if_neg (Nat.not_le.2 later)]

end Job

namespace RequestContext

variable {σ α : Type} {ctx : RequestContext} {job : Job σ α} {state : σ} {now : Nat}

/-- A poll finds the token cancelled. -/
def Found (ctx : RequestContext) (now : Nat) : Prop :=
  ∃ token, ctx.token = some token ∧ token.isFound now = true

theorem supervise_of_found (h : ctx.Found now) (f : Future σ (Except ClientError α)) :
    ctx.supervise f now state = (state, some (.error .cancelled)) := by
  obtain ⟨token, carried, cancelled⟩ := h
  unfold supervise
  rw [carried]
  exact if_pos cancelled

theorem supervise_of_not_found (h : ¬ctx.Found now) (f : Future σ (Except ClientError α)) :
    ctx.supervise f now state = (ctx.limit.elim f f.limited) now state := by
  unfold supervise
  cases token : ctx.token with
  | none => rfl
  | some c => exact if_neg fun cancelled => h ⟨c, token, cancelled⟩

theorem poll_finishes {ms : Nat} (h : ¬ctx.Found now) (waits : job.wait = some ms)
    (elapsed : ms ≤ now) :
    ctx.supervise job.future now (job.found state now) =
      ((job.finish (job.begin state)).1, some (job.finish (job.begin state)).2) := by
  have ready := job.future_of_wait state waits elapsed
  rw [supervise_of_not_found h]
  cases ctx.limit with
  | none => exact ready
  | some limit => simp only [Option.elim, Future.limited, ready]

theorem poll_expires {limit : Duration} (h : ¬ctx.Found now) (set : ctx.limit = some limit)
    (waits : (now : ℕ∞) < time job.wait) (elapsed : limit.milliseconds ≤ now) :
    ctx.supervise job.future now (job.found state now) =
      (job.begin state, some (.error (.timeout limit))) := by
  rw [supervise_of_not_found h, set]
  simp only [Option.elim, Future.limited, job.future_of_lt state waits, if_pos elapsed]

/-- A poll that goes on: the token is not cancelled, and neither the wait nor the limit is over. -/
structure GoesOn (ctx : RequestContext) (wait : Option Nat) (now : Nat) : Prop where
  token : ¬ctx.Found now
  wait : (now : ℕ∞) < time wait
  limit : (now : ℕ∞) < ctx.limitTime

theorem poll_goesOn (h : ctx.GoesOn job.wait now) :
    ctx.supervise job.future now (job.found state now) = (job.begin state, none) := by
  have waits := job.future_of_lt state h.wait
  rw [supervise_of_not_found h.token]
  cases set : ctx.limit with
  | none => exact waits
  | some limit =>
    have early := h.limit
    rw [limitTime, set] at early
    have later : now < limit.milliseconds := Nat.cast_lt.1 early
    simp only [Option.elim, Future.limited, waits, if_neg (Nat.not_le.2 later)]

/-! ### Runs -/

theorem polled_of_goesOn {n : Nat} (h : ∀ now < n, ctx.GoesOn job.wait now) :
    (ctx.supervise job.future).polled state n = (job.found state n, none) := by
  induction n with
  | zero => rfl
  | succ n ih =>
    have before := ih fun now less => h now (Nat.lt_succ_of_lt less)
    rw [Future.polled_succ_of_none before, poll_goesOn (h n (Nat.lt_succ_self n))]
    rfl

/-- The first poll that does not go on ends the run. -/
theorem ends_of_goesOn {n : Nat} {out : σ × Except ClientError α}
    (h : ∀ now < n, ctx.GoesOn job.wait now)
    (last : ctx.supervise job.future n (job.found state n) = (out.1, some out.2)) :
    (ctx.supervise job.future).Ends state out :=
  ⟨n + 1, by rw [Future.polled_succ_of_none (polled_of_goesOn h), last]⟩

theorem not_ends_of_goesOn (h : ∀ now, ctx.GoesOn job.wait now) (out : σ × Except ClientError α) :
    ¬(ctx.supervise job.future).Ends state out := by
  rintro ⟨n, ended⟩
  rw [polled_of_goesOn fun now _ => h now] at ended
  exact nomatch (Prod.mk.inj ended).2

/-- A poll finds a token that was cancelled already, or whose time has come since the first poll. -/
theorem found_iff : ctx.Found now ↔ ctx.isCancelled = true ∨ 0 < now ∧ ctx.cancelTime ≤ now := by
  obtain ⟨limit, _ | token⟩ := ctx
  · simp [Found, isCancelled, cancelTime, cancelTime?]
  · cases token <;> simp [Found, isCancelled, cancelTime, cancelTime?, Cancellation.isFound]

theorem not_found_of_lt (begun : ctx.isCancelled = false) (early : (now : ℕ∞) < ctx.cancelTime) :
    ¬ctx.Found now := by
  rw [found_iff, begun]
  rintro (cancelled | ⟨-, late⟩)
  · exact nomatch cancelled
  · exact absurd early (not_lt.2 late)

theorem not_found_zero (begun : ctx.isCancelled = false) : ¬ctx.Found 0 := by
  rw [found_iff, begun]
  rintro (cancelled | ⟨later, -⟩)
  · exact nomatch cancelled
  · exact absurd later (lt_irrefl 0)

/-- A poll goes on before the end of the wait, the limit and the cancellation. -/
theorem goesOn_of_lt (begun : ctx.isCancelled = false) (wait : (now : ℕ∞) < time job.wait)
    (limit : (now : ℕ∞) < ctx.limitTime) (token : (now : ℕ∞) < ctx.cancelTime) :
    ctx.GoesOn job.wait now :=
  ⟨not_found_of_lt begun token, wait, limit⟩

/-- What the table says is what the run ends in. -/
theorem Comes.ends {out : σ × Except ClientError α} (h : ctx.Comes job state out) :
    (ctx.supervise job.future).Ends state out := by
  cases h with
  | refused cancelled =>
    have none : ∀ now < 0, ctx.GoesOn job.wait now :=
      fun now less => absurd less (Nat.not_lt_zero now)
    exact ends_of_goesOn none (supervise_of_found (found_iff.2 (.inl cancelled)) _)
  | finished lets =>
    obtain ⟨begun, ms, waits, inTime⟩ := lets
    rcases inTime with rfl | ⟨limit, token⟩
    · have none : ∀ now < 0, ctx.GoesOn job.wait now :=
        fun now less => absurd less (Nat.not_lt_zero now)
      exact ends_of_goesOn none (poll_finishes (not_found_zero begun) waits (Nat.le_refl 0))
    · refine ends_of_goesOn (fun now less => ?_)
        (poll_finishes (not_found_of_lt begun token) waits (Nat.le_refl ms))
      have early : (now : ℕ∞) < ms := Nat.cast_lt.2 less
      refine goesOn_of_lt begun ?_ (early.trans_le limit) (early.trans token)
      rwa [waits, time_some]
  | expired limit begun set wait token =>
    have atLimit : ctx.limitTime = limit.milliseconds := by rw [limitTime, set]; rfl
    rw [atLimit] at wait token
    refine ends_of_goesOn (fun now less => ?_)
      (poll_expires (not_found_of_lt begun token) set wait (Nat.le_refl _))
    have early : (now : ℕ∞) < limit.milliseconds := Nat.cast_lt.2 less
    exact goesOn_of_lt begun (early.trans wait) (atLimit ▸ early) (early.trans token)
  | cancelled begun wait limit =>
    obtain ⟨ms, time⟩ := ENat.ne_top_iff_exists.1 (ne_top_of_lt wait)
    rw [← time] at wait limit
    -- The first poll comes too early to find the token, even when its time is zero.
    have seen : ctx.Found (max ms 1) := by
      rw [found_iff, ← time]
      exact .inr ⟨lt_max_of_lt_right Nat.one_pos, Nat.cast_le.2 (le_max_left ms 1)⟩
    have begunThen : job.found state (max ms 1) = job.begin state :=
      if_neg (Nat.ne_of_gt (lt_max_of_lt_right Nat.one_pos))
    have last : ctx.supervise job.future (max ms 1) (job.found state (max ms 1)) =
        (job.begin state, some (.error .cancelled)) := by
      rw [supervise_of_found seen, begunThen]
    refine ends_of_goesOn (fun now less => ?_) last
    have early : now = 0 ∨ now < ms := by omega
    have notLate : (now : ℕ∞) ≤ ms := by
      rcases early with rfl | before
      · exact zero_le
      · exact Nat.cast_le.2 before.le
    refine ⟨?_, notLate.trans_lt wait, notLate.trans_lt limit⟩
    rw [found_iff, begun, ← time, Nat.cast_le]
    rintro (cancelled | ⟨later, late⟩)
    · exact nomatch cancelled
    · omega

theorem first_of_three {wait limit token : ℕ∞} (apart : token ≠ ⊤ → wait ≠ token ∧ limit ≠ token) :
    wait ≠ ⊤ ∧ wait ≤ limit ∧ wait < token ∨ limit < wait ∧ limit < token ∨
      token < wait ∧ token < limit ∨ wait = ⊤ ∧ limit = ⊤ ∧ token = ⊤ := by
  rcases lt_or_ge limit wait with early | inTime
  · rcases lt_trichotomy limit token with before | same | after
    · exact .inr (.inl ⟨early, before⟩)
    · exact absurd same (apart (same ▸ ne_top_of_lt early)).2
    · exact .inr (.inr (.inl ⟨after.trans early, after⟩))
  · rcases lt_trichotomy wait token with before | same | after
    · exact .inl ⟨ne_top_of_lt before, inTime, before⟩
    · by_cases never : token = ⊤
      · have forever : wait = ⊤ := same.trans never
        exact .inr (.inr (.inr ⟨forever, top_le_iff.1 (forever ▸ inTime), never⟩))
      · exact absurd same (apart never).1
    · exact .inr (.inr (.inl ⟨after, after.trans_le inTime⟩))

/-- A run that nothing ends. -/
structure Endless (ctx : RequestContext) (wait : Option Nat) : Prop where
  begun : ctx.isCancelled = false
  wait : time wait = ⊤
  limit : ctx.limitTime = ⊤
  token : ctx.cancelTime = ⊤

/-- The table has an entry for every run that something ends. -/
theorem comes_or_endless (apart : ctx.Apart job.wait) (state : σ) :
    (∃ out, ctx.Comes job state out) ∨ ctx.Endless job.wait := by
  have differ : ctx.cancelTime ≠ ⊤ →
      time job.wait ≠ ctx.cancelTime ∧ ctx.limitTime ≠ ctx.cancelTime := by
    intro comes
    cases later : ctx.cancelTime? with
    | none => exact absurd (congrArg time later) comes
    | some ms =>
      rw [cancelTime, later]
      exact apart ms later
  cases begun : ctx.isCancelled with
  | true => exact .inl ⟨_, .refused begun⟩
  | false =>
    rcases first_of_three differ with
      ⟨finite, limit, token⟩ | ⟨wait, token⟩ | ⟨wait, limit⟩ | ⟨wait, limit, token⟩
    · cases waits : job.wait with
      | none => exact absurd (congrArg time waits) finite
      | some ms =>
        rw [waits] at limit token
        exact .inl ⟨_, .finished ⟨begun, ms, waits, .inr ⟨limit, token⟩⟩⟩
    · cases set : ctx.limit with
      | none =>
        have unlimited : ctx.limitTime = ⊤ := by rw [limitTime, set]; rfl
        exact absurd unlimited (ne_top_of_lt wait)
      | some limit => exact .inl ⟨_, .expired limit begun set wait token⟩
    · exact .inl ⟨_, .cancelled begun wait limit⟩
    · exact .inr ⟨begun, wait, limit, token⟩

theorem Endless.not_ends (h : ctx.Endless job.wait) (out : σ × Except ClientError α) :
    ¬(ctx.supervise job.future).Ends state out := by
  refine not_ends_of_goesOn (fun now => goesOn_of_lt h.begun ?_ ?_ ?_) out
  · exact h.wait ▸ ENat.natCast_lt_top now
  · exact h.limit ▸ ENat.natCast_lt_top now
  · exact h.token ▸ ENat.natCast_lt_top now

theorem ends_iff_comes (apart : ctx.Apart job.wait) (state : σ) (out : σ × Except ClientError α) :
    (ctx.supervise job.future).Ends state out ↔ ctx.Comes job state out := by
  refine ⟨fun ends => ?_, Comes.ends⟩
  rcases comes_or_endless apart state with ⟨other, comes⟩ | endless
  · exact ends.unique comes.ends ▸ comes
  · exact absurd ends (endless.not_ends out)

end RequestContext

end IControl
