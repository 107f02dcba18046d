import IControl.Context

/-!
# Futures

A future goes on when it is polled. Polls happen at times that count in
milliseconds from the first one; each changes the state and may be the last one,
which gives the result. A limit is looked at after the future in every poll, so a
future that is ready in time has its own result. A token is looked at before it,
so a token that is cancelled keeps the future from going on. A context supervises
a future by its limit and, outside of that, by its token.
-/

namespace IControl

/-- Does a poll at this time find the token cancelled? A cancellation that is still to come is not
found by the first poll. -/
def Cancellation.isFound (c : Cancellation) (now : Nat) : Bool :=
  match c with
  | .already => true
  | .after ms => 0 < now && ms ≤ now
  | .never => false

/-- What a poll at a time makes of the state, and the result if there is one. -/
abbrev Future (σ ρ : Type) := Nat → σ → σ × Option ρ

namespace Future

variable {σ ρ α : Type}

/-- The state after the first `n` polls, and the result if one of them gave it. -/
def polled (f : Future σ ρ) (state : σ) : Nat → σ × Option ρ
  | 0 => (state, none)
  | n + 1 =>
    match f.polled state n with
    | (next, some result) => (next, some result)
    | (next, none) => f n next

/-- Some poll gives the result and leaves the state. -/
def Ends (f : Future σ ρ) (state : σ) (out : σ × ρ) : Prop :=
  ∃ n, f.polled state n = (out.1, some out.2)

/-- The future with a limit on its time. -/
def limited (f : Future σ (Except ClientError α)) (limit : Duration) :
    Future σ (Except ClientError α) := fun now state =>
  match f now state with
  | (next, some result) => (next, some result)
  | (next, none) =>
    (next, if limit.milliseconds ≤ now then some (.error (.timeout limit)) else none)

/-- The future with a token by which it can be cancelled. -/
def cancellable (f : Future σ (Except ClientError α)) (token : Cancellation) :
    Future σ (Except ClientError α) := fun now state =>
  if token.isFound now then (state, some (.error .cancelled)) else f now state

end Future

/-- The future under the limit and the token of a context. -/
def RequestContext.supervise {σ α : Type} (ctx : RequestContext)
    (f : Future σ (Except ClientError α)) : Future σ (Except ClientError α) :=
  let bounded := ctx.limit.elim f f.limited
  ctx.token.elim bounded bounded.cancellable

/-- Work that begins with its first poll, waits for a time or for ever, and then has its result. -/
structure Job (σ α : Type) where
  begin : σ → σ
  wait : Option Nat
  finish : σ → σ × Except ClientError α

def Job.future {σ α : Type} (job : Job σ α) : Future σ (Except ClientError α) := fun now state =>
  let begun := if now = 0 then job.begin state else state
  match job.wait with
  | some ms =>
    if ms ≤ now then
      let (next, result) := job.finish begun
      (next, some result)
    else (begun, none)
  | none => (begun, none)

end IControl
