import IControl.Error
import IControl.Text.Quoted

/-!
# Request contexts

A call runs under a context: a limit on its time and a token by which it can be
cancelled, both optional. A run waits for some time, or for ever, and then has
its result. It is cut short by what comes first, the limit or the cancellation,
if that comes before the wait is over; a run that needs no waiting cannot be cut
short, but a context that is cancelled already does not let it begin. A run that
waits for ever under a context that sets no bound has no outcome. Times count in
milliseconds from the beginning of the run.
-/

namespace IControl

/-- When a token is cancelled, seen from the beginning of a run. -/
inductive Cancellation where
  | already
  | after (ms : Nat)
  | never
  deriving DecidableEq, Repr

/-- What a run comes to: its result or an error, and nothing when it has no end. -/
abbrev Outcome (α : Type) := Option (Except ClientError α)

namespace Outcome

variable {α β : Type}

/-- Goes on with the result, where there is one. -/
def andThen (o : Outcome α) (f : α → Except ClientError β) : Outcome β := o.map fun r => r.bind f

/-- The result, if that is what the run comes to. -/
def result? (o : Outcome α) : Option α := o.bind Except.toOption

end Outcome

structure RequestContext where
  limit : Option Duration := none
  token : Option Cancellation := none
  deriving DecidableEq, Repr

namespace RequestContext

/-- The context that sets no bound. -/
def background : RequestContext := {}

def ofLimit (d : Duration) : RequestContext := { limit := some d }

def ofToken (c : Cancellation) : RequestContext := { token := some c }

def withLimit (ctx : RequestContext) (d : Duration) : RequestContext := { ctx with limit := some d }

def withToken (ctx : RequestContext) (c : Cancellation) : RequestContext :=
  { ctx with token := some c }

def isCancelled (ctx : RequestContext) : Bool := ctx.token == some .already

/-- The time of a cancellation that is still to come. -/
def cancelTime? (ctx : RequestContext) : Option Nat :=
  match ctx.token with
  | some (.after ms) => some ms
  | _ => none

/-- The first bound that the context sets: its time and the error of a run that it cuts short. -/
def bound? (ctx : RequestContext) : Option (Nat × ClientError) :=
  match ctx.cancelTime?, ctx.limit with
  | none, none => none
  | some c, none => some (c, .cancelled)
  | none, some limit => some (limit.milliseconds, .timeout limit)
  | some c, some limit =>
    if c ≤ limit.milliseconds then some (c, .cancelled)
    else some (limit.milliseconds, .timeout limit)

/-- The error that takes the place of the result of a run that waits for the given time, or for
ever. -/
def cut? (ctx : RequestContext) (wait : Option Nat) : Option ClientError :=
  if ctx.isCancelled then some .cancelled
  else
    match ctx.bound? with
    | none => none
    | some (time, error) => if wait.all (time < ·) then some error else none

theorem cut?_of_isCancelled {ctx : RequestContext} (h : ctx.isCancelled = true)
    (wait : Option Nat) : ctx.cut? wait = some .cancelled := by simp [cut?, h]

theorem isCancelled_of_cut? {ctx : RequestContext} {wait : Option Nat}
    (patient : ctx.cut? wait = none) : ctx.isCancelled = false := by
  cases cancelled : ctx.isCancelled with
  | false => rfl
  | true => exact nomatch patient.symm.trans (cut?_of_isCancelled cancelled wait)

theorem cut?_zero {ctx : RequestContext} (h : ctx.isCancelled = false) :
    ctx.cut? (some 0) = none := by
  simp only [cut?, h]
  cases ctx.bound? <;> simp

@[simp] theorem cut?_background (wait : Option Nat) : background.cut? wait = none := rfl

/-- The outcome of a run that waits for the given time, or for ever, and then has `result`. -/
def run {α : Type} (ctx : RequestContext) (wait : Option Nat) (result : Except ClientError α) :
    Outcome α :=
  match ctx.cut? wait with
  | some error => some (.error error)
  | none => wait.map fun _ => result

/-- Is the token cancelled when a run with this wait has ended? -/
def isCancelledAfter (ctx : RequestContext) (wait : Nat) : Bool :=
  ctx.cut? (some wait) == some .cancelled

def shown (ctx : RequestContext) : String :=
  Text.shownRecord "RequestContext"
    [("timeout", Text.shownOption Duration.shown ctx.limit),
     ("cancel", Text.shownOption
       (fun c => Text.shownRecord "CancellationToken"
         [("is_cancelled", Text.shownBool (c == .already))] false) ctx.token)] false

end RequestContext

end IControl
