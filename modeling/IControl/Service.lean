import IControl.Context

/-!
# Services

A service is something that takes requests over and answers them after a while,
or never. Handing a request over has an effect at once; the answer has its effect
when the wait is over. A call under a context does neither when the context is
already cancelled, and only the first when the call is cut short in between or
goes on for ever.
-/

namespace IControl

/-- A service with states `σ` that answers requests of type `Q` by values of type `A`. -/
structure Service (σ Q A : Type) where
  /-- The state after a request is handed over. -/
  accept : σ → Q → σ
  /-- The milliseconds until the answer to the request that was handed over last, if there will be
  one. -/
  wait : σ → Q → Option Nat
  /-- The answer and the state that it leaves. -/
  answer : σ → Q → σ × A

namespace Service

variable {σ Q A : Type}

/-- A call of the service under a context. -/
def call (s : Service σ Q A) (ctx : RequestContext) (state : σ) (q : Q) : σ × Outcome A :=
  if ctx.isCancelled then (state, some (.error .cancelled))
  else
    let accepted := s.accept state q
    let wait := s.wait accepted q
    match ctx.cut? wait, wait with
    | some error, _ => (accepted, some (.error error))
    | none, some _ =>
      let (next, a) := s.answer accepted q
      (next, some (.ok a))
    | none, none => (accepted, none)

theorem call_of_isCancelled (s : Service σ Q A) {ctx : RequestContext} (h : ctx.isCancelled = true)
    (state : σ) (q : Q) : s.call ctx state q = (state, some (.error .cancelled)) := by
  simp [call, h]

section
variable (s : Service σ Q A) {ctx : RequestContext} {state : σ} {q : Q}

theorem call_of_cut (begun : ctx.isCancelled = false) {error : ClientError}
    (cut : ctx.cut? (s.wait (s.accept state q) q) = some error) :
    s.call ctx state q = (s.accept state q, some (.error error)) := by
  simp [call, begun, cut]

theorem call_of_wait {ms : Nat} (waits : s.wait (s.accept state q) q = some ms)
    (patient : ctx.cut? (some ms) = none) : s.call ctx state q =
      ((s.answer (s.accept state q) q).1, some (.ok (s.answer (s.accept state q) q).2)) := by
  simp [call, RequestContext.isCancelled_of_cut? patient, waits, patient]

theorem call_of_endless (waits : s.wait (s.accept state q) q = none)
    (patient : ctx.cut? none = none) : s.call ctx state q = (s.accept state q, none) := by
  simp [call, RequestContext.isCancelled_of_cut? patient, waits, patient]

/-- A call does not begin, is cut short after the request is handed over, is answered, or goes on for
ever. -/
theorem call_cases (ctx : RequestContext) (state : σ) (q : Q) :
    ctx.isCancelled = true ∧ s.call ctx state q = (state, some (.error .cancelled)) ∨
    ctx.isCancelled = false ∧
      ((∃ error, ctx.cut? (s.wait (s.accept state q) q) = some error ∧
        s.call ctx state q = (s.accept state q, some (.error error))) ∨
      (∃ ms, s.wait (s.accept state q) q = some ms ∧ ctx.cut? (some ms) = none ∧
        s.call ctx state q =
          ((s.answer (s.accept state q) q).1, some (.ok (s.answer (s.accept state q) q).2))) ∨
      s.wait (s.accept state q) q = none ∧ ctx.cut? none = none ∧
        s.call ctx state q = (s.accept state q, none)) := by
  cases begun : ctx.isCancelled with
  | true => exact .inl ⟨rfl, s.call_of_isCancelled begun state q⟩
  | false =>
    refine .inr ⟨rfl, ?_⟩
    cases cut : ctx.cut? (s.wait (s.accept state q) q) with
    | some error => exact .inl ⟨error, rfl, s.call_of_cut begun cut⟩
    | none =>
      refine .inr ?_
      cases waits : s.wait (s.accept state q) q with
      | some ms => exact .inl ⟨ms, rfl, waits ▸ cut, s.call_of_wait waits (waits ▸ cut)⟩
      | none => exact .inr ⟨rfl, waits ▸ cut, s.call_of_endless waits (waits ▸ cut)⟩

end

end Service

end IControl
