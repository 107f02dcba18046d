import IControl.Client

/-!
# A record of what is handed over

Any service can be made to write down the requests that are handed over to it.
It answers as before and goes through the same states, so whatever it is used
for, the record tells what was handed over and nothing else changes. A call
hands its request over once, unless its context is cancelled already.
-/

namespace IControl

namespace Service

variable {σ Q A : Type}

/-- The same service with a record of the requests that are handed over. -/
def recording (s : Service σ Q A) : Service (σ × List Q) Q A where
  accept := fun (state, log) q => (s.accept state q, log ++ [q])
  wait := fun (state, _) q => s.wait state q
  answer := fun (state, log) q => (((s.answer state q).1, log), (s.answer state q).2)

end Service

namespace Transport

variable {σ α : Type}

end Transport

end IControl
