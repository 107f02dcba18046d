import IControl.Request.Basic
import IControl.Service
import IControl.Text.Utf8

/-!
# Transports

A transport is a service for requests of the management interface. Its answer is
the body of the reply or an error.
-/

namespace IControl

abbrev Transport (σ : Type) := Service σ Request (Except ClientError Bytes)

namespace Transport

variable {σ : Type}

/-- Hands a request to the transport under a context. -/
def send (t : Transport σ) (ctx : RequestContext) (state : σ) (r : Request) : σ × Outcome Bytes :=
  let (next, outcome) := t.call ctx state r
  (next, outcome.andThen id)

end Transport

end IControl
