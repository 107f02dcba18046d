import IControl.Duration
import IControl.Json.Document

/-!
# Errors of the client

The ways in which a call fails. A device answers with a status; a status that is
no success is classified once, here, and keeps the device's own message. The
other causes arise on the client's side: a record that cannot be written, a reply
that does not fit, a limit that passed, a call that was cancelled, and settings
or a request that are refused before anything is sent.
-/

namespace IControl

inductive ClientError where
  /-- The request could not be sent or was not answered. -/
  | http
  | api (status : Nat) (detail : String)
  | authentication (detail : String)
  | notFound (detail : String)
  | marshal (reason : String)
  | unmarshal (fault : Fault)
  | timeout (limit : Duration)
  | cancelled
  | invalidConfig (detail : String)
  | invalidRequest (detail : String)
  deriving DecidableEq, Repr

namespace ClientError

def message : ClientError → String
  | .http => "HTTP error"
  | .api status detail => "BIG-IP API error (" ++ toString status ++ "): " ++ detail
  | .authentication detail => "Authentication failed: " ++ detail
  | .notFound detail => "Not found: " ++ detail
  | .marshal reason => "failed to marshal JSON data: " ++ reason
  | .unmarshal _ => "failed to unmarshal JSON data"
  | .timeout limit => "request timed out after " ++ limit.shown
  | .cancelled => "request cancelled"
  | .invalidConfig detail => "Invalid configuration: " ++ detail
  | .invalidRequest detail => "Invalid request: " ++ detail

/-- The error of a reply to a request for `path` with a status that is no success. -/
def ofStatus (status : Nat) (path detail : String) : ClientError :=
  if status = 404 then .notFound (path ++ " - " ++ detail)
  else if status = 401 ∨ status = 403 then .authentication (toString status ++ " - " ++ detail)
  else .api status detail

def isNotFound : ClientError → Bool
  | .notFound _ => true
  | _ => false

end ClientError

end IControl
