import IControl.Device.Store
import IControl.Text.Quoted
import IControl.Transport

/-!
# A device in memory

A device answers from its store, unless an answer was prepared for exactly the
method and path of a request: a prepared answer comes instead and leaves the
store alone. The device writes down each request when it is handed over, then
lets its delay pass, and only then looks at its prepared answers and its store.
-/

namespace IControl

/-- An answer that does not come from the store. -/
inductive Prepared where
  | body (bytes : Bytes)
  | status (code : Nat) (detail : String)
  deriving DecidableEq, Repr

structure Device where
  store : Store := {}
  /-- The prepared answers; the first one for a method and path counts. -/
  prepared : List ((Method × String) × Prepared) := []
  /-- The requests handed over so far, in their order. -/
  received : List Request := []
  /-- The milliseconds before every answer. -/
  delay : Nat := 0

namespace Device

/-- Prepares an answer, in place of one that was prepared before. -/
def prepare (d : Device) (method : Method) (path : String) (answer : Prepared) : Device :=
  { d with prepared := ((method, path), answer) :: d.prepared }

def prepared? (d : Device) (r : Request) : Option Prepared := d.prepared.lookup (r.method, r.path)

/-- The device after a request is handed over. -/
def accept (d : Device) (r : Request) : Device := { d with received := d.received ++ [r] }

/-- The answer to a request and the device after it. -/
def answer (d : Device) (r : Request) : Device × Except ClientError Bytes :=
  match d.prepared? r with
  | some (.body bytes) => (d, .ok bytes)
  | some (.status code detail) => (d, .error (.ofStatus code r.path detail))
  | none =>
    match d.store.answer r with
    | .ok (store, text) => ({ d with store }, .ok (Utf8.encode text))
    | .error error => (d, .error error)

/-- A device as a transport. -/
def transport : Transport Device where
  accept := accept
  wait := fun d _ => some d.delay
  answer := answer

/-- One request under no bounds. -/
def execute (d : Device) (r : Request) : Device × Except ClientError Bytes := (d.accept r).answer r

theorem send_background (d : Device) (r : Request) :
    transport.send .background d r = ((d.execute r).1, some (d.execute r).2) := rfl

def shown (d : Device) : String :=
  Text.shownRecord "MockTransport" [("requests", toString d.received.length)] true

end Device

end IControl
