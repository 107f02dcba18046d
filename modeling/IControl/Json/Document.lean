import IControl.Json.Basic

/-!
# Documents as they are read

A document is the tree of a text, well-formed or not. Where the text stops being
well-formed the tree has a `fault` leaf or a container that is not closed, and
nothing follows it. Two flaws do not stop the reading and are kept at their
place: a number without a double (`number none`) and a string that holds half of
a surrogate pair or a stray byte (`string none`). They only count where the value
is taken over.

Taking a document over as a whole has one kind of fault. Fitting it to an
expected shape has a second one, and the two are told apart: a text is
*malformed*, or it is well-formed up to there and a *mismatch*.
-/

namespace IControl

inductive Fault where
  | malformed
  | mismatch
  deriving DecidableEq, Repr

inductive Document where
  | fault
  | null
  | bool (value : Bool)
  | number (value : Option Number)
  | string (value : Option String)
  | array (items : List Document) (closed : Bool)
  | object (members : List (Option String × Document)) (closed : Bool)
  deriving Repr, Inhabited

namespace Document

/-- The number of levels that arrays and objects may nest. -/
def maxDepth : Nat := 127

mutual

/-- No fault anywhere; enough for a part that is passed over. -/
def isSound : Document → Bool
  | .fault => false
  | .null | .bool _ | .number _ | .string _ => true
  | .array items closed => allSound items && closed
  | .object members closed => membersSound members && closed

def allSound : List Document → Bool
  | [] => true
  | d :: ds => isSound d && allSound ds

def membersSound : List (Option String × Document) → Bool
  | [] => true
  | (_, d) :: ds => isSound d && membersSound ds

end

mutual

/-- The value of a document that nests at most `room` levels. -/
def value? (room : Nat) : Document → Option Json
  | .fault => none
  | .null => some .null
  | .bool b => some (.bool b)
  | .number n => n.map .number
  | .string s => s.map .string
  | .array items closed =>
    match room with
    | 0 => none
    | room + 1 => do
      let xs ← values? room items
      if closed then some (.array xs) else none
  | .object members closed =>
    match room with
    | 0 => none
    | room + 1 => do
      let ms ← memberValues? room members
      if closed then some (.ofMembers ms) else none

def values? (room : Nat) : List Document → Option (List Json)
  | [] => some []
  | d :: ds => do
    let x ← value? room d
    let xs ← values? room ds
    some (x :: xs)

def memberValues? (room : Nat) : List (Option String × Document) → Option (List (String × Json))
  | [] => some []
  | (k, d) :: ds => do
    let k ← k
    let x ← value? room d
    let xs ← memberValues? room ds
    some ((k, x) :: xs)

end

mutual

/-- The document of a value, which has no flaw. -/
def ofJson : Json → Document
  | .null => .null
  | .bool b => .bool b
  | .number n => .number (some n)
  | .string s => .string (some s)
  | .array items => .array (ofItems items) true
  | .object members => .object (ofMembers members) true

def ofItems : List Json → List Document
  | [] => []
  | x :: xs => ofJson x :: ofItems xs

def ofMembers : List (String × Json) → List (Option String × Document)
  | [] => []
  | (k, x) :: xs => (some k, ofJson x) :: ofMembers xs

end

/-- The fault of meeting this document where another kind of value is expected: it is only looked
at as far as its kind shows. -/
def misfit : Document → Fault
  | .fault | .number none | .string none => .malformed
  | _ => .mismatch

end Document

end IControl
