import IControl.Number.Basic
import IControl.Table

/-!
# JSON values

The tree of a JSON document. The members of an object are kept in the order in
which they are written. An object that was built by `Json.ofMembers` is a table:
its names are in ascending order and none is bound twice.
-/

namespace IControl

inductive Json where
  | null
  | bool (value : Bool)
  | number (value : Number)
  | string (value : String)
  | array (items : List Json)
  | object (members : List (String × Json))
  deriving Repr, Inhabited

namespace Json

mutual

def beq : Json → Json → Bool
  | .null, .null => true
  | .bool a, .bool b => a == b
  | .number a, .number b => a == b
  | .string a, .string b => a == b
  | .array xs, .array ys => beqItems xs ys
  | .object xs, .object ys => beqMembers xs ys
  | _, _ => false

def beqItems : List Json → List Json → Bool
  | [], [] => true
  | x :: xs, y :: ys => beq x y && beqItems xs ys
  | _, _ => false

def beqMembers : List (String × Json) → List (String × Json) → Bool
  | [], [] => true
  | (k, x) :: xs, (l, y) :: ys => k == l && beq x y && beqMembers xs ys
  | _, _ => false

end

mutual

theorem beq_iff : ∀ a b : Json, a.beq b = true ↔ a = b
  | .null, b => by cases b <;> simp [beq]
  | .bool _, b => by cases b <;> simp [beq]
  | .number _, b => by cases b <;> simp [beq]
  | .string _, b => by cases b <;> simp [beq]
  | .array xs, b => by cases b <;> simp [beq, beqItems_iff xs]
  | .object xs, b => by cases b <;> simp [beq, beqMembers_iff xs]

theorem beqItems_iff : ∀ xs ys : List Json, beqItems xs ys = true ↔ xs = ys
  | [], ys => by cases ys <;> simp [beqItems]
  | x :: xs, ys => by cases ys <;> simp [beqItems, beq_iff x, beqItems_iff xs]

theorem beqMembers_iff : ∀ xs ys : List (String × Json), beqMembers xs ys = true ↔ xs = ys
  | [], ys => by cases ys <;> simp [beqMembers]
  | (k, x) :: xs, ys => by
    rcases ys with _ | ⟨⟨l, y⟩, ys⟩ <;> simp [beqMembers, beq_iff x, beqMembers_iff xs]

end

instance : DecidableEq Json := fun a b => decidable_of_iff _ (beq_iff a b)

/-- The object with the given members; the last one of a name counts. -/
def ofMembers (members : List (String × Json)) : Json := .object (Table.ofBindings members)

def natural (n : Nat) : Json := .number (.integer n)

/-- The member of an object under a name; nothing else has members. -/
def member? (j : Json) (name : String) : Option Json :=
  match j with
  | .object members => Table.value? members name
  | _ => none

def string? : Json → Option String
  | .string s => some s
  | _ => none

/-- The text of a member that is a string. -/
def textMember? (j : Json) (name : String) : Option String := (j.member? name).bind string?

end Json

end IControl
