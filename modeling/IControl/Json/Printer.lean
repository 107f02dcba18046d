import IControl.Json.Basic

/-!
# Printing JSON

The compact written form: no blanks, members in the order of the object. Inside
strings only the quotation mark, the backslash and the control characters below
the space are escaped; the usual controls have a letter, the others four
hexadecimal digits.
-/

namespace IControl.Json

def hexDigit (n : Nat) : Char := Nat.digitChar n

/-- The spelling of one character inside a string. -/
def stringChar (c : Char) : List Char :=
  if c = '"' then ['\\', '"']
  else if c = '\\' then ['\\', '\\']
  else if c = '\x08' then ['\\', 'b']
  else if c = '\t' then ['\\', 't']
  else if c = '\n' then ['\\', 'n']
  else if c = '\x0c' then ['\\', 'f']
  else if c = '\r' then ['\\', 'r']
  else if c.toNat < 0x20 then
    ['\\', 'u', '0', '0', hexDigit (c.toNat / 16), hexDigit (c.toNat % 16)]
  else [c]

def stringChars (s : String) : List Char := '"' :: s.toList.flatMap stringChar ++ ['"']

mutual

/-- The written form of a value. -/
def chars : Json → List Char
  | .null => ['n', 'u', 'l', 'l']
  | .bool true => ['t', 'r', 'u', 'e']
  | .bool false => ['f', 'a', 'l', 's', 'e']
  | .number n => n.chars
  | .string s => stringChars s
  | .array [] => ['[', ']']
  | .array (x :: xs) => '[' :: chars x ++ moreItems xs
  | .object [] => ['\x7b', '\x7d']
  | .object ((k, x) :: xs) => '\x7b' :: stringChars k ++ ':' :: chars x ++ moreMembers xs

/-- The items after the first one and the closing bracket. -/
def moreItems : List Json → List Char
  | [] => [']']
  | x :: xs => ',' :: chars x ++ moreItems xs

/-- The members after the first one and the closing brace. -/
def moreMembers : List (String × Json) → List Char
  | [] => ['\x7d']
  | (k, x) :: xs => ',' :: stringChars k ++ ':' :: chars x ++ moreMembers xs

end

def print (j : Json) : String := String.ofList j.chars

end IControl.Json
