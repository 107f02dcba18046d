import IControl.Text.Unmarked

/-!
# Shown text

Values are shown for inspection with their texts between quotation marks. The
quotation mark, the backslash and the usual blanks have a letter of their own
after a backslash; any other character that shows nothing by itself is spelled
by its number in hexadecimal digits.
-/

namespace IControl.Text

def hexChars (n : Nat) : List Char := Nat.toDigits 16 n

/-- The spelling of one character inside quotation marks. -/
def shownChar (c : Char) : List Char :=
  if c = '"' then ['\\', '"']
  else if c = '\\' then ['\\', '\\']
  else if c = '\n' then ['\\', 'n']
  else if c = '\r' then ['\\', 'r']
  else if c = '\t' then ['\\', 't']
  else if c = '\x00' then ['\\', '0']
  else if isUnmarked c then ['\\', 'u', '\x7b'] ++ hexChars c.toNat ++ ['\x7d']
  else [c]

def quoted (s : String) : String :=
  String.ofList ('"' :: s.toList.flatMap shownChar ++ ['"'])

/-- A value that may be missing, shown by `inner` when it is there. -/
def shownOption {α : Type} (inner : α → String) : Option α → String
  | none => "None"
  | some a => "Some(" ++ inner a ++ ")"

def shownBool (b : Bool) : String := if b then "true" else "false"

/-- A record with its shown fields; `more` tells that some fields stay hidden. -/
def shownRecord (title : String) (fields : List (String × String)) (more : Bool) : String :=
  let body := fields.map (fun f => f.1 ++ ": " ++ f.2) ++ (if more then [".."] else [])
  title ++ " \x7b " ++ String.intercalate ", " body ++ " \x7d"

end IControl.Text
