/-!
# Trimming and cutting

Runs of unwanted characters at the ends of a text, the set of blank characters,
and the cuts of a text at a separator. Everything works on lists of characters,
where `takeWhile` and `dropWhile` already have their lemmas.
-/

namespace IControl.Text

def trimStart (p : Char → Bool) (cs : List Char) : List Char := cs.dropWhile p

def trimEnd (p : Char → Bool) (cs : List Char) : List Char := (cs.reverse.dropWhile p).reverse

/-- Removes the longest runs of `p` at both ends. -/
def trim (p : Char → Bool) (cs : List Char) : List Char := trimEnd p (trimStart p cs)

/-- Removes one `p` from the front, if there is one. -/
def trimOne (p : Char → Bool) : List Char → List Char
  | [] => []
  | c :: cs => if p c then cs else c :: cs

def isSlash (c : Char) : Bool := c == '/'

/-- White space of every script: the ASCII blanks, next line, the no-break
spaces, the spaces of the punctuation block and the ideographic space. -/
def isBlank (c : Char) : Bool :=
  let n := c.toNat
  (0x09 ≤ n && n ≤ 0x0D) || n == 0x20 || n == 0x85 || n == 0xA0 || n == 0x1680 ||
    (0x2000 ≤ n && n ≤ 0x200A) || n == 0x2028 || n == 0x2029 || n == 0x202F ||
    n == 0x205F || n == 0x3000

def trimBlank (s : String) : String := String.ofList (trim isBlank s.toList)

/-- Capital letters of ASCII become small; every other character stays. -/
def lowerAscii (s : String) : String :=
  String.ofList (s.toList.map fun c => if 'A' ≤ c ∧ c ≤ 'Z' then Char.ofNat (c.toNat + 32) else c)

/-- The pieces between the occurrences of `sep`; always at least one. -/
def splitAt (sep : Char) : List Char → List (List Char)
  | [] => [[]]
  | c :: cs =>
    if c = sep then [] :: splitAt sep cs
    else
      match splitAt sep cs with
      | [] => [[c]]
      | piece :: pieces => (c :: piece) :: pieces

/-- What stands before and after the last `sep`, if there is one. -/
def cutAtLast? (sep : Char) (cs : List Char) : Option (List Char × List Char) :=
  match cs.reverse.span (· ≠ sep) with
  | (_, []) => none
  | (after, _ :: before) => some (before.reverse, after.reverse)

end IControl.Text
