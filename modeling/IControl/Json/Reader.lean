import IControl.Json.Document
import IControl.Text.Utf8

/-!
# Reading JSON

The reader turns the symbols of a text into a document. It never fails: what it
cannot read becomes a fault in the tree. A number literal ends where its grammar
ends, so that what follows it is judged by the container it stands in. Strings
are read in two steps, first into pieces and then, if no half of a surrogate pair
stands alone and no stray symbol occurs, into characters.

Every call of the three mutual readers uses up fuel; twice the length of the text
is always enough, since a container and its first item together consume at least
one symbol.
-/

namespace IControl.Json

open Utf8 (Symbol)

def isBlankSymbol : Symbol → Bool
  | .char c => c == ' ' || c == '\n' || c == '\t' || c == '\r'
  | .stray => false

def skipBlank (s : List Symbol) : List Symbol := s.dropWhile isBlankSymbol

def hexValue? (c : Char) : Option Nat :=
  if '0' ≤ c ∧ c ≤ '9' then some (c.toNat - 48)
  else if 'a' ≤ c ∧ c ≤ 'f' then some (c.toNat - 87)
  else if 'A' ≤ c ∧ c ≤ 'F' then some (c.toNat - 55)
  else none

/-- A part of a string: a character, half of a surrogate pair, or a stray symbol. -/
inductive Piece where
  | char (c : Char)
  | high (n : Nat)
  | low (n : Nat)
  | stray
  deriving DecidableEq, Repr

/-- The piece that four hexadecimal digits stand for. -/
def Piece.ofUnit (n : Nat) : Piece :=
  if 0xD800 ≤ n ∧ n < 0xDC00 then .high (n - 0xD800)
  else if 0xDC00 ≤ n ∧ n < 0xE000 then .low (n - 0xDC00)
  else .char (Char.ofNat n)

/-- The characters of a string, if all its surrogate halves come in pairs. -/
def assemble? : List Piece → Option (List Char)
  | [] => some []
  | .char c :: rest => (assemble? rest).map (c :: ·)
  | .high h :: .low l :: rest =>
    (assemble? rest).map (Char.ofNat (0x10000 + h * 0x400 + l) :: ·)
  | _ => none

/-- The character that a letter after a backslash stands for. -/
def escaped? (c : Char) : Option Char :=
  if c = '"' ∨ c = '\\' ∨ c = '/' then some c
  else if c = 'b' then some '\x08'
  else if c = 'f' then some '\x0c'
  else if c = 'n' then some '\n'
  else if c = 'r' then some '\r'
  else if c = 't' then some '\t'
  else none

def unit? (a b c d : Char) : Option Nat := do
  let a ← hexValue? a
  let b ← hexValue? b
  let c ← hexValue? c
  let d ← hexValue? d
  some (((a * 16 + b) * 16 + c) * 16 + d)

/-- The pieces up to the closing quotation mark, and what follows it. -/
def readPieces? : List Symbol → Option (List Piece × List Symbol)
  | [] => none
  | .stray :: rest => (readPieces? rest).map fun r => (.stray :: r.1, r.2)
  | .char c :: rest =>
    if c = '"' then some ([], rest)
    else if c = '\\' then
      match rest with
      | .char e :: rest =>
        if e = 'u' then
          match rest with
          | .char h₁ :: .char h₂ :: .char h₃ :: .char h₄ :: rest =>
            match unit? h₁ h₂ h₃ h₄ with
            | some n => (readPieces? rest).map fun r => (.ofUnit n :: r.1, r.2)
            | none => none
          | _ => none
        else
          match escaped? e with
          | some c => (readPieces? rest).map fun r => (.char c :: r.1, r.2)
          | none => none
      | _ => none
    else if c.toNat < 0x20 then none
    else (readPieces? rest).map fun r => (.char c :: r.1, r.2)

/-- The string after an opening quotation mark. -/
def readString? (s : List Symbol) : Option (Option String × List Symbol) :=
  (readPieces? s).map fun r => ((assemble? r.1).map String.ofList, r.2)

/-- The longest run of digits, and what follows it. -/
def readDigits : List Symbol → List Nat × List Symbol
  | .char c :: rest =>
    if '0' ≤ c ∧ c ≤ '9' then
      let r := readDigits rest
      ((c.toNat - 48) :: r.1, r.2)
    else ([], .char c :: rest)
  | s => ([], s)

/-- The digits of a whole number, which start with zero only for zero itself. -/
def readWhole? (s : List Symbol) : Option (List Nat × List Symbol) :=
  match readDigits s with
  | ([], _) => none
  | (0 :: _ :: _, _) => none
  | r => some r

/-- The digits after a point, if one follows. -/
def readFraction? : List Symbol → Option (Option (List Nat) × List Symbol)
  | .char '.' :: rest =>
    match readDigits rest with
    | ([], _) => none
    | (ds, rest) => some (some ds, rest)
  | s => some (none, s)

def readExponentDigits? (negative : Bool) (s : List Symbol) :
    Option (Option (Bool × List Nat) × List Symbol) :=
  match readDigits s with
  | ([], _) => none
  | (ds, rest) => some (some (negative, ds), rest)

/-- The exponent, if one follows. -/
def readExponent? : List Symbol → Option (Option (Bool × List Nat) × List Symbol)
  | .char c :: rest =>
    if c = 'e' ∨ c = 'E' then
      match rest with
      | .char '+' :: rest => readExponentDigits? false rest
      | .char '-' :: rest => readExponentDigits? true rest
      | rest => readExponentDigits? false rest
    else some (none, .char c :: rest)
  | s => some (none, s)

/-- The longest number literal at the front. -/
def readLiteral? (s : List Symbol) : Option (Number.Literal × List Symbol) := do
  let (negative, s) := match s with
    | .char '-' :: rest => (true, rest)
    | s => (false, s)
  let (whole, s) ← readWhole? s
  let (fraction, s) ← readFraction? s
  let (exponent, s) ← readExponent? s
  some (⟨negative, whole, fraction, exponent⟩, s)

/-- What follows a given word. -/
def afterWord? : List Char → List Symbol → Option (List Symbol)
  | [], s => some s
  | c :: cs, .char d :: s => if c = d then afterWord? cs s else none
  | _ :: _, _ => none

/-- A value that is no container. -/
def readScalar (s : List Symbol) : Document × List Symbol :=
  let ended : Option (Document × List Symbol) :=
    match s with
    | .char 'n' :: rest => (afterWord? ['u', 'l', 'l'] rest).map (Document.null, ·)
    | .char 't' :: rest => (afterWord? ['r', 'u', 'e'] rest).map (Document.bool true, ·)
    | .char 'f' :: rest => (afterWord? ['a', 'l', 's', 'e'] rest).map (Document.bool false, ·)
    | .char '"' :: rest => (readString? rest).map fun r => (.string r.1, r.2)
    | s => (readLiteral? s).map fun r => (.number r.1.number?, r.2)
  ended.getD (.fault, [])

mutual

def readValue : Nat → List Symbol → Document × List Symbol
  | 0, _ => (.fault, [])
  | fuel + 1, s =>
    match skipBlank s with
    | .char '[' :: rest =>
      match skipBlank rest with
      | .char ']' :: rest => (.array [] true, rest)
      | rest =>
        let r := readItems fuel rest
        (.array r.1 r.2.1, r.2.2)
    | .char '\x7b' :: rest =>
      match skipBlank rest with
      | .char '\x7d' :: rest => (.object [] true, rest)
      | rest =>
        let r := readMembers fuel rest
        (.object r.1 r.2.1, r.2.2)
    | s => readScalar s

/-- The items from the next one on, whether the array is closed, and what follows it. -/
def readItems : Nat → List Symbol → List Document × Bool × List Symbol
  | 0, _ => ([], false, [])
  | fuel + 1, s =>
    let (d, rest) := readValue fuel s
    match skipBlank rest with
    | .char ',' :: rest =>
      let r := readItems fuel rest
      (d :: r.1, r.2)
    | .char ']' :: rest => ([d], true, rest)
    | _ => ([d], false, [])

/-- The members from the next one on, whether the object is closed, and what follows it. -/
def readMembers : Nat → List Symbol → List (Option String × Document) × Bool × List Symbol
  | 0, _ => ([], false, [])
  | fuel + 1, s =>
    match skipBlank s with
    | .char '"' :: rest =>
      match readString? rest with
      | none => ([], false, [])
      | some (k, rest) =>
        match skipBlank rest with
        | .char ':' :: rest =>
          let (d, rest) := readValue fuel rest
          match skipBlank rest with
          | .char ',' :: rest =>
            let r := readMembers fuel rest
            ((k, d) :: r.1, r.2)
          | .char '\x7d' :: rest => ([(k, d)], true, rest)
          | _ => ([(k, d)], false, [])
        | _ => ([(k, .fault)], false, [])
    | _ => ([], false, [])

end

/-- The document at the front of a text, and whether only blanks follow it. -/
def readSymbols (s : List Symbol) : Document × Bool :=
  let r := readValue (2 * s.length + 2) s
  (r.1, (skipBlank r.2).isEmpty)

def read (bytes : Bytes) : Document × Bool := readSymbols (Utf8.symbols bytes)

/-- The value of a text; none when it is not well-formed. -/
def parse? (bytes : Bytes) : Option Json :=
  match read bytes with
  | (d, true) => d.value? Document.maxDepth
  | (_, false) => none

def ofText? (s : String) : Option Json := parse? (Utf8.encode s)

end IControl.Json
