/-!
# Text in bytes

Bodies travel as bytes and are read as UTF-8. The reader below goes through the
bytes once. It keeps the bits of an unfinished character, the number of
continuation bytes still owed, and the range of the next one. A byte outside
that range ends an ill-formed stretch, which counts as one stray symbol, and is
read again as the start of what follows. So a stray symbol is always a longest
stretch that could still have become a character, and no byte below `0x80` is
ever part of one.
-/

namespace IControl

abbrev Bytes := List UInt8

namespace Utf8

/-- What one step of reading yields: a character or an ill-formed stretch. -/
inductive Symbol where
  | char (c : Char)
  | stray
  deriving DecidableEq, Repr

def Symbol.char? : Symbol → Option Char
  | .char c => some c
  | .stray => none

/-- The replacement character stands for a stray symbol. -/
def Symbol.shown : Symbol → Char
  | .char c => c
  | .stray => '\uFFFD'

/-- An unfinished character: its bits so far, the continuation bytes owed after
the next one, and the range of the next one. -/
structure Pending where
  value : Nat
  owed : Nat
  low : Nat
  high : Nat
  deriving DecidableEq, Repr

/-- The first byte of a character, or a symbol of its own. -/
def lead (b : UInt8) : Symbol ⊕ Pending :=
  let n := b.toNat
  if n < 0x80 then .inl (.char (Char.ofNat n))
  else if n < 0xC2 then .inl .stray
  else if n < 0xE0 then .inr ⟨n - 0xC0, 0, 0x80, 0xBF⟩
  else if n = 0xE0 then .inr ⟨0, 1, 0xA0, 0xBF⟩
  else if n = 0xED then .inr ⟨13, 1, 0x80, 0x9F⟩
  else if n < 0xF0 then .inr ⟨n - 0xE0, 1, 0x80, 0xBF⟩
  else if n = 0xF0 then .inr ⟨0, 2, 0x90, 0xBF⟩
  else if n < 0xF4 then .inr ⟨n - 0xF0, 2, 0x80, 0xBF⟩
  else if n = 0xF4 then .inr ⟨4, 2, 0x80, 0x8F⟩
  else .inl .stray

/-- Reads on from an unfinished character, if there is one. -/
def scan : Option Pending → Bytes → List Symbol
  | none, [] => []
  | some _, [] => [.stray]
  | none, b :: rest =>
    match lead b with
    | .inl s => s :: scan none rest
    | .inr p => scan (some p) rest
  | some p, b :: rest =>
    if p.low ≤ b.toNat ∧ b.toNat ≤ p.high then
      let value := p.value * 64 + (b.toNat - 0x80)
      match p.owed with
      | 0 => .char (Char.ofNat value) :: scan none rest
      | owed + 1 => scan (some ⟨value, owed, 0x80, 0xBF⟩) rest
    else
      match lead b with
      | .inl s => .stray :: s :: scan none rest
      | .inr q => .stray :: scan (some q) rest

def symbols (bytes : Bytes) : List Symbol := scan none bytes

def encodeChars (cs : List Char) : Bytes := cs.flatMap String.utf8EncodeChar

def encode (s : String) : Bytes := encodeChars s.toList

/-- The text with every stray symbol shown as the replacement character. -/
def lossy (bytes : Bytes) : String :=
  String.ofList ((symbols bytes).map Symbol.shown)

/-- The text of well-formed bytes. -/
def text? (bytes : Bytes) : Option String :=
  ((symbols bytes).mapM Symbol.char?).map String.ofList

end Utf8

end IControl
