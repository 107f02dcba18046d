import IControl.Text.Percent
import IControl.Text.Trim

/-!
# Request targets

A URL is cut into its scheme, its host and the rest. What of it is sent to the
server is in the rest: the path and the query. The dot segments of the path are
resolved on the way, so a path that ends in one of them is not sent as it was
built. Characters that may not stand in a path or a query are percent-encoded;
everything else, percent signs too, stays.

The host is the whole text up to the rest: a port, or a user in front of an at
sign, is not told apart from it.
-/

namespace IControl.Http

/-- The number of dots that a segment consists of, written as they are or encoded. -/
def dotCount? : List Char → Option Nat
  | [] => some 0
  | '.' :: cs => (dotCount? cs).map (· + 1)
  | '%' :: '2' :: c :: cs => if c = 'e' ∨ c = 'E' then (dotCount? cs).map (· + 1) else none
  | _ :: _ => none

/-- The segments of a path with its dot segments resolved; `done` holds the ones before, the last
one first. A dot segment at the end leaves an empty segment. -/
def resolveDots (done : List (List Char)) : List (List Char) → List (List Char)
  | [] => done.reverse
  | [segment] =>
    match dotCount? segment with
    | some 1 => ([] :: done).reverse
    | some 2 => ([] :: done.drop 1).reverse
    | _ => (segment :: done).reverse
  | segment :: rest =>
    match dotCount? segment with
    | some 1 => resolveDots done rest
    | some 2 => resolveDots (done.drop 1) rest
    | _ => resolveDots (segment :: done) rest

/-- A path with its dot segments resolved. -/
def removeDotSegments (path : String) : String :=
  let segments := Text.splitAt '/' (Text.trimOne Text.isSlash path.toList)
  "/" ++ String.intercalate "/" ((resolveDots [] segments).map String.ofList)

/-- Controls, blanks and whatever is not ASCII are encoded wherever they stand. -/
def isPlain (b : UInt8) : Bool := 0x20 < b.toNat && b.toNat < 0x7F

/-- The bytes that a path is sent with as they are. -/
def isPathByte (b : UInt8) : Bool :=
  isPlain b && !(['"', '#', '<', '>', '?', '\x60', '\x7b', '\x7d'].any fun c => c.toNat == b.toNat)

/-- The bytes that a query is sent with as they are. -/
def isQueryByte (b : UInt8) : Bool :=
  isPlain b && !(['"', '#', '<', '>', '\x27'].any fun c => c.toNat == b.toNat)

/-- The parts of a URL. -/
structure Url where
  scheme : List Char
  host : List Char
  rest : List Char
  deriving DecidableEq, Repr

/-- A blank or a control character. -/
def isControl (c : Char) : Bool := c.toNat ≤ 0x20

/-- A slash, leaning to either side. -/
def isAnySlash (c : Char) : Bool := c == '/' || c == '\\'

/-- A mark that ends the host in a URL. -/
def endsHost (c : Char) : Bool := isAnySlash c || c == '?' || c == '#'

/-- The characters of a URL that count. -/
def visible (url : String) : List Char :=
  (Text.trim isControl url.toList).filter fun c => c ≠ '\t' ∧ c ≠ '\n' ∧ c ≠ '\r'

/-- The scheme of a URL, when it is one of the two usual ones, and the text after the slashes behind
it. -/
def cutScheme? (cs : List Char) : Option (List Char × List Char) :=
  let (scheme, rest) := cs.span (· ≠ ':')
  let name := Text.lowerAscii (String.ofList scheme)
  if rest ≠ [] ∧ (name = "http" ∨ name = "https") then
    some (scheme, (rest.drop 1).dropWhile isAnySlash)
  else none

/-- The parts of a URL that has one of the two usual schemes and a host. -/
def Url.ofText? (url : String) : Option Url := do
  let (scheme, rest) ← cutScheme? (visible url)
  let (host, rest) := rest.span (!endsHost ·)
  if host = [] ∨ host.any isControl then none
  else some { scheme, host, rest }

/-- What is sent of a URL: its path and its query. -/
def Url.target (url : Url) : String :=
  let tail := url.rest.takeWhile (· ≠ '#')
  let path := (tail.takeWhile (· ≠ '?')).map fun c => if c = '\\' then '/' else c
  let escaped := Percent.encodeExcept isPathByte path
  let query :=
    match tail.dropWhile (· ≠ '?') with
    | [] => []
    | _ :: q => '?' :: Percent.encodeExcept isQueryByte q
  removeDotSegments (String.ofList escaped) ++ String.ofList query

/-- What is sent of the URL in a text; nothing when it has another scheme or no host. -/
def target? (url : String) : Option String := (Url.ofText? url).map Url.target

end IControl.Http
