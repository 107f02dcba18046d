/-!
# Requests

What a client hands to a transport: a method, a path below the device's address
and perhaps a body. The name of a method is a token, that is, some letters,
digits and a few marks. Names are case-sensitive; those that the interface does
not use are kept by their name.
-/

namespace IControl

inductive Method where
  | get
  | post
  | put
  | delete
  | other (name : String)
  deriving DecidableEq, Repr

namespace Method

def name : Method → String
  | .get => "GET"
  | .post => "POST"
  | .put => "PUT"
  | .delete => "DELETE"
  | .other n => n

def ofName (n : String) : Method :=
  if n = "GET" then .get
  else if n = "POST" then .post
  else if n = "PUT" then .put
  else if n = "DELETE" then .delete
  else .other n

/-- The characters of a token. -/
def isTokenChar (c : Char) : Bool :=
  c.isAlphanum || "!#$%&'*+-.^_`|~".toList.contains c

/-- The method of a name, or none when the name is no token. -/
def ofToken? (n : String) : Option Method :=
  if n ≠ "" ∧ n.toList.all isTokenChar then some (ofName n) else none

end Method

structure Request where
  method : Method
  path : String
  body : Option String
  deriving DecidableEq, Repr

end IControl
