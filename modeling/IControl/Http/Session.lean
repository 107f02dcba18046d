import IControl.Http.Status
import IControl.Http.Target
import IControl.Json.Printer
import IControl.Settings
import IControl.Shape.Decode
import IControl.Text.Base64
import IControl.Transport

/-!
# Sessions over HTTP

A session knows the address of a device and how to authenticate there: with user
and password on every request, or with the token of its last successful login.
Its requests become messages, and the reply to a message becomes the answer to
the request. A request without a message, because its URL names no server or
the token cannot be written in a header, fails with nothing sent.

The network is a service that answers a message by a reply or, when the server
hangs up or cannot be reached, by none. The files of certificates and the library
that sets up encrypted connections are the platform's, with errors of their own.

A base URL may itself name a user and a password, before an at sign. Requests
under such a URL carry a header of its making besides those of the session, logins
too. These URLs are outside of what is described here: the messages of a session
carry its own headers only.
-/

namespace IControl.Http

/-- A request as it is sent. -/
structure Message where
  method : Method
  target : String
  headers : List (String × String)
  body : Option String
  deriving DecidableEq, Repr

structure Reply where
  status : Nat
  body : Bytes
  deriving DecidableEq, Repr

abbrev Network (ν : Type) := Service ν Message (Option Reply)

structure Session where
  baseUrl : String
  username : String
  password : String
  token : Option String := none
  deriving DecidableEq, Repr

/-- The document by which a device explains a failure. -/
def failureShape : Shape := .struct (.ofList [(.optional "message", .text)])

/-- The document that answers a login. -/
def loginShape : Shape :=
  .struct (.ofList [(.required "token", .struct (.ofList [(.required "token", .text)]))])

/-- The device's own message in the body of a failure: the one in its document or else the whole
text. -/
def failureMessage (text : String) : String :=
  match failureShape.read (Utf8.encode text) with
  | .ok v =>
    let (message, _) : Option String × Unit := v
    message.getD text
  | .error _ => text

/-- The token in the body of a successful reply to a login. -/
def loginToken (text : String) : Except ClientError String :=
  match loginShape.read (Utf8.encode text) with
  | .ok v =>
    let ((token, _), _) : (String × Unit) × Unit := v
    .ok token
  | .error fault => .error (.unmarshal fault)

/-- A text can stand in a header unless it holds a control character other than the tab. -/
def isHeaderText (text : String) : Bool :=
  text.toList.all fun c => (0x20 ≤ c.toNat && c.toNat ≠ 0x7F) || c == '\t'

/-- What the reply to a request for `path` answers. -/
def readReply (path : String) : Option Reply → Except ClientError Bytes
  | none => .error .http
  | some reply =>
    if isSuccess reply.status then .ok reply.body
    else .error (.ofStatus reply.status path (failureMessage (Utf8.lossy reply.body)))

/-- The token that the reply to a login grants. -/
def readLogin : Option Reply → Except ClientError String
  | none => .error .http
  | some reply =>
    let text := Utf8.lossy reply.body
    if isSuccess reply.status then loginToken text
    else .error (.authentication
      ("login failed: " ++ statusShown reply.status ++ " - " ++ failureMessage text))

/-- The service that sends the messages of its requests over a network and reads the replies. -/
def overNetwork {ν Q A : Type} (net : Network ν) (message? : Q → Option Message)
    (read : Q → Option Reply → Except ClientError A) : Service ν Q (Except ClientError A) where
  accept := fun state q =>
    match message? q with
    | some m => net.accept state m
    | none => state
  wait := fun state q =>
    match message? q with
    | some m => net.wait state m
    | none => some 0
  answer := fun state q =>
    match message? q with
    | some m =>
      let (next, reply) := net.answer state m
      (next, read q reply)
    | none => (state, .error .http)

/-- What a session needs of the machine that it runs on. -/
structure Platform where
  /-- The content of a file, or why it cannot be read. -/
  file : String → Except String Bytes
  /-- Why the content of a file is no certificate. -/
  certificateFault? : Bytes → Option String
  /-- Can connections be set up, with a certificate of one's own or without? -/
  connects : TlsMode → Option Bytes → Bool

/-- The certificate that the settings add to the known ones. -/
def Platform.certificate (platform : Platform) : TlsMode → Except ClientError (Option Bytes)
  | .customCa path =>
    match platform.file path with
    | .error reason =>
      .error (.invalidConfig ("failed to read CA cert " ++ path ++ ": " ++ reason))
    | .ok content =>
      match platform.certificateFault? content with
      | some reason => .error (.invalidConfig ("invalid CA cert: " ++ reason))
      | none => .ok (some content)
  | .system | .insecure => .ok none

namespace Session

def ofSettings (s : Settings) : Session where
  baseUrl := String.ofList (Text.trimEnd Text.isSlash s.url.toList)
  username := s.username
  password := s.password

/-- Does the session send a token instead of user and password? -/
def usesToken (s : Session) : Bool := s.token.isSome

/-- The URL of a path; one that starts like a URL already is taken as it is. -/
def url (s : Session) (path : String) : String :=
  if "http".toList.isPrefixOf path.toList then path else s.baseUrl ++ path

def loginPath : String := "/mgmt/shared/authn/login"

/-- The header that authenticates a request. -/
def authorization (s : Session) : String × String :=
  match s.token with
  | some token => ("x-f5-auth-token", token)
  | none =>
    ("authorization",
      "Basic " ++ String.ofList (Base64.encode (Utf8.encode (s.username ++ ":" ++ s.password))))

/-- The message of a request. -/
def message? (s : Session) (r : Request) : Option Message := do
  let target ← target? (s.url r.path)
  let credentials := s.authorization
  if isHeaderText credentials.2 then
    some {
      method := r.method
      target
      headers :=
        ("accept", "application/json") ::
          (if r.body.isSome then [("content-type", "application/json")] else []) ++ [credentials]
      body := r.body }
  else none

/-- The message of a login. It carries the password, so it needs no other credentials. -/
def loginMessage? (s : Session) : Option Message := do
  let target ← target? (s.url loginPath)
  some {
    method := .post
    target
    headers := [("accept", "application/json"), ("content-type", "application/json")]
    body := some (Json.print (.ofMembers
      [("username", .string s.username), ("password", .string s.password),
       ("loginProviderName", .string "tmos")])) }

variable {ν : Type}

/-- A session as a transport. -/
def transport (s : Session) (net : Network ν) : Transport ν :=
  overNetwork net s.message? fun r => readReply r.path

/-- Logs in under a context. Only a login that succeeds changes the session. -/
def login (s : Session) (net : Network ν) (ctx : RequestContext) (state : ν) :
    ν × Session × Outcome Unit :=
  let granting : Service ν Unit (Except ClientError String) :=
    overNetwork net (fun _ => s.loginMessage?) fun _ => readLogin
  let (next, outcome) := granting.call ctx state ()
  match outcome.andThen id with
  | some (.ok token) => (next, { s with token := some token }, some (.ok ()))
  | some (.error error) => (next, s, some (.error error))
  | none => (next, s, none)

/-- The session of the settings. -/
def start (settings : Settings) (platform : Platform) : Except ClientError Session :=
  match platform.certificate settings.tls with
  | .error error => .error error
  | .ok certificate =>
    if platform.connects settings.tls certificate then .ok (.ofSettings settings)
    else .error .http

/-- A session that has logged in if the settings ask for a token. -/
def connect (settings : Settings) (platform : Platform) (net : Network ν) (state : ν) :
    ν × Outcome Session :=
  match start settings platform with
  | .error error => (state, some (.error error))
  | .ok s =>
    match settings.auth with
    | .basic => (state, some (.ok s))
    | .token =>
      let (next, s, outcome) := s.login net (.ofLimit settings.timeout) state
      (next, outcome.andThen fun _ => .ok s)

def shown (s : Session) : String :=
  Text.shownRecord "HttpTransport"
    [("base_url", Text.quoted s.baseUrl), ("username", Text.quoted s.username),
     ("auth", Text.quoted (if s.usesToken then "token" else "basic"))] true

end Session

end IControl.Http
