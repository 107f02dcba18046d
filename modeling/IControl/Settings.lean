import IControl.Error
import IControl.Text.Quoted
import IControl.Text.Trim

/-!
# Connection settings

Where a device is and how to talk to it. Settings are built in code or looked up
under fixed names of variables. A lookup fails on the first of three causes: no
password, an unknown way of authentication, or a time limit that is no number of
seconds. Shown settings never contain the password.
-/

namespace IControl

inductive AuthMode where
  | basic
  | token
  deriving DecidableEq, Repr

/-- How the certificate of the device is verified. -/
inductive TlsMode where
  | system
  | customCa (path : String)
  | insecure
  deriving DecidableEq, Repr

structure Settings where
  url : String := "https://localhost"
  username : String := "admin"
  password : String := ""
  auth : AuthMode := .basic
  timeout : Duration := .ofSeconds 30
  tls : TlsMode := .system
  deriving DecidableEq, Repr

/-- Why a text is no number of seconds. -/
inductive NumeralFault where
  | empty
  | digit
  | overflow
  deriving DecidableEq, Repr

/-- Why settings could not be looked up. -/
inductive SettingsError where
  | passwordMissing
  | authUnknown (value : String)
  | timeoutNumeral (raw : String) (fault : NumeralFault)
  deriving DecidableEq, Repr

def NumeralFault.message : NumeralFault → String
  | .empty => "cannot parse integer from empty string"
  | .digit => "invalid digit found in string"
  | .overflow => "number too large to fit in target type"

def SettingsError.message : SettingsError → String
  | .passwordMissing => "BIGIP_PASSWORD environment variable is required"
  | .authUnknown value => "BIGIP_AUTH must be 'basic' or 'token', got '" ++ value ++ "'"
  | .timeoutNumeral raw fault => "BIGIP_TIMEOUT_SECS '" ++ raw ++ "': " ++ fault.message

/-- The number that the digits denote after `n`, as long as it stays below `2 ^ 64`. The first
fault from the left counts. -/
def readDigits (n : Nat) : List Char → Except NumeralFault Nat
  | [] => .ok n
  | c :: cs =>
    if '0' ≤ c ∧ c ≤ '9' then
      let m := n * 10 + (c.toNat - 48)
      if m < Nat.pow 2 64 then readDigits m cs else .error .overflow
    else .error .digit

/-- A numeral may have one plus sign in front of its digits. -/
def readNumeral : List Char → Except NumeralFault Nat
  | [] => .error .empty
  | ['+'] => .error .digit
  | '+' :: cs => readDigits 0 cs
  | cs => readDigits 0 cs

namespace AuthMode

/-- The way of authentication of a name in any case; basic when there is none. -/
def ofVariable : Option String → Except SettingsError AuthMode
  | none => .ok .basic
  | some value =>
    let lowered := Text.lowerAscii value
    if lowered = "basic" then .ok .basic
    else if lowered = "token" then .ok .token
    else .error (.authUnknown lowered)

def shown : AuthMode → String
  | .basic => "Basic"
  | .token => "Token"

end AuthMode

namespace TlsMode

/-- The variable that turns verification off goes before the one that names a certificate. -/
def ofVariables (insecure caPath : Option String) : TlsMode :=
  let off := insecure.any fun v => ["1", "true", "yes"].contains (Text.lowerAscii (Text.trimBlank v))
  if off then .insecure
  else
    match caPath with
    | some path => .customCa path
    | none => .system

def shown : TlsMode → String
  | .system => "System"
  | .customCa path => "CustomCa(" ++ Text.quoted path ++ ")"
  | .insecure => "DangerAcceptInvalid"

end TlsMode

namespace Settings

def timeoutOfVariable : Option String → Except SettingsError Duration
  | none => .ok ({} : Settings).timeout
  | some raw =>
    match readNumeral (Text.trim Text.isBlank raw.toList) with
    | .ok n => .ok (.ofSeconds n)
    | .error fault => .error (.timeoutNumeral raw fault)

/-- The settings that a lookup of variables gives. -/
def ofLookup (lookup : String → Option String) : Except SettingsError Settings :=
  match lookup "BIGIP_PASSWORD" with
  | none => .error .passwordMissing
  | some password => do
    let auth ← AuthMode.ofVariable (lookup "BIGIP_AUTH")
    let timeout ← timeoutOfVariable (lookup "BIGIP_TIMEOUT_SECS")
    return {
      url := (lookup "BIGIP_URL").getD ({} : Settings).url
      username := (lookup "BIGIP_USERNAME").getD ({} : Settings).username
      password, auth, timeout
      tls := TlsMode.ofVariables (lookup "BIGIP_INSECURE") (lookup "BIGIP_CA_CERT") }

/-- The settings for a client, or the error that they cannot be looked up. -/
def load (lookup : String → Option String) : Except ClientError Settings :=
  (ofLookup lookup).mapError fun e => .invalidConfig e.message

def shown (s : Settings) : String :=
  Text.shownRecord "BigIpConfig"
    [("url", Text.quoted s.url), ("username", Text.quoted s.username),
     ("password", Text.quoted "<redacted>"), ("auth", s.auth.shown),
     ("timeout", s.timeout.shown), ("tls", s.tls.shown)] false

end Settings

end IControl
