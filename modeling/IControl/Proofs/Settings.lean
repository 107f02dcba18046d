import IControl.Proofs.Outcome
import IControl.Settings
import Mathlib.Data.Nat.Digits.Defs
import Mathlib.Tactic.SplitIfs

/-!
# Settings from variables

What a lookup of variables has to hold so that settings are made of it: a
password, a known way of authentication or none, and a numeral of seconds or
none. Anything else is refused, with the first cause in this order. The reader of
numerals stops at the first character that is no digit and as soon as the number
leaves its range; leading zeros do not count against it, however many there are.
-/

namespace IControl

/-! ### Numerals -/

/-- The number that digits denote. -/
def digitsValue (digits : List Char) : Nat :=
  Nat.ofDigits 10 (digits.map fun c => c.toNat - 48).reverse

/-- Decimal digits, perhaps after one plus sign, and the number that they denote. -/
def IsNumeral (cs : List Char) (n : Nat) : Prop :=
  ∃ digits, (cs = digits ∨ cs = '+' :: digits) ∧ digits ≠ [] ∧ (∀ c ∈ digits, c.isDigit = true) ∧
    digitsValue digits = n

theorem digitsValue_cons (c : Char) (cs : List Char) :
    digitsValue (c :: cs) = (c.toNat - 48) * 10 ^ cs.length + digitsValue cs := by
  rw [digitsValue, List.map_cons, Nat.ofDigits_reverse_cons, List.length_map, Nat.add_comm,
    Nat.mul_comm]
  rfl

theorem isDigit_iff (c : Char) : c.isDigit = true ↔ '0' ≤ c ∧ c ≤ '9' := by
  simp [Char.isDigit, Char.le_def]

/-- Digits are read on from a number in range exactly when the whole number stays in range. -/
theorem readDigits_eq_ok_iff {n m : Nat} (small : n < UInt64.size) {cs : List Char} :
    readDigits n cs = .ok m ↔ (∀ c ∈ cs, c.isDigit = true) ∧
      n * 10 ^ cs.length + digitsValue cs = m ∧ m < UInt64.size := by
  induction cs generalizing n with
  | nil =>
    rw [readDigits, Except.ok.injEq]
    constructor
    · rintro rfl
      exact ⟨by simp, by simp [digitsValue], small⟩
    · rintro ⟨-, same, -⟩
      simpa [digitsValue] using same
  | cons c cs ih =>
    have value : n * 10 ^ (c :: cs).length + digitsValue (c :: cs) =
        (n * 10 + (c.toNat - 48)) * 10 ^ cs.length + digitsValue cs := by
      rw [digitsValue_cons, List.length_cons]
      ring
    have size : Nat.pow 2 64 = UInt64.size := rfl
    rw [readDigits, value, List.forall_mem_cons, isDigit_iff, size]
    dsimp only
    by_cases digit : '0' ≤ c ∧ c ≤ '9'
    · rw [if_pos digit]
      by_cases fits : n * 10 + (c.toNat - 48) < UInt64.size
      · rw [if_pos fits, ih fits, and_iff_right digit]
      · -- The number only grows with the digits that follow.
        have grows := Nat.le_mul_of_pos_right (n * 10 + (c.toNat - 48))
          (Nat.pow_pos (n := cs.length) (by decide : 0 < 10))
        rw [if_neg fits]
        constructor
        · exact nofun
        · rintro ⟨-, rfl, below⟩
          omega
    · rw [if_neg digit]
      exact ⟨nofun, fun h => absurd h.1.1 digit⟩

/-- A numeral without its plus sign. -/
def unsigned : List Char → List Char
  | '+' :: cs => cs
  | cs => cs

theorem unsigned_of_isDigit {cs : List Char} (digits : ∀ c ∈ cs, c.isDigit = true) :
    unsigned cs = cs := by
  unfold unsigned
  split
  · exact absurd (digits '+' List.mem_cons_self) (by decide)
  · rfl

theorem eq_unsigned (cs : List Char) : cs = unsigned cs ∨ cs = '+' :: unsigned cs := by
  unfold unsigned
  split
  · exact .inr rfl
  · exact .inl rfl

theorem isNumeral_iff {cs : List Char} {n : Nat} : IsNumeral cs n ↔
    unsigned cs ≠ [] ∧ (∀ c ∈ unsigned cs, c.isDigit = true) ∧ digitsValue (unsigned cs) = n := by
  constructor
  · rintro ⟨digits, rfl | rfl, present, each, value⟩
    · rw [unsigned_of_isDigit each]
      exact ⟨present, each, value⟩
    · exact ⟨present, each, value⟩
  · intro h
    exact ⟨unsigned cs, eq_unsigned cs, h⟩

theorem readNumeral_eq {cs : List Char} (present : unsigned cs ≠ []) :
    readNumeral cs = readDigits 0 (unsigned cs) := by
  unfold readNumeral
  split
  · exact absurd rfl present
  · exact absurd rfl present
  · rfl
  · rename_i notSigned
    have plain : unsigned cs = cs :=
      (eq_unsigned cs).elim Eq.symm fun signed => absurd signed (notSigned _)
    rw [plain]

/-- A text is read as a number exactly when it is a numeral of it and the number is in range. -/
theorem readNumeral_eq_ok_iff {cs : List Char} {n : Nat} :
    readNumeral cs = .ok n ↔ IsNumeral cs n ∧ n < UInt64.size := by
  rw [isNumeral_iff]
  by_cases present : unsigned cs = []
  · have refused : ∀ m, readNumeral cs ≠ .ok m := by
      rcases eq_unsigned cs with plain | signed
      · rw [plain, present]
        exact nofun
      · rw [signed, present]
        exact nofun
    simp [present, refused]
  · rw [readNumeral_eq present, readDigits_eq_ok_iff (by decide), Nat.zero_mul, Nat.zero_add]
    tauto

/-! ### Variables -/

/-- The name of a way of authentication, in any case of its letters, or none. -/
def KnownAuth (looked : Option String) : Prop :=
  ∀ mode, looked = some mode → Text.lowerAscii mode = "basic" ∨ Text.lowerAscii mode = "token"

/-- A number of seconds as the text of a variable, which may have blanks around it. -/
def IsSeconds (raw : String) (n : Nat) : Prop :=
  IsNumeral (Text.trim Text.isBlank raw.toList) n ∧ n < UInt64.size

/-- A number of seconds, or none. -/
def KnownTimeout (looked : Option String) : Prop :=
  ∀ raw, looked = some raw → ∃ n, IsSeconds raw n

/-- A word that turns the verification of certificates off. -/
def IsInsecure (looked : Option String) : Prop :=
  ∃ word, looked = some word ∧ Text.lowerAscii (Text.trimBlank word) ∈ ["1", "true", "yes"]

theorem ofVariable_of_known {looked : Option String} (known : KnownAuth looked) :
    ∃ auth, AuthMode.ofVariable looked = .ok auth ∧
      (auth = .token ↔ ∃ mode, looked = some mode ∧ Text.lowerAscii mode = "token") := by
  cases looked with
  | none => exact ⟨.basic, rfl, by simp⟩
  | some mode =>
    rcases known mode rfl with basic | token
    · exact ⟨.basic, if_pos basic, by simp [basic]⟩
    · exact ⟨.token, by simp [AuthMode.ofVariable, token], by simp [token]⟩

theorem ofVariable_of_unknown {mode : String} (basic : Text.lowerAscii mode ≠ "basic")
    (token : Text.lowerAscii mode ≠ "token") :
    AuthMode.ofVariable (some mode) = .error (.authUnknown (Text.lowerAscii mode)) := by
  simp only [AuthMode.ofVariable, basic, token, if_false]

namespace Settings

theorem timeoutOfVariable_of_isSeconds {raw : String} {n : Nat} (h : IsSeconds raw n) :
    timeoutOfVariable (some raw) = .ok (.ofSeconds n) := by
  simp only [timeoutOfVariable, readNumeral_eq_ok_iff.2 h]

theorem timeoutOfVariable_of_not_isSeconds {raw : String} (h : ∀ n, ¬IsSeconds raw n) :
    ∃ fault, timeoutOfVariable (some raw) = .error (.timeoutNumeral raw fault) := by
  rw [timeoutOfVariable]
  cases read : readNumeral (Text.trim Text.isBlank raw.toList) with
  | ok n => exact absurd (readNumeral_eq_ok_iff.1 read) (h n)
  | error fault => exact ⟨fault, rfl⟩

theorem ofVariables_eq_insecure_iff (looked caPath : Option String) :
    TlsMode.ofVariables looked caPath = .insecure ↔ IsInsecure looked := by
  have words : (looked.any fun word =>
      ["1", "true", "yes"].contains (Text.lowerAscii (Text.trimBlank word))) = true ↔
        IsInsecure looked := by
    cases looked <;> simp [IsInsecure]
  rw [← words]
  unfold TlsMode.ofVariables
  dsimp only
  split_ifs with off
  · exact iff_of_true rfl off
  · cases caPath <;> exact iff_of_false nofun off

/-- Without that word, the path of a certificate counts, be it the empty one. -/
theorem ofVariables_of_not_insecure {looked : Option String} (h : ¬IsInsecure looked)
    (caPath : Option String) :
    TlsMode.ofVariables looked caPath = caPath.elim .system .customCa := by
  have kept := mt (ofVariables_eq_insecure_iff looked caPath).1 h
  unfold TlsMode.ofVariables at kept ⊢
  dsimp only at kept ⊢
  split_ifs at kept ⊢
  · exact absurd rfl kept
  · cases caPath <;> rfl

/-- The names of the variables. -/
def variableNames : List String :=
  ["BIGIP_URL", "BIGIP_USERNAME", "BIGIP_PASSWORD", "BIGIP_AUTH", "BIGIP_TIMEOUT_SECS",
    "BIGIP_INSECURE", "BIGIP_CA_CERT"]

/-- The settings are those that the variables of a lookup stand for. -/
structure StandFor (lookup : String → Option String) (s : Settings) : Prop where
  url : s.url = (lookup "BIGIP_URL").getD "https://localhost"
  username : s.username = (lookup "BIGIP_USERNAME").getD "admin"
  password : lookup "BIGIP_PASSWORD" = some s.password
  token_iff : s.auth = .token ↔
    ∃ mode, lookup "BIGIP_AUTH" = some mode ∧ Text.lowerAscii mode = "token"
  timeout_default : lookup "BIGIP_TIMEOUT_SECS" = none → s.timeout = .ofSeconds 30
  timeout : ∀ raw n, lookup "BIGIP_TIMEOUT_SECS" = some raw → IsSeconds raw n →
    s.timeout = .ofSeconds n
  insecure_iff : s.tls = .insecure ↔ IsInsecure (lookup "BIGIP_INSECURE")
  verified : ¬IsInsecure (lookup "BIGIP_INSECURE") →
    s.tls = (lookup "BIGIP_CA_CERT").elim .system .customCa

section
variable {lookup : String → Option String}

theorem load_of_no_password (h : lookup "BIGIP_PASSWORD" = none) :
    load lookup = .error (.invalidConfig "BIGIP_PASSWORD environment variable is required") := by
  rw [load, ofLookup, h]
  rfl

theorem load_of_unknown_auth (password : lookup "BIGIP_PASSWORD" ≠ none) {mode : String}
    (looked : lookup "BIGIP_AUTH" = some mode) (basic : Text.lowerAscii mode ≠ "basic")
    (token : Text.lowerAscii mode ≠ "token") :
    load lookup = .error (.invalidConfig
      ("BIGIP_AUTH must be 'basic' or 'token', got '" ++ Text.lowerAscii mode ++ "'")) := by
  obtain ⟨_, set⟩ := Option.ne_none_iff_exists'.1 password
  rw [load, ofLookup, set, looked]
  simp only [ofVariable_of_unknown basic token]
  rfl

theorem load_of_unknown_timeout (password : lookup "BIGIP_PASSWORD" ≠ none)
    (known : KnownAuth (lookup "BIGIP_AUTH")) {raw : String}
    (looked : lookup "BIGIP_TIMEOUT_SECS" = some raw) (none : ∀ n, ¬IsSeconds raw n) :
    ∃ fault : NumeralFault, load lookup = .error (.invalidConfig
      ("BIGIP_TIMEOUT_SECS '" ++ raw ++ "': " ++ fault.message)) := by
  obtain ⟨_, set⟩ := Option.ne_none_iff_exists'.1 password
  obtain ⟨auth, mode, -⟩ := ofVariable_of_known known
  obtain ⟨fault, refused⟩ := timeoutOfVariable_of_not_isSeconds none
  refine ⟨fault, ?_⟩
  rw [load, ofLookup, set, looked]
  simp only [mode, refused]
  rfl

theorem load_of_known (password : lookup "BIGIP_PASSWORD" ≠ none)
    (auth : KnownAuth (lookup "BIGIP_AUTH"))
    (timeout : KnownTimeout (lookup "BIGIP_TIMEOUT_SECS")) :
    ∃ s, load lookup = .ok s ∧ s.StandFor lookup := by
  obtain ⟨password, set⟩ := Option.ne_none_iff_exists'.1 password
  obtain ⟨auth, mode, token_iff⟩ := ofVariable_of_known auth
  obtain ⟨limit, limited⟩ :
      ∃ limit, timeoutOfVariable (lookup "BIGIP_TIMEOUT_SECS") = .ok limit := by
    cases looked : lookup "BIGIP_TIMEOUT_SECS" with
    | none => exact ⟨_, rfl⟩
    | some raw =>
      obtain ⟨n, seconds⟩ := timeout raw looked
      exact ⟨_, timeoutOfVariable_of_isSeconds seconds⟩
  have loaded : load lookup = .ok {
      url := (lookup "BIGIP_URL").getD ({} : Settings).url
      username := (lookup "BIGIP_USERNAME").getD ({} : Settings).username
      password, auth, timeout := limit
      tls := TlsMode.ofVariables (lookup "BIGIP_INSECURE") (lookup "BIGIP_CA_CERT") } := by
    rw [load, ofLookup, set]
    simp only [mode, limited]
    rfl
  refine ⟨_, loaded, ⟨rfl, rfl, set, token_iff, ?_, ?_, ?_, ?_⟩⟩
  · intro looked
    rw [looked] at limited
    exact (Except.ok.inj limited).symm
  · intro raw n looked seconds
    rw [looked, timeoutOfVariable_of_isSeconds seconds] at limited
    exact (Except.ok.inj limited).symm
  · exact ofVariables_eq_insecure_iff _ _
  · intro verified
    exact ofVariables_of_not_insecure verified _

theorem load_fails_iff : (∃ error, load lookup = .error error) ↔ lookup "BIGIP_PASSWORD" = none ∨
    ¬KnownAuth (lookup "BIGIP_AUTH") ∨ ¬KnownTimeout (lookup "BIGIP_TIMEOUT_SECS") := by
  constructor
  · rintro ⟨error, failed⟩
    by_contra accepted
    simp only [not_or, not_not] at accepted
    obtain ⟨s, loaded, -⟩ := load_of_known accepted.1 accepted.2.1 accepted.2.2
    exact nomatch failed.symm.trans loaded
  · intro unfit
    by_cases password : lookup "BIGIP_PASSWORD" = none
    · exact ⟨_, load_of_no_password password⟩
    by_cases auth : KnownAuth (lookup "BIGIP_AUTH")
    · have unknown := (unfit.resolve_left password).resolve_left (not_not.2 auth)
      obtain ⟨raw, looked, none⟩ : ∃ raw, lookup "BIGIP_TIMEOUT_SECS" = some raw ∧
          ∀ n, ¬IsSeconds raw n := by
        simpa [KnownTimeout] using unknown
      obtain ⟨fault, refused⟩ := load_of_unknown_timeout password auth looked none
      exact ⟨_, refused⟩
    · obtain ⟨mode, looked, basic, token⟩ : ∃ mode, lookup "BIGIP_AUTH" = some mode ∧
          Text.lowerAscii mode ≠ "basic" ∧ Text.lowerAscii mode ≠ "token" := by
        simpa [KnownAuth] using auth
      exact ⟨_, load_of_unknown_auth password looked basic token⟩

theorem standFor_of_load {s : Settings} (loaded : load lookup = .ok s) : s.StandFor lookup := by
  have accepted : ¬∃ error, load lookup = .error error := by
    rintro ⟨error, failed⟩
    exact nomatch failed.symm.trans loaded
  rw [load_fails_iff] at accepted
  simp only [not_or, not_not] at accepted
  obtain ⟨other, same, stands⟩ := load_of_known accepted.1 accepted.2.1 accepted.2.2
  obtain rfl := Except.ok.inj (loaded.symm.trans same)
  exact stands

theorem load_congr {other : String → Option String}
    (same : ∀ name ∈ variableNames, other name = lookup name) : load other = load lookup := by
  simp only [variableNames, List.forall_mem_cons] at same
  obtain ⟨url, username, password, auth, timeout, insecure, caPath, -⟩ := same
  simp only [load, ofLookup, url, username, password, auth, timeout, insecure, caPath]

end

/-- A lookup makes settings exactly when it has a password, a known way of authentication or none,
and a number of seconds below 2^64 or none. The settings are then those that its variables stand
for. Otherwise the error is that of an invalid configuration and tells the first of these that
fails. No other variable is looked at. -/
theorem load_accepts (lookup : String → Option String) :
    ((∃ error, load lookup = .error error) ↔ lookup "BIGIP_PASSWORD" = none ∨
      ¬KnownAuth (lookup "BIGIP_AUTH") ∨ ¬KnownTimeout (lookup "BIGIP_TIMEOUT_SECS")) ∧
    (lookup "BIGIP_PASSWORD" = none → load lookup =
      .error (.invalidConfig "BIGIP_PASSWORD environment variable is required")) ∧
    (lookup "BIGIP_PASSWORD" ≠ none → ∀ mode, lookup "BIGIP_AUTH" = some mode →
      Text.lowerAscii mode ≠ "basic" → Text.lowerAscii mode ≠ "token" → load lookup =
        .error (.invalidConfig
          ("BIGIP_AUTH must be 'basic' or 'token', got '" ++ Text.lowerAscii mode ++ "'"))) ∧
    (lookup "BIGIP_PASSWORD" ≠ none → KnownAuth (lookup "BIGIP_AUTH") →
      ∀ raw, lookup "BIGIP_TIMEOUT_SECS" = some raw → (∀ n, ¬IsSeconds raw n) →
        ∃ fault : NumeralFault, load lookup = .error (.invalidConfig
          ("BIGIP_TIMEOUT_SECS '" ++ raw ++ "': " ++ fault.message))) ∧
    (∀ s, load lookup = .ok s → s.StandFor lookup) ∧
    ∀ other : String → Option String, (∀ name ∈ variableNames, other name = lookup name) →
      load other = load lookup :=
  ⟨load_fails_iff, load_of_no_password,
    fun password _ looked => load_of_unknown_auth password looked,
    fun password known _ looked => load_of_unknown_timeout password known looked,
    fun _ => standFor_of_load, fun _ => load_congr⟩

/-- The variables of a device with a certificate of its own. -/
def ownCertificate (auth : String) : String → Option String := fun name =>
  [("BIGIP_PASSWORD", "pw"), ("BIGIP_AUTH", auth), ("BIGIP_TIMEOUT_SECS", " +05\n"),
    ("BIGIP_INSECURE", "no"), ("BIGIP_CA_CERT", "")].lookup name

/-- Any case of letters is a known way of authentication, but not blanks around them. -/
theorem load_accepts_ownCertificate :
    (∃ s, load (ownCertificate "TOKEN") = .ok s ∧ s.auth = .token ∧ s.timeout = .ofSeconds 5 ∧
      s.tls = .customCa "") ∧
    load (ownCertificate "token ") =
      .error (.invalidConfig "BIGIP_AUTH must be 'basic' or 'token', got 'token '") := by
  obtain ⟨-, -, -, -, stand, -⟩ := load_accepts (ownCertificate "TOKEN")
  obtain ⟨-, -, unknown, -⟩ := load_accepts (ownCertificate "token ")
  constructor
  · have loaded : load (ownCertificate "TOKEN") = .ok
        { password := "pw", auth := .token, timeout := .ofSeconds 5, tls := .customCa "" } := by
      decide +kernel
    have stands := stand _ loaded
    have checked : ¬IsInsecure (ownCertificate "TOKEN" "BIGIP_INSECURE") := by
      rintro ⟨word, looked, listed⟩
      obtain rfl : "no" = word := Option.some.inj looked
      exact absurd listed (by decide +kernel)
    exact ⟨_, loaded, stands.token_iff.2 ⟨"TOKEN", by decide +kernel, by decide +kernel⟩, rfl,
      stands.verified checked⟩
  · exact unknown (by decide +kernel) "token " (by decide +kernel) (by decide +kernel)
      (by decide +kernel)

end Settings

end IControl
