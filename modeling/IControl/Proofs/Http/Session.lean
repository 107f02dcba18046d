import IControl.Http.Session
import IControl.Proofs.Context
import IControl.Proofs.Recording
import Mathlib.Tactic.SplitIfs

/-!
# How a session authenticates

A session goes through logins and requests in any order, over a network that may
answer anything at any time or never. After each of them the session has the token of the
last login that succeeded, and that is what its next request carries; before the
first one it carries user and password. A login carries neither. A login that
fails, for whatever reason, or does not end leaves the session as it was.
-/

namespace IControl

namespace Http

def isHeaderChar (c : Char) : Bool := (0x20 ≤ c.toNat && c.toNat ≠ 0x7F) || c == '\t'

theorem isHeaderText_eq (s : String) : isHeaderText s = s.toList.all isHeaderChar := rfl

theorem isHeaderText_append (s t : String) :
    isHeaderText (s ++ t) = (isHeaderText s && isHeaderText t) := by
  rw [isHeaderText_eq, String.toList_append, List.all_append]
  rfl

theorem isHeaderText_base64 (bytes : Bytes) :
    isHeaderText (String.ofList (Base64.encode bytes)) = true := by
  have table : ∀ m < 64, isHeaderChar (Base64.digit m) = true := by decide +kernel
  rw [isHeaderText_eq, String.toList_ofList]
  refine Base64.all_encode (fun n => ?_) (by decide) bytes
  obtain ⟨m, small, same⟩ := Base64.digit_eq n
  rw [same]
  exact table m small

/-- The headers of a message that authenticate it. -/
def Message.credentials (m : Message) : List (String × String) :=
  m.headers.filter fun h => h.1 = "authorization" ∨ h.1 = "x-f5-auth-token"

/-- User and password in the form of basic authentication. -/
def basicCredentials (username password : String) : String × String :=
  ("authorization",
    "Basic " ++ String.ofList (Base64.encode (Utf8.encode (username ++ ":" ++ password))))

section
variable {ν Q A : Type} (net : Network ν) (message? : Q → Option Message)
  (read : Q → Option Reply → Except ClientError A) (ctx : RequestContext) (state : ν) (q : Q)

/-- What a call puts on the network is the message of its request, if there is one. -/
theorem call_overNetwork_recording (log : List Message) :
    (overNetwork net.recording message? read).call ctx (state, log) q =
      ((((overNetwork net message? read).call ctx state q).1,
        log ++ if ctx.isCancelled then [] else (message? q).toList),
        ((overNetwork net message? read).call ctx state q).2) := by
  unfold Service.call
  cases cancelled : ctx.isCancelled with
  | true => simp
  | false =>
    cases message : message? q with
    | none =>
      simp only [overNetwork, message, Bool.false_eq_true, if_false]
      cases ctx.cut? (some 0) <;> simp
    | some m =>
      simp only [overNetwork, message, Service.recording, Bool.false_eq_true, if_false]
      cases ctx.cut? (net.wait (net.accept state m) m) with
      | some error => rfl
      | none => cases net.wait (net.accept state m) m <;> rfl

end

namespace Session

variable {ν : Type}

theorem authorization_eq (s : Session) : s.authorization =
    match s.token with
    | some token => ("x-f5-auth-token", token)
    | none => basicCredentials s.username s.password := by
  unfold authorization basicCredentials
  cases s.token <;> rfl

theorem isHeaderText_authorization (s : Session) :
    isHeaderText s.authorization.2 = true ↔ ∀ token, s.token = some token → isHeaderText token = true := by
  rw [authorization_eq]
  cases s.token with
  | some token => simp
  | none =>
    have basic : isHeaderText "Basic " = true := by decide
    simp [basicCredentials, isHeaderText_append, basic, isHeaderText_base64]

theorem message?_isSome_iff (s : Session) (r : Request) : (s.message? r).isSome ↔
    (target? (s.url r.path)).isSome ∧ ∀ token, s.token = some token → isHeaderText token = true := by
  rw [← isHeaderText_authorization]
  unfold message?
  cases target? (s.url r.path) with
  | none => simp
  | some target => cases fit : isHeaderText s.authorization.2 <;> simp [fit]

/-- A message carries what authenticates the session, and nothing else that authenticates. -/
theorem credentials_message? {s : Session} {r : Request} {m : Message} (h : s.message? r = some m) :
    m.credentials = [s.authorization] := by
  have name : s.authorization.1 = "authorization" ∨ s.authorization.1 = "x-f5-auth-token" := by
    rw [authorization_eq]
    cases s.token with
    | some token => exact .inr rfl
    | none => exact .inl rfl
  unfold message? at h
  obtain ⟨target, -, made⟩ := Option.bind_eq_some_iff.1 h
  by_cases fit : isHeaderText s.authorization.2 = true
  · obtain rfl := Option.some.inj ((if_pos fit).symm.trans made)
    cases r.body <;> simp [Message.credentials, name]
  · exact nomatch (if_neg fit).symm.trans made

theorem credentials_loginMessage? {s : Session} {m : Message} (h : s.loginMessage? = some m) :
    m.credentials = [] := by
  obtain ⟨target, -, made⟩ := Option.bind_eq_some_iff.1 h
  obtain rfl := Option.some.inj made
  rfl

/-! ### Logins -/

theorem readLogin_of_failure {reply : Reply} (h : isSuccess reply.status = false) :
    ∃ detail, readLogin (some reply) = .error (.authentication detail) :=
  ⟨"login failed: " ++ statusShown reply.status ++ " - " ++ failureMessage (Utf8.lossy reply.body),
    by simp only [readLogin, h, Bool.false_eq_true, if_false]⟩

theorem loginToken_error {text : String} {error : ClientError} (h : loginToken text = .error error) :
    ∃ fault, error = .unmarshal fault := by
  unfold loginToken at h
  split at h
  · exact nomatch h
  · exact ⟨_, (Except.error.inj h).symm⟩

theorem readLogin_error {reply : Option Reply} {error : ClientError}
    (h : readLogin reply = .error error) :
    error = .http ∨ (∃ detail, error = .authentication detail) ∨ ∃ fault, error = .unmarshal fault := by
  unfold readLogin at h
  split at h
  · exact .inl (Except.error.inj h).symm
  · split at h
    · exact .inr (.inr (loginToken_error h))
    · exact .inr (.inl ⟨_, (Except.error.inj h).symm⟩)

theorem readLogin_ok {answer : Option Reply} {token : String} (h : readLogin answer = .ok token) :
    ∃ reply, answer = some reply ∧ isSuccess reply.status = true ∧
      loginToken (Utf8.lossy reply.body) = .ok token := by
  unfold readLogin at h
  split at h
  · exact nomatch h
  · split at h
    · rename_i reply success
      exact ⟨reply, rfl, success, h⟩
    · exact nomatch h

/-- What a login is granted: a token, or the error that it ends in. -/
def granted (s : Session) (net : Network ν) (ctx : RequestContext) (state : ν) : Outcome String :=
  ((overNetwork net (fun _ : Unit => s.loginMessage?) fun _ =>
    readLogin).call ctx state ()).2.andThen id

theorem granted_eq (s : Session) (net : Network ν) (ctx : RequestContext) (state : ν) :
    s.granted net ctx state =
      match s.loginMessage? with
      | none => ctx.run (some 0) (.error .http)
      | some m => ctx.run (net.wait (net.accept state m) m)
          (readLogin (net.answer (net.accept state m) m).2) := by
  unfold granted
  rw [Service.call_snd, RequestContext.andThen_run]
  cases message : s.loginMessage? <;> simp only [overNetwork] <;> rfl

/-- A login stores the token that it is granted. When it is granted none it changes nothing. -/
theorem login_outcome (s : Session) (net : Network ν) (ctx : RequestContext) (state : ν) :
    (s.login net ctx state).2 =
      match s.granted net ctx state with
      | some (.ok token) => ({ s with token := some token }, some (.ok ()))
      | some (.error error) => (s, some (.error error))
      | none => (s, none) := by
  unfold login granted
  dsimp only
  generalize Outcome.andThen _ id = granted
  rcases granted with _ | error | token <;> rfl

theorem isSome_granted (s : Session) (net : Network ν) (limit : Duration) (state : ν) :
    (s.granted net (.ofLimit limit) state).isSome = true := by
  rw [granted_eq]
  cases s.loginMessage? <;> exact RequestContext.isSome_run_ofLimit limit _ _

theorem login_recording (s : Session) (net : Network ν) (ctx : RequestContext) (state : ν)
    (log : List Message) : s.login net.recording ctx (state, log) =
      (((s.login net ctx state).1, log ++ if ctx.isCancelled then [] else s.loginMessage?.toList),
        (s.login net ctx state).2) := by
  unfold login
  simp only [call_overNetwork_recording]
  split <;> rfl

/-- The ways in which a login fails. -/
theorem granted_error {s : Session} {net : Network ν} {ctx : RequestContext} {state : ν}
    {error : ClientError} (h : s.granted net ctx state = some (.error error)) :
    error = .http ∨ error = .cancelled ∨ (∃ limit, error = .timeout limit) ∨
      (∃ detail, error = .authentication detail) ∨ ∃ fault, error = .unmarshal fault := by
  have late : ∀ wait, ctx.cut? wait = some error → error = .http ∨ error = .cancelled ∨
      (∃ limit, error = .timeout limit) ∨
        (∃ detail, error = .authentication detail) ∨ ∃ fault, error = .unmarshal fault := by
    intro wait cut
    rcases RequestContext.cut?_cases cut with cancelled | expired
    · exact .inr (.inl cancelled)
    · exact .inr (.inr (.inl expired))
  rw [granted_eq] at h
  split at h
  · rcases RequestContext.run_cases h with ⟨_, cut, same⟩ | ⟨-, -, unsent⟩
    · exact late _ (Except.error.inj same ▸ cut)
    · exact .inl (Except.error.inj unsent)
  · rcases RequestContext.run_cases h with ⟨_, cut, same⟩ | ⟨-, -, read⟩
    · exact late _ (Except.error.inj same ▸ cut)
    · rcases readLogin_error read.symm with unanswered | other
      · exact .inl unanswered
      · exact .inr (.inr (.inr other))

theorem granted_ok {s : Session} {net : Network ν} {ctx : RequestContext} {state : ν} {token : String}
    (h : s.granted net ctx state = some (.ok token)) : ∃ m reply, s.loginMessage? = some m ∧
      (net.answer (net.accept state m) m).2 = some reply ∧ isSuccess reply.status = true ∧
        loginToken (Utf8.lossy reply.body) = .ok token := by
  rw [granted_eq] at h
  split at h
  · rcases RequestContext.run_cases h with ⟨_, _, same⟩ | ⟨-, -, same⟩ <;> exact nomatch same
  · rename_i m message
    rcases RequestContext.run_cases h with ⟨_, _, same⟩ | ⟨-, -, read⟩
    · exact nomatch same
    · obtain ⟨reply, answered, success, carried⟩ := readLogin_ok read.symm
      exact ⟨m, reply, message, answered, success, carried⟩

/-! ### Runs -/

/-- What is done with a session. -/
inductive Step where
  | login (ctx : RequestContext)
  | execute (ctx : RequestContext) (request : Request)

/-- The network and the session after a step. -/
def step (net : Network ν) (now : ν × Session) : Step → ν × Session
  | .login ctx => ((now.2.login net ctx now.1).1, (now.2.login net ctx now.1).2.1)
  | .execute ctx r => ((Transport.send (now.2.transport net) ctx now.1 r).1, now.2)

def run (net : Network ν) (now : ν × Session) (steps : List Step) : ν × Session :=
  steps.foldl (step net) now

/-- What the logins among the steps of a run are granted, in their order. -/
def grants (net : Network ν) (now : ν × Session) : List Step → List (Outcome String)
  | [] => []
  | .login ctx :: steps =>
    now.2.granted net ctx now.1 :: grants net (step net now (.login ctx)) steps
  | .execute ctx r :: steps => grants net (step net now (.execute ctx r)) steps

/-- The token of the last login that succeeded. -/
def lastToken? (outcomes : List (Outcome String)) : Option String :=
  (outcomes.filterMap Outcome.result?).getLast?

theorem lastToken?_cons (outcome : Outcome String) (outcomes : List (Outcome String)) :
    lastToken? (outcome :: outcomes) = (lastToken? outcomes).or outcome.result? := by
  unfold lastToken?
  cases granted : outcome.result? with
  | none => rw [List.filterMap_cons_none granted, Option.or_none]
  | some token =>
    rw [List.filterMap_cons_some granted, List.getLast?_cons]
    cases (outcomes.filterMap Outcome.result?).getLast? <;> rfl

theorem session_login (net : Network ν) (now : ν × Session) (ctx : RequestContext) :
    (step net now (.login ctx)).2 =
      { now.2 with token := (now.2.granted net ctx now.1).result?.or now.2.token } := by
  have outcome := congrArg Prod.fst (now.2.login_outcome net ctx now.1)
  rw [step, outcome]
  rcases now.2.granted net ctx now.1 with _ | error | token <;> rfl

/-- A run changes nothing of a session but its token, which becomes the one of the last login that
succeeded. -/
theorem session_run (net : Network ν) (now : ν × Session) (steps : List Step) :
    (run net now steps).2 =
      { now.2 with token := (lastToken? (grants net now steps)).or now.2.token } := by
  induction steps generalizing now with
  | nil => rfl
  | cons s steps ih =>
    rw [run, List.foldl_cons, ← run, ih]
    cases s with
    | execute ctx r => rfl
    | login ctx => rw [session_login, grants, lastToken?_cons, Option.or_assoc]

/-! ### Authentication -/

theorem send_transport_recording (s : Session) (net : Network ν) (ctx : RequestContext) (state : ν)
    (log : List Message) (r : Request) :
    Transport.send (s.transport net.recording) ctx (state, log) r =
      (((Transport.send (s.transport net) ctx state r).1,
        log ++ if ctx.isCancelled then [] else (s.message? r).toList),
        (Transport.send (s.transport net) ctx state r).2) := by
  unfold Transport.send transport
  rw [call_overNetwork_recording]

/-- How a session of given settings goes on when the last login that succeeded, if any, was granted
the token. -/
structure Authenticates (net : Network ν) (settings : Settings) (now : ν × Session)
    (token : Option String) : Prop where
  token_eq : now.2.token = token
  /-- What a request puts on the network carries the token or else user and password. -/
  executed : ∀ ctx r, ∀ m ∈ (Transport.send (now.2.transport net.recording) ctx (now.1, []) r).1.2,
    m.credentials = [token.elim (basicCredentials settings.username settings.password)
      fun token => ("x-f5-auth-token", token)]
  /-- A request with a usable address and token is put on the network once. -/
  sent : ∀ ctx r, ctx.isCancelled = false → (target? (now.2.url r.path)).isSome →
    (∀ t, token = some t → isHeaderText t = true) →
      (Transport.send (now.2.transport net.recording) ctx (now.1, []) r).1.2.length = 1
  /-- A login carries no credentials in its headers. -/
  login : ∀ ctx, ∀ m ∈ (now.2.login net.recording ctx (now.1, [])).1.2, m.credentials = []
  /-- A login that succeeds was granted a token, by a reply that carries it, and stores it. -/
  succeeded : ∀ ctx, (now.2.login net ctx now.1).2.2 = some (.ok ()) →
    ∃ m reply token, now.2.loginMessage? = some m ∧
      (net.answer (net.accept now.1 m) m).2 = some reply ∧ isSuccess reply.status = true ∧
      loginToken (Utf8.lossy reply.body) = .ok token ∧
      now.2.granted net ctx now.1 = some (.ok token) ∧
      (now.2.login net ctx now.1).2.1 = { now.2 with token := some token }
  /-- A login that fails leaves the session as it was. -/
  failed : ∀ ctx error, (now.2.login net ctx now.1).2.2 = some (.error error) →
    (now.2.login net ctx now.1).2.1 = now.2 ∧
      (error = .http ∨ error = .cancelled ∨ (∃ limit, error = .timeout limit) ∨
        (∃ detail, error = .authentication detail) ∨ ∃ fault, error = .unmarshal fault)
  /-- So does a login that does not end. -/
  endless : ∀ ctx, (now.2.login net ctx now.1).2.2 = none → (now.2.login net ctx now.1).2.1 = now.2
  /-- A login is refused by every reply that is no success. -/
  refused : ∀ ctx m ms reply, now.2.loginMessage? = some m →
    net.wait (net.accept now.1 m) m = some ms → ctx.cut? (some ms) = none →
    (net.answer (net.accept now.1 m) m).2 = some reply → isSuccess reply.status = false →
      ∃ detail, (now.2.login net ctx now.1).2.2 = some (.error (.authentication detail))

/-- A session of the settings authenticates by the token that it has. -/
theorem authenticates (net : Network ν) {settings : Settings} {now : ν × Session}
    {token : Option String} (h : now.2 = { ofSettings settings with token }) :
    Authenticates net settings now token where
  token_eq := by rw [h]
  executed := by
    intro ctx r m sent
    simp only [send_transport_recording, List.nil_append] at sent
    split at sent
    · exact nomatch sent
    · have carried := credentials_message? (Option.mem_toList.1 sent)
      rw [carried, authorization_eq, h]
      cases token <;> simp [ofSettings]
  sent := by
    intro ctx r begun address fit
    obtain ⟨m, made⟩ := Option.isSome_iff_exists.1
      ((now.2.message?_isSome_iff r).2 ⟨address, by simpa only [h] using fit⟩)
    simp [send_transport_recording, begun, made]
  login := by
    intro ctx m sent
    simp only [login_recording, List.nil_append] at sent
    split at sent
    · exact nomatch sent
    · exact credentials_loginMessage? (Option.mem_toList.1 sent)
  succeeded := by
    intro ctx succeeded
    rw [login_outcome] at succeeded ⊢
    rcases outcome : now.2.granted net ctx now.1 with _ | error | token
    · simp [outcome] at succeeded
    · simp [outcome] at succeeded
    · obtain ⟨m, reply, message, answered, success, carried⟩ := granted_ok outcome
      exact ⟨m, reply, token, message, answered, success, carried, rfl, rfl⟩
  failed := by
    intro ctx error failed
    rw [login_outcome] at failed ⊢
    rcases outcome : now.2.granted net ctx now.1 with _ | error' | token
    · simp [outcome] at failed
    · obtain rfl : error' = error := by simpa [outcome] using failed
      exact ⟨rfl, granted_error outcome⟩
    · simp [outcome] at failed
  endless := by
    intro ctx forever
    rw [login_outcome] at forever ⊢
    rcases outcome : now.2.granted net ctx now.1 with _ | error | token
    · rfl
    · rfl
    · simp [outcome] at forever
  refused := by
    intro ctx m ms reply message waits patient answered failure
    obtain ⟨detail, read⟩ := readLogin_of_failure failure
    refine ⟨detail, ?_⟩
    rw [login_outcome, granted_eq]
    simp [message, waits, RequestContext.run_of_patient patient, answered, read]

theorem connect_token (net : Network ν) {settings : Settings} {platform : Platform}
    {s : Session} (started : start settings platform = .ok s) (auth : settings.auth = .token)
    (state : ν) :
    connect settings platform net state =
      ((s.login net (.ofLimit settings.timeout) state).1,
        (s.granted net (.ofLimit settings.timeout) state).andThen fun token =>
          .ok { s with token := some token }) := by
  have outcome := s.login_outcome net (.ofLimit settings.timeout) state
  generalize s.granted net (.ofLimit settings.timeout) state = granted at outcome ⊢
  unfold connect
  simp only [started]
  -- The login becomes a variable before the branch is chosen, or else its message is evaluated.
  generalize s.login net (.ofLimit settings.timeout) state = login at outcome ⊢
  rw [auth]
  obtain ⟨next, result⟩ := login
  obtain rfl : result = _ := outcome
  rcases granted with _ | error | token <;> rfl

theorem start_eq_ok {settings : Settings} {platform : Platform} {s : Session}
    (h : start settings platform = .ok s) : s = .ofSettings settings := by
  unfold start at h
  split at h
  · exact nomatch h
  · split_ifs at h
    exact (Except.ok.inj h).symm

/-- Whatever the network answers and when, after any run of logins and requests a session
authenticates by the token of the last login that succeeded, or else by user and password. Starting
a session has an outcome; for settings that ask for a token it succeeds exactly when its one login
does, and other settings send nothing. -/
theorem authenticates_run (net : Network ν) (settings : Settings) (state : ν) :
    (∀ steps, Authenticates net settings (run net (state, .ofSettings settings) steps)
      (lastToken? (grants net (state, .ofSettings settings) steps))) ∧
    ∀ platform s, start settings platform = .ok s →
      (settings.auth = .token →
        (connect settings platform net.recording (state, [])).1.2 = s.loginMessage?.toList ∧
        (connect settings platform net state).2.isSome = true ∧
        ((∃ c, (connect settings platform net state).2 = some (.ok c)) ↔
          (s.login net (.ofLimit settings.timeout) state).2.2 = some (.ok ())) ∧
        ∀ c, (connect settings platform net state).2 = some (.ok c) →
          c = (s.login net (.ofLimit settings.timeout) state).2.1 ∧ c.usesToken = true) ∧
      (settings.auth = .basic →
        connect settings platform net.recording (state, []) = ((state, []), some (.ok s)) ∧
        s.usesToken = false) := by
  refine ⟨fun steps => ?_, fun platform s started => ⟨fun auth => ?_, fun auth => ?_⟩⟩
  · refine authenticates net ?_
    rw [session_run]
    exact congrArg (fun token => { ofSettings settings with token }) Option.or_none
  · have sent : (connect settings platform net.recording (state, [])).1.2 = s.loginMessage?.toList := by
      have begun : (RequestContext.ofLimit settings.timeout).isCancelled = false := rfl
      simp [connect_token net.recording started auth, login_recording, begun]
    have outcome := s.login_outcome net (.ofLimit settings.timeout) state
    have ends := s.isSome_granted net settings.timeout state
    rw [connect_token net started auth, outcome]
    refine ⟨sent, ?_⟩
    generalize s.granted net (.ofLimit settings.timeout) state = granted at ends ⊢
    rcases granted with _ | error | token
    · exact nomatch ends
    · have unconnected : ∀ c : Session, some (Except.error error) ≠ some (Except.ok c) :=
        fun c connected => nomatch Option.some.inj connected
      refine ⟨rfl, ⟨fun ⟨c, connected⟩ => absurd connected (unconnected c), ?_⟩,
        fun c connected => absurd connected (unconnected c)⟩
      exact fun login => nomatch Option.some.inj login
    · refine ⟨rfl, ⟨fun _ => rfl, fun _ => ⟨_, rfl⟩⟩, fun c connected => ?_⟩
      obtain rfl := Except.ok.inj (Option.some.inj connected)
      exact ⟨rfl, rfl⟩
  · obtain rfl := start_eq_ok started
    refine ⟨?_, rfl⟩
    rw [connect, started, auth]

/-- The network whose replies are given. -/
def replying : Network (List Reply) where
  accept := fun replies _ => replies
  wait := fun _ _ => some 0
  answer := fun replies _ => (replies.tail, replies.head?)

def tokenSettings : Settings := { auth := .token }

/-- A platform without files, where connections can be set up. -/
def fileless : Platform where
  file := fun _ => .error "No such file or directory (os error 2)"
  certificateFault? := fun _ => none
  connects := fun _ _ => true

/-- A token for the first login and a refusal of the second. -/
def grantThenRefusal : List Reply :=
  [⟨200, Utf8.encode "\x7b\"token\":\x7b\"token\":\"T\"\x7d\x7d"⟩, ⟨401, Utf8.encode "no"⟩]

/-- The token of the first login stays when the second one is refused. -/
theorem authenticates_run_grantThenRefusal :
    Authenticates replying tokenSettings
      (run replying (grantThenRefusal, .ofSettings tokenSettings) [.login .background, .login .background])
      (some "T") ∧
    start tokenSettings fileless = .ok (.ofSettings tokenSettings) ∧
    tokenSettings.auth = .token ∧
    ∃ c, (connect tokenSettings fileless replying grantThenRefusal).2 = some (.ok c) ∧
      c.usesToken = true := by
  obtain ⟨authenticates, connects⟩ :=
    authenticates_run replying tokenSettings grantThenRefusal
  have last : lastToken? (grants replying (grantThenRefusal, .ofSettings tokenSettings)
      [.login .background, .login .background]) = some "T" := by
    decide +kernel
  have granted : ((ofSettings tokenSettings).granted replying (.ofLimit tokenSettings.timeout)
      grantThenRefusal).result? = some "T" := by
    decide +kernel
  have success : ((ofSettings tokenSettings).login replying (.ofLimit tokenSettings.timeout)
      grantThenRefusal).2.2 = some (.ok ()) := by
    rw [login_outcome]
    rcases outcome : (ofSettings tokenSettings).granted replying (.ofLimit tokenSettings.timeout)
      grantThenRefusal with _ | error | token
    · exact nomatch outcome ▸ granted
    · exact nomatch outcome ▸ granted
    · rfl
  obtain ⟨-, -, exactly, holds⟩ := (connects fileless _ rfl).1 rfl
  obtain ⟨c, connected⟩ := exactly.2 success
  exact ⟨last ▸ authenticates _, rfl, rfl, c, connected, (holds c connected).2⟩

end Session

end Http

end IControl
