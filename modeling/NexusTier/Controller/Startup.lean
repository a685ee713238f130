import NexusTier.Auth.Access
import NexusTier.Auth.Password
import NexusTier.Config.Load

/-!
# What the controller puts in front of its API

`main.go` loads the configuration and makes a protector of it before anything else: a guard, or, if
the operator has opted out, nothing.  What it cannot make a guard of is an error, and the controller
does not start.

## What is here

* `startConsole`: the start, up to the protector, with every error that it may end in.
* `Guard.Configured`: what a guard has from its environment.
* `fails_closed`: a controller that has started is open only if its environment says so; else its
  guard has the credential and the key of the environment, and private responses need a session.
* `operator_signs_in`: the password whose hash was printed opens the console, whatever other
  requests come in between, and for as long as sessions last.

## What is left out

What `run` does after it has the protector: opening and migrating the database, the workers and the
order of shutdown.  PBKDF2 and HMAC are parameters, of which only the length of a key is relied on.
-/

set_option autoImplicit false

namespace NexusTier

open Encoding Http Concurrent Relational

/-! ## The session signer -/

def sessionKeyLength : Nat := 32

/-- What `rand.Read` makes of an empty key, or its error. -/
abbrev RandomKey := Except String { key : Bytes // key.length = sessionKeyLength }

inductive SignerError where
  /-- "session ttl must be positive". -/
  | ttl
  /-- "generate session key: " and the error of `rand.Read`. -/
  | generateKey (cause : String)
  /-- "session key must be at least 32 bytes". -/
  | shortKey
deriving DecidableEq

/-- `NewSessionSigner`. -/
def newSessionSigner (random : RandomKey) (key : Bytes) (ttl : Int) :
    Except SignerError SessionSigner :=
  if httl : ttl ≤ 0 then .error .ttl
  else
    match (if key = [] then random.map Subtype.val else .ok key : Except String Bytes) with
    | .error cause => .error (.generateKey cause)
    | .ok key =>
      if hlength : key.length < sessionKeyLength then .error .shortKey
      else .ok ⟨key, ttl, Int.not_le.1 httl, Nat.not_lt.1 hlength⟩

/-! ## The protector -/

/-- What the controller asks of the packages around it. -/
structure Platform where
  net : Net
  derive : KeyDerivation
  mac : Mac
  random : RandomKey

/-- What stands in front of the API. -/
inductive Protector where
  | passThrough
  | guard (guard : Guard)

inductive StartupError where
  | config (error : LoadError)
  /-- "operator credential: ", with a hint if the hash is malformed. -/
  | credential (error : CredentialError)
  /-- "session signer: ". -/
  | signer (error : SignerError)
deriving DecidableEq

/-- `newProtector`.  `NewGuard` has an error only for what is nil. -/
def newProtector (platform : Platform) (settings : Config) : Except StartupError Protector :=
  if settings.authRequired platform.net = false then .ok .passThrough
  else
    match newCredential settings.authUsername settings.authPasswordHash with
    | .error error => .error (.credential error)
    | .ok credential =>
      match newSessionSigner platform.random settings.sessionKey settings.sessionTTL.toInt with
      | .error error => .error (.signer error)
      | .ok signer =>
        .ok (.guard ⟨credential, signer, settings.secureCookie, platform.derive, platform.mac⟩)

/-- `run`, up to the protector. -/
def startConsole (platform : Platform) (getenv : Environment) : Except StartupError Protector :=
  match load platform.net getenv with
  | .error error => .error (.config error)
  | .ok settings => newProtector platform settings

/-- A step of the handler that `protect` returns.  Without a guard each request is answered by the
API at once. -/
def Protector.step (s : Console) (event : ConsoleEvent) : Protector → Console
  | .passThrough =>
    match event with
    | .request request now =>
      { s with
        exchanges := s.exchanges ++ [.answered request now s.steps (serveApi request)]
        steps := s.steps + 1 }
    | _ => { s with steps := s.steps + 1 }
  | .guard g => s.step g event

def Protector.run (protector : Protector) (events : List ConsoleEvent) : Console :=
  events.foldl (fun s event => protector.step s event) .start

/-! ## What the environment says -/

/-- The operator has opted out: in so many words, or by listening on this host only. -/
def OptedOut (net : Net) (getenv : Environment) : Prop :=
  let mode := env getenv "NEXUSTIER_CONTROLLER_AUTH_MODE" authModeAuto
  mode = authModeDisabled ∨ mode = authModeAuto ∧
    isLoopbackAddress net (env getenv "NEXUSTIER_CONTROLLER_LISTEN_ADDR" (ascii "127.0.0.1:8080"))

/-- The guard has what the environment says. -/
structure Guard.Configured (platform : Platform) (getenv : Environment) (guard : Guard) : Prop where
  username : guard.credential.username =
    env getenv "NEXUSTIER_CONTROLLER_AUTH_USERNAME" (ascii "admin")
  username_ne : isBlank guard.credential.username = false
  hash : parseHash (getenv "NEXUSTIER_CONTROLLER_AUTH_PASSWORD_HASH") =
    some ⟨guard.credential.iterations, guard.credential.salt, guard.credential.key⟩
  iterations : minIterations ≤ guard.credential.iterations
  key_ne : guard.credential.key ≠ []
  signer : getenv "NEXUSTIER_CONTROLLER_SESSION_KEY" ≠ [] →
    guard.signer.key = getenv "NEXUSTIER_CONTROLLER_SESSION_KEY"
  derive : guard.derive = platform.derive
  mac : guard.mac = platform.mac

section Startup

variable {platform : Platform} {getenv : Environment} {settings : Config} {protector : Protector}
  {guard : Guard}

/-- The variables that the protector depends on. -/
theorem load_auth (h : load platform.net getenv = .ok settings) :
    validateAuth platform.net settings = .ok () ∧
      settings.listenAddress =
        env getenv "NEXUSTIER_CONTROLLER_LISTEN_ADDR" (ascii "127.0.0.1:8080") ∧
      settings.authMode = env getenv "NEXUSTIER_CONTROLLER_AUTH_MODE" authModeAuto ∧
      settings.authUsername =
        env getenv "NEXUSTIER_CONTROLLER_AUTH_USERNAME" (ascii "admin") ∧
      settings.authPasswordHash = getenv "NEXUSTIER_CONTROLLER_AUTH_PASSWORD_HASH" ∧
      settings.sessionKey = getenv "NEXUSTIER_CONTROLLER_SESSION_KEY" := by
  simp only [load, bind_eq_ok, pure_eq_ok, refuse_eq_ok] at h
  obtain ⟨-, -, pollInterval, -, pollJitter, -, requestTimeout, -, shutdownTimeout, -,
    metricRetention, -, cleanupInterval, -, cleanupBatchSize, -, -, -, -, -, -, -,
    -, -, sessionTTL, -, secureCookie, -, ⟨⟩, hauth, rfl⟩ := h
  exact ⟨hauth, rfl, rfl, rfl, rfl, rfl⟩

/-- What is left to read as `auto` is `auto`. -/
theorem not_authRequired_iff (h : validateAuth platform.net settings = .ok ()) :
    settings.authRequired platform.net = false ↔
      settings.authMode = authModeDisabled ∨
        settings.authMode = authModeAuto ∧
          isLoopbackAddress platform.net settings.listenAddress = true := by
  simp only [validateAuth, bind_eq_ok, refuse_eq_ok] at h
  obtain ⟨-, hmode, -⟩ := h
  have hdiff : authModeRequired ≠ authModeDisabled := by decide
  have hauto : authModeAuto ≠ authModeDisabled := by decide
  have hauto' : authModeAuto ≠ authModeRequired := by decide
  have hcases : settings.authMode = authModeAuto ∨ settings.authMode = authModeRequired ∨
      settings.authMode = authModeDisabled := by
    by_contra! hcon
    simp [hcon.1, hcon.2.1, hcon.2.2] at hmode
  rw [Config.authRequired]
  rcases hcases with heq | heq | heq
  · simp [heq, hauto, hauto']
  · simp [heq, hdiff, hauto'.symm]
  · simp [heq]

theorem newCredential_eq_ok {username encodedHash : Bytes} {credential : Credential}
    (h : newCredential username encodedHash = .ok credential) :
    isBlank username = false ∧ credential.username = username ∧
      parseHash encodedHash = some ⟨credential.iterations, credential.salt, credential.key⟩ := by
  rw [newCredential] at h
  split at h
  · cases h
  · rename_i hblank
    split at h
    · cases h
    · rename_i hash hparse
      obtain rfl := Except.ok.inj h
      exact ⟨by simpa using hblank, rfl, hparse⟩

theorem parseHash_eq_some {encoded : Bytes} {hash : ParsedHash}
    (h : parseHash encoded = some hash) :
    minIterations ≤ hash.iterations ∧ hash.salt ≠ [] ∧ hash.key ≠ [] := by
  rw [parseHash] at h
  split at h
  · split at h
    · simp only [Option.bind_eq_bind, Option.bind_eq_some_iff, decodeNonEmpty,
        Option.filter_eq_some_iff, Option.pure_def, Option.some_inj] at h
      obtain ⟨iterations, ⟨-, hmin⟩, salt, ⟨-, hsalt⟩, key, ⟨-, hkey⟩, rfl⟩ := h
      simp only [decide_eq_true_eq] at hmin hsalt hkey
      exact ⟨by show minIterations ≤ iterations.toNat; omega, hsalt, hkey⟩
    · cases h
  · cases h

theorem newSessionSigner_eq_ok {random : RandomKey} {key : Bytes} {ttl : Int}
    {signer : SessionSigner} (h : newSessionSigner random key ttl = .ok signer) :
    signer.ttl = ttl ∧ (key ≠ [] → signer.key = key) := by
  rw [newSessionSigner] at h
  split at h
  · cases h
  · split at h
    · cases h
    · rename_i key' hkey'
      split at h
      · cases h
      · obtain rfl := Except.ok.inj h
        refine ⟨rfl, fun hne => ?_⟩
        rw [if_neg hne] at hkey'
        exact (Except.ok.inj hkey').symm

/-- The protector is the one of the environment. -/
theorem startConsole_eq_ok (h : startConsole platform getenv = .ok protector) :
    (protector = .passThrough ∧ OptedOut platform.net getenv) ∨
      ∃ guard, protector = .guard guard ∧ ¬ OptedOut platform.net getenv ∧
        guard.Configured platform getenv := by
  rw [startConsole] at h
  split at h
  · cases h
  · rename_i settings hload
    obtain ⟨hauth, hlisten, hmode, husername, hhash, hkey⟩ := load_auth hload
    have hopted : settings.authRequired platform.net = false ↔ OptedOut platform.net getenv := by
      rw [not_authRequired_iff hauth, OptedOut, hmode, hlisten]
    rw [newProtector] at h
    split at h
    · rename_i hrequired
      exact .inl ⟨(Except.ok.inj h).symm, hopted.1 hrequired⟩
    · rename_i hrequired
      split at h
      · cases h
      · rename_i credential hcredential
        obtain ⟨hblank, hname, hparse⟩ := newCredential_eq_ok hcredential
        split at h
        · cases h
        · rename_i signer hsigner
          obtain rfl := Except.ok.inj h
          refine .inr ⟨_, rfl, mt hopted.2 hrequired, hname.trans husername, hname ▸ hblank,
            hhash ▸ hparse, (parseHash_eq_some hparse).1, (parseHash_eq_some hparse).2.2, ?_,
            rfl, rfl⟩
          rw [← hkey]
          exact (newSessionSigner_eq_ok hsigner).2

/-- **Closed, unless the operator has opted out.**  A controller that has started and whose operator
has not opted out has the credential of its environment, and in every run in which no token is
forged, what it answers with something private had a session. -/
theorem fails_closed (h : startConsole platform getenv = .ok protector)
    (hopted : ¬ OptedOut platform.net getenv) :
    ∃ guard, protector = .guard guard ∧ guard.Configured platform getenv ∧
      ∀ events, Throughout (Console.step guard) guard.NoForgery .start events →
        ∀ request time step response,
          Exchange.answered request time step response ∈ (protector.run events).exchanges →
            response.isPrivate = true →
              guard.HasSession (protector.run events).logins request time step := by
  obtain ⟨-, hout⟩ | ⟨guard, rfl, -, hconfigured⟩ := startConsole_eq_ok h
  · exact absurd hout hopted
  refine ⟨guard, rfl, hconfigured, fun events hforgery request time step response hanswered
    hprivate => ?_⟩
  have hguarded : (Console.run guard events).Guarded guard :=
    Throughout.keeps (fun s event hs hforgery => hs.step hforgery) Console.guarded_start hforgery
  obtain ⟨-, hresponse⟩ := hguarded.exchanges _ hanswered
  refine hresponse.resolve_left fun hpublic => ?_
  rw [Response.not_isPrivate_of_isPublic hpublic] at hprivate
  cases hprivate

end Startup

/-! ## Signing in -/

/-- A password that is printed as it is: one line, within the limit. -/
structure Enterable (p : Bytes) : Prop where
  ne : p ≠ []
  line : newline ∉ p
  last : p.getLast ne ≠ 13
  length : p.length ≤ readLimit

/-- A login with the name of the operator and a password. -/
structure Guard.SignIn (guard : Guard) (p : Bytes) (request : Request) : Prop where
  handler : protectMux.findHandler request = .handler .login
  form : ∃ form, request.postForm = some form ∧
    formValue form "username" = guard.credential.username ∧ formValue form "password" = p

/-- The step is one of the `i`-th request. -/
def ConsoleEvent.Concerns (i : Nat) : ConsoleEvent → Prop
  | request _ _ => False
  | submit j _ _ => j = i
  | finish j _ => j = i

/-- The steps of a login that comes in as the `i`-th request, with what else goes on. -/
def loginSteps (i : Nat) (request : Request) (t : Int) (mid : List ConsoleEvent) (now : Int)
    (nonce : Bytes) (mid' : List ConsoleEvent) (later : Int) : List ConsoleEvent :=
  .request request t :: mid ++ .submit i now (.ok nonce) :: mid' ++ [.finish i later]

section SigningIn

variable {platform : Platform} {getenv : Environment} {guard : Guard} {salt : Salt}
  {p rest nonce : Bytes} {request : Request} {now : Int}

/-- **The guard lets in who knows the password.** -/
theorem accepts_iff (hsized : platform.derive.Sized)
    (hconfigured : guard.Configured platform getenv) (hp : Enterable p)
    (hprint : printPasswordHash platform.derive salt (p ++ newline :: rest) =
      .ok (getenv "NEXUSTIER_CONTROLLER_AUTH_PASSWORD_HASH" ++ [newline]))
    (form : List (String × Bytes)) :
    guard.accepts form = true ↔ formValue form "username" = guard.credential.username ∧
      keyOf platform.derive salt (formValue form "password") = keyOf platform.derive salt p := by
  obtain ⟨-, key, hkey, hhash⟩ := (printPasswordHash_eq_ok hp.line).1 hprint
  rw [hashedPart_eq_self hp.ne hp.line hp.last hp.length] at hkey
  have hcredential := newCredential_formatHash hsized hconfigured.username_ne hkey
  rw [newCredential, hconfigured.username_ne, ← hhash, hconfigured.hash] at hcredential
  have heq : guard.credential = ⟨guard.credential.username, defaultIterations, salt.val, key⟩ :=
    Except.ok.inj hcredential
  rw [Guard.accepts, heq, hconfigured.derive, verify_eq_true hsized hkey, hkey]

theorem submitted_eq_ok (now : Int) (nonce : Bytes) {form : List (String × Bytes)}
    (hform : request.postForm = some form)
    (haccepts : guard.accepts form = true) (hname : guard.credential.username ≠ []) :
    ∃ token, guard.submitted request now (.ok nonce) = .ok token ∧
      guard.signer.issue guard.mac guard.credential.username now (.ok nonce) = .ok token := by
  refine ⟨_, ?_, if_neg hname⟩
  simp [Guard.submitted, hform, haccepts, SessionSigner.issue, hname]

/-- What the guard answers to a request with a token of its own. -/
theorem answer_of_token {token : Bytes} {issued : Int} {r : Request}
    (hissue : guard.signer.issue guard.mac guard.credential.username issued (.ok nonce) = .ok token)
    (hrep : SessionSigner.Representable (issued + guard.signer.ttl))
    (hname : guard.credential.username ≠ []) (htoken : sessionToken r = some token)
    (hguarded : protectMux.findHandler r = .handler .guarded) (hprivate : r.path ∉ publicPaths)
    (time : Int) : guard.answer r time = some
      (if unix time < unix (issued + guard.signer.ttl) then serveApi r else Guard.reject r) := by
  have hne : token ≠ [] := by
    rintro rfl
    rw [SessionSigner.issue, if_neg hname] at hissue
    simpa using Except.ok.inj hissue
  have hsubject : guard.subject r time =
      if unix time < unix (issued + guard.signer.ttl) then guard.credential.username else [] := by
    rw [Guard.subject, htoken]
    simp only [if_neg hne, SessionSigner.verify_issue hrep hissue]
    split <;> rfl
  simp only [Guard.answer, hguarded, Guard.guarded, if_neg hprivate, hsubject]
  by_cases hlive : unix time < unix (issued + guard.signer.ttl)
  · simp [hlive, hname]
  · simp [hlive]

/-- Steps of other requests leave a request alone. -/
theorem getElem?_exchanges_of_not_concerns {s : Console} {event : ConsoleEvent} {i : Nat}
    {exchange : Exchange} (h : s.exchanges[i]? = some exchange) (hevent : ¬ event.Concerns i) :
    (s.step guard event).exchanges[i]? = some exchange := by
  cases event with
  | request request now =>
    have happend : ∀ e, (s.exchanges ++ [e])[i]? = some exchange := fun e => by
      rw [List.getElem?_append_left (List.getElem?_eq_some_iff.1 h).1, h]
    simp only [Console.step, Console.act]
    split
    · exact happend _
    · exact happend _
  | submit j now nonce =>
    simp only [Console.step, Console.act]
    split
    · rw [List.getElem?_set_ne hevent, h]
    · exact h
  | finish j now =>
    simp only [Console.step, Console.act]
    split
    · rw [List.getElem?_set_ne hevent, h]
    · exact h

theorem getElem?_exchanges_foldl {events : List ConsoleEvent} {i : Nat} {exchange : Exchange}
    (hevents : ∀ event ∈ events, ¬ event.Concerns i) : ∀ {s : Console},
    s.exchanges[i]? = some exchange →
      (events.foldl (Console.step guard) s).exchanges[i]? = some exchange := by
  induction events with
  | nil => exact fun h => h
  | cons event events ih =>
    rw [List.forall_mem_cons] at hevents
    exact fun h => ih hevents.2 (getElem?_exchanges_of_not_concerns h hevents.1)

/-- A login that is allowed gets through, whatever else goes on. -/
theorem login_gets_through {s : Console} {mid mid' : List ConsoleEvent} {t : Int} (later : Int)
    {token : Bytes} (hhandler : protectMux.findHandler request = .handler .login)
    (hallow : (s.limiter.allow t (clientAddress request)).1 = true)
    (hmid : ∀ event ∈ mid, ¬ event.Concerns s.exchanges.length)
    (hmid' : ∀ event ∈ mid', ¬ event.Concerns s.exchanges.length)
    (hsubmitted : guard.submitted request now (.ok nonce) = .ok token) :
    ∃ step, ((loginSteps s.exchanges.length request t mid now nonce mid' later).foldl
      (Console.step guard) s).exchanges[s.exchanges.length]? =
        some (.answered request later step (guard.loggedIn token)) := by
  generalize hi : s.exchanges.length = i at *
  have hanswer : guard.answer request t = none := by
    rw [Guard.answer, hhandler]
  have hallowed : (s.step guard (.request request t)).exchanges[i]? = some (.allowed request) := by
    simp [Console.step, Console.act, hanswer, hallow, ← hi]
  have hwaiting : (mid.foldl (Console.step guard)
      (s.step guard (.request request t))).exchanges[i]? = some (.allowed request) :=
    getElem?_exchanges_foldl hmid hallowed
  simp only [loginSteps, List.cons_append, List.foldl_cons, List.foldl_append, List.foldl_nil]
  generalize mid.foldl (Console.step guard) (s.step guard (.request request t)) = s₁ at hwaiting ⊢
  have hlt : i < s₁.exchanges.length := (List.getElem?_eq_some_iff.1 hwaiting).1
  have haccepted : (s₁.step guard (.submit i now (.ok nonce))).exchanges[i]? =
      some (.accepted request token) := by
    simp only [Console.step, Console.act, hwaiting, Console.outcome, hsubmitted]
    exact List.getElem?_set_self hlt
  have hissued : (mid'.foldl (Console.step guard)
      (s₁.step guard (.submit i now (.ok nonce)))).exchanges[i]? =
        some (.accepted request token) :=
    getElem?_exchanges_foldl hmid' haccepted
  generalize mid'.foldl (Console.step guard) (s₁.step guard (.submit i now (.ok nonce))) = s₂
    at hissued ⊢
  refine ⟨s₂.steps, ?_⟩
  simp only [Console.step, Console.act, hissued]
  exact List.getElem?_set_self (List.getElem?_eq_some_iff.1 hissued).1

/-- **The password whose hash was printed opens the console.**  If the environment has the hash that
was printed for a password, one line of at most 1024 bytes with no carriage return at its end, then
the guard lets in the operator with this password and those that have the same key.  A login with it
that the limiter allows is given a session, whatever other requests come in between; and a request
with that session is served until the session expires, and refused from then on. -/
theorem operator_signs_in (hsized : platform.derive.Sized)
    (hstart : startConsole platform getenv = .ok (.guard guard)) (hp : Enterable p)
    (hprint : printPasswordHash platform.derive salt (p ++ newline :: rest) =
      .ok (getenv "NEXUSTIER_CONTROLLER_AUTH_PASSWORD_HASH" ++ [newline])) :
    (∀ form, guard.accepts form = true ↔ formValue form "username" = guard.credential.username ∧
      keyOf platform.derive salt (formValue form "password") = keyOf platform.derive salt p) ∧
    ∀ (before mid mid' : List ConsoleEvent) request t now later nonce, guard.SignIn p request →
      let s := Console.run guard before
      (s.limiter.allow t (clientAddress request)).1 = true →
      (∀ event ∈ mid ++ mid', ¬ event.Concerns s.exchanges.length) →
      SessionSigner.Representable (now + guard.signer.ttl) →
      ∃ token step,
        (Console.run guard (before ++ loginSteps s.exchanges.length request t mid now nonce mid'
          later)).exchanges[s.exchanges.length]? =
            some (.answered request later step (guard.loggedIn token)) ∧
        ∀ r, sessionToken r = some token → protectMux.findHandler r = .handler .guarded →
          r.path ∉ publicPaths → ∀ time, guard.answer r time =
            some (if unix time < unix (now + guard.signer.ttl) then serveApi r
              else Guard.reject r) := by
  obtain ⟨hpass, -⟩ | ⟨_, heq, -, hconfigured⟩ := startConsole_eq_ok hstart
  · cases hpass
  obtain rfl := Protector.guard.inj heq
  have haccepts := accepts_iff hsized hconfigured hp hprint
  refine ⟨haccepts, fun before mid mid' request t now later nonce hsign => ?_⟩
  intro s hallow hmid hrep
  have hname : guard.credential.username ≠ [] := by
    intro hnil
    have hblank : isBlank [] = false := hnil ▸ hconfigured.username_ne
    exact absurd hblank (by decide)
  obtain ⟨form, hform, huser, hpassword⟩ := hsign.form
  have hvalid : guard.accepts form = true := (haccepts form).2 ⟨huser, by rw [hpassword]⟩
  obtain ⟨token, hsubmitted, hissue⟩ := submitted_eq_ok now nonce hform hvalid hname
  obtain ⟨step, hanswered⟩ := login_gets_through later hsign.handler hallow
    (fun event hevent => hmid event (List.mem_append_left _ hevent))
    (fun event hevent => hmid event (List.mem_append_right _ hevent)) hsubmitted
  refine ⟨token, step, ?_, fun r htoken hguarded hprivate time =>
    answer_of_token hissue hrep hname htoken hguarded hprivate time⟩
  rw [Console.run, List.foldl_append]
  exact hanswered

end SigningIn

/-! ### A console that all hosts can reach -/

def consoleNet : Net where
  parseURL text :=
    if text = ascii "http://127.0.0.1:11211" then some (ascii "http", ascii "127.0.0.1:11211")
    else if text = ascii "postgres://localhost/nexustier" then
      some (ascii "postgres", ascii "localhost")
    else none
  splitHostPort text := if text = ascii "0.0.0.0:8080" then some (ascii "0.0.0.0") else none
  parseIP text := if text = ascii "0.0.0.0" then some false else none

def consoleDerive : KeyDerivation := fun password salt iterations length =>
  if length = keyLength then operatorDerive password salt iterations length
  else some (List.replicate length 0)

theorem consoleDerive_sized : consoleDerive.Sized := by
  intro password salt iterations length key h
  simp only [consoleDerive, operatorDerive] at h
  split at h
  · next hlen =>
    rw [hlen]
    split at h <;> obtain rfl := Option.some.inj h <;> rfl
  · obtain rfl := Option.some.inj h
    exact List.length_replicate

/-- The code of the token that the operator is given, under the key of the environment. -/
def consoleMac : Mac := fun _ _ =>
  [142, 250, 49, 253, 4, 143, 135, 9, 140, 96, 94, 184, 145, 212, 146, 232, 202, 229, 162, 88, 161,
    216, 44, 77, 88, 184, 5, 36, 34, 34, 7, 29]

def consolePlatform : Platform := ⟨consoleNet, consoleDerive, consoleMac, .error "not asked"⟩

/-- The key of the operator's password. -/
def consoleKey : Bytes := (operatorDerive operatorPassword [] 0 0).getD []

def consoleHash : Bytes := formatHash ⟨defaultIterations, countingSalt.val, consoleKey⟩

def consoleEnvironment : Environment := fun name =>
  if name = "NEXUSTIER_CONTROLLER_DATABASE_URL" then ascii "postgres://localhost/nexustier"
  else if name = "NEXUSTIER_CONTROLLER_LISTEN_ADDR" then ascii "0.0.0.0:8080"
  else if name = "NEXUSTIER_CONTROLLER_AUTH_USERNAME" then ascii "operator"
  else if name = "NEXUSTIER_CONTROLLER_AUTH_PASSWORD_HASH" then consoleHash
  else if name = "NEXUSTIER_CONTROLLER_SESSION_KEY" then ascii "0123456789abcdef0123456789abcdef"
  else []

def consoleSettings : Config where
  gatewayURL := ascii "http://127.0.0.1:11211"
  databaseURL := ascii "postgres://localhost/nexustier"
  listenAddress := ascii "0.0.0.0:8080"
  pollInterval := 15 * second
  pollJitter := 3 * second
  requestTimeout := 20 * second
  shutdownTimeout := 10 * second
  metricRetention := 720 * hour
  cleanupInterval := 6 * hour
  cleanupBatchSize := 10000
  authMode := ascii "auto"
  authUsername := ascii "operator"
  authPasswordHash := consoleHash
  sessionKey := ascii "0123456789abcdef0123456789abcdef"
  sessionTTL := 12 * hour
  secureCookie := true

theorem length_consoleKey : 32 ≤ (ascii "0123456789abcdef0123456789abcdef").length := by decide

theorem consoleTTL_pos : (0 : Int) < 43200000000000 := by decide

def consoleGuard : Guard where
  credential := ⟨ascii "operator", defaultIterations, countingSalt.val, consoleKey⟩
  signer := ⟨ascii "0123456789abcdef0123456789abcdef", 43200000000000, consoleTTL_pos,
    length_consoleKey⟩
  secureCookie := true
  derive := consoleDerive
  mac := consoleMac

theorem startConsole_console :
    startConsole consolePlatform consoleEnvironment = .ok (.guard consoleGuard) := by
  have hload : load consolePlatform.net consoleEnvironment = .ok consoleSettings := by
    decide +kernel
  have hrequired : consoleSettings.authRequired consolePlatform.net = true := by decide +kernel
  have hcredential : newCredential consoleSettings.authUsername consoleSettings.authPasswordHash =
      .ok consoleGuard.credential :=
    newCredential_formatHash (p := operatorPassword) consoleDerive_sized (by decide +kernel)
      (by decide +kernel)
  have hsigner : newSessionSigner consolePlatform.random consoleSettings.sessionKey
      consoleSettings.sessionTTL.toInt = .ok consoleGuard.signer := rfl
  simp only [startConsole, hload, newProtector, hrequired, hcredential, hsigner]
  rfl

theorem not_optedOut_console : ¬ OptedOut consoleNet consoleEnvironment := by
  rw [OptedOut]
  decide +kernel

/-- The operator's password is posted while somebody else tries a wrong one. -/
def consoleLogin : Request := loginRequest "203.0.113.7:50001" operatorPassword

def consoleMeanwhile : List ConsoleEvent :=
  [.request (loginRequest "203.0.113.9:40001" (ascii "wrong")) 1785000000000000000,
    .submit 1 1785000000000000000 (.ok operatorNonce)]

def consoleSession : Login := ⟨consoleLogin, 1785000000000000000, operatorNonce, 1⟩

/-- A request with the session that the operator is given. -/
def consoleRequest : Request :=
  { topologyRequest with
    cookies := [(sessionCookie, consoleGuard.token consoleSession)] }

def consoleRun : List ConsoleEvent :=
  [.request consoleLogin 1785000000000000000, .submit 0 1785000000000000000 (.ok operatorNonce),
    .finish 0 1785000000100000000, .request consoleRequest 1785000000200000000]

theorem fails_closed_console :
    Exchange.answered consoleRequest 1785000000200000000 3 (.served .currentTopology) ∈
        (Protector.run (.guard consoleGuard) consoleRun).exchanges ∧
      consoleGuard.HasSession (Protector.run (.guard consoleGuard) consoleRun).logins
        consoleRequest 1785000000200000000 3 := by
  obtain ⟨guard, heq, -, hrun⟩ := fails_closed startConsole_console not_optedOut_console
  obtain rfl := Protector.guard.inj heq
  have hanswered : Exchange.answered consoleRequest 1785000000200000000 3
      (.served .currentTopology) ∈
        (Protector.run (.guard consoleGuard) consoleRun).exchanges := by
    decide +kernel
  refine ⟨hanswered, hrun consoleRun ?_ _ _ _ _ hanswered rfl⟩
  refine ⟨fun token htoken => ?_, trivial, trivial, fun token htoken encoded hcut => ?_, trivial⟩
  · simp [sessionToken, consoleLogin, loginRequest] at htoken
  · refine ⟨consoleSession, by decide +kernel, ?_⟩
    have hown : cut dot (consoleGuard.token consoleSession) =
        some (consoleGuard.encoded consoleSession,
          consoleGuard.signer.sign consoleGuard.mac (consoleGuard.encoded consoleSession)) := by
      decide +kernel
    have htoken' : sessionToken consoleRequest = some (consoleGuard.token consoleSession) := by
      decide +kernel
    obtain rfl := Option.some.inj (htoken'.symm.trans htoken)
    rw [hown] at hcut
    exact (Prod.mk.inj (Option.some.inj hcut)).1.symm

theorem enterable_operatorPassword : Enterable operatorPassword :=
  ⟨by decide, by decide, by decide, by decide⟩

theorem operator_signs_in_console :
    ∃ token step,
      (Console.run consoleGuard (loginSteps 0 consoleLogin 1785000000000000000 consoleMeanwhile
        1785000000000000000 operatorNonce [] 1785000000100000000)).exchanges[0]? =
          some (.answered consoleLogin 1785000000100000000 step (consoleGuard.loggedIn token)) ∧
      consoleGuard.answer { topologyRequest with cookies := [(sessionCookie, token)] }
        1785000000200000000 = some (.served .currentTopology) := by
  have hprint : printPasswordHash consoleDerive countingSalt (operatorPassword ++ newline :: []) =
      .ok (consoleHash ++ [newline]) := by decide +kernel
  have hsign : consoleGuard.SignIn operatorPassword consoleLogin :=
    ⟨by decide +kernel, _, rfl, by decide +kernel, by decide +kernel⟩
  obtain ⟨token, step, hanswered, hserve⟩ :=
    (operator_signs_in consoleDerive_sized startConsole_console enterable_operatorPassword hprint).2 []
      consoleMeanwhile [] consoleLogin 1785000000000000000 1785000000000000000
      1785000000100000000 operatorNonce hsign (by decide +kernel)
      (by simp [consoleMeanwhile, ConsoleEvent.Concerns, Console.run, Console.start])
      (by unfold SessionSigner.Representable; decide +kernel)
  refine ⟨token, step, hanswered, ?_⟩
  have hguarded : protectMux.findHandler topologyRequest = .handler .guarded := by decide +kernel
  have hprivate : topologyRequest.path ∉ publicPaths := by decide +kernel
  have hlive : unix 1785000000200000000 < unix (1785000000000000000 + consoleGuard.signer.ttl) := by
    decide +kernel
  have htopology : serveApi topologyRequest = .served .currentTopology := by decide +kernel
  have hserved := hserve { topologyRequest with cookies := [(sessionCookie, token)] } rfl hguarded
    hprivate 1785000000200000000
  rw [if_pos hlive] at hserved
  exact hserved.trans (congrArg some htopology)

end NexusTier
