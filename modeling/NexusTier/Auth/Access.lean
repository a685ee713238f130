import NexusTier.Concurrent.Schedule
import NexusTier.Auth.Guard

/-!
# No access without a login

What is private (the API below `/v1/` and the files of the console) is served only to a request
whose session cookie holds a token that an earlier login of the same run was given, while that token
lives.  All other requests end with the login and logout handlers, with one of the two probes, or
with an error or a redirect that a router or the guard gives by itself.

It comes from two facts.  A path that is public for the guard is private nowhere in the API
(`serveApi_isPublic`), although guard and routers read the path in different ways; and a token that
is accepted is one of the signer's own, if nobody else can compute its code (`NoForgery`).

## What is here

* `Response.isPrivate` and `Response.isPublic`: which responses give something away.  No response is
  both.
* `serveApi_isPublic`: whatever the API serves under a path that is public for the guard is public.
* `Guard.login_of_subject`: the subject of an accepted token is that of a login, and the token is
  the one that this login was given.
* `Guarded`: the invariant of a run, with one lemma for each kind of event and `Guarded.step` for
  all.
* `access_requires_login`: the conclusion, for every run.

## What is left out

Forgery: that nobody without the key computes a code is a hypothesis on the requests of the run, and
nothing is said about how hard that is.  The listener, TLS and the headers of responses are not
modelled.
-/

set_option autoImplicit false

namespace NexusTier

open Encoding Http Concurrent

/-! ## What is private -/

/-- The two probes. -/
def Endpoint.isProbe : Endpoint → Bool
  | health => true
  | ready => true
  | buildIdentity => false
  | telemetryStatus => false
  | currentTopology => false
  | retentionStatus => false
  | webui => false

namespace Response

/-- A handler below `/v1/` answers, or the console's index, script or stylesheet is given. -/
def isPrivate : Response → Bool
  | served endpoint => !endpoint.isProbe
  | asset _ => true
  | loginPage _ _ _ => false
  | toConsole _ => false
  | toLogin _ => false
  | rejected _ _ => false
  | redirect _ _ => false
  | error _ => false

/-- The handlers of login and logout answer, or a probe, or the request is refused. -/
def isPublic : Response → Bool
  | loginPage _ _ _ => true
  | toConsole _ => true
  | toLogin _ => true
  | served endpoint => endpoint.isProbe
  | rejected _ _ => true
  | redirect _ _ => true
  | error _ => true
  | asset _ => false

theorem not_isPrivate_of_isPublic {response : Response} (h : response.isPublic = true) :
    response.isPrivate = false := by
  cases response with
  | served endpoint => simpa [isPrivate, isPublic] using h
  | asset asset => simp [isPublic] at h
  | loginPage | toConsole | toLogin | rejected | redirect | error => rfl

end Response

/-! ## Paths -/

/-- A pattern for `GET` without a subtree is found for its path only. -/
theorem path_of_get {request : Request} {literals : List Bytes}
    (hcovers : Pattern.covers ⟨some "GET", literals, false⟩ (segments request.escapedPath))
    (hadmits : Pattern.admits ⟨some "GET", literals, false⟩ request.method)
    (hslash : [slash] ∉ literals)
    (hclean : request.method ≠ "CONNECT" → cleanPath request.escapedPath = request.escapedPath) :
    request.path = slash :: [slash].intercalate literals := by
  refine ServeMux.path_eq_of_covers hcovers rfl hslash (hclean ?_)
  rintro hconnect
  simp [Pattern.admits, hconnect] at hadmits

/-- **Nothing private has a public path.** -/
theorem serveApi_isPublic {request : Request} (h : request.path ∈ publicPaths) :
    (serveApi request).isPublic = true := by
  rw [serveApi]
  split
  · -- the console has other paths
    have hindex : request.path ≠ ascii "/" := by
      intro heq
      exact absurd (heq ▸ h) (by decide)
    have hcss : request.path ≠ ascii "/app.css" := by
      intro heq
      exact absurd (heq ▸ h) (by decide)
    have hscript : request.path ≠ ascii "/app.js" := by
      intro heq
      exact absurd (heq ▸ h) (by decide)
    simp [webui, hindex, hcss, hscript, Response.isPublic]
  · rename_i endpoint hwebui hfound
    obtain ⟨pattern, hmem, hcovers, hadmits, hclean⟩ := ServeMux.findHandler_eq_handler hfound
    have hprivate : ∀ literals, pattern = ⟨some "GET", literals, false⟩ → [slash] ∉ literals →
        slash :: [slash].intercalate literals ∈ publicPaths := by
      rintro literals rfl hslash
      rwa [← path_of_get hcovers hadmits hslash hclean]
    simp only [apiMux, List.mem_cons, Prod.mk.injEq, List.not_mem_nil, or_false] at hmem
    obtain ⟨-, rfl⟩ | ⟨-, rfl⟩ | ⟨hp, rfl⟩ | ⟨hp, rfl⟩ | ⟨hp, rfl⟩ | ⟨hp, rfl⟩ | ⟨-, rfl⟩ := hmem
    · rfl
    · rfl
    · exact absurd (hprivate _ hp (by decide)) (by decide)
    · exact absurd (hprivate _ hp (by decide)) (by decide)
    · exact absurd (hprivate _ hp (by decide)) (by decide)
    · exact absurd (hprivate _ hp (by decide)) (by decide)
    · exact absurd rfl hwebui
  · rfl
  · rfl

/-- A login is posted to `/login`. -/
theorem login_of_findHandler {request : Request}
    (h : protectMux.findHandler request = .handler .login) :
    request.method = "POST" ∧ request.path = ascii "/login" := by
  obtain ⟨pattern, hmem, hcovers, hadmits, hclean⟩ := ServeMux.findHandler_eq_handler h
  obtain rfl : pattern = ⟨some "POST", [ascii "login"], false⟩ := by
    simpa [protectMux] using hmem
  have hpost : "POST" = request.method := by simpa [Pattern.admits] using hadmits
  have hpath := ServeMux.path_eq_of_covers hcovers rfl (by decide) (hclean (by simp [← hpost]))
  exact ⟨hpost.symm, hpath.trans (by decide)⟩

/-! ## Tokens -/

/-- What the signer has encoded for a login. -/
def Guard.encoded (guard : Guard) (login : Login) : Bytes :=
  encode64 (SessionSigner.payload guard.credential.username (guard.signer.expiry login.time)
    login.nonce)

/-- The token of a login. -/
def Guard.token (guard : Guard) (login : Login) : Bytes :=
  guard.encoded login ++ dot :: guard.signer.sign guard.mac (guard.encoded login)

/-- No request carries the right code for a text that the signer has not issued. -/
def Guard.NoForgery (guard : Guard) (s : Console) : ConsoleEvent → Prop
  | .request request _ => ∀ token, sessionToken request = some token → ∀ encoded,
    cut dot token = some (encoded, guard.signer.sign guard.mac encoded) →
      ∃ login ∈ s.logins, encoded = guard.encoded login
  | .submit _ _ _ => True
  | .finish _ _ => True

/-- A login was posted to `/login`, and its user name and password were accepted. -/
structure Login.Verified (guard : Guard) (login : Login) : Prop where
  method : login.request.method = "POST"
  path : login.request.path = ascii "/login"
  form : ∃ form, login.request.postForm = some form ∧ guard.accepts form = true

/-- The request that is served at step `step` carries the token of an earlier login, and the token
lives. -/
def Guard.HasSession (guard : Guard) (logins : List Login) (request : Request) (time : Int)
    (step : Nat) : Prop :=
  ∃ login ∈ logins, login.step < step ∧ login.Verified guard ∧
    sessionToken request = some (guard.token login) ∧ unix time < guard.signer.expiry login.time

section

variable {guard : Guard} {request : Request} {now : Int}

/-- **An accepted token is the signer's own.** -/
theorem Guard.login_of_subject {s : Console} (h : guard.subject request now ≠ [])
    (hforgery : guard.NoForgery s (.request request now)) :
    ∃ login ∈ s.logins, sessionToken request = some (guard.token login) ∧
      unix now < guard.signer.expiry login.time := by
  rw [subject] at h
  split at h
  · exact absurd rfl h
  · rename_i token htoken
    split at h
    · exact absurd rfl h
    · cases hverify : guard.signer.verify guard.mac token now with
      | none => simp [hverify] at h
      | some subject =>
        obtain ⟨encoded, hcut, -⟩ := SessionSigner.verify_eq_some hverify
        obtain ⟨login, hlogin, rfl⟩ := hforgery token htoken encoded hcut
        refine ⟨login, hlogin, ?_, SessionSigner.verify_issued hverify hcut⟩
        rw [htoken, cut_eq_some hcut, Guard.token]

/-- What is answered at once is public, unless there is a session. -/
theorem Guard.answer_isPublic {response : Response} (h : guard.answer request now = some response) :
    response.isPublic = true ∨ guard.subject request now ≠ [] := by
  rw [answer] at h
  split at h
  · obtain rfl := Option.some.inj h
    rw [loginForm]
    split
    · exact .inl rfl
    · exact .inl rfl
  · simp at h
  · obtain rfl := Option.some.inj h
    exact .inl rfl
  · obtain rfl := Option.some.inj h
    rw [guarded]
    split
    · rename_i hpublic
      exact .inl (serveApi_isPublic hpublic)
    · split
      · rw [reject]
        split
        · exact .inl rfl
        · exact .inl rfl
      · rename_i hsubject
        exact .inr hsubject
  · obtain rfl := Option.some.inj h
    exact .inl rfl
  · obtain rfl := Option.some.inj h
    exact .inl rfl

/-- Only a login is not answered at once. -/
theorem Guard.findHandler_of_answer (h : guard.answer request now = none) :
    protectMux.findHandler request = .handler .login := by
  rw [answer] at h
  split at h
  · simp at h
  · assumption
  · simp at h
  · simp at h
  · simp at h
  · simp at h

/-- A form that is not accepted is answered with the login page. -/
theorem Guard.submitted_error {nonce : Except String Bytes} {response : Response}
    (h : guard.submitted request now nonce = .error response) : response.isPublic = true := by
  rw [submitted] at h
  split at h
  · obtain rfl := Except.error.inj h
    rfl
  · split at h
    · obtain rfl := Except.error.inj h
      rfl
    · split at h
      · obtain rfl := Except.error.inj h
        rfl
      · simp at h

/-- What is recorded as a login has been verified. -/
theorem Console.login_verified {step : Nat} {nonce : Except String Bytes} {l : Login}
    (hpost : request.method = "POST" ∧ request.path = ascii "/login")
    (h : l ∈ login guard step request now nonce) : l.step = step ∧ l.Verified guard := by
  cases hsubmitted : guard.submitted request now nonce with
  | error response => simp [login, hsubmitted] at h
  | ok token =>
    cases nonce with
    | error e => simp [login, hsubmitted] at h
    | ok nonce =>
      obtain rfl : l = ⟨request, now, nonce, step⟩ := by simpa [login, hsubmitted] using h
      refine ⟨rfl, hpost.1, hpost.2, ?_⟩
      rw [Guard.submitted] at hsubmitted
      split at hsubmitted
      · simp at hsubmitted
      · rename_i form hform
        split at hsubmitted
        · simp at hsubmitted
        · rename_i haccepts
          exact ⟨form, hform, by simpa using haccepts⟩

end

/-! ## Runs -/

/-- What holds of a request that has come in. -/
def Exchange.Sound (guard : Guard) (logins : List Login) (steps : Nat) : Exchange → Prop
  | allowed request => protectMux.findHandler request = .handler .login
  | accepted request _ => protectMux.findHandler request = .handler .login
  | answered request time step response => step < steps ∧
    (response.isPublic = true ∨ guard.HasSession logins request time step)

/-- Later logins and steps do not matter to what has been answered. -/
theorem Exchange.Sound.later {guard : Guard} {exchange : Exchange} {logins new : List Login}
    {steps steps' : Nat} (h : exchange.Sound guard logins steps) (hle : steps ≤ steps') :
    exchange.Sound guard (logins ++ new) steps' := by
  cases exchange with
  | allowed request => exact h
  | accepted request token => exact h
  | answered request time step response =>
    obtain ⟨hlt, hresponse⟩ := h
    refine ⟨by omega, hresponse.imp_right ?_⟩
    rintro ⟨login, hlogin, hrest⟩
    exact ⟨login, List.mem_append_left _ hlogin, hrest⟩

namespace Console

/-- The invariant: logins have been verified, and what is private has been given to sessions. -/
structure Guarded (guard : Guard) (s : Console) : Prop where
  logins : ∀ login ∈ s.logins, login.step < s.steps ∧ login.Verified guard
  exchanges : ∀ exchange ∈ s.exchanges, exchange.Sound guard s.logins s.steps

variable {guard : Guard} {s : Console}

theorem guarded_start : start.Guarded guard := ⟨by simp [start], by simp [start]⟩

/-- A step that adds logins and changes or adds one request. -/
theorem Guarded.of_step {limiter : LoginLimiter} {guesses : List Guess} {new : List Login}
    {exchanges : List Exchange} (h : s.Guarded guard)
    (hnew : ∀ login ∈ new, login.step = s.steps ∧ login.Verified guard)
    (hexchanges : ∀ exchange ∈ exchanges, exchange ∈ s.exchanges ∨
      exchange.Sound guard (s.logins ++ new) (s.steps + 1)) :
    (⟨limiter, exchanges, s.logins ++ new, guesses, s.steps + 1⟩ : Console).Guarded guard := by
  refine ⟨fun login hlogin => ?_, fun exchange hexchange => ?_⟩
  · rcases List.mem_append.1 hlogin with hold | hadded
    · exact ⟨Nat.lt_succ_of_lt (h.logins login hold).1, (h.logins login hold).2⟩
    · obtain ⟨hstep, hverified⟩ := hnew login hadded
      exact ⟨Nat.lt_succ_of_le hstep.le, hverified⟩
  · rcases hexchanges exchange hexchange with hold | hsound
    · exact (h.exchanges exchange hold).later (Nat.le_succ _)
    · exact hsound

/-- A step without a login. -/
theorem Guarded.of_exchanges {limiter : LoginLimiter} {guesses : List Guess}
    {exchanges : List Exchange} (h : s.Guarded guard)
    (hexchanges : ∀ exchange ∈ exchanges, exchange ∈ s.exchanges ∨
      exchange.Sound guard s.logins (s.steps + 1)) :
    (⟨limiter, exchanges, s.logins, guesses, s.steps + 1⟩ : Console).Guarded guard := by
  have hstep : (⟨limiter, exchanges, s.logins ++ [], guesses, s.steps + 1⟩ : Console).Guarded
      guard := h.of_step (by simp) (by simpa using hexchanges)
  simpa using hstep

theorem Guarded.request (h : s.Guarded guard) {request : Request} {now : Int}
    (hforgery : guard.NoForgery s (.request request now)) :
    (s.step guard (.request request now)).Guarded guard := by
  simp only [step, act]
  split
  · rename_i response hanswer
    refine h.of_exchanges fun exchange hexchange => ?_
    rcases List.mem_append.1 hexchange with hold | hadded
    · exact .inl hold
    · obtain rfl := List.mem_singleton.1 hadded
      refine .inr ⟨Nat.lt_succ_self _, ?_⟩
      rcases Guard.answer_isPublic hanswer with hpublic | hsubject
      · exact .inl hpublic
      · obtain ⟨login, hlogin, htoken, hlive⟩ := Guard.login_of_subject hsubject hforgery
        obtain ⟨hstep, hverified⟩ := h.logins login hlogin
        exact .inr ⟨login, hlogin, hstep, hverified, htoken, hlive⟩
  · rename_i hanswer
    refine h.of_exchanges fun exchange hexchange => ?_
    rcases List.mem_append.1 hexchange with hold | hadded
    · exact .inl hold
    · obtain rfl := List.mem_singleton.1 hadded
      refine .inr ?_
      split
      · exact Guard.findHandler_of_answer hanswer
      · exact ⟨Nat.lt_succ_self _, .inl rfl⟩

theorem Guarded.submit (h : s.Guarded guard) (i : Nat) (now : Int) (nonce : Except String Bytes) :
    (s.step guard (.submit i now nonce)).Guarded guard := by
  simp only [step, act]
  split
  · rename_i request hi
    have hlogin : protectMux.findHandler request = .handler .login :=
      h.exchanges _ (List.mem_of_getElem? hi)
    refine h.of_step (fun l hl => login_verified (login_of_findHandler hlogin) hl)
      fun exchange hexchange => (List.mem_or_eq_of_mem_set hexchange).imp_right ?_
    rintro rfl
    rw [outcome]
    split
    · exact hlogin
    · rename_i response hresponse
      exact ⟨Nat.lt_succ_self _, .inl (Guard.submitted_error hresponse)⟩
  · exact h.of_exchanges fun exchange hexchange => .inl hexchange

theorem Guarded.finish (h : s.Guarded guard) (i : Nat) (now : Int) :
    (s.step guard (.finish i now)).Guarded guard := by
  simp only [step, act]
  split
  · refine h.of_exchanges fun exchange hexchange =>
      (List.mem_or_eq_of_mem_set hexchange).imp_right ?_
    rintro rfl
    exact ⟨Nat.lt_succ_self _, .inl rfl⟩
  · exact h.of_exchanges fun exchange hexchange => .inl hexchange

/-- **Every step keeps the invariant**, if no token is forged. -/
theorem Guarded.step (h : s.Guarded guard) {event : ConsoleEvent}
    (hforgery : guard.NoForgery s event) : (s.step guard event).Guarded guard := by
  cases event with
  | request request now => exact h.request hforgery
  | submit i now nonce => exact h.submit i now nonce
  | finish i now => exact h.finish i now

end Console

/-- **No access without a login.**  In every run in which no token is forged, a request that was
answered with something private had a session; and without a session it was answered by the login
or logout handler or a probe, or was refused. -/
theorem access_requires_login (guard : Guard) (events : List ConsoleEvent)
    (hforgery : Throughout (Console.step guard) guard.NoForgery .start events) :
    ∀ request time step response,
      Exchange.answered request time step response ∈ (Console.run guard events).exchanges →
      (response.isPrivate = true →
        guard.HasSession (Console.run guard events).logins request time step) ∧
      (¬guard.HasSession (Console.run guard events).logins request time step →
        response.isPublic = true) := by
  intro request time step response hanswered
  have hguarded : (Console.run guard events).Guarded guard :=
    Throughout.keeps (fun s event h hforgery => h.step hforgery) Console.guarded_start hforgery
  obtain ⟨-, hresponse⟩ := hguarded.exchanges _ hanswered
  refine ⟨fun hprivate => ?_, fun hnone => hresponse.resolve_right hnone⟩
  refine hresponse.resolve_left fun hpublic => ?_
  rw [Response.not_isPrivate_of_isPublic hpublic] at hprivate
  simp at hprivate

/-! ### An operator logs in -/

def operatorPassword : Bytes := ascii "correct horse battery staple"

/-- What `pbkdf2.Key` makes of the operator's password and of a wrong one. -/
def operatorDerive : KeyDerivation := fun password _ _ _ =>
  if password = operatorPassword then
    some [239, 23, 113, 68, 238, 201, 66, 12, 188, 16, 147, 210, 168, 179, 68, 169, 43, 197, 6, 208,
      212, 236, 156, 2, 141, 209, 159, 131, 36, 216, 193, 230]
  else
    some [41, 204, 12, 71, 228, 141, 141, 241, 194, 77, 56, 233, 25, 94, 60, 29, 157, 119, 86, 104,
      3, 95, 10, 249, 85, 171, 94, 215, 51, 151, 126, 220]

/-- The code of the token that the operator is given. -/
def operatorMac : Mac := fun _ _ =>
  [25, 158, 197, 75, 181, 153, 24, 205, 234, 156, 3, 71, 199, 192, 237, 13, 72, 195, 86, 103, 93,
    255, 110, 53, 239, 194, 93, 4, 106, 118, 32, 142]

theorem hour_pos : (0 : Int) < 3600 * 10 ^ 9 := by decide

theorem length_operatorKey : 32 ≤ ((List.range 32).map UInt8.ofNat).length := by decide

def operatorGuard : Guard where
  credential := ⟨ascii "operator", 600000, (List.range 16).map UInt8.ofNat,
    (operatorDerive operatorPassword [] 0 0).getD []⟩
  signer := ⟨(List.range 32).map UInt8.ofNat, 3600 * 10 ^ 9, hour_pos, length_operatorKey⟩
  secureCookie := true
  derive := operatorDerive
  mac := operatorMac

/-- A login from an address, with a password. -/
def loginRequest (remoteAddr : String) (password : Bytes) : Request where
  method := "POST"
  requestURI := "/login"
  escapedPath := ascii "/login"
  path := ascii "/login"
  path_eq := by decide
  accept := "text/html"
  cookies := []
  postForm := some [("username", ascii "operator"), ("password", password)]
  remoteAddr := remoteAddr

/-- A request for the topology, with the token of the login; its path is escaped. -/
def topologyRequest : Request where
  method := "GET"
  requestURI := "/v1/%74opology"
  escapedPath := ascii "/v1/%74opology"
  path := ascii "/v1/topology"
  path_eq := by decide
  accept := ""
  cookies := [(sessionCookie, ascii ("YjNCbGNtRjBiM0l8MTc4NTAwMzYwMHxFQkVTRXhRVkZoY1lHUm9iSEIwZUh3" ++
    ".GZ7FS7WZGM3qnANHx8DtDUjDVmdd_24178JdBGp2II4"))]
  postForm := none
  remoteAddr := "203.0.113.7:50002"

def operatorNonce : Bytes := (List.range 16).map fun n => UInt8.ofNat (16 + n)

def operatorRun : List ConsoleEvent :=
  [.request (loginRequest "203.0.113.7:50001" operatorPassword) 1785000000000000000,
    .submit 0 1785000000000000000 (.ok operatorNonce), .finish 0 1785000000100000000,
    .request topologyRequest 1785000000200000000]

/-- The login of `operatorRun`. -/
def operatorLogin : Login :=
  ⟨loginRequest "203.0.113.7:50001" operatorPassword, 1785000000000000000, operatorNonce, 1⟩

theorem access_requires_login_operator :
    Exchange.answered topologyRequest 1785000000200000000 3 (.served .currentTopology) ∈
        (Console.run operatorGuard operatorRun).exchanges ∧
      operatorGuard.HasSession (Console.run operatorGuard operatorRun).logins topologyRequest
        1785000000200000000 3 := by
  have hanswered : Exchange.answered topologyRequest 1785000000200000000 3
      (.served .currentTopology) ∈ (Console.run operatorGuard operatorRun).exchanges := by
    decide +kernel
  refine ⟨hanswered, (access_requires_login operatorGuard operatorRun ?_ _ _ _ _ hanswered).1 rfl⟩
  refine ⟨fun token htoken => ?_, trivial, trivial, fun token htoken encoded hcut => ?_, trivial⟩
  · simp [sessionToken, loginRequest] at htoken
  · refine ⟨operatorLogin, by decide +kernel, ?_⟩
    have hown : cut dot (operatorGuard.token operatorLogin) =
        some (operatorGuard.encoded operatorLogin,
          operatorGuard.signer.sign operatorGuard.mac (operatorGuard.encoded operatorLogin)) := by
      decide +kernel
    have htoken' : sessionToken topologyRequest = some (operatorGuard.token operatorLogin) := by
      decide +kernel
    obtain rfl := Option.some.inj (htoken'.symm.trans htoken)
    rw [hown] at hcut
    exact (Prod.mk.inj (Option.some.inj hcut)).1.symm

end NexusTier
