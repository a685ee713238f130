import NexusTier.Http.ServeMux
import NexusTier.Auth.Limiter

/-!
# The guard of the console

`auth.go`, the routes of `api.go` and the handler of `webui`: what an HTTP request to the controller
is answered with.  `Guard.Protect` is a router of its own in front of the router of `api.New`.

Requests are served at the same time.  All but a login touch nothing they share, so they are
answered in one step; a login takes a token from the limiter, then looks at the form and issues a
session, and then gives the token back, and between these other requests go on.  `Console` is what
the requests share, with the requests that have come in so far, and a run is a list of steps in any
order.

Two lists in it are kept only to be spoken about: the logins that have succeeded and the guesses
that have failed.

## What is here

* `protectMux` and `apiMux`: the two routers, as tables of patterns.
* `Guard.answer`: what a request is answered with at once; it is none for a login only.
* `Guard.submitted` and `Guard.loggedIn`: the two later parts of a login.
* `Console.act`, `Console.step` and `Console.run`: what the requests share, step by step.

## What is left out

* The HTML of the login page, the JSON of the API and the headers that are constant.  A response is
  which handler gives it, with its status, its redirect and its cookie.
* `http.Request.ParseForm`: a request comes with the form it makes, or with none.
* Panics of handlers, and connections that break before they are answered.
-/

set_option autoImplicit false

namespace NexusTier

open Encoding Http

/-! ## Routes -/

/-- The handlers of `Guard.Protect`. -/
inductive GuardHandler where
  | loginForm
  | login
  | logout
  | guarded
deriving DecidableEq

def protectMux : ServeMux GuardHandler :=
  [(⟨some "GET", [ascii "login"], false⟩, .loginForm),
    (⟨some "POST", [ascii "login"], false⟩, .login),
    (⟨some "POST", [ascii "logout"], false⟩, .logout),
    (⟨none, [], true⟩, .guarded)]

/-- The handlers of `api.New`. -/
inductive Endpoint where
  | health
  | ready
  | buildIdentity
  | telemetryStatus
  | currentTopology
  | retentionStatus
  | webui
deriving DecidableEq

def apiMux : ServeMux Endpoint :=
  [(⟨some "GET", [ascii "healthz"], false⟩, .health),
    (⟨some "GET", [ascii "readyz"], false⟩, .ready),
    (⟨some "GET", [ascii "v1", ascii "build"], false⟩, .buildIdentity),
    (⟨some "GET", [ascii "v1", ascii "telemetry", ascii "status"], false⟩, .telemetryStatus),
    (⟨some "GET", [ascii "v1", ascii "topology"], false⟩, .currentTopology),
    (⟨some "GET", [ascii "v1", ascii "retention", ascii "status"], false⟩, .retentionStatus),
    (⟨some "GET", [], true⟩, .webui)]

def publicPaths : List Bytes :=
  [ascii "/healthz", ascii "/readyz", ascii "/login", ascii "/logout"]

/-! ## Responses -/

/-- The session cookie, as it is set; it is for the whole site, hidden from scripts and never sent
along from another site. -/
structure SetCookie where
  value : Bytes
  secure : Bool
  maxAge : Int
deriving DecidableEq

/-- What the console is made of. -/
inductive Asset where
  | index
  | css
  | script
deriving DecidableEq

inductive Response where
  /-- The login form, with a message. -/
  | loginPage (status : Nat) (message : String) (retryAfter : Option String)
  /-- To the console, with the cookie of a new session. -/
  | toConsole (cookie : Option SetCookie)
  /-- To the login form, without a session. -/
  | toLogin (cookie : SetCookie)
  /-- A request that is refused: to the login form, or with the code and message of an error. -/
  | rejected (status : Nat) (error : Option (String × String))
  /-- A handler of the API answers. -/
  | served (endpoint : Endpoint)
  | asset (asset : Asset)
  /-- A router or handler answers by itself. -/
  | redirect (status : Nat) (target : Bytes)
  | error (status : Nat)
deriving DecidableEq

/-! ## Handlers -/

/-- `webui.Handler`. -/
def webui (request : Request) : Response :=
  if request.path = ascii "/" then .asset .index
  else if request.path = ascii "/app.css" then .asset .css
  else if request.path = ascii "/app.js" then .asset .script
  else .error 404

/-- The handler that `api.New` returns. -/
def serveApi (request : Request) : Response :=
  match apiMux.findHandler request with
  | .handler .webui => webui request
  | .handler endpoint => .served endpoint
  | .redirect status target => .redirect status target
  | .error status => .error status

/-- The operator's guard, with the functions of the standard library it uses. -/
structure Guard where
  credential : Credential
  signer : SessionSigner
  secureCookie : Bool
  derive : KeyDerivation
  mac : Mac

def sessionCookie : String := "nexustier_session"

/-- `request.Cookie(SessionCookie)`. -/
def sessionToken (request : Request) : Option Bytes := request.cookies.lookup sessionCookie

/-- `PostFormValue`. -/
def formValue (form : List (String × Bytes)) (name : String) : Bytes := (form.lookup name).getD []

/-- `net.SplitHostPort`, the host: none if the address has no such form. -/
def splitHost (address : List Char) : Option (List Char) :=
  let port := address.reverse.takeWhile (· ≠ ':')
  if port.length = address.length then none
  else
    -- what stands before the last colon
    let host := address.take (address.length - port.length - 1)
    match host with
    | '[' :: inner =>
      if inner.getLast? = some ']' ∧ ¬ inner.dropLast.contains ']' ∧ ¬ inner.contains '[' ∧
          ¬ port.contains '[' ∧ ¬ port.contains ']' then
        some inner.dropLast
      else none
    | _ =>
      if host.contains ':' ∨ address.contains '[' ∨ address.contains ']' then none else some host

/-- `clientAddress`. -/
def clientAddress (request : Request) : String :=
  ((splitHost request.remoteAddr.toList).map String.ofList).getD request.remoteAddr

def wantsHTML (request : Request) : Bool := "text/html".toList <:+: request.accept.toList

def retryAfterSeconds (duration : Int) : String :=
  let seconds := duration / 10 ^ 9
  toString (if seconds < 1 then 1 else seconds)

namespace Guard

variable (guard : Guard)

/-- `subject`: the user who is logged in, or nothing. -/
def subject (request : Request) (now : Int) : Bytes :=
  match sessionToken request with
  | none => []
  | some token => if token = [] then [] else (guard.signer.verify guard.mac token now).getD []

def reject (request : Request) : Response :=
  if wantsHTML request then .rejected 303 none
  else .rejected 401 (some ("unauthenticated", "a valid session is required"))

def loginForm (request : Request) (now : Int) : Response :=
  if guard.subject request now ≠ [] then .toConsole none else .loginPage 200 "" none

def logout : Response := .toLogin ⟨[], guard.secureCookie, -1⟩

/-- The handler of `Protect` for all paths. -/
def guarded (request : Request) (now : Int) : Response :=
  if request.path ∈ publicPaths then serveApi request
  else if guard.subject request now = [] then reject request
  else serveApi request

/-- What a request is answered with at once: anything but a login. -/
def answer (request : Request) (now : Int) : Option Response :=
  match protectMux.findHandler request with
  | .handler .loginForm => some (guard.loginForm request now)
  | .handler .login => none
  | .handler .logout => some guard.logout
  | .handler .guarded => some (guard.guarded request now)
  | .redirect status target => some (.redirect status target)
  | .error status => some (.error status)

/-- `login`, when the limiter does not allow it. -/
def throttled : Response :=
  .loginPage 429 "尝试过于频繁，请稍后再试。" (some (retryAfterSeconds LoginLimiter.retryAfter))

/-- The user name and password of a form, verified. -/
def accepts (form : List (String × Bytes)) : Bool :=
  guard.credential.verify guard.derive (formValue form "username") (formValue form "password")

/-- `login`, from `ParseForm` to `Issue`: the token, or the response. -/
def submitted (request : Request) (now : Int) (nonce : Except String Bytes) :
    Except Response Bytes :=
  match request.postForm with
  | none => .error (.loginPage 400 "请求格式无效。" none)
  | some form =>
    if guard.accepts form = false then .error (.loginPage 401 "用户名或密码错误。" none)
    else
      match guard.signer.issue guard.mac guard.credential.username now nonce with
      | .error _ => .error (.loginPage 500 "无法建立会话，请重试。" none)
      | .ok token => .ok token

/-- `login`, after `Refund`. -/
def loggedIn (token : Bytes) : Response :=
  .toConsole (some ⟨token, guard.secureCookie, guard.signer.ttl / 10 ^ 9⟩)

end Guard

/-! ## Runs -/

/-- A request that has come in. -/
inductive Exchange where
  /-- A login that the limiter has allowed, and whose form has not been looked at. -/
  | allowed (request : Request)
  /-- A login for which a token has been issued. -/
  | accepted (request : Request) (token : Bytes)
  | answered (request : Request) (time : Int) (step : Nat) (response : Response)
deriving DecidableEq

/-- A login that has succeeded: the request, and when and with which nonce its token was issued. -/
structure Login where
  request : Request
  time : Int
  nonce : Bytes
  step : Nat
deriving DecidableEq

/-- A login whose credentials have been found wrong. -/
structure Guess where
  client : String
  time : Int
deriving DecidableEq

/-- What the requests share, the requests in the order they have come in, and what has become of
logins; `steps` counts the steps. -/
structure Console where
  limiter : LoginLimiter
  exchanges : List Exchange
  logins : List Login
  guesses : List Guess
  steps : Nat

inductive ConsoleEvent where
  /-- A request comes in. -/
  | request (request : Request) (now : Int)
  /-- The login that came in as the `i`-th request goes on to its form. -/
  | submit (i : Nat) (now : Int) (nonce : Except String Bytes)
  /-- It is answered. -/
  | finish (i : Nat) (now : Int)

def ConsoleEvent.now : ConsoleEvent → Int
  | request _ now => now
  | submit _ now _ => now
  | finish _ now => now

namespace Console

def start : Console := ⟨.new, [], [], [], 0⟩

/-- Wrong credentials have reached `Credential.Verify`. -/
def guess (guard : Guard) (request : Request) (now : Int) : List Guess :=
  match request.postForm with
  | none => []
  | some form => if guard.accepts form then [] else [⟨clientAddress request, now⟩]

/-- A token has been issued. -/
def login (guard : Guard) (step : Nat) (request : Request) (now : Int)
    (nonce : Except String Bytes) : List Login :=
  match guard.submitted request now nonce, nonce with
  | .ok _, .ok nonce => [⟨request, now, nonce, step⟩]
  | _, _ => []

/-- What a login becomes when its form has been looked at. -/
def outcome (guard : Guard) (step : Nat) (request : Request) (now : Int)
    (nonce : Except String Bytes) : Exchange :=
  match guard.submitted request now nonce with
  | .ok token => .accepted request token
  | .error response => .answered request now step response

/-- One step. -/
def act (guard : Guard) (s : Console) : ConsoleEvent → Console
  | .request request now =>
    match guard.answer request now with
    | some response =>
      { s with exchanges := s.exchanges ++ [.answered request now s.steps response] }
    | none =>
      let (allowed, limiter) := s.limiter.allow now (clientAddress request)
      { s with
        limiter
        exchanges := s.exchanges ++ [if allowed then .allowed request
          else .answered request now s.steps Guard.throttled] }
  | .submit i now nonce =>
    match s.exchanges[i]? with
    | some (.allowed request) =>
      { s with
        exchanges := s.exchanges.set i (outcome guard s.steps request now nonce)
        guesses := s.guesses ++ guess guard request now
        logins := s.logins ++ login guard s.steps request now nonce }
    | _ => s
  | .finish i now =>
    match s.exchanges[i]? with
    | some (.accepted request token) =>
      { s with
        limiter := s.limiter.refund (clientAddress request)
        exchanges := s.exchanges.set i (.answered request now s.steps (guard.loggedIn token)) }
    | _ => s

def step (guard : Guard) (s : Console) (event : ConsoleEvent) : Console :=
  { s.act guard event with steps := s.steps + 1 }

def run (guard : Guard) (events : List ConsoleEvent) : Console :=
  events.foldl (step guard) start

end Console

end NexusTier
