import NexusTier.Encoding.Duration
import NexusTier.Relational.Loop

/-!
# The configuration of the controller

`config.Load` reads the environment, where an empty variable counts as one that is not set, and
refuses what it cannot use.  `Net` is what it asks of the packages `net` and `net/url`.

`load_checked` is what every configuration satisfies that is not refused.

## What is here

* `load`: the variables in the order in which they are looked at, each with its default and its
  check.  The error is the text of the first that is refused.
* `Config.Checked`: what the checks come to, as a structure that later results take their facts
  from.
* `load_checked`: what is loaded has been checked.

## What is left out

The cause that follows the name of a variable in an error, and the parsed URLs: of a URL only
whether it is accepted matters here.
-/

set_option autoImplicit false

open Encoding

namespace NexusTier

open Relational

/-- `os.Getenv`. -/
abbrev Environment := String → Bytes

/-- How addresses are read. -/
structure Net where
  /-- `url.Parse`: the scheme and the host. -/
  parseURL : Bytes → Option (Bytes × Bytes)
  /-- `net.SplitHostPort`: the host. -/
  splitHostPort : Bytes → Option Bytes
  /-- `net.ParseIP`, and whether the address is a loopback address. -/
  parseIP : Bytes → Option Bool

structure Config where
  gatewayURL : Bytes
  databaseURL : Bytes
  listenAddress : Bytes
  pollInterval : Int64
  pollJitter : Int64
  requestTimeout : Int64
  shutdownTimeout : Int64
  metricRetention : Int64
  cleanupInterval : Int64
  cleanupBatchSize : Int64
  authMode : Bytes
  authUsername : Bytes
  authPasswordHash : Bytes
  sessionKey : Bytes
  sessionTTL : Int64
  secureCookie : Bool
deriving DecidableEq

inductive LoadError where
  /-- "NEXUSTIER_CONTROLLER_DATABASE_URL is required". -/
  | databaseURL
  /-- "parse " and the name of the variable. -/
  | parse (name : String)
  /-- "poll interval, request timeout, …, and cleanup interval must be positive". -/
  | notPositive
  /-- "poll jitter must be non-negative and less than poll interval". -/
  | pollJitter
  /-- "parse gateway URL: …", or the other kind. -/
  | parseURL (kind : String)
  /-- "gateway URL must be absolute", or the other kind. -/
  | urlNotAbsolute (kind : String)
  /-- "NEXUSTIER_CONTROLLER_AUTH_MODE must be auto, required, or disabled". -/
  | authMode
  /-- "NEXUSTIER_CONTROLLER_SESSION_TTL must be positive". -/
  | sessionTTL
  /-- "NEXUSTIER_CONTROLLER_AUTH_PASSWORD_HASH is required when listening on …". -/
  | passwordHash (listenAddress : Bytes)
  /-- "NEXUSTIER_CONTROLLER_AUTH_USERNAME must not be empty". -/
  | username
deriving DecidableEq

/-! ## Variables -/

def env (getenv : Environment) (name : String) (fallback : Bytes) : Bytes :=
  if getenv name ≠ [] then getenv name else fallback

def durationEnv (getenv : Environment) (name : String) (fallback : Int64) :
    Except LoadError Int64 :=
  if getenv name = [] then .ok fallback
  else
    match parseDuration (getenv name) with
    | .error _ => .error (.parse name)
    | .ok duration => .ok duration

def positiveIntEnv (getenv : Environment) (name : String) (fallback : Int64) :
    Except LoadError Int64 :=
  if getenv name = [] then .ok fallback
  else
    match parseInt (getenv name) with
    | none => .error (.parse name)
    | some parsed => if parsed ≤ 0 then .error (.parse name) else .ok (Int64.ofInt parsed)

/-- `strconv.ParseBool`. -/
def parseBool (text : Bytes) : Option Bool :=
  if ["1", "t", "T", "TRUE", "true", "True"].any fun word => ascii word = text then some true
  else if ["0", "f", "F", "FALSE", "false", "False"].any fun word => ascii word = text then
    some false
  else none

def boolEnv (getenv : Environment) (name : String) (fallback : Bool) : Except LoadError Bool :=
  if getenv name = [] then .ok fallback
  else
    match parseBool (getenv name) with
    | none => .error (.parse name)
    | some parsed => .ok parsed

/-! ## Checks -/

/-- `parseURL`. -/
def checkURL (net : Net) (value : Bytes) (kind : String) : Except LoadError Unit :=
  match net.parseURL value with
  | none => .error (.parseURL kind)
  | some (scheme, host) => if scheme = [] ∨ host = [] then .error (.urlNotAbsolute kind) else .ok ()

def isLoopbackAddress (net : Net) (address : Bytes) : Bool :=
  let host := (net.splitHostPort address).getD address
  if host = [] then false
  else if host = ascii "localhost" then true
  else net.parseIP host = some true

def authModeAuto : Bytes := ascii "auto"

def authModeRequired : Bytes := ascii "required"

def authModeDisabled : Bytes := ascii "disabled"

def Config.authRequired (net : Net) (config : Config) : Bool :=
  if config.authMode = authModeDisabled then false
  else if config.authMode = authModeRequired then true
  else !isLoopbackAddress net config.listenAddress

/-- The error, if there is reason for it. -/
def refuse (reason : Bool) (error : LoadError) : Except LoadError Unit :=
  if reason then .error error else .ok ()

def validateAuth (net : Net) (config : Config) : Except LoadError Unit := do
  refuse (config.authMode ≠ authModeAuto ∧ config.authMode ≠ authModeRequired ∧
    config.authMode ≠ authModeDisabled) .authMode
  refuse (config.sessionTTL ≤ 0) .sessionTTL
  if config.authRequired net then
    refuse (config.authPasswordHash = []) (.passwordHash config.listenAddress)
    refuse (isBlank config.authUsername) .username

def second : Int64 := 1000000000

def hour : Int64 := 3600000000000

/-- `Load`. -/
def load (net : Net) (getenv : Environment) : Except LoadError Config := do
  let gatewayURL := env getenv "NEXUSTIER_CONTROLLER_GATEWAY_URL" (ascii "http://127.0.0.1:11211")
  let databaseURL := getenv "NEXUSTIER_CONTROLLER_DATABASE_URL"
  refuse (databaseURL = []) .databaseURL
  let pollInterval ← durationEnv getenv "NEXUSTIER_CONTROLLER_POLL_INTERVAL" (15 * second)
  let pollJitter ← durationEnv getenv "NEXUSTIER_CONTROLLER_POLL_JITTER" (3 * second)
  let requestTimeout ← durationEnv getenv "NEXUSTIER_CONTROLLER_REQUEST_TIMEOUT" (20 * second)
  let shutdownTimeout ← durationEnv getenv "NEXUSTIER_CONTROLLER_SHUTDOWN_TIMEOUT" (10 * second)
  let metricRetention ← durationEnv getenv "NEXUSTIER_CONTROLLER_METRIC_RETENTION" (720 * hour)
  let cleanupInterval ← durationEnv getenv "NEXUSTIER_CONTROLLER_CLEANUP_INTERVAL" (6 * hour)
  let cleanupBatchSize ← positiveIntEnv getenv "NEXUSTIER_CONTROLLER_CLEANUP_BATCH_SIZE" 10000
  refuse (pollInterval ≤ 0 || requestTimeout ≤ 0 || shutdownTimeout ≤ 0 || metricRetention ≤ 0 ||
    cleanupInterval ≤ 0) .notPositive
  refuse (pollJitter < 0 || pollInterval ≤ pollJitter) .pollJitter
  checkURL net gatewayURL "gateway"
  checkURL net databaseURL "database"
  let sessionTTL ← durationEnv getenv "NEXUSTIER_CONTROLLER_SESSION_TTL" (12 * hour)
  let secureCookie ← boolEnv getenv "NEXUSTIER_CONTROLLER_SECURE_COOKIE" true
  let config : Config :=
    { gatewayURL, databaseURL, pollInterval, pollJitter, requestTimeout, shutdownTimeout,
      metricRetention, cleanupInterval, cleanupBatchSize, sessionTTL, secureCookie,
      listenAddress := env getenv "NEXUSTIER_CONTROLLER_LISTEN_ADDR" (ascii "127.0.0.1:8080")
      authMode := env getenv "NEXUSTIER_CONTROLLER_AUTH_MODE" authModeAuto
      authUsername := env getenv "NEXUSTIER_CONTROLLER_AUTH_USERNAME" (ascii "admin")
      authPasswordHash := getenv "NEXUSTIER_CONTROLLER_AUTH_PASSWORD_HASH"
      sessionKey := getenv "NEXUSTIER_CONTROLLER_SESSION_KEY" }
  validateAuth net config
  pure config

/-! ## What is checked -/

theorem refuse_eq_ok {reason : Bool} {error : LoadError} {u : Unit} :
    refuse reason error = .ok u ↔ reason = false := by
  cases reason <;> simp [refuse]

theorem parseInt_bounds {text : Bytes} {n : Int} (h : parseInt text = some n) :
    -2 ^ 63 ≤ n ∧ n < 2 ^ 63 := by
  have hbounds := (Option.filter_eq_some_iff.1 h).2
  simpa using hbounds

/-- A number that is accepted is positive. -/
theorem positiveIntEnv_pos {getenv : Environment} {name : String} {fallback n : Int64}
    (hfallback : 0 < fallback) (h : positiveIntEnv getenv name fallback = .ok n) : 0 < n := by
  rw [positiveIntEnv] at h
  split at h
  · exact Except.ok.inj h ▸ hfallback
  · split at h
    · cases h
    · next parsed hparsed =>
      split at h
      · cases h
      · next hpos =>
        obtain rfl := Except.ok.inj h
        obtain ⟨hlo, hhi⟩ := parseInt_bounds hparsed
        rw [Int64.lt_iff_toInt_lt, Int64.toInt_ofInt_of_le hlo hhi]
        exact Int.not_le.1 hpos

/-- What every configuration satisfies. -/
structure Config.Checked (config : Config) : Prop where
  pollInterval : 0 < config.pollInterval
  pollJitter : 0 ≤ config.pollJitter
  pollJitter_lt : config.pollJitter < config.pollInterval
  requestTimeout : 0 < config.requestTimeout
  shutdownTimeout : 0 < config.shutdownTimeout
  metricRetention : 0 < config.metricRetention
  cleanupInterval : 0 < config.cleanupInterval
  cleanupBatchSize : 0 < config.cleanupBatchSize
  sessionTTL : 0 < config.sessionTTL

theorem validateAuth_ok {net : Net} {config : Config} (h : validateAuth net config = .ok ()) :
    0 < config.sessionTTL := by
  simp only [validateAuth, bind_eq_ok, refuse_eq_ok] at h
  obtain ⟨-, -, -, hpos, -⟩ := h
  simpa using hpos

/-- **What `Load` accepts has been checked.** -/
theorem load_checked {net : Net} {getenv : Environment} {config : Config}
    (h : load net getenv = .ok config) : config.Checked := by
  simp only [load, bind_eq_ok, pure_eq_ok, refuse_eq_ok, Bool.or_eq_false_iff] at h
  obtain ⟨-, -, pollInterval, -, pollJitter, -, requestTimeout, -, shutdownTimeout, -,
    metricRetention, -, cleanupInterval, -, cleanupBatchSize, hbatch, -, hpositive, -, hjitter, -, -,
    -, -, sessionTTL, -, secureCookie, -, ⟨⟩, hauth, rfl⟩ := h
  simp only [decide_eq_false_iff_not, Int64.not_le, Int64.not_lt] at hpositive hjitter
  obtain ⟨⟨⟨⟨hinterval, hrequest⟩, hshutdown⟩, hretention⟩, hcleanup⟩ := hpositive
  exact ⟨hinterval, hjitter.1, hjitter.2, hrequest, hshutdown, hretention, hcleanup,
    positiveIntEnv_pos (by decide) hbatch, validateAuth_ok hauth⟩

end NexusTier
