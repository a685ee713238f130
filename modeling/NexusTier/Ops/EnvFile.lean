import NexusTier.Config.Load
import NexusTier.Ops.Preflight

/-!
# The environment file

The commands of `nexustier-ops.sh` that read and rewrite the environment file.  The file is a text
of lines, and a variable is the last line with its name in front.

## What is here

* `readEnvValue` — `read_env_value`; `replaceEnvValue` — the file that `replace_env_value` is out
  for.  They are laws of a store: what is written is read, up to quotes, and all other variables
  stay (`values_replaceEnvValue`, `values_replaceEnvValue_of_ne`).
* `replace` — `replace_env_value` as it runs.  Each of its programs may fail, and two of the
  failures do harm: what `grep` does not write is gone, since its status is not looked at, and a
  `cat` that does not get to its end leaves the file cut off (`Outside.rewritten`).
* `Script` — what a command is: it may stop anywhere, and leaves the file as it is by then.  What
  happens outside of it is `Outside`.
* `Command`, `history` — the commands, and a history of them.

`Ops/History.lean` is about what such a history keeps, `Ops/Rollback.lean` about the way back from
an upgrade, `Ops/Rotation.lean` about a new password.

## What is left out

The file can be read, `stat` shows its mode, and nothing in it or on its way into it is NUL, which
the shell drops.  Two commands do not run at the same time.  Before version 3.5, `grep` puts a
message next to the lines that it writes if it leaves one out for its characters.
-/

set_option autoImplicit false

open Encoding

namespace NexusTier

namespace Ops

/-! ## Lines -/

section Lines

variable {line text : Bytes} {l : List Bytes}

/-- The lines of a text.  What is behind the last newline is one if it is not empty. -/
def lines (text : Bytes) : List Bytes :=
  let parts := text.splitOn newline
  if parts.getLast? = some [] then parts.dropLast else parts

def unlines (l : List Bytes) : Bytes := l.flatMap fun line => line ++ [newline]

theorem newline_not_mem_of_mem_lines (h : line ∈ lines text) : newline ∉ line := by
  have hpart : line ∈ text.splitOn newline := by
    rw [lines] at h
    split at h
    · exact List.dropLast_subset _ h
    · exact h
  exact not_mem_of_mem_splitOn hpart

theorem unlines_eq (l : List Bytes) : unlines l = [newline].intercalate (l ++ [[]]) := by
  induction l with
  | nil => rfl
  | cons line l ih =>
    have hne : l ++ [[]] ≠ [] := by simp
    obtain ⟨first, rest, hrest⟩ := List.exists_cons_of_ne_nil hne
    rw [unlines, List.flatMap_cons, ← unlines, ih, List.cons_append, hrest]
    simp [List.intercalate]

theorem lines_unlines (h : ∀ line ∈ l, newline ∉ line) : lines (unlines l) = l := by
  have hsplit : (unlines l).splitOn newline = l ++ [[]] := by
    rw [unlines_eq]
    refine List.splitOn_intercalate newline ?_ (by simp)
    rw [List.forall_mem_append]
    exact ⟨h, by simp⟩
  rw [lines, hsplit]
  simp

end Lines

/-! ## Variables -/

def equals : UInt8 := 61

/-- The line that starts with `KEY=`. -/
def assigns (key line : Bytes) : Bool := (key ++ [equals]).isPrefixOf line

/-- `sed -n "s/^KEY=//p"`. -/
def values (key file : Bytes) : List Bytes :=
  ((lines file).filter (assigns key)).map fun line => line.drop (key.length + 1)

/-- The quote `q` stands on both sides. -/
def isQuoted (q : UInt8) (value : Bytes) : Bool :=
  2 ≤ value.length ∧ value.head? = some q ∧ value.getLast? = some q

/-- The `case` of `read_env_value`. -/
def unquote (value : Bytes) : Bytes :=
  if isQuoted 39 value ∨ isQuoted 34 value then (value.drop 1).take (value.length - 2) else value

def readEnvValue (key file : Bytes) : Bytes := unquote ((values key file).getLast?.getD [])

/-- What `replace_env_value` is out for: the lines of `grep -v "^KEY="`, and then that of
`printf`. -/
def replaceEnvValue (key value file : Bytes) : Bytes :=
  unlines ((lines file).filter fun line => !assigns key line) ++ key ++ equals :: value ++ [newline]

/-- A name of a variable. -/
structure IsName (key : Bytes) : Prop where
  equals : equals ∉ key
  newline : newline ∉ key

section Variables

variable {key key' value line file : Bytes}

theorem assigns_iff : assigns key line = true ↔ ∃ rest, line = key ++ equals :: rest := by
  rw [assigns, List.isPrefixOf_iff_prefix]
  constructor
  · rintro ⟨rest, rfl⟩
    exact ⟨rest, by simp⟩
  · rintro ⟨rest, rfl⟩
    exact ⟨rest, by simp⟩

/-- A line assigns one variable at most. -/
theorem eq_of_assigns (hkey : IsName key) (hkey' : IsName key') (h : assigns key line = true)
    (h' : assigns key' line = true) : key = key' := by
  obtain ⟨rest, rfl⟩ := assigns_iff.1 h
  obtain ⟨rest', heq⟩ := assigns_iff.1 h'
  have htake : ∀ {k r : Bytes}, equals ∉ k → (k ++ equals :: r).takeWhile (· ≠ equals) = k := by
    intro k r hk
    rw [List.takeWhile_append_of_pos]
    · simp
    · exact fun c hc => decide_eq_true fun hceq => hk (hceq ▸ hc)
  rw [← htake hkey.equals (r := rest), heq, htake hkey'.equals]

theorem lines_replaceEnvValue (hkey : IsName key) (hvalue : newline ∉ value) :
    lines (replaceEnvValue key value file) =
      ((lines file).filter fun line => !assigns key line) ++ [key ++ equals :: value] := by
  have hfile : replaceEnvValue key value file =
      unlines (((lines file).filter fun line => !assigns key line) ++
        [key ++ equals :: value]) := by
    simp [replaceEnvValue, unlines]
  rw [hfile, lines_unlines]
  rw [List.forall_mem_append, List.forall_mem_singleton]
  refine ⟨fun line hline => newline_not_mem_of_mem_lines (List.mem_of_mem_filter hline), ?_⟩
  have hne : newline ≠ equals := by decide
  simp [hkey.newline, hvalue, hne]

/-- **What is written is there, once.** -/
theorem values_replaceEnvValue (hkey : IsName key) (hvalue : newline ∉ value) :
    values key (replaceEnvValue key value file) = [value] := by
  have hnone : ((lines file).filter fun line => !assigns key line).filter (assigns key) = [] := by
    rw [List.filter_filter]
    simp
  have hself : assigns key (key ++ equals :: value) = true := assigns_iff.2 ⟨value, rfl⟩
  rw [values, lines_replaceEnvValue hkey hvalue, List.filter_append, hnone]
  simp [hself, List.drop_append]

/-- **Nothing else changes.** -/
theorem values_replaceEnvValue_of_ne (hkey : IsName key) (hkey' : IsName key') (hne : key' ≠ key)
    (hvalue : newline ∉ value) :
    values key' (replaceEnvValue key value file) = values key' file := by
  have hother : assigns key' (key ++ equals :: value) = false := by
    rw [← Bool.not_eq_true]
    exact fun h => hne (eq_of_assigns hkey' hkey h (assigns_iff.2 ⟨value, rfl⟩))
  have hsame : ((lines file).filter fun line => !assigns key line).filter (assigns key') =
      (lines file).filter (assigns key') := by
    rw [List.filter_filter]
    refine List.filter_congr fun line _ => ?_
    cases h : assigns key' line with
    | false => rfl
    | true =>
      have hnot : assigns key line = false := by
        rw [← Bool.not_eq_true]
        exact fun h' => hne (eq_of_assigns hkey' hkey h h')
      simp [hnot]
  rw [values, lines_replaceEnvValue hkey hvalue, List.filter_append, hsame]
  simp [hother, values]

theorem readEnvValue_replaceEnvValue (hkey : IsName key) (hvalue : newline ∉ value) :
    readEnvValue key (replaceEnvValue key value file) = unquote value := by
  rw [readEnvValue, values_replaceEnvValue hkey hvalue]
  rfl

theorem readEnvValue_replaceEnvValue_of_ne (hkey : IsName key) (hkey' : IsName key')
    (hne : key' ≠ key) (hvalue : newline ∉ value) :
    readEnvValue key' (replaceEnvValue key value file) = readEnvValue key' file := by
  rw [readEnvValue, values_replaceEnvValue_of_ne hkey hkey' hne hvalue, readEnvValue]

/-- No line break is read. -/
theorem newline_not_mem_readEnvValue : newline ∉ readEnvValue key file := by
  have hvalue : newline ∉ (values key file).getLast?.getD [] := by
    cases h : (values key file).getLast? with
    | none => simp
    | some value =>
      obtain ⟨line, hline, rfl⟩ := List.mem_map.1 (List.mem_of_getLast? h)
      have hline := newline_not_mem_of_mem_lines (List.mem_of_mem_filter hline)
      exact fun hmem => hline (List.mem_of_mem_drop hmem)
  rw [readEnvValue, unquote]
  split
  · exact fun hmem => hvalue (List.mem_of_mem_drop (List.mem_of_mem_take hmem))
  · exact hvalue

end Variables

/-! ## Commands -/

/-- Why a command stops. -/
inductive OpsError where
  | usage (command : String)
  | missingCommand (name : String)
  | noEnvFile
  /-- A program of `replace_env_value`. -/
  | failed (program : String)
  | cancelled
  | missingVariable (key : Bytes)
  | noPasswordHash
  | malformedHash
  | compose (command : String)
  | notVerified
  | noRandom
  | emptyPassword
  | passwordMismatch
  | notHashed
  | unexpectedHash
deriving DecidableEq

/-- What the `cat` into the environment file comes to. -/
inductive Copy where
  | done
  /-- The file cannot be opened. -/
  | refused
  /-- It has been opened, and is empty from then on; only so many bytes have been written. -/
  | cut (written : Nat)
deriving DecidableEq

/-- What a command meets outside of the environment file. -/
structure Outside where
  /-- `command -v`. -/
  installed : String → Bool
  envFileExists : Bool
  /-- The answer to `confirm` is `yes`. -/
  confirmed : Bool
  /-- `mktemp` and `chmod`, where a variable is to be replaced. -/
  mktemp : Bytes → Bool
  /-- The bytes are characters of the locale.  `grep` leaves out a line for which this is not so. -/
  isText : Bytes → Bool
  /-- The output of `grep` ends after so many bytes, if it does not come to its end: it may fail, and
  a file with a NUL is binary to it. -/
  grepStops : Bytes → Option Nat
  printf : Bytes → Bool
  cat : Bytes → Copy
  /-- `rm`, which comes last. -/
  rm : Bytes → Bool
  compose : String → Bool
  /-- `cmd_verify` or `wait_for_http`. -/
  verified : Bool
  /-- `openssl rand -hex 32`. -/
  randHex : Option Bytes
  /-- The lines that are typed for the password, and again. -/
  typed : Bytes × Bytes
  /-- `docker run --rm -i IMAGE -hash-password`, with the password on its input. -/
  hashPassword : Bytes → Bytes → Option Bytes

/-- What runs over an environment file. -/
abbrev Script (α : Type) := ExceptT OpsError (StateM Bytes) α

namespace Script

variable {α : Type}

/-- Run it on a file: the result, and the file as it is left. -/
def on (x : Script α) (file : Bytes) : Except OpsError α × Bytes := x.run.run file

/-- `fail`, unless. -/
def ensure (ok : Bool) (error : OpsError) : Script Unit := if ok then pure () else throw error

def read (key : Bytes) : Script Bytes := do
  let file ← get
  return readEnvValue key file

end Script

/-- Output in `$(..)`: line ends at its end are dropped. -/
def captured (output : Bytes) : Bytes := (output.reverse.dropWhile (· = newline)).reverse

/-- What `read -r` makes of a line: blanks on both sides are dropped. -/
def typedWord (line : Bytes) : Bytes :=
  ((line.dropWhile (· ∈ [32, 9])).reverse.dropWhile (· ∈ [32, 9])).reverse

def databaseURLKey : Bytes := ascii "NEXUSTIER_CONTROLLER_DATABASE_URL"

def postgresPasswordKey : Bytes := ascii "POSTGRES_PASSWORD"

def admissionTokenKey : Bytes := ascii "NEXUSTIER_GATEWAY_ADMISSION_TOKEN"

def gatewayImageKey : Bytes := ascii "NEXUSTIER_GATEWAY_IMAGE"

def controllerImageKey : Bytes := ascii "NEXUSTIER_CONTROLLER_IMAGE"

def passwordHashKey : Bytes := ascii "NEXUSTIER_CONTROLLER_AUTH_PASSWORD_HASH"

def authModeKey : Bytes := ascii "NEXUSTIER_CONTROLLER_AUTH_MODE"

/-- The variables of the loop of `cmd_preflight`. -/
def requiredKeys : List Bytes :=
  [databaseURLKey, postgresPasswordKey, admissionTokenKey, gatewayImageKey, controllerImageKey]

section Commands

open Script

variable (o : Outside)

def requireCommand (name : String) : Script Unit :=
  ensure (o.installed name) (.missingCommand name)

def requireEnvFile : Script Unit := ensure o.envFileExists .noEnvFile

def confirm : Script Unit := ensure o.confirmed .cancelled

def compose (command : String) : Script Unit := ensure (o.compose command) (.compose command)

/-- The temporary file, with the lines of `grep -v "^KEY="` and that of `printf`.  If `grep` fails,
`|| true` goes on. -/
def temporary (key value file : Bytes) : Bytes :=
  let kept := unlines ((lines file).filter fun line => !assigns key line && o.isText line)
  let found :=
    match o.grepStops key with
    | none => kept
    | some written => kept.take written
  found ++ key ++ equals :: value ++ [newline]

/-- `replace_env_value`. -/
def replace (key value : Bytes) : Script Unit := do
  ensure (o.mktemp key) (.failed "mktemp")
  let file ← get
  ensure (o.printf key) (.failed "printf")
  match o.cat key with
  | .refused => throw (.failed "cat")
  | .cut written =>
    set ((temporary o key value file).take written)
    throw (.failed "cat")
  | .done =>
    set (temporary o key value file)
    ensure (o.rm key) (.failed "rm")

/-- The loop of `cmd_preflight`. -/
def requireVariables : List Bytes → Script Unit
  | [] => pure ()
  | key :: keys => do
    let value ← read key
    ensure (value ≠ []) (.missingVariable key)
    requireVariables keys

def cmdPreflight : Script Unit := do
  requireCommand o "curl"
  requireCommand o "stat"
  requireEnvFile o
  requireVariables requiredKeys
  let authHash ← read passwordHashKey
  let authMode ← read authModeKey
  ensure (!(authHash = [] ∧ authMode ≠ authModeDisabled)) .noPasswordHash
  ensure (authHash = [] ∨ authMode = authModeDisabled ∨ assertPasswordHashShape authHash)
    .malformedHash
  compose o "config --quiet"

def cmdDeploy : Script Unit := do
  cmdPreflight o
  compose o "pull"
  compose o "up -d"
  ensure o.verified .notVerified

def cmdRotateToken : Script Unit := do
  requireEnvFile o
  requireCommand o "openssl"
  confirm o
  match o.randHex with
  | none => throw .noRandom
  | some output =>
    replace o admissionTokenKey (captured output)
    compose o "up -d --force-recreate gateway"
    ensure o.verified .notVerified

def cmdRotateConsolePassword : Script Unit := do
  requireEnvFile o
  requireCommand o "docker"
  let image ← read controllerImageKey
  ensure (image ≠ []) (.missingVariable controllerImageKey)
  let password := typedWord o.typed.1
  ensure (password ≠ []) .emptyPassword
  ensure (password = typedWord o.typed.2) .passwordMismatch
  match o.hashPassword image (password ++ [newline]) with
  | none => throw .notHashed
  | some output =>
    let hash := captured output
    ensure (assertPasswordHashShape hash) .unexpectedHash
    -- in single quotes, since Compose would replace what stands behind a `$`
    replace o passwordHashKey (39 :: hash ++ [39])
    compose o "up -d --force-recreate controller"
    ensure o.verified .notVerified

/-- What `cmd_upgrade` and `cmd_rollback` have in common, from the first write on. -/
def installImages (gatewayImage controllerImage : Bytes) : Script Unit := do
  replace o gatewayImageKey gatewayImage
  replace o controllerImageKey controllerImage
  compose o "config --quiet"
  compose o "pull gateway controller"
  compose o "up -d gateway controller"
  ensure o.verified .notVerified

/-- `cmd_upgrade`, with the arguments of the rollback that it prints. -/
def cmdUpgrade (gatewayImage controllerImage : Bytes) : Script (Bytes × Bytes) := do
  ensure (gatewayImage ≠ [] ∧ controllerImage ≠ []) (.usage "upgrade")
  requireEnvFile o
  let previousGateway ← read gatewayImageKey
  let previousController ← read controllerImageKey
  confirm o
  installImages o gatewayImage controllerImage
  return (previousGateway, previousController)

def cmdRollback (gatewayImage controllerImage : Bytes) : Script Unit := do
  ensure (gatewayImage ≠ [] ∧ controllerImage ≠ []) (.usage "rollback")
  requireEnvFile o
  confirm o
  installImages o gatewayImage controllerImage

end Commands

/-- The commands that look at the environment file. -/
inductive Command where
  | preflight
  | deploy
  | rotateToken
  | rotateConsolePassword
  | upgrade (gatewayImage controllerImage : Bytes)
  | rollback (gatewayImage controllerImage : Bytes)
deriving DecidableEq

/-- `main`, once the command is known. -/
def Command.script (o : Outside) : Command → Script Unit
  | preflight => cmdPreflight o
  | deploy => cmdDeploy o
  | rotateToken => cmdRotateToken o
  | rotateConsolePassword => cmdRotateConsolePassword o
  | upgrade gatewayImage controllerImage => do
    let _ ← cmdUpgrade o gatewayImage controllerImage
  | rollback gatewayImage controllerImage => cmdRollback o gatewayImage controllerImage

/-- Commands, one after the other, each in a process of its own. -/
def history (file : Bytes) (commands : List (Outside × Command)) : Bytes :=
  commands.foldl (fun file e => ((e.2.script e.1).on file).2) file

end Ops

end NexusTier
