import NexusTier.Ops.EnvFile

/-!
# What commands keep

A command may end anywhere, so what holds of the environment file after a history of commands is
what every write on the way has kept.

## What is here

* `keeps_run`, `keeps_history` — the rule for that, with the file as `replace_env_value` leaves it
  (`Outside.rewritten`), whatever fails.
* `Orderly` — no command is cut off where it writes, and no line is lost for its characters.  Then
  the file either stays as it is or is what it is meant to be (`Outside.Completes.rewritten_cases`),
  and the rule is about `replaceEnvValue` alone (`Orderly.keeps`).
* `commands_keep` — in an orderly history the variables that no command manages keep all their
  lines, and what has passed the preflight check passes it.

An orderly history is what this is about, and not more: where the disk is full, the file may be
lost.
-/

set_option autoImplicit false

open Encoding

namespace NexusTier

namespace Ops

/-! ## What a command keeps -/

/-- The script keeps `P`, wherever it stops. -/
def Script.Keeps {α : Type} (P : Bytes → Prop) (x : Script α) : Prop :=
  ∀ file, P file → P (x.on file).2

namespace Script

variable {α β : Type} {P : Bytes → Prop}

theorem on_bind (x : Script α) (f : α → Script β) (file : Bytes) :
    (x >>= f).on file =
      match x.on file with
      | (.ok a, file') => (f a).on file'
      | (.error e, file') => (.error e, file') := by
  show ((x >>= f).run.run file) = _
  rw [ExceptT.run_bind, StateT.run_bind]
  show (match x.run.run file with | (r, file') => _) = _
  rw [on]
  rcases x.run.run file with ⟨r, file'⟩
  cases r <;> rfl

theorem on_ensure (ok : Bool) (error : OpsError) (file : Bytes) :
    (ensure ok error).on file = (if ok then .ok () else .error error, file) := by
  cases ok <;> rfl

theorem on_read (key file : Bytes) : (read key).on file = (.ok (readEnvValue key file), file) := rfl

theorem keeps_pure (a : α) : Keeps P (pure a) := fun _ h => h

theorem keeps_throw (e : OpsError) : Keeps P (throw e : Script α) := fun _ h => h

theorem keeps_ensure (ok : Bool) (e : OpsError) : Keeps P (ensure ok e) := by
  intro file h
  rwa [on_ensure]

theorem keeps_read (key : Bytes) : Keeps P (read key) := fun _ h => h

theorem keeps_bind {x : Script α} {f : α → Script β} (hx : Keeps P x) (hf : ∀ a, Keeps P (f a)) :
    Keeps P (x >>= f) := by
  intro file h
  have hfile := hx file h
  rw [on_bind]
  generalize x.on file = result at hfile
  obtain ⟨r, file'⟩ := result
  cases r with
  | ok a => exact hf a file' hfile
  | error e => exact hfile

/-- What is behind an `ensure` runs only where it holds. -/
theorem keeps_ensure_bind {ok : Bool} {e : OpsError} {f : Unit → Script α}
    (hf : ok = true → Keeps P (f ())) : Keeps P (ensure ok e >>= f) := by
  intro file h
  rw [on_bind, on_ensure]
  cases ok with
  | true => exact hf rfl file h
  | false => exact h

theorem keeps_then {x : Script Unit} {y : Script α} (hx : Keeps P x) (hy : Keeps P y) :
    Keeps P (do x; y) :=
  keeps_bind hx fun _ => hy

end Script

/-- What a command may write, and under which name. -/
def Command.Writes (o : Outside) (key value : Bytes) : Command → Prop
  | preflight => False
  | deploy => False
  | rotateToken => key = admissionTokenKey ∧ ∃ output ∈ o.randHex, value = captured output
  | rotateConsolePassword => key = passwordHashKey ∧ ∃ image input output,
    o.hashPassword image input = some output ∧ assertPasswordHashShape (captured output) = true ∧
      value = 39 :: captured output ++ [39]
  | upgrade gatewayImage controllerImage =>
    key = gatewayImageKey ∧ value = gatewayImage ∨
      key = controllerImageKey ∧ value = controllerImage
  | rollback gatewayImage controllerImage =>
    key = gatewayImageKey ∧ value = gatewayImage ∨
      key = controllerImageKey ∧ value = controllerImage

/-- The file as `replace_env_value` leaves it. -/
def Outside.rewritten (o : Outside) (key value file : Bytes) : Bytes :=
  if o.mktemp key = true ∧ o.printf key = true then
    match o.cat key with
    | .refused => file
    | .cut written => (temporary o key value file).take written
    | .done => temporary o key value file
  else file

section Keeps

open Script

variable {P : Bytes → Prop} {o : Outside}

theorem replace_on (key value file : Bytes) :
    ((replace o key value).on file).2 = o.rewritten key value file := by
  rw [Outside.rewritten, replace]
  cases hmktemp : o.mktemp key with
  | false => rfl
  | true =>
    cases hprintf : o.printf key with
    | false => rfl
    | true =>
      cases hcat : o.cat key with
      | refused | cut => rfl
      | done => cases hrm : o.rm key <;> rfl

theorem keeps_replace {key value : Bytes}
    (h : ∀ file, P file → P (o.rewritten key value file)) : Keeps P (replace o key value) := by
  intro file hfile
  rw [replace_on]
  exact h file hfile

theorem keeps_requireVariables (keys : List Bytes) : Keeps P (requireVariables keys) := by
  induction keys with
  | nil => exact keeps_pure ()
  | cons key keys ih => exact keeps_bind (keeps_read key) fun _ => keeps_then (keeps_ensure _ _) ih

theorem keeps_cmdPreflight : Keeps P (cmdPreflight o) := by
  refine keeps_then (keeps_ensure _ _) <| keeps_then (keeps_ensure _ _) <|
    keeps_then (keeps_ensure _ _) <| keeps_then (keeps_requireVariables _) ?_
  exact keeps_bind (keeps_read _) fun _ => keeps_bind (keeps_read _) fun _ =>
    keeps_then (keeps_ensure _ _) <| keeps_then (keeps_ensure _ _) (keeps_ensure _ _)

theorem keeps_installImages {gatewayImage controllerImage : Bytes}
    (hgateway : ∀ file, P file → P (o.rewritten gatewayImageKey gatewayImage file))
    (hcontroller : ∀ file, P file → P (o.rewritten controllerImageKey controllerImage file)) :
    Keeps P (installImages o gatewayImage controllerImage) :=
  keeps_then (keeps_replace hgateway) <| keeps_then (keeps_replace hcontroller) <|
    keeps_then (keeps_ensure _ _) <| keeps_then (keeps_ensure _ _) <|
    keeps_then (keeps_ensure _ _) (keeps_ensure _ _)

/-- **The rule of what a command keeps**: whatever all its writes keep, however it ends. -/
theorem keeps_run {command : Command} (h : ∀ key value, command.Writes o key value →
    ∀ file, P file → P (o.rewritten key value file)) : (command.script o).Keeps P := by
  cases command with
  | preflight => exact keeps_cmdPreflight
  | deploy =>
    exact keeps_then keeps_cmdPreflight <| keeps_then (keeps_ensure _ _) <|
      keeps_then (keeps_ensure _ _) (keeps_ensure _ _)
  | rotateToken =>
    refine keeps_then (keeps_ensure _ _) <| keeps_then (keeps_ensure _ _) <|
      keeps_then (keeps_ensure _ _) ?_
    cases hrandom : o.randHex with
    | none => exact keeps_throw _
    | some output =>
      exact keeps_then (keeps_replace (h _ _ ⟨rfl, output, hrandom, rfl⟩)) <|
        keeps_then (keeps_ensure _ _) (keeps_ensure _ _)
  | rotateConsolePassword =>
    refine keeps_then (keeps_ensure _ _) <| keeps_then (keeps_ensure _ _) <|
      keeps_bind (keeps_read _) fun image => keeps_then (keeps_ensure _ _) <|
      keeps_then (keeps_ensure _ _) <| keeps_then (keeps_ensure _ _) ?_
    cases hhash : o.hashPassword image (typedWord o.typed.1 ++ [newline]) with
    | none => exact keeps_throw _
    | some output =>
      exact keeps_ensure_bind fun hshape =>
        keeps_then (keeps_replace (h _ _ ⟨rfl, image, _, output, hhash, hshape, rfl⟩)) <|
          keeps_then (keeps_ensure _ _) (keeps_ensure _ _)
  | upgrade gatewayImage controllerImage =>
    refine keeps_bind (keeps_then (keeps_ensure _ _) <| keeps_then (keeps_ensure _ _) <|
      keeps_bind (keeps_read _) fun _ => keeps_bind (keeps_read _) fun _ =>
      keeps_then (keeps_ensure _ _) <| keeps_then ?_ (keeps_pure _)) fun _ => keeps_pure ()
    exact keeps_installImages (h _ _ (.inl ⟨rfl, rfl⟩)) (h _ _ (.inr ⟨rfl, rfl⟩))
  | rollback gatewayImage controllerImage =>
    refine keeps_then (keeps_ensure _ _) <| keeps_then (keeps_ensure _ _) <|
      keeps_then (keeps_ensure _ _) ?_
    exact keeps_installImages (h _ _ (.inl ⟨rfl, rfl⟩)) (h _ _ (.inr ⟨rfl, rfl⟩))

theorem keeps_history {commands : List (Outside × Command)}
    (h : ∀ e ∈ commands, ∀ key value, e.2.Writes e.1 key value →
      ∀ file, P file → P (e.1.rewritten key value file)) :
    ∀ file, P file → P (history file commands) := by
  induction commands with
  | nil => exact fun _ hP => hP
  | cons e commands ih =>
    rw [List.forall_mem_cons] at h
    exact fun file hP => ih h.2 _ (keeps_run h.1 file hP)

end Keeps

/-! ## Where nothing is cut off -/

/-- `grep` comes to its end, and so does `cat`, once the file has been opened. -/
structure Outside.Completes (o : Outside) : Prop where
  grep : ∀ key, o.grepStops key = none
  cat : ∀ key written, o.cat key ≠ .cut written

/-- While the commands run, none of them is cut off where it writes, and no line is lost for its
characters: neither one of the file nor one that a command writes. -/
structure Orderly (file : Bytes) (commands : List (Outside × Command)) : Prop where
  completes : ∀ e ∈ commands, e.1.Completes
  text : ∀ e ∈ commands, ∀ line ∈ lines file, e.1.isText line = true
  written : ∀ e ∈ commands, ∀ key value, e.2.Writes e.1 key value →
    newline ∉ value ∧ ∀ e' ∈ commands, e'.1.isText (key ++ equals :: value) = true

/-- The variables that commands write. -/
def managedKeys : List Bytes :=
  [admissionTokenKey, passwordHashKey, gatewayImageKey, controllerImageKey]

theorem isName_of_mem {key : Bytes} (h : key ∈ authModeKey :: managedKeys ++ requiredKeys) :
    IsName key := by
  have hall : ∀ key ∈ authModeKey :: managedKeys ++ requiredKeys,
      equals ∉ key ∧ newline ∉ key := by decide +kernel
  exact ⟨(hall key h).1, (hall key h).2⟩

theorem mem_managedKeys_of_writes {o : Outside} {command : Command} {key value : Bytes}
    (h : command.Writes o key value) : key ∈ managedKeys := by
  cases command with
  | preflight | deploy => exact h.elim
  | rotateToken | rotateConsolePassword =>
    rw [h.1]
    simp [managedKeys]
  | upgrade g c | rollback g c => rcases h with ⟨rfl, -⟩ | ⟨rfl, -⟩ <;> simp [managedKeys]

section Orderly

variable {o : Outside} {key value file : Bytes}

theorem temporary_eq (hgrep : o.grepStops key = none)
    (htext : ∀ line ∈ lines file, o.isText line = true) :
    temporary o key value file = replaceEnvValue key value file := by
  have hsame : ((lines file).filter fun line => !assigns key line && o.isText line) =
      (lines file).filter fun line => !assigns key line := by
    refine List.filter_congr fun line hline => ?_
    rw [htext line hline, Bool.and_true]
  simp only [temporary, hgrep, hsame, replaceEnvValue]

/-- **Then the file stays as it is, or is what it is meant to be.** -/
theorem Outside.Completes.rewritten_cases (h : o.Completes)
    (htext : ∀ line ∈ lines file, o.isText line = true) :
    o.rewritten key value file = file ∨
      o.rewritten key value file = replaceEnvValue key value file := by
  rw [Outside.rewritten]
  split
  · cases hcat : o.cat key with
    | refused => exact .inl rfl
    | cut written => exact absurd hcat (h.cat key written)
    | done => exact .inr (temporary_eq (h.grep key) htext)
  · exact .inl rfl

/-- The lines of a file are still text after one of them has been replaced. -/
theorem text_replaceEnvValue (hkey : IsName key) (hvalue : newline ∉ value)
    (htext : ∀ line ∈ lines file, o.isText line = true)
    (hline : o.isText (key ++ equals :: value) = true) :
    ∀ line ∈ lines (replaceEnvValue key value file), o.isText line = true := by
  rw [lines_replaceEnvValue hkey hvalue, List.forall_mem_append, List.forall_mem_singleton]
  exact ⟨fun line hmem => htext line (List.mem_of_mem_filter hmem), hline⟩

/-- **The rule of what an orderly history keeps**: whatever all its writes keep.  And the lines of
the file are text all the time. -/
theorem Orderly.keeps {all commands : List (Outside × Command)} (h : Orderly file all)
    (hsub : commands ⊆ all) {P : Bytes → Prop}
    (hP : ∀ e ∈ commands, ∀ key value, e.2.Writes e.1 key value →
      ∀ file, P file → P (replaceEnvValue key value file)) (hfile : P file) :
    (∀ e ∈ all, ∀ line ∈ lines (history file commands), e.1.isText line = true) ∧
      P (history file commands) := by
  refine keeps_history (P := fun file' =>
    (∀ e ∈ all, ∀ line ∈ lines file', e.1.isText line = true) ∧ P file') ?_ file ⟨h.text, hfile⟩
  rintro e he key value hwrites file' ⟨htext, hfile'⟩
  obtain ⟨hvalue, hline⟩ := h.written e (hsub he) key value hwrites
  have hkey : IsName key := isName_of_mem (by simp [mem_managedKeys_of_writes hwrites])
  obtain heq | heq := (h.completes e (hsub he)).rewritten_cases (htext e (hsub he))
  · rw [heq]
    exact ⟨htext, hfile'⟩
  · rw [heq]
    exact ⟨fun e' he' => text_replaceEnvValue hkey hvalue (htext e' he') (hline e' he'),
      hP e he key value hwrites file' hfile'⟩

end Orderly

/-! ## The preflight check -/

/-- What `cmd_preflight` asks of the file. -/
structure Preflighted (file : Bytes) : Prop where
  required : ∀ key ∈ requiredKeys, readEnvValue key file ≠ []
  authenticated : readEnvValue authModeKey file = authModeDisabled ∨
    assertPasswordHashShape (readEnvValue passwordHashKey file) = true

section Preflight

open Script

variable {o : Outside} {file : Bytes}

theorem ensure_bind_eq_ok {α : Type} {ok : Bool} {e : OpsError} {f : Unit → Script α} {a : α} :
    ((ensure ok e >>= f).on file).1 = .ok a ↔ ok = true ∧ ((f ()).on file).1 = .ok a := by
  rw [on_bind, on_ensure]
  cases ok <;> simp

theorem ensure_eq_ok {ok : Bool} {e : OpsError} :
    ((ensure ok e).on file).1 = .ok () ↔ ok = true := by
  rw [on_ensure]
  cases ok <;> simp

theorem on_read_bind {α : Type} {key : Bytes} {f : Bytes → Script α} :
    (read key >>= f).on file = (f (readEnvValue key file)).on file := by
  rw [on_bind, on_read]

theorem requireVariables_bind_eq_ok {α : Type} {f : Unit → Script α} {a : α} {keys : List Bytes} :
    ((requireVariables keys >>= f).on file).1 = .ok a ↔
      (∀ key ∈ keys, readEnvValue key file ≠ []) ∧ ((f ()).on file).1 = .ok a := by
  induction keys with
  | nil =>
    have hnil : requireVariables [] >>= f = f () := rfl
    rw [hnil]
    simp
  | cons key keys ih =>
    have hcons : requireVariables (key :: keys) >>= f =
        read key >>= fun value => ensure (value ≠ []) (.missingVariable key) >>= fun _ =>
          requireVariables keys >>= f := by
      simp [requireVariables]
    rw [hcons, on_read_bind, ensure_bind_eq_ok, List.forall_mem_cons, ih, decide_eq_true_eq,
      and_assoc]

theorem assertPasswordHashShape_nil : assertPasswordHashShape [] = false := by decide

theorem cmdPreflight_eq_ok : ((cmdPreflight o).on file).1 = .ok () ↔
    (o.installed "curl" = true ∧ o.installed "stat" = true ∧ o.envFileExists = true) ∧
      Preflighted file ∧ o.compose "config --quiet" = true := by
  simp only [cmdPreflight, requireCommand, requireEnvFile, compose, ensure_bind_eq_ok,
    requireVariables_bind_eq_ok, on_read_bind, ensure_eq_ok, Bool.not_eq_true',
    decide_eq_false_iff_not, decide_eq_true_eq]
  constructor
  · rintro ⟨hcurl, hstat, hexists, hrequired, hpresent, hshape, hcompose⟩
    refine ⟨⟨hcurl, hstat, hexists⟩, ⟨hrequired, ?_⟩, hcompose⟩
    rcases hshape with hnil | hmode | hshape
    · exact .inl (by_contra fun hmode => hpresent ⟨hnil, hmode⟩)
    · exact .inl hmode
    · exact .inr hshape
  · rintro ⟨⟨hcurl, hstat, hexists⟩, ⟨hrequired, hauth⟩, hcompose⟩
    refine ⟨hcurl, hstat, hexists, hrequired, ?_, .inr hauth, hcompose⟩
    rintro ⟨hnil, hmode⟩
    rcases hauth with hmode' | hshape
    · exact hmode hmode'
    · rw [hnil, assertPasswordHashShape_nil] at hshape
      cases hshape

/-! ### After a history of commands -/

theorem unquote_quoted (value : Bytes) : unquote (39 :: value ++ [39]) = value := by
  have hquoted : isQuoted 39 (39 :: value ++ [39]) = true := by
    rw [isQuoted, List.getLast?_concat]
    simp
  rw [unquote, if_pos (.inl hquoted)]
  simp

/-- Only a rotation writes the hash. -/
theorem rotateConsolePassword_of_writes {command : Command} {value : Bytes}
    (h : command.Writes o passwordHashKey value) : command = .rotateConsolePassword := by
  have hne : passwordHashKey ≠ admissionTokenKey ∧ passwordHashKey ≠ gatewayImageKey ∧
      passwordHashKey ≠ controllerImageKey := by decide +kernel
  cases command with
  | preflight | deploy => exact h.elim
  | rotateToken => exact absurd h.1 hne.1
  | rotateConsolePassword => rfl
  | upgrade g c | rollback g c =>
    rcases h with ⟨heq, -⟩ | ⟨heq, -⟩
    · exact absurd heq hne.2.1
    · exact absurd heq hne.2.2

/-- A hash is written in quotes, and read without. -/
theorem shape_of_writes {command : Command} {value : Bytes}
    (h : command.Writes o passwordHashKey value) :
    assertPasswordHashShape (unquote value) = true := by
  obtain rfl := rotateConsolePassword_of_writes h
  obtain ⟨-, image, input, output, -, hshape, rfl⟩ := h
  rwa [unquote_quoted]

/-- One write leaves the file such that it passes. -/
theorem Preflighted.replace {command : Command} {key value : Bytes} (h : Preflighted file)
    (hwrites : command.Writes o key value) (hvalue : newline ∉ value)
    (hne : unquote value ≠ []) : Preflighted (replaceEnvValue key value file) := by
  have hmanaged := mem_managedKeys_of_writes hwrites
  have hkey : IsName key := isName_of_mem (by simp [hmanaged])
  have hmode : authModeKey ≠ key := by
    have hnot : authModeKey ∉ managedKeys := by decide +kernel
    exact fun heq => hnot (heq ▸ hmanaged)
  refine ⟨fun key' hrequired => ?_, ?_⟩
  · have hkey' : IsName key' := isName_of_mem (by simp [hrequired])
    by_cases heq : key' = key
    · rwa [heq, readEnvValue_replaceEnvValue hkey hvalue]
    · rw [readEnvValue_replaceEnvValue_of_ne hkey hkey' heq hvalue]
      exact h.required key' hrequired
  · rw [readEnvValue_replaceEnvValue_of_ne hkey (isName_of_mem (by simp)) hmode hvalue]
    refine h.authenticated.imp_right fun hshape => ?_
    by_cases heq : passwordHashKey = key
    · subst heq
      rw [readEnvValue_replaceEnvValue hkey hvalue]
      exact shape_of_writes hwrites
    · rwa [readEnvValue_replaceEnvValue_of_ne hkey (isName_of_mem (by simp [managedKeys])) heq
        hvalue]

/-- **No command breaks the file.**  If what is written is not empty once the quotes are off, then
after any orderly history of commands, however each of them has ended, the variables that no command
manages have the values that they had, and a file that would have passed the preflight check still
does. -/
theorem commands_keep {commands : List (Outside × Command)} {file : Bytes}
    (h : Orderly file commands)
    (hne : ∀ e ∈ commands, ∀ key value, e.2.Writes e.1 key value → unquote value ≠ []) :
    (∀ key, IsName key → key ∉ managedKeys →
      values key (history file commands) = values key file) ∧
    ∀ o : Outside, ((cmdPreflight o).on file).1 = .ok () →
      ((cmdPreflight o).on (history file commands)).1 = .ok () := by
  constructor
  · intro key hkey hother
    refine (h.keeps (List.Subset.refl _) (P := fun file' => values key file' = values key file) ?_
      rfl).2
    intro e he key' value hwrites file' hP
    have hmanaged := mem_managedKeys_of_writes hwrites
    rw [← hP]
    exact values_replaceEnvValue_of_ne (isName_of_mem (by simp [hmanaged])) hkey
      (fun heq => hother (heq ▸ hmanaged)) (h.written e he key' value hwrites).1
  · intro o ho
    rw [cmdPreflight_eq_ok] at ho ⊢
    refine ⟨ho.1, (h.keeps (List.Subset.refl _) ?_ ho.2.1).2, ho.2.2⟩
    intro e he key value hwrites file' hP
    exact hP.replace hwrites (h.written e he key value hwrites).1 (hne e he key value hwrites)

end Preflight

/-! ### An upgrade that fails, and two rotations -/

def operatorHash : Bytes := ascii "pbkdf2-sha256$600000$c2FsdHNhbHRzYWx0$a2V5a2V5a2V5"

def operatorFile : Bytes :=
  unlines
    [ascii "# NexusTier",
     databaseURLKey ++ ascii "='postgres://nexustier@postgres/nexustier'",
     postgresPasswordKey ++ ascii "=correct-horse",
     admissionTokenKey ++ ascii "=5f5f",
     gatewayImageKey ++ ascii "=gateway:1",
     controllerImageKey ++ ascii "=controller:1",
     passwordHashKey ++ ascii "='" ++ operatorHash ++ ascii "'"]

/-- Everything is there, and goes well. -/
def steady : Outside where
  installed _ := true
  envFileExists := true
  confirmed := true
  mktemp _ := true
  isText _ := true
  grepStops _ := none
  printf _ := true
  cat _ := .done
  rm _ := true
  compose _ := true
  verified := true
  randHex := some (ascii "a0a0" ++ [newline])
  typed := (ascii " battery staple", ascii "battery staple")
  hashPassword _ _ := some (operatorHash ++ [newline])

def failedUpgrade : Outside × Command :=
  ({ steady with
      compose := fun command => command ≠ "pull gateway controller" },
    .upgrade (ascii "gateway:2") (ascii "controller:2"))

def operations : List (Outside × Command) :=
  [failedUpgrade, (steady, .rotateToken), (steady, .rotateConsolePassword)]

theorem completes_of_done {o : Outside} (hgrep : ∀ key, o.grepStops key = none)
    (hcat : ∀ key, o.cat key = .done) : o.Completes :=
  ⟨hgrep, fun key written hcut => by simp [hcat] at hcut⟩

theorem completes_steady : steady.Completes := completes_of_done (fun _ => rfl) fun _ => rfl

theorem completes_failedUpgrade : failedUpgrade.1.Completes :=
  completes_of_done (fun _ => rfl) fun _ => rfl

theorem orderly_operations : Orderly operatorFile operations where
  completes := by
    simp only [operations, List.forall_mem_cons, List.not_mem_nil, false_implies, implies_true,
      and_true]
    exact ⟨completes_failedUpgrade, completes_steady, completes_steady⟩
  text := by
    simp only [operations, failedUpgrade, List.forall_mem_cons, List.not_mem_nil, false_implies,
      implies_true, and_true]
    exact ⟨fun _ _ => rfl, fun _ _ => rfl, fun _ _ => rfl⟩
  written := by
    have htext : ∀ e ∈ operations, ∀ line, e.1.isText line = true := by
      simp [operations, failedUpgrade, steady]
    have hfree : ∀ e ∈ operations, ∀ key value, e.2.Writes e.1 key value → newline ∉ value := by
      simp only [operations, failedUpgrade, List.forall_mem_cons, List.not_mem_nil, false_implies,
        implies_true, and_true]
      refine ⟨fun key value hwrites => ?_, fun key value hwrites => ?_, fun key value hwrites => ?_⟩
      · rcases hwrites with ⟨-, rfl⟩ | ⟨-, rfl⟩ <;> decide +kernel
      · obtain ⟨-, output, houtput, rfl⟩ := hwrites
        obtain rfl := Option.some.inj houtput
        decide +kernel
      · obtain ⟨-, image, input, output, houtput, -, rfl⟩ := hwrites
        obtain rfl := Option.some.inj houtput
        decide +kernel
    exact fun e he key value hwrites =>
      ⟨hfree e he key value hwrites, fun e' he' => htext e' he' _⟩

theorem commands_keep_operations :
    readEnvValue admissionTokenKey (history operatorFile operations) = ascii "a0a0" ∧
      values postgresPasswordKey (history operatorFile operations) = [ascii "correct-horse"] ∧
      ((cmdPreflight steady).on (history operatorFile operations)).1 = .ok () := by
  obtain ⟨hothers, hpreflight⟩ := commands_keep orderly_operations (by
    simp only [operations, failedUpgrade, List.forall_mem_cons, List.not_mem_nil, false_implies,
      implies_true, and_true]
    refine ⟨fun key value hwrites => ?_, fun key value hwrites => ?_, fun key value hwrites => ?_⟩
    · rcases hwrites with ⟨-, rfl⟩ | ⟨-, rfl⟩ <;> decide +kernel
    · obtain ⟨-, output, houtput, rfl⟩ := hwrites
      obtain rfl := Option.some.inj houtput
      decide +kernel
    · obtain ⟨-, image, input, output, houtput, -, rfl⟩ := hwrites
      obtain rfl := Option.some.inj houtput
      decide +kernel)
  refine ⟨by decide +kernel, ?_,
    hpreflight steady (cmdPreflight_eq_ok.2 ⟨by simp [steady], ?_, rfl⟩)⟩
  · rw [hothers postgresPasswordKey (isName_of_mem (by simp [requiredKeys])) (by decide +kernel)]
    decide +kernel
  · exact ⟨by decide +kernel, .inr (by decide +kernel)⟩

/-- A line that is no text in the locale is lost. -/
example : values (ascii "NAME")
    ((cmdRotateToken { steady with isText := fun line => 233 ∉ line }).on
      (unlines [ascii "NAME=caf" ++ [233]])).2 = [] := by decide +kernel

/-- A full disk where the file is written takes all of it away. -/
example : ((cmdRotateToken { steady with cat := fun _ => .cut 0 }).on operatorFile).2 = [] := by
  decide +kernel

end Ops

end NexusTier
