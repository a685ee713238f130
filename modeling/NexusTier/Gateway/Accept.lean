import NexusTier.Gateway.Collection

/-!
# Accepting sessions

`Gateway::accept_session`, as the many tasks it runs in: one for each connection, next to the
handlers of its heartbeats and to the pool they share.  A task waits for the first heartbeat,
inserts its session, stops the session it has replaced, waits until its own has ended, and removes
it if it is still the current one.  Between any two of its awaits everything else may happen.

The tasks and handlers are interleaved at the steps that touch shared state: taking the lock of a
session's state, writing to or looking at its watch channel, an operation on the pool, a look at
`is_running`.  A run is any list of such steps (`Accepting.run`); a step whose time has not come
leaves everything as it is.  A tunnel whose negotiation fails has no session, and does not occur.

What the gateway knows of a client it knows from heartbeats, and these it lets in one at a time.
`Connection.Sound` says what they have in common, at every step; `pool_admitted` is what follows
for the sessions in the pool and for a collection that reads them.

## What is here

* `Connection.step`: the steps of a connection that do not touch the pool, and `Connection.Sound`,
  what they keep.
* `Accepting.act` and `Accepting.step`: all steps of the gateway.  `Accepting.step_cases` says once
  what a step can do; what later modules prove of runs they derive from it.
* `Accepting.Sound`: the invariant of the whole, with `Sound.step` and `Sound.run`.

## What is left out

The tunnels, the listener and its shutdown, and finished tasks that are reaped.  A connection that
ends is a session that stops running.
-/

set_option autoImplicit false

namespace NexusTier

/-- Why `accept_session` ends with an error, once the session exists. -/
inductive AcceptError where
  | timedOut
  | closed
  | withoutState
  | session (error : SessionError)
deriving DecidableEq

def AcceptError.text : AcceptError → String
  | timedOut => "timed out waiting for the first heartbeat"
  | closed => "session closed before its first heartbeat"
  | withoutState => "heartbeat notification arrived without state"
  | session error => error.text

/-- Where the task of a connection stands. -/
inductive AcceptPhase where
  /-- There is no connection yet. -/
  | absent
  /-- In the loop of `wait_for_first_heartbeat`. -/
  | waiting
  /-- The channel has a heartbeat; the state is to be read. -/
  | reading
  /-- The session is to be inserted. -/
  | inserting (machineID : Uuid)
  /-- `insert` has returned the session of connection `previous`, which is to be stopped. -/
  | stopping (machineID : Uuid) (previous : Nat)
  /-- In the loop on `is_running`. -/
  | polling (machineID : Uuid)
  /-- The session has ended, and is to be removed. -/
  | removing (machineID : Uuid)
  /-- Returned; `removed` is what `remove_if_current` has said. -/
  | disconnected (machineID : Uuid) (removed : Bool)
  /-- Returned with an error. -/
  | rejected (error : AcceptError)
deriving DecidableEq

/-- The machine id a task has read. -/
def AcceptPhase.machineID? : AcceptPhase → Option Uuid
  | inserting m | stopping m _ | polling m | removing m | disconnected m _ => some m
  | absent | waiting | reading | rejected _ => none

/-- The machine id of a task that has inserted its session and not yet removed it. -/
def AcceptPhase.pooled? : AcceptPhase → Option Uuid
  | stopping m _ | polling m | removing m => some m
  | _ => none

theorem AcceptPhase.machineID?_of_pooled? {phase : AcceptPhase} {m : Uuid}
    (h : phase.pooled? = some m) : phase.machineID? = some m := by
  cases phase <;> simp_all [pooled?, machineID?]

/-- A connection: its session, and the task that serves it.  The last three fields are history,
which no step reads. -/
structure Connection where
  session : GatewaySession
  /-- `is_running`. -/
  running : Bool
  phase : AcceptPhase
  /-- What the watch channel holds. -/
  channel : Option HeartbeatRequest
  /-- Heartbeats that are stored, and whose handlers have yet to write them to the channel. -/
  unsent : List HeartbeatRequest
  /-- Every heartbeat that has been stored. -/
  stored : List HeartbeatRequest
  /-- When the first of them was. -/
  firstAt : Option Nat
  /-- The connection whose session this one has replaced. -/
  replaced : Option Nat

/-- No connection.  A session that is not secure takes no heartbeat. -/
def Connection.absent : Connection where
  session := .new "" false none 0
  running := false
  phase := .absent
  channel := none
  unsent := []
  stored := []
  firstAt := none
  replaced := none

/-- A step of a connection that does not touch the pool. -/
inductive ConnectionEvent where
  /-- The tunnel is negotiated; the session is created and served. -/
  | opened (remoteURL : String) (secure : Bool)
  /-- A heartbeat handler runs, up to where it drops the lock. -/
  | heartbeat (request : HeartbeatRequest)
  /-- The handler of the `n`-th unsent heartbeat writes it to the channel. -/
  | notify (n : Nat)
  /-- The session ends by itself. -/
  | closed
  /-- `wait_for_first_heartbeat` finds a heartbeat in the channel. -/
  | wake
  /-- It reads the state, and the task asks for the machine id. -/
  | read
  /-- Its time is over. -/
  | timeout
  /-- It finds that the session has ended. -/
  | giveUp
  /-- The loop on `is_running` looks. -/
  | poll

namespace Connection

/-- The snapshot that `wait_for_first_heartbeat` returns, and its `machine_id`. -/
def firstSnapshot (c : Connection) : AcceptPhase :=
  match c.session.state.heartbeat with
  | none => .rejected .withoutState
  | some heartbeat =>
    match heartbeat.machineID with
    | none => .rejected (.session .missingMachineID)
    | some machineID => .inserting machineID

/-- One step, at time `now`; it is the `time`-th of the run. -/
def step (admissionToken : Option String) (now : UInt64) (time : Nat) (c : Connection) :
    ConnectionEvent → Connection
  | .opened remoteURL secure =>
    match c.phase with
    | .absent =>
      { c with
        session := .new remoteURL secure admissionToken now
        running := true
        phase := .waiting }
    | _ => c
  | .heartbeat request =>
    match c.session.heartbeat now request with
    | .error _ => c
    | .ok session =>
      { c with
        session
        unsent := c.unsent ++ [request]
        stored := c.stored ++ [request]
        firstAt := c.firstAt.or (some time) }
  | .notify n =>
    match c.unsent[n]? with
    | none => c
    | some request =>
      { c with
        channel := some request
        unsent := c.unsent.eraseIdx n }
  | .closed =>
    { c with
      running := false }
  | .wake =>
    match c.phase, c.channel with
    | .waiting, some _ =>
      { c with
        phase := .reading }
    | _, _ => c
  | .read =>
    match c.phase with
    | .reading =>
      { c with
        phase := c.firstSnapshot }
    | _ => c
  | .timeout =>
    match c.phase with
    | .waiting | .reading =>
      { c with
        phase := .rejected .timedOut }
    | _ => c
  | .giveUp =>
    match c.phase, c.running with
    | .waiting, false =>
      { c with
        phase := .rejected .closed }
    | _, _ => c
  | .poll =>
    match c.phase, c.running with
    | .polling machineID, false =>
      { c with
        phase := .removing machineID }
    | _, _ => c

end Connection

/-! ## The gateway -/

/-- The gateway while it accepts: its connections by number, and the pool.  `Arc::ptr_eq` on two
sessions is equality of these numbers. -/
structure Accepting where
  now : UInt64
  admissionToken : Option String
  conn : Nat → Connection
  pool : List (Uuid × Nat)
  /-- How many steps there have been. -/
  time : Nat

/-- A step of the gateway. -/
inductive AcceptEvent where
  | tick (now : UInt64)
  | conn (i : Nat) (event : ConnectionEvent)
  | insert (i : Nat)
  /-- `previous.stop()`, by the task of connection `i`. -/
  | stop (i : Nat)
  /-- `remove_if_current`. -/
  | remove (i : Nat)

namespace Accepting

/-- `Gateway::new`. -/
def start (now : UInt64) (admissionToken : Option String) : Accepting :=
  ⟨now, admissionToken, fun _ => .absent, [], 0⟩

/-- Change one connection. -/
def modify (i : Nat) (f : Connection → Connection) (s : Accepting) : Accepting :=
  { s with
    conn := fun j => if j = i then f (s.conn i) else s.conn j }

/-- Move the task of a connection. -/
def goto (i : Nat) (phase : AcceptPhase) (s : Accepting) : Accepting :=
  s.modify i fun c =>
    { c with
      phase }

/-- What a task does after `insert` has returned. -/
def afterInsert (machineID : Uuid) : Option Nat → AcceptPhase
  | some previous => .stopping machineID previous
  | none => .polling machineID

/-- `SessionPool::insert`, by the task of connection `i`. -/
def insert (i : Nat) (machineID : Uuid) (s : Accepting) : Accepting :=
  let previous := s.pool.lookup machineID
  { s.modify i fun c =>
      { c with
        phase := afterInsert machineID previous
        replaced := previous } with
    pool := (machineID, i) :: s.pool.filter fun e => e.1 ≠ machineID }

/-- `GatewaySession::stop`, on the session of connection `i`. -/
def halt (i : Nat) (s : Accepting) : Accepting :=
  s.modify i fun c =>
    { c with
      running := false }

/-- `SessionPool::remove_if_current`, by the task of connection `i`. -/
def removeIfCurrent (i : Nat) (machineID : Uuid) (s : Accepting) : Accepting :=
  if s.pool.lookup machineID = some i then
    { s.goto i (.disconnected machineID true) with
      pool := s.pool.filter fun e => e.1 ≠ machineID }
  else s.goto i (.disconnected machineID false)

/-- What a step does. -/
def act (s : Accepting) : AcceptEvent → Accepting
  | .tick now =>
    { s with
      now := if s.now ≤ now then now else s.now }
  | .conn i event => s.modify i fun c => c.step s.admissionToken s.now s.time event
  | .insert i =>
    match (s.conn i).phase with
    | .inserting machineID => s.insert i machineID
    | _ => s
  | .stop i =>
    match (s.conn i).phase with
    | .stopping machineID previous => (s.halt previous).goto i (.polling machineID)
    | _ => s
  | .remove i =>
    match (s.conn i).phase with
    | .removing machineID => s.removeIfCurrent i machineID
    | _ => s

/-- One step, which is counted. -/
def step (s : Accepting) (event : AcceptEvent) : Accepting :=
  { s.act event with
    time := s.time + 1 }

/-- Steps, one after the other. -/
def run (s : Accepting) (events : List AcceptEvent) : Accepting := events.foldl step s

end Accepting

/-! ## What the heartbeats of a session have in common -/

namespace GatewaySession

variable {now now' t : UInt64} {session session' : GatewaySession} {request : HeartbeatRequest}

/-- What lets a heartbeat in. -/
theorem secure_of_heartbeat (h : session.heartbeat t request = .ok session') :
    session.secure = true ∧ ∀ expected ∈ session.admissionToken, request.userToken = expected := by
  rw [heartbeat] at h
  cases hm : request.machineID with
  | none => simp [hm] at h
  | some machineID =>
    simp only [hm, unit_bind_eq_ok, check_eq_ok] at h
    obtain ⟨hsecure, htoken, -⟩ := h
    refine ⟨hsecure, fun expected hexpected => ?_⟩
    simpa [Option.mem_def.1 hexpected] using htoken

theorem Lived.mono (h : Lived now session) (hle : now ≤ now') : Lived now' session := by
  induction h with
  | new remoteURL secure admissionToken ht =>
    exact .new remoteURL secure admissionToken (UInt64.le_trans ht hle)
  | heartbeat _ ht hb ih => exact .heartbeat ih (UInt64.le_trans ht hle) hb

end GatewaySession

namespace Connection

/-- What holds of a connection, at any step: every heartbeat it has stored named the machine of the
current one, carried the token and came through a secure tunnel; and once the task has read a
machine id, it is that of the session. -/
structure Sound (admissionToken : Option String) (now : UInt64) (c : Connection) : Prop where
  absent : c.phase = .absent → c.session.secure = false ∧ c.stored = []
  configured : c.phase ≠ .absent → c.session.admissionToken = admissionToken
  lived : c.session.Lived now
  current : ∀ heartbeat ∈ c.session.state.heartbeat, heartbeat ∈ c.stored
  secure : ∀ heartbeat ∈ c.stored, c.session.secure = true
  named : ∀ heartbeat ∈ c.stored, ∃ m, heartbeat.machineID = some m ∧
    c.session.state.heartbeat.bind HeartbeatRequest.machineID = some m
  token : ∀ heartbeat ∈ c.stored, ∀ expected ∈ admissionToken, heartbeat.userToken = expected
  registered : ∀ m, c.phase.machineID? = some m → c.session.machineID = .ok m

variable {admissionToken : Option String} {now : UInt64} {time : Nat} {c : Connection}

theorem sound_absent : Sound admissionToken now .absent where
  absent _ := ⟨rfl, rfl⟩
  configured h := absurd rfl h
  lived := .new "" false none (Nat.zero_le _)
  current := by simp [Connection.absent, GatewaySession.new]
  secure := by simp [Connection.absent]
  named := by simp [Connection.absent]
  token := by simp [Connection.absent]
  registered := by simp [Connection.absent, AcceptPhase.machineID?]

/-- A step that leaves the session and its history alone, and moves the task no further than it may
go. -/
theorem Sound.frame (h : c.Sound admissionToken now) {c' : Connection}
    (hsession : c'.session = c.session) (hstored : c'.stored = c.stored)
    (habsent : c'.phase = .absent ↔ c.phase = .absent)
    (hphase : ∀ m, c'.phase.machineID? = some m → c.session.machineID = .ok m) :
    c'.Sound admissionToken now := by
  refine ⟨fun ha => ?_, fun ha => ?_, ?_, ?_, ?_, ?_, ?_, ?_⟩
  · rw [hsession, hstored]
    exact h.absent (habsent.1 ha)
  · rw [hsession]
    exact h.configured fun h' => ha (habsent.2 h')
  · rw [hsession]
    exact h.lived
  · rw [hsession, hstored]
    exact h.current
  · rw [hsession, hstored]
    exact h.secure
  · rw [hsession, hstored]
    exact h.named
  · rw [hstored]
    exact h.token
  · rw [hsession]
    exact hphase

theorem Sound.mono (h : c.Sound admissionToken now) {now' : UInt64} (hle : now ≤ now') :
    c.Sound admissionToken now' :=
  ⟨h.absent, h.configured, h.lived.mono hle, h.current, h.secure, h.named, h.token, h.registered⟩

theorem Sound.opened (h : c.Sound admissionToken now) (hphase : c.phase = .absent)
    (remoteURL : String) (secure : Bool) :
    ({ c with
        session := .new remoteURL secure admissionToken now
        running := true
        phase := .waiting } : Connection).Sound admissionToken now where
  absent ha := by simp at ha
  configured _ := rfl
  lived := .new remoteURL secure admissionToken (UInt64.le_refl now)
  current := by simp [GatewaySession.new]
  secure := by simp [(h.absent hphase).2]
  named := by simp [(h.absent hphase).2]
  token := by simp [(h.absent hphase).2]
  registered := by simp [AcceptPhase.machineID?]

/-- A heartbeat is let in only if it is like those before it. -/
theorem Sound.heartbeat (h : c.Sound admissionToken now) {request : HeartbeatRequest}
    {session : GatewaySession} (hb : c.session.heartbeat now request = .ok session) :
    ({ c with
        session
        unsent := c.unsent ++ [request]
        stored := c.stored ++ [request]
        firstAt := c.firstAt.or (some time) } : Connection).Sound admissionToken now := by
  obtain ⟨hsecure, htoken⟩ := GatewaySession.secure_of_heartbeat hb
  have hopen : c.phase ≠ .absent := by
    intro ha
    have hplain := (h.absent ha).1
    rw [hsecure] at hplain
    simp at hplain
  have hregistered : ∀ m, c.phase.machineID? = some m → session.machineID = .ok m := fun m hm =>
    GatewaySession.machineID_heartbeat (h.registered m hm) hb
  have hlived := h.lived.heartbeat (UInt64.le_refl now) hb
  obtain ⟨id, hid, hsame, rfl⟩ := GatewaySession.heartbeat_eq_ok hb
  refine ⟨fun ha => absurd ha hopen, fun _ => h.configured hopen, hlived, ?_, fun _ _ => hsecure,
    ?_, ?_, hregistered⟩
  · simp
  · intro heartbeat hmem
    refine ⟨id, ?_, hid⟩
    rcases List.mem_append.1 hmem with hold | hnew
    · obtain ⟨m, hm, hcurrent⟩ := h.named heartbeat hold
      rw [hm, hsame m hcurrent]
    · rw [List.mem_singleton.1 hnew, hid]
  · intro heartbeat hmem expected hexpected
    rcases List.mem_append.1 hmem with hold | hnew
    · exact h.token heartbeat hold expected hexpected
    · rw [List.mem_singleton.1 hnew]
      exact htoken expected (by rwa [h.configured hopen])

/-- A task that reads the state gets the machine id of the session, or ends. -/
theorem firstSnapshot_machineID? {m : Uuid} (h : c.firstSnapshot.machineID? = some m) :
    c.session.machineID = .ok m := by
  rw [firstSnapshot] at h
  split at h
  · simp [AcceptPhase.machineID?] at h
  · rename_i heartbeat hb
    split at h
    · simp [AcceptPhase.machineID?] at h
    · rename_i id hid
      obtain rfl : id = m := by simpa [AcceptPhase.machineID?] using h
      exact GatewaySession.machineID_eq_ok.2 (by simp [hb, hid])

theorem firstSnapshot_ne_absent : c.firstSnapshot ≠ .absent := by
  rw [firstSnapshot]
  split
  · simp
  · split <;> simp

/-- **Every step of a connection keeps it sound.** -/
theorem Sound.step (h : c.Sound admissionToken now) (event : ConnectionEvent) :
    (c.step admissionToken now time event).Sound admissionToken now := by
  cases event with
  | opened remoteURL secure =>
    rw [Connection.step]
    split
    next hphase => exact h.opened hphase remoteURL secure
    next => exact h
  | heartbeat request =>
    rw [Connection.step]
    split
    next => exact h
    next session hb => exact h.heartbeat hb
  | notify n =>
    rw [Connection.step]
    split
    next => exact h
    next => exact h.frame rfl rfl Iff.rfl h.registered
  | closed => exact h.frame rfl rfl Iff.rfl h.registered
  | wake =>
    rw [Connection.step]
    split
    next hphase _ => exact h.frame rfl rfl (by simp [hphase]) (by simp [AcceptPhase.machineID?])
    next => exact h
  | read =>
    rw [Connection.step]
    split
    next hphase =>
      exact h.frame rfl rfl (by simp [hphase, firstSnapshot_ne_absent])
        fun m hm => firstSnapshot_machineID? hm
    next => exact h
  | timeout =>
    rw [Connection.step]
    split
    next hphase => exact h.frame rfl rfl (by simp [hphase]) (by simp [AcceptPhase.machineID?])
    next hphase => exact h.frame rfl rfl (by simp [hphase]) (by simp [AcceptPhase.machineID?])
    next => exact h
  | giveUp =>
    rw [Connection.step]
    split
    next hphase _ => exact h.frame rfl rfl (by simp [hphase]) (by simp [AcceptPhase.machineID?])
    next => exact h
  | poll =>
    rw [Connection.step]
    split
    next m hphase _ =>
      refine h.frame rfl rfl (by simp [hphase]) fun m' hm' => h.registered m' ?_
      rw [hphase]
      exact hm'
    next => exact h

/-- Only steps on the pool put a session into it or take it out. -/
theorem step_pooled? (c : Connection) (event : ConnectionEvent) :
    (c.step admissionToken now time event).phase.pooled? = c.phase.pooled? := by
  have hfirst : c.firstSnapshot.pooled? = none := by
    rw [firstSnapshot]
    split
    · rfl
    · split <;> rfl
  cases event <;> rw [step]
  all_goals first | rfl | (split <;> simp_all [AcceptPhase.pooled?])

end Connection

/-! ## The invariant of the gateway -/

/-- The entry of a key that occurs once. -/
theorem lookup_of_mem {α : Type} {l : List (Uuid × α)} {key : Uuid} {a : α}
    (hnd : (l.map Prod.fst).Nodup) (h : (key, a) ∈ l) : l.lookup key = some a := by
  induction l with
  | nil => simp at h
  | cons e l ih =>
    rw [List.map_cons, List.nodup_cons] at hnd
    rcases List.mem_cons.1 h with rfl | h
    · simp
    · have hne : (key == e.1) = false := by
        rw [beq_eq_false_iff_ne]
        rintro rfl
        exact hnd.1 (List.mem_map.2 ⟨_, h, rfl⟩)
      rw [List.lookup_cons, hne]
      exact ih hnd.2 h

namespace Accepting

section

variable {s : Accepting} {i j : Nat} {f : Connection → Connection}

@[simp] theorem modify_conn_self : (s.modify i f).conn i = f (s.conn i) := if_pos rfl

theorem modify_conn_of_ne (h : j ≠ i) : (s.modify i f).conn j = s.conn j := if_neg h

@[simp] theorem modify_pool : (s.modify i f).pool = s.pool := rfl

@[simp] theorem goto_pool {phase : AcceptPhase} : (s.goto i phase).pool = s.pool := rfl

@[simp] theorem halt_pool : (s.halt i).pool = s.pool := rfl

/-- What a step can do. -/
theorem step_cases (s : Accepting) (event : AcceptEvent) :
    ((s.step event).conn = s.conn ∧ (s.step event).pool = s.pool) ∨
    (∃ i e, event = .conn i e ∧ (s.step event).pool = s.pool ∧ (s.step event).conn =
      (s.modify i fun c => c.step s.admissionToken s.now s.time e).conn) ∨
    (∃ i m, event = .insert i ∧ (s.conn i).phase = .inserting m ∧
      (s.step event).conn = (s.insert i m).conn ∧ (s.step event).pool = (s.insert i m).pool) ∨
    (∃ i m previous, event = .stop i ∧ (s.conn i).phase = .stopping m previous ∧
      (s.step event).pool = s.pool ∧
      (s.step event).conn = ((s.halt previous).goto i (.polling m)).conn) ∨
    ∃ i m, event = .remove i ∧ (s.conn i).phase = .removing m ∧
      (s.step event).conn = (s.removeIfCurrent i m).conn ∧
      (s.step event).pool = (s.removeIfCurrent i m).pool := by
  cases event with
  | tick now => exact .inl ⟨rfl, rfl⟩
  | conn i e => exact .inr (.inl ⟨i, e, rfl, rfl, rfl⟩)
  | insert i =>
    by_cases h : ∃ m, (s.conn i).phase = .inserting m
    · obtain ⟨m, hm⟩ := h
      exact .inr (.inr (.inl ⟨i, m, rfl, hm, by simp [step, act, hm], by simp [step, act, hm]⟩))
    · have hact : s.act (.insert i) = s := by
        rw [act]
        split
        next m hm => exact absurd ⟨m, hm⟩ h
        next => rfl
      exact .inl ⟨by rw [step, hact], by rw [step, hact]⟩
  | stop i =>
    by_cases h : ∃ m previous, (s.conn i).phase = .stopping m previous
    · obtain ⟨m, previous, hm⟩ := h
      exact .inr (.inr (.inr (.inl ⟨i, m, previous, rfl, hm, by simp [step, act, hm],
        by simp [step, act, hm]⟩)))
    · have hact : s.act (.stop i) = s := by
        rw [act]
        split
        next m previous hm => exact absurd ⟨m, previous, hm⟩ h
        next => rfl
      exact .inl ⟨by rw [step, hact], by rw [step, hact]⟩
  | remove i =>
    by_cases h : ∃ m, (s.conn i).phase = .removing m
    · obtain ⟨m, hm⟩ := h
      exact .inr (.inr (.inr (.inr ⟨i, m, rfl, hm, by simp [step, act, hm],
        by simp [step, act, hm]⟩)))
    · have hact : s.act (.remove i) = s := by
        rw [act]
        split
        next m hm => exact absurd ⟨m, hm⟩ h
        next => rfl
      exact .inl ⟨by rw [step, hact], by rw [step, hact]⟩

theorem insert_conn_self {m : Uuid} : (s.insert i m).conn i =
    { s.conn i with
      phase := afterInsert m (s.pool.lookup m)
      replaced := s.pool.lookup m } :=
  if_pos rfl

theorem insert_conn_of_ne {m : Uuid} (h : j ≠ i) : (s.insert i m).conn j = s.conn j := if_neg h

theorem goto_conn_of_ne {phase : AcceptPhase} (h : j ≠ i) : (s.goto i phase).conn j = s.conn j :=
  if_neg h

theorem halt_conn_of_ne (h : j ≠ i) : (s.halt i).conn j = s.conn j := if_neg h

theorem removeIfCurrent_conn_self {m : Uuid} : (s.removeIfCurrent i m).conn i =
    { s.conn i with
      phase := .disconnected m (decide (s.pool.lookup m = some i)) } := by
  rw [removeIfCurrent]
  split
  next h => simp [goto, h]
  next h => simp [goto, h]

theorem removeIfCurrent_conn_of_ne {m : Uuid} (h : j ≠ i) :
    (s.removeIfCurrent i m).conn j = s.conn j := by
  rw [removeIfCurrent]
  split
  · exact if_neg h
  · exact if_neg h

/-- The session of a connection, and what it has heard, change by its own steps only. -/
theorem step_conn_cases (s : Accepting) (event : AcceptEvent) (j : Nat) :
    (∃ e, event = .conn j e ∧
      (s.step event).conn j = (s.conn j).step s.admissionToken s.now s.time e) ∨
    (((s.step event).conn j).session = (s.conn j).session ∧
      ((s.step event).conn j).stored = (s.conn j).stored ∧
      ((s.step event).conn j).firstAt = (s.conn j).firstAt ∧
      (((s.step event).conn j).phase = .absent ↔ (s.conn j).phase = .absent) ∧
      ((s.step event).conn j).phase.machineID? = (s.conn j).phase.machineID?) := by
  obtain ⟨hconn, -⟩ | ⟨i, e, rfl, -, hconn⟩ | ⟨i, m, -, hphase, hconn, -⟩ |
    ⟨i, m, previous, -, hphase, -, hconn⟩ | ⟨i, m, -, hphase, hconn, -⟩ := s.step_cases event
  · exact .inr (by simp [hconn])
  · by_cases h : j = i
    · subst h
      exact .inl ⟨e, rfl, by rw [hconn, modify_conn_self]⟩
    · exact .inr (by simp [hconn, modify_conn_of_ne h])
  · refine .inr ?_
    by_cases h : j = i
    · subst h
      rw [hconn, insert_conn_self]
      cases hprev : s.pool.lookup m with
      | none => simp [hphase, afterInsert, AcceptPhase.machineID?]
      | some previous => simp [hphase, afterInsert, AcceptPhase.machineID?]
    · simp [hconn, insert_conn_of_ne h]
  · refine .inr ?_
    have hhalt : ((s.halt previous).conn j).session = (s.conn j).session ∧
        ((s.halt previous).conn j).stored = (s.conn j).stored ∧
        ((s.halt previous).conn j).firstAt = (s.conn j).firstAt ∧
        ((s.halt previous).conn j).phase = (s.conn j).phase := by
      by_cases h : j = previous
      · subst h
        simp [halt]
      · simp [halt_conn_of_ne h]
    by_cases h : j = i
    · subst h
      simp [hconn, goto, hhalt, hphase, AcceptPhase.machineID?]
    · simp [hconn, goto_conn_of_ne h, hhalt]
  · refine .inr ?_
    by_cases h : j = i
    · subst h
      simp [hconn, removeIfCurrent_conn_self, hphase, AcceptPhase.machineID?]
    · simp [hconn, removeIfCurrent_conn_of_ne h]

/-- Only the clock moves the time of day, and nothing the token. -/
theorem act_frame (s : Accepting) (event : AcceptEvent) :
    s.now ≤ (s.act event).now ∧ (s.act event).admissionToken = s.admissionToken := by
  cases event with
  | tick now =>
    refine ⟨?_, rfl⟩
    simp only [act]
    split
    · assumption
    · exact UInt64.le_refl s.now
  | conn i e => exact ⟨UInt64.le_refl s.now, rfl⟩
  | insert i =>
    rw [act]
    split <;> exact ⟨UInt64.le_refl s.now, rfl⟩
  | stop i =>
    rw [act]
    split <;> exact ⟨UInt64.le_refl s.now, rfl⟩
  | remove i =>
    rw [act]
    split
    · rw [removeIfCurrent]
      split <;> exact ⟨UInt64.le_refl s.now, rfl⟩
    · exact ⟨UInt64.le_refl s.now, rfl⟩

theorem step_now_le (s : Accepting) (event : AcceptEvent) : s.now ≤ (s.step event).now :=
  (s.act_frame event).1

@[simp] theorem step_admissionToken (s : Accepting) (event : AcceptEvent) :
    (s.step event).admissionToken = s.admissionToken :=
  (s.act_frame event).2

end

/-- The invariant: every connection is sound, a session stands in the pool under the machine id its
task has read, and no machine id occurs twice. -/
structure Sound (s : Accepting) : Prop where
  conns : ∀ i, (s.conn i).Sound s.admissionToken s.now
  pool : ∀ e ∈ s.pool, (s.conn e.2).phase.pooled? = some e.1
  keys : (s.pool.map Prod.fst).Nodup

theorem sound_start (now : UInt64) (admissionToken : Option String) :
    (start now admissionToken).Sound :=
  ⟨fun _ => Connection.sound_absent, by simp [start], List.nodup_nil⟩

variable {s : Accepting}

theorem Sound.step_conns (h : s.Sound) (event : AcceptEvent) (j : Nat) :
    ((s.step event).conn j).Sound (s.step event).admissionToken (s.step event).now := by
  rw [step_admissionToken]
  obtain ⟨e, rfl, hconn⟩ | ⟨hsession, hstored, -, habsent, hphase⟩ := s.step_conn_cases event j
  · rw [hconn]
    exact ((h.conns j).step e).mono (s.step_now_le _)
  · refine ((h.conns j).frame hsession hstored habsent fun m hm => ?_).mono (s.step_now_le event)
    exact (h.conns j).registered m (by rwa [hphase] at hm)

theorem Sound.mem_pool (h : s.Sound) {m m' : Uuid} {i : Nat} (hm : (m, i) ∈ s.pool)
    (hm' : (m', i) ∈ s.pool) : m = m' := by
  have hsame : some m = some m' := (h.pool (m, i) hm).symm.trans (h.pool (m', i) hm')
  exact Option.some.inj hsame

theorem Sound.insert_pool (h : s.Sound) {i : Nat} {m : Uuid}
    (hphase : (s.conn i).phase = .inserting m) :
    ∀ e ∈ (s.insert i m).pool, ((s.insert i m).conn e.2).phase.pooled? = some e.1 := by
  rintro ⟨k, j⟩ he
  rcases List.mem_cons.1 he with heq | hold
  · obtain ⟨rfl, rfl⟩ := Prod.mk.inj heq
    rw [insert_conn_self]
    cases s.pool.lookup k <;> rfl
  · have hold := h.pool _ (List.mem_of_mem_filter hold)
    have hj : j ≠ i := by
      rintro rfl
      simp [hphase, AcceptPhase.pooled?] at hold
    rw [insert_conn_of_ne hj]
    exact hold

/-- What is removed is the task's own entry, and no other entry is the task's. -/
theorem Sound.removeIfCurrent_pool (h : s.Sound) {i : Nat} {m : Uuid}
    (hphase : (s.conn i).phase = .removing m) :
    ∀ e ∈ (s.removeIfCurrent i m).pool,
      ((s.removeIfCurrent i m).conn e.2).phase.pooled? = some e.1 := by
  rintro ⟨k, j⟩ he
  have hmem : (k, j) ∈ s.pool ∧ (j = i → False) := by
    rw [removeIfCurrent] at he
    split at he
    next hcurrent =>
      obtain ⟨hmem, hk⟩ := List.mem_filter.1 he
      refine ⟨hmem, ?_⟩
      rintro rfl
      have hold := h.pool _ hmem
      rw [hphase] at hold
      simp_all [AcceptPhase.pooled?]
    next hcurrent =>
      refine ⟨he, ?_⟩
      rintro rfl
      have hold := h.pool _ he
      rw [hphase] at hold
      obtain rfl : m = k := by simpa [AcceptPhase.pooled?] using hold
      exact hcurrent (lookup_of_mem h.keys he)
  rw [removeIfCurrent_conn_of_ne hmem.2]
  exact h.pool _ hmem.1

theorem Sound.step_pool (h : s.Sound) (event : AcceptEvent) :
    ∀ e ∈ (s.step event).pool, ((s.step event).conn e.2).phase.pooled? = some e.1 := by
  obtain ⟨hconn, hpool⟩ | ⟨i, e, rfl, hpool, hconn⟩ | ⟨i, m, -, hphase, hconn, hpool⟩ |
    ⟨i, m, previous, -, hphase, hpool, hconn⟩ | ⟨i, m, -, hphase, hconn, hpool⟩ :=
      s.step_cases event
  · rw [hconn, hpool]
    exact h.pool
  · rw [hconn, hpool]
    rintro ⟨k, j⟩ he
    have hold := h.pool _ he
    by_cases hj : j = i
    · subst hj
      rw [modify_conn_self, Connection.step_pooled?]
      exact hold
    · rw [modify_conn_of_ne hj]
      exact hold
  · rw [hconn, hpool]
    exact h.insert_pool hphase
  · rw [hconn, hpool]
    rintro ⟨k, j⟩ he
    have hold := h.pool _ he
    have hhalt : ((s.halt previous).conn j).phase = (s.conn j).phase := by
      by_cases hj : j = previous
      · subst hj
        simp [halt]
      · rw [halt_conn_of_ne hj]
    by_cases hj : j = i
    · subst hj
      rw [hphase] at hold
      simpa [goto, AcceptPhase.pooled?] using hold
    · rw [goto_conn_of_ne hj, hhalt]
      exact hold
  · rw [hconn, hpool]
    exact h.removeIfCurrent_pool hphase

theorem Sound.step_keys (h : s.Sound) (event : AcceptEvent) :
    ((s.step event).pool.map Prod.fst).Nodup := by
  have hfilter : ∀ m, ((s.pool.filter fun e => e.1 ≠ m).map Prod.fst).Nodup := fun m =>
    h.keys.sublist (List.filter_sublist.map _)
  obtain ⟨-, hpool⟩ | ⟨i, e, -, hpool, -⟩ | ⟨i, m, -, -, -, hpool⟩ | ⟨i, m, previous, -, -, hpool, -⟩ |
    ⟨i, m, -, -, -, hpool⟩ := s.step_cases event
  · exact hpool ▸ h.keys
  · exact hpool ▸ h.keys
  · rw [hpool]
    refine List.nodup_cons.2 ⟨fun hmem => ?_, hfilter m⟩
    obtain ⟨e, he, hk⟩ := List.mem_map.1 hmem
    have hne := (List.mem_filter.1 he).2
    simp [hk] at hne
  · exact hpool ▸ h.keys
  · rw [hpool, removeIfCurrent]
    split
    · exact hfilter m
    · exact h.keys

/-- **A step keeps the invariant.** -/
theorem Sound.step (h : s.Sound) (event : AcceptEvent) : (s.step event).Sound :=
  ⟨h.step_conns event, h.step_pool event, h.step_keys event⟩

theorem Sound.run (h : s.Sound) (events : List AcceptEvent) : (s.run events).Sound := by
  induction events generalizing s with
  | nil => exact h
  | cons event events ih => exact ih (h.step event)

end Accepting

end NexusTier
