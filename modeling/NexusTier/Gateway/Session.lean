import NexusTier.Contract.Snapshot

/-!
# Sessions of the gateway

`session.rs` and `session_pool.rs`, as far as a collection depends on them: the heartbeat handler,
the snapshot of a session, and the pool of the sessions whose first heartbeat has been accepted.

A heartbeat is whatever the client puts into it.  What the gateway keeps is that it names a
machine, always the same one (`GatewaySession.heartbeat`), and that the times it notes are its own.
`Admitted` is what this comes to for a session in the pool, and `Gateway.Reachable.admitted` says
that it holds of each of them.

## What is here

* `GatewaySession` and `GatewaySession.heartbeat`: the handler, with its refusals in their order.
* `GatewaySession.Lived` and `Admitted`: a session as it may be, and as it may be in the pool.
* `Gateway.Reachable`: what can happen to a gateway, seen from its pool.
* `Gateway.Reachable.admitted`: so every session of the pool is admitted under its key, and no key
  occurs twice.

## What is left out

The other fields of a heartbeat, which are kept and never read, and the RPC service that hands it
over.
-/

set_option autoImplicit false

namespace NexusTier

/-- A `HeartbeatRequest`, as far as the gateway reads it. -/
structure HeartbeatRequest where
  machineID : Option Uuid
  userToken : String
  hostname : String
  easyTierVersion : String
  reportTime : String
  runningNetworkInstances : List Uuid
  deviceOS : Option Device
deriving DecidableEq

structure SessionState where
  remoteURL : String
  heartbeat : Option HeartbeatRequest
  connectedAtMS : UInt64
  lastHeartbeatAtMS : UInt64
deriving DecidableEq

/-- A session, with what its heartbeat service was created with. -/
structure GatewaySession where
  state : SessionState
  secure : Bool
  admissionToken : Option String
deriving DecidableEq

/-- Why a heartbeat is refused, or a session cannot be read. -/
inductive SessionError where
  | missingMachineID
  | insecure
  | tokenRejected
  | machineIDChanged
  | noHeartbeat
deriving DecidableEq

def SessionError.text : SessionError → String
  | missingMachineID => "heartbeat is missing machine_id"
  | insecure => "heartbeat requires a secure session"
  | tokenRejected => "heartbeat admission token was rejected"
  | machineIDChanged => "heartbeat machine_id changed during the session"
  | noHeartbeat => "session has not received a heartbeat"

namespace GatewaySession

/-- `GatewaySession::new`, at time `now`. -/
def new (remoteURL : String) (secure : Bool) (admissionToken : Option String) (now : UInt64) :
    GatewaySession where
  state := ⟨remoteURL, none, now, now⟩
  secure := secure
  admissionToken := admissionToken

/-- The heartbeat handler, at time `now`. -/
def heartbeat (now : UInt64) (request : HeartbeatRequest) (session : GatewaySession) :
    Except SessionError GatewaySession :=
  match request.machineID with
  | none => .error .missingMachineID
  | some machineID => do
    check (session.secure = true) .insecure
    check ((session.admissionToken.any fun expected => request.userToken != expected) = false)
      .tokenRejected
    check (((session.state.heartbeat.bind HeartbeatRequest.machineID).any fun current =>
      current != machineID) = false) .machineIDChanged
    return { session with
      state := { session.state with
        heartbeat := some request
        lastHeartbeatAtMS := now } }

/-- `SessionSnapshot`, and `GatewaySession::snapshot`. -/
def snapshot (session : GatewaySession) : Except SessionError (HeartbeatRequest × SessionState) :=
  match session.state.heartbeat with
  | none => .error .noHeartbeat
  | some heartbeat => .ok (heartbeat, session.state)

/-- `SessionSnapshot::machine_id`. -/
def machineID (session : GatewaySession) : Except SessionError Uuid := do
  let (heartbeat, _) ← session.snapshot
  match heartbeat.machineID with
  | none => .error .missingMachineID
  | some machineID => return machineID

/-! ## The life of a session -/

/-- A session as it may be at time `now`: created earlier, and changed by accepted heartbeats. -/
inductive Lived (now : UInt64) : GatewaySession → Prop
  | new (remoteURL : String) (secure : Bool) (admissionToken : Option String) {t : UInt64}
      (ht : t ≤ now) : Lived now (.new remoteURL secure admissionToken t)
  | heartbeat {session session' : GatewaySession} {request : HeartbeatRequest} {t : UInt64}
      (h : Lived now session) (ht : t ≤ now) (hb : session.heartbeat t request = .ok session') :
      Lived now session'

/-- A session that may be in the pool under `machineID` at time `now`: its heartbeat names the
machine, and its times have passed. -/
structure Admitted (now : UInt64) (machineID : Uuid) (session : GatewaySession) : Prop where
  names : session.state.heartbeat.bind HeartbeatRequest.machineID = some machineID
  connected_le : session.state.connectedAtMS ≤ now
  lastHeartbeat_le : session.state.lastHeartbeatAtMS ≤ now

variable {now now' t : UInt64} {session session' : GatewaySession} {request : HeartbeatRequest}
  {machineID : Uuid}

/-- What an accepted heartbeat has passed, and what it leaves. -/
theorem heartbeat_eq_ok (h : session.heartbeat t request = .ok session') :
    ∃ machineID, request.machineID = some machineID ∧
      (∀ current ∈ session.state.heartbeat.bind HeartbeatRequest.machineID,
        current = machineID) ∧
      session' = { session with
        state := { session.state with heartbeat := some request, lastHeartbeatAtMS := t } } := by
  rw [heartbeat] at h
  cases hm : request.machineID with
  | none => simp [hm] at h
  | some machineID =>
    simp only [hm, unit_bind_eq_ok, check_eq_ok] at h
    obtain ⟨_, _, hsame, heq⟩ := h
    refine ⟨machineID, rfl, fun current hcurrent => ?_, (Except.ok.inj heq).symm⟩
    simpa [Option.mem_def.1 hcurrent] using hsame

theorem Lived.times (h : Lived now session) :
    session.state.connectedAtMS ≤ now ∧ session.state.lastHeartbeatAtMS ≤ now := by
  induction h with
  | new remoteURL secure admissionToken ht => exact ⟨ht, ht⟩
  | heartbeat _ ht hb ih =>
    obtain ⟨_, _, _, rfl⟩ := heartbeat_eq_ok hb
    exact ⟨ih.1, ht⟩

/-- The machine id of a session is that of its heartbeat. -/
theorem machineID_eq_ok : session.machineID = .ok machineID ↔
    session.state.heartbeat.bind HeartbeatRequest.machineID = some machineID := by
  cases hb : session.state.heartbeat with
  | none => simp [GatewaySession.machineID, snapshot, hb, bind, Except.bind]
  | some request =>
    cases hid : request.machineID with
    | none => simp [GatewaySession.machineID, snapshot, hb, hid, bind, Except.bind]
    | some id =>
      simp [GatewaySession.machineID, snapshot, hb, hid, bind, Except.bind, pure, Except.pure]

/-- A session enters the pool admitted. -/
theorem Lived.admitted (h : Lived now session) (hm : session.machineID = .ok machineID) :
    Admitted now machineID session :=
  ⟨machineID_eq_ok.1 hm, h.times.1, h.times.2⟩

/-- An accepted heartbeat leaves the machine id of a session that has one. -/
theorem machineID_heartbeat (h : session.machineID = .ok machineID)
    (hb : session.heartbeat t request = .ok session') : session'.machineID = .ok machineID := by
  obtain ⟨id, hid, hsame, rfl⟩ := heartbeat_eq_ok hb
  have heq : machineID = id := hsame machineID (machineID_eq_ok.1 h)
  exact machineID_eq_ok.2 (by simp [hid, heq])

/-- A heartbeat leaves a session under its machine. -/
theorem Admitted.heartbeat (h : Admitted now machineID session)
    (hb : session.heartbeat now request = .ok session') : Admitted now machineID session' := by
  have hnames := machineID_heartbeat (machineID_eq_ok.2 h.names) hb
  obtain ⟨_, _, _, rfl⟩ := heartbeat_eq_ok hb
  exact ⟨machineID_eq_ok.1 hnames, h.connected_le, UInt64.le_refl now⟩

theorem Admitted.mono (h : Admitted now machineID session) (hle : now ≤ now') :
    Admitted now' machineID session :=
  ⟨h.names, UInt64.le_trans h.connected_le hle, UInt64.le_trans h.lastHeartbeat_le hle⟩

end GatewaySession

/-! ## The pool -/

/-- The gateway: its clock, and the sessions in its pool under their machine ids. -/
structure Gateway where
  now : UInt64
  pool : List (Uuid × GatewaySession)

namespace Gateway

/-- What can happen to the gateway: time passes, a session is inserted in place of its predecessor,
a heartbeat is accepted, a session is removed. -/
inductive Reachable : Gateway → Prop
  | start (now : UInt64) : Reachable ⟨now, []⟩
  | tick {g : Gateway} {t : UInt64} (h : Reachable g) (ht : g.now ≤ t) :
      Reachable { g with now := t }
  | insert {g : Gateway} {session : GatewaySession} {machineID : Uuid} (h : Reachable g)
      (hl : session.Lived g.now) (hm : session.machineID = .ok machineID) :
      Reachable { g with pool := (machineID, session) :: g.pool.filter fun e => e.1 ≠ machineID }
  | heartbeat {g : Gateway} {session session' : GatewaySession} {machineID : Uuid}
      {request : HeartbeatRequest} (h : Reachable g) (hmem : (machineID, session) ∈ g.pool)
      (hb : session.heartbeat g.now request = .ok session') :
      Reachable { g with
        pool := g.pool.map fun e => if e.1 = machineID then (machineID, session') else e }
  | remove {g : Gateway} (machineID : Uuid) (h : Reachable g) :
      Reachable { g with pool := g.pool.filter fun e => e.1 ≠ machineID }

/-- **Every session of the pool is admitted under its key, and no key occurs twice.** -/
theorem Reachable.admitted {g : Gateway} (h : Reachable g) :
    (g.pool.map Prod.fst).Nodup ∧ ∀ e ∈ g.pool, e.2.Admitted g.now e.1 := by
  induction h with
  | start now => exact ⟨List.nodup_nil, by simp⟩
  | tick _ ht ih => exact ⟨ih.1, fun e he => (ih.2 e he).mono ht⟩
  | @insert g session machineID _ hl hm ih =>
    have hsub : (g.pool.filter fun e => e.1 ≠ machineID).map Prod.fst |>.Sublist
        (g.pool.map Prod.fst) := (List.filter_sublist).map _
    refine ⟨?_, fun e he => ?_⟩
    · rw [List.map_cons, List.nodup_cons]
      refine ⟨fun hmem => ?_, ih.1.sublist hsub⟩
      obtain ⟨e, he, heq⟩ := List.mem_map.1 hmem
      have hne := (List.mem_filter.1 he).2
      simp [heq] at hne
    · rcases List.mem_cons.1 he with rfl | he
      · exact hl.admitted hm
      · exact ih.2 e (List.mem_of_mem_filter he)
  | @heartbeat g session session' machineID request _ hmem hb ih =>
    have hkeys : (g.pool.map fun e => if e.1 = machineID then (machineID, session') else e).map
        Prod.fst = g.pool.map Prod.fst := by
      rw [List.map_map]
      refine List.map_congr_left fun e _ => ?_
      by_cases he : e.1 = machineID
      · simp [he]
      · simp [he]
    refine ⟨hkeys.symm ▸ ih.1, fun e he => ?_⟩
    obtain ⟨e', he', rfl⟩ := List.mem_map.1 he
    split
    · exact (ih.2 _ hmem).heartbeat hb
    · exact ih.2 e' he'
  | remove machineID _ ih =>
    exact ⟨ih.1.sublist ((List.filter_sublist).map _),
      fun e he => ih.2 e (List.mem_of_mem_filter he)⟩

end Gateway

end NexusTier
