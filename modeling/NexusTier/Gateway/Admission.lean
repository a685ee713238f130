import NexusTier.Gateway.Accept
import NexusTier.Gateway.Accepted

/-!
# What it takes to be in the pool

A session in the pool came through a secure tunnel, and every heartbeat it has ever stored named
the machine it stands under and carried the admission token, however heartbeats and tasks have been
interleaved (`pool_admitted`).  So a collection can read every session it is given, and no machine
occurs twice in what it returns.

The pool of `Accepting` refines that of `Gateway`, which knows sessions only and nothing of the
tasks that insert and remove them (`reachable_gateway`): what has been proved of every reachable
`Gateway` holds of the gateway in every run of its tasks.

## What is here

* `AdmittedUnder`: what a session in the pool has behind it.
* `pool_admitted`: every session in the pool has it, in every run.
* `reachable_gateway`: the refinement, one step of the tasks being one or no step of the pool.

## What is left out

What makes a tunnel secure: that is a property of the tunnel, decided when it is opened.
-/

set_option autoImplicit false

namespace NexusTier

namespace Connection

variable {admissionToken : Option String} {now : UInt64} {time : Nat}

/-- A task does not forget the machine id it has read. -/
theorem step_machineID? {c : Connection} {m : Uuid} (h : c.phase.machineID? = some m)
    (event : ConnectionEvent) :
    (c.step admissionToken now time event).phase.machineID? = some m := by
  cases event <;> rw [step]
  all_goals first | exact h | (split <;> simp_all [AcceptPhase.machineID?])

/-- The session may stand in the pool under `key`. -/
structure AdmittedUnder (admissionToken : Option String) (key : Uuid) (c : Connection) : Prop where
  secure : c.session.secure = true
  heartbeat : c.session.state.heartbeat.isSome = true
  stored : ∀ heartbeat ∈ c.stored, heartbeat.machineID = some key ∧
    ∀ expected ∈ admissionToken, heartbeat.userToken = expected

theorem Sound.admitted {c : Connection} (h : c.Sound admissionToken now) {m : Uuid}
    (hm : c.phase.machineID? = some m) : c.session.Admitted now m :=
  h.lived.admitted (h.registered m hm)

theorem Sound.admittedUnder {c : Connection} (h : c.Sound admissionToken now) {m : Uuid}
    (hm : c.phase.machineID? = some m) : c.AdmittedUnder admissionToken m := by
  have hnames := (h.admitted hm).names
  obtain ⟨current, hcurrent, -⟩ := Option.bind_eq_some_iff.1 hnames
  refine ⟨h.secure current (h.current current hcurrent), by simp [hcurrent], fun heartbeat hmem => ?_⟩
  obtain ⟨m', hm', hname⟩ := h.named heartbeat hmem
  obtain rfl : m' = m := Option.some.inj (hname.symm.trans hnames)
  exact ⟨hm', h.token heartbeat hmem⟩

end Connection

namespace Accepting

variable {s : Accepting} {i : Nat} {m : Uuid}

theorem step_machineID? (h : (s.conn i).phase.machineID? = some m) (event : AcceptEvent) :
    ((s.step event).conn i).phase.machineID? = some m := by
  obtain ⟨e, -, hconn⟩ | ⟨-, -, -, -, hphase⟩ := s.step_conn_cases event i
  · rw [hconn]
    exact Connection.step_machineID? h e
  · rw [hphase]
    exact h

theorem run_machineID? (h : (s.conn i).phase.machineID? = some m) (events : List AcceptEvent) :
    ((s.run events).conn i).phase.machineID? = some m := by
  induction events generalizing s with
  | nil => exact h
  | cons event events ih => exact ih (step_machineID? h event)

theorem run_append (s : Accepting) (events events' : List AcceptEvent) :
    s.run (events ++ events') = (s.run events).run events' :=
  List.foldl_append

@[simp] theorem run_admissionToken (s : Accepting) (events : List AcceptEvent) :
    (s.run events).admissionToken = s.admissionToken := by
  induction events generalizing s with
  | nil => rfl
  | cons event events ih => exact (ih (s.step event)).trans (s.step_admissionToken event)

/-- A session that was in the pool at some time is still that of the machine it stood under. -/
theorem registered_of_pooled (h : s.Sound) {before events : List AcceptEvent}
    (hbefore : before <+: events) (hmem : (m, i) ∈ (s.run before).pool) :
    ((s.run events).conn i).phase.machineID? = some m := by
  obtain ⟨rest, rfl⟩ := hbefore
  rw [run_append]
  exact run_machineID? (AcceptPhase.machineID?_of_pooled? ((h.run before).pool _ hmem)) rest

/-- **The pool holds admitted sessions only.**  In every run, a session in the pool is secure, has
a heartbeat, and every heartbeat it has stored named the machine it stands under and carried the
admission token.

Hence a collection reads every session it is given: the list may have been put together over
several states of the pool, as long as no machine occurs twice in it.  And what the collection
returns has no machine twice. -/
theorem pool_admitted {PeerInfo : Type} (A : PairAccessors PeerInfo) (C : TelemetryCollector)
    (replies : Replies PeerInfo) (now : UInt64) (admissionToken : Option String)
    (events : List AcceptEvent) :
    (∀ e ∈ ((start now admissionToken).run events).pool,
      (((start now admissionToken).run events).conn e.2).AdmittedUnder admissionToken e.1) ∧
    ∀ sessions : List (Uuid × Nat), (sessions.map Prod.fst).Nodup →
      (∀ e ∈ sessions, ∃ before, before <+: events ∧
        e ∈ ((start now admissionToken).run before).pool) →
      ∀ (collectionID : Uuid) (schedule : List Event),
        let c := (Collection.start C ((start now admissionToken).run events).now collectionID
          (sessions.map fun e =>
            (e.1, (((start now admissionToken).run events).conn e.2).session))).run
              A C replies schedule
        (∀ e ∈ c.sessions, ∃ view, e.2.view = .ok view ∧ view.machineID = e.1) ∧
          ∀ snapshot, c.snapshot? = some snapshot →
            (snapshot.machines.elems.map fun machine => machine.session.machineID).Nodup := by
  have hsound := (sound_start now admissionToken).run events
  have hconns := hsound.conns
  rw [run_admissionToken] at hconns
  refine ⟨fun e he => ?_, fun sessions hnd hpooled collectionID schedule => ?_⟩
  · exact (hconns e.2).admittedUnder (AcceptPhase.machineID?_of_pooled? (hsound.pool e he))
  · have hkeys : ((sessions.map fun e => (e.1, (((start now admissionToken).run events).conn
        e.2).session)).map Prod.fst) = sessions.map Prod.fst := by
      simp
    have hstart : (Collection.start C ((start now admissionToken).run events).now collectionID
        (sessions.map fun e => (e.1, (((start now admissionToken).run events).conn
          e.2).session))).Sound A replies (sessions.map Prod.fst) := by
      rw [← hkeys]
      refine Collection.sound_start (hkeys ▸ hnd) fun e' he' => ?_
      obtain ⟨e, he, rfl⟩ := List.mem_map.1 he'
      obtain ⟨before, hbefore, hmem⟩ := hpooled e he
      exact (hconns e.2).admitted
        (registered_of_pooled (sound_start now admissionToken) hbefore hmem)
    have hc := hstart.run (C := C) schedule
    refine ⟨fun e he => ?_, fun snapshot hs => ?_⟩
    · obtain ⟨view, hview, hseen⟩ := (hc.admitted e he).view
      exact ⟨view, hview, hseen.machineID⟩
    · exact hc.nodup_machines hs

/-! ## The pool without the tasks -/

/-- The gateway as a collection sees it. -/
def gateway (s : Accepting) : Gateway :=
  ⟨s.now, s.pool.map fun e => (e.1, (s.conn e.2).session)⟩

/-- The session of a connection changes when it is created, and when a heartbeat is let in. -/
theorem step_session_cases (s : Accepting) (event : AcceptEvent) (j : Nat) :
    ((s.step event).conn j).session = (s.conn j).session ∨ (s.conn j).phase = .absent ∨
      ∃ request, (s.conn j).session.heartbeat s.now request =
        .ok ((s.step event).conn j).session := by
  obtain ⟨e, -, hconn⟩ | ⟨hsession, -⟩ := s.step_conn_cases event j
  · rw [hconn]
    cases e with
    | opened remoteURL secure =>
      rw [Connection.step]
      split
      next hphase => exact .inr (.inl hphase)
      next => exact .inl rfl
    | heartbeat request =>
      cases hb : (s.conn j).session.heartbeat s.now request with
      | error error => exact .inl (by simp [Connection.step, hb])
      | ok session => exact .inr (.inr ⟨request, by simp [Connection.step, hb]⟩)
    | notify | closed | wake | read | timeout | giveUp | poll =>
      rw [Connection.step]
      first | exact .inl rfl | (split <;> exact .inl rfl)
  · exact .inl hsession

/-- What a step makes of the sessions of a pool that it leaves alone. -/
theorem reachable_sessions (h : s.Sound) (hr : s.gateway.Reachable) (event : AcceptEvent) :
    Gateway.Reachable ⟨s.now, s.pool.map fun e => (e.1, ((s.step event).conn e.2).session)⟩ := by
  by_cases hsame : ∀ e ∈ s.pool, ((s.step event).conn e.2).session = (s.conn e.2).session
  · have hpool : (s.pool.map fun e => (e.1, ((s.step event).conn e.2).session)) =
        s.gateway.pool := List.map_congr_left fun e he => by rw [hsame e he]
    rw [hpool]
    exact hr
  · -- a heartbeat was let in, and only one session has it
    push Not at hsame
    obtain ⟨⟨m, i⟩, hmem, hne⟩ := hsame
    obtain heq | habsent | ⟨request, hb⟩ := s.step_session_cases event i
    · exact absurd heq hne
    · have hpooled := h.pool _ hmem
      rw [habsent] at hpooled
      simp [AcceptPhase.pooled?] at hpooled
    · have hone : ∀ e ∈ s.pool, (e.1, ((s.step event).conn e.2).session) =
          if e.1 = m then (m, ((s.step event).conn i).session)
          else (e.1, (s.conn e.2).session) := by
        intro e he
        by_cases hkey : e.1 = m
        · have hlookup : some e.2 = some i := by
            rw [← lookup_of_mem h.keys he, ← lookup_of_mem h.keys hmem, hkey]
          rw [if_pos hkey, hkey, Option.some.inj hlookup]
        · rw [if_neg hkey]
          obtain ⟨e', rfl, -⟩ | ⟨hkept, -⟩ := s.step_conn_cases event e.2
          · obtain ⟨e'', heq, -⟩ | ⟨hkept, -⟩ := s.step_conn_cases (.conn e.2 e') i
            · have he' : (e.1, i) ∈ s.pool := (AcceptEvent.conn.inj heq).1 ▸ he
              exact absurd (h.mem_pool he' hmem) hkey
            · exact absurd hkept hne
          · rw [hkept]
      have hpool : (s.pool.map fun e => (e.1, ((s.step event).conn e.2).session)) =
          s.gateway.pool.map fun e =>
            if e.1 = m then (m, ((s.step event).conn i).session) else e := by
        rw [gateway, List.map_map]
        exact List.map_congr_left hone
      rw [hpool]
      have hmem' : (m, (s.conn i).session) ∈ s.gateway.pool := List.mem_map.2 ⟨_, hmem, rfl⟩
      exact Gateway.Reachable.heartbeat hr hmem' hb

theorem reachable_step (h : s.Sound) (hr : s.gateway.Reachable) (event : AcceptEvent) :
    (s.step event).gateway.Reachable := by
  have hsame := reachable_sessions h hr event
  have hpool : Gateway.Reachable ⟨s.now, (s.step event).gateway.pool⟩ := by
    obtain ⟨-, hpool⟩ | ⟨i, e, -, hpool, -⟩ | ⟨i, m, rfl, hphase, hconn, hpool⟩ |
      ⟨i, m, previous, -, -, hpool, -⟩ | ⟨i, m, rfl, hphase, hconn, hpool⟩ := s.step_cases event
    · rwa [gateway, hpool]
    · rwa [gateway, hpool]
    · obtain ⟨e, heq, -⟩ | ⟨hsession, -⟩ := s.step_conn_cases (.insert i) i
      · simp at heq
      · have hlived := (h.conns i).lived
        have hregistered := (h.conns i).registered m (by rw [hphase]; rfl)
        rw [← hsession] at hlived hregistered
        have hinsert := hsame.insert hlived hregistered
        rw [gateway, hpool]
        simpa [insert, List.filter_map, Function.comp_def] using hinsert
    · rwa [gateway, hpool]
    · rw [gateway, hpool, removeIfCurrent]
      split
      · have hremove := hsame.remove m
        simpa [List.filter_map, Function.comp_def] using hremove
      · exact hsame
  exact hpool.tick (s.step_now_le event)

/-- **Every run of the tasks is one of the pool alone.** -/
theorem reachable_gateway (now : UInt64) (admissionToken : Option String)
    (events : List AcceptEvent) : ((start now admissionToken).run events).gateway.Reachable := by
  have hrun : ∀ (events : List AcceptEvent) (s : Accepting), s.Sound → s.gateway.Reachable →
      (s.run events).gateway.Reachable := by
    intro events
    induction events with
    | nil => exact fun s _ hr => hr
    | cons event events ih => exact fun s h hr => ih _ (h.step event) (reachable_step h hr event)
  exact hrun events _ (sound_start now admissionToken) (.start now)

/-! ### Two clients, one of them with the wrong token first -/

/-- A heartbeat with a token. -/
def tokenHeartbeat (machineID : Uuid) (userToken : String) : HeartbeatRequest :=
  { sampleHeartbeat machineID with
    userToken }

/-- The steps with which connection `i` registers, from its heartbeat on. -/
def registers (i : Nat) (machineID : Uuid) : List AcceptEvent :=
  [.conn i (.heartbeat (tokenHeartbeat machineID "token")), .conn i (.notify 0), .conn i .wake,
    .conn i .read, .insert i]

/-- Connection 0 is refused a heartbeat for its token and one for its machine id, connection 1 is
not secure, and connection 2 is like it should be. -/
def twoRegister : List AcceptEvent :=
  [.conn 0 (.opened "udp://203.0.113.10:42000" true),
    .conn 1 (.opened "udp://203.0.113.11:42000" false),
    .conn 2 (.opened "udp://203.0.113.12:42000" true),
    .conn 0 (.heartbeat (tokenHeartbeat 2 "guess"))] ++
  registers 0 1 ++ [.conn 0 (.heartbeat (tokenHeartbeat 2 "token"))] ++ registers 1 3 ++
  registers 2 2

theorem pool_admitted_twoRegister :
    ((start 1000 (some "token")).run twoRegister).pool = [(2, 2), (1, 0)] ∧
      (((start 1000 (some "token")).run twoRegister).conn 0).AdmittedUnder (some "token") 1 ∧
      ∃ snapshot, ((Collection.start sampleCollector
          ((start 1000 (some "token")).run twoRegister).now 0x11111111111141118111111111111111
          ([(1, 0), (2, 2)].map fun e =>
            (e.1, (((start 1000 (some "token")).run twoRegister).conn e.2).session))).run noPeers
              sampleCollector (oneInstanceEach (· + 10)) (secondFirst 1 2)).snapshot? =
          some snapshot ∧
        (snapshot.machines.elems.map fun machine => machine.session.machineID).Nodup := by
  have hpool : ((start 1000 (some "token")).run twoRegister).pool = [(2, 2), (1, 0)] := by
    decide +kernel
  obtain ⟨hadmitted, hcollect⟩ := pool_admitted noPeers sampleCollector (oneInstanceEach (· + 10))
    1000 (some "token") twoRegister
  refine ⟨hpool, hadmitted (1, 0) (by simp [hpool]), ?_⟩
  have hsessions : ∀ e ∈ [((1 : Uuid), 0), (2, 2)], ∃ before, before <+: twoRegister ∧
      e ∈ ((start 1000 (some "token")).run before).pool := by
    intro e he
    refine ⟨twoRegister, List.prefix_refl _, ?_⟩
    rw [hpool]
    simpa [or_comm] using he
  obtain ⟨-, hnodup⟩ := hcollect _ (by decide) hsessions 0x11111111111141118111111111111111
    (secondFirst 1 2)
  have hreturned : (((Collection.start sampleCollector
      ((start 1000 (some "token")).run twoRegister).now 0x11111111111141118111111111111111
      ([(1, 0), (2, 2)].map fun e =>
        (e.1, (((start 1000 (some "token")).run twoRegister).conn e.2).session))).run noPeers
          sampleCollector (oneInstanceEach (· + 10)) (secondFirst 1 2)).snapshot?).isSome := by
    decide +kernel
  obtain ⟨snapshot, hs⟩ := Option.isSome_iff_exists.1 hreturned
  exact ⟨snapshot, hs, hnodup snapshot hs⟩

end Accepting

end NexusTier
