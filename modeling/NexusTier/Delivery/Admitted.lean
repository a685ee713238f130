import NexusTier.Delivery.Deployment

/-!
# From the heartbeat to the row

A row of `machines` has come a long way: a client has sent a heartbeat, a task of the gateway has
put its session into the pool, a collection has read it, the worker has received the answer, and
`Ingest` has written it.  `machines_admitted` follows it back.  Whatever is interleaved, the columns
of a row are those of one heartbeat, which named the machine, carried the admission token and came
through a secure tunnel; and an instance is on a machine with such a heartbeat.

Every stage keeps, of each session view that it handles, where the view comes from
(`Accepting.Showed`).  The gateway keeps it so, since a session that has been inserted changes by
its own heartbeats only.

## What is here

* `Accepting.Showed`: a view is that of a heartbeat stored by a session that was inserted under its
  machine.
* `Shown`: every view on its way to the database is one, with a lemma for each stage.
* `machines_admitted`: so is every row, in every run of the whole.

## What is left out

What a client says of itself is not checked by anybody, and nothing is said about whether it is
true.
-/

set_option autoImplicit false

namespace NexusTier

/-! ## Views of stored heartbeats -/

/-- What a collection shows of a session, if `request` is its heartbeat, received at `t`. -/
def Connection.showing (m : Uuid) (request : HeartbeatRequest) (t : UInt64) (c : Connection) :
    Session where
  machineID := m
  remoteURL := c.session.state.remoteURL
  hostname := request.hostname
  easyTierVersion := request.easyTierVersion
  reportTime := request.reportTime
  connectedAtMS := c.session.state.connectedAtMS
  lastHeartbeatAtMS := t
  runningInstanceIDs := some request.runningNetworkInstances
  device := request.deviceOS

/-- The view is that of a heartbeat that a session inserted under `m` has stored. -/
def Accepting.Showed (s : Accepting) (m : Uuid) (view : Session) : Prop :=
  ∃ i request t, (s.conn i).phase.inserted? = some m ∧ request ∈ (s.conn i).stored ∧ t ≤ s.now ∧
    view = (s.conn i).showing m request t

namespace Connection

variable {admissionToken : Option String} {now : UInt64} {time : Nat} {c : Connection}

/-- What a session has once it is connected. -/
theorem step_connected (h : c.phase ≠ .absent) (event : ConnectionEvent) :
    (c.step admissionToken now time event).session.state.remoteURL = c.session.state.remoteURL ∧
      (c.step admissionToken now time event).session.state.connectedAtMS =
        c.session.state.connectedAtMS ∧
      c.stored ⊆ (c.step admissionToken now time event).stored := by
  cases event with
  | opened remoteURL secure =>
    rw [step]
    split
    next habsent => exact absurd habsent h
    next => exact ⟨rfl, rfl, List.Subset.refl _⟩
  | heartbeat request =>
    rw [step]
    split
    next => exact ⟨rfl, rfl, List.Subset.refl _⟩
    next session hb =>
      obtain ⟨_, _, _, rfl⟩ := GatewaySession.heartbeat_eq_ok hb
      exact ⟨rfl, rfl, List.subset_append_left _ _⟩
  | notify | closed | wake | read | timeout | giveUp | poll =>
    rw [step]
    first
    | exact ⟨rfl, rfl, List.Subset.refl _⟩
    | split <;> exact ⟨rfl, rfl, List.Subset.refl _⟩

/-- A session that has been inserted shows a heartbeat that it has stored. -/
theorem Sound.view (h : c.Sound admissionToken now) {m : Uuid}
    (hm : c.phase.inserted? = some m) : ∃ request t, request ∈ c.stored ∧ t ≤ now ∧
      c.session.view = .ok (c.showing m request t) := by
  have hregistered := h.registered m (AcceptPhase.machineID?_of_inserted? hm)
  have hnames := GatewaySession.machineID_eq_ok.1 hregistered
  obtain ⟨request, hrequest, hid⟩ := Option.bind_eq_some_iff.1 hnames
  refine ⟨request, c.session.state.lastHeartbeatAtMS, h.current request hrequest,
    h.lived.times.2, ?_⟩
  simp [GatewaySession.view, GatewaySession.snapshot, hrequest, hid, showing, bind, Except.bind,
    pure, Except.pure]

end Connection

theorem Accepting.Showed.step {s : Accepting} {m : Uuid} {view : Session} (h : s.Showed m view)
    (event : AcceptEvent) : (s.step event).Showed m view := by
  obtain ⟨i, request, t, hinserted, hstored, ht, rfl⟩ := h
  have hopen : (s.conn i).phase ≠ .absent := by
    intro habsent
    simp [habsent, AcceptPhase.inserted?] at hinserted
  have hkept : ((s.step event).conn i).session.state.remoteURL =
        (s.conn i).session.state.remoteURL ∧
      ((s.step event).conn i).session.state.connectedAtMS =
        (s.conn i).session.state.connectedAtMS ∧
      (s.conn i).stored ⊆ ((s.step event).conn i).stored := by
    obtain ⟨e, -, hconn⟩ | ⟨hsession, hstored', -⟩ := s.step_conn_cases event i
    · rw [hconn]
      exact Connection.step_connected hopen e
    · exact ⟨by rw [hsession], by rw [hsession], hstored' ▸ List.Subset.refl _⟩
  refine ⟨i, request, t, step_inserted? hinserted event, hkept.2.2 hstored,
    UInt64.le_trans ht (s.step_now_le event), ?_⟩
  rw [Connection.showing, Connection.showing, hkept.1, hkept.2.1]

/-! ## Views in a collection -/

/-- What the task of a session has so far shows the session as `P` says. -/
def Phase.Shows (P : Session → Prop) : Phase → Prop
  | starting => True
  | listing view => P view
  | collecting view _ _ => P view
  | finished machine => P machine.session
  | panicked _ => True

/-- Every view of a collection is as `P` says. -/
structure Collection.Shows (P : Uuid → Session → Prop) (c : Collection) : Prop where
  tasks : ∀ t ∈ c.tasks, t.2.Shows (P t.1)
  machines : ∀ machine ∈ c.machines, ∃ key, P key machine.session

section

variable {PeerInfo : Type} {A : PairAccessors PeerInfo} {C : TelemetryCollector}
  {replies : Replies PeerInfo}

theorem Phase.Shows.mono {P Q : Session → Prop} {phase : Phase} (h : phase.Shows P)
    (hPQ : ∀ view, P view → Q view) : phase.Shows Q := by
  cases phase with
  | starting | panicked => trivial
  | listing view => exact hPQ view h
  | collecting view todo insts => exact hPQ view h
  | finished machine => exact hPQ machine.session h

theorem Phase.Shows.advance {P : Session → Prop} {phase : Phase} (h : phase.Shows P)
    {session : GatewaySession} (hview : ∃ view, session.view = .ok view ∧ P view)
    (r : MachineReplies PeerInfo) (now : UInt64) : (phase.advance A r now session).Shows P := by
  cases phase with
  | starting =>
    obtain ⟨view, hview, hP⟩ := hview
    simp only [Phase.advance, hview]
    exact hP
  | listing view =>
    have hP : P view := h
    cases hr : r.instances with
    | ok ids =>
      simp only [Phase.advance, hr]
      exact hP
    | error message =>
      simp only [Phase.advance, hr]
      exact hP
    | timeout =>
      simp only [Phase.advance, hr]
      exact hP
  | collecting view todo insts =>
    cases todo with
    | nil => exact h
    | cons id todo => exact h
  | finished machine => exact h
  | panicked message => trivial

theorem Phase.Shows.panic {P : Session → Prop} {phase : Phase} (h : phase.Shows P)
    (message : String) : (Collection.panicPhase message phase).Shows P := by
  cases phase with
  | finished machine => exact h
  | starting | listing | collecting | panicked => trivial

namespace Collection

variable {P Q : Uuid → Session → Prop} {c : Collection}

theorem Shows.mono (h : c.Shows P) (hPQ : ∀ key view, P key view → Q key view) : c.Shows Q :=
  ⟨fun t ht => (h.tasks t ht).mono (hPQ t.1),
    fun machine hm => (h.machines machine hm).imp fun key => hPQ key machine.session⟩

theorem shows_listed (startedAtMS now : UInt64) (collectionID : Uuid)
    (sessions : List (Uuid × GatewaySession)) :
    (listed C startedAtMS now collectionID sessions).Shows P := by
  refine ⟨fun t ht => ?_, by simp [listed, start]⟩
  rcases (@spawnUpTo_spec C.machineConcurrency (sessions.map Prod.fst) []).2 t ht with hold | hnew
  · simp at hold
  · rw [hnew]
    trivial

theorem Shows.spawnNext (h : c.Shows P) : c.spawnNext.Shows P := by
  refine ⟨forall_spawnNext (P := fun key phase => phase.Shows (P key)) h.tasks fun _ => trivial,
    fun machine hm => h.machines machine ?_⟩
  rw [Collection.spawnNext] at hm
  split at hm <;> exact hm

theorem Shows.join (h : c.Shows P) (key : Uuid) : (c.join key).Shows P := by
  have hdrop : ∀ t ∈ (c.dropTask key).tasks, t.2.Shows (P t.1) :=
    fun t ht => h.tasks t (List.mem_of_mem_filter ht)
  rw [Collection.join]
  split
  next machine hl =>
    refine Shows.spawnNext ⟨hdrop, fun m hm => ?_⟩
    rcases List.mem_append.1 hm with hm | hm
    · exact h.machines m hm
    · obtain rfl := List.mem_singleton.1 hm
      exact ⟨key, h.tasks _ (mem_of_lookup hl)⟩
  next => exact Shows.spawnNext ⟨hdrop, h.machines⟩
  next => exact h

/-- **An event shows sessions as they are.** -/
theorem Shows.step (h : c.Shows P)
    (hview : ∀ e ∈ c.sessions, ∃ view, e.2.view = .ok view ∧ P e.1 view) (event : Event) :
    (c.step A C replies event).Shows P := by
  cases event with
  | tick | heartbeat => exact ⟨h.tasks, h.machines⟩
  | advance key =>
    simp only [Collection.step]
    split
    next session hsession =>
      refine ⟨forall_mapTask (P := fun key phase => phase.Shows (P key)) h.tasks
        fun phase hphase => ?_, h.machines⟩
      exact hphase.advance (hview _ (mem_of_lookup hsession)) _ _
    next => exact h
  | panic key message =>
    exact ⟨forall_mapTask (P := fun key phase => phase.Shows (P key)) h.tasks
      fun phase hphase => hphase.panic message, h.machines⟩
  | join key => exact h.join key
  | deadline =>
    simp only [Collection.step, deadline]
    split
    · exact h
    · exact ⟨by simp, h.machines⟩

theorem Shows.snapshot (h : c.Shows P) {snapshot : Snapshot} (hs : c.snapshot? = some snapshot) :
    ∀ machine ∈ snapshot.machines.elems, ∃ key, P key machine.session := by
  rw [snapshot?] at hs
  split at hs
  · obtain rfl := Option.some.inj hs
    have hperm : (sortMachines c.machines).Perm c.machines := List.perm_insertionSort _ _
    exact fun machine hm => h.machines machine (hperm.mem_iff.1 hm)
  · simp at hs

end Collection

end

/-! ## The run of the whole -/

namespace Deployment

variable {PeerInfo : Type} {A : PairAccessors PeerInfo} {C : TelemetryCollector} {codec : Codec}
  {E : Encoding} {past : List Accepting} {d : Deployment PeerInfo}

/-- Every view on its way to the database is that of a stored heartbeat. -/
structure Shown (d : Deployment PeerInfo) : Prop where
  collecting : ∀ c ∈ d.collecting, c.collection.Shows d.gateway.Showed
  answers : ∀ topology ∈ d.answers, ∀ machine ∈ topology.received.machines.elems,
    ∃ key, d.gateway.Showed key machine.session

/-- The sessions that a collection holds can be read, and show their heartbeats. -/
theorem Sound.views (h : d.Sound A C E past) {c : Collecting PeerInfo} (hc : c ∈ d.collecting) :
    ∀ e ∈ c.collection.sessions, ∃ view, e.2.view = .ok view ∧ d.gateway.Showed e.1 view := by
  intro e he
  have hfollows := h.collecting c hc
  rw [hfollows.sessions] at he
  obtain ⟨⟨m, i⟩, hheld, rfl⟩ := List.mem_map.1 he
  have hinserted := hfollows.inserted _ hheld
  obtain ⟨request, t, hstored, ht, hview⟩ := (h.gateway.conns i).view hinserted
  exact ⟨_, hview, i, request, t, hinserted, hstored, ht, rfl⟩

theorem Shown.step (h : d.Shown) (hs : d.Sound A C E past) (event : DeploymentEvent PeerInfo) :
    (d.step A C codec E event).Shown := by
  cases event with
  | accept event =>
    refine ⟨fun c hc => ?_, fun topology ht machine hm => ?_⟩
    · obtain ⟨c', hc', rfl⟩ := Option.map_eq_some_iff.1 hc
      have hold := (h.collecting c' hc').mono fun key view hv => hv.step event
      exact ⟨hold.tasks, hold.machines⟩
    · obtain ⟨key, hv⟩ := h.answers topology ht machine hm
      exact ⟨key, hv.step event⟩
  | begin collectionID =>
    rw [Deployment.step]
    split
    next => exact ⟨h.collecting, h.answers⟩
    next => exact h
  | visit keys => exact ⟨h.collecting, h.answers⟩
  | listed held replies =>
    rw [Deployment.step]
    split
    next => exact h
    next =>
      split
      next =>
        refine ⟨fun c hc => ?_, h.answers⟩
        obtain rfl := Option.some.inj hc
        exact Collection.shows_listed _ _ _ _
      next => exact h
  | collect event =>
    rw [Deployment.step]
    split
    next =>
      refine ⟨fun c hc => ?_, h.answers⟩
      obtain ⟨c', hc', rfl⟩ := Option.map_eq_some_iff.1 hc
      exact (h.collecting c' hc').step (hs.views hc') event
    next => exact h
  | answer topology =>
    rw [Deployment.step]
    split
    next => exact h
    next c hc =>
      split
      next hsnapshot =>
        refine ⟨by simp, fun t ht => ?_⟩
        rcases List.mem_append.1 ht with ht | ht
        · exact h.answers t ht
        · obtain rfl := List.mem_singleton.1 ht
          exact (h.collecting c hc).snapshot hsnapshot
      next => exact h
  | poll now n =>
    rw [Deployment.step]
    split
    next => exact h
    next =>
      split
      next => exact h
      next => exact ⟨h.collecting, h.answers⟩
  | retain op =>
    cases op with
    | ingest => exact h
    | deleteMetricSamples | prunePayloads => exact ⟨h.collecting, h.answers⟩

theorem shown_run (hC : codec.Exact) (now : UInt64) (admissionToken : Option String)
    (events : List (DeploymentEvent PeerInfo)) :
    ((start now admissionToken).run A C codec E events).Shown := by
  induction events using List.reverseRecOn with
  | nil => exact ⟨by simp [run, start], by simp [run, start]⟩
  | append_singleton events event ih =>
    rw [run, List.foldl_append]
    exact ih.step (E := E) (sound_run (A := A) (C := C) (E := E) hC now admissionToken events) event

theorem step_admissionToken (d : Deployment PeerInfo) (event : DeploymentEvent PeerInfo) :
    (d.step A C codec E event).gateway.admissionToken = d.gateway.admissionToken := by
  cases event with
  | accept event => exact d.gateway.step_admissionToken event
  | visit keys => rfl
  | begin | collect =>
    rw [Deployment.step]
    split <;> rfl
  | listed | answer =>
    rw [Deployment.step]
    split
    · rfl
    · split <;> rfl
  | poll now n =>
    rw [Deployment.step]
    split
    · rfl
    · split <;> rfl
  | retain op => cases op <;> rfl

theorem run_admissionToken (now : UInt64) (admissionToken : Option String)
    (events : List (DeploymentEvent PeerInfo)) :
    ((start now admissionToken).run A C codec E events).gateway.admissionToken =
      admissionToken := by
  induction events using List.reverseRecOn with
  | nil => rfl
  | append_singleton events event ih =>
    rw [run, List.foldl_append]
    exact (step_admissionToken _ event).trans ih

/-- The session of every machine in an answer is that of a stored heartbeat. -/
theorem Shown.session (h : d.Shown) {topology : Telemetry.TopologySnapshot}
    (ht : topology ∈ d.answers) {machine : Machine}
    (hm : machine ∈ topology.received.machines.elems) :
    d.gateway.Showed machine.session.machineID machine.session := by
  obtain ⟨key, hv⟩ := h.answers topology ht machine hm
  have hkey : machine.session.machineID = key := by
    obtain ⟨_, _, _, -, -, -, heq⟩ := hv
    rw [heq, Connection.showing]
  exact hkey ▸ hv

/-- A row of `machines` is that of a machine in an answer. -/
theorem Fed.machineRow (h : d.Fed E) {id : Uuid} {row : MachineRow}
    (hrow : d.db.machines[id]? = some row) : ∃ topology ∈ d.answers,
      ∃ machine ∈ topology.received.machines.elems, machine.session.machineID = id ∧
        row.value = machineColumns machine := by
  obtain ⟨ops, hdb, hfed⟩ := h
  rw [hdb] at hrow
  obtain ⟨r, hr, hcases⟩ := machines_reported E ops id row hrow
  obtain ⟨s, hs, hr⟩ := List.mem_flatMap.1 hr
  obtain ⟨machine, hm, rfl⟩ := List.mem_map.1 hr
  obtain ⟨hmem, hid⟩ := List.mem_filter.1 hm
  obtain ⟨topology, ht, rfl⟩ := hfed s hs
  refine ⟨topology, ht, machine, hmem, by simpa using hid, ?_⟩
  rcases hcases with rfl | ⟨_, _, _, _, rfl⟩ <;> rfl

/-- So is a row of `network_instances`, with an instance of that machine. -/
theorem Fed.instanceRow (h : d.Fed E) {id : Uuid} {row : InstanceRow}
    (hrow : d.db.networkInstances[id]? = some row) : ∃ topology ∈ d.answers,
      ∃ machine ∈ topology.received.machines.elems,
        machine.session.machineID = row.value.machineID ∧ id ∈ machine.instanceIDs := by
  obtain ⟨ops, hdb, hfed⟩ := h
  rw [hdb] at hrow
  obtain ⟨r, hr, hcases⟩ := instances_reported E ops id row hrow
  obtain ⟨s, hs, hr⟩ := List.mem_flatMap.1 hr
  obtain ⟨machine, hm, hr⟩ := List.mem_flatMap.1 hr
  obtain ⟨inst, hinst, rfl⟩ := List.mem_map.1 hr
  obtain ⟨hmem, hid⟩ := List.mem_filter.1 hinst
  obtain ⟨topology, ht, rfl⟩ := hfed s hs
  refine ⟨topology, ht, machine, hm, ?_, ?_⟩
  · rcases hcases with rfl | ⟨_, _, _, _, rfl⟩ <;> rfl
  · obtain rfl : inst.instanceID = id := by simpa using hid
    exact List.mem_map_of_mem hmem

/-- A session inserted under an id has been admitted under it. -/
theorem Sound.admittedUnder (h : d.Sound A C E past) {i : Nat} {m : Uuid}
    (hm : (d.gateway.conn i).phase.inserted? = some m) :
    (d.gateway.conn i).AdmittedUnder d.gateway.admissionToken m := by
  refine (h.gateway.conns i).admittedUnder ?_
  cases hphase : (d.gateway.conn i).phase <;>
    simp_all [AcceptPhase.inserted?, AcceptPhase.machineID?]

/-- **The database shows admitted clients only, and as they have said.**  In every run, the columns
of a machine are those of one heartbeat, stored by a session that has been in the pool under the
machine's id; and the machine of an instance has had such a session.  These sessions came through
secure tunnels, and all their heartbeats named the machine and carried the admission token. -/
theorem machines_admitted (A : PairAccessors PeerInfo) (C : TelemetryCollector) (E : Encoding)
    (hC : codec.Exact) (now : UInt64) (admissionToken : Option String)
    (events : List (DeploymentEvent PeerInfo)) :
    let d := (start now admissionToken).run A C codec E events
    (∀ (id : Uuid) row, d.db.machines[id]? = some row → ∃ (i : Nat) (request : HeartbeatRequest)
      (t : UInt64) (machine : Machine), (d.gateway.conn i).phase.inserted? = some id ∧
        (d.gateway.conn i).AdmittedUnder admissionToken id ∧
        request ∈ (d.gateway.conn i).stored ∧ t ≤ d.gateway.now ∧
        machine.session = (d.gateway.conn i).showing id request t ∧
        row.value = machineColumns machine) ∧
    ∀ (id : Uuid) row, d.db.networkInstances[id]? = some row → ∃ i : Nat,
      (d.gateway.conn i).phase.inserted? = some row.value.machineID ∧
      (d.gateway.conn i).AdmittedUnder admissionToken row.value.machineID := by
  intro d
  have hsound := sound_run (A := A) (C := C) (E := E) hC now admissionToken events
  have hshown := shown_run (A := A) (C := C) (E := E) hC now admissionToken events
  have hadmitted : ∀ i m, (d.gateway.conn i).phase.inserted? = some m →
      (d.gateway.conn i).AdmittedUnder admissionToken m := by
    intro i m hm
    have hunder := hsound.admittedUnder hm
    rwa [run_admissionToken] at hunder
  refine ⟨fun id row hrow => ?_, fun id row hrow => ?_⟩
  · obtain ⟨topology, ht, machine, hm, rfl, hcolumns⟩ := hsound.fed.machineRow hrow
    obtain ⟨i, request, t, hinserted, hstored, hle, heq⟩ := hshown.session ht hm
    exact ⟨i, request, t, machine, hinserted, hadmitted i _ hinserted, hstored, hle, heq, hcolumns⟩
  · obtain ⟨topology, ht, machine, hm, hid, -⟩ := hsound.fed.instanceRow hrow
    obtain ⟨i, -, -, hinserted, -⟩ := hshown.session ht hm
    rw [← hid]
    exact ⟨i, hinserted, hadmitted i _ hinserted⟩

theorem machines_admitted_wholeRun :
    ∃ row, ((start 1000 (some "token")).run noPeers sampleCollector plainCodec sampleEncoding
        wholeRun).db.machines[(2 : Uuid)]? = some row ∧ row.value.hostname = "edge-2" ∧
      ∃ i request, (((start 1000 (some "token")).run noPeers sampleCollector plainCodec
          sampleEncoding wholeRun).gateway.conn i).AdmittedUnder (some "token") 2 ∧
        request ∈ (((start 1000 (some "token")).run noPeers sampleCollector plainCodec
          sampleEncoding wholeRun).gateway.conn i).stored := by
  obtain ⟨hmachines, -⟩ := machines_admitted noPeers sampleCollector sampleEncoding
    plainCodec_exact 1000 (some "token") wholeRun
  have hname : ((start 1000 (some "token")).run noPeers sampleCollector plainCodec sampleEncoding
      wholeRun).db.machines[(2 : Uuid)]?.map (fun row => row.value.hostname) = some "edge-2" := by
    decide +kernel
  obtain ⟨row, hrow, hname⟩ := Option.map_eq_some_iff.1 hname
  obtain ⟨i, request, -, -, -, hadmitted, hstored, -⟩ := hmachines 2 row hrow
  exact ⟨row, hrow, hname, i, request, hadmitted, hstored⟩

end Deployment

end NexusTier
