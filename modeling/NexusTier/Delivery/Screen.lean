import NexusTier.Delivery.Admitted
import NexusTier.Delivery.Display
import NexusTier.ReadModel.Interleaved
import NexusTier.Webui.Filters

/-!
# From the client to the screen

The browser is the last party.  Its requests are answered by queries that see the database at
different times, the responses come in late and in any order, and meanwhile clients connect, answers
are polled, and the user clicks.  What is on the screen may be old, or a mixture of old and new.

It is not made up.  `screen_admitted` follows each machine on the screen back to a heartbeat that an
admitted session has stored, and each instance below it to an answer of the gateway that has it
under this machine.

## What is here

* `Site` and `Site.step`: the whole system with a browser.
* `Looks`: which states the queries of one request see.
* `Db.Told` and `Db.Told.page`: rows and pages that come from answers.
* `screen_admitted`: the screen, in every run.

## What is left out

Sessions of users: the browser is logged in, and stays so.
-/

set_option autoImplicit false

namespace NexusTier

open ReadModel Webui
open Telemetry (TopologySnapshot)

/-! ## The system with its browser -/

/-- Which of the states that the database has had the queries of a call see. -/
structure Looks where
  latest : Nat
  errors : Nat
  machines : Nat
  instances : Nat
  peers : Nat

/-- The states themselves, if the queries come one after the other. -/
def momentsAt (past : List Db) (looks : Looks) : Option Moments := do
  guard (looks.latest ≤ looks.errors ∧ looks.errors ≤ looks.machines ∧
    looks.machines ≤ looks.instances ∧ looks.instances ≤ looks.peers)
  let latest ← past[looks.latest]?
  let errors ← past[looks.errors]?
  let machines ← past[looks.machines]?
  let instances ← past[looks.instances]?
  let peers ← past[looks.peers]?
  return ⟨latest, errors, machines, instances, peers⟩

structure Site (PeerInfo : Type) where
  deployment : Deployment PeerInfo
  /-- The states that the database has had, the last one included. -/
  past : List Db
  hook : FilteredTopology

inductive SiteEvent (PeerInfo : Type) where
  /-- A step of the gateway, the controller or the database. -/
  | system (event : DeploymentEvent PeerInfo)
  | refresh
  | loadMore
  | changeFilter (value : Option Bool)
  /-- The response to the `i`-th of the requests comes in; the controller made it at time `now`. -/
  | arrive (i : Nat) (now : Timestamp) (looks : Looks)
  | fail (i : Nat) (message : String)

namespace Site

section

variable {PeerInfo : Type} (A : PairAccessors PeerInfo) (C : TelemetryCollector) (codec : Codec)
  (E : Encoding)

def start (now : UInt64) (admissionToken : Option String) : Site PeerInfo :=
  ⟨.start now admissionToken, [Db.empty], .start⟩

/-- The response to the `i`-th of the requests, as the hook sees it. -/
def response (s : Site PeerInfo) (i : Nat) (now : Timestamp) (looks : Looks) :
    Option FilterEvent := do
  let request ← s.hook.requests[i]?
  let moments ← momentsAt s.past looks
  match currentTopologyAt now (pageQuery request.activeFilter request.cursor) moments with
  | .ok page => return .arrive i page
  | .error _ => return .fail i "HTTP 503"

/-- One step. -/
def step (s : Site PeerInfo) : SiteEvent PeerInfo → Site PeerInfo
  | .system event =>
    let deployment := s.deployment.step A C codec E event
    { s with
      deployment
      past := s.past ++ [deployment.db] }
  | .refresh =>
    { s with
      hook := s.hook.step .refresh }
  | .loadMore =>
    { s with
      hook := s.hook.step .loadMore }
  | .changeFilter value =>
    { s with
      hook := s.hook.step (.changeFilter value) }
  | .arrive i now looks =>
    match s.response i now looks with
    | none => s
    | some event =>
      { s with
        hook := s.hook.step event }
  | .fail i message =>
    { s with
      hook := s.hook.step (.fail i message) }

/-- Steps, one after the other. -/
def run (s : Site PeerInfo) (events : List (SiteEvent PeerInfo)) : Site PeerInfo :=
  events.foldl (step A C codec E) s

/-- The machines that the page draws. -/
def screen (s : Site PeerInfo) : List ReadModel.Machine :=
  (s.hook.data.map fun data => data.machines.map Sourced.value).getD []

end

end Site

/-! ## Where it comes from -/

/-- The columns of a machine are those of a session view. -/
structure ReadModel.Machine.Reads (m : ReadModel.Machine) (view : Session) : Prop where
  machineID : m.machineID = view.machineID
  remoteURL : m.remoteURL = view.remoteURL
  hostname : m.hostname = view.hostname
  easyTierVersion : m.easyTierVersion = view.easyTierVersion
  reportTime : m.reportTime = view.reportTime
  connectedAt : m.connectedAt = millis view.connectedAtMS
  lastHeartbeatAt : m.lastHeartbeatAt = millis view.lastHeartbeatAtMS
  device : m.device = view.device

/-- An answer has the machine. -/
def Answered (answers : List TopologySnapshot) (machine : Machine) : Prop :=
  ∃ topology ∈ answers, machine ∈ topology.received.machines.elems

/-- What is shown of a machine comes from answers. -/
structure ReadModel.Machine.Told (answers : List TopologySnapshot) (m : ReadModel.Machine) :
    Prop where
  columns : ∃ machine, Answered answers machine ∧ m.Reads machine.session
  instances : ∀ inst ∈ m.networkInstances, ∃ machine, Answered answers machine ∧
    machine.session.machineID = m.machineID ∧ inst.instanceID ∈ machine.instanceIDs

/-- So do the rows of a database. -/
structure Db.Told (answers : List TopologySnapshot) (db : Db) : Prop where
  machines : ∀ (id : Uuid) row, db.machines[id]? = some row → ∃ machine, Answered answers machine ∧
    machine.session.machineID = id ∧ row.value = machineColumns machine
  instances : ∀ (id : Uuid) row, db.networkInstances[id]? = some row → ∃ machine,
    Answered answers machine ∧ machine.session.machineID = row.value.machineID ∧
      id ∈ machine.instanceIDs

section

variable {answers answers' : List TopologySnapshot} {db : Db} {m : ReadModel.Machine}

theorem Answered.mono (hsub : answers ⊆ answers') {machine : Machine}
    (h : Answered answers machine) : Answered answers' machine := by
  obtain ⟨topology, ht, hm⟩ := h
  exact ⟨topology, hsub ht, hm⟩

theorem ReadModel.Machine.Told.mono (hsub : answers ⊆ answers') (h : m.Told answers) :
    m.Told answers' := by
  refine ⟨?_, fun inst hinst => ?_⟩
  · obtain ⟨machine, ha, hreads⟩ := h.columns
    exact ⟨machine, ha.mono hsub, hreads⟩
  · obtain ⟨machine, ha, hid, hmem⟩ := h.instances inst hinst
    exact ⟨machine, ha.mono hsub, hid, hmem⟩

theorem Db.Told.mono (hsub : answers ⊆ answers') (h : db.Told answers) : db.Told answers' := by
  refine ⟨fun id row hrow => ?_, fun id row hrow => ?_⟩
  · obtain ⟨machine, ha, hid, hcolumns⟩ := h.machines id row hrow
    exact ⟨machine, ha.mono hsub, hid, hcolumns⟩
  · obtain ⟨machine, ha, hid, hmem⟩ := h.instances id row hrow
    exact ⟨machine, ha.mono hsub, hid, hmem⟩

/-- A row, scanned, reads as the session it was written from. -/
theorem reads_scanMachine {e : Uuid × MachineRow} {machine : Machine}
    (hid : machine.session.machineID = e.1) (hcolumns : e.2.value = machineColumns machine)
    (instances : List ReadModel.Instance) :
    ReadModel.Machine.Reads { scanMachine e with networkInstances := instances }
      machine.session where
  machineID := hid.symm
  remoteURL := congrArg MachineColumns.remoteURL hcolumns
  hostname := congrArg MachineColumns.hostname hcolumns
  easyTierVersion := congrArg MachineColumns.easyTierVersion hcolumns
  reportTime := congrArg MachineColumns.reportTime hcolumns
  connectedAt := congrArg MachineColumns.connectedAt hcolumns
  lastHeartbeatAt := congrArg MachineColumns.lastHeartbeatAt hcolumns
  device := (congrArg scanDevice hcolumns).trans (scanDevice_machineColumns machine)

/-- The machines of a page, by the states that its queries see. -/
theorem machines_of_currentTopologyAt {dbs : Moments} (hread : DbReadable dbs.peers)
    {now : Timestamp} {query : TopologyQuery} {result : TopologyPage}
    (h : currentTopologyAt now query dbs = .ok result) :
    ∀ m ∈ result.machines, ∃ e ∈ machineRows query dbs.machines,
      m = nestedFrom query.active dbs.instances dbs.peers e := by
  simp only [currentTopologyAt, loadInstancesAt_eq (hread.links query.active _ _)
    (nodup_page query dbs.machines), bind, Except.bind, pure, Except.pure] at h
  obtain rfl := Except.ok.inj h
  intro m hm
  obtain ⟨e, he, rfl⟩ := List.mem_map.1 hm
  exact ⟨e, Relational.page_sublist.subset he, rfl⟩

/-- **A page of states that come from answers comes from answers.** -/
theorem Db.Told.page {dbs : Moments} (hmachines : dbs.machines.Told answers)
    (hinstances : dbs.instances.Told answers) (hread : DbReadable dbs.peers) {now : Timestamp}
    {query : TopologyQuery} {result : TopologyPage}
    (h : currentTopologyAt now query dbs = .ok result) : ∀ m ∈ result.machines, m.Told answers := by
  intro m hm
  obtain ⟨e, he, rfl⟩ := machines_of_currentTopologyAt hread h m hm
  obtain ⟨machine, ha, hid, hcolumns⟩ :=
    hmachines.machines e.1 e.2 (Relational.Table.mem_toList.1 (List.mem_of_mem_filter he))
  refine ⟨⟨machine, ha, reads_scanMachine hid hcolumns _⟩, fun inst hinst => ?_⟩
  obtain ⟨x, hx, rfl⟩ := List.mem_map.1 hinst
  obtain ⟨hmem, howned⟩ := List.mem_filter.1 hx
  obtain ⟨hmachine, -⟩ := Bool.and_eq_true_iff.1 howned
  obtain ⟨machine', ha', hid', hlisted⟩ :=
    hinstances.instances x.1 x.2 (Relational.Table.mem_toList.1 hmem)
  exact ⟨machine', ha', hid'.trans (of_decide_eq_true hmachine), hlisted⟩

end

/-! ## The list of the hook -/

namespace Webui

/-- All machines of the hook, shown or not, are as `P` says. -/
structure FilteredTopology.Holds (P : ReadModel.Machine → Prop) (s : FilteredTopology) : Prop where
  list : ∀ m ∈ s.machinesRef, P m.value
  data : ∀ data ∈ s.data, ∀ m ∈ data.machines, P m.value

variable {P Q : ReadModel.Machine → Prop} {s : FilteredTopology}

theorem FilteredTopology.Holds.mono (h : s.Holds P) (hPQ : ∀ m, P m → Q m) : s.Holds Q :=
  ⟨fun m hm => hPQ _ (h.list m hm), fun data hdata m hm => hPQ _ (h.data data hdata m hm)⟩

/-- It keeps machines and takes those of pages, whatever the order. -/
theorem FilteredTopology.Holds.step (h : s.Holds P) {event : FilterEvent}
    (hpage : ∀ i page, event = .arrive i page → ∀ m ∈ page.machines, P m) :
    (s.step event).Holds P := by
  cases event with
  | refresh => exact ⟨h.list, h.data⟩
  | loadMore => exact ⟨h.list, h.data⟩
  | changeFilter value =>
    simp only [FilteredTopology.step, changeFilter]
    split
    · exact h
    · exact ⟨by simp, h.data⟩
  | arrive i page =>
    simp only [FilteredTopology.step]
    split
    · exact h
    · rename_i request _
      have hreturned : ∀ m ∈ page.machines.map (Sourced.mk request.activeFilter), P m.value := by
        intro m hm
        obtain ⟨machine, hmachine, rfl⟩ := List.mem_map.1 hm
        exact hpage i page rfl machine hmachine
      have hall : ∀ m ∈ ((s.answered i).receive request page).machinesRef, P m.value := by
        intro m hm
        simp only [receive, answered] at hm
        split at hm
        · exact (List.mem_append.1 hm).elim (h.list m) (hreturned m)
        · exact hreturned m hm
      refine ⟨hall, ?_⟩
      rintro _ ⟨⟩
      exact hall
  | fail i message =>
    simp only [FilteredTopology.step]
    split
    · exact h
    · exact ⟨h.list, h.data⟩

end Webui

/-! ## Every run -/

section

variable {PeerInfo : Type} {A : PairAccessors PeerInfo} {C : TelemetryCollector} {codec : Codec}
  {E : Encoding}

namespace Deployment

variable {d : Deployment PeerInfo}

theorem Fed.told (h : d.Fed E) : DbReadable d.db ∧ d.db.Told d.answers := by
  refine ⟨?_, fun id row hrow => ?_, fun id row hrow => ?_⟩
  · obtain ⟨ops, hdb, -⟩ := h
    exact readable_of_reachable ⟨ops, hdb⟩
  · obtain ⟨topology, ht, machine, hm, hid, hcolumns⟩ := h.machineRow hrow
    exact ⟨machine, ⟨topology, ht, hm⟩, hid, hcolumns⟩
  · obtain ⟨topology, ht, machine, hm, hid, hmem⟩ := h.instanceRow hrow
    exact ⟨machine, ⟨topology, ht, hm⟩, hid, hmem⟩

end Deployment

namespace Site

variable {s : Site PeerInfo} {admissionToken : Option String}

/-- The invariant of the system with its browser. -/
structure Sound (A : PairAccessors PeerInfo) (C : TelemetryCollector) (E : Encoding)
    (admissionToken : Option String) (s : Site PeerInfo) : Prop where
  deployment : ∃ past, s.deployment.Sound A C E past
  shown : s.deployment.Shown
  token : s.deployment.gateway.admissionToken = admissionToken
  past : ∀ db ∈ s.past, DbReadable db ∧ db.Told s.deployment.answers
  hook : s.hook.Holds fun m => m.Told s.deployment.answers

theorem mem_of_momentsAt {past : List Db} {looks : Looks} {dbs : Moments}
    (h : momentsAt past looks = some dbs) :
    dbs.machines ∈ past ∧ dbs.instances ∈ past ∧ dbs.peers ∈ past := by
  simp only [momentsAt, Option.bind_eq_bind, Option.bind_eq_some_iff] at h
  obtain ⟨-, -, _, -, _, -, machines, hmachines, instances, hinstances, peers, hpeers, heq⟩ := h
  obtain rfl := Option.some.inj heq
  exact ⟨List.mem_of_getElem? hmachines, List.mem_of_getElem? hinstances,
    List.mem_of_getElem? hpeers⟩

/-- A response comes from answers. -/
theorem Sound.response (h : s.Sound A C E admissionToken) {i : Nat} {now : Timestamp}
    {looks : Looks} {event : FilterEvent} (hevent : s.response i now looks = some event) :
    ∀ j page, event = .arrive j page → ∀ m ∈ page.machines, m.Told s.deployment.answers := by
  rintro j page rfl
  simp only [Site.response, Option.bind_eq_bind, Option.bind_eq_some_iff] at hevent
  obtain ⟨request, -, dbs, hdbs, hevent⟩ := hevent
  obtain ⟨hmachines, hinstances, hpeers⟩ := mem_of_momentsAt hdbs
  split at hevent
  · rename_i result hresult
    obtain ⟨-, rfl⟩ := FilterEvent.arrive.inj (Option.some.inj hevent)
    exact (h.past _ hmachines).2.page (h.past _ hinstances).2 (h.past _ hpeers).1 hresult
  · exact absurd (Option.some.inj hevent) nofun

/-- A step of the browser alone. -/
theorem Sound.browse (h : s.Sound A C E admissionToken) {event : FilterEvent}
    (hpage : ∀ i page, event = .arrive i page → ∀ m ∈ page.machines,
      m.Told s.deployment.answers) :
    Sound A C E admissionToken { s with hook := s.hook.step event } :=
  ⟨h.deployment, h.shown, h.token, h.past, h.hook.step hpage⟩

/-- **Every step keeps the invariant.** -/
theorem Sound.step (hC : codec.Exact) (h : s.Sound A C E admissionToken)
    (event : SiteEvent PeerInfo) : (s.step A C codec E event).Sound A C E admissionToken := by
  cases event with
  | system event =>
    obtain ⟨past, hsound⟩ := h.deployment
    have hdeployment := hsound.step hC event
    have hsub : s.deployment.answers ⊆ (s.deployment.step A C codec E event).answers :=
      Deployment.answers_step event
    refine ⟨⟨_, hdeployment⟩, h.shown.step hsound event,
      (Deployment.step_admissionToken _ event).trans h.token, fun db hdb => ?_,
      h.hook.mono fun m hm => hm.mono hsub⟩
    rcases List.mem_append.1 hdb with hdb | hdb
    · exact ⟨(h.past db hdb).1, (h.past db hdb).2.mono hsub⟩
    · obtain rfl := List.mem_singleton.1 hdb
      exact hdeployment.fed.told
  | refresh => exact h.browse (by simp)
  | loadMore => exact h.browse (by simp)
  | changeFilter value => exact h.browse (by simp)
  | arrive i now looks =>
    rw [Site.step]
    split
    · exact h
    · rename_i event hevent
      exact h.browse (h.response hevent)
  | fail i message => exact h.browse (by simp)

theorem sound_start (now : UInt64) (admissionToken : Option String) :
    (start now admissionToken : Site PeerInfo).Sound A C E admissionToken where
  deployment := ⟨_, Deployment.sound_start now admissionToken⟩
  shown := ⟨by simp [start, Deployment.start], by simp [start, Deployment.start]⟩
  token := rfl
  past db hdb := by
    obtain rfl := List.mem_singleton.1 hdb
    have hfed : (Deployment.start now admissionToken : Deployment PeerInfo).Fed E :=
      ⟨[], rfl, by simp [accepted]⟩
    exact hfed.told
  hook := ⟨by simp [start, FilteredTopology.start], by simp [start, FilteredTopology.start]⟩

theorem sound_run (hC : codec.Exact) (now : UInt64) (admissionToken : Option String)
    (events : List (SiteEvent PeerInfo)) :
    ((start now admissionToken).run A C codec E events).Sound A C E admissionToken := by
  induction events using List.reverseRecOn with
  | nil => exact sound_start now admissionToken
  | append_singleton events event ih =>
    rw [run, List.foldl_append]
    exact ih.step hC event

/-- **Nothing on the screen is made up.**  In every run of the system with its browser, whatever is
on its way and however old, each machine on the screen reads as a heartbeat that a session admitted
under its id has stored, and each instance below it is in an answer of the gateway, on this
machine. -/
theorem screen_admitted (A : PairAccessors PeerInfo) (C : TelemetryCollector) (E : Encoding)
    (hC : codec.Exact) (now : UInt64) (admissionToken : Option String)
    (events : List (SiteEvent PeerInfo)) :
    let s := (start now admissionToken).run A C codec E events
    ∀ m ∈ s.screen,
      (∃ (i : Nat) (request : HeartbeatRequest) (t : UInt64),
        (s.deployment.gateway.conn i).phase.inserted? = some m.machineID ∧
        (s.deployment.gateway.conn i).AdmittedUnder admissionToken m.machineID ∧
        request ∈ (s.deployment.gateway.conn i).stored ∧ t ≤ s.deployment.gateway.now ∧
        m.Reads ((s.deployment.gateway.conn i).showing m.machineID request t)) ∧
      ∀ inst ∈ m.networkInstances, ∃ topology ∈ s.deployment.answers,
        ∃ machine ∈ topology.received.machines.elems,
          machine.session.machineID = m.machineID ∧ inst.instanceID ∈ machine.instanceIDs := by
  intro s m hm
  have hsound := sound_run (A := A) (C := C) (E := E) hC now admissionToken events
  have htold : m.Told s.deployment.answers := by
    obtain ⟨data, hdata, hmachines⟩ : ∃ data ∈ s.hook.data,
        m ∈ data.machines.map Sourced.value := by
      cases hdata : s.hook.data with
      | none => simp [screen, hdata] at hm
      | some data => exact ⟨data, rfl, by simpa [screen, hdata] using hm⟩
    obtain ⟨x, hx, rfl⟩ := List.mem_map.1 hmachines
    exact hsound.hook.data data hdata x hx
  constructor
  · obtain ⟨machine, ⟨topology, ht, hmachine⟩, hreads⟩ := htold.columns
    obtain ⟨i, request, t, hinserted, hstored, hle, heq⟩ := hsound.shown.session ht hmachine
    obtain ⟨past, hdeployment⟩ := hsound.deployment
    have hunder := hdeployment.admittedUnder hinserted
    rw [hsound.token] at hunder
    rw [hreads.machineID]
    exact ⟨i, request, t, hinserted, hunder, hstored, hle, heq ▸ hreads⟩
  · intro inst hinst
    obtain ⟨machine, ⟨topology, ht, hmachine⟩, hid, hlisted⟩ := htold.instances inst hinst
    exact ⟨topology, ht, machine, hmachine, hid, hlisted⟩

end Site

end

/-! ### A late response -/

/-- The page is asked for before anything has happened, and answered when the whole run is over. -/
def watched : List (SiteEvent Empty) :=
  .refresh :: Deployment.wholeRun.map .system ++
    [.arrive 0 7000000 ⟨0, 0, Deployment.wholeRun.length, Deployment.wholeRun.length,
      Deployment.wholeRun.length⟩]

theorem screen_admitted_watched :
    ∃ m ∈ ((Site.start 1000 (some "token")).run noPeers sampleCollector plainCodec sampleEncoding
        watched).screen, m.hostname = "edge-2" ∧
      ∃ i request, (((Site.start 1000 (some "token")).run noPeers sampleCollector plainCodec
          sampleEncoding watched).deployment.gateway.conn i).AdmittedUnder (some "token")
            m.machineID ∧
        request ∈ (((Site.start 1000 (some "token")).run noPeers sampleCollector plainCodec
          sampleEncoding watched).deployment.gateway.conn i).stored := by
  have hname : ((Site.start 1000 (some "token")).run noPeers sampleCollector plainCodec
      sampleEncoding watched).screen.find? (fun m => m.hostname = "edge-2") ≠ none := by
    decide +kernel
  obtain ⟨m, hfound⟩ := Option.ne_none_iff_exists'.1 hname
  have hm := List.mem_of_find?_eq_some hfound
  obtain ⟨⟨i, request, -, -, hadmitted, hstored, -⟩, -⟩ := Site.screen_admitted noPeers
    sampleCollector sampleEncoding plainCodec_exact 1000 (some "token") watched m hm
  exact ⟨m, hm, by simpa using List.find?_some hfound, i, request, hadmitted, hstored⟩

end NexusTier
