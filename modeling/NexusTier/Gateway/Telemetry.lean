import NexusTier.Gateway.Session

/-!
# Collecting a topology

`collect_topology` of `telemetry.rs`, with all it calls.  What the gateway builds is said in the
types of the contract: a `Vec` of the gateway is a slice that is not nil, and a float that JSON
cannot express has already become null.

Three things come from outside, and are parameters or events here.

* **The replies.**  Each call of a client ends with a value, an error or a timeout
  (`RpcOutcome`).  A machine is collected once in a collection, so its replies can be fixed
  beforehand: `Replies` holds one for each call that may be made.
* **EasyTier.**  `PeerInfo` and the accessors of `PeerRoutePair` are not part of the gateway, and
  are the parameter `PairAccessors`.
* **The schedule.**  A machine task goes from await to await (`Phase`); in between the clock moves,
  sessions take heartbeats, other tasks run, one may panic, and the collector joins a finished task
  or sees its deadline pass.  Each of these is an `Event`, and a run is any list of them.

## What is here

* `TelemetryError` and the errors that the gateway makes, with their texts.
* `peerView`, `collectInstance` and the views: what the replies of a client are made into.
* `Phase.advance`: a task of `collect_machine`, from await to await.
* `Collection.step` and `Collection.snapshot?`: the collection, event by event, and what it returns.

## What is left out

How sessions are listed, which is in `Gateway/Listing.lean`; and logging.
-/

set_option autoImplicit false

namespace NexusTier

open Relational

/-! ## Errors -/

namespace TelemetryError

/-- `TelemetryError::session`. -/
def session (operation : String) (error : SessionError) : TelemetryError :=
  ⟨"session_unavailable", operation, error.text⟩

/-- `TelemetryError::rpc`. -/
def rpc (operation message : String) : TelemetryError := ⟨"rpc_error", operation, message⟩

/-- `TelemetryError::timeout`, with the text of tokio's `Elapsed`. -/
def timeout (operation : String) : TelemetryError :=
  ⟨"rpc_timeout", operation, "deadline has elapsed"⟩

/-- `TelemetryError::task`. -/
def task (operation message : String) : TelemetryError := ⟨"task_failed", operation, message⟩

/-- `TelemetryError::collection_timeout`. -/
def collectionTimeout (operation message : String) : TelemetryError :=
  ⟨"collection_timeout", operation, message⟩

end TelemetryError

/-! ## Replies -/

/-- How a call under a timeout ends. -/
inductive RpcOutcome (α : Type) where
  | ok (value : α)
  | error (message : String)
  | timeout
deriving DecidableEq

namespace RpcOutcome

variable {α : Type}

/-- The value of a call that succeeded. -/
def value? : RpcOutcome α → Option α
  | ok value => some value
  | error _ => none
  | timeout => none

/-- What a call adds to the errors. -/
def failure (operation : String) : RpcOutcome α → List TelemetryError
  | ok _ => []
  | error message => [.rpc operation message]
  | timeout => [.timeout operation]

/-- The call succeeded. -/
def succeeded (result : RpcOutcome α) : Bool := result.value?.isSome

end RpcOutcome

/-- `rpc_value`: the value of a call, and the errors with its own. -/
def rpcValue {α : Type} (result : RpcOutcome α) (operation : String)
    (errors : List TelemetryError) : Option α × List TelemetryError :=
  match result with
  | .ok value => (some value, errors)
  | .error message => (none, errors ++ [.rpc operation message])
  | .timeout => (none, errors ++ [.timeout operation])

theorem rpcValue_eq {α : Type} (result : RpcOutcome α) (operation : String)
    (errors : List TelemetryError) :
    rpcValue result operation errors = (result.value?, errors ++ result.failure operation) := by
  cases result with
  | ok value => simp [rpcValue, RpcOutcome.value?, RpcOutcome.failure]
  | error message => rfl
  | timeout => rfl

/-- A `Route`, as far as the gateway reads it; its address as the text it is shown as. -/
structure Route where
  peerID : UInt32
  ipv4Addr : Option String
  hostname : String
  nextHopPeerID : UInt32
  cost : Int32
  pathLatency : Int32
  version : String
deriving DecidableEq

/-- A `NodeInfo`, as far as the gateway reads it. -/
structure NodeInfo where
  peerID : UInt32
  ipv4Addr : String
  hostname : String
  proxyCIDRs : List String
  listeners : List String
  version : String
deriving DecidableEq

structure MetricSnapshot where
  name : String
  value : UInt64
  labels : Labels
deriving DecidableEq

/-- What the gateway asks of EasyTier's `PeerInfo`, and of the `PeerRoutePair` of a route and
perhaps a peer. -/
structure PairAccessors (PeerInfo : Type) where
  peerID : PeerInfo → UInt32
  getLatencyMS : Route → Option PeerInfo → Option ℚ
  getLossRate : Route → Option PeerInfo → Option ℚ
  getRxBytes : Route → Option PeerInfo → Option UInt64
  getTxBytes : Route → Option PeerInfo → Option UInt64
  getConnProtos : Route → Option PeerInfo → Option (List String)

/-- The replies of a client about one instance. -/
structure InstanceReplies (PeerInfo : Type) where
  peers : RpcOutcome (List PeerInfo)
  routes : RpcOutcome (List Route)
  node : RpcOutcome (Option NodeInfo)
  metrics : RpcOutcome (List MetricSnapshot)

/-- The replies of a client: to `list_network_instance`, and about the instance at each position
of that reply. -/
structure MachineReplies (PeerInfo : Type) where
  instances : RpcOutcome (List Uuid)
  each : Nat → InstanceReplies PeerInfo

/-- The instances a client lists: none, if the call fails. -/
def MachineReplies.listed {PeerInfo : Type} (replies : MachineReplies PeerInfo) : List Uuid :=
  replies.instances.value?.getD []

/-- The replies of every client, by the key of its session in the pool. -/
abbrev Replies (PeerInfo : Type) := Uuid → MachineReplies PeerInfo

/-! ## Views -/

/-- `NodeView::from`. -/
def NodeInfo.view (node : NodeInfo) : Node where
  peerID := node.peerID
  ipv4 := node.ipv4Addr
  hostname := node.hostname
  proxyCIDRs := some node.proxyCIDRs
  listeners := some node.listeners
  version := node.version

/-- `MetricView::from`. -/
def MetricSnapshot.view (metric : MetricSnapshot) : Metric :=
  ⟨metric.name, metric.value, some metric.labels⟩

/-- `SessionView::try_from`, on the snapshot of a session. -/
def GatewaySession.view (session : GatewaySession) : Except SessionError Session := do
  let (heartbeat, state) ← session.snapshot
  match heartbeat.machineID with
  | none => .error .missingMachineID
  | some machineID =>
    return {
      machineID
      remoteURL := state.remoteURL
      hostname := heartbeat.hostname
      easyTierVersion := heartbeat.easyTierVersion
      reportTime := heartbeat.reportTime
      connectedAtMS := state.connectedAtMS
      lastHeartbeatAtMS := state.lastHeartbeatAtMS
      runningInstanceIDs := some heartbeat.runningNetworkInstances
      device := heartbeat.deviceOS }

/-- `SessionView::unavailable`. -/
def Session.unavailable : Session where
  machineID := Uuid.nil
  remoteURL := ""
  hostname := ""
  easyTierVersion := ""
  reportTime := ""
  connectedAtMS := 0
  lastHeartbeatAtMS := 0
  runningInstanceIDs := some []
  device := none

section Views

variable {PeerInfo : Type} (A : PairAccessors PeerInfo)

/-- The view of a route, and of the peer it leads to where `list_peer` knows it. -/
def peerView (route : Route) (peer : Option PeerInfo) : Peer where
  peerID := route.peerID
  ipv4 := route.ipv4Addr
  hostname := route.hostname
  nextHopPeerID := route.nextHopPeerID
  direct := decide (route.cost = 1)
  pathCost := route.cost
  latencyMS := if route.cost = 1 then A.getLatencyMS route peer else some route.pathLatency.toInt
  lossRate := A.getLossRate route peer
  rxBytes := A.getRxBytes route peer
  txBytes := A.getTxBytes route peer
  tunnelProtocols := some ((A.getConnProtos route peer).getD [])
  version := route.version

/-- The loop over the routes: each takes its peer out of the map. -/
def peerViews : Table UInt32 PeerInfo → List Route → List Peer
  | _, [] => []
  | peersByID, route :: routes =>
    peerView A route peersByID[route.peerID]? ::
      peerViews (peersByID.erase route.peerID) routes

/-- `join_peers_and_routes`. -/
def joinPeersAndRoutes (peers : List PeerInfo) (routes : List Route) : List Peer :=
  let peersByID := peers.foldl (fun t peer => t.insert (A.peerID peer) peer) ∅
  (peerViews A peersByID routes).insertionSort fun p q => p.peerID ≤ q.peerID

/-- `collect_instance`, once its four calls have ended, at time `now`. -/
def collectInstance (now : UInt64) (instanceID : Uuid) (replies : InstanceReplies PeerInfo) :
    Instance :=
  let (peers, errors) := rpcValue replies.peers "list_peers" []
  let (routes, errors) := rpcValue replies.routes "list_routes" errors
  let (node, errors) := rpcValue replies.node "show_node_info" errors
  let (metrics, errors) := rpcValue replies.metrics "get_stats" errors
  { instanceID
    observedAtMS := now
    node := node.join.map NodeInfo.view
    peers := some (joinPeersAndRoutes A (peers.getD []) (routes.getD []))
    metrics := some ((metrics.getD []).map MetricSnapshot.view)
    errors := some errors }

/-! ## `collect_machine` -/

/-- Where a task of `collect_machine` stands. -/
inductive Phase where
  | starting
  /-- Waiting for the instances. -/
  | listing (view : Session)
  /-- Waiting for the replies about the first instance of `todo`. -/
  | collecting (view : Session) (todo : List Uuid) (instances : List Instance)
  | finished (machine : Machine)
  | panicked (message : String)
deriving DecidableEq

/-- `machines.sort_by_key` sorts by machine id, and instances by instance id; both sorts are
stable. -/
def sortInstances (instances : List Instance) : List Instance :=
  instances.insertionSort fun i j => i.instanceID ≤ j.instanceID

@[inherit_doc sortInstances]
def sortMachines (machines : List Machine) : List Machine :=
  machines.insertionSort fun m n => m.session.machineID ≤ n.session.machineID

/-- A task runs up to its next await, at time `now`. -/
def Phase.advance (replies : MachineReplies PeerInfo) (now : UInt64) (session : GatewaySession) :
    Phase → Phase
  | starting =>
    match session.view with
    | .error error =>
      finished ⟨.unavailable, now, some [], some [.session "session_snapshot" error]⟩
    | .ok view => listing view
  | listing view =>
    match replies.instances with
    | .ok instanceIDs => collecting view instanceIDs []
    | .error message =>
      finished ⟨view, now, some [], some [.rpc "list_network_instances" message]⟩
    | .timeout => finished ⟨view, now, some [], some [.timeout "list_network_instances"]⟩
  | collecting view (instanceID :: todo) instances =>
    collecting view todo
      (instances ++ [collectInstance A now instanceID (replies.each instances.length)])
  | collecting view [] instances =>
    finished ⟨view, now, some (sortInstances instances), some []⟩
  | finished machine => finished machine
  | panicked message => panicked message

end Views

/-! ## `collect_topology` -/

/-- What a `TelemetryCollector` is created with. -/
structure TelemetryCollector where
  collectionTimeoutMS : Nat
  machineConcurrency : Nat
  /-- The assertion of `TelemetryCollector::new`. -/
  concurrency_pos : 0 < machineConcurrency

/-- A collection on its way.  A session stands in `pending` and `tasks` under its key in the pool;
what it holds is in `sessions`, since it takes heartbeats meanwhile. -/
structure Collection where
  now : UInt64
  collectionID : Uuid
  startedAtMS : UInt64
  sessions : List (Uuid × GatewaySession)
  pending : List Uuid
  tasks : List (Uuid × Phase)
  machines : List Machine
  errors : List TelemetryError
deriving DecidableEq

/-- What can happen during a collection. -/
inductive Event where
  /-- The clock moves to `now`, if that is later. -/
  | tick (now : UInt64)
  /-- The session under `key` receives a heartbeat. -/
  | heartbeat (key : Uuid) (request : HeartbeatRequest)
  /-- The task of `key` runs up to its next await. -/
  | advance (key : Uuid)
  /-- The task of `key` panics. -/
  | panic (key : Uuid) (message : String)
  /-- `join_next` returns the task of `key`. -/
  | join (key : Uuid)
  /-- The deadline is seen to have passed. -/
  | deadline
deriving DecidableEq

/-- The first loop of `collect_topology`. -/
def spawnUpTo (limit : Nat) :
    List Uuid → List (Uuid × Phase) → List Uuid × List (Uuid × Phase)
  | [], tasks => ([], tasks)
  | key :: pending, tasks =>
    if tasks.length < limit then spawnUpTo limit pending (tasks ++ [(key, .starting)])
    else (key :: pending, tasks)

namespace Collection

variable {PeerInfo : Type} (A : PairAccessors PeerInfo) (C : TelemetryCollector)
  (replies : Replies PeerInfo)

/-- A collection starts, at time `now`, with the sessions of the pool. -/
def start (now : UInt64) (collectionID : Uuid) (sessions : List (Uuid × GatewaySession)) :
    Collection :=
  let (pending, tasks) := spawnUpTo C.machineConcurrency (sessions.map Prod.fst) []
  ⟨now, collectionID, now, sessions, pending, tasks, [], []⟩

/-- After a task has been joined, the next session gets one. -/
def spawnNext (c : Collection) : Collection :=
  match c.pending with
  | [] => c
  | key :: pending =>
    { c with
      pending
      tasks := c.tasks ++ [(key, .starting)] }

/-- Replace the phase of the task of `key`. -/
def mapTask (key : Uuid) (f : Phase → Phase) (c : Collection) : Collection :=
  { c with
    tasks := c.tasks.map fun t => if t.1 = key then (key, f t.2) else t }

/-- Take the task of `key` out of the set. -/
def dropTask (key : Uuid) (c : Collection) : Collection :=
  { c with
    tasks := c.tasks.filter fun t => t.1 ≠ key }

/-- The body of the second loop, when `join_next` returns the task of `key`: it does so only for a
task that has ended. -/
def join (key : Uuid) (c : Collection) : Collection :=
  match c.tasks.lookup key with
  | some (.finished machine) =>
    spawnNext { c.dropTask key with machines := c.machines ++ [machine] }
  | some (.panicked message) =>
    spawnNext { c.dropTask key with errors := c.errors ++ [.task "collect_machine" message] }
  | _ => c

/-- The deadline branch.  Outside the loop nothing waits for the deadline. -/
def deadline (c : Collection) : Collection :=
  if c.tasks = [] then c
  else
    let remaining := c.pending.length + c.tasks.length
    { c with
      tasks := []
      errors := c.errors ++ [.collectionTimeout "collect_topology"
        s!"collection exceeded {C.collectionTimeoutMS} ms with {remaining} machines pending"] }

/-- A task panics, if it has not ended. -/
def panicPhase (message : String) : Phase → Phase
  | .finished machine => .finished machine
  | .panicked message => .panicked message
  | _ => .panicked message

/-- One event. -/
def step (c : Collection) : Event → Collection
  | .tick now =>
    { c with
      now := if c.now ≤ now then now else c.now }
  | .heartbeat key request =>
    { c with
      sessions := c.sessions.map fun e =>
        if e.1 = key then
          match e.2.heartbeat c.now request with
          | .ok session => (e.1, session)
          | .error _ => e
        else e }
  | .advance key =>
    match c.sessions.lookup key with
    | some session => c.mapTask key (Phase.advance A (replies key) c.now session)
    | none => c
  | .panic key message => c.mapTask key (panicPhase message)
  | .join key => c.join key
  | .deadline => c.deadline C

/-- Events, one after the other. -/
def run (c : Collection) (events : List Event) : Collection :=
  events.foldl (step A C replies) c

/-- What `collect_topology` returns, once no task is left. -/
def snapshot? (c : Collection) : Option Snapshot :=
  if c.tasks = [] then
    some {
      schemaVersion := NexusTier.schemaVersion
      collectionID := c.collectionID
      startedAtMS := c.startedAtMS
      completedAtMS := c.now
      collectedAtMS := c.now
      machines := some (sortMachines c.machines)
      errors := some c.errors }
  else none

end Collection

end NexusTier
