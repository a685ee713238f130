import NexusTier.Relational.Loop
import NexusTier.Relational.Paging
import NexusTier.Ingest.Schema

/-!
# Reading the current topology

`CurrentTopology` of `readmodel/store.go`: a page of machines by keyset paging, the instances of
all of them in one query, the peers of all of these in another.  Instances and peers are put where
they belong by position, through two maps (`machineIndex`, `locations`).

`currentTopology_eq` says what this comes to: each machine of the page has its own instances, and
each of them its node and its links (`nestedMachine`).  Following the cursors, `topology_eq` says,
returns every machine the filters select, once.

## What is here

* The records that are returned, and how a row is scanned into each of them.
* `currentTopology` — one page; `topology` — all of them, cursor by cursor.

## What is left out

The five queries see one state of the database here; `ReadModel/Interleaved.lean` has them see
several.  Of errors only those of `strconv.ParseUint` are there: the ones of the connection end the
request, and nothing is returned.
-/

set_option autoImplicit false

namespace NexusTier

open Relational

namespace ReadModel

/-! ## What is returned -/

/-- What is asked for.  The limit is an `int` of 64 bits; the query asks for one row more, and for
the largest `int` this would wrap, which is left out here.  The API lets through 1 to 500. -/
structure TopologyQuery where
  active : Option Bool
  machineID : Option Uuid
  cursor : Option Uuid
  limit : Int
deriving DecidableEq

structure Peer where
  peerID : UInt32
  ipv4 : Option String
  hostname : String
  nextHopPeerID : UInt32
  direct : Bool
  pathCost : Int32
  latencyMS : Option ℚ
  lossRate : Option ℚ
  rxBytes : Option UInt64
  txBytes : Option UInt64
  tunnelProtocols : List String
  easyTierVersion : String
  lastObservedAt : Timestamp
deriving DecidableEq

structure Node where
  peerID : UInt32
  ipv4 : String
  hostname : String
  proxyCIDRs : List String
  listeners : List String
  easyTierVersion : String
  lastObservedAt : Timestamp
deriving DecidableEq

structure Instance where
  instanceID : Uuid
  active : Bool
  disappearedAt : Option Timestamp
  lastObservedAt : Timestamp
  lastCollectionID : Uuid
  node : Option Node
  peers : List Peer
deriving DecidableEq

structure Machine where
  machineID : Uuid
  remoteURL : String
  hostname : String
  easyTierVersion : String
  reportTime : String
  connectedAt : Timestamp
  lastHeartbeatAt : Timestamp
  device : Option Device
  active : Bool
  disappearedAt : Option Timestamp
  lastObservedAt : Timestamp
  lastCollectionID : Uuid
  networkInstances : List Instance
deriving DecidableEq

structure CollectionSummary where
  collectionID : Uuid
  status : RunStatus
  machineCount : Nat
  errorCount : Nat
  startedAt : Timestamp
  completedAt : Timestamp
  ingestedAt : Timestamp
deriving DecidableEq

structure CollectionError where
  index : Nat
  scope : ErrorScope
  machineID : Option Uuid
  instanceID : Option Uuid
  code : String
  operation : String
  message : String
deriving DecidableEq

structure TopologyPage where
  generatedAt : Timestamp
  latestCollection : Option CollectionSummary
  latestErrors : List CollectionError
  machines : List Machine
  limit : Nat
  nextCursor : Option Uuid
deriving DecidableEq

/-- A counter that `strconv.ParseUint` refuses. -/
inductive ReadError where
  | parseRxBytes (value : Nat)
  | parseTxBytes (value : Nat)
deriving DecidableEq

/-! ## Rows -/

/-- The conversion `uint32(value)` of an `int64`. -/
def uint32 (value : Int) : UInt32 := UInt32.ofBitVec (BitVec.ofInt 32 value)

/-- `parseOptionalUint64`, on the text of a number. -/
def parseOptionalUint64 (error : Nat → ReadError) (value : Option Nat) :
    Except ReadError (Option UInt64) :=
  match value with
  | none => .ok none
  | some n => if n < 2 ^ 64 then .ok (some (UInt64.ofNat n)) else .error (error n)

def scanDevice (columns : MachineColumns) : Option Device :=
  if columns.deviceOSType.isSome || columns.deviceOSVersion.isSome ||
      columns.deviceDistribution.isSome then
    some ⟨columns.deviceOSType.getD "", columns.deviceOSVersion.getD "",
      columns.deviceDistribution.getD ""⟩
  else none

def scanMachine (e : Uuid × MachineRow) : Machine where
  machineID := e.1
  remoteURL := e.2.value.remoteURL
  hostname := e.2.value.hostname
  easyTierVersion := e.2.value.easyTierVersion
  reportTime := e.2.value.reportTime
  connectedAt := e.2.value.connectedAt
  lastHeartbeatAt := e.2.value.lastHeartbeatAt
  device := scanDevice e.2.value
  active := e.2.active
  disappearedAt := e.2.disappearedAt
  lastObservedAt := e.2.observedAt
  lastCollectionID := e.2.source
  networkInstances := []

def scanNode (row : NodeRow) : Node where
  peerID := uint32 row.value.peerID
  ipv4 := row.value.ipv4
  hostname := row.value.hostname
  proxyCIDRs := row.value.proxyCIDRs
  listeners := row.value.listeners
  easyTierVersion := row.value.easyTierVersion
  lastObservedAt := row.observedAt

/-- A row of the join of `network_instances` with `nodes`. -/
def scanInstance (db : Db) (e : Uuid × InstanceRow) : Instance where
  instanceID := e.1
  active := e.2.active
  disappearedAt := e.2.disappearedAt
  lastObservedAt := e.2.observedAt
  lastCollectionID := e.2.source
  node := db.nodes[e.1]?.map scanNode
  peers := []

def scanPeer (e : LinkKey × PeerRow) : Except ReadError Peer := do
  let rxBytes ← parseOptionalUint64 .parseRxBytes e.2.value.rxBytes
  let txBytes ← parseOptionalUint64 .parseTxBytes e.2.value.txBytes
  return {
    peerID := uint32 e.1.destination
    ipv4 := e.2.value.ipv4
    hostname := e.2.value.hostname
    nextHopPeerID := uint32 e.2.value.nextHopPeerID
    direct := e.2.value.direct
    pathCost := e.2.value.pathCost
    latencyMS := e.2.value.latencyMS
    lossRate := e.2.value.lossRate
    rxBytes
    txBytes
    tunnelProtocols := e.2.value.tunnelProtocols
    easyTierVersion := e.2.value.easyTierVersion
    lastObservedAt := e.2.observedAt }

/-! ## Queries -/

/-- `latestCollection`. -/
def latestCollection (db : Db) : Option CollectionSummary :=
  let newest := db.collectionRuns.toList.insertionSort fun a b =>
    b.2.completedAt < a.2.completedAt ∨ (b.2.completedAt = a.2.completedAt ∧ b.1 ≤ a.1)
  newest.head?.map fun e =>
    ⟨e.1, e.2.status, e.2.machineCount, e.2.errorCount, e.2.startedAt, e.2.completedAt,
      e.2.ingestedAt⟩

/-- `collectionErrors`: the rows of a collection, in the order of their index. -/
def collectionErrors (collectionID : Uuid) (db : Db) : List CollectionError :=
  (db.collectionErrors.toList.filter fun e => decide (e.1.collectionID = collectionID)).map
    fun e => ⟨e.1.errorIndex, e.2.scope, e.2.machineID, e.2.instanceID, e.2.code, e.2.operation,
      e.2.message⟩

/-- The machines that the filters select, in the order of their ids. -/
def machineRows (query : TopologyQuery) (db : Db) : List (Uuid × MachineRow) :=
  db.machines.toList.filter fun e =>
    query.active.all (fun active => e.2.active == active) &&
      query.machineID.all fun id => decide (e.1 = id)

/-- The order of machine and instance ids. -/
def rowLE (a b : Uuid × InstanceRow) : Prop :=
  a.2.value.machineID < b.2.value.machineID ∨
    (a.2.value.machineID = b.2.value.machineID ∧ a.1 ≤ b.1)

instance : DecidableRel rowLE := fun _ _ => inferInstanceAs (Decidable (_ ∨ _))

/-- The instances of the machines, in this order. -/
def instanceRows (machineIDs : List Uuid) (active : Option Bool) (db : Db) :
    List (Uuid × InstanceRow) :=
  (db.networkInstances.toList.filter fun e =>
    machineIDs.contains e.2.value.machineID && active.all fun active => e.2.active == active)
      |>.insertionSort rowLE

/-- The links of the instances, in the order of the primary key. -/
def linkRows (instanceIDs : List Uuid) (db : Db) : List (LinkKey × PeerRow) :=
  db.peerLinks.toList.filter fun e => instanceIDs.contains e.1.source

/-! ## Assembly -/

/-- The positions of the machines of the page. -/
def machineIndex (machineIDs : List Uuid) : Table Uuid Nat :=
  machineIDs.zipIdx.foldl (fun t e => t.insert e.1 e.2) ∅

/-- The loop of `loadInstances`: the machines so far, where each instance is, and the instances. -/
structure Loading where
  machines : List Machine
  locations : Table Uuid (Nat × Nat)
  instanceIDs : List Uuid

/-- An instance goes to the end of its machine. -/
def placeInstance (db : Db) (index : Table Uuid Nat) (l : Loading) (e : Uuid × InstanceRow) :
    Loading :=
  let position := index[e.2.value.machineID]?.getD 0
  let instancePosition := (l.machines[position]?.map fun m => m.networkInstances.length).getD 0
  { machines := l.machines.modify position fun m =>
      { m with
        networkInstances := m.networkInstances ++ [scanInstance db e] }
    locations := l.locations.insert e.1 (position, instancePosition)
    instanceIDs := l.instanceIDs ++ [e.1] }

/-- A peer goes to the end of its instance. -/
def placePeer (locations : Table Uuid (Nat × Nat)) (machines : List Machine)
    (e : LinkKey × PeerRow) : Except ReadError (List Machine) := do
  let peer ← scanPeer e
  let location := locations[e.1.source]?.getD (0, 0)
  return machines.modify location.1 fun m =>
    { m with
      networkInstances := m.networkInstances.modify location.2 fun inst =>
        { inst with
          peers := inst.peers ++ [peer] } }

def loadPeers (db : Db) (machines : List Machine) (instanceIDs : List Uuid)
    (locations : Table Uuid (Nat × Nat)) : Except ReadError (List Machine) :=
  if instanceIDs.isEmpty then .ok machines
  else (linkRows instanceIDs db).foldlM (placePeer locations) machines

def loadInstances (active : Option Bool) (db : Db) (machines : List Machine) :
    Except ReadError (List Machine) :=
  if machines.isEmpty then .ok machines
  else
    let machineIDs := machines.map Machine.machineID
    let l := (instanceRows machineIDs active db).foldl (placeInstance db (machineIndex machineIDs))
      ⟨machines, ∅, []⟩
    loadPeers db l.machines l.instanceIDs l.locations

/-- The limit that is used. -/
def TopologyQuery.pageLimit (query : TopologyQuery) : Nat :=
  if query.limit ≤ 0 then 100 else query.limit.toNat

/-- `CurrentTopology`, at time `now`. -/
def currentTopology (now : Timestamp) (query : TopologyQuery) (db : Db) :
    Except ReadError TopologyPage := do
  let latest := latestCollection db
  let (rows, nextCursor) := page Prod.fst query.pageLimit query.cursor (machineRows query db)
  let machines ← loadInstances query.active db (rows.map scanMachine)
  return {
    generatedAt := now
    latestCollection := latest
    latestErrors := (latest.map fun c => collectionErrors c.collectionID db).getD []
    machines
    limit := query.pageLimit
    nextCursor }

/-- Follow the cursors from the first page on, for at most `fuel` pages. -/
def topology (now : Timestamp) (query : TopologyQuery) (db : Db) (fuel : Nat) :
    Except ReadError (Option (List Machine)) :=
  readAll (fun cursor => do
    let page ← currentTopology now { query with cursor } db
    return (page.machines, page.nextCursor)) fuel query.cursor

end ReadModel

end NexusTier
