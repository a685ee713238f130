import NexusTier.Ingest.Schema

/-!
# Ingesting a snapshot

`ingest/store.go`, statement by statement.  Every function takes the database as the transaction
sees it and returns the one the next statement sees, or the error that aborts the transaction; a
caller that gets an error still has the database it started from, which is the rollback.

Each statement checks what PostgreSQL checks of it: that its texts can be stored (no NUL), the
`NOT NULL` and `CHECK` constraints of the migrations, the foreign keys, that an index takes the
entry (`Encoding.indexable`; of all indexes only the primary key of `metric_samples` has a column
whose size is not bounded, the name of the metric), and the primary key where the statement has no
conflict clause.  The proposed row of an upsert is checked before the
conflict is looked for, as PostgreSQL does.  (A reference is checked here even when the conflict
clause then leaves the old row alone and PostgreSQL would have nothing to check; `Ingest` has
written the row referred to in either case.)

## What is here

* The statements of a transaction, in the order of `store.go`, each with the error it fails with.
* `ingest` — `Store.Ingest`.

## What is left out

Of the limits of the server those that a response of at most 16 MiB cannot reach: the `integer`
columns `machine_count`, `error_count` and `error_index` do not overflow, no text and no `jsonb`
value is too large for its column, and a `uint64` always fits `numeric(20, 0)`.  That the server or
the connection to it fails is left out here; then nothing has been stored (`Poller/Worker.lean` has
such failures).
-/

set_option autoImplicit false

namespace NexusTier

open Relational

/-! ## Errors -/

/-- Why the database refuses a statement. -/
inductive PgError where
  /-- A text holds NUL. -/
  | untranslatableText
  | notNull (column : String)
  | check (constraint : String)
  | foreignKey (column : String)
  | primaryKey (table : String)
  /-- The index row size exceeds the maximum of the B-tree. -/
  | indexRowSize (index : String)
deriving DecidableEq

/-- Why `Ingest` fails: each error of the database under the statement that met it. -/
inductive IngestError where
  | validate (error : ValidationError)
  | insertRun (error : PgError)
  | reused (collectionID : Uuid)
  | insertErrors (scope : ErrorScope) (error : PgError)
  | upsertMachine (machineID : Uuid) (error : PgError)
  | upsertInstance (instanceID : Uuid) (error : PgError)
  | upsertNode (instanceID : Uuid) (error : PgError)
  | upsertPeer (peerID : UInt32) (instanceID : Uuid) (error : PgError)
  | insertMetric (name : String) (instanceID : Uuid) (error : PgError)
  | markInstances (machineID : Uuid) (error : PgError)
  | markMachines (error : PgError)
  | markInstancesOfMachines (error : PgError)
deriving DecidableEq

/-! ## Texts -/

/-- PostgreSQL stores any text without NUL. -/
def storableText (text : String) : Bool := text.toList.all fun c => c.toNat != 0

/-- Every text of a statement can be stored. -/
def storable (texts : List String) : Bool := texts.all storableText

def TelemetryError.texts (e : TelemetryError) : List String := [e.code, e.operation, e.message]

def Device.texts (d : Device) : List String := [d.osType, d.osVersion, d.distribution]

/-- The texts of a session that the `machines` row takes. -/
def Session.texts (s : Session) : List String :=
  [s.remoteURL, s.hostname, s.easyTierVersion, s.reportTime] ++ s.device.toList.flatMap Device.texts

def Node.texts (n : Node) : List String :=
  [n.ipv4, n.hostname, n.version] ++ n.proxyCIDRs.elems ++ n.listeners.elems

def Peer.texts (p : Peer) : List String :=
  [p.hostname, p.version] ++ p.ipv4.toList ++ p.tunnelProtocols.elems

def Metric.texts (m : Metric) : List String :=
  m.name :: m.labels.toList.flatMap fun l => l.entries.flatMap fun e => [e.1, e.2]

def Instance.texts (i : Instance) : List String :=
  i.node.toList.flatMap Node.texts ++ i.peers.elems.flatMap Peer.texts ++
    i.metrics.elems.flatMap Metric.texts ++ i.errors.elems.flatMap TelemetryError.texts

def Machine.texts (m : Machine) : List String :=
  m.session.texts ++ m.instances.elems.flatMap Instance.texts ++
    m.errors.elems.flatMap TelemetryError.texts

/-- Every text of a snapshot: what its JSON encoding carries. -/
def Snapshot.texts (s : Snapshot) : List String :=
  s.schemaVersion :: s.machines.elems.flatMap Machine.texts ++
    s.errors.elems.flatMap TelemetryError.texts

/-! ## Helpers of `store.go` -/

def hasOperationError (errors : Slice TelemetryError) (operation : String) : Bool :=
  errors.elems.any fun e => e.operation == operation

def countErrors (snapshot : Snapshot) : Nat :=
  snapshot.errors.elems.length +
    (snapshot.machines.elems.map fun machine =>
      machine.errors.elems.length +
        (machine.instances.elems.map fun inst => inst.errors.elems.length).sum).sum

/-- `decimalString`: a `uint64` reaches its `numeric(20, 0)` column as the number it denotes. -/
def decimalString (value : Option UInt64) : Option Nat := value.map UInt64.toNat

/-- The range check of the peer id columns. -/
def peerIDInRange (id : Int) : Bool := decide (0 ≤ id) && decide (id ≤ 4294967295)

/-- The check `column IS NULL OR column >= 0`. -/
def nullOrNonneg (value : Option ℚ) : Bool := value.all fun x => decide (0 ≤ x)

section Statements

variable (collectionID : Uuid) (completedAt : Timestamp)

/-! ## `upsertMachine` -/

def machineColumns (machine : Machine) : MachineColumns where
  remoteURL := machine.session.remoteURL
  hostname := machine.session.hostname
  easyTierVersion := machine.session.easyTierVersion
  reportTime := machine.session.reportTime
  connectedAt := millis machine.session.connectedAtMS
  lastHeartbeatAt := millis machine.session.lastHeartbeatAtMS
  deviceOSType := machine.session.device.map Device.osType
  deviceOSVersion := machine.session.device.map Device.osVersion
  deviceDistribution := machine.session.device.map Device.distribution

def upsertMachine (machine : Machine) (db : Db) : Except IngestError Db := do
  let id := machine.session.machineID
  let observedAt := millis machine.observedAtMS
  let new := Tracked.fresh (machineColumns machine) observedAt completedAt collectionID
  check (storable machine.session.texts) (.upsertMachine id .untranslatableText)
  check (db.collectionRuns.contains collectionID)
    (.upsertMachine id (.foreignKey "last_collection_id"))
  return { db with
    machines := db.machines.upsert id new fun old =>
      if old.olderThan observedAt completedAt then new else old }

/-! ## `ingestInstance` -/

/-- The first statement of `ingestInstance`. -/
def upsertInstance (machineID : Uuid) (inst : Instance) (db : Db) : Except IngestError Db := do
  let id := inst.instanceID
  let observedAt := millis inst.observedAtMS
  let new := Tracked.fresh { machineID : InstanceColumns } observedAt completedAt collectionID
  check (db.machines.contains machineID) (.upsertInstance id (.foreignKey "machine_id"))
  check (db.collectionRuns.contains collectionID)
    (.upsertInstance id (.foreignKey "last_collection_id"))
  return { db with
    networkInstances := db.networkInstances.upsert id new fun old =>
      if old.olderThan observedAt completedAt then new else old }

def nodeColumns (node : Node) : NodeColumns where
  peerID := node.peerID.toNat
  ipv4 := node.ipv4
  hostname := node.hostname
  proxyCIDRs := node.proxyCIDRs.elems
  listeners := node.listeners.elems
  easyTierVersion := node.version

def upsertNode (inst : Instance) (node : Node) (db : Db) : Except IngestError Db := do
  let id := inst.instanceID
  let observedAt := millis inst.observedAtMS
  let new : NodeRow := ⟨nodeColumns node, observedAt, completedAt, collectionID⟩
  check (storable node.texts) (.upsertNode id .untranslatableText)
  check node.proxyCIDRs.isSome (.upsertNode id (.notNull "proxy_cidrs"))
  check node.listeners.isSome (.upsertNode id (.notNull "listeners"))
  check (peerIDInRange new.value.peerID) (.upsertNode id (.check "nodes_peer_id_check"))
  check (db.networkInstances.contains id) (.upsertNode id (.foreignKey "instance_id"))
  check (db.collectionRuns.contains collectionID)
    (.upsertNode id (.foreignKey "last_collection_id"))
  return { db with
    nodes := db.nodes.upsert id new fun old =>
      if old.olderThan observedAt completedAt then new else old }

/-- The node is written only where the instance reports one. -/
def upsertReportedNode (inst : Instance) (db : Db) : Except IngestError Db :=
  match inst.node with
  | none => .ok db
  | some node => upsertNode collectionID completedAt inst node db

def peerColumns (peer : Peer) : PeerColumns where
  ipv4 := peer.ipv4
  hostname := peer.hostname
  nextHopPeerID := peer.nextHopPeerID.toNat
  direct := peer.direct
  pathCost := peer.pathCost
  latencyMS := peer.latencyMS
  lossRate := peer.lossRate
  rxBytes := decimalString peer.rxBytes
  txBytes := decimalString peer.txBytes
  tunnelProtocols := peer.tunnelProtocols.elems
  easyTierVersion := peer.version

/-- The `SET` list of the peer upsert: without the details of `list_peers`, the measurements of
the stored link stay, and so does a direct latency. -/
def mergePeer (detailsComplete : Bool) (old new : PeerColumns) : PeerColumns where
  ipv4 := new.ipv4
  hostname := new.hostname
  nextHopPeerID := new.nextHopPeerID
  direct := new.direct
  pathCost := new.pathCost
  latencyMS := if detailsComplete || !new.direct then new.latencyMS else old.latencyMS
  lossRate := if detailsComplete then new.lossRate else old.lossRate
  rxBytes := if detailsComplete then new.rxBytes else old.rxBytes
  txBytes := if detailsComplete then new.txBytes else old.txBytes
  tunnelProtocols := if detailsComplete then new.tunnelProtocols else old.tunnelProtocols
  easyTierVersion := new.easyTierVersion

def upsertPeer (inst : Instance) (detailsComplete : Bool) (peer : Peer) (db : Db) :
    Except IngestError Db := do
  let key : LinkKey := ⟨inst.instanceID, peer.peerID.toNat⟩
  let observedAt := millis inst.observedAtMS
  let new : PeerRow := ⟨peerColumns peer, observedAt, completedAt, collectionID⟩
  let fail (e : PgError) : IngestError := .upsertPeer peer.peerID inst.instanceID e
  check (storable peer.texts) (fail .untranslatableText)
  check peer.tunnelProtocols.isSome (fail (.notNull "tunnel_protocols"))
  check (peerIDInRange key.destination) (fail (.check "destination_peer_id"))
  check (peerIDInRange new.value.nextHopPeerID) (fail (.check "next_hop_peer_id"))
  check (nullOrNonneg peer.latencyMS) (fail (.check "latency_ms"))
  check (nullOrNonneg peer.lossRate) (fail (.check "loss_rate"))
  check (db.networkInstances.contains inst.instanceID) (fail (.foreignKey "source_instance_id"))
  check (db.collectionRuns.contains collectionID) (fail (.foreignKey "last_collection_id"))
  return { db with
    peerLinks := db.peerLinks.upsert key new fun old =>
      if old.olderThan observedAt completedAt then
        { new with value := mergePeer detailsComplete old.value new.value }
      else old }

/-- The `DELETE` of `ingestInstance`: links of the instance that the report does not list and that
are older than it. -/
def removeStalePeers (inst : Instance) (db : Db) : Db :=
  let peerIDs := inst.peers.elems.map fun peer => (peer.peerID.toNat : Int)
  { db with
    peerLinks := db.peerLinks.deleteWhere fun key row =>
      decide (key.source = inst.instanceID) &&
        row.olderThan (millis inst.observedAtMS) completedAt && !peerIDs.contains key.destination }

def metricKey (E : Encoding) (instanceID : Uuid) (metric : Metric) : MetricKey :=
  ⟨collectionID, instanceID, metric.name, (E.sha256 (E.marshalLabels metric.labels)).text⟩

def insertMetric (E : Encoding) (inst : Instance) (metric : Metric) (db : Db) :
    Except IngestError Db := do
  let fail (e : PgError) : IngestError := .insertMetric metric.name inst.instanceID e
  let new : MetricRow :=
    ⟨E.jsonb (E.marshalLabels metric.labels), metric.value.toNat, millis inst.observedAtMS⟩
  check (storable metric.texts) (fail .untranslatableText)
  check (db.collectionRuns.contains collectionID) (fail (.foreignKey "collection_id"))
  check (db.networkInstances.contains inst.instanceID) (fail (.foreignKey "instance_id"))
  check (E.indexable metric.name) (fail (.indexRowSize "metric_samples_pkey"))
  match db.metricSamples.insertNew (metricKey collectionID E inst.instanceID metric) new with
  | none => .error (fail (.primaryKey "metric_samples"))
  | some metricSamples => return { db with metricSamples }

def ingestInstance (E : Encoding) (machineID : Uuid) (inst : Instance) (db : Db) :
    Except IngestError Db := do
  let db ← upsertInstance collectionID completedAt machineID inst db
  let db ← upsertReportedNode collectionID completedAt inst db
  let peerDetailsComplete := !hasOperationError inst.errors "list_peers"
  let db ← inst.peers.elems.foldlM
    (fun db peer => upsertPeer collectionID completedAt inst peerDetailsComplete peer db) db
  let db := if hasOperationError inst.errors "list_routes" then db
    else removeStalePeers completedAt inst db
  inst.metrics.elems.foldlM (fun db metric => insertMetric collectionID E inst metric db) db

/-! ## Entities that a complete enumeration did not list -/

def Machine.instanceIDs (machine : Machine) : List Uuid :=
  machine.instances.elems.map Instance.instanceID

/-- The `WHERE` of `markMissingInstancesInactive`. -/
def instanceMissing (machine : Machine) (id : Uuid) (columns : InstanceColumns) : Bool :=
  decide (columns.machineID = machine.session.machineID) && !machine.instanceIDs.contains id

def markMissingInstancesInactive (machine : Machine) (db : Db) : Except IngestError Db := do
  let missed (id : Uuid) (row : InstanceRow) : Bool :=
    row.missedBy (instanceMissing machine id) completedAt
  check (db.collectionRuns.contains collectionID || !db.networkInstances.any missed)
    (.markInstances machine.session.machineID (.foreignKey "last_collection_id"))
  return { db with
    networkInstances :=
      db.networkInstances.updateWhere missed (Tracked.deactivate completedAt collectionID) }

def machineIDs (machines : List Machine) : List Uuid :=
  machines.map fun machine => machine.session.machineID

def markMissingMachinesInactive (machines : List Machine) (db : Db) : Except IngestError Db := do
  let ids := machineIDs machines
  let missedMachine (id : Uuid) (row : MachineRow) : Bool :=
    row.missedBy (fun _ => !ids.contains id) completedAt
  let missedInstance (_ : Uuid) (row : InstanceRow) : Bool :=
    row.missedBy (fun columns => !ids.contains columns.machineID) completedAt
  check (db.collectionRuns.contains collectionID || !db.machines.any missedMachine)
    (.markMachines (.foreignKey "last_collection_id"))
  check (db.collectionRuns.contains collectionID || !db.networkInstances.any missedInstance)
    (.markInstancesOfMachines (.foreignKey "last_collection_id"))
  return { db with
    machines := db.machines.updateWhere missedMachine (Tracked.deactivate completedAt collectionID)
    networkInstances :=
      db.networkInstances.updateWhere missedInstance
        (Tracked.deactivate completedAt collectionID) }

/-! ## The error log -/

/-- The transaction inside the machine loop: the database, and the index of the next error. -/
structure Progress where
  db : Db
  errorIndex : Nat

/-- One pass of the loop of `insertErrors`. -/
def insertError (scope : ErrorScope) (machineID instanceID : Uuid) (p : Progress)
    (e : TelemetryError) : Except IngestError Progress := do
  let new : ErrorRow :=
    { scope
      machineID := if machineID = Uuid.nil then none else some machineID
      instanceID := if instanceID = Uuid.nil then none else some instanceID
      code := e.code
      operation := e.operation
      message := e.message }
  check (storable e.texts) (.insertErrors scope .untranslatableText)
  check (p.db.collectionRuns.contains collectionID)
    (.insertErrors scope (.foreignKey "collection_id"))
  match p.db.collectionErrors.insertNew ⟨collectionID, p.errorIndex⟩ new with
  | none => .error (.insertErrors scope (.primaryKey "telemetry_collection_errors"))
  | some collectionErrors => return ⟨{ p.db with collectionErrors }, p.errorIndex + 1⟩

def insertErrors (scope : ErrorScope) (machineID instanceID : Uuid)
    (errors : Slice TelemetryError) (p : Progress) : Except IngestError Progress :=
  errors.elems.foldlM (insertError collectionID scope machineID instanceID) p

/-! ## `Ingest` -/

/-- The body of the instance loop. -/
def ingestInstanceStep (E : Encoding) (machineID : Uuid) (p : Progress) (inst : Instance) :
    Except IngestError Progress := do
  let db ← ingestInstance collectionID completedAt E machineID inst p.db
  insertErrors collectionID .networkInstance machineID inst.instanceID inst.errors
    ⟨db, p.errorIndex⟩

/-- The body of the machine loop. -/
def ingestMachineStep (E : Encoding) (p : Progress) (machine : Machine) :
    Except IngestError Progress := do
  let db ← upsertMachine collectionID completedAt machine p.db
  let p ← insertErrors collectionID .machine machine.session.machineID Uuid.nil machine.errors
    ⟨db, p.errorIndex⟩
  let p ← machine.instances.elems.foldlM
    (ingestInstanceStep collectionID completedAt E machine.session.machineID) p
  if hasOperationError machine.errors "list_network_instances" then
    return p
  else
    let db ← markMissingInstancesInactive collectionID completedAt machine p.db
    return ⟨db, p.errorIndex⟩

end Statements

/-- The row `Ingest` inserts for the collection itself. -/
def runRow (E : Encoding) (now : Timestamp) (snapshot : Snapshot) : RunRow where
  schemaVersion := snapshot.schemaVersion
  startedAt := millis snapshot.startedAtMS
  completedAt := millis snapshot.completedAtMS
  collectedAt := millis snapshot.collectedAtMS
  status := if countErrors snapshot > 0 then .withErrors else .complete
  machineCount := snapshot.machines.elems.length
  errorCount := countErrors snapshot
  rawPayload := E.jsonb (E.marshal snapshot)
  rawPayloadSHA256 := some (E.sha256 (E.marshal snapshot))
  payloadPrunedAt := none
  ingestedAt := now

/-- The query of the duplicate branch: by fingerprint where the run has one, else by payload. -/
def RunRow.matchesPayload (E : Encoding) (snapshot : Snapshot) (run : RunRow) : Bool :=
  match run.rawPayloadSHA256 with
  | some digest => decide (digest = E.sha256 (E.marshal snapshot))
  | none => decide (run.rawPayload = E.jsonb (E.marshal snapshot))

/-- What `Ingest` does once the run has been inserted. -/
def ingestBody (E : Encoding) (snapshot : Snapshot) (db : Db) : Except IngestError Db := do
  let collectionID := snapshot.collectionID
  let completedAt := millis snapshot.completedAtMS
  let p ← insertErrors collectionID .snapshot Uuid.nil Uuid.nil snapshot.errors ⟨db, 0⟩
  let p ← snapshot.machines.elems.foldlM (ingestMachineStep collectionID completedAt E) p
  if snapshot.errors.elems.isEmpty then
    markMissingMachinesInactive collectionID completedAt snapshot.machines.elems p.db
  else
    return p.db

/-- `Store.Ingest`, at the server's time `now`: whether the snapshot was new, and the database
after the commit. -/
def ingest (E : Encoding) (now : Timestamp) (snapshot : Snapshot) (db : Db) :
    Except IngestError (Bool × Db) := do
  (snapshot.validate).mapError .validate
  let run := runRow E now snapshot
  check (storable snapshot.texts) (.insertRun .untranslatableText)
  check (run.startedAt ≤ run.completedAt) (.insertRun (.check "started_at <= completed_at"))
  check (run.collectedAt = run.completedAt) (.insertRun (.check "collected_at = completed_at"))
  match db.collectionRuns[snapshot.collectionID]? with
  | some stored =>
    check (stored.matchesPayload E snapshot) (.reused snapshot.collectionID)
    return (false, db)
  | none =>
    let db ← ingestBody E snapshot
      { db with collectionRuns := db.collectionRuns.insert snapshot.collectionID run }
    return (true, db)

end NexusTier
