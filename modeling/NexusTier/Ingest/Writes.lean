import NexusTier.Relational.Loop
import NexusTier.Retention.Store

/-!
# What an ingestion writes

`Ingest` interleaves its statements over six tables, inside three nested loops.  But no statement
reads a table other than the one it writes, so what a successful ingestion does can be told table
by table: a `Writes` is a list of statements for each table, `Writes.exec` runs it, and
`Snapshot.writes` is the one a snapshot amounts to.

`ingest_eq_ok_true` is the connection: an ingestion that returns `true` has passed `Validate`,
has found its collection id unused, and has executed exactly `snapshot.writes`.  Everything later
is about these lists; what a statement list does to one row is in `Relational.Stamped`, and here
for links.

## What is here

* `Writes`, `Writes.exec` and `Writes.append`: statements, table by table.
* `Snapshot.writes`: those of a snapshot, and `Snapshot.apply`, the database after them.
* `ingest_eq_ok_true`: an ingestion that returns `true` has executed them.
* `Op.exec_cases`: what any call does to the database.

## What is left out

Which ingestions come through; here one that has is given, and `Ingest/Storable.lean` says which
these are.
-/

set_option autoImplicit false

namespace NexusTier

open Relational

/-! ## Statements on `nodes` and `peer_links_current` -/

/-- The node upsert, as a write of the row proposed. -/
def putNode (t : Table Uuid NodeRow) (w : Uuid × NodeRow) : Table Uuid NodeRow :=
  t.upsert w.1 w.2 fun old =>
    if old.olderThan w.2.observedAt w.2.completedAt then w.2 else old

/-- A statement on `peer_links_current`. -/
inductive LinkWrite where
  /-- The upsert of a link. -/
  | put (key : LinkKey) (new : PeerRow) (detailsComplete : Bool)
  /-- The removal of the older links of `source` that are not in `listed`. -/
  | clear (source : Uuid) (listed : List Int) (observedAt completedAt : Timestamp)

namespace LinkWrite

/-- Run a statement on the table. -/
def exec (t : Table LinkKey PeerRow) : LinkWrite → Table LinkKey PeerRow
  | put key new detailsComplete =>
    t.upsert key new fun old =>
      if old.olderThan new.observedAt new.completedAt then
        { new with value := mergePeer detailsComplete old.value new.value }
      else old
  | clear source listed o c =>
    t.deleteWhere fun key row =>
      decide (key.source = source) && row.olderThan o c && !listed.contains key.destination

/-- What a statement does to the row at key `k`. -/
def act (k : LinkKey) (r : Option PeerRow) : LinkWrite → Option PeerRow
  | put key new detailsComplete =>
    if key = k then
      some (Table.upsertRow new (fun old =>
        if old.olderThan new.observedAt new.completedAt then
          { new with value := mergePeer detailsComplete old.value new.value }
        else old) r)
    else r
  | clear source listed o c =>
    r.filter fun row =>
      !(decide (k.source = source) && row.olderThan o c && !listed.contains k.destination)

theorem getElem?_exec (t : Table LinkKey PeerRow) (w : LinkWrite) (k : LinkKey) :
    (w.exec t)[k]? = w.act k t[k]? := by
  cases w with
  | put key new detailsComplete => simp [exec, act]
  | clear source listed o c => simp [exec, act]

theorem getElem?_execAll (ws : List LinkWrite) (t : Table LinkKey PeerRow) (k : LinkKey) :
    (ws.foldl exec t)[k]? = ws.foldl (act k) t[k]? := by
  induction ws generalizing t with
  | nil => rfl
  | cons w ws ih => rw [List.foldl_cons, ih, getElem?_exec, List.foldl_cons]

end LinkWrite

/-- What a node write does to the row of instance `i`. -/
def actNode (i : Uuid) (r : Option NodeRow) (w : Uuid × NodeRow) : Option NodeRow :=
  if w.1 = i then
    some (Table.upsertRow w.2 (fun old =>
      if old.olderThan w.2.observedAt w.2.completedAt then w.2 else old) r)
  else r

theorem getElem?_putNodes (ws : List (Uuid × NodeRow)) (t : Table Uuid NodeRow) (i : Uuid) :
    (ws.foldl putNode t)[i]? = ws.foldl (actNode i) t[i]? := by
  induction ws generalizing t with
  | nil => rfl
  | cons w ws ih => rw [List.foldl_cons, ih, List.foldl_cons]; simp [putNode, actNode]

/-! ## Write sets -/

/-- The statements of a part of an ingestion, table by table. -/
structure Writes where
  machines : List (Notice Uuid Timestamp Uuid MachineColumns) := []
  instances : List (Notice Uuid Timestamp Uuid InstanceColumns) := []
  nodes : List (Uuid × NodeRow) := []
  links : List LinkWrite := []
  metrics : List (MetricKey × MetricRow) := []
  errors : List ErrorRow := []

namespace Writes

/-- One part after the other. -/
def append (w w' : Writes) : Writes where
  machines := w.machines ++ w'.machines
  instances := w.instances ++ w'.instances
  nodes := w.nodes ++ w'.nodes
  links := w.links ++ w'.links
  metrics := w.metrics ++ w'.metrics
  errors := w.errors ++ w'.errors

instance : Append Writes := ⟨append⟩

/-- The parts of a loop, one for each element. -/
def each {α : Type} (l : List α) (w : α → Writes) : Writes where
  machines := l.flatMap fun a => (w a).machines
  instances := l.flatMap fun a => (w a).instances
  nodes := l.flatMap fun a => (w a).nodes
  links := l.flatMap fun a => (w a).links
  metrics := l.flatMap fun a => (w a).metrics
  errors := l.flatMap fun a => (w a).errors

@[simp] theorem append_machines (w w' : Writes) : (w ++ w').machines = w.machines ++ w'.machines := rfl

@[simp] theorem append_instances (w w' : Writes) : (w ++ w').instances = w.instances ++ w'.instances := rfl

@[simp] theorem append_nodes (w w' : Writes) : (w ++ w').nodes = w.nodes ++ w'.nodes := rfl

@[simp] theorem append_links (w w' : Writes) : (w ++ w').links = w.links ++ w'.links := rfl

@[simp] theorem append_metrics (w w' : Writes) : (w ++ w').metrics = w.metrics ++ w'.metrics := rfl

@[simp] theorem append_errors (w w' : Writes) : (w ++ w').errors = w.errors ++ w'.errors := rfl

@[simp] theorem each_machines {α : Type} (l : List α) (w : α → Writes) :
    (each l w).machines = l.flatMap fun a => (w a).machines := rfl

@[simp] theorem each_instances {α : Type} (l : List α) (w : α → Writes) :
    (each l w).instances = l.flatMap fun a => (w a).instances := rfl

@[simp] theorem each_nodes {α : Type} (l : List α) (w : α → Writes) :
    (each l w).nodes = l.flatMap fun a => (w a).nodes := rfl

@[simp] theorem each_links {α : Type} (l : List α) (w : α → Writes) :
    (each l w).links = l.flatMap fun a => (w a).links := rfl

@[simp] theorem each_metrics {α : Type} (l : List α) (w : α → Writes) :
    (each l w).metrics = l.flatMap fun a => (w a).metrics := rfl

@[simp] theorem each_errors {α : Type} (l : List α) (w : α → Writes) :
    (each l w).errors = l.flatMap fun a => (w a).errors := rfl

/-- The error log with one more row, and the index after it. -/
def logError (collectionID : Uuid) (p : Table ErrorKey ErrorRow × Nat) (row : ErrorRow) :
    Table ErrorKey ErrorRow × Nat :=
  (p.1.insert ⟨collectionID, p.2⟩ row, p.2 + 1)

/-- Execute a write set. -/
def exec (collectionID : Uuid) (w : Writes) (p : Progress) : Progress where
  db :=
    { p.db with
      machines := w.machines.foldl Notice.exec p.db.machines
      networkInstances := w.instances.foldl Notice.exec p.db.networkInstances
      nodes := w.nodes.foldl putNode p.db.nodes
      peerLinks := w.links.foldl LinkWrite.exec p.db.peerLinks
      metricSamples := w.metrics.foldl (fun t e => t.insert e.1 e.2) p.db.metricSamples
      collectionErrors :=
        (w.errors.foldl (logError collectionID) (p.db.collectionErrors, p.errorIndex)).1 }
  errorIndex := (w.errors.foldl (logError collectionID) (p.db.collectionErrors, p.errorIndex)).2

variable {collectionID : Uuid} {p p' : Progress}

@[simp] theorem exec_append (w w' : Writes) :
    (w ++ w').exec collectionID p = w'.exec collectionID (w.exec collectionID p) := by
  show (w.append w').exec collectionID p = _
  simp [append, exec, List.foldl_append]

@[simp] theorem exec_empty : ({} : Writes).exec collectionID p = p := rfl

theorem each_cons {α : Type} (a : α) (l : List α) (w : α → Writes) :
    each (a :: l) w = w a ++ each l w := rfl

/-- A loop whose body executes a write set for each element executes them all, in order. -/
theorem foldlM_exec {α : Type} {f : Progress → α → Except IngestError Progress} {l : List α}
    {w : α → Writes} (h : ∀ a ∈ l, ∀ p p', f p a = .ok p' → p' = (w a).exec collectionID p)
    (hp : l.foldlM f p = .ok p') : p' = (each l w).exec collectionID p := by
  rw [foldlM_eq_foldl h hp]
  clear h hp
  induction l generalizing p with
  | nil => rfl
  | cons a l ih => rw [List.foldl_cons, ih, each_cons, exec_append]

end Writes

/-! ## The write set of a snapshot -/

section

variable (E : Encoding) (collectionID : Uuid) (completedAt : Timestamp)

def errorRow (scope : ErrorScope) (machineID instanceID : Uuid) (e : TelemetryError) : ErrorRow :=
  { scope
    machineID := if machineID = Uuid.nil then none else some machineID
    instanceID := if instanceID = Uuid.nil then none else some instanceID
    code := e.code
    operation := e.operation
    message := e.message }

def errorWrites (scope : ErrorScope) (machineID instanceID : Uuid) (errors : Slice TelemetryError) :
    Writes :=
  { errors := errors.elems.map (errorRow scope machineID instanceID) }

def peerRow (inst : Instance) (peer : Peer) : PeerRow :=
  ⟨peerColumns peer, millis inst.observedAtMS, completedAt, collectionID⟩

/-- The statements on the links of an instance: its peers, then the removal of those not listed,
unless the routes could not be listed. -/
def linkWrites (inst : Instance) : List LinkWrite :=
  (inst.peers.elems.map fun peer =>
    .put ⟨inst.instanceID, peer.peerID.toNat⟩ (peerRow collectionID completedAt inst peer)
      (!hasOperationError inst.errors "list_peers")) ++
  if hasOperationError inst.errors "list_routes" then []
  else [.clear inst.instanceID (inst.peers.elems.map fun peer => (peer.peerID.toNat : Int))
    (millis inst.observedAtMS) completedAt]

/-- The statements of one instance leave the links of another alone. -/
theorem foldl_linkWrites_of_ne {inst : Instance} {k : LinkKey} (hne : inst.instanceID ≠ k.source)
    (r : Option PeerRow) :
    (linkWrites collectionID completedAt inst).foldl (LinkWrite.act k) r = r := by
  have hact : ∀ w ∈ linkWrites collectionID completedAt inst, ∀ r, w.act k r = r := by
    intro w hw r
    rcases List.mem_append.1 hw with hw | hw
    · obtain ⟨peer, _, rfl⟩ := List.mem_map.1 hw
      exact if_neg fun h => hne (congrArg LinkKey.source h)
    · split at hw
      · simp at hw
      · rw [List.mem_singleton.1 hw]
        cases r with
        | none => rfl
        | some row => simp [LinkWrite.act, Ne.symm hne]
  generalize linkWrites collectionID completedAt inst = ws at hact
  induction ws with
  | nil => rfl
  | cons w ws ih =>
    rw [List.foldl_cons, hact w (by simp)]
    exact ih fun w' hw' => hact w' (List.mem_cons_of_mem _ hw')

def instanceReport (machineID : Uuid) (inst : Instance) :
    Notice Uuid Timestamp Uuid InstanceColumns :=
  .report inst.instanceID ⟨machineID⟩ (millis inst.observedAtMS) completedAt collectionID

def nodeWrites (inst : Instance) : List (Uuid × NodeRow) :=
  inst.node.toList.map fun node =>
    (inst.instanceID, ⟨nodeColumns node, millis inst.observedAtMS, completedAt, collectionID⟩)

def metricWrites (inst : Instance) : List (MetricKey × MetricRow) :=
  inst.metrics.elems.map fun metric =>
    (metricKey collectionID E inst.instanceID metric,
      ⟨E.jsonb (E.marshalLabels metric.labels), metric.value.toNat, millis inst.observedAtMS⟩)

def instanceWrites (machineID : Uuid) (inst : Instance) : Writes where
  instances := [instanceReport collectionID completedAt machineID inst]
  nodes := nodeWrites collectionID completedAt inst
  links := linkWrites collectionID completedAt inst
  metrics := metricWrites E collectionID inst
  errors := inst.errors.elems.map (errorRow .networkInstance machineID inst.instanceID)

def machineReport (machine : Machine) : Notice Uuid Timestamp Uuid MachineColumns :=
  .report machine.session.machineID (machineColumns machine) (millis machine.observedAtMS)
    completedAt collectionID

/-- The instances of a machine that listed its instances, and not this one. -/
def instancesMissing (machine : Machine) : List (Notice Uuid Timestamp Uuid InstanceColumns) :=
  if hasOperationError machine.errors "list_network_instances" then []
  else [.missing (instanceMissing machine) completedAt collectionID]

def machineWrites (machine : Machine) : Writes :=
  { machines := [machineReport collectionID completedAt machine]
    errors := machine.errors.elems.map (errorRow .machine machine.session.machineID Uuid.nil) } ++
  Writes.each machine.instances.elems
    (instanceWrites E collectionID completedAt machine.session.machineID) ++
  { instances := instancesMissing collectionID completedAt machine }

end

/-- What the last two statements of `Ingest` say: nothing, if the collection had errors. -/
def missingWrites (snapshot : Snapshot) : Writes :=
  let ids := machineIDs snapshot.machines.elems
  let completedAt := millis snapshot.completedAtMS
  if snapshot.errors.elems.isEmpty then
    { machines := [.missing (fun id _ => !ids.contains id) completedAt snapshot.collectionID]
      instances := [.missing (fun _ columns => !ids.contains columns.machineID) completedAt
        snapshot.collectionID] }
  else {}

/-- **What a snapshot writes.** -/
def Snapshot.writes (E : Encoding) (snapshot : Snapshot) : Writes :=
  errorWrites .snapshot Uuid.nil Uuid.nil snapshot.errors ++
  Writes.each snapshot.machines.elems
    (machineWrites E snapshot.collectionID (millis snapshot.completedAtMS)) ++
  missingWrites snapshot

/-! ### The statements on each table -/

theorem flatMap_eq_nil {α β : Type} (l : List α) : l.flatMap (fun _ => ([] : List β)) = [] :=
  List.flatMap_eq_nil_iff.2 fun _ _ => rfl

namespace Snapshot

variable (E : Encoding) (snapshot : Snapshot)

/-- The statements on `machines`: a report of each machine, then perhaps the missing ones. -/
def machineNotices : List (Notice Uuid Timestamp Uuid MachineColumns) :=
  snapshot.machines.elems.map
      (machineReport snapshot.collectionID (millis snapshot.completedAtMS)) ++
    (missingWrites snapshot).machines

/-- The statements on `network_instances`: machine by machine its instances, then those missing
on it; at the end perhaps those of the missing machines. -/
def instanceNotices : List (Notice Uuid Timestamp Uuid InstanceColumns) :=
  (snapshot.machines.elems.flatMap fun machine =>
    machine.instances.elems.map (instanceReport snapshot.collectionID
        (millis snapshot.completedAtMS) machine.session.machineID) ++
      instancesMissing snapshot.collectionID (millis snapshot.completedAtMS) machine) ++
    (missingWrites snapshot).instances

/-- The instances of a snapshot, in the order `Ingest` visits them. -/
def instances : List Instance :=
  snapshot.machines.elems.flatMap fun machine => machine.instances.elems

theorem writes_machines : (snapshot.writes E).machines = snapshot.machineNotices := by
  simp [writes, errorWrites, machineWrites, instanceWrites, machineNotices, flatMap_eq_nil,
    List.map_eq_flatMap]

theorem writes_instances : (snapshot.writes E).instances = snapshot.instanceNotices := by
  simp [writes, errorWrites, machineWrites, instanceWrites, instanceNotices, List.map_eq_flatMap]

theorem writes_nodes : (snapshot.writes E).nodes =
    snapshot.instances.flatMap
      (nodeWrites snapshot.collectionID (millis snapshot.completedAtMS)) := by
  have hmissing : (missingWrites snapshot).nodes = [] := by
    rw [missingWrites]; split <;> rfl
  simp [writes, errorWrites, machineWrites, instanceWrites, instances, hmissing,
    List.flatMap_assoc]

theorem writes_links : (snapshot.writes E).links =
    snapshot.instances.flatMap
      (linkWrites snapshot.collectionID (millis snapshot.completedAtMS)) := by
  have hmissing : (missingWrites snapshot).links = [] := by
    rw [missingWrites]; split <;> rfl
  simp [writes, errorWrites, machineWrites, instanceWrites, instances, hmissing,
    List.flatMap_assoc]

theorem writes_metrics : (snapshot.writes E).metrics =
    snapshot.instances.flatMap (metricWrites E snapshot.collectionID) := by
  have hmissing : (missingWrites snapshot).metrics = [] := by
    rw [missingWrites]; split <;> rfl
  simp [writes, errorWrites, machineWrites, instanceWrites, instances, hmissing,
    List.flatMap_assoc]

end Snapshot

/-! ## What each statement does, and when it succeeds -/

section

variable {E : Encoding} {collectionID : Uuid} {completedAt : Timestamp} {db db' : Db}
  {p p' : Progress}

theorem upsertMachine_eq_ok {machine : Machine} :
    upsertMachine collectionID completedAt machine db = .ok db' ↔
      storable machine.session.texts = true ∧ db.collectionRuns.contains collectionID = true ∧
      { db with machines := (machineReport collectionID completedAt machine).exec db.machines }
        = db' := by
  simp only [upsertMachine, unit_bind_eq_ok, check_eq_ok, pure_eq_ok]
  rfl

theorem upsertInstance_eq_ok {machineID : Uuid} {inst : Instance} :
    upsertInstance collectionID completedAt machineID inst db = .ok db' ↔
      db.machines.contains machineID = true ∧ db.collectionRuns.contains collectionID = true ∧
      { db with
        networkInstances :=
          (instanceReport collectionID completedAt machineID inst).exec db.networkInstances }
        = db' := by
  simp only [upsertInstance, unit_bind_eq_ok, check_eq_ok, pure_eq_ok]
  rfl

theorem peerIDInRange_toNat (id : UInt32) : peerIDInRange id.toNat = true := by
  have := id.toNat_lt
  simp [peerIDInRange]
  omega

theorem upsertNode_eq_ok {inst : Instance} {node : Node} :
    upsertNode collectionID completedAt inst node db = .ok db' ↔
      storable node.texts = true ∧ node.proxyCIDRs.isSome = true ∧ node.listeners.isSome = true ∧
      db.networkInstances.contains inst.instanceID = true ∧
      db.collectionRuns.contains collectionID = true ∧
      { db with
        nodes := putNode db.nodes (inst.instanceID,
          ⟨nodeColumns node, millis inst.observedAtMS, completedAt, collectionID⟩) } = db' := by
  simp only [upsertNode, unit_bind_eq_ok, check_eq_ok, pure_eq_ok, nodeColumns,
    peerIDInRange_toNat, true_and]
  rfl

theorem upsertPeer_eq_ok {inst : Instance} {detailsComplete : Bool} {peer : Peer} :
    upsertPeer collectionID completedAt inst detailsComplete peer db = .ok db' ↔
      storable peer.texts = true ∧ peer.tunnelProtocols.isSome = true ∧
      nullOrNonneg peer.latencyMS = true ∧ nullOrNonneg peer.lossRate = true ∧
      db.networkInstances.contains inst.instanceID = true ∧
      db.collectionRuns.contains collectionID = true ∧
      { db with
        peerLinks := (LinkWrite.put ⟨inst.instanceID, peer.peerID.toNat⟩
          (peerRow collectionID completedAt inst peer) detailsComplete).exec db.peerLinks }
        = db' := by
  simp only [upsertPeer, unit_bind_eq_ok, check_eq_ok, pure_eq_ok, peerColumns,
    peerIDInRange_toNat, true_and]
  rfl

theorem insertMetric_eq_ok {inst : Instance} {metric : Metric} :
    insertMetric collectionID E inst metric db = .ok db' ↔
      storable metric.texts = true ∧ db.collectionRuns.contains collectionID = true ∧
      db.networkInstances.contains inst.instanceID = true ∧ E.indexable metric.name = true ∧
      db.metricSamples[metricKey collectionID E inst.instanceID metric]? = none ∧
      { db with
        metricSamples := db.metricSamples.insert
          (metricKey collectionID E inst.instanceID metric)
          ⟨E.jsonb (E.marshalLabels metric.labels), metric.value.toNat,
            millis inst.observedAtMS⟩ } = db' := by
  simp only [insertMetric, unit_bind_eq_ok, check_eq_ok]
  refine and_congr_right fun _ => and_congr_right fun _ => and_congr_right fun _ =>
    and_congr_right fun _ => ?_
  split
  · rename_i hn
    rw [Table.insertNew] at hn
    split at hn
    · rename_i hc
      obtain ⟨v, hv⟩ := Table.contains_eq_true.1 hc
      simp [hv]
    · simp at hn
  · rename_i t ht
    obtain ⟨hnone, rfl⟩ := Table.insertNew_eq_some.1 ht
    simp [hnone]

theorem markMissingInstancesInactive_eq_ok {machine : Machine}
    (hrun : db.collectionRuns.contains collectionID = true) :
    markMissingInstancesInactive collectionID completedAt machine db = .ok db' ↔
      { db with
        networkInstances :=
          (Notice.missing (instanceMissing machine) completedAt collectionID).exec
            db.networkInstances } = db' := by
  simp only [markMissingInstancesInactive, unit_bind_eq_ok, check_eq_ok, pure_eq_ok, hrun,
    Bool.true_or, true_and]
  rfl

theorem insertError_eq_ok {scope : ErrorScope} {machineID instanceID : Uuid} {e : TelemetryError} :
    insertError collectionID scope machineID instanceID p e = .ok p' ↔
      storable e.texts = true ∧ p.db.collectionRuns.contains collectionID = true ∧
      p.db.collectionErrors[(⟨collectionID, p.errorIndex⟩ : ErrorKey)]? = none ∧
      ({ errors := [errorRow scope machineID instanceID e] } : Writes).exec collectionID p
        = p' := by
  simp only [insertError, unit_bind_eq_ok, check_eq_ok]
  refine and_congr_right fun _ => and_congr_right fun _ => ?_
  split
  · rename_i hn
    rw [Table.insertNew] at hn
    split at hn
    · rename_i hc
      obtain ⟨v, hv⟩ := Table.contains_eq_true.1 hc
      simp [hv]
    · simp at hn
  · rename_i t ht
    obtain ⟨hnone, rfl⟩ := Table.insertNew_eq_some.1 ht
    rw [pure_eq_ok]
    simp [hnone, Writes.exec, Writes.logError, errorRow]

/-! ## `Ingest` executes the write set of its snapshot -/

theorem insertErrors_exec {scope : ErrorScope} {machineID instanceID : Uuid}
    {errors : Slice TelemetryError}
    (h : insertErrors collectionID scope machineID instanceID errors p = .ok p') :
    p' = (errorWrites scope machineID instanceID errors).exec collectionID p := by
  have hstep : ∀ e ∈ errors.elems, ∀ p p',
      insertError collectionID scope machineID instanceID p e = .ok p' →
        p' = ({ errors := [errorRow scope machineID instanceID e] } : Writes).exec
          collectionID p :=
    fun _ _ _ _ he => (insertError_eq_ok.1 he).2.2.2.symm
  rw [Writes.foldlM_exec hstep h]
  simp [Writes.each, errorWrites, flatMap_eq_nil, ← List.map_eq_flatMap]

theorem upsertPeers_exec {inst : Instance} {detailsComplete : Bool} {peers : List Peer}
    (h : peers.foldlM
      (fun db peer => upsertPeer collectionID completedAt inst detailsComplete peer db) db
        = .ok db') :
    db' = { db with
      peerLinks := (peers.map fun peer =>
        LinkWrite.put ⟨inst.instanceID, peer.peerID.toNat⟩
          (peerRow collectionID completedAt inst peer) detailsComplete).foldl
            LinkWrite.exec db.peerLinks } := by
  induction peers generalizing db with
  | nil => exact (foldlM_nil_eq_ok.1 h).symm
  | cons peer peers ih =>
    obtain ⟨db₁, h₁, h₂⟩ := foldlM_cons_eq_ok.1 h
    obtain ⟨_, _, _, _, _, _, rfl⟩ := upsertPeer_eq_ok.1 h₁
    rw [ih h₂, List.map_cons, List.foldl_cons]

theorem insertMetrics_exec {inst : Instance} {metrics : List Metric}
    (h : metrics.foldlM (fun db metric => insertMetric collectionID E inst metric db) db
      = .ok db') :
    db' = { db with
      metricSamples := (metrics.map fun metric =>
        (metricKey collectionID E inst.instanceID metric,
          (⟨E.jsonb (E.marshalLabels metric.labels), metric.value.toNat,
            millis inst.observedAtMS⟩ : MetricRow))).foldl
              (fun t e => t.insert e.1 e.2) db.metricSamples } := by
  induction metrics generalizing db with
  | nil => exact (foldlM_nil_eq_ok.1 h).symm
  | cons metric metrics ih =>
    obtain ⟨db₁, h₁, h₂⟩ := foldlM_cons_eq_ok.1 h
    obtain ⟨_, _, _, _, _, rfl⟩ := insertMetric_eq_ok.1 h₁
    rw [ih h₂, List.map_cons, List.foldl_cons]

theorem upsertReportedNode_exec {inst : Instance}
    (h : upsertReportedNode collectionID completedAt inst db = .ok db') :
    db' = { db with
      nodes := (nodeWrites collectionID completedAt inst).foldl putNode db.nodes } := by
  rw [upsertReportedNode] at h
  cases hn : inst.node with
  | none =>
    rw [hn] at h
    simpa [nodeWrites, hn] using (Except.ok.inj h).symm
  | some node =>
    rw [hn] at h
    obtain ⟨_, _, _, _, _, rfl⟩ := upsertNode_eq_ok.1 h
    simp [nodeWrites, hn]

theorem ingestInstance_exec {machineID : Uuid} {inst : Instance} {n : Nat}
    (h : ingestInstance collectionID completedAt E machineID inst db = .ok db') :
    ⟨db', n⟩ = ({ instanceWrites E collectionID completedAt machineID inst with errors := [] } :
      Writes).exec collectionID ⟨db, n⟩ := by
  simp only [ingestInstance, bind_eq_ok] at h
  obtain ⟨db₁, h₁, db₂, h₂, db₃, h₃, h₄⟩ := h
  obtain ⟨_, _, rfl⟩ := upsertInstance_eq_ok.1 h₁
  have e₂ := upsertReportedNode_exec h₂
  have e₃ := upsertPeers_exec h₃
  have e₄ := insertMetrics_exec h₄
  subst e₂ e₃
  rw [e₄]
  by_cases hr : hasOperationError inst.errors "list_routes" = true
  · simp [hr, instanceWrites, linkWrites, metricWrites, Writes.exec]
  · simp [hr, instanceWrites, linkWrites, metricWrites, Writes.exec, removeStalePeers,
      LinkWrite.exec, List.foldl_append]

theorem ingestInstanceStep_exec {machineID : Uuid} {inst : Instance}
    (h : ingestInstanceStep collectionID completedAt E machineID p inst = .ok p') :
    p' = (instanceWrites E collectionID completedAt machineID inst).exec collectionID p := by
  simp only [ingestInstanceStep, bind_eq_ok] at h
  obtain ⟨db, h₁, h₂⟩ := h
  rw [insertErrors_exec h₂, ingestInstance_exec h₁]
  rfl

theorem markMissingInstancesInactive_exec {machine : Machine}
    (h : markMissingInstancesInactive collectionID completedAt machine db = .ok db') :
    db' = { db with
      networkInstances := (Notice.missing (instanceMissing machine) completedAt collectionID).exec
        db.networkInstances } := by
  simp only [markMissingInstancesInactive, unit_bind_eq_ok, check_eq_ok, pure_eq_ok] at h
  exact h.2.symm

theorem ingestMachineStep_exec {machine : Machine}
    (h : ingestMachineStep collectionID completedAt E p machine = .ok p') :
    p' = (machineWrites E collectionID completedAt machine).exec collectionID p := by
  simp only [ingestMachineStep, bind_eq_ok] at h
  obtain ⟨db, h₁, p₁, h₂, p₂, h₃, h₄⟩ := h
  have e₁ : p₁ = ({ machines := [machineReport collectionID completedAt machine]
                    errors := machine.errors.elems.map
                      (errorRow .machine machine.session.machineID Uuid.nil) } : Writes).exec
      collectionID p := by
    rw [insertErrors_exec h₂, ← (upsertMachine_eq_ok.1 h₁).2.2]
    rfl
  have e₂ := Writes.foldlM_exec (fun _ _ _ _ hs => ingestInstanceStep_exec hs) h₃
  rw [machineWrites, Writes.exec_append, Writes.exec_append, ← e₁, ← e₂]
  split at h₄
  · rename_i he
    rw [← pure_eq_ok.1 h₄]
    simp [instancesMissing, he, Writes.exec]
  · rename_i he
    rw [bind_eq_ok] at h₄
    obtain ⟨db₂, h₅, h₆⟩ := h₄
    rw [← pure_eq_ok.1 h₆, markMissingInstancesInactive_exec h₅]
    simp [instancesMissing, he, Writes.exec]

/-- What `Ingest` does to a database that already holds the run. -/
theorem ingestBody_exec {snapshot : Snapshot} (h : ingestBody E snapshot db = .ok db') :
    db' = ((snapshot.writes E).exec snapshot.collectionID ⟨db, 0⟩).db := by
  simp only [ingestBody, bind_eq_ok] at h
  obtain ⟨p₁, h₁, p₂, h₂, h₃⟩ := h
  have e₁ := insertErrors_exec h₁
  have e₂ := Writes.foldlM_exec (fun _ _ _ _ hs => ingestMachineStep_exec hs) h₂
  rw [Snapshot.writes, Writes.exec_append, Writes.exec_append, ← e₁, ← e₂]
  split at h₃
  · rename_i he
    simp only [markMissingMachinesInactive, unit_bind_eq_ok, check_eq_ok, pure_eq_ok] at h₃
    rw [← h₃.2.2]
    simp only [missingWrites, he, if_true]
    rfl
  · rename_i he
    rw [← pure_eq_ok.1 h₃]
    simp [missingWrites, he]

end

/-- The database after the snapshot's run has been inserted and its write set executed. -/
def Snapshot.apply (E : Encoding) (now : Timestamp) (snapshot : Snapshot) (db : Db) : Db :=
  ((snapshot.writes E).exec snapshot.collectionID
    ⟨{ db with
       collectionRuns := db.collectionRuns.insert snapshot.collectionID (runRow E now snapshot) },
     0⟩).db

namespace Snapshot

variable (E : Encoding) (now : Timestamp) (snapshot : Snapshot) (db : Db)

@[simp] theorem apply_collectionRuns : (snapshot.apply E now db).collectionRuns =
    db.collectionRuns.insert snapshot.collectionID (runRow E now snapshot) := rfl

@[simp] theorem apply_machines : (snapshot.apply E now db).machines =
    snapshot.machineNotices.foldl Notice.exec db.machines := by
  rw [← writes_machines E]; rfl

@[simp] theorem apply_networkInstances : (snapshot.apply E now db).networkInstances =
    snapshot.instanceNotices.foldl Notice.exec db.networkInstances := by
  rw [← writes_instances E]; rfl

@[simp] theorem apply_nodes : (snapshot.apply E now db).nodes =
    (snapshot.instances.flatMap (nodeWrites snapshot.collectionID
      (millis snapshot.completedAtMS))).foldl putNode db.nodes := by
  rw [← writes_nodes E]; rfl

@[simp] theorem apply_peerLinks : (snapshot.apply E now db).peerLinks =
    (snapshot.instances.flatMap (linkWrites snapshot.collectionID
      (millis snapshot.completedAtMS))).foldl LinkWrite.exec db.peerLinks := by
  rw [← writes_links E]; rfl

@[simp] theorem apply_metricSamples : (snapshot.apply E now db).metricSamples =
    (snapshot.instances.flatMap (metricWrites E snapshot.collectionID)).foldl
      (fun t e => t.insert e.1 e.2) db.metricSamples := by
  rw [← writes_metrics E]; rfl

end Snapshot

/-- The ways an ingestion can return without an error. -/
theorem ingest_eq_ok {E : Encoding} {now : Timestamp} {snapshot : Snapshot} {db db' : Db}
    {new : Bool} (h : ingest E now snapshot db = .ok (new, db')) :
    snapshot.Valid ∧ storable snapshot.texts = true ∧
      ((∃ run, db.collectionRuns[snapshot.collectionID]? = some run ∧
          run.matchesPayload E snapshot = true ∧ new = false ∧ db' = db) ∨
        (db.collectionRuns[snapshot.collectionID]? = none ∧ new = true ∧
          db' = snapshot.apply E now db)) := by
  simp only [ingest, unit_bind_eq_ok, check_eq_ok] at h
  obtain ⟨hv, ht, _, _, h⟩ := h
  have hvalid : snapshot.Valid := by
    rw [← Snapshot.validate_eq_ok]
    cases hs : snapshot.validate with
    | error e => simp [hs, Except.mapError] at hv
    | ok u => rfl
  refine ⟨hvalid, ht, ?_⟩
  split at h
  · rename_i run hrun
    rw [unit_bind_eq_ok, check_eq_ok, pure_eq_ok, Prod.mk.injEq] at h
    exact .inl ⟨run, hrun, h.1, h.2.1.symm, h.2.2.symm⟩
  · rename_i hrun
    rw [bind_eq_ok] at h
    obtain ⟨db₁, h₁, h₂⟩ := h
    rw [pure_eq_ok, Prod.mk.injEq] at h₂
    exact .inr ⟨hrun, h₂.1.symm, h₂.2 ▸ ingestBody_exec h₁⟩

/-- **An ingestion that returns `true` executed the write set of its snapshot**, under a
collection id that was unused. -/
theorem ingest_eq_ok_true {E : Encoding} {now : Timestamp} {snapshot : Snapshot} {db db' : Db}
    (h : ingest E now snapshot db = .ok (true, db')) :
    snapshot.Valid ∧ db.collectionRuns[snapshot.collectionID]? = none ∧
      db' = snapshot.apply E now db := by
  obtain ⟨hv, _, ⟨_, _, _, hf, _⟩ | ⟨hn, _, he⟩⟩ := ingest_eq_ok h
  · simp at hf
  · exact ⟨hv, hn, he⟩

/-! ## What a call can do -/

theorem mem_expiredPayloads {cutoff : Timestamp} {limit : Nat} {db : Db} {id : Uuid}
    (h : id ∈ expiredPayloads cutoff limit db) :
    ∃ run, db.collectionRuns[id]? = some run ∧ run.prunable cutoff = true := by
  obtain ⟨⟨id', run⟩, he, rfl⟩ := List.mem_map.1 h
  have hmem := (List.mem_insertionSort _).1 (List.mem_of_mem_take he)
  obtain ⟨hlist, hp⟩ := List.mem_filter.1 hmem
  exact ⟨run, Table.mem_toList.1 hlist, hp⟩

/-- **What a call does to the database**: nothing, or a new snapshot is applied, or samples go, or
payloads of fingerprinted runs do. -/
theorem Op.exec_cases (E : Encoding) (db : Db) (op : Op) :
    op.exec E db = db ∨
    (∃ now snapshot, op = .ingest now snapshot ∧ snapshot.Valid ∧
      db.collectionRuns[snapshot.collectionID]? = none ∧
      NexusTier.ingest E now snapshot db = .ok (true, snapshot.apply E now db) ∧
      op.exec E db = snapshot.apply E now db) ∨
    (∃ p, op.exec E db = { db with metricSamples := db.metricSamples.deleteWhere p }) ∨
    (∃ now cutoff p, (∀ id run, db.collectionRuns[id]? = some run → p id run = true →
        run.prunable cutoff = true) ∧
      op.exec E db =
        { db with collectionRuns := db.collectionRuns.updateWhere p (RunRow.prune now) }) := by
  cases op with
  | ingest now snapshot =>
    simp only [Op.exec]
    split
    · rename_i new db' h
      obtain ⟨hv, _, ⟨_, _, _, _, rfl⟩ | ⟨hn, rfl, rfl⟩⟩ := ingest_eq_ok h
      · exact .inl rfl
      · exact .inr (.inl ⟨now, snapshot, rfl, hv, hn, h, rfl⟩)
    · exact .inl rfl
  | deleteMetricSamples tie cutoff limit => exact .inr (.inr (.inl ⟨_, rfl⟩))
  | prunePayloads now cutoff limit =>
    refine .inr (.inr (.inr ⟨now, cutoff, _, fun id run hrun hp => ?_, rfl⟩))
    obtain ⟨run', hrun', hp'⟩ := mem_expiredPayloads (List.contains_iff_mem.1 hp)
    rw [hrun, Option.some_inj] at hrun'
    exact hrun' ▸ hp'

end NexusTier
