import NexusTier.Ingest.History

/-!
# The latest observation wins

A machine, an instance or a node is described by the report that was observed last, whatever the
order in which the snapshots arrived and whatever else was ingested in between.  `machineReports`
and its siblings list the reports of one entity in a sequence of snapshots; the rows of the current
tables are those of the `argmax` of their observation times.

Deactivations rewrite half of a row's ordering key, `last_collection_completed_at`.  They do not
matter here because of `Change.Lawful`: between reports of different observation times the guard
decides by `last_observed_at` alone, which they leave as it is.

## What is here

* `machineReports`, `instanceReports` and `nodeReports`: who has reported what, in the order of
  arrival.
* `latest_observation_wins`: the three tables after any run, for reports observed at different
  times.
* `latest_observation_wins_moveFirst`: two snapshots that are both accepted, the newer one first.

The law behind it is `replay_newest` of `Relational/Stamped.lean`.

## What is left out

Reports that were observed at the same time, where the later collection wins, and links, which are
not kept when they are gone.
-/

set_option autoImplicit false

namespace NexusTier

open Relational

/-! ## Reports -/

/-- The reports of machine `id` in a sequence of snapshots. -/
def machineReports (id : Uuid) (snapshots : List Snapshot) : List (Snapshot × Machine) :=
  snapshots.flatMap fun s =>
    (s.machines.elems.filter fun machine => machine.session.machineID = id).map fun m => (s, m)

/-- The reports of instance `id`, each with the machine that made it. -/
def instanceReports (id : Uuid) (snapshots : List Snapshot) :
    List (Snapshot × Machine × Instance) :=
  snapshots.flatMap fun s => s.machines.elems.flatMap fun machine =>
    (machine.instances.elems.filter fun inst => inst.instanceID = id).map fun i => (s, machine, i)

/-- The reports of the node of instance `id`. -/
def nodeReports (id : Uuid) (snapshots : List Snapshot) : List (Snapshot × Instance × Node) :=
  snapshots.flatMap fun s =>
    (s.instances.filter fun inst => inst.instanceID = id).flatMap fun inst =>
      inst.node.toList.map fun node => (s, inst, node)

def machineReportTime (r : Snapshot × Machine) : ℕ := r.2.observedAtMS.toNat

def instanceReportTime (r : Snapshot × Machine × Instance) : ℕ := r.2.2.observedAtMS.toNat

def nodeReportTime (r : Snapshot × Instance × Node) : ℕ := r.2.1.observedAtMS.toNat

/-- The row a report of a machine proposes. -/
def machineReportRow (r : Snapshot × Machine) : MachineRow :=
  .fresh (machineColumns r.2) (millis r.2.observedAtMS) (millis r.1.completedAtMS)
    r.1.collectionID

def instanceReportRow (r : Snapshot × Machine × Instance) : InstanceRow :=
  .fresh ⟨r.2.1.session.machineID⟩ (millis r.2.2.observedAtMS) (millis r.1.completedAtMS)
    r.1.collectionID

def nodeReportRow (r : Snapshot × Instance × Node) : NodeRow :=
  ⟨nodeColumns r.2.2, millis r.2.1.observedAtMS, millis r.1.completedAtMS, r.1.collectionID⟩

/-! ## The statements of the snapshots offer the reports -/

theorem missingWrites_machines_offered (snapshot : Snapshot) (id : Uuid) :
    ((missingWrites snapshot).machines.filterMap (Notice.change id)).filterMap
      Change.offered = [] := by
  rw [missingWrites]
  split <;> rfl

theorem missingWrites_instances_offered (snapshot : Snapshot) (id : Uuid) :
    ((missingWrites snapshot).instances.filterMap (Notice.change id)).filterMap
      Change.offered = [] := by
  rw [missingWrites]
  split <;> rfl

theorem instancesMissing_offered (collectionID : Uuid) (c : Timestamp) (machine : Machine)
    (id : Uuid) :
    ((instancesMissing collectionID c machine).filterMap (Notice.change id)).filterMap
      Change.offered = [] := by
  rw [instancesMissing]
  split <;> rfl

theorem offered_machineNotices (id : Uuid) (snapshots : List Snapshot) :
    ((snapshots.flatMap Snapshot.machineNotices).filterMap (Notice.change id)).filterMap
      Change.offered = (machineReports id snapshots).map machineReportRow := by
  induction snapshots with
  | nil => rfl
  | cons s snapshots ih =>
    simp only [List.flatMap_cons, List.filterMap_append, ih, machineReports, List.map_append]
    congr 1
    rw [Snapshot.machineNotices, List.filterMap_append, List.filterMap_append,
      missingWrites_machines_offered, List.append_nil]
    induction s.machines.elems with
    | nil => rfl
    | cons machine rest ih' =>
      by_cases h : machine.session.machineID = id
      · simpa [h, machineReport, Notice.change, Change.offered, machineReportRow] using ih'
      · simpa [h, machineReport, Notice.change] using ih'

theorem offered_instanceNotices (id : Uuid) (snapshots : List Snapshot) :
    ((snapshots.flatMap Snapshot.instanceNotices).filterMap (Notice.change id)).filterMap
      Change.offered = (instanceReports id snapshots).map instanceReportRow := by
  induction snapshots with
  | nil => rfl
  | cons s snapshots ih =>
    simp only [List.flatMap_cons, List.filterMap_append, ih, instanceReports, List.map_append]
    congr 1
    rw [Snapshot.instanceNotices, List.filterMap_append, List.filterMap_append,
      missingWrites_instances_offered, List.append_nil]
    induction s.machines.elems with
    | nil => rfl
    | cons machine rest ih' =>
      simp only [List.flatMap_cons, List.filterMap_append, ih', List.map_append,
        instancesMissing_offered, List.append_nil]
      congr 1
      induction machine.instances.elems with
      | nil => rfl
      | cons inst insts ih'' =>
        by_cases h : inst.instanceID = id
        · simpa [h, instanceReport, Notice.change, Change.offered, instanceReportRow] using ih''
        · simpa [h, instanceReport, Notice.change] using ih''

/-- What a node write is to the row of instance `id`. -/
def nodeChange (id : Uuid) (w : Uuid × NodeRow) : Option (Change NodeRow) :=
  if w.1 = id then some (.put w.2 fun old => old.olderThan w.2.observedAt w.2.completedAt)
  else none

theorem foldl_actNode (id : Uuid) (ws : List (Uuid × NodeRow)) (r : Option NodeRow) :
    ws.foldl (actNode id) r = (ws.filterMap (nodeChange id)).foldl Change.act r := by
  induction ws generalizing r with
  | nil => rfl
  | cons w ws ih =>
    rw [List.foldl_cons, ih]
    by_cases h : w.1 = id
    · simp [nodeChange, actNode, Change.act, h]
    · simp [nodeChange, actNode, h]

theorem offered_nodeWrites (id : Uuid) (snapshots : List Snapshot) :
    ((snapshots.flatMap fun s => s.instances.flatMap
      (nodeWrites s.collectionID (millis s.completedAtMS))).filterMap (nodeChange id)).filterMap
        Change.offered = (nodeReports id snapshots).map nodeReportRow := by
  induction snapshots with
  | nil => rfl
  | cons s snapshots ih =>
    simp only [List.flatMap_cons, List.filterMap_append, ih, nodeReports, List.map_append]
    congr 1
    induction s.instances with
    | nil => rfl
    | cons inst insts ih' =>
      rw [List.flatMap_cons, List.filterMap_append, List.filterMap_append, ih']
      by_cases h : inst.instanceID = id
      · cases hn : inst.node <;>
          simp [nodeWrites, nodeChange, Change.offered, nodeReportRow, h, hn]
      · cases hn : inst.node <;> simp [nodeWrites, nodeChange, h, hn]

/-! ## Observation times -/

theorem millis_le_iff_toNat_le {a b : UInt64} (ha : a ≤ maxTimestampMS) (hb : b ≤ maxTimestampMS) :
    millis a ≤ millis b ↔ a.toNat ≤ b.toNat := by
  rw [millis_le_millis_iff ha hb, UInt64.le_iff_toNat_le]

section

variable {snapshots : List Snapshot} (hv : ∀ s ∈ snapshots, s.Valid) {id : Uuid}

include hv

theorem machineReports_observed_le : ∀ r ∈ machineReports id snapshots,
    r.2.observedAtMS ≤ maxTimestampMS := by
  intro r hr
  obtain ⟨s, hs, hr⟩ := List.mem_flatMap.1 hr
  obtain ⟨machine, hm, rfl⟩ := List.mem_map.1 hr
  have hmachine := (hv s hs).machines machine (List.mem_of_mem_filter hm)
  exact UInt64.le_trans hmachine.observed_le (hv s hs).completed_le

theorem instanceReports_observed_le : ∀ r ∈ instanceReports id snapshots,
    r.2.2.observedAtMS ≤ maxTimestampMS := by
  intro r hr
  obtain ⟨s, hs, hr⟩ := List.mem_flatMap.1 hr
  obtain ⟨machine, hm, hr⟩ := List.mem_flatMap.1 hr
  obtain ⟨inst, hi, rfl⟩ := List.mem_map.1 hr
  have hinst := ((hv s hs).machines machine hm).instances inst (List.mem_of_mem_filter hi)
  exact UInt64.le_trans hinst.observed_le (hv s hs).completed_le

theorem nodeReports_observed_le : ∀ r ∈ nodeReports id snapshots,
    r.2.1.observedAtMS ≤ maxTimestampMS := by
  intro r hr
  obtain ⟨s, hs, hr⟩ := List.mem_flatMap.1 hr
  obtain ⟨inst, hi, hr⟩ := List.mem_flatMap.1 hr
  obtain ⟨node, _, rfl⟩ := List.mem_map.1 hr
  obtain ⟨machine, hm, hi⟩ := Snapshot.mem_instances.1 (List.mem_of_mem_filter hi)
  exact UInt64.le_trans ((hv s hs).machines machine hm |>.instances inst hi).observed_le
    (hv s hs).completed_le

end

/-! ## The rows a run leaves -/

/-- The reported columns of a machine, and when they were observed. -/
def Db.machineReported (db : Db) (id : Uuid) : Option (MachineColumns × Timestamp) :=
  db.machines[id]?.map fun row => (row.value, row.observedAt)

/-- The machine an instance is on, and when it was observed there. -/
def Db.instanceReported (db : Db) (id : Uuid) : Option (InstanceColumns × Timestamp) :=
  db.networkInstances[id]?.map fun row => (row.value, row.observedAt)

/-- The reported columns of a node, and when they were observed. -/
def Db.nodeReported (db : Db) (id : Uuid) : Option (NodeColumns × Timestamp) :=
  db.nodes[id]?.map fun row => (row.value, row.observedAt)

section

variable {E : Encoding} {ops : List Op} {id : Uuid}

theorem machineReported_eq_latest
    (h : ((machineReports id (accepted E ops Db.empty)).map machineReportTime).Nodup) :
    (execAll E ops Db.empty).machineReported id =
      ((machineReports id (accepted E ops Db.empty)).argmax machineReportTime).map fun r =>
        (machineColumns r.2, millis r.2.observedAtMS) := by
  have hv : ∀ s ∈ accepted E ops Db.empty, s.Valid := fun _ hs => valid_of_mem_accepted hs
  have hnew := Notice.replay_newest id
    ((accepted E ops Db.empty).flatMap Snapshot.machineNotices)
  rw [offered_machineNotices] at hnew
  rw [Db.machineReported, execAll_machines, Notice.getElem?_execAll]
  exact hnew.map_eq_argmax (fun a ha b hb => millis_le_iff_toNat_le
    (machineReports_observed_le hv a ha) (machineReports_observed_le hv b hb)) h

theorem instanceReported_eq_latest
    (h : ((instanceReports id (accepted E ops Db.empty)).map instanceReportTime).Nodup) :
    (execAll E ops Db.empty).instanceReported id =
      ((instanceReports id (accepted E ops Db.empty)).argmax instanceReportTime).map fun r =>
        (⟨r.2.1.session.machineID⟩, millis r.2.2.observedAtMS) := by
  have hv : ∀ s ∈ accepted E ops Db.empty, s.Valid := fun _ hs => valid_of_mem_accepted hs
  have hnew := Notice.replay_newest id
    ((accepted E ops Db.empty).flatMap Snapshot.instanceNotices)
  rw [offered_instanceNotices] at hnew
  rw [Db.instanceReported, execAll_networkInstances, Notice.getElem?_execAll]
  exact hnew.map_eq_argmax (fun a ha b hb => millis_le_iff_toNat_le
    (instanceReports_observed_le hv a ha) (instanceReports_observed_le hv b hb)) h

theorem nodeReported_eq_latest
    (h : ((nodeReports id (accepted E ops Db.empty)).map nodeReportTime).Nodup) :
    (execAll E ops Db.empty).nodeReported id =
      ((nodeReports id (accepted E ops Db.empty)).argmax nodeReportTime).map fun r =>
        (nodeColumns r.2.2, millis r.2.1.observedAtMS) := by
  have hv : ∀ s ∈ accepted E ops Db.empty, s.Valid := fun _ hs => valid_of_mem_accepted hs
  have hlawful : ∀ c ∈ ((accepted E ops Db.empty).flatMap fun s => s.instances.flatMap
      (nodeWrites s.collectionID (millis s.completedAtMS))).filterMap (nodeChange id),
      c.Lawful (fun row => row.observedAt) (fun row => row.value) := by
    intro c hc
    obtain ⟨w, _, hw⟩ := List.mem_filterMap.1 hc
    rw [nodeChange] at hw
    split at hw
    · cases hw
      exact Change.lawful_put fun _ => rfl
    · simp at hw
  have hnew := Change.replay_newest hlawful
  rw [offered_nodeWrites] at hnew
  rw [Db.nodeReported, execAll_nodes, getElem?_putNodes, foldl_actNode]
  exact hnew.map_eq_argmax (fun a ha b hb => millis_le_iff_toNat_le
    (nodeReports_observed_le hv a ha) (nodeReports_observed_le hv b hb)) h

end

/-- **The latest observation wins, in any order of arrival.**  After any run from the empty
database, a machine whose reports were observed at distinct times has the columns and the
observation time of the latest of them, and so it has after any other run that took in the same
reports; likewise the machine of an instance, and the columns of a node. -/
theorem latest_observation_wins (E : Encoding) (ops : List Op) (id : Uuid) :
    (((machineReports id (accepted E ops Db.empty)).map machineReportTime).Nodup →
      (execAll E ops Db.empty).machineReported id =
        (((machineReports id (accepted E ops Db.empty)).argmax machineReportTime).map fun r =>
          (machineColumns r.2, millis r.2.observedAtMS)) ∧
      ∀ ops', (machineReports id (accepted E ops' Db.empty)).Perm
          (machineReports id (accepted E ops Db.empty)) →
        (execAll E ops' Db.empty).machineReported id =
          (execAll E ops Db.empty).machineReported id) ∧
    (((instanceReports id (accepted E ops Db.empty)).map instanceReportTime).Nodup →
      (execAll E ops Db.empty).instanceReported id =
        (((instanceReports id (accepted E ops Db.empty)).argmax instanceReportTime).map fun r =>
          (⟨r.2.1.session.machineID⟩, millis r.2.2.observedAtMS)) ∧
      ∀ ops', (instanceReports id (accepted E ops' Db.empty)).Perm
          (instanceReports id (accepted E ops Db.empty)) →
        (execAll E ops' Db.empty).instanceReported id =
          (execAll E ops Db.empty).instanceReported id) ∧
    (((nodeReports id (accepted E ops Db.empty)).map nodeReportTime).Nodup →
      (execAll E ops Db.empty).nodeReported id =
        (((nodeReports id (accepted E ops Db.empty)).argmax nodeReportTime).map fun r =>
          (nodeColumns r.2.2, millis r.2.1.observedAtMS)) ∧
      ∀ ops', (nodeReports id (accepted E ops' Db.empty)).Perm
          (nodeReports id (accepted E ops Db.empty)) →
        (execAll E ops' Db.empty).nodeReported id =
          (execAll E ops Db.empty).nodeReported id) := by
  refine ⟨fun h => ⟨machineReported_eq_latest h, fun ops' hperm => ?_⟩,
    fun h => ⟨instanceReported_eq_latest h, fun ops' hperm => ?_⟩,
    fun h => ⟨nodeReported_eq_latest h, fun ops' hperm => ?_⟩⟩
  · have h' := (hperm.map machineReportTime).nodup_iff.2 h
    rw [machineReported_eq_latest h, machineReported_eq_latest h', argmax_eq_of_perm hperm h']
  · have h' := (hperm.map instanceReportTime).nodup_iff.2 h
    rw [instanceReported_eq_latest h, instanceReported_eq_latest h', argmax_eq_of_perm hperm h']
  · have h' := (hperm.map nodeReportTime).nodup_iff.2 h
    rw [nodeReported_eq_latest h, nodeReported_eq_latest h', argmax_eq_of_perm hperm h']

/-- A later collection: instance `b1` has moved to machine `a2`, and now describes its node. -/
def sampleMove : Snapshot :=
  sampleSnapshot 0xc3 3000 4000
    [sampleMachine 0xa1 3400 [],
      sampleMachine 0xa2 3500
        [{ sampleInstance 0xb1 3600 [] with
           node := some ⟨1, "10.144.0.1", "edge-1", some [], some ["tcp://0.0.0.0:11010"],
             "2.4.5"⟩ }]]

def moveEncoding : Encoding :=
  .recorded
    [(sampleReport.payload,
        .ofFin 0x9a34ab897a0b42ca4ce4417db93346b710953fbd6b5bad8b4c0cdfae90045624),
      (sampleMove.payload,
        .ofFin 0x2992410e956cd150a1152a5b092987d74430bad8ba49ece9ad1a1438ad01e391)]

/-- The move arrives before the report it supersedes. -/
def moveFirst : List Op := [.ingest 5000000 sampleMove, .ingest 6000000 sampleReport]

theorem latest_observation_wins_moveFirst :
    accepted moveEncoding moveFirst Db.empty = [sampleMove, sampleReport] ∧
    (execAll moveEncoding moveFirst Db.empty).machineReported 0xa1 =
        some (machineColumns (sampleMachine 0xa1 3400 []), 3400000) ∧
    (execAll moveEncoding [.ingest 5000000 sampleReport, .ingest 6000000 sampleMove]
        Db.empty).machineReported 0xa1 =
      some (machineColumns (sampleMachine 0xa1 3400 []), 3400000) ∧
    (execAll moveEncoding moveFirst Db.empty).instanceReported 0xb1 =
        some (⟨0xa2⟩, 3600000) ∧
    (execAll moveEncoding moveFirst Db.empty).nodeReported 0xb1 =
        some (⟨1, "10.144.0.1", "edge-1", [], ["tcp://0.0.0.0:11010"], "2.4.5"⟩, 3600000) := by
  have hmachine := (latest_observation_wins moveEncoding moveFirst 0xa1).1 (by decide +kernel)
  have hinstance := (latest_observation_wins moveEncoding moveFirst 0xb1).2.1 (by decide +kernel)
  have hnode := (latest_observation_wins moveEncoding moveFirst 0xb1).2.2 (by decide +kernel)
  have hreported : (execAll moveEncoding moveFirst Db.empty).machineReported 0xa1 =
      some (machineColumns (sampleMachine 0xa1 3400 []), 3400000) :=
    hmachine.1.trans (by decide +kernel)
  exact ⟨by decide +kernel, hreported, (hmachine.2 _ (by decide +kernel)).trans hreported,
    hinstance.1.trans (by decide +kernel), hnode.1.trans (by decide +kernel)⟩

end NexusTier
