import NexusTier.Ingest.Writes

/-!
# The representation invariant of the store

What every row of the telemetry database satisfies, after any sequence of calls.  A row of
`machines`, `network_instances`, `nodes` or `peer_links_current` was observed no later than its
collection was completed, and names that collection by its id and its completion time; machines
and instances are active exactly while no disappearance is recorded
(`Db.WellFormed`, from `Relational.Tracked.Sound`).  From one call to the next no machine,
instance or node row is lost, and its two times move only forwards (`Db.Advances`).

Both are read off the write set of a snapshot: each of its statements is one that a collection
completed at `completed_at` may issue (`Snapshot.machineNotices_sound` and its siblings), and the
library says what such statements do to a table.

## What is here

* `Db.WellFormed` and `Db.Advances`: the invariant of a state, and of two.
* `Snapshot.machineNotices_sound` and its siblings: what a snapshot writes is within its rights.
* `reachable_wellFormed_and_advances`: both, for every run of calls and for every next call.

## What is left out

The logs: metric samples and errors have an invariant of their own, in `Ingest/Storable.lean`.
-/

set_option autoImplicit false

namespace NexusTier

open Relational

/-- The collections there are, with their completion times. -/
def Db.Issued (db : Db) (source : Uuid) (completedAt : Timestamp) : Prop :=
  ∃ run, db.collectionRuns[source]? = some run ∧ run.completedAt = completedAt

/-- The representation invariant. -/
structure Db.WellFormed (db : Db) : Prop where
  machines : db.machines.All fun _ row => row.Sound db.Issued
  instances : db.networkInstances.All fun _ row => row.Sound db.Issued
  nodes : db.nodes.All fun _ row => row.Sound db.Issued
  links : db.peerLinks.All fun _ row => row.Sound db.Issued

/-- No machine, instance or node is lost, and none goes back in time. -/
structure Db.Advances (db db' : Db) : Prop where
  machines : db.machines.Grows (fun r r' => r.stamp ≤ r'.stamp) db'.machines
  instances : db.networkInstances.Grows (fun r r' => r.stamp ≤ r'.stamp) db'.networkInstances
  nodes : db.nodes.Grows (fun r r' => r.stamp ≤ r'.stamp) db'.nodes

theorem Db.Advances.refl (db : Db) : db.Advances db :=
  ⟨.refl fun _ => le_rfl, .refl fun _ => le_rfl, .refl fun _ => le_rfl⟩

/-! ## Nodes and links -/

section

variable {issued : Uuid → Timestamp → Prop}

theorem all_sound_putNodes {ws : List (Uuid × NodeRow)} (hws : ∀ w ∈ ws, w.2.Sound issued)
    {t : Table Uuid NodeRow} (ht : t.All fun _ r => r.Sound issued) :
    (ws.foldl putNode t).All fun _ r => r.Sound issued := by
  induction ws generalizing t with
  | nil => exact ht
  | cons w ws ih =>
    refine ih (fun v hv => hws v (by simp [hv])) fun i row hrow => ?_
    have hw := hws w (by simp)
    rw [putNode, Table.getElem?_upsert] at hrow
    split at hrow
    · cases ho : t[i]? with
      | none =>
        rw [ho] at hrow
        exact Option.some_inj.1 hrow ▸ hw
      | some old =>
        rw [ho, Table.upsertRow_some, Option.some_inj] at hrow
        split at hrow
        · exact hrow ▸ hw
        · exact hrow ▸ ht i old ho
    · exact ht i row hrow

theorem grows_putNodes (ws : List (Uuid × NodeRow)) (t : Table Uuid NodeRow) :
    t.Grows (fun r r' => r.stamp ≤ r'.stamp) (ws.foldl putNode t) := by
  induction ws generalizing t with
  | nil => exact .refl fun _ => le_rfl
  | cons w ws ih =>
    have hstep : t.Grows (fun r r' => r.stamp ≤ r'.stamp) (putNode t w) := by
      intro i row hrow
      rw [putNode, Table.getElem?_upsert, hrow]
      split
      · refine ⟨_, rfl, ?_⟩
        rw [Table.upsertRow_some]
        split
        · rename_i hold
          exact (Stamped.olderThan_iff_stamp_lt.1 hold).le
        · exact le_rfl
      · exact ⟨row, rfl, le_rfl⟩
    exact hstep.trans (fun _ _ _ h h' => h.trans h') (ih _)

/-- A statement on links that a collection may issue. -/
def LinkWrite.Sound (issued : Uuid → Timestamp → Prop) : LinkWrite → Prop
  | put _ new _ => new.Sound issued
  | clear .. => True

theorem all_sound_execLinks {ws : List LinkWrite} (hws : ∀ w ∈ ws, w.Sound issued)
    {t : Table LinkKey PeerRow} (ht : t.All fun _ r => r.Sound issued) :
    (ws.foldl LinkWrite.exec t).All fun _ r => r.Sound issued := by
  induction ws generalizing t with
  | nil => exact ht
  | cons w ws ih =>
    refine ih (fun v hv => hws v (by simp [hv])) fun k row hrow => ?_
    have hw := hws w (by simp)
    rw [LinkWrite.getElem?_exec] at hrow
    cases w with
    | put key new detailsComplete =>
      simp only [LinkWrite.act] at hrow
      split at hrow
      · cases ho : t[k]? with
        | none =>
          rw [ho] at hrow
          exact Option.some_inj.1 hrow ▸ hw
        | some old =>
          rw [ho, Table.upsertRow_some, Option.some_inj] at hrow
          split at hrow
          · exact hrow ▸ ⟨hw.1, hw.2⟩
          · exact hrow ▸ ht k old ho
      · exact ht k row hrow
    | clear source listed o c =>
      exact ht k row (Option.eq_some_of_filter_eq_some hrow)

end

/-! ## The statements of a valid snapshot -/

namespace Snapshot

variable {snapshot : Snapshot} {issued : Uuid → Timestamp → Prop}

theorem Valid.millis_machine_le (hv : snapshot.Valid) {machine : Machine}
    (h : machine ∈ snapshot.machines.elems) :
    millis machine.observedAtMS ≤ millis snapshot.completedAtMS :=
  (millis_le_millis_iff (UInt64.le_trans (hv.machines machine h).observed_le hv.completed_le)
    hv.completed_le).2 (hv.machines machine h).observed_le

theorem Valid.millis_instance_le (hv : snapshot.Valid) {machine : Machine}
    (h : machine ∈ snapshot.machines.elems) {inst : Instance}
    (hi : inst ∈ machine.instances.elems) :
    millis inst.observedAtMS ≤ millis snapshot.completedAtMS :=
  have hle := ((hv.machines machine h).instances inst hi).observed_le
  (millis_le_millis_iff (UInt64.le_trans hle hv.completed_le) hv.completed_le).2 hle

theorem mem_instances {inst : Instance} :
    inst ∈ snapshot.instances ↔
      ∃ machine ∈ snapshot.machines.elems, inst ∈ machine.instances.elems :=
  List.mem_flatMap

theorem machineNotices_sound (hv : snapshot.Valid)
    (hi : issued snapshot.collectionID (millis snapshot.completedAtMS)) :
    ∀ n ∈ snapshot.machineNotices, n.Sound issued := by
  intro n hn
  rcases List.mem_append.1 hn with h | h
  · obtain ⟨machine, hm, rfl⟩ := List.mem_map.1 h
    exact ⟨hv.millis_machine_le hm, hi⟩
  · rw [missingWrites] at h
    split at h
    · rw [List.mem_singleton.1 h]
      exact hi
    · simp at h

theorem instanceNotices_sound (hv : snapshot.Valid)
    (hi : issued snapshot.collectionID (millis snapshot.completedAtMS)) :
    ∀ n ∈ snapshot.instanceNotices, n.Sound issued := by
  intro n hn
  rcases List.mem_append.1 hn with h | h
  · obtain ⟨machine, hm, h⟩ := List.mem_flatMap.1 h
    rcases List.mem_append.1 h with h | h
    · obtain ⟨inst, hinst, rfl⟩ := List.mem_map.1 h
      exact ⟨hv.millis_instance_le hm hinst, hi⟩
    · rw [instancesMissing] at h
      split at h
      · simp at h
      · rw [List.mem_singleton.1 h]
        exact hi
  · rw [missingWrites] at h
    split at h
    · rw [List.mem_singleton.1 h]
      exact hi
    · simp at h

theorem nodeWrites_sound (hv : snapshot.Valid)
    (hi : issued snapshot.collectionID (millis snapshot.completedAtMS)) :
    ∀ w ∈ snapshot.instances.flatMap
      (nodeWrites snapshot.collectionID (millis snapshot.completedAtMS)),
      w.2.Sound issued := by
  intro w hw
  obtain ⟨inst, hinst, hw⟩ := List.mem_flatMap.1 hw
  obtain ⟨machine, hm, hinst⟩ := mem_instances.1 hinst
  obtain ⟨node, _, rfl⟩ := List.mem_map.1 hw
  exact ⟨hv.millis_instance_le hm hinst, hi⟩

theorem linkWrites_sound (hv : snapshot.Valid)
    (hi : issued snapshot.collectionID (millis snapshot.completedAtMS)) :
    ∀ w ∈ snapshot.instances.flatMap
      (linkWrites snapshot.collectionID (millis snapshot.completedAtMS)), w.Sound issued := by
  intro w hw
  obtain ⟨inst, hinst, hw⟩ := List.mem_flatMap.1 hw
  obtain ⟨machine, hm, hinst⟩ := mem_instances.1 hinst
  rcases List.mem_append.1 hw with h | h
  · obtain ⟨peer, _, rfl⟩ := List.mem_map.1 h
    exact ⟨hv.millis_instance_le hm hinst, hi⟩
  · split at h
    · simp at h
    · rw [List.mem_singleton.1 h]
      trivial

end Snapshot

/-! ## The invariant is kept -/

/-- Adding collections to the run table keeps the invariant. -/
theorem Db.WellFormed.mono {db db' : Db} (h : db.WellFormed)
    (hi : ∀ s c, db.Issued s c → db'.Issued s c) (hm : db'.machines = db.machines)
    (hn : db'.networkInstances = db.networkInstances) (hno : db'.nodes = db.nodes)
    (hl : db'.peerLinks = db.peerLinks) : db'.WellFormed where
  machines := hm ▸ h.machines.imp fun _ _ hr => hr.mono hi
  instances := hn ▸ h.instances.imp fun _ _ hr => hr.mono hi
  nodes := hno ▸ h.nodes.imp fun _ _ hr => hr.mono hi
  links := hl ▸ h.links.imp fun _ _ hr => hr.mono hi

theorem Db.issued_insert {db : Db} {id : Uuid} {run : RunRow} (hnew : db.collectionRuns[id]? = none)
    {s : Uuid} {c : Timestamp} (h : db.Issued s c) :
    Db.Issued { db with collectionRuns := db.collectionRuns.insert id run } s c := by
  obtain ⟨r, hr, hc⟩ := h
  have hne : ¬ id = s := by
    rintro rfl
    simp [hnew] at hr
  exact ⟨r, by simp [Table.getElem?_insert, hne, hr], hc⟩

/-- Applying a valid snapshot under a new collection id keeps the invariant. -/
theorem Snapshot.apply_wellFormed {E : Encoding} {now : Timestamp} {snapshot : Snapshot} {db : Db}
    (hv : snapshot.Valid) (hnew : db.collectionRuns[snapshot.collectionID]? = none)
    (h : db.WellFormed) : (snapshot.apply E now db).WellFormed := by
  have hold : ∀ s c, db.Issued s c → (snapshot.apply E now db).Issued s c :=
    fun s c hi => db.issued_insert hnew hi
  have hi : (snapshot.apply E now db).Issued snapshot.collectionID
      (millis snapshot.completedAtMS) := by
    refine ⟨runRow E now snapshot, ?_, rfl⟩
    simp
  constructor
  · rw [apply_machines]
    exact Notice.all_sound_execAll (machineNotices_sound hv hi)
      (h.machines.imp fun _ _ hr => hr.mono hold)
  · rw [apply_networkInstances]
    exact Notice.all_sound_execAll (instanceNotices_sound hv hi)
      (h.instances.imp fun _ _ hr => hr.mono hold)
  · rw [apply_nodes]
    exact all_sound_putNodes (nodeWrites_sound hv hi) (h.nodes.imp fun _ _ hr => hr.mono hold)
  · rw [apply_peerLinks]
    exact all_sound_execLinks (linkWrites_sound hv hi) (h.links.imp fun _ _ hr => hr.mono hold)

theorem Db.wellFormed_empty : Db.empty.WellFormed :=
  ⟨Table.all_empty, Table.all_empty, Table.all_empty, Table.all_empty⟩

/-- No call breaks the invariant. -/
theorem Op.exec_wellFormed {E : Encoding} {db : Db} (op : Op) (h : db.WellFormed) :
    (op.exec E db).WellFormed := by
  obtain he | ⟨now, snapshot, _, hv, hn, _, he⟩ | ⟨p, he⟩ | ⟨now, cutoff, p, _, he⟩ :=
    op.exec_cases E db
  · rwa [he]
  · rw [he]
    exact snapshot.apply_wellFormed hv hn h
  · rw [he]
    exact h.mono (fun _ _ hi => hi) rfl rfl rfl rfl
  · rw [he]
    refine h.mono (fun s c hi => ?_) rfl rfl rfl rfl
    obtain ⟨run, hrun, hc⟩ := hi
    refine ⟨if p s run then run.prune now else run, by simp [hrun], ?_⟩
    rw [← hc]
    split <;> rfl

/-- No call loses a machine, an instance or a node, or takes it back in time. -/
theorem Op.exec_advances {E : Encoding} {db : Db} (op : Op) : db.Advances (op.exec E db) := by
  obtain he | ⟨now, snapshot, _, hv, hn, _, he⟩ | ⟨p, he⟩ | ⟨now, cutoff, p, _, he⟩ :=
    op.exec_cases E db
  · rw [he]
    exact .refl db
  · rw [he]
    constructor
    · rw [Snapshot.apply_machines]
      exact Notice.grows_execAll _ _
    · rw [Snapshot.apply_networkInstances]
      exact Notice.grows_execAll _ _
    · rw [Snapshot.apply_nodes]
      exact grows_putNodes _ _
  · rw [he]
    exact ⟨.refl fun _ => le_rfl, .refl fun _ => le_rfl, .refl fun _ => le_rfl⟩
  · rw [he]
    exact ⟨.refl fun _ => le_rfl, .refl fun _ => le_rfl, .refl fun _ => le_rfl⟩

theorem Reachable.wellFormed {E : Encoding} {db : Db} (h : Reachable E db) : db.WellFormed :=
  h.induct Db.wellFormed_empty fun _ op hdb => op.exec_wellFormed hdb

/-- **The representation invariant.**  It holds of every reachable database, and no call from
there loses a machine, an instance or a node, or takes one back in time. -/
theorem reachable_wellFormed_and_advances {E : Encoding} {db : Db} (h : Reachable E db) :
    db.WellFormed ∧ ∀ op : Op, db.Advances (op.exec E db) :=
  ⟨h.wellFormed, fun op => op.exec_advances⟩

/-! ### A machine that is reported, and then missing -/

def sampleSession (machineID : Uuid) : Session where
  machineID
  remoteURL := "tcp://203.0.113.7:41230"
  hostname := "edge-1"
  easyTierVersion := "2.4.5"
  reportTime := "2026-01-01T00:00:00Z"
  connectedAtMS := 500
  lastHeartbeatAtMS := 900
  runningInstanceIDs := some []
  device := none

def samplePeer (peerID : UInt32) : Peer where
  peerID
  ipv4 := some "10.144.0.2"
  hostname := "edge-2"
  nextHopPeerID := peerID
  direct := true
  pathCost := 1
  latencyMS := some 12
  lossRate := some 0
  rxBytes := some 18446744073709551615
  txBytes := some 1024
  tunnelProtocols := some ["tcp"]
  version := "2.4.5"

def sampleInstance (instanceID : Uuid) (observedAtMS : UInt64) (peers : List Peer) : Instance :=
  ⟨instanceID, observedAtMS, none, some peers, some [], some []⟩

def sampleMachine (machineID : Uuid) (observedAtMS : UInt64) (instances : List Instance) :
    Machine :=
  ⟨sampleSession machineID, observedAtMS, some instances, some []⟩

def sampleSnapshot (collectionID : Uuid) (startedAtMS completedAtMS : UInt64)
    (machines : List Machine) : Snapshot :=
  ⟨schemaVersion, collectionID, startedAtMS, completedAtMS, completedAtMS, some machines, some []⟩

/-- Machine `a1` with instance `b1`, which sees peer 7. -/
def sampleReport : Snapshot :=
  sampleSnapshot 0xc1 1000 2000
    [sampleMachine 0xa1 1500 [sampleInstance 0xb1 1600 [samplePeer 7]]]

/-- A later collection that met no machine. -/
def sampleAbsence : Snapshot := sampleSnapshot 0xc2 3000 4000 []

def sampleEncoding : Encoding :=
  .recorded
    [(sampleReport.payload,
        .ofFin 0x9a34ab897a0b42ca4ce4417db93346b710953fbd6b5bad8b4c0cdfae90045624),
      (sampleAbsence.payload,
        .ofFin 0xb0f22d22f1fd266f916bfedd90b012c9451649148267d40e752354131414a0b5)]

/-- Both are ingested, in order, and the payload of the first is pruned. -/
def sampleRun : List Op :=
  [.ingest 5000000 sampleReport, .ingest 6000000 sampleAbsence, .prunePayloads 9000000 3000000 10]

theorem reachable_wellFormed_and_advances_sampleRun :
    ((execAll sampleEncoding sampleRun Db.empty).machines[(0xa1 : Uuid)]?.map fun row =>
        (row.active, row.observedAt, row.completedAt)) = some (false, 1500000, 4000000) ∧
      (execAll sampleEncoding sampleRun Db.empty).WellFormed ∧
      ∀ op : Op, (execAll sampleEncoding sampleRun Db.empty).Advances
        (op.exec sampleEncoding (execAll sampleEncoding sampleRun Db.empty)) :=
  ⟨by decide +kernel, reachable_wellFormed_and_advances ⟨sampleRun, rfl⟩⟩

end NexusTier
