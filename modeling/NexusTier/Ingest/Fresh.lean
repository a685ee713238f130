import NexusTier.Ingest.Gating

/-!
# A complete snapshot that is newer than everything stored

The ordinary case of an ingestion: no error at any level, no id twice, and every time of the
snapshot later than all that is stored.  Then every guard of every statement passes, and the
current topology afterwards is the snapshot, whatever was there (`apply_machine_fresh` and the
lemmas after it): machines and instances that are not in it are inactive, an instance that has moved
is under its new machine even if the pass of its old one came first, and the links of an instance
are its peers.

## What is here

* `Snapshot.Complete`, `Snapshot.Distinct` and `Snapshot.LaterThan`: the three conditions.
* `apply_machine_fresh`, `apply_instance_fresh`, `apply_node_fresh` and `apply_link_fresh`: each row
  that the snapshot has is the one it reports.
* `apply_machine_inactive`, `apply_instance_inactive` and `apply_link_gone`: the others are
  inactive, or gone.

## What is left out

Whether the database takes the snapshot at all, which is the subject of `Ingest/Storable.lean`.
-/

set_option autoImplicit false

namespace NexusTier

open Relational

/-- No error at any level. -/
structure Snapshot.Complete (s : Snapshot) : Prop where
  errors : s.errors.elems = []
  machines : ∀ machine ∈ s.machines.elems, machine.errors.elems = []
  instances : ∀ inst ∈ s.instances, inst.errors.elems = []

/-- No id occurs twice where it should not. -/
structure Snapshot.Distinct (s : Snapshot) : Prop where
  machines : (machineIDs s.machines.elems).Nodup
  instances : (s.instances.map Instance.instanceID).Nodup
  peers : ∀ inst ∈ s.instances, (inst.peers.elems.map Peer.peerID).Nodup
  metrics : ∀ inst ∈ s.instances,
    (inst.metrics.elems.map fun metric => (metric.name, metric.labels)).Nodup

/-- `c` is a stored `last_collection_completed_at`. -/
def Db.Completed (db : Db) (c : Timestamp) : Prop :=
  (∃ (k : Uuid) (row : MachineRow), db.machines[k]? = some row ∧ row.completedAt = c) ∨
  (∃ (k : Uuid) (row : InstanceRow), db.networkInstances[k]? = some row ∧ row.completedAt = c) ∨
  (∃ (k : Uuid) (row : NodeRow), db.nodes[k]? = some row ∧ row.completedAt = c) ∨
  ∃ (k : LinkKey) (row : PeerRow), db.peerLinks[k]? = some row ∧ row.completedAt = c

/-- Every time of the snapshot is later than all that is stored. -/
structure Snapshot.LaterThan (s : Snapshot) (db : Db) : Prop where
  completed : ∀ c, db.Completed c → c < millis s.completedAtMS
  machines : ∀ c, db.Completed c → ∀ machine ∈ s.machines.elems, c < millis machine.observedAtMS
  instances : ∀ c, db.Completed c → ∀ inst ∈ s.instances, c < millis inst.observedAtMS

theorem Snapshot.laterThan_empty (s : Snapshot) : s.LaterThan Db.empty := by
  have hnone : ∀ c, ¬ Db.empty.Completed c := by
    rintro c (⟨_, _, h, -⟩ | ⟨_, _, h, -⟩ | ⟨_, _, h, -⟩ | ⟨_, _, h, -⟩) <;> simp [Db.empty] at h
  exact ⟨fun c hc => absurd hc (hnone c), fun c hc => absurd hc (hnone c),
    fun c hc => absurd hc (hnone c)⟩

section

variable {E : Encoding} {now : Timestamp} {s : Snapshot} {db : Db}

theorem hasOperationError_of_nil {errors : Slice TelemetryError} (h : errors.elems = [])
    (operation : String) : hasOperationError errors operation = false := by
  simp [hasOperationError, h]

/-! ## Machines -/

theorem machineNotices_keys : s.machineNotices.filterMap Notice.key? =
    machineIDs s.machines.elems := by
  have hmissing : (missingWrites s).machines.filterMap Notice.key? = [] := by
    rw [missingWrites]
    split <;> rfl
  rw [Snapshot.machineNotices, List.filterMap_append, hmissing, List.append_nil,
    List.filterMap_map, machineIDs, ← List.filterMap_eq_map]
  rfl

theorem missing_mem_machineNotices {concerns : Uuid → MachineColumns → Bool} {c : Timestamp}
    {src : Uuid} (h : Notice.missing concerns c src ∈ s.machineNotices) :
    c = millis s.completedAtMS := by
  rcases List.mem_append.1 h with h | h
  · obtain ⟨machine, _, heq⟩ := List.mem_map.1 h
    simp [machineReport] at heq
  · rw [missingWrites] at h
    split at h
    · exact (Notice.missing.inj (List.mem_singleton.1 h)).2.1
    · simp at h

theorem apply_machine_fresh (hwf : db.WellFormed) (hd : s.Distinct) (hl : s.LaterThan db)
    {machine : Machine} (hm : machine ∈ s.machines.elems) :
    (s.apply E now db).machines[machine.session.machineID]? =
      some (.fresh (machineColumns machine) (millis machine.observedAtMS) (millis s.completedAtMS)
        s.collectionID) := by
  rw [Snapshot.apply_machines, Notice.getElem?_execAll]
  refine Notice.foldl_eq_fresh (List.mem_append_left _ (List.mem_map.2 ⟨machine, hm, rfl⟩))
    (machineNotices_keys ▸ hd.machines) (fun row hrow => ?_)
    fun _ _ _ h => (missing_mem_machineNotices h).le
  exact (hwf.machines _ row hrow).observed_le.trans_lt
    (hl.machines _ (.inl ⟨_, row, hrow, rfl⟩) machine hm)

theorem apply_machine_inactive (hc : s.Complete) (hl : s.LaterThan db) {k : Uuid}
    (hk : k ∉ machineIDs s.machines.elems) {row : MachineRow}
    (hrow : (s.apply E now db).machines[k]? = some row) : row.active = false := by
  rw [Snapshot.apply_machines, Notice.getElem?_execAll] at hrow
  refine Notice.foldl_inactive (Notice.silent_of_not_mem (machineNotices_keys ▸ hk))
    (fun old hold => ?_) hrow
  refine ⟨fun id _ => !(machineIDs s.machines.elems).contains id, millis s.completedAtMS,
    s.collectionID, List.mem_append_right _ ?_, ?_, hl.completed _ (.inl ⟨k, old, hold, rfl⟩)⟩
  · rw [missingWrites, if_pos (List.isEmpty_iff.2 hc.errors)]
    exact List.mem_singleton_self _
  · simpa using hk

/-! ## Instances -/

theorem instanceNotices_keys : s.instanceNotices.filterMap Notice.key? =
    s.instances.map Instance.instanceID := by
  have hmissing : (missingWrites s).instances.filterMap Notice.key? = [] := by
    rw [missingWrites]
    split <;> rfl
  have hpass : ∀ machine, (instancesMissing s.collectionID (millis s.completedAtMS)
      machine).filterMap Notice.key? = [] := by
    intro machine
    rw [instancesMissing]
    split <;> rfl
  rw [Snapshot.instanceNotices, List.filterMap_append, hmissing, List.append_nil,
    List.filterMap_flatMap, Snapshot.instances, List.map_flatMap]
  congr 1
  funext machine
  rw [List.filterMap_append, hpass, List.append_nil, List.filterMap_map, ← List.filterMap_eq_map]
  rfl

theorem missing_completedAt {concerns : Uuid → InstanceColumns → Bool} {c : Timestamp}
    {src : Uuid} (h : Notice.missing concerns c src ∈ s.instanceNotices) :
    c = millis s.completedAtMS := by
  rcases List.mem_append.1 h with h | h
  · obtain ⟨machine, _, h⟩ := List.mem_flatMap.1 h
    rcases List.mem_append.1 h with h | h
    · obtain ⟨inst, _, heq⟩ := List.mem_map.1 h
      simp [instanceReport] at heq
    · rw [instancesMissing] at h
      split at h
      · simp at h
      · exact (Notice.missing.inj (List.mem_singleton.1 h)).2.1
  · rw [missingWrites] at h
    split at h
    · exact (Notice.missing.inj (List.mem_singleton.1 h)).2.1
    · simp at h

theorem apply_instance_fresh (hwf : db.WellFormed) (hd : s.Distinct) (hl : s.LaterThan db)
    {machine : Machine} (hm : machine ∈ s.machines.elems) {inst : Instance}
    (hi : inst ∈ machine.instances.elems) :
    (s.apply E now db).networkInstances[inst.instanceID]? =
      some (.fresh ⟨machine.session.machineID⟩ (millis inst.observedAtMS)
        (millis s.completedAtMS) s.collectionID) := by
  have hmem : instanceReport s.collectionID (millis s.completedAtMS) machine.session.machineID inst
      ∈ s.instanceNotices :=
    List.mem_append_left _ (List.mem_flatMap.2
      ⟨machine, hm, List.mem_append_left _ (List.mem_map_of_mem hi)⟩)
  rw [Snapshot.apply_networkInstances, Notice.getElem?_execAll]
  refine Notice.foldl_eq_fresh hmem (instanceNotices_keys ▸ hd.instances) (fun row hrow => ?_)
    fun _ _ _ h => (missing_completedAt h).le
  exact (hwf.instances _ row hrow).observed_le.trans_lt
    (hl.instances _ (.inr (.inl ⟨_, row, hrow, rfl⟩)) inst
      (Snapshot.mem_instances.2 ⟨machine, hm, hi⟩))

/-- An instance that is not in the snapshot is missed by its machine, or with it. -/
theorem apply_instance_inactive (hc : s.Complete) (hl : s.LaterThan db) {i : Uuid}
    (hi : i ∉ s.instances.map Instance.instanceID) {row : InstanceRow}
    (hrow : (s.apply E now db).networkInstances[i]? = some row) : row.active = false := by
  rw [Snapshot.apply_networkInstances, Notice.getElem?_execAll] at hrow
  refine Notice.foldl_inactive (Notice.silent_of_not_mem (instanceNotices_keys ▸ hi))
    (fun old hold => ?_) hrow
  have hlt := hl.completed _ (.inr (.inl ⟨i, old, hold, rfl⟩))
  by_cases hlisted : old.value.machineID ∈ machineIDs s.machines.elems
  · obtain ⟨machine, hm, hid⟩ := List.mem_map.1 hlisted
    have hnot : i ∉ machine.instanceIDs := fun hmem => by
      obtain ⟨inst, hinst, heq⟩ := List.mem_map.1 hmem
      exact hi (List.mem_map.2 ⟨inst, Snapshot.mem_instances.2 ⟨machine, hm, hinst⟩, heq⟩)
    refine ⟨instanceMissing machine, millis s.completedAtMS, s.collectionID,
      List.mem_append_left _ (List.mem_flatMap.2 ⟨machine, hm, List.mem_append_right _ ?_⟩), ?_,
      hlt⟩
    · rw [instancesMissing, hasOperationError_of_nil (hc.machines machine hm)]
      exact List.mem_singleton_self _
    · simp [instanceMissing, hid, hnot]
  · refine ⟨fun _ columns => !(machineIDs s.machines.elems).contains columns.machineID,
      millis s.completedAtMS, s.collectionID, List.mem_append_right _ ?_, ?_, hlt⟩
    · rw [missingWrites, if_pos (List.isEmpty_iff.2 hc.errors)]
      exact List.mem_singleton_self _
    · simpa using hlisted

/-! ## Nodes -/

theorem foldl_actNode_of_not_mem {ws : List (Uuid × NodeRow)} {i : Uuid} {r : Option NodeRow}
    (h : i ∉ ws.map Prod.fst) : ws.foldl (actNode i) r = r := by
  induction ws with
  | nil => rfl
  | cons w ws ih =>
    rw [List.map_cons, List.mem_cons, not_or] at h
    rw [List.foldl_cons, actNode, if_neg fun heq => h.1 heq.symm]
    exact ih h.2

/-- The only write of a node, over an older row or none, is what remains. -/
theorem foldl_actNode_of_mem {ws : List (Uuid × NodeRow)} {i : Uuid} {w : NodeRow}
    {r : Option NodeRow} (hmem : (i, w) ∈ ws) (hnd : (ws.map Prod.fst).Nodup)
    (hr : ∀ row ∈ r, row.olderThan w.observedAt w.completedAt = true) :
    ws.foldl (actNode i) r = some w := by
  induction ws with
  | nil => simp at hmem
  | cons v ws ih =>
    rw [List.map_cons, List.nodup_cons] at hnd
    rw [List.foldl_cons]
    rcases List.mem_cons.1 hmem with rfl | hmem
    · have hput : actNode i r (i, w) = some w := by
        rw [actNode, if_pos rfl]
        cases r with
        | none => rfl
        | some old => rw [Table.upsertRow_some, if_pos (hr old rfl)]
      rw [hput, foldl_actNode_of_not_mem hnd.1]
    · have hne : v.1 ≠ i := fun heq => hnd.1 (heq ▸ List.mem_map_of_mem hmem)
      rw [actNode, if_neg hne]
      exact ih hmem hnd.2

theorem apply_node_fresh (hwf : db.WellFormed) (hd : s.Distinct) (hl : s.LaterThan db)
    {inst : Instance} (hi : inst ∈ s.instances) {node : Node} (hn : inst.node = some node) :
    (s.apply E now db).nodes[inst.instanceID]? =
      some ⟨nodeColumns node, millis inst.observedAtMS, millis s.completedAtMS,
        s.collectionID⟩ := by
  have hkeys : ((s.instances.flatMap (nodeWrites s.collectionID (millis s.completedAtMS))).map
      Prod.fst).Sublist (s.instances.map Instance.instanceID) := by
    generalize s.instances = insts
    induction insts with
    | nil => exact List.Sublist.refl _
    | cons inst insts ih =>
      rw [List.flatMap_cons, List.map_append, List.map_cons]
      cases hnode : inst.node with
      | none => simpa [nodeWrites, hnode] using ih.cons _
      | some node => simpa [nodeWrites, hnode] using ih
  rw [Snapshot.apply_nodes, getElem?_putNodes]
  refine foldl_actNode_of_mem (List.mem_flatMap.2 ⟨inst, hi, ?_⟩) (hd.instances.sublist hkeys)
    fun row hrow => Stamped.olderThan_iff.2 (.inl ?_)
  · simp [nodeWrites, hn]
  · exact (hwf.nodes _ row hrow).observed_le.trans_lt
      (hl.instances _ (.inr (.inr (.inl ⟨_, row, hrow, rfl⟩))) inst hi)

/-! ## Links -/

/-- The only entry about an instance does all that is done to its links. -/
theorem foldl_entries_of_mem {cid : Uuid} {c : Timestamp} {insts : List Instance} {inst : Instance}
    {k : LinkKey} {r : Option PeerRow} (hmem : inst ∈ insts)
    (hnd : (insts.map Instance.instanceID).Nodup) (hk : k.source = inst.instanceID) :
    insts.foldl (fun r inst => (linkWrites cid c inst).foldl (LinkWrite.act k) r) r =
      (linkWrites cid c inst).foldl (LinkWrite.act k) r := by
  induction insts generalizing r with
  | nil => simp at hmem
  | cons other insts ih =>
    rw [List.map_cons, List.nodup_cons] at hnd
    rw [List.foldl_cons]
    rcases List.mem_cons.1 hmem with rfl | hmem
    · exact foldl_entries_of_not_mem (hk ▸ hnd.1)
    · have hne : other.instanceID ≠ k.source := fun heq =>
        hnd.1 (heq ▸ hk ▸ List.mem_map_of_mem hmem)
      rw [foldl_linkWrites_of_ne _ _ hne]
      exact ih hmem hnd.2

section Entry

variable {cid : Uuid} {c : Timestamp} {inst : Instance} {k : LinkKey} {r : Option PeerRow}

/-- The upserts of the peers in `l`, with all details. -/
def putsAll (cid : Uuid) (c : Timestamp) (inst : Instance) (l : List Peer) : List LinkWrite :=
  l.map fun peer => .put ⟨inst.instanceID, peer.peerID.toNat⟩ (peerRow cid c inst peer) true

theorem foldl_putsAll_of_not_mem {l : List Peer}
    (h : k.destination ∉ l.map fun peer => (peer.peerID.toNat : Int)) :
    (putsAll cid c inst l).foldl (LinkWrite.act k) r = r := by
  induction l with
  | nil => rfl
  | cons peer l ih =>
    rw [List.map_cons, List.mem_cons, not_or] at h
    have hskip : LinkWrite.act k r (.put ⟨inst.instanceID, peer.peerID.toNat⟩
        (peerRow cid c inst peer) true) = r :=
      if_neg fun heq => h.1 (congrArg LinkKey.destination heq).symm
    rw [putsAll, List.map_cons, List.foldl_cons, hskip]
    exact ih h.2

theorem foldl_putsAll_of_mem {l : List Peer} {peer : Peer} (hmem : peer ∈ l)
    (hnd : (l.map Peer.peerID).Nodup) (hk : k = ⟨inst.instanceID, peer.peerID.toNat⟩)
    (hr : ∀ row ∈ r, row.olderThan (millis inst.observedAtMS) c = true) :
    (putsAll cid c inst l).foldl (LinkWrite.act k) r = some (peerRow cid c inst peer) := by
  induction l with
  | nil => simp at hmem
  | cons other l ih =>
    rw [List.map_cons, List.nodup_cons] at hnd
    rw [putsAll, List.map_cons, List.foldl_cons]
    rcases List.mem_cons.1 hmem with rfl | hmem
    · have hput : LinkWrite.act k r (.put ⟨inst.instanceID, peer.peerID.toNat⟩
          (peerRow cid c inst peer) true) = some (peerRow cid c inst peer) := by
        rw [LinkWrite.act, if_pos hk.symm]
        cases r with
        | none => rfl
        | some old =>
          have hold : old.olderThan (peerRow cid c inst peer).observedAt
              (peerRow cid c inst peer).completedAt = true := hr old rfl
          rw [Table.upsertRow_some, if_pos hold]
          rfl
      rw [hput]
      refine foldl_putsAll_of_not_mem fun hlater => hnd.1 ?_
      obtain ⟨peer', hpeer', heq⟩ := List.mem_map.1 hlater
      rw [hk] at heq
      have hid : peer'.peerID = peer.peerID := UInt32.toNat_inj.1 (Int.ofNat_inj.1 heq)
      exact hid ▸ List.mem_map_of_mem hpeer'
    · have hne : other.peerID ≠ peer.peerID := fun heq =>
        hnd.1 (heq ▸ List.mem_map_of_mem hmem)
      have hskip : LinkWrite.act k r (.put ⟨inst.instanceID, other.peerID.toNat⟩
          (peerRow cid c inst other) true) = r := by
        refine if_neg fun heq => hne ?_
        rw [hk] at heq
        exact UInt32.toNat_inj.1 (Int.ofNat_inj.1 (congrArg LinkKey.destination heq))
      rw [hskip]
      exact ih hmem hnd.2

theorem linkWrites_of_complete (h : inst.errors.elems = []) :
    linkWrites cid c inst = putsAll cid c inst inst.peers.elems ++
      [.clear inst.instanceID (inst.peers.elems.map fun peer => (peer.peerID.toNat : Int))
        (millis inst.observedAtMS) c] := by
  rw [linkWrites, hasOperationError_of_nil h, hasOperationError_of_nil h]
  rfl

end Entry

/-- The links of an instance of the snapshot are its peers. -/
theorem apply_link_fresh (hwf : db.WellFormed) (hc : s.Complete) (hd : s.Distinct)
    (hl : s.LaterThan db) {inst : Instance} (hi : inst ∈ s.instances) {peer : Peer}
    (hp : peer ∈ inst.peers.elems) :
    (s.apply E now db).peerLinks[(⟨inst.instanceID, peer.peerID.toNat⟩ : LinkKey)]? =
      some (peerRow s.collectionID (millis s.completedAtMS) inst peer) := by
  rw [Snapshot.apply_peerLinks, LinkWrite.getElem?_execAll, List.foldl_flatMap,
    foldl_entries_of_mem hi hd.instances rfl, linkWrites_of_complete (hc.instances inst hi),
    List.foldl_append, foldl_putsAll_of_mem hp (hd.peers inst hi) rfl fun row hrow => ?_]
  · have hlisted : (peer.peerID.toNat : Int) ∈
        inst.peers.elems.map fun peer => (peer.peerID.toNat : Int) := List.mem_map_of_mem hp
    simp [LinkWrite.act, hlisted]
  · exact Stamped.olderThan_iff.2 (.inl ((hwf.links _ row hrow).observed_le.trans_lt
      (hl.instances _ (.inr (.inr (.inr ⟨_, row, hrow, rfl⟩))) inst hi)))

theorem apply_link_gone (hwf : db.WellFormed) (hc : s.Complete) (hd : s.Distinct)
    (hl : s.LaterThan db) {inst : Instance} (hi : inst ∈ s.instances) {destination : Int}
    (hnot : destination ∉ inst.peers.elems.map fun peer => (peer.peerID.toNat : Int)) :
    (s.apply E now db).peerLinks[(⟨inst.instanceID, destination⟩ : LinkKey)]? = none := by
  rw [Snapshot.apply_peerLinks, LinkWrite.getElem?_execAll, List.foldl_flatMap,
    foldl_entries_of_mem hi hd.instances rfl, linkWrites_of_complete (hc.instances inst hi),
    List.foldl_append, foldl_putsAll_of_not_mem hnot]
  cases hrow : db.peerLinks[(⟨inst.instanceID, destination⟩ : LinkKey)]? with
  | none => rfl
  | some row =>
    have hold : row.olderThan (millis inst.observedAtMS) (millis s.completedAtMS) = true :=
      Stamped.olderThan_iff.2 (.inl ((hwf.links _ row hrow).observed_le.trans_lt
        (hl.instances _ (.inr (.inr (.inr ⟨_, row, hrow, rfl⟩))) inst hi)))
    simp only [List.foldl_cons, List.foldl_nil, LinkWrite.act]
    simp [hold, hnot]

end

end NexusTier
