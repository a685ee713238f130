import NexusTier.Ingest.Fresh
import NexusTier.Ingest.Order
import NexusTier.Ingest.Storable
import NexusTier.ReadModel.Assembly

/-!
# What is written is what is read

After a complete snapshot that is newer than everything stored, paging through the active topology
returns the snapshot: its machines, each with its instances, each of these with its peers and, if
the snapshot has one, its node.

On the side of the store this is `Ingest.Fresh`, on the side of the reader `topology_eq`.  Between
them is only the question which rows of a table there are, and `perm_filter_toList` answers it: the
rows that a filter selects are a list, up to order, if the list has them all, once.

## What is here

* `Shows` — which machines, instances, peers and nodes show a snapshot.
* `topology_shows_snapshot` — the agreement.
* `longName_refused` — what it needs beside distinct ids and storable texts: PostgreSQL has to find
  the names of metrics short enough for the primary key of `metric_samples`.
-/

set_option autoImplicit false

namespace NexusTier

open Relational

/-! ## Every link can be read -/

namespace ReadModel

theorem readable_peerColumns (peer : NexusTier.Peer) : Readable (peerColumns peer) := by
  constructor
  · intro n hn
    obtain ⟨x, _, rfl⟩ := Option.map_eq_some_iff.1 hn
    exact x.toNat_lt
  · intro n hn
    obtain ⟨x, _, rfl⟩ := Option.map_eq_some_iff.1 hn
    exact x.toNat_lt

theorem Readable.mergePeer {old new : PeerColumns} (ho : Readable old) (hn : Readable new)
    (detailsComplete : Bool) : Readable (mergePeer detailsComplete old new) := by
  cases detailsComplete with
  | true => exact ⟨hn.rx, hn.tx⟩
  | false => exact ⟨ho.rx, ho.tx⟩

/-- A statement whose row, if it has one, can be read. -/
def ReadableWrite : LinkWrite → Prop
  | .put _ new _ => Readable new.value
  | .clear _ _ _ _ => True

theorem ReadableWrite.act {w : LinkWrite} (hw : ReadableWrite w) {k : LinkKey}
    {r : Option PeerRow} (hr : ∀ row ∈ r, Readable row.value) :
    ∀ row ∈ w.act k r, Readable row.value := by
  intro row hrow
  cases w with
  | put key new detailsComplete =>
    rw [LinkWrite.act] at hrow
    split at hrow
    · obtain rfl := Option.some.inj hrow
      cases r with
      | none => exact hw
      | some old =>
        rw [Table.upsertRow_some]
        split
        · exact (hr old rfl).mergePeer hw detailsComplete
        · exact hr old rfl
    · exact hr row hrow
  | clear source listed o c => exact hr row (Option.eq_some_of_filter_eq_some hrow)

theorem readable_apply {E : Encoding} {now : Timestamp} {s : Snapshot} {db : Db}
    (h : DbReadable db) : DbReadable (s.apply E now db) := by
  intro k row hrow
  rw [Snapshot.apply_peerLinks, LinkWrite.getElem?_execAll] at hrow
  have hws : ∀ w ∈ s.instances.flatMap (linkWrites s.collectionID (millis s.completedAtMS)),
      ReadableWrite w := by
    intro w hw
    obtain ⟨inst, _, hw⟩ := List.mem_flatMap.1 hw
    rcases List.mem_append.1 hw with hw | hw
    · obtain ⟨peer, _, rfl⟩ := List.mem_map.1 hw
      exact readable_peerColumns peer
    · split at hw
      · simp at hw
      · rw [List.mem_singleton.1 hw]
        trivial
  have hr : ∀ row ∈ db.peerLinks[k]?, Readable row.value := fun row hrow => h k row hrow
  generalize s.instances.flatMap (linkWrites s.collectionID (millis s.completedAtMS)) = ws at hws hrow
  generalize db.peerLinks[k]? = r at hr hrow
  induction ws generalizing r with
  | nil => exact hr row hrow
  | cons w ws ih =>
    rw [List.forall_mem_cons] at hws
    exact ih hws.2 _ (hws.1.act hr) hrow

/-- Every link of a reachable database can be read. -/
theorem readable_of_reachable {E : Encoding} {db : Db} (h : Reachable E db) : DbReadable db := by
  refine h.induct Table.all_empty fun db op hdb => ?_
  obtain he | ⟨now, s, _, _, _, _, he⟩ | ⟨p, he⟩ | ⟨now, cutoff, p, _, he⟩ := op.exec_cases E db
  · rwa [he]
  · rw [he]
    exact readable_apply hdb
  · rw [he]
    exact hdb
  · rw [he]
    exact hdb

/-! ## What it is to show a snapshot -/

/-- A peer as it is to be shown. -/
def shownPeer (inst : NexusTier.Instance) (peer : NexusTier.Peer) : Peer where
  peerID := peer.peerID
  ipv4 := peer.ipv4
  hostname := peer.hostname
  nextHopPeerID := peer.nextHopPeerID
  direct := peer.direct
  pathCost := peer.pathCost
  latencyMS := peer.latencyMS
  lossRate := peer.lossRate
  rxBytes := peer.rxBytes
  txBytes := peer.txBytes
  tunnelProtocols := peer.tunnelProtocols.elems
  easyTierVersion := peer.version
  lastObservedAt := millis inst.observedAtMS

/-- A node as it is to be shown. -/
def shownNode (inst : NexusTier.Instance) (node : NexusTier.Node) : Node where
  peerID := node.peerID
  ipv4 := node.ipv4
  hostname := node.hostname
  proxyCIDRs := node.proxyCIDRs.elems
  listeners := node.listeners.elems
  easyTierVersion := node.version
  lastObservedAt := millis inst.observedAtMS

/-- An instance of the snapshot is shown: with exactly its peers, and with its node if the
snapshot has one. -/
structure ShowsInstance (s : Snapshot) (inst : NexusTier.Instance) (shown : Instance) : Prop where
  instanceID : shown.instanceID = inst.instanceID
  active : shown.active = true
  disappearedAt : shown.disappearedAt = none
  lastObservedAt : shown.lastObservedAt = millis inst.observedAtMS
  lastCollectionID : shown.lastCollectionID = s.collectionID
  node : ∀ node, inst.node = some node → shown.node = some (shownNode inst node)
  peers : ∃ peers : List NexusTier.Peer, peers.Perm inst.peers.elems ∧
    shown.peers = peers.map (shownPeer inst)

/-- A machine of the snapshot is shown: with exactly its instances. -/
structure ShowsMachine (s : Snapshot) (machine : NexusTier.Machine) (shown : Machine) : Prop where
  machineID : shown.machineID = machine.session.machineID
  remoteURL : shown.remoteURL = machine.session.remoteURL
  hostname : shown.hostname = machine.session.hostname
  easyTierVersion : shown.easyTierVersion = machine.session.easyTierVersion
  reportTime : shown.reportTime = machine.session.reportTime
  connectedAt : shown.connectedAt = millis machine.session.connectedAtMS
  lastHeartbeatAt : shown.lastHeartbeatAt = millis machine.session.lastHeartbeatAtMS
  device : shown.device = machine.session.device
  active : shown.active = true
  disappearedAt : shown.disappearedAt = none
  lastObservedAt : shown.lastObservedAt = millis machine.observedAtMS
  lastCollectionID : shown.lastCollectionID = s.collectionID
  instances : ∃ insts : List NexusTier.Instance, insts.Perm machine.instances.elems ∧
    List.Forall₂ (ShowsInstance s) insts shown.networkInstances

/-- The machines shown are exactly those of the snapshot. -/
def Shows (s : Snapshot) (shown : List Machine) : Prop :=
  ∃ machines : List NexusTier.Machine, machines.Perm s.machines.elems ∧
    List.Forall₂ (ShowsMachine s) machines shown

/-! ## Rows and what they are shown as -/

theorem uint32_toNat (x : UInt32) : uint32 (x.toNat : Int) = x := by
  rw [uint32, BitVec.ofInt_natCast]
  exact UInt32.ofNat_toNat

theorem peerOf_peerRow (cid : Uuid) (c : Timestamp) (inst : NexusTier.Instance)
    (peer : NexusTier.Peer) :
    peerOf (⟨inst.instanceID, peer.peerID.toNat⟩, peerRow cid c inst peer) =
      shownPeer inst peer := by
  have hcounter : ∀ x : Option UInt64, (decimalString x).map UInt64.ofNat = x := by
    intro x
    cases x <;> simp [decimalString]
  simp [peerOf, peerRow, shownPeer, peerColumns, uint32_toNat, hcounter]

theorem scanDevice_machineColumns (machine : NexusTier.Machine) :
    scanDevice (machineColumns machine) = machine.session.device := by
  cases hdev : machine.session.device with
  | none => simp [scanDevice, machineColumns, hdev]
  | some device => simp [scanDevice, machineColumns, hdev]

section

variable {E : Encoding} {now : Timestamp} {s : Snapshot} {db : Db}

/-- The links of an instance are its peers. -/
theorem links_perm (hwf : db.WellFormed) (hc : s.Complete) (hd : s.Distinct)
    (hl : s.LaterThan db) {inst : NexusTier.Instance} (hi : inst ∈ s.instances) :
    ((s.apply E now db).peerLinks.toList.filter fun x =>
      decide (x.1.source = inst.instanceID)).Perm
      (inst.peers.elems.map fun peer => (⟨inst.instanceID, peer.peerID.toNat⟩,
        peerRow s.collectionID (millis s.completedAtMS) inst peer)) := by
  refine Table.perm_filter_toList ?_ fun e => ?_
  · refine List.Nodup.of_map (fun e => uint32 e.1.destination) ?_
    rw [List.map_map]
    simpa [Function.comp_def, uint32_toNat] using hd.peers inst hi
  · constructor
    · intro he
      obtain ⟨peer, hp, rfl⟩ := List.mem_map.1 he
      exact ⟨apply_link_fresh hwf hc hd hl hi hp, by simp⟩
    · rintro ⟨hrow, hsource⟩
      obtain ⟨⟨source, destination⟩, row⟩ := e
      obtain rfl : source = inst.instanceID := by simpa using hsource
      by_cases hlisted : destination ∈ inst.peers.elems.map fun peer => (peer.peerID.toNat : Int)
      · obtain ⟨peer, hp, rfl⟩ := List.mem_map.1 hlisted
        have hfresh := @apply_link_fresh E now s db hwf hc hd hl inst hi peer hp
        rw [hrow] at hfresh
        exact List.mem_map.2 ⟨peer, hp, Prod.ext rfl (Option.some.inj hfresh).symm⟩
      · have hgone := @apply_link_gone E now s db hwf hc hd hl inst hi destination hlisted
        rw [hrow] at hgone
        simp at hgone

/-- The row of an instance of the snapshot. -/
def instanceRow (s : Snapshot) (machineID : Uuid) (inst : NexusTier.Instance) :
    Uuid × InstanceRow :=
  (inst.instanceID, .fresh ⟨machineID⟩ (millis inst.observedAtMS) (millis s.completedAtMS)
    s.collectionID)

/-- The active instances of a machine are those of the snapshot. -/
theorem instances_perm (hwf : db.WellFormed) (hc : s.Complete) (hd : s.Distinct)
    (hl : s.LaterThan db) {machine : NexusTier.Machine} (hm : machine ∈ s.machines.elems) :
    (ownedRows (some true) (s.apply E now db) machine.session.machineID).Perm
      (machine.instances.elems.map (instanceRow s machine.session.machineID)) := by
  refine Table.perm_filter_toList ?_ fun e => ?_
  · refine List.Nodup.of_map Prod.fst ?_
    rw [List.map_map]
    have hsub : machine.instances.elems.Sublist s.instances :=
      List.sublist_flatten_of_mem (List.mem_map_of_mem hm)
    exact hd.instances.sublist (hsub.map _)
  · constructor
    · intro he
      obtain ⟨inst, hinst, rfl⟩ := List.mem_map.1 he
      exact ⟨apply_instance_fresh hwf hd hl hm hinst, by simp [instanceRow, Tracked.fresh]⟩
    · rintro ⟨hrow, hp⟩
      obtain ⟨howner, hactive⟩ : e.2.value.machineID = machine.session.machineID ∧
          e.2.active = true := by simpa using hp
      by_cases hlisted : e.1 ∈ s.instances.map NexusTier.Instance.instanceID
      · obtain ⟨inst, hinst, hid⟩ := List.mem_map.1 hlisted
        obtain ⟨machine', hm', hinst'⟩ := Snapshot.mem_instances.1 hinst
        have hfresh := @apply_instance_fresh E now s db hwf hd hl machine' hm' inst hinst'
        rw [hid, hrow, Option.some_inj] at hfresh
        have hsame : machine' = machine := by
          refine List.inj_on_of_nodup_map hd.machines hm' hm ?_
          rw [← howner, hfresh]
          rfl
        subst hsame
        exact List.mem_map.2 ⟨inst, hinst', Prod.ext hid hfresh.symm⟩
      · have hinactive := apply_instance_inactive hc hl hlisted hrow
        simp [hactive] at hinactive

/-- The row of a machine of the snapshot. -/
def machineRow (s : Snapshot) (machine : NexusTier.Machine) : Uuid × MachineRow :=
  (machine.session.machineID, .fresh (machineColumns machine) (millis machine.observedAtMS)
    (millis s.completedAtMS) s.collectionID)

/-- The query for the active machines. -/
def activeQuery (limit : Int) : TopologyQuery := ⟨some true, none, none, limit⟩

/-- The active machines are those of the snapshot. -/
theorem machines_perm (hwf : db.WellFormed) (hc : s.Complete) (hd : s.Distinct)
    (hl : s.LaterThan db) (limit : Int) :
    (machineRows (activeQuery limit) (s.apply E now db)).Perm
      (s.machines.elems.map (machineRow s)) := by
  refine Table.perm_filter_toList ?_ fun e => ?_
  · refine List.Nodup.of_map Prod.fst ?_
    rw [List.map_map]
    exact hd.machines
  · constructor
    · intro he
      obtain ⟨machine, hm, rfl⟩ := List.mem_map.1 he
      exact ⟨apply_machine_fresh hwf hd hl hm, by simp [activeQuery, machineRow, Tracked.fresh]⟩
    · rintro ⟨hrow, hp⟩
      have hactive : e.2.active = true := by simpa [activeQuery] using hp
      by_cases hlisted : e.1 ∈ machineIDs s.machines.elems
      · obtain ⟨machine, hm, hid⟩ := List.mem_map.1 hlisted
        have hfresh := @apply_machine_fresh E now s db hwf hd hl machine hm
        rw [hid, hrow, Option.some_inj] at hfresh
        exact List.mem_map.2 ⟨machine, hm, Prod.ext hid hfresh.symm⟩
      · have hinactive := apply_machine_inactive hc hl hlisted hrow
        simp [hactive] at hinactive

theorem shows_instance (hwf : db.WellFormed) (hc : s.Complete) (hd : s.Distinct)
    (hl : s.LaterThan db) (machineID : Uuid) {inst : NexusTier.Instance}
    (hi : inst ∈ s.instances) :
    ShowsInstance s inst (withPeers (s.apply E now db) (s.apply E now db).peerLinks.toList
      (instanceRow s machineID inst)) := by
  refine ⟨rfl, rfl, rfl, rfl, rfl, fun node hnode => ?_, ?_⟩
  · have hrow := @apply_node_fresh E now s db hwf hd hl inst hi node hnode
    have hread : (withPeers (s.apply E now db) (s.apply E now db).peerLinks.toList
        (instanceRow s machineID inst)).node =
          (s.apply E now db).nodes[inst.instanceID]?.map scanNode := rfl
    rw [hread, hrow]
    simp [scanNode, shownNode, nodeColumns, uint32_toNat]
  · obtain ⟨peers, hperm, heq⟩ := exists_perm_map (@links_perm E now s db hwf hc hd hl inst hi)
    refine ⟨peers, hperm, ?_⟩
    have hlinks : (withPeers (s.apply E now db) (s.apply E now db).peerLinks.toList
        (instanceRow s machineID inst)).peers = ((s.apply E now db).peerLinks.toList.filter fun x =>
          decide (x.1.source = inst.instanceID)).map peerOf := rfl
    rw [hlinks, heq, List.map_map]
    exact List.map_congr_left fun peer _ => peerOf_peerRow _ _ inst peer

theorem shows_machine (hwf : db.WellFormed) (hc : s.Complete) (hd : s.Distinct)
    (hl : s.LaterThan db) {machine : NexusTier.Machine} (hm : machine ∈ s.machines.elems) :
    ShowsMachine s machine (nestedMachine (some true) (s.apply E now db) (machineRow s machine)) := by
  refine ⟨rfl, rfl, rfl, rfl, rfl, rfl, rfl, scanDevice_machineColumns machine, rfl, rfl, rfl, rfl,
    ?_⟩
  obtain ⟨insts, hperm, heq⟩ := exists_perm_map (@instances_perm E now s db hwf hc hd hl machine hm)
  refine ⟨insts, hperm, ?_⟩
  have hrows : (nestedMachine (some true) (s.apply E now db) (machineRow s machine)).networkInstances =
      (ownedRows (some true) (s.apply E now db) machine.session.machineID).map
        (withPeers (s.apply E now db) (s.apply E now db).peerLinks.toList) := rfl
  rw [hrows, heq, List.map_map, List.forall₂_map_right_iff, List.forall₂_same]
  intro inst hinst
  exact shows_instance hwf hc hd hl _
    (Snapshot.mem_instances.2 ⟨machine, hm, hperm.mem_iff.1 hinst⟩)

end

/-! ## The agreement -/

/-- Different labels of the metrics of a snapshot have different fingerprints. -/
def Fingerprinted (E : Encoding) (s : Snapshot) : Prop :=
  ∀ inst ∈ s.instances, ∀ metric ∈ inst.metrics.elems, ∀ inst' ∈ s.instances,
    ∀ metric' ∈ inst'.metrics.elems,
      E.sha256 (E.marshalLabels metric.labels) = E.sha256 (E.marshalLabels metric'.labels) →
        metric.labels = metric'.labels

/-- The keys of metrics that differ in name or labels are different. -/
theorem nodup_metricKeys {E : Encoding} {s : Snapshot} (hd : s.Distinct)
    (hf : Fingerprinted E s) : (s.metricKeys E).Nodup := by
  have hkey : ∀ inst ∈ s.instances, ∀ metric ∈ inst.metrics.elems, ∀ inst' ∈ s.instances,
      ∀ metric' ∈ inst'.metrics.elems,
        metricKey s.collectionID E inst.instanceID metric =
          metricKey s.collectionID E inst'.instanceID metric' →
        inst.instanceID = inst'.instanceID ∧
          (metric.name, metric.labels) = (metric'.name, metric'.labels) := by
    intro inst hinst metric hmetric inst' hinst' metric' hmetric' heq
    obtain ⟨-, hid, hname, htext⟩ := MetricKey.mk.inj heq
    have hlabels := hf inst hinst metric hmetric inst' hinst' metric' hmetric'
      (HexDigest.mk.injEq .. ▸ htext)
    exact ⟨hid, Prod.ext hname hlabels⟩
  rw [Snapshot.metricKeys, List.nodup_flatMap]
  constructor
  · intro inst hinst
    refine List.Nodup.map_on ?_ (List.Nodup.of_map _ (hd.metrics inst hinst))
    intro metric hm metric' hm' heq
    exact List.inj_on_of_nodup_map (hd.metrics inst hinst) hm hm'
      (hkey inst hinst metric hm inst hinst metric' hm' heq).2
  · refine (List.pairwise_map.1 hd.instances).imp_of_mem ?_
    intro inst inst' hinst hinst' hne key hin hin'
    obtain ⟨metric, hm, rfl⟩ := List.mem_map.1 hin
    obtain ⟨metric', hm', heq⟩ := List.mem_map.1 hin'
    exact hne (hkey inst hinst metric hm inst' hinst' metric' hm' heq.symm).1

/-- **What is written is what is read.**  A complete snapshot whose ids are distinct, that the
database can hold and whose times are later than all that is stored is ingested, and paging through
the active topology then shows exactly it. -/
theorem topology_shows_snapshot {E : Encoding} {db : Db} {s : Snapshot} (hdb : Reachable E db)
    (hv : s.validate = .ok ()) (hc : s.Complete)
    (hnew : db.collectionRuns[s.collectionID]? = none) (hd : s.Distinct)
    (htexts : storable s.texts = true) (hinsts : ∀ inst ∈ s.instances, inst.Storable E)
    (hf : Fingerprinted E s) (hl : s.LaterThan db) (now : Timestamp) :
    ∃ db', ingest E now s db = .ok (true, db') ∧
      ∀ (readAt : Timestamp) (limit : Int), 1 ≤ limit →
        ∀ fuel, s.machines.elems.length < fuel →
          ∃ shown, topology readAt (activeQuery limit) db' fuel = .ok (some shown) ∧
            Shows s shown := by
  have hvalid := Snapshot.validate_eq_ok.1 hv
  obtain ⟨db', hdb'⟩ := (ingest_eq_ok_iff hdb.logged hvalid hnew).2
    ⟨htexts, hinsts, nodup_metricKeys hd hf⟩
  refine ⟨db', hdb', fun readAt limit _ fuel hfuel => ?_⟩
  obtain ⟨_, _, rfl⟩ := ingest_eq_ok_true hdb'
  have hperm := @machines_perm E now s db hdb.wellFormed hc hd hl limit
  obtain ⟨machines, hm, heq⟩ := exists_perm_map hperm
  refine ⟨_, topology_eq (readable_apply (readable_of_reachable hdb)) readAt rfl ?_, machines, hm, ?_⟩
  · rwa [hperm.length_eq, List.length_map]
  · rw [heq, List.map_map, List.forall₂_map_right_iff, List.forall₂_same]
    intro machine hmachine
    exact shows_machine hdb.wellFormed hc hd hl (hm.mem_iff.1 hmachine)

/-! ### A move -/

/-- The database that `sampleReport` leaves: machine `a1` with instance `b1`, which sees peer 7. -/
def reportedDb : Db := execAll moveEncoding [.ingest 5000000 sampleReport] Db.empty

/-- Every time stored in it is that of `sampleReport`. -/
theorem reportedDb_completed {c : Timestamp} (h : reportedDb.Completed c) : c = 2000000 := by
  obtain ⟨k, row, hrow, rfl⟩ | ⟨k, row, hrow, rfl⟩ | ⟨k, row, hrow, rfl⟩ | ⟨k, row, hrow, rfl⟩ := h
  · have hall : ∀ e ∈ reportedDb.machines.toList, e.2.completedAt = 2000000 := by decide +kernel
    exact hall _ (Table.mem_toList.2 hrow)
  · have hall : ∀ e ∈ reportedDb.networkInstances.toList, e.2.completedAt = 2000000 := by
      decide +kernel
    exact hall _ (Table.mem_toList.2 hrow)
  · have hall : ∀ e ∈ reportedDb.nodes.toList, e.2.completedAt = 2000000 := by decide +kernel
    exact hall _ (Table.mem_toList.2 hrow)
  · have hall : ∀ e ∈ reportedDb.peerLinks.toList, e.2.completedAt = 2000000 := by decide +kernel
    exact hall _ (Table.mem_toList.2 hrow)

theorem topology_shows_snapshot_move :
    (reportedDb.networkInstances[(0xb1 : Uuid)]?.map fun row => (row.active, row.value.machineID)) =
        some (true, 0xa1) ∧
      ∃ db', ingest moveEncoding 6000000 sampleMove reportedDb = .ok (true, db') ∧
        ∃ shown, topology 7000000 (activeQuery 1) db' 3 = .ok (some shown) ∧
          Shows sampleMove shown := by
  refine ⟨by decide +kernel, ?_⟩
  have hlater : sampleMove.LaterThan reportedDb := by
    constructor <;> intro c hc <;> rw [reportedDb_completed hc] <;> decide
  have hstorable : ∀ inst ∈ sampleMove.instances, inst.Storable moveEncoding := by
    have hnodes : ∀ inst ∈ sampleMove.instances, ∀ node ∈ inst.node,
        node.proxyCIDRs.isSome = true ∧ node.listeners.isSome = true := by decide
    have hpeers : ∀ inst ∈ sampleMove.instances, inst.peers.elems = [] := by decide
    have hnames : ∀ inst ∈ sampleMove.instances, ∀ metric ∈ inst.metrics.elems,
        moveEncoding.indexable metric.name = true := by decide
    intro inst hinst
    exact ⟨fun node hnode => ⟨(hnodes inst hinst node hnode).1, (hnodes inst hinst node hnode).2⟩,
      by simp [hpeers inst hinst], hnames inst hinst⟩
  obtain ⟨db', hdb', hshown⟩ := @topology_shows_snapshot moveEncoding reportedDb sampleMove
    ⟨_, rfl⟩ (by decide) ⟨by decide, by decide, by decide⟩ (by decide +kernel)
    ⟨by decide, by decide, by decide, by decide⟩ (by decide +kernel)
    hstorable (by simp [Fingerprinted]; decide) hlater 6000000
  exact ⟨db', hdb', hshown 7000000 1 (by decide) 3 (by decide)⟩

/-! ### A long name -/

/-- An instance that reports one metric. -/
def namedInstance (name : String) : NexusTier.Instance :=
  ⟨0xb1, 1600, none, some [], some [⟨name, 1, none⟩], some []⟩

def namedSnapshot (name : String) : Snapshot :=
  sampleSnapshot 0xc1 1000 2000 [sampleMachine 0xa1 1500 [namedInstance name]]

/-- A name that does not fit into an index entry: the most that the database can make of it by
compression is some 4 kB. -/
def longName : String := String.ofList (List.replicate 1048576 'a')

theorem exists_longName : ∃ n, 640 < n ∧ longName = String.ofList (List.replicate n 'a') :=
  ⟨1048576, by decide, rfl⟩

theorem storableText_longName : storableText longName = true := by
  obtain ⟨n, -, hname⟩ := exists_longName
  rw [hname, storableText, String.toList_ofList, List.all_eq_true]
  intro c hc
  rw [List.eq_of_mem_replicate hc]
  decide

theorem length_longName : 640 < longName.length := by
  obtain ⟨n, hn, hname⟩ := exists_longName
  rwa [hname, String.length_ofList, List.length_replicate]

section

variable (name : String)

theorem instances_namedSnapshot : (namedSnapshot name).instances = [namedInstance name] := rfl

theorem valid_namedSnapshot : (namedSnapshot name).Valid where
  schema := rfl
  collectionID_ne := show (0xc1 : Uuid) ≠ Uuid.nil by decide
  started_le := show (1000 : UInt64) ≤ 2000 by decide
  collected_eq := rfl
  completed_le := show (2000 : UInt64) ≤ maxTimestampMS by decide
  machines := List.forall_mem_singleton.2
    ⟨show (0xa1 : Uuid) ≠ Uuid.nil by decide, show (1500 : UInt64) ≤ 2000 by decide,
      show (500 : UInt64) ≤ maxTimestampMS by decide, show (900 : UInt64) ≤ maxTimestampMS by decide,
      List.forall_mem_singleton.2
        ⟨show (0xb1 : Uuid) ≠ Uuid.nil by decide, show (1600 : UInt64) ≤ 2000 by decide⟩⟩

theorem unused_namedSnapshot : Db.empty.collectionRuns[(namedSnapshot name).collectionID]? = none :=
  rfl

theorem distinct_namedSnapshot : (namedSnapshot name).Distinct where
  machines := List.nodup_singleton _
  instances := List.nodup_singleton _
  peers := List.forall_mem_singleton.2 List.nodup_nil
  metrics := List.forall_mem_singleton.2 (List.nodup_singleton _)

theorem complete_namedSnapshot : (namedSnapshot name).Complete :=
  ⟨rfl, List.forall_mem_singleton.2 rfl, List.forall_mem_singleton.2 rfl⟩

theorem fingerprinted_namedSnapshot : Fingerprinted (.recorded []) (namedSnapshot name) := by
  simp [Fingerprinted, instances_namedSnapshot, namedInstance]

theorem storable_namedSnapshot (h : storableText name = true) :
    storable (namedSnapshot name).texts = true := by
  have htexts : (namedSnapshot name).texts = schemaVersion :: (sampleSession 0xa1).texts ++ [name] :=
    rfl
  rw [htexts, storable_append]
  simp only [storable, List.all_cons, List.all_nil, h, Bool.and_true]
  decide

theorem indexable_of_ingest_namedSnapshot {E : Encoding} {now : Timestamp} {db' : Db}
    (h : ingest E now (namedSnapshot name) Db.empty = .ok (true, db')) : E.indexable name = true := by
  have hreach : Reachable E Db.empty := ⟨[], rfl⟩
  have hstorable : (namedSnapshot name).Storable E :=
    (ingest_eq_ok_iff hreach.logged (valid_namedSnapshot name) (unused_namedSnapshot name)).1 ⟨db', h⟩
  exact (hstorable.instances _ List.mem_cons_self).names _ List.mem_cons_self

end

/-- **The name of a metric may be too long.**  A snapshot that meets all other conditions is refused
for it. -/
theorem longName_refused :
    Reachable (.recorded []) Db.empty ∧ (namedSnapshot longName).validate = .ok () ∧
      (namedSnapshot longName).Complete ∧
      Db.empty.collectionRuns[(namedSnapshot longName).collectionID]? = none ∧
      (namedSnapshot longName).Distinct ∧ storable (namedSnapshot longName).texts = true ∧
      (∀ inst ∈ (namedSnapshot longName).instances, inst.node = none ∧ inst.peers = some []) ∧
      Fingerprinted (.recorded []) (namedSnapshot longName) ∧
      (namedSnapshot longName).LaterThan Db.empty ∧
      ∀ now db', ingest (.recorded []) now (namedSnapshot longName) Db.empty ≠ .ok (true, db') := by
  refine ⟨⟨[], rfl⟩, Snapshot.validate_eq_ok.2 (valid_namedSnapshot _), complete_namedSnapshot _,
    unused_namedSnapshot _, distinct_namedSnapshot _, storable_namedSnapshot _ storableText_longName,
    ?_, fingerprinted_namedSnapshot _, Snapshot.laterThan_empty _, fun now db' h => ?_⟩
  · rw [instances_namedSnapshot]
    exact List.forall_mem_singleton.2 ⟨rfl, rfl⟩
  · have hindexable := indexable_of_ingest_namedSnapshot longName h
    simp only [Encoding.recorded, decide_eq_true_eq] at hindexable
    exact absurd hindexable (not_le.2 length_longName)

end ReadModel

end NexusTier
