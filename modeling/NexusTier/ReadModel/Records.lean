import NexusTier.ReadModel.Assembly

/-!
# Which record stands for which row

`readmodel/store.go` scans its rows column by column and nests what it has scanned.  This module
says what has to come of it without a word about scanning or nesting: a record is that of a row
(`Machine.RecordOf` and those below it) if each of its fields has the value of its column, and if the
records in it are, one after the other, those of the rows that belong to it.

An instance is read from the join of `network_instances` with `nodes`, and its peers in a query of
their own, which may see a later state of the database.  So the states of the two are told apart.

## What is here

* `Node.RecordOf`, `Peer.RecordOf`, `Instance.RecordOf`, `Machine.RecordOf`.
* `nestedFrom_recordOf` — what `loadInstances` comes to, by `Assembly`, is the record of its machine.

## What is left out

Peer ids are stored as `bigint` and read as `uint32`.  The columns have a check that makes this
exact; here it is the residue, as in the code.
-/

set_option autoImplicit false

namespace NexusTier

open Relational

namespace ReadModel

/-- The links of an instance, in the order of their peers. -/
def linksOf (db : Db) (instanceID : Uuid) : List (LinkKey × PeerRow) :=
  db.peerLinks.toList.filter fun x => decide (x.1.source = instanceID)

/-- The record of a row of `nodes`. -/
structure Node.RecordOf (row : NodeRow) (node : Node) : Prop where
  peerID : (node.peerID.toNat : Int) = row.value.peerID % 2 ^ 32
  ipv4 : node.ipv4 = row.value.ipv4
  hostname : node.hostname = row.value.hostname
  proxyCIDRs : node.proxyCIDRs = row.value.proxyCIDRs
  listeners : node.listeners = row.value.listeners
  easyTierVersion : node.easyTierVersion = row.value.easyTierVersion
  lastObservedAt : node.lastObservedAt = row.observedAt

/-- The record of a row of `peer_links_current`. -/
structure Peer.RecordOf (x : LinkKey × PeerRow) (peer : Peer) : Prop where
  peerID : (peer.peerID.toNat : Int) = x.1.destination % 2 ^ 32
  ipv4 : peer.ipv4 = x.2.value.ipv4
  hostname : peer.hostname = x.2.value.hostname
  nextHopPeerID : (peer.nextHopPeerID.toNat : Int) = x.2.value.nextHopPeerID % 2 ^ 32
  direct : peer.direct = x.2.value.direct
  pathCost : peer.pathCost = x.2.value.pathCost
  latencyMS : peer.latencyMS = x.2.value.latencyMS
  lossRate : peer.lossRate = x.2.value.lossRate
  rxBytes : peer.rxBytes.map UInt64.toNat = x.2.value.rxBytes
  txBytes : peer.txBytes.map UInt64.toNat = x.2.value.txBytes
  tunnelProtocols : peer.tunnelProtocols = x.2.value.tunnelProtocols
  easyTierVersion : peer.easyTierVersion = x.2.value.easyTierVersion
  lastObservedAt : peer.lastObservedAt = x.2.observedAt

/-- The record of a row of `network_instances`, with its row of `nodes` if there is one, and with
all its links. -/
structure Instance.RecordOf (instances peers : Db) (e : Uuid × InstanceRow) (inst : Instance) :
    Prop where
  instanceID : inst.instanceID = e.1
  active : inst.active = e.2.active
  disappearedAt : inst.disappearedAt = e.2.disappearedAt
  lastObservedAt : inst.lastObservedAt = e.2.observedAt
  lastCollectionID : inst.lastCollectionID = e.2.source
  node : ∀ row ∈ instances.nodes[e.1]?, ∃ node, inst.node = some node ∧ node.RecordOf row
  noNode : instances.nodes[e.1]? = none → inst.node = none
  peers : List.Forall₂ Peer.RecordOf (linksOf peers e.1) inst.peers

/-- The record of a row of `machines`, with those of its instances that pass the filter. -/
structure Machine.RecordOf (activeFilter : Option Bool) (instances peers : Db) (e : Uuid × MachineRow)
    (machine : Machine) : Prop where
  machineID : machine.machineID = e.1
  remoteURL : machine.remoteURL = e.2.value.remoteURL
  hostname : machine.hostname = e.2.value.hostname
  easyTierVersion : machine.easyTierVersion = e.2.value.easyTierVersion
  reportTime : machine.reportTime = e.2.value.reportTime
  connectedAt : machine.connectedAt = e.2.value.connectedAt
  lastHeartbeatAt : machine.lastHeartbeatAt = e.2.value.lastHeartbeatAt
  device : ∀ d, machine.device = some d ↔
    (e.2.value.deviceOSType ≠ none ∨ e.2.value.deviceOSVersion ≠ none ∨
      e.2.value.deviceDistribution ≠ none) ∧ d.osType = e.2.value.deviceOSType.getD "" ∧
      d.osVersion = e.2.value.deviceOSVersion.getD "" ∧
      d.distribution = e.2.value.deviceDistribution.getD ""
  active : machine.active = e.2.active
  disappearedAt : machine.disappearedAt = e.2.disappearedAt
  lastObservedAt : machine.lastObservedAt = e.2.observedAt
  lastCollectionID : machine.lastCollectionID = e.2.source
  networkInstances : List.Forall₂ (Instance.RecordOf instances peers)
    (ownedRows activeFilter instances e.1) machine.networkInstances

/-! ## What is scanned -/

theorem toNat_uint32 (value : Int) : ((uint32 value).toNat : Int) = value % 2 ^ 32 := by
  show ((BitVec.ofInt 32 value).toNat : Int) = value % 2 ^ 32
  rw [BitVec.toNat_ofInt]
  exact Int.toNat_of_nonneg (Int.emod_nonneg value (by decide))

theorem scanNode_recordOf (row : NodeRow) : (scanNode row).RecordOf row :=
  ⟨toNat_uint32 row.value.peerID, rfl, rfl, rfl, rfl, rfl, rfl⟩

/-- A counter that fits is read as what is stored. -/
theorem map_toNat_map_ofNat {value : Option Nat} (h : ∀ n ∈ value, n < 2 ^ 64) :
    (value.map UInt64.ofNat).map UInt64.toNat = value := by
  cases value with
  | none => rfl
  | some n =>
    have hn : (UInt64.ofNat n).toNat = n := UInt64.toNat_ofNat_of_lt' (h n rfl)
    rw [Option.map_some, Option.map_some, hn]

theorem peerOf_recordOf {x : LinkKey × PeerRow} (h : Readable x.2.value) :
    (peerOf x).RecordOf x where
  peerID := toNat_uint32 x.1.destination
  ipv4 := rfl
  hostname := rfl
  nextHopPeerID := toNat_uint32 x.2.value.nextHopPeerID
  direct := rfl
  pathCost := rfl
  latencyMS := rfl
  lossRate := rfl
  rxBytes := map_toNat_map_ofNat h.rx
  txBytes := map_toNat_map_ofNat h.tx
  tunnelProtocols := rfl
  easyTierVersion := rfl
  lastObservedAt := rfl

theorem scanDevice_eq_some {columns : MachineColumns} {d : Device} :
    scanDevice columns = some d ↔
      (columns.deviceOSType ≠ none ∨ columns.deviceOSVersion ≠ none ∨
        columns.deviceDistribution ≠ none) ∧ d.osType = columns.deviceOSType.getD "" ∧
        d.osVersion = columns.deviceOSVersion.getD "" ∧
        d.distribution = columns.deviceDistribution.getD "" := by
  obtain ⟨osType, osVersion, distribution⟩ := d
  rw [scanDevice]
  split
  · rename_i h
    simp only [Bool.or_eq_true, Option.isSome_iff_ne_none, or_assoc] at h
    simp only [Option.some.injEq, Device.mk.injEq, h, true_and]
    exact ⟨fun ⟨a, b, c⟩ => ⟨a.symm, b.symm, c.symm⟩, fun ⟨a, b, c⟩ => ⟨a.symm, b.symm, c.symm⟩⟩
  · rename_i h
    simp only [Bool.or_eq_true, Option.isSome_iff_ne_none, or_assoc] at h
    simp only [reduceCtorEq, h, false_and]

/-- A link of a database whose links can all be read. -/
theorem DbReadable.linksOf {db : Db} (hdb : DbReadable db) {i : Uuid} {x : LinkKey × PeerRow}
    (hx : x ∈ linksOf db i) : Readable x.2.value :=
  hdb x.1 x.2 (Table.mem_toList.1 (List.mem_of_mem_filter hx))

/-! ## What is nested -/

section

variable {active : Option Bool} {instances peers : Db}

theorem withPeers_recordOf {e : Uuid × InstanceRow}
    (h : ∀ x ∈ linksOf peers e.1, Readable x.2.value) :
    (withPeers instances peers.peerLinks.toList e).RecordOf instances peers e where
  instanceID := rfl
  active := rfl
  disappearedAt := rfl
  lastObservedAt := rfl
  lastCollectionID := rfl
  node row hrow := ⟨scanNode row, congrArg (Option.map scanNode) hrow, scanNode_recordOf row⟩
  noNode hnone := congrArg (Option.map scanNode) hnone
  peers := by
    show List.Forall₂ Peer.RecordOf (linksOf peers e.1) ((linksOf peers e.1).map peerOf)
    rw [List.forall₂_map_right_iff, List.forall₂_same]
    exact fun x hx => peerOf_recordOf (h x hx)

/-- **Nesting makes the record of the machine.** -/
theorem nestedFrom_recordOf {e : Uuid × MachineRow}
    (h : ∀ z ∈ ownedRows active instances e.1, ∀ x ∈ linksOf peers z.1, Readable x.2.value) :
    (nestedFrom active instances peers e).RecordOf active instances peers e where
  machineID := rfl
  remoteURL := rfl
  hostname := rfl
  easyTierVersion := rfl
  reportTime := rfl
  connectedAt := rfl
  lastHeartbeatAt := rfl
  device _ := scanDevice_eq_some
  active := rfl
  disappearedAt := rfl
  lastObservedAt := rfl
  lastCollectionID := rfl
  networkInstances := by
    show List.Forall₂ (Instance.RecordOf instances peers) (ownedRows active instances e.1)
      ((ownedRows active instances e.1).map (withPeers instances peers.peerLinks.toList))
    rw [List.forall₂_map_right_iff, List.forall₂_same]
    exact fun z hz => withPeers_recordOf (h z hz)

end

end ReadModel

end NexusTier
