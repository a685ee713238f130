import NexusTier.Contract.Decode

/-!
# The topology, as the gateway writes it

The types of `telemetry.rs` that derive `Serialize`, and what `serde_json` makes of them: a struct
is an object with its fields under their own names, a `Vec` an array, a `BTreeMap` an object, `None`
is `null`, and so is a float that JSON has no number for.

These types and those of `gatewayclient/types.go` are declared apart, in two languages.  `received`
says, field by field, which value of the one is the same as a value of the other.

## What is here

* `Telemetry.TopologySnapshot` and its parts, with the fields that `telemetry.rs` gives them.
* `F64`: floats, of which some are no numbers.
* `serialize` for each type: the document that `serde_json` writes.
* `received` for each type: the value that stands for it on the other side.

## What is left out

The order of the fields is that of the declarations, as `serde_json` writes them; that the text is
compact does not matter to a reader of JSON.
-/

set_option autoImplicit false

namespace NexusTier

namespace Telemetry

/-- The values of the finite floats with 64 bits; both zeros have one value. -/
def Binary64 (x : ℚ) : Prop :=
  ∃ m e : ℤ, |m| < 2 ^ 53 ∧ -1074 ≤ e ∧ e ≤ 971 ∧ x = m * 2 ^ e

/-- An `f64`. -/
inductive F64 where
  | finite (x : ℚ) (h : Binary64 x)
  | infinity (negative : Bool)
  | nan

/-- The number that a float is, if it is one. -/
def F64.value? : F64 → Option ℚ
  | finite x _ => some x
  | infinity _ => none
  | nan => none

def F64.isFinite (x : F64) : Bool := x.value?.isSome

structure TelemetryError where
  code : String
  operation : String
  message : String

structure MetricView where
  name : String
  value : UInt64
  labels : Labels

structure PeerView where
  peerID : UInt32
  ipv4 : Option String
  hostname : String
  nextHopPeerID : UInt32
  direct : Bool
  pathCost : Int32
  latencyMS : Option F64
  lossRate : Option F64
  rxBytes : Option UInt64
  txBytes : Option UInt64
  tunnelProtocols : List String
  version : String

structure NodeView where
  peerID : UInt32
  ipv4 : String
  hostname : String
  proxyCIDRs : List String
  listeners : List String
  version : String

structure InstanceTopology where
  instanceID : Uuid
  observedAtMS : UInt64
  node : Option NodeView
  peers : List PeerView
  metrics : List MetricView
  errors : List TelemetryError

structure DeviceView where
  osType : String
  osVersion : String
  distribution : String

structure SessionView where
  machineID : Uuid
  remoteURL : String
  hostname : String
  easytierVersion : String
  reportTime : String
  connectedAtMS : UInt64
  lastHeartbeatAtMS : UInt64
  runningInstanceIDs : List Uuid
  device : Option DeviceView

structure MachineTopology where
  session : SessionView
  observedAtMS : UInt64
  instances : List InstanceTopology
  errors : List TelemetryError

structure TopologySnapshot where
  schemaVersion : String
  collectionID : Uuid
  startedAtMS : UInt64
  completedAtMS : UInt64
  collectedAtMS : UInt64
  machines : List MachineTopology
  errors : List TelemetryError

/-! ## `Serialize` -/

open Json

/-- A `Vec`. -/
def ofVec {α : Type} (f : α → Json) (l : List α) : Json := arr (l.map f)

/-- A `BTreeMap<String, String>`. -/
def ofMap (labels : Labels) : Json := obj (labels.entries.map fun e => (e.1, str e.2))

def TelemetryError.serialize (e : TelemetryError) : Json :=
  obj [("code", str e.code), ("operation", str e.operation), ("message", str e.message)]

def MetricView.serialize (m : MetricView) : Json :=
  obj [("name", str m.name), ("value", ofUInt64 m.value), ("labels", ofMap m.labels)]

def NodeView.serialize (n : NodeView) : Json :=
  obj
    [("peer_id", ofUInt32 n.peerID),
     ("ipv4", str n.ipv4),
     ("hostname", str n.hostname),
     ("proxy_cidrs", ofVec str n.proxyCIDRs),
     ("listeners", ofVec str n.listeners),
     ("version", str n.version)]

def DeviceView.serialize (d : DeviceView) : Json :=
  obj
    [("os_type", str d.osType), ("os_version", str d.osVersion),
     ("distribution", str d.distribution)]

def SessionView.serialize (s : SessionView) : Json :=
  obj
    [("machine_id", ofUuid s.machineID),
     ("remote_url", str s.remoteURL),
     ("hostname", str s.hostname),
     ("easytier_version", str s.easytierVersion),
     ("report_time", str s.reportTime),
     ("connected_at_ms", ofUInt64 s.connectedAtMS),
     ("last_heartbeat_at_ms", ofUInt64 s.lastHeartbeatAtMS),
     ("running_instance_ids", ofVec ofUuid s.runningInstanceIDs),
     ("device", ofOption DeviceView.serialize s.device)]

section

variable (C : Codec)

/-- `serde_json` writes a float with a fraction or an exponent, and as `null` if it is no number. -/
def F64.serialize : F64 → Json
  | finite x _ => dec (C.formatFloat x)
  | infinity _ => null
  | nan => null

def PeerView.serialize (p : PeerView) : Json :=
  obj
    [("peer_id", ofUInt32 p.peerID),
     ("ipv4", ofOption str p.ipv4),
     ("hostname", str p.hostname),
     ("next_hop_peer_id", ofUInt32 p.nextHopPeerID),
     ("direct", .bool p.direct),
     ("path_cost", int p.pathCost.toInt),
     ("latency_ms", ofOption (F64.serialize C) p.latencyMS),
     ("loss_rate", ofOption (F64.serialize C) p.lossRate),
     ("rx_bytes", ofOption ofUInt64 p.rxBytes),
     ("tx_bytes", ofOption ofUInt64 p.txBytes),
     ("tunnel_protocols", ofVec str p.tunnelProtocols),
     ("version", str p.version)]

def InstanceTopology.serialize (i : InstanceTopology) : Json :=
  obj
    [("instance_id", ofUuid i.instanceID),
     ("observed_at_ms", ofUInt64 i.observedAtMS),
     ("node", ofOption NodeView.serialize i.node),
     ("peers", ofVec (PeerView.serialize C) i.peers),
     ("metrics", ofVec MetricView.serialize i.metrics),
     ("errors", ofVec TelemetryError.serialize i.errors)]

def MachineTopology.serialize (m : MachineTopology) : Json :=
  obj
    [("session", m.session.serialize),
     ("observed_at_ms", ofUInt64 m.observedAtMS),
     ("instances", ofVec (InstanceTopology.serialize C) m.instances),
     ("errors", ofVec TelemetryError.serialize m.errors)]

def TopologySnapshot.serialize (t : TopologySnapshot) : Json :=
  obj
    [("schema_version", str t.schemaVersion),
     ("collection_id", ofUuid t.collectionID),
     ("started_at_ms", ofUInt64 t.startedAtMS),
     ("completed_at_ms", ofUInt64 t.completedAtMS),
     ("collected_at_ms", ofUInt64 t.collectedAtMS),
     ("machines", ofVec (MachineTopology.serialize C) t.machines),
     ("errors", ofVec TelemetryError.serialize t.errors)]

end

/-! ## The same value in Go -/

def TelemetryError.received (e : TelemetryError) : NexusTier.TelemetryError :=
  ⟨e.code, e.operation, e.message⟩

def MetricView.received (m : MetricView) : Metric := ⟨m.name, m.value, some m.labels⟩

/-- A float that is no number is nil. -/
def PeerView.received (p : PeerView) : Peer where
  peerID := p.peerID
  ipv4 := p.ipv4
  hostname := p.hostname
  nextHopPeerID := p.nextHopPeerID
  direct := p.direct
  pathCost := p.pathCost
  latencyMS := p.latencyMS.bind F64.value?
  lossRate := p.lossRate.bind F64.value?
  rxBytes := p.rxBytes
  txBytes := p.txBytes
  tunnelProtocols := some p.tunnelProtocols
  version := p.version

def NodeView.received (n : NodeView) : Node where
  peerID := n.peerID
  ipv4 := n.ipv4
  hostname := n.hostname
  proxyCIDRs := some n.proxyCIDRs
  listeners := some n.listeners
  version := n.version

def InstanceTopology.received (i : InstanceTopology) : Instance where
  instanceID := i.instanceID
  observedAtMS := i.observedAtMS
  node := i.node.map NodeView.received
  peers := some (i.peers.map PeerView.received)
  metrics := some (i.metrics.map MetricView.received)
  errors := some (i.errors.map TelemetryError.received)

def DeviceView.received (d : DeviceView) : Device := ⟨d.osType, d.osVersion, d.distribution⟩

def SessionView.received (s : SessionView) : Session where
  machineID := s.machineID
  remoteURL := s.remoteURL
  hostname := s.hostname
  easyTierVersion := s.easytierVersion
  reportTime := s.reportTime
  connectedAtMS := s.connectedAtMS
  lastHeartbeatAtMS := s.lastHeartbeatAtMS
  runningInstanceIDs := some s.runningInstanceIDs
  device := s.device.map DeviceView.received

def MachineTopology.received (m : MachineTopology) : Machine where
  session := m.session.received
  observedAtMS := m.observedAtMS
  instances := some (m.instances.map InstanceTopology.received)
  errors := some (m.errors.map TelemetryError.received)

def TopologySnapshot.received (t : TopologySnapshot) : Snapshot where
  schemaVersion := t.schemaVersion
  collectionID := t.collectionID
  startedAtMS := t.startedAtMS
  completedAtMS := t.completedAtMS
  collectedAtMS := t.collectedAtMS
  machines := some (t.machines.map MachineTopology.received)
  errors := some (t.errors.map TelemetryError.received)

/-! ## Without the floats that are no numbers -/

def PeerView.dropNonFinite (p : PeerView) : PeerView :=
  { p with
    latencyMS := p.latencyMS.filter F64.isFinite
    lossRate := p.lossRate.filter F64.isFinite }

def InstanceTopology.dropNonFinite (i : InstanceTopology) : InstanceTopology :=
  { i with
    peers := i.peers.map PeerView.dropNonFinite }

def MachineTopology.dropNonFinite (m : MachineTopology) : MachineTopology :=
  { m with
    instances := m.instances.map InstanceTopology.dropNonFinite }

/-- The topology with nothing in place of each float that is no number. -/
def TopologySnapshot.dropNonFinite (t : TopologySnapshot) : TopologySnapshot :=
  { t with
    machines := t.machines.map MachineTopology.dropNonFinite }

end Telemetry

end NexusTier
