import NexusTier.Contract.Keywords
import NexusTier.Contract.RoundTrip

/-!
# The published contract, and what the gateway writes

`contracts/topology-v1.schema.json`, definition by definition.  Two things are said about it in this
development: here, when a topology that the gateway writes conforms to it; in
`Contract/Conforming.lean`, that the controller reads what conforms.

What `serde_json` makes of a topology always has the properties of the contract, with values of
their types.  What is left are conditions on the values, and only some of them are in the hands of
the gateway: the schema version, that no id is nil, the codes of its errors, the range of times.

## What is here

* `Schema.topology` and the definitions it refers to.
* `TopologySnapshot.Conforms` — the conditions on the values, type by type.
* `TopologySnapshot.conforms_iff` — that these are all.

## What is left out

Titles, descriptions and `$id` say nothing about documents.  Floats that JSON has no number for are
written as `null`, which the contract allows where they stand.
-/

set_option autoImplicit false

open Encoding

namespace NexusTier

namespace Schema

/-! ## The file -/

def nilUuidText : String := "00000000-0000-0000-0000-000000000000"

def uuid : Schema := all [type [.string], formatUuid, not (const nilUuidText)]

def timestampMs : Schema := all [type [.integer], minimum 0, maximum 253402300799999]

def errorCodes : List String :=
  ["session_unavailable", "rpc_error", "rpc_timeout", "task_failed", "collection_timeout"]

def string : Schema := type [.string]

def nonEmptyString : Schema := all [type [.string], minLength 1]

def strings : Schema := all [type [.array], items string]

def error : Schema :=
  closed
    [("code", all [type [.string], enum errorCodes]),
     ("operation", nonEmptyString),
     ("message", string)]

def errors : Schema := all [type [.array], items error]

def device : Schema :=
  closed [("os_type", string), ("os_version", string), ("distribution", string)]

def session : Schema :=
  closed
    [("machine_id", uuid),
     ("remote_url", nonEmptyString),
     ("hostname", string),
     ("easytier_version", string),
     ("report_time", string),
     ("connected_at_ms", timestampMs),
     ("last_heartbeat_at_ms", timestampMs),
     ("running_instance_ids", all [type [.array], items uuid]),
     ("device", oneOf [device, type [.null]])]

def peerID : Schema := all [type [.integer], minimum 0, maximum 4294967295]

def node : Schema :=
  closed
    [("peer_id", peerID),
     ("ipv4", string),
     ("hostname", string),
     ("proxy_cidrs", strings),
     ("listeners", strings),
     ("version", string)]

def peer : Schema :=
  closed
    [("peer_id", peerID),
     ("ipv4", type [.string, .null]),
     ("hostname", string),
     ("next_hop_peer_id", peerID),
     ("direct", type [.boolean]),
     ("path_cost", all [type [.integer], minimum (-2147483648), maximum 2147483647]),
     ("latency_ms", all [type [.number, .null], minimum 0]),
     ("loss_rate", all [type [.number, .null], minimum 0]),
     ("rx_bytes", all [type [.integer, .null], minimum 0]),
     ("tx_bytes", all [type [.integer, .null], minimum 0]),
     ("tunnel_protocols", strings),
     ("version", string)]

/-- The labels are the only object that is open. -/
def labels : Schema :=
  all [type [.object], maxProperties 128, propertyNames (maxLength 256),
    additionalProperties [] string]

def metric : Schema :=
  closed
    [("name", nonEmptyString),
     ("value", all [type [.integer], minimum 0]),
     ("labels", labels)]

def instance_ : Schema :=
  closed
    [("instance_id", uuid),
     ("observed_at_ms", timestampMs),
     ("node", oneOf [node, type [.null]]),
     ("peers", all [type [.array], items peer]),
     ("metrics", all [type [.array], items metric]),
     ("errors", errors)]

def machine : Schema :=
  closed
    [("session", session),
     ("observed_at_ms", timestampMs),
     ("instances", all [type [.array], items instance_]),
     ("errors", errors)]

def topology : Schema :=
  closed
    [("schema_version", const "nexustier.topology.v1"),
     ("collection_id", uuid),
     ("started_at_ms", timestampMs),
     ("completed_at_ms", timestampMs),
     ("collected_at_ms", timestampMs),
     ("machines", all [type [.array], items machine]),
     ("errors", errors)]

end Schema

/-! ## What the values have to be -/

namespace Telemetry

structure TelemetryError.Conforms (e : TelemetryError) : Prop where
  code : e.code ∈ Schema.errorCodes
  operation : e.operation ≠ ""

structure MetricView.Conforms (m : MetricView) : Prop where
  name : m.name ≠ ""
  labels : m.labels.entries.length ≤ 128
  keys : ∀ e ∈ m.labels.entries, e.1.length ≤ 256

/-- Measurements are not negative, if they are numbers. -/
structure PeerView.Conforms (p : PeerView) : Prop where
  latency : ∀ x ∈ p.latencyMS.bind F64.value?, 0 ≤ x
  loss : ∀ x ∈ p.lossRate.bind F64.value?, 0 ≤ x

structure InstanceTopology.Conforms (i : InstanceTopology) : Prop where
  instanceID : i.instanceID ≠ Uuid.nil
  observed : i.observedAtMS ≤ maxTimestampMS
  peers : ∀ p ∈ i.peers, p.Conforms
  metrics : ∀ m ∈ i.metrics, m.Conforms
  errors : ∀ e ∈ i.errors, e.Conforms

structure SessionView.Conforms (s : SessionView) : Prop where
  machineID : s.machineID ≠ Uuid.nil
  remoteURL : s.remoteURL ≠ ""
  connected : s.connectedAtMS ≤ maxTimestampMS
  lastHeartbeat : s.lastHeartbeatAtMS ≤ maxTimestampMS
  instances : ∀ id ∈ s.runningInstanceIDs, id ≠ Uuid.nil

structure MachineTopology.Conforms (m : MachineTopology) : Prop where
  session : m.session.Conforms
  observed : m.observedAtMS ≤ maxTimestampMS
  instances : ∀ i ∈ m.instances, i.Conforms
  errors : ∀ e ∈ m.errors, e.Conforms

structure TopologySnapshot.Conforms (t : TopologySnapshot) : Prop where
  schemaVersion : t.schemaVersion = NexusTier.schemaVersion
  collectionID : t.collectionID ≠ Uuid.nil
  started : t.startedAtMS ≤ maxTimestampMS
  completed : t.completedAtMS ≤ maxTimestampMS
  collected : t.collectedAtMS ≤ maxTimestampMS
  machines : ∀ m ∈ t.machines, m.Conforms
  errors : ∀ e ∈ t.errors, e.Conforms

end Telemetry

/-- The number that is written for a float has its sign. -/
def Codec.Signed (C : Codec) : Prop :=
  ∀ x, Telemetry.Binary64 x → (0 ≤ C.formatFloat x ↔ 0 ≤ x)

/-! ## Values -/

open Telemetry Schema

section Values

theorem string_str (s : String) : Schema.string (.str s) = true := rfl

theorem nonEmptyString_str (s : String) : nonEmptyString (.str s) = true ↔ s ≠ "" := by
  simp [nonEmptyString, Schema.all, type, JsonType.has, minLength, Nat.one_le_iff_ne_zero]

theorem strings_ofVec (l : List String) : strings (ofVec .str l) = true := by
  simp [strings, Schema.all, type, JsonType.has, ofVec, items, Schema.string]

theorem vec_ofVec {α : Type} {f : α → Json} {s : Schema} {P : α → Prop}
    (h : ∀ a, s (f a) = true ↔ P a) (l : List α) :
    Schema.all [type [.array], items s] (ofVec f l) = true ↔ ∀ a ∈ l, P a := by
  simp [Schema.all, type, JsonType.has, ofVec, items, h]

theorem timestampMs_ofUInt64 (n : UInt64) :
    timestampMs (Json.ofUInt64 n) = true ↔ n ≤ maxTimestampMS := by
  have hmax : maxTimestampMS.toNat = 253402300799999 := rfl
  have hle : n ≤ maxTimestampMS ↔ n.toNat ≤ 253402300799999 := by
    rw [UInt64.le_iff_toNat_le, hmax]
  simp [timestampMs, Schema.all, type, JsonType.has, Json.ofUInt64, minimum, maximum, hle]

theorem peerID_ofUInt32 (n : UInt32) : peerID (Json.ofUInt32 n) = true := by
  have hlt := n.toNat_lt
  simp [peerID, Schema.all, type, JsonType.has, Json.ofUInt32, minimum, maximum]
  omega

theorem counter_ofUInt64 (n : UInt64) :
    Schema.all [type [.integer], minimum 0] (Json.ofUInt64 n) = true := by
  simp [Schema.all, type, JsonType.has, Json.ofUInt64, minimum]

theorem counter_ofOption (x : Option UInt64) :
    Schema.all [type [.integer, .null], minimum 0] (Json.ofOption Json.ofUInt64 x) = true := by
  cases x <;> simp [Schema.all, type, JsonType.has, Json.ofOption, Json.ofUInt64, minimum]

theorem pathCost_int32 (n : Int32) :
    Schema.all [type [.integer], minimum (-2147483648), maximum 2147483647] (.int n.toInt) =
      true := by
  have hlo := n.le_toInt
  have hhi := n.toInt_lt
  simp [Schema.all, type, JsonType.has, minimum, maximum]
  omega

theorem measurement_ofOption {C : Codec} (hC : C.Signed) (x : Option F64) :
    Schema.all [type [.number, .null], minimum 0] (Json.ofOption (F64.serialize C) x) = true ↔
      ∀ q ∈ x.bind F64.value?, 0 ≤ q := by
  match x with
  | none => simp [Schema.all, type, JsonType.has, Json.ofOption, minimum]
  | some (.finite q h) =>
    simp [Schema.all, type, JsonType.has, Json.ofOption, minimum, F64.serialize, F64.value?, hC q h]
  | some (.infinity _) =>
    simp [Schema.all, type, JsonType.has, Json.ofOption, minimum, F64.serialize, F64.value?]
  | some .nan =>
    simp [Schema.all, type, JsonType.has, Json.ofOption, minimum, F64.serialize, F64.value?]

theorem labels_ofMap (l : Labels) : Schema.labels (ofMap l) = true ↔
    l.entries.length ≤ 128 ∧ ∀ e ∈ l.entries, e.1.length ≤ 256 := by
  simp [Schema.labels, Schema.all, type, JsonType.has, ofMap, maxProperties, propertyNames,
    maxLength, additionalProperties, Schema.string]

/-! ### UUIDs -/

theorem isHexDigit_of_mem {n : Nat} {c : Char} (h : c ∈ Nat.toDigits 16 n) :
    isHexDigit c = true := by
  have hdigits : ∀ i : Fin 16, isHexDigit (Nat.digitChar i) = true := by decide
  by_contra hc
  refine not_mem_toDigits (c := c) (fun i heq => hc ?_) n h
  rw [← heq]
  exact hdigits i

theorem isUuid_ofUuid {id : Uuid} {text : String} (h : Json.ofUuid id = .str text) :
    isUuid text = true := by
  have hlen := length_uuidDigits id
  have hhex : ∀ c ∈ uuidDigits id, isHexDigit c = true := by
    intro c hc
    rcases List.mem_append.1 hc with hzero | hdigit
    · rw [List.eq_of_mem_replicate hzero]
      decide
    · exact isHexDigit_of_mem hdigit
  have hpart : ∀ i n, ∀ c ∈ ((uuidDigits id).drop i).take n, isHexDigit c = true :=
    fun i n c hc => hhex c (List.mem_of_mem_drop (List.mem_of_mem_take hc))
  have hdash : ∀ i n, '-' ∉ ((uuidDigits id).drop i).take n := fun i n hmem =>
    absurd (hpart i n '-' hmem) (by decide)
  have hdash₀ : '-' ∉ (uuidDigits id).take 8 := hdash 0 8
  obtain rfl := Json.str.inj h
  have hlist : ("-".intercalate [String.ofList (((uuidDigits id).drop 0).take 8),
      String.ofList (((uuidDigits id).drop 8).take 4),
      String.ofList (((uuidDigits id).drop 12).take 4),
      String.ofList (((uuidDigits id).drop 16).take 4),
      String.ofList (((uuidDigits id).drop 20).take 12)]).toList =
        ['-'].intercalate [((uuidDigits id).drop 0).take 8, ((uuidDigits id).drop 8).take 4,
          ((uuidDigits id).drop 12).take 4, ((uuidDigits id).drop 16).take 4,
          ((uuidDigits id).drop 20).take 12] := by
    simp [String.intercalate_cons_cons, List.intercalate]
  show isUuid ("-".intercalate [String.ofList (((uuidDigits id).drop 0).take 8),
      String.ofList (((uuidDigits id).drop 8).take 4),
      String.ofList (((uuidDigits id).drop 12).take 4),
      String.ofList (((uuidDigits id).drop 16).take 4),
      String.ofList (((uuidDigits id).drop 20).take 12)]) = true
  rw [isUuid, hlist, List.splitOn_intercalate '-' (by simp [hdash, hdash₀]) (by simp)]
  simp only [List.map_cons, List.map_nil, List.length_take, List.length_drop, hlen, List.all_cons,
    List.all_nil, Bool.and_true, Bool.and_eq_true, List.all_eq_true]
  exact ⟨by decide, hpart 0 8, hpart 8 4, hpart 12 4, hpart 16 4, hpart 20 12⟩

theorem uuid_ofUuid {C : Codec} (hC : C.Exact) (id : Uuid) :
    Schema.uuid (Json.ofUuid id) = true ↔ id ≠ Uuid.nil := by
  obtain ⟨text, htext⟩ : ∃ text, Json.ofUuid id = .str text := ⟨_, rfl⟩
  have hnil : Json.ofUuid Uuid.nil = .str nilUuidText :=
    congrArg Json.str (show _ = nilUuidText by decide +kernel)
  have hiff : text = nilUuidText ↔ id = Uuid.nil := by
    constructor
    · rintro rfl
      exact Option.some.inj ((hC.uuid id _ htext).symm.trans (hC.uuid Uuid.nil _ hnil))
    · rintro rfl
      exact Json.str.inj (htext.symm.trans hnil)
  simp [Schema.uuid, Schema.all, type, JsonType.has, htext, formatUuid, isUuid_ofUuid htext,
    Schema.not, const, hiff]

end Values

/-! ## The types of the contract -/

namespace Telemetry

variable {C : Codec}

theorem TelemetryError.serialize_conforms_iff (e : TelemetryError) :
    Schema.error e.serialize = true ↔ e.Conforms := by
  rw [Schema.error, TelemetryError.serialize, closed_fields (by decide) rfl]
  simp only [List.forall₂_cons, List.Forall₂.nil, nonEmptyString_str, string_str, and_true]
  have hcode : Schema.all [type [.string], enum errorCodes] (.str e.code) = true ↔
      e.code ∈ errorCodes := by
    simp [Schema.all, type, JsonType.has, enum]
  rw [hcode]
  exact ⟨fun h => ⟨h.1, h.2⟩, fun h => ⟨h.1, h.2⟩⟩

theorem MetricView.serialize_conforms_iff (m : MetricView) :
    Schema.metric m.serialize = true ↔ m.Conforms := by
  rw [Schema.metric, MetricView.serialize, closed_fields (by decide) rfl]
  simp only [List.forall₂_cons, List.Forall₂.nil, nonEmptyString_str, counter_ofUInt64,
    labels_ofMap, and_true, true_and]
  exact ⟨fun h => ⟨h.1, h.2.1, h.2.2⟩, fun h => ⟨h.1, h.2, h.3⟩⟩

theorem NodeView.serialize_conforms (n : NodeView) : Schema.node n.serialize = true := by
  rw [Schema.node, NodeView.serialize, closed_fields (by decide) rfl]
  simp only [List.forall₂_cons, List.Forall₂.nil, peerID_ofUInt32, string_str, strings_ofVec,
    and_self]

theorem DeviceView.serialize_conforms (d : DeviceView) : Schema.device d.serialize = true := by
  rw [Schema.device, DeviceView.serialize, closed_fields (by decide) rfl]
  simp only [List.forall₂_cons, List.Forall₂.nil, string_str, and_self]

theorem PeerView.serialize_conforms_iff (hC : C.Signed) (p : PeerView) :
    Schema.peer (p.serialize C) = true ↔ p.Conforms := by
  have hipv4 : type [.string, .null] (Json.ofOption .str p.ipv4) = true := by
    cases p.ipv4 <;> rfl
  have hdirect : type [.boolean] (.bool p.direct) = true := rfl
  rw [Schema.peer, PeerView.serialize, closed_fields (by decide) rfl]
  simp only [List.forall₂_cons, List.Forall₂.nil, peerID_ofUInt32, string_str, strings_ofVec,
    hipv4, hdirect, pathCost_int32, counter_ofOption, measurement_ofOption hC, and_true, true_and]
  exact ⟨fun h => ⟨h.1, h.2⟩, fun h => ⟨h.1, h.2⟩⟩

theorem InstanceTopology.serialize_conforms_iff (hE : C.Exact) (hC : C.Signed)
    (i : InstanceTopology) : Schema.instance_ (i.serialize C) = true ↔ i.Conforms := by
  have hnode : oneOf [Schema.node, type [.null]] (Json.ofOption NodeView.serialize i.node) =
      true :=
    (nullable_ofOption (by decide) fun n => by simp [NodeView.serialize]).2 fun n _ =>
      n.serialize_conforms
  rw [Schema.instance_, InstanceTopology.serialize, closed_fields (by decide) rfl]
  simp only [List.forall₂_cons, List.Forall₂.nil, uuid_ofUuid hE, timestampMs_ofUInt64, hnode,
    vec_ofVec (PeerView.serialize_conforms_iff hC), vec_ofVec MetricView.serialize_conforms_iff,
    Schema.errors, vec_ofVec TelemetryError.serialize_conforms_iff, and_true, true_and]
  exact ⟨fun h => ⟨h.1, h.2.1, h.2.2.1, h.2.2.2.1, h.2.2.2.2⟩,
    fun h => ⟨h.1, h.2, h.3, h.4, h.5⟩⟩

theorem SessionView.serialize_conforms_iff (hE : C.Exact) (s : SessionView) :
    Schema.session s.serialize = true ↔ s.Conforms := by
  have hdevice : oneOf [Schema.device, type [.null]]
      (Json.ofOption DeviceView.serialize s.device) = true :=
    (nullable_ofOption (by decide) fun d => by simp [DeviceView.serialize]).2 fun d _ =>
      d.serialize_conforms
  rw [Schema.session, SessionView.serialize, closed_fields (by decide) rfl]
  simp only [List.forall₂_cons, List.Forall₂.nil, uuid_ofUuid hE, timestampMs_ofUInt64, string_str,
    nonEmptyString_str, hdevice, vec_ofVec (uuid_ofUuid hE), and_true, true_and]
  exact ⟨fun h => ⟨h.1, h.2.1, h.2.2.1, h.2.2.2.1, h.2.2.2.2⟩,
    fun h => ⟨h.1, h.2, h.3, h.4, h.5⟩⟩

theorem MachineTopology.serialize_conforms_iff (hE : C.Exact) (hC : C.Signed)
    (m : MachineTopology) : Schema.machine (m.serialize C) = true ↔ m.Conforms := by
  rw [Schema.machine, MachineTopology.serialize, closed_fields (by decide) rfl]
  simp only [List.forall₂_cons, List.Forall₂.nil, SessionView.serialize_conforms_iff hE,
    timestampMs_ofUInt64, vec_ofVec (InstanceTopology.serialize_conforms_iff hE hC), Schema.errors,
    vec_ofVec TelemetryError.serialize_conforms_iff, and_true]
  exact ⟨fun h => ⟨h.1, h.2.1, h.2.2.1, h.2.2.2⟩, fun h => ⟨h.1, h.2, h.3, h.4⟩⟩

theorem TopologySnapshot.serialize_conforms_iff (hE : C.Exact) (hC : C.Signed)
    (t : TopologySnapshot) : Schema.topology (t.serialize C) = true ↔ t.Conforms := by
  have hversion : const "nexustier.topology.v1" (.str t.schemaVersion) = true ↔
      t.schemaVersion = NexusTier.schemaVersion := by
    simp [const, NexusTier.schemaVersion]
  rw [Schema.topology, TopologySnapshot.serialize, closed_fields (by decide) rfl]
  simp only [List.forall₂_cons, List.Forall₂.nil, hversion, uuid_ofUuid hE, timestampMs_ofUInt64,
    vec_ofVec (MachineTopology.serialize_conforms_iff hE hC), Schema.errors,
    vec_ofVec TelemetryError.serialize_conforms_iff, and_true]
  exact ⟨fun h => ⟨h.1, h.2.1, h.2.2.1, h.2.2.2.1, h.2.2.2.2.1, h.2.2.2.2.2.1, h.2.2.2.2.2.2⟩,
    fun h => ⟨h.1, h.2, h.3, h.4, h.5, h.6, h.7⟩⟩

/-- **When the gateway keeps the contract.**  A topology is written as a document of the published
schema exactly if its schema version is that of the contract, no id in it is nil, its times are in
range, its errors have codes of the contract and name an operation, sessions have a remote address,
measurements that are numbers are not negative, and metrics have a name, at most 128 labels and no
key of a label that is longer than 256 characters.  That each object has the members of the schema,
with values of their types, the encoder sees to. -/
theorem TopologySnapshot.conforms_iff (hE : C.Exact) (hC : C.Signed)
    (t : TopologySnapshot) : Schema.topology (t.serialize C) = true ↔ t.Conforms :=
  t.serialize_conforms_iff hE hC

/-- An extreme topology, with the last time that there is. -/
def lastTopology (remoteURL : String) : TopologySnapshot :=
  { extremeTopology eighth with
    completedAtMS := maxTimestampMS
    collectedAtMS := maxTimestampMS
    machines :=
      [{ session := ⟨0xa1, remoteURL, "", "", "", 0, maxTimestampMS, [0xb1], none⟩
         observedAtMS := 0
         instances := [⟨0xb1, 0, none, [extremePeer eighth], [], []⟩]
         errors := [⟨"rpc_error", "list_network_instance", ""⟩] }] }

theorem TopologySnapshot.conforms_iff_last :
    Schema.topology ((lastTopology "tcp://192.0.2.1:5000").serialize plainCodec) = true ∧
      Schema.topology ((lastTopology "").serialize plainCodec) = false := by
  have hsigned : plainCodec.Signed := fun _ _ => Iff.rfl
  constructor
  · refine (TopologySnapshot.conforms_iff plainCodec_exact hsigned _).2
      ⟨rfl, by decide, by decide, by decide, by decide, ?_, by simp [lastTopology, extremeTopology]⟩
    refine List.forall_mem_singleton.2 ⟨⟨by decide, by decide, by decide, UInt64.le_refl _,
      by simp [Uuid.nil]⟩, by decide, ?_, ?_⟩
    · refine List.forall_mem_singleton.2 ⟨by decide, by decide, ?_, by simp, by simp⟩
      refine List.forall_mem_singleton.2 ⟨by simp [extremePeer, F64.value?], ?_⟩
      simp [extremePeer, F64.value?, eighth]
    · exact List.forall_mem_singleton.2 ⟨by decide, by decide⟩
  · rw [Bool.eq_false_iff, ne_eq, TopologySnapshot.conforms_iff plainCodec_exact hsigned]
    exact fun h => (h.machines _ List.mem_cons_self).session.remoteURL rfl

end Telemetry

end NexusTier
