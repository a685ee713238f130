import NexusTier.Relational.Stamped
import NexusTier.Contract.Json

/-!
# The tables of the telemetry database

The seven tables of `001_telemetry.sql` and `002_metric_retention.sql`, each a `Relational.Table`
under its primary key.  `machines` and `network_instances` share the columns of a
`Relational.Tracked` row, `nodes` and `peer_links_current` those of a `Relational.Stamped` one:

| column                         | field           |
| ------------------------------ | --------------- |
| `last_observed_at`             | `observedAt`    |
| `last_collection_completed_at` | `completedAt`   |
| `last_collection_id`           | `source`        |
| `active`                       | `active`        |
| `disappeared_at`               | `disappearedAt` |

What is left out is what nothing reads: the `updated_at` columns, and the indexes.

A `timestamptz` is a number of microseconds since the epoch, `numeric(20, 0)` a natural number,
and a `jsonb` value its canonical text.  Four things come from outside the controller's own code
and are the parameters of `Encoding`: `json.Marshal`, SHA-256, PostgreSQL's cast of a JSON
text to `jsonb`, and whether it finds an index entry small enough.
-/

set_option autoImplicit false

namespace NexusTier

open Relational
open Std (TransOrd LawfulEqOrd TransCmp LawfulEqCmp)

/-- A `timestamptz`: microseconds since the epoch. -/
abbrev Timestamp := Int

/-- `time.UnixMilli(int64(value))`.  The conversion to `int64` wraps. -/
def millis (value : UInt64) : Timestamp := 1000 * value.toInt64.toInt

/-- A value the `raw_payload_sha256` check accepts: sixty-four lower-case hexadecimal digits. -/
structure HexDigest where
  /-- The digits. -/
  text : String
  /-- The check `~ '^[0-9a-f]{64}$'`. -/
  shape : text.toList.length = 64 ∧ ∀ c ∈ text.toList, c ∈ "0123456789abcdef".toList
deriving DecidableEq

/-- What the controller takes from outside: the JSON encoder, the hash, the database's cast to
`jsonb`, whose values are compared by their canonical text, and its limit on index entries. -/
structure Encoding where
  /-- `json.Marshal(snapshot)`. -/
  marshal : Snapshot → String
  /-- `json.Marshal(metric.Labels)`. -/
  marshalLabels : Option Labels → String
  /-- `fmt.Sprintf("%x", sha256.Sum256(text))`. -/
  sha256 : String → HexDigest
  /-- `text::jsonb`. -/
  jsonb : String → String
  /-- An entry of `metric_samples_pkey` with this metric name fits into a page of the B-tree.  It
  may have 2704 bytes; all columns but the name have a fixed size, and the database compresses the
  name first, so that the length alone does not decide it. -/
  indexable : String → Bool

def hexDigit (n : Fin 16) : Char := "0123456789abcdef".toList.get (n.cast (by decide))

instance HexDigest.neZero : NeZero (2 ^ 256 : ℕ) := ⟨by decide⟩

/-- The sixty-four digits of a digest read as a big-endian number. -/
def HexDigest.ofFin (n : Fin (2 ^ 256)) : HexDigest where
  text := String.ofList
    (List.ofFn fun i : Fin 64 => hexDigit ⟨n.val / 16 ^ (63 - i.val) % 16, by omega⟩)
  shape := by
    refine ⟨by rw [String.toList_ofList, List.length_ofFn], fun c hc => ?_⟩
    rw [String.toList_ofList, List.mem_ofFn] at hc
    obtain ⟨i, rfl⟩ := hc
    exact List.get_mem _ _

/-- The digest of the empty text. -/
def emptyDigest : HexDigest :=
  .ofFin 0xe3b0c44298fc1c149afbf4c8996fb92427ae41e4649b934ca495991b7852b855

/-- The encoding whose SHA-256 is known on the texts in `digests`.  Its `jsonb` keeps the text,
which is canonical already: the encoder writes equal documents equally.  Names of up to 640
characters fit into an index entry as they are. -/
def Encoding.recorded (digests : List (String × HexDigest)) : Encoding where
  marshal := Snapshot.payload
  marshalLabels := labelsPayload
  sha256 text := (digests.lookup text).getD emptyDigest
  jsonb text := text
  indexable name := decide (name.length ≤ 640)

/-! ## Rows -/

-- by name, for all the tables below
instance : TransOrd Uuid := inferInstance

instance : LawfulEqOrd Uuid := inferInstance

inductive RunStatus where
  | complete
  /-- The status `'partial'`. -/
  | withErrors
deriving DecidableEq

/-- A row of `telemetry_collection_runs`. -/
structure RunRow where
  schemaVersion : String
  startedAt : Timestamp
  completedAt : Timestamp
  collectedAt : Timestamp
  status : RunStatus
  machineCount : Nat
  errorCount : Nat
  rawPayload : String
  rawPayloadSHA256 : Option HexDigest
  payloadPrunedAt : Option Timestamp
  ingestedAt : Timestamp
deriving DecidableEq

/-- The columns of `machines` that a session reports. -/
structure MachineColumns where
  remoteURL : String
  hostname : String
  easyTierVersion : String
  reportTime : String
  connectedAt : Timestamp
  lastHeartbeatAt : Timestamp
  deviceOSType : Option String
  deviceOSVersion : Option String
  deviceDistribution : Option String
deriving DecidableEq

/-- The column of `network_instances` that a collection reports: the machine the instance runs
on. -/
structure InstanceColumns where
  machineID : Uuid
deriving DecidableEq

/-- The columns of `nodes` that an instance reports. -/
structure NodeColumns where
  peerID : Int
  ipv4 : String
  hostname : String
  proxyCIDRs : List String
  listeners : List String
  easyTierVersion : String
deriving DecidableEq

/-- The columns of `peer_links_current` that an instance reports. -/
structure PeerColumns where
  ipv4 : Option String
  hostname : String
  nextHopPeerID : Int
  direct : Bool
  pathCost : Int32
  latencyMS : Option ℚ
  lossRate : Option ℚ
  rxBytes : Option Nat
  txBytes : Option Nat
  tunnelProtocols : List String
  easyTierVersion : String
deriving DecidableEq

abbrev MachineRow := Tracked Timestamp Uuid MachineColumns
abbrev InstanceRow := Tracked Timestamp Uuid InstanceColumns
abbrev NodeRow := Stamped Timestamp Uuid NodeColumns
abbrev PeerRow := Stamped Timestamp Uuid PeerColumns

structure MetricRow where
  labels : String
  value : Nat
  observedAt : Timestamp
deriving DecidableEq

inductive ErrorScope where
  | snapshot
  | machine
  /-- The scope `'instance'`. -/
  | networkInstance
deriving DecidableEq

structure ErrorRow where
  scope : ErrorScope
  machineID : Option Uuid
  instanceID : Option Uuid
  code : String
  operation : String
  message : String
deriving DecidableEq

/-! ## Compound primary keys -/

/-- The primary key of `peer_links_current`. -/
structure LinkKey where
  source : Uuid
  destination : Int
deriving DecidableEq

/-- The primary key of `metric_samples`. -/
structure MetricKey where
  collectionID : Uuid
  instanceID : Uuid
  metricName : String
  labelsHash : String
deriving DecidableEq

/-- The primary key of `telemetry_collection_errors`. -/
structure ErrorKey where
  collectionID : Uuid
  errorIndex : Nat
deriving DecidableEq

instance : Ord LinkKey := ⟨compareColumns LinkKey.source LinkKey.destination⟩

instance : TransOrd LinkKey :=
  inferInstanceAs (TransCmp (compareLex (compareOn LinkKey.source)
    (compareOn LinkKey.destination)))

instance : LawfulEqOrd LinkKey where
  eq_of_compare := by
    rintro ⟨s, d⟩ ⟨s', d'⟩ h
    obtain ⟨rfl, rfl⟩ := compareColumns_eq_iff.1 h
    rfl

instance : Ord ErrorKey := ⟨compareColumns ErrorKey.collectionID ErrorKey.errorIndex⟩

instance : TransOrd ErrorKey :=
  inferInstanceAs (TransCmp (compareLex (compareOn ErrorKey.collectionID)
    (compareOn ErrorKey.errorIndex)))

instance : LawfulEqOrd ErrorKey where
  eq_of_compare := by
    rintro ⟨c, i⟩ ⟨c', i'⟩ h
    obtain ⟨rfl, rfl⟩ := compareColumns_eq_iff.1 h
    rfl

instance : Ord MetricKey :=
  ⟨compareLex (compareColumns MetricKey.collectionID MetricKey.instanceID)
    (compareColumns MetricKey.metricName MetricKey.labelsHash)⟩

instance : TransOrd MetricKey :=
  inferInstanceAs (TransCmp (compareLex
    (compareLex (compareOn MetricKey.collectionID) (compareOn MetricKey.instanceID))
    (compareLex (compareOn MetricKey.metricName) (compareOn MetricKey.labelsHash))))

instance : LawfulEqOrd MetricKey where
  eq_of_compare := by
    rintro ⟨c, i, n, l⟩ ⟨c', i', n', l'⟩ h
    obtain ⟨h1, h2⟩ := Ordering.then_eq_eq.1 h
    obtain ⟨rfl, rfl⟩ := compareColumns_eq_iff.1 h1
    obtain ⟨rfl, rfl⟩ := compareColumns_eq_iff.1 h2
    rfl

/-! ## The database -/

/-- The state of the telemetry database. -/
structure Db where
  /-- `telemetry_collection_runs`. -/
  collectionRuns : Table Uuid RunRow
  /-- `machines`. -/
  machines : Table Uuid MachineRow
  /-- `network_instances`. -/
  networkInstances : Table Uuid InstanceRow
  /-- `nodes`. -/
  nodes : Table Uuid NodeRow
  /-- `peer_links_current`. -/
  peerLinks : Table LinkKey PeerRow
  /-- `metric_samples`. -/
  metricSamples : Table MetricKey MetricRow
  /-- `telemetry_collection_errors`. -/
  collectionErrors : Table ErrorKey ErrorRow
deriving DecidableEq

/-- The database the migrations create. -/
def Db.empty : Db := ⟨∅, ∅, ∅, ∅, ∅, ∅, ∅⟩

/-! ## Times -/

theorem toNat_maxTimestampMS : maxTimestampMS.toNat = 253402300799999 := by decide

/-- In the range `Validate` accepts, the conversion to `int64` does not wrap. -/
theorem millis_eq {value : UInt64} (h : value ≤ maxTimestampMS) :
    millis value = 1000 * (value.toNat : Int) := by
  have hn : value.toNat ≤ 253402300799999 := by
    simpa [toNat_maxTimestampMS] using UInt64.le_iff_toNat_le.1 h
  have hi : value.toInt64.toInt = (value.toNat : Int) := by
    rw [Int64.toInt, UInt64.toBitVec_toInt64, BitVec.toInt_eq_toNat_of_lt]
    · rfl
    · show 2 * value.toNat < _
      omega
  rw [millis, hi]

theorem millis_le_millis_iff {a b : UInt64} (ha : a ≤ maxTimestampMS) (hb : b ≤ maxTimestampMS) :
    millis a ≤ millis b ↔ a ≤ b := by
  rw [millis_eq ha, millis_eq hb, UInt64.le_iff_toNat_le]
  show (1000 * (a.toNat : Int) ≤ 1000 * (b.toNat : Int)) ↔ _
  omega

theorem millis_lt_millis_iff {a b : UInt64} (ha : a ≤ maxTimestampMS) (hb : b ≤ maxTimestampMS) :
    millis a < millis b ↔ a < b := by
  rw [← not_le, millis_le_millis_iff hb ha, UInt64.not_le]

theorem millis_inj {a b : UInt64} (ha : a ≤ maxTimestampMS) (hb : b ≤ maxTimestampMS) :
    millis a = millis b ↔ a = b := by
  rw [le_antisymm_iff, millis_le_millis_iff ha hb, millis_le_millis_iff hb ha]
  exact ⟨fun h => UInt64.le_antisymm h.1 h.2, fun h => h ▸ ⟨UInt64.le_refl a, UInt64.le_refl a⟩⟩

end NexusTier
