import NexusTier.Relational.Table

/-!
# The topology snapshot, as the controller reads it

The types of `gatewayclient/types.go`, and `Snapshot.Validate`: what the controller accepts from
the gateway before it stores anything.

Some of Go's types need a word.

* A UUID is its sixteen bytes read as one big-endian number, so that `<` on it is the bytewise
  comparison of PostgreSQL's `uuid` and of Rust's `Uuid`.
* A slice may be nil.  `Slice.elems` is what a `range` loop over it sees, and a nil slice is not
  an empty one where it is written to a `NOT NULL` array column or encoded as JSON.
* A `*float64` that came out of a JSON document is a finite number, kept as a rational.
* A `map[string]string` is kept as its entries in key order, which is the order `json.Marshal`
  writes them in.

`validate_eq_ok` says what `Validate` accepts, clause by clause, as `Snapshot.Valid`.

## What is here

* `Snapshot` and its parts, with every field that is decoded.
* `Snapshot.validate`, clause by clause in the order of the source, and `ValidationError.text`, its
  errors with their field paths.
* `Snapshot.Valid`: the same as a property.
* `Snapshot.validate_eq_ok`: that the two agree.

## What is left out

Of the characters beyond ASCII all are taken for printable, where Go's `%q` escapes some of them.
-/

set_option autoImplicit false

namespace NexusTier

/-- A UUID, read as a big-endian number. -/
abbrev Uuid := Fin (2 ^ 128)

-- what a numeral needs, by name
instance Uuid.neZero : NeZero (2 ^ 128 : ℕ) := ⟨by decide⟩

/-- `uuid.Nil`. -/
def Uuid.nil : Uuid := 0

/-- A Go slice: `none` is the nil slice. -/
abbrev Slice (α : Type) := Option (List α)

/-- The elements a `range` loop visits. -/
def Slice.elems {α : Type} : Slice α → List α
  | none => []
  | some l => l

@[simp] theorem Slice.elems_some {α : Type} (l : List α) : Slice.elems (some l) = l := rfl

@[simp] theorem Slice.elems_none {α : Type} : Slice.elems (none : Slice α) = [] := rfl

/-- A `map[string]string`, as its entries in ascending key order. -/
structure Labels where
  /-- The entries. -/
  entries : List (String × String)
  /-- No key occurs twice, and the keys ascend. -/
  sorted : entries.Pairwise fun a b => a.1 < b.1
deriving DecidableEq

structure TelemetryError where
  code : String
  operation : String
  message : String
deriving DecidableEq

structure Metric where
  name : String
  value : UInt64
  labels : Option Labels
deriving DecidableEq

structure Peer where
  peerID : UInt32
  ipv4 : Option String
  hostname : String
  nextHopPeerID : UInt32
  direct : Bool
  pathCost : Int32
  latencyMS : Option ℚ
  lossRate : Option ℚ
  rxBytes : Option UInt64
  txBytes : Option UInt64
  tunnelProtocols : Slice String
  version : String
deriving DecidableEq

structure Node where
  peerID : UInt32
  ipv4 : String
  hostname : String
  proxyCIDRs : Slice String
  listeners : Slice String
  version : String
deriving DecidableEq

structure Instance where
  instanceID : Uuid
  observedAtMS : UInt64
  node : Option Node
  peers : Slice Peer
  metrics : Slice Metric
  errors : Slice TelemetryError
deriving DecidableEq

structure Device where
  osType : String
  osVersion : String
  distribution : String
deriving DecidableEq

structure Session where
  machineID : Uuid
  remoteURL : String
  hostname : String
  easyTierVersion : String
  reportTime : String
  connectedAtMS : UInt64
  lastHeartbeatAtMS : UInt64
  runningInstanceIDs : Slice Uuid
  device : Option Device
deriving DecidableEq

structure Machine where
  session : Session
  observedAtMS : UInt64
  instances : Slice Instance
  errors : Slice TelemetryError
deriving DecidableEq

structure Snapshot where
  schemaVersion : String
  collectionID : Uuid
  startedAtMS : UInt64
  completedAtMS : UInt64
  collectedAtMS : UInt64
  machines : Slice Machine
  errors : Slice TelemetryError
deriving DecidableEq

/-- The `SchemaVersion` constant. -/
def schemaVersion : String := "nexustier.topology.v1"

/-- The last millisecond of the year 9999. -/
def maxTimestampMS : UInt64 := 253402300799999

/-! ## `Snapshot.Validate` -/

/-- Why a snapshot is refused. -/
inductive ValidationError where
  | unsupportedSchema (version : String)
  | nilCollectionID
  | startedAfterCompleted
  | collectedNotCompleted
  | timestampRange (field : String)
  | nilMachineID (machineIndex : Nat)
  | machineObservedLate (machineIndex : Nat)
  | nilInstanceID (machineIndex instanceIndex : Nat)
  | instanceObservedLate (machineIndex instanceIndex : Nat)
deriving DecidableEq

/-- A character under the verb `%q` of Go.  Of the characters beyond ASCII all are taken for
printable; Go escapes those that are not. -/
def quoteRune (c : Char) : String :=
  if c = '"' then "\\\""
  else if c = '\\' then "\\\\"
  else if c.toNat = 7 then "\\a"
  else if c.toNat = 8 then "\\b"
  else if c.toNat = 9 then "\\t"
  else if c.toNat = 10 then "\\n"
  else if c.toNat = 11 then "\\v"
  else if c.toNat = 12 then "\\f"
  else if c.toNat = 13 then "\\r"
  else if c.toNat < 32 ∨ c.toNat = 127 then
    "\\x" ++ String.ofList [Nat.digitChar (c.toNat / 16), Nat.digitChar (c.toNat % 16)]
  else String.ofList [c]

/-- The verb `%q`. -/
def quoted (text : String) : String := "\"" ++ "".intercalate (text.toList.map quoteRune) ++ "\""

/-- The text of the error, field path included. -/
def ValidationError.text : ValidationError → String
  | unsupportedSchema version => "unsupported topology schema " ++ quoted version
  | nilCollectionID => "collection_id must not be nil"
  | startedAfterCompleted => "started_at_ms must not exceed completed_at_ms"
  | collectedNotCompleted => "collected_at_ms must equal completed_at_ms"
  | timestampRange field => field ++ " exceeds supported timestamp range"
  | nilMachineID i => s!"machines[{i}].session.machine_id must not be nil"
  | machineObservedLate i => s!"machines[{i}].observed_at_ms exceeds collection completion"
  | nilInstanceID i j => s!"machines[{i}].instances[{j}].instance_id must not be nil"
  | instanceObservedLate i j =>
    s!"machines[{i}].instances[{j}].observed_at_ms exceeds collection completion"

/-- The first failing check decides; a passing one goes on. -/
def check {ε : Type} (ok : Prop) [Decidable ok] (error : ε) : Except ε Unit :=
  if ok then .ok () else .error error

@[simp] theorem check_eq_ok {ε : Type} {ok : Prop} [Decidable ok] {error : ε} {u : Unit} :
    check ok error = .ok u ↔ ok := by
  rw [check]
  split <;> simp_all

/-- A computation that starts with a check succeeds when the check passes and the rest does. -/
@[simp] theorem unit_bind_eq_ok {ε α : Type} {x : Except ε Unit} {rest : Unit → Except ε α}
    {a : α} : (x >>= rest) = .ok a ↔ x = .ok () ∧ rest () = .ok a := by
  cases x with
  | error e => simp [bind, Except.bind]
  | ok u => simp [bind, Except.bind]

def validateTimestamp (field : String) (value : UInt64) : Except ValidationError Unit :=
  check (value ≤ maxTimestampMS) (.timestampRange field)

/-- The inner loop of `Validate`, at instance `j` of machine `i`. -/
def validateInstances (completedAtMS : UInt64) (i : Nat) :
    Nat → List Instance → Except ValidationError Unit
  | _, [] => .ok ()
  | j, inst :: rest => do
    check (inst.instanceID ≠ Uuid.nil) (.nilInstanceID i j)
    check (inst.observedAtMS ≤ completedAtMS) (.instanceObservedLate i j)
    validateInstances completedAtMS i (j + 1) rest

/-- The outer loop of `Validate`, at machine `i`. -/
def validateMachines (completedAtMS : UInt64) :
    Nat → List Machine → Except ValidationError Unit
  | _, [] => .ok ()
  | i, machine :: rest => do
    check (machine.session.machineID ≠ Uuid.nil) (.nilMachineID i)
    check (machine.observedAtMS ≤ completedAtMS) (.machineObservedLate i)
    validateTimestamp s!"machines[{i}].session.connected_at_ms" machine.session.connectedAtMS
    validateTimestamp s!"machines[{i}].session.last_heartbeat_at_ms"
      machine.session.lastHeartbeatAtMS
    validateInstances completedAtMS i 0 machine.instances.elems
    validateMachines completedAtMS (i + 1) rest

/-- `Snapshot.Validate`. -/
def Snapshot.validate (snapshot : Snapshot) : Except ValidationError Unit := do
  check (snapshot.schemaVersion = NexusTier.schemaVersion)
    (.unsupportedSchema snapshot.schemaVersion)
  check (snapshot.collectionID ≠ Uuid.nil) .nilCollectionID
  check (snapshot.startedAtMS ≤ snapshot.completedAtMS) .startedAfterCompleted
  check (snapshot.collectedAtMS = snapshot.completedAtMS) .collectedNotCompleted
  validateTimestamp "started_at_ms" snapshot.startedAtMS
  validateTimestamp "completed_at_ms" snapshot.completedAtMS
  validateMachines snapshot.completedAtMS 0 snapshot.machines.elems

/-! ## What `Validate` accepts -/

/-- The clauses on one instance. -/
structure Instance.Valid (completedAtMS : UInt64) (inst : Instance) : Prop where
  instanceID_ne : inst.instanceID ≠ Uuid.nil
  observed_le : inst.observedAtMS ≤ completedAtMS

/-- The clauses on one machine. -/
structure Machine.Valid (completedAtMS : UInt64) (machine : Machine) : Prop where
  machineID_ne : machine.session.machineID ≠ Uuid.nil
  observed_le : machine.observedAtMS ≤ completedAtMS
  connected_le : machine.session.connectedAtMS ≤ maxTimestampMS
  lastHeartbeat_le : machine.session.lastHeartbeatAtMS ≤ maxTimestampMS
  instances : ∀ inst ∈ machine.instances.elems, inst.Valid completedAtMS

/-- The clauses of `Validate`. -/
structure Snapshot.Valid (snapshot : Snapshot) : Prop where
  schema : snapshot.schemaVersion = NexusTier.schemaVersion
  collectionID_ne : snapshot.collectionID ≠ Uuid.nil
  started_le : snapshot.startedAtMS ≤ snapshot.completedAtMS
  collected_eq : snapshot.collectedAtMS = snapshot.completedAtMS
  completed_le : snapshot.completedAtMS ≤ maxTimestampMS
  machines : ∀ machine ∈ snapshot.machines.elems, machine.Valid snapshot.completedAtMS

theorem validateInstances_eq_ok {c : UInt64} {i : Nat} {insts : List Instance} :
    ∀ {j : Nat}, validateInstances c i j insts = .ok () ↔ ∀ inst ∈ insts, inst.Valid c := by
  induction insts with
  | nil => simp [validateInstances]
  | cons inst rest ih =>
    intro j
    simp only [validateInstances, unit_bind_eq_ok, check_eq_ok, ih, List.forall_mem_cons, ← and_assoc]
    exact and_congr_left' ⟨fun h => ⟨h.1, h.2⟩, fun h => ⟨h.1, h.2⟩⟩

theorem validateTimestamp_eq_ok {field : String} {value : UInt64} :
    validateTimestamp field value = .ok () ↔ value ≤ maxTimestampMS :=
  check_eq_ok

theorem validateMachines_eq_ok {c : UInt64} {machines : List Machine} :
    ∀ {i : Nat}, validateMachines c i machines = .ok () ↔ ∀ m ∈ machines, m.Valid c := by
  induction machines with
  | nil => simp [validateMachines]
  | cons machine rest ih =>
    intro i
    simp only [validateMachines, unit_bind_eq_ok, check_eq_ok, validateTimestamp_eq_ok,
      validateInstances_eq_ok, ih, List.forall_mem_cons, ← and_assoc]
    refine and_congr_left' ⟨fun h => ?_, fun h => ?_⟩
    · exact ⟨h.1.1.1.1, h.1.1.1.2, h.1.1.2, h.1.2, h.2⟩
    · exact ⟨⟨⟨⟨h.1, h.2⟩, h.3⟩, h.4⟩, h.5⟩

/-- **What `Validate` accepts.**  The bound on `started_at_ms` is implied by the one on
`completed_at_ms`, so `Snapshot.Valid` does not repeat it. -/
theorem Snapshot.validate_eq_ok {snapshot : Snapshot} :
    snapshot.validate = .ok () ↔ snapshot.Valid := by
  simp only [Snapshot.validate, unit_bind_eq_ok, check_eq_ok, validateTimestamp_eq_ok,
    validateMachines_eq_ok]
  constructor
  · rintro ⟨h1, h2, h3, h4, _, h6, h7⟩
    exact ⟨h1, h2, h3, h4, h6, h7⟩
  · intro h
    exact ⟨h.1, h.2, h.3, h.4, UInt64.le_trans h.3 h.5, h.5, h.6⟩

end NexusTier
