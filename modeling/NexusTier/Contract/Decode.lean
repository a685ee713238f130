import NexusTier.Contract.Json

/-!
# Decoding a snapshot

`FetchTopology` of `gatewayclient/client.go`, from the status of the response on: `encoding/json`
with `DisallowUnknownFields` on the types of `gatewayclient/types.go`, then `Validate`.

A decoder stores into a variable that holds a value already (`Decoder.into`), and so it is with
the rules that follow from this.

* A member that is missing leaves its field at the zero value.
* `null` makes a pointer, slice or map nil, and leaves anything else as it is.
* A member that comes twice is decoded twice, the second time over the first.
* The elements of an array are decoded over those of the array that has come before it, where the
  array behind the slice still has them: also those beyond the end of the slice (`slice`).
* A name that no field has exactly may still be one up to case (`foldName`).

What the array behind a slice holds is not part of the slice's value.  So a decoder is also given
what has been decoded into the variable before, which says it (`backing`).

## What is here

* `Decoder` and its instances for the basic types, pointers, slices, structs and maps.
* `Snapshot.decoder` and the decoders of its parts, field by field after the struct tags.
* `fetchTopology`, on documents; `Contract/Body.lean` has it on bytes, with the limit on the size of
  the body.

## What is left out

Of several errors in a document the first is returned, as `encoding/json` does but for an error of
`UnmarshalText`, which it returns at once.  Minus zero is zero.  Two conversions are not the
repository's own and are parameters (`Codec`), and so is the length of a text, which matters to
`fetchAnswer` only.
-/

set_option autoImplicit false

namespace NexusTier

/-- What comes with the libraries of the two languages. -/
structure Codec where
  /-- `uuid.Parse`. -/
  parseUuid : String → Option Uuid
  /-- The number that `serde_json` writes for a finite float. -/
  formatFloat : ℚ → ℚ
  /-- `strconv.ParseFloat`, on the value of a number. -/
  parseFloat : ℚ → Option ℚ
  /-- How many bytes `serde_json` writes for a document. -/
  size : Json → Nat

/-- Why `Decode` fails. -/
inductive DecodeError where
  | unknownField (name : String)
  | wrongType (type : String)
  | outOfRange (type : String)
  | invalidUuid (text : String)
deriving DecidableEq

/-- How `encoding/json` decodes into a type. -/
structure Decoder (α : Type) where
  /-- The zero value. -/
  zero : α
  /-- Decode into a variable that holds a value, which it has after these documents have been
  decoded into it. -/
  into : List Json → α → Json → Except DecodeError α

namespace Decoder

section

variable {α : Type}

/-- Decode into a new variable. -/
def decode (d : Decoder α) (j : Json) : Except DecodeError α := d.into [] d.zero j

/-- Decode one document after the other. -/
def runFrom (d : Decoder α) (past : List Json) (old : α) : List Json → Except DecodeError α
  | [] => .ok old
  | j :: rest => do
    let new ← d.into past old j
    d.runFrom (past ++ [j]) new rest

/-- Decode one document after the other into a new variable. -/
def run (d : Decoder α) (documents : List Json) : Except DecodeError α :=
  d.runFrom [] d.zero documents

end

/-! ## Basic types -/

def string : Decoder String where
  zero := ""
  into _ old
    | .null => .ok old
    | .str s => .ok s
    | _ => .error (.wrongType "string")

def bool : Decoder Bool where
  zero := false
  into _ old
    | .null => .ok old
    | .bool b => .ok b
    | _ => .error (.wrongType "bool")

/-- A type of integers, those from `lo` on and below `hi`.  A fraction or an exponent is refused,
whatever the value. -/
def integer {α : Type} (type : String) (zero : α) (lo hi : Int) (ofInt : Int → α) : Decoder α where
  zero
  into _ old
    | .null => .ok old
    | .int n => if lo ≤ n ∧ n < hi then .ok (ofInt n) else .error (.outOfRange type)
    | .dec _ => .error (.outOfRange type)
    | _ => .error (.wrongType type)

def uint64 : Decoder UInt64 := integer "uint64" 0 0 (2 ^ 64) fun n => UInt64.ofNat n.toNat

def uint32 : Decoder UInt32 := integer "uint32" 0 0 (2 ^ 32) fun n => UInt32.ofNat n.toNat

def int32 : Decoder Int32 := integer "int32" 0 (-2 ^ 31) (2 ^ 31) Int32.ofInt

/-- The value of a number. -/
def numberOf : Json → Option ℚ
  | .int n => some n
  | .dec q => some q
  | _ => none

def float64 (C : Codec) : Decoder ℚ where
  zero := 0
  into _ old j :=
    match j, numberOf j with
    | .null, _ => .ok old
    | _, some q =>
      match C.parseFloat q with
      | some x => .ok x
      | none => .error (.outOfRange "float64")
    | _, none => .error (.wrongType "float64")

/-- A `uuid.UUID`, through its `UnmarshalText`. -/
def uuid (C : Codec) : Decoder Uuid where
  zero := Uuid.nil
  into _ old
    | .null => .ok old
    | .str s =>
      match C.parseUuid s with
      | some id => .ok id
      | none => .error (.invalidUuid s)
    | _ => .error (.wrongType "uuid.UUID")

/-! ## Composite types -/

section

variable {α β : Type}

/-- What has been decoded into what a pointer points to: what has come after the last `null`. -/
def pointee (past : List Json) : List Json :=
  past.foldl (fun documents j =>
    match j with
    | .null => []
    | j => documents ++ [j]) []

/-- A pointer; what it points to is decoded into. -/
def pointer (d : Decoder α) : Decoder (Option α) where
  zero := none
  into past old
    | .null => .ok none
    | j => (d.into (pointee past) (old.getD d.zero) j).map some

/-- The elements of an array go over those that are there; what lies behind them stays. -/
def overlay : List Json → List (List Json) → List (List Json)
  | [], array => array
  | j :: l, [] => [j] :: overlay l []
  | j :: l, documents :: array => (documents ++ [j]) :: overlay l array

/-- What has been decoded into each element of the array behind a slice.  `null` and the empty array
leave none. -/
def backing (past : List Json) : List (List Json) :=
  past.foldl (fun array j =>
    match j with
    | .null => []
    | .arr [] => []
    | .arr l => overlay l array
    | _ => array) []

/-- A slice.  It is as long as the array, and its elements are decoded over what is there. -/
def slice (d : Decoder α) : Decoder (Slice α) where
  zero := none
  into past _
    | .null => .ok none
    | .arr l => (((overlay l (backing past)).take l.length).mapM d.run).map some
    | _ => .error (.wrongType "slice")

/-- A field of a struct, under the name that its tag gives it. -/
structure Field (α : Type) where
  name : String
  into : List Json → α → Json → Except DecodeError α

def field (name : String) (get : α → β) (set : α → β → α) (d : Decoder β) : Field α :=
  ⟨name, fun past a j => (d.into past (get a) j).map (set a)⟩

/-- The smallest rune that is the same up to case, for the runes that are the same up to case as an
ASCII letter: the long s and the Kelvin sign are among them. -/
def foldRune (c : Char) : Char :=
  if 'a' ≤ c ∧ c ≤ 'z' then Char.ofNat (c.toNat - 32)
  else if c.toNat = 0x17f then 'S'
  else if c.toNat = 0x212a then 'K'
  else c

def foldName (name : String) : List Char := name.toList.map foldRune

/-- The field that a member is for. -/
def findField (fields : List (Field α)) (name : String) : Option (Field α) :=
  (fields.find? fun f => f.name == name).or
    (fields.find? fun f => foldName f.name == foldName name)

/-- The members of an object. -/
def membersOf : Json → List (String × Json)
  | .obj l => l
  | _ => []

/-- The values of the members that are for the field `name`; no struct of the contract has two
fields with one name up to case. -/
def valuesOf (name : String) (l : List (String × Json)) : List Json :=
  (l.filter fun e => foldName e.1 = foldName name).map Prod.snd

/-- The members of an object, in the order of the document, after others that have been decoded into
the variable. -/
def members (fields : List (Field α)) :
    List (String × Json) → α → List (String × Json) → Except DecodeError α
  | _, a, [] => .ok a
  | seen, a, (name, value) :: rest =>
    match findField fields name with
    | none => .error (.unknownField name)
    | some f => do
      let a ← f.into (valuesOf f.name seen) a value
      members fields (seen ++ [(name, value)]) a rest

def struct (zero : α) (fields : List (Field α)) : Decoder α where
  zero
  into past old
    | .null => .ok old
    | .obj l => members fields (past.flatMap membersOf) old l
    | _ => .error (.wrongType "struct")

end

end Decoder

/-! ## Maps -/

namespace Labels

/-- Entries in key order, with one set. -/
def insertEntry (key value : String) : List (String × String) → List (String × String)
  | [] => [(key, value)]
  | e :: rest =>
    if key < e.1 then (key, value) :: e :: rest
    else if key = e.1 then (key, value) :: rest
    else e :: insertEntry key value rest

theorem mem_insertEntry {key value : String} {l : List (String × String)} {e : String × String}
    (h : e ∈ insertEntry key value l) : e = (key, value) ∨ e ∈ l := by
  induction l with
  | nil => simpa [insertEntry] using h
  | cons a l ih =>
    rw [insertEntry] at h
    split_ifs at h
    · simpa using h
    · rcases List.mem_cons.1 h with h | h
      · exact .inl h
      · exact .inr (List.mem_cons_of_mem a h)
    · rcases List.mem_cons.1 h with h | h
      · exact .inr (h ▸ List.mem_cons_self)
      · exact (ih h).imp_right (List.mem_cons_of_mem a)

theorem sorted_insertEntry {key value : String} {l : List (String × String)}
    (h : l.Pairwise fun a b => a.1 < b.1) :
    (insertEntry key value l).Pairwise fun a b => a.1 < b.1 := by
  induction l with
  | nil => simp [insertEntry]
  | cons e l ih =>
    rw [List.pairwise_cons] at h
    rw [insertEntry]
    split_ifs with hlt heq
    · refine List.pairwise_cons.2 ⟨fun b hb => ?_, List.pairwise_cons.2 h⟩
      rcases List.mem_cons.1 hb with rfl | hb
      · exact hlt
      · exact hlt.trans (h.1 b hb)
    · exact List.pairwise_cons.2 ⟨fun b hb => by rw [heq]; exact h.1 b hb, h.2⟩
    · refine List.pairwise_cons.2 ⟨fun b hb => ?_, ih h.2⟩
      rcases mem_insertEntry hb with rfl | hb
      · exact lt_of_le_of_ne (not_lt.1 hlt) fun h => heq h.symm
      · exact h.1 b hb

/-- `labels[key] = value`. -/
def insert (key value : String) (labels : Labels) : Labels :=
  ⟨insertEntry key value labels.entries, sorted_insertEntry labels.sorted⟩

/-- A map without entries. -/
def empty : Labels := ⟨[], .nil⟩

/-- The members of an object go into the map. -/
def decodeEntries : Labels → List (String × Json) → Except DecodeError Labels
  | labels, [] => .ok labels
  | labels, (key, value) :: rest => do
    let value ← Decoder.string.decode value
    decodeEntries (labels.insert key value) rest

/-- A `map[string]string`, which keeps the entries it has. -/
def decoder : Decoder (Option Labels) where
  zero := none
  into _ old
    | .null => .ok none
    | .obj l => (decodeEntries (old.getD empty) l).map some
    | _ => .error (.wrongType "map[string]string")

end Labels

/-! ## The types of the contract -/

open Decoder

def TelemetryError.decoder : Decoder TelemetryError :=
  .struct ⟨"", "", ""⟩
    [field "code" (·.code) (fun e v => { e with code := v }) string,
     field "operation" (·.operation) (fun e v => { e with operation := v }) string,
     field "message" (·.message) (fun e v => { e with message := v }) string]

def Metric.decoder : Decoder Metric :=
  .struct ⟨"", 0, none⟩
    [field "name" (·.name) (fun m v => { m with name := v }) string,
     field "value" (·.value) (fun m v => { m with value := v }) uint64,
     field "labels" (·.labels) (fun m v => { m with labels := v }) Labels.decoder]

section

variable (C : Codec)

def Peer.decoder : Decoder Peer :=
  .struct ⟨0, none, "", 0, false, 0, none, none, none, none, none, ""⟩
    [field "peer_id" (·.peerID) (fun p v => { p with peerID := v }) uint32,
     field "ipv4" (·.ipv4) (fun p v => { p with ipv4 := v }) (pointer string),
     field "hostname" (·.hostname) (fun p v => { p with hostname := v }) string,
     field "next_hop_peer_id" (·.nextHopPeerID) (fun p v => { p with nextHopPeerID := v }) uint32,
     field "direct" (·.direct) (fun p v => { p with direct := v }) bool,
     field "path_cost" (·.pathCost) (fun p v => { p with pathCost := v }) int32,
     field "latency_ms" (·.latencyMS) (fun p v => { p with latencyMS := v }) (pointer (float64 C)),
     field "loss_rate" (·.lossRate) (fun p v => { p with lossRate := v }) (pointer (float64 C)),
     field "rx_bytes" (·.rxBytes) (fun p v => { p with rxBytes := v }) (pointer uint64),
     field "tx_bytes" (·.txBytes) (fun p v => { p with txBytes := v }) (pointer uint64),
     field "tunnel_protocols" (·.tunnelProtocols) (fun p v => { p with tunnelProtocols := v })
       (slice string),
     field "version" (·.version) (fun p v => { p with version := v }) string]

def Node.decoder : Decoder Node :=
  .struct ⟨0, "", "", none, none, ""⟩
    [field "peer_id" (·.peerID) (fun n v => { n with peerID := v }) uint32,
     field "ipv4" (·.ipv4) (fun n v => { n with ipv4 := v }) string,
     field "hostname" (·.hostname) (fun n v => { n with hostname := v }) string,
     field "proxy_cidrs" (·.proxyCIDRs) (fun n v => { n with proxyCIDRs := v }) (slice string),
     field "listeners" (·.listeners) (fun n v => { n with listeners := v }) (slice string),
     field "version" (·.version) (fun n v => { n with version := v }) string]

def Instance.decoder : Decoder Instance :=
  .struct ⟨Uuid.nil, 0, none, none, none, none⟩
    [field "instance_id" (·.instanceID) (fun i v => { i with instanceID := v }) (uuid C),
     field "observed_at_ms" (·.observedAtMS) (fun i v => { i with observedAtMS := v }) uint64,
     field "node" (·.node) (fun i v => { i with node := v }) (pointer Node.decoder),
     field "peers" (·.peers) (fun i v => { i with peers := v }) (slice (Peer.decoder C)),
     field "metrics" (·.metrics) (fun i v => { i with metrics := v }) (slice Metric.decoder),
     field "errors" (·.errors) (fun i v => { i with errors := v }) (slice TelemetryError.decoder)]

def Device.decoder : Decoder Device :=
  .struct ⟨"", "", ""⟩
    [field "os_type" (·.osType) (fun d v => { d with osType := v }) string,
     field "os_version" (·.osVersion) (fun d v => { d with osVersion := v }) string,
     field "distribution" (·.distribution) (fun d v => { d with distribution := v }) string]

def Session.decoder : Decoder Session :=
  .struct ⟨Uuid.nil, "", "", "", "", 0, 0, none, none⟩
    [field "machine_id" (·.machineID) (fun s v => { s with machineID := v }) (uuid C),
     field "remote_url" (·.remoteURL) (fun s v => { s with remoteURL := v }) string,
     field "hostname" (·.hostname) (fun s v => { s with hostname := v }) string,
     field "easytier_version" (·.easyTierVersion) (fun s v => { s with easyTierVersion := v })
       string,
     field "report_time" (·.reportTime) (fun s v => { s with reportTime := v }) string,
     field "connected_at_ms" (·.connectedAtMS) (fun s v => { s with connectedAtMS := v }) uint64,
     field "last_heartbeat_at_ms" (·.lastHeartbeatAtMS) (fun s v => { s with lastHeartbeatAtMS := v })
       uint64,
     field "running_instance_ids" (·.runningInstanceIDs)
       (fun s v => { s with runningInstanceIDs := v }) (slice (uuid C)),
     field "device" (·.device) (fun s v => { s with device := v }) (pointer Device.decoder)]

def Machine.decoder : Decoder Machine :=
  .struct ⟨(Session.decoder C).zero, 0, none, none⟩
    [field "session" (·.session) (fun m v => { m with session := v }) (Session.decoder C),
     field "observed_at_ms" (·.observedAtMS) (fun m v => { m with observedAtMS := v }) uint64,
     field "instances" (·.instances) (fun m v => { m with instances := v })
       (slice (Instance.decoder C)),
     field "errors" (·.errors) (fun m v => { m with errors := v }) (slice TelemetryError.decoder)]

def Snapshot.decoder : Decoder Snapshot :=
  .struct ⟨"", Uuid.nil, 0, 0, 0, none, none⟩
    [field "schema_version" (·.schemaVersion) (fun s v => { s with schemaVersion := v }) string,
     field "collection_id" (·.collectionID) (fun s v => { s with collectionID := v }) (uuid C),
     field "started_at_ms" (·.startedAtMS) (fun s v => { s with startedAtMS := v }) uint64,
     field "completed_at_ms" (·.completedAtMS) (fun s v => { s with completedAtMS := v }) uint64,
     field "collected_at_ms" (·.collectedAtMS) (fun s v => { s with collectedAtMS := v }) uint64,
     field "machines" (·.machines) (fun s v => { s with machines := v })
       (slice (Machine.decoder C)),
     field "errors" (·.errors) (fun s v => { s with errors := v }) (slice TelemetryError.decoder)]

/-! ## `FetchTopology` -/

/-- Why `FetchTopology` fails. -/
inductive FetchError where
  | status (code : Nat)
  | emptyBody
  | decode (error : DecodeError)
  | trailingValue
  | invalid (error : ValidationError)
deriving DecidableEq

/-- The response of the gateway, its body as the documents that stand in it. -/
structure TopologyResponse where
  statusCode : Nat
  body : List Json

/-- `FetchTopology`, on the documents of the response: without the limit on its length, which
`fetchTopologyBytes` has, and for an answer of the gateway `fetchAnswer`. -/
def fetchTopology (response : TopologyResponse) : Except FetchError Snapshot :=
  if response.statusCode ≠ 200 then .error (.status response.statusCode)
  else
    match response.body with
    | [] => .error .emptyBody
    | document :: trailing => do
      let snapshot ← ((Snapshot.decoder C).decode document).mapError .decode
      if trailing ≠ [] then throw .trailingValue
      snapshot.validate.mapError .invalid
      return snapshot

end

end NexusTier
