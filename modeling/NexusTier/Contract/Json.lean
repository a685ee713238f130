import NexusTier.Contract.Snapshot

/-!
# The JSON text of a snapshot

`json.Marshal` on the types of `gatewayclient/types.go`, as a tree (`Snapshot.toJson`, after the
struct tags) and its text (`Json.render`, compact, HTML characters escaped).  It is what the
controller hashes and stores as `raw_payload`.

Nothing about ingestion depends on the text, so the theorems take any encoder; this one is what
the concrete runs in this development use.

## What is here

* `Json`: documents, whose numbers keep how they are written.
* `Json.render`: the text of a document, and `Json.textSize`, its length in bytes without writing it
  (`Json.textSize_eq`).
* `Snapshot.toJson` and the trees of its parts; `Snapshot.payload` and `labelsPayload` are their
  texts.

## What is left out

The shortest decimal that reads back as a float: floats that are not integers come with a function
that writes them.
-/

set_option autoImplicit false

namespace NexusTier

/-- A JSON document. -/
inductive Json where
  | null
  | bool (b : Bool)
  /-- A number that is written without a fraction and without an exponent. -/
  | int (n : Int)
  /-- A number that is written with one of them; its value may be an integer all the same. -/
  | dec (q : ℚ)
  | str (s : String)
  | arr (l : List Json)
  | obj (fields : List (String × Json))

namespace Json

/-- `\u` and four hexadecimal digits. -/
def unicodeEscape (c : Char) : String :=
  let digits := Nat.toDigits 16 c.toNat
  "\\u" ++ String.ofList (List.replicate (4 - digits.length) '0' ++ digits)

/-- One character inside a JSON string, as Go's encoder writes it. -/
def escape (c : Char) : String :=
  if c = '"' then "\\\""
  else if c = '\\' then "\\\\"
  else if c.toNat = 8 then "\\b"
  else if c.toNat = 9 then "\\t"
  else if c.toNat = 10 then "\\n"
  else if c.toNat = 12 then "\\f"
  else if c.toNat = 13 then "\\r"
  else if c.toNat < 32 ∨ c = '<' ∨ c = '>' ∨ c = '&' ∨ c.toNat = 0x2028 ∨ c.toNat = 0x2029 then
    unicodeEscape c
  else String.ofList [c]

def quote (s : String) : String := "\"" ++ "".intercalate (s.toList.map escape) ++ "\""

mutual

/-- The text of a document; `formatFloat` writes the numbers that have a fraction or an exponent. -/
def render (formatFloat : ℚ → String) : Json → String
  | null => "null"
  | bool b => if b then "true" else "false"
  | int n => toString n
  | dec q => formatFloat q
  | str s => quote s
  | arr l => "[" ++ ",".intercalate (renderElems formatFloat l) ++ "]"
  | obj fields => "\x7b" ++ ",".intercalate (renderFields formatFloat fields) ++ "\x7d"

def renderElems (formatFloat : ℚ → String) : List Json → List String
  | [] => []
  | j :: rest => render formatFloat j :: renderElems formatFloat rest

def renderFields (formatFloat : ℚ → String) : List (String × Json) → List String
  | [] => []
  | (name, j) :: rest =>
    (quote name ++ ":" ++ render formatFloat j) :: renderFields formatFloat rest

end

/-! ## How long a text is -/

/-- The length of texts with gaps in between. -/
def joinedSize (gap : ℕ) : List ℕ → ℕ
  | [] => 0
  | [size] => size
  | size :: next :: sizes => size + gap + joinedSize gap (next :: sizes)

def quoteSize (s : String) : ℕ := joinedSize 0 (s.toList.map fun c => (escape c).utf8ByteSize) + 2

mutual

/-- The bytes of `render`, counted without writing it. -/
def textSize (formatFloat : ℚ → String) : Json → ℕ
  | null => 4
  | bool b => if b then 4 else 5
  | int n => (toString n).utf8ByteSize
  | dec q => (formatFloat q).utf8ByteSize
  | str s => quoteSize s
  | arr l => joinedSize 1 (elemSizes formatFloat l) + 2
  | obj fields => joinedSize 1 (fieldSizes formatFloat fields) + 2

def elemSizes (formatFloat : ℚ → String) : List Json → List ℕ
  | [] => []
  | j :: rest => textSize formatFloat j :: elemSizes formatFloat rest

def fieldSizes (formatFloat : ℚ → String) : List (String × Json) → List ℕ
  | [] => []
  | (name, j) :: rest =>
    (quoteSize name + 1 + textSize formatFloat j) :: fieldSizes formatFloat rest

end

theorem utf8ByteSize_intercalate (gap : String) (l : List String) :
    (gap.intercalate l).utf8ByteSize =
      joinedSize gap.utf8ByteSize (l.map String.utf8ByteSize) := by
  induction l with
  | nil => simp [joinedSize]
  | cons s l ih =>
    cases l with
    | nil => simp [joinedSize]
    | cons next l =>
      rw [String.intercalate_cons_cons, String.utf8ByteSize_append, String.utf8ByteSize_append, ih]
      rfl

/-- What stands between two brackets or quotes. -/
theorem utf8ByteSize_between {first last text : String} (hfirst : first.utf8ByteSize = 1)
    (hlast : last.utf8ByteSize = 1) : (first ++ text ++ last).utf8ByteSize =
      text.utf8ByteSize + 2 := by
  rw [String.utf8ByteSize_append, String.utf8ByteSize_append, hfirst, hlast]
  omega

theorem utf8ByteSize_quote (s : String) : (quote s).utf8ByteSize = quoteSize s := by
  rw [quote, quoteSize, utf8ByteSize_between rfl rfl, utf8ByteSize_intercalate, List.map_map]
  rfl

mutual

theorem textSize_eq (formatFloat : ℚ → String) (j : Json) :
    textSize formatFloat j = (render formatFloat j).utf8ByteSize := by
  cases j with
  | null => rfl
  | bool b => cases b <;> rfl
  | int n => rfl
  | dec q => rfl
  | str s => rw [textSize, render, utf8ByteSize_quote]
  | arr l =>
    rw [textSize, render, utf8ByteSize_between rfl rfl, utf8ByteSize_intercalate, elemSizes_eq]
    rfl
  | obj fields =>
    rw [textSize, render, utf8ByteSize_between rfl rfl, utf8ByteSize_intercalate, fieldSizes_eq]
    rfl

theorem elemSizes_eq (formatFloat : ℚ → String) (l : List Json) :
    elemSizes formatFloat l = (renderElems formatFloat l).map String.utf8ByteSize := by
  cases l with
  | nil => rfl
  | cons j rest => rw [elemSizes, renderElems, List.map_cons, textSize_eq, elemSizes_eq]

theorem fieldSizes_eq (formatFloat : ℚ → String) (fields : List (String × Json)) :
    fieldSizes formatFloat fields =
      (renderFields formatFloat fields).map String.utf8ByteSize := by
  cases fields with
  | nil => rfl
  | cons field rest =>
    obtain ⟨name, j⟩ := field
    rw [fieldSizes, renderFields, List.map_cons, textSize_eq, fieldSizes_eq,
      String.utf8ByteSize_append, String.utf8ByteSize_append, utf8ByteSize_quote]
    rfl

end

/-! ## Values -/

/-- `null` for a nil pointer. -/
def ofOption {α : Type} (f : α → Json) : Option α → Json
  | none => null
  | some a => f a

/-- `null` for a nil slice. -/
def ofSlice {α : Type} (f : α → Json) (l : Slice α) : Json := ofOption (fun l => arr (l.map f)) l

def ofUInt64 (n : UInt64) : Json := int n.toNat

def ofUInt32 (n : UInt32) : Json := int n.toNat

/-- A `float64`: Go writes one that is an integer without a fraction.  (From 10^21 on it would write
an exponent.) -/
def ofFloat (q : ℚ) : Json := if q.den = 1 then int q.num else dec q

/-- The canonical text of a UUID: 8-4-4-4-12 hexadecimal digits. -/
def ofUuid (id : Uuid) : Json :=
  let digits := Nat.toDigits 16 id.val
  let padded := List.replicate (32 - digits.length) '0' ++ digits
  let part (start length : Nat) : String := String.ofList ((padded.drop start).take length)
  str ("-".intercalate [part 0 8, part 8 4, part 12 4, part 16 4, part 20 12])

/-- A `map[string]string`; its keys are written in ascending order. -/
def ofLabels (labels : Option Labels) : Json :=
  ofOption (fun labels => obj (labels.entries.map fun e => (e.1, str e.2))) labels

end Json

open Json

def TelemetryError.toJson (e : TelemetryError) : Json :=
  obj [("code", str e.code), ("operation", str e.operation), ("message", str e.message)]

def Metric.toJson (m : Metric) : Json :=
  obj [("name", str m.name), ("value", ofUInt64 m.value), ("labels", ofLabels m.labels)]

def Peer.toJson (p : Peer) : Json :=
  obj
    [("peer_id", ofUInt32 p.peerID),
     ("ipv4", ofOption str p.ipv4),
     ("hostname", str p.hostname),
     ("next_hop_peer_id", ofUInt32 p.nextHopPeerID),
     ("direct", .bool p.direct),
     ("path_cost", int p.pathCost.toInt),
     ("latency_ms", ofOption ofFloat p.latencyMS),
     ("loss_rate", ofOption ofFloat p.lossRate),
     ("rx_bytes", ofOption ofUInt64 p.rxBytes),
     ("tx_bytes", ofOption ofUInt64 p.txBytes),
     ("tunnel_protocols", ofSlice str p.tunnelProtocols),
     ("version", str p.version)]

def Node.toJson (n : Node) : Json :=
  obj
    [("peer_id", ofUInt32 n.peerID),
     ("ipv4", str n.ipv4),
     ("hostname", str n.hostname),
     ("proxy_cidrs", ofSlice str n.proxyCIDRs),
     ("listeners", ofSlice str n.listeners),
     ("version", str n.version)]

def Instance.toJson (i : Instance) : Json :=
  obj
    [("instance_id", ofUuid i.instanceID),
     ("observed_at_ms", ofUInt64 i.observedAtMS),
     ("node", ofOption Node.toJson i.node),
     ("peers", ofSlice Peer.toJson i.peers),
     ("metrics", ofSlice Metric.toJson i.metrics),
     ("errors", ofSlice TelemetryError.toJson i.errors)]

def Device.toJson (d : Device) : Json :=
  obj
    [("os_type", str d.osType), ("os_version", str d.osVersion),
     ("distribution", str d.distribution)]

def Session.toJson (s : Session) : Json :=
  obj
    [("machine_id", ofUuid s.machineID),
     ("remote_url", str s.remoteURL),
     ("hostname", str s.hostname),
     ("easytier_version", str s.easyTierVersion),
     ("report_time", str s.reportTime),
     ("connected_at_ms", ofUInt64 s.connectedAtMS),
     ("last_heartbeat_at_ms", ofUInt64 s.lastHeartbeatAtMS),
     ("running_instance_ids", ofSlice ofUuid s.runningInstanceIDs),
     ("device", ofOption Device.toJson s.device)]

def Machine.toJson (m : Machine) : Json :=
  obj
    [("session", m.session.toJson),
     ("observed_at_ms", ofUInt64 m.observedAtMS),
     ("instances", ofSlice Instance.toJson m.instances),
     ("errors", ofSlice TelemetryError.toJson m.errors)]

def Snapshot.toJson (s : Snapshot) : Json :=
  obj
    [("schema_version", str s.schemaVersion),
     ("collection_id", ofUuid s.collectionID),
     ("started_at_ms", ofUInt64 s.startedAtMS),
     ("completed_at_ms", ofUInt64 s.completedAtMS),
     ("collected_at_ms", ofUInt64 s.collectedAtMS),
     ("machines", ofSlice Machine.toJson s.machines),
     ("errors", ofSlice TelemetryError.toJson s.errors)]

/-- The text of a number; where it is not an integer this is not the shortest decimal that Go
writes. -/
def formatNumber (q : ℚ) : String := toString q

/-- `json.Marshal(snapshot)`. -/
def Snapshot.payload (s : Snapshot) : String := s.toJson.render formatNumber

/-- `json.Marshal(metric.Labels)`. -/
def labelsPayload (labels : Option Labels) : String := (ofLabels labels).render formatNumber

end NexusTier
