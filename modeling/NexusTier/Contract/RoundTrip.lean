import NexusTier.Contract.Serialize
import NexusTier.Encoding.Text

/-!
# The two sides of the contract agree

What the gateway writes, the controller reads: `decode_serialize` for every type of the contract,
from the leaves up.  A field is decoded into a variable that still holds its zero value, because no
object that `serde_json` writes has a name twice, and the name finds its field exactly.  For the
same reason nothing is decoded over the elements of an earlier array.

`received_eq_iff` is the other half: two topologies are received as one only where they differ in
nothing but floats that are no numbers.

## What is here

* `Codec.Exact`: what is relied on about the texts of UUIDs and of floats.
* `struct_decode`: the rule for structs, from which the round trip of each type follows.
* `Snapshot.decode_serialize`: the round trip of topologies.
* `TopologySnapshot.received_eq_iff`: what it loses.
* `decoder_agrees`: both, as one statement about every topology.

## What is left out

How bytes are scanned: a document is a tree here, and `Contract/Body.lean` says what is relied on
about its text.
-/

set_option autoImplicit false

open Encoding

namespace NexusTier

/-- What is relied on: the canonical text of a UUID is read as the UUID, and the number that is
written for a float as the float. -/
structure Codec.Exact (C : Codec) : Prop where
  uuid : ∀ id text, Json.ofUuid id = .str text → C.parseUuid text = some id
  float : ∀ x, Telemetry.Binary64 x → C.parseFloat (C.formatFloat x) = some x

open Telemetry

namespace Decoder

/-! ## Basic types -/

theorem string_into (past : List Json) (old s : String) : string.into past old (.str s) = .ok s :=
  rfl

theorem bool_into (past : List Json) (old b : Bool) : bool.into past old (.bool b) = .ok b := rfl

theorem integer_into {α : Type} {type : String} {zero : α} {lo hi n : Int} {ofInt : Int → α}
    (hlo : lo ≤ n) (hhi : n < hi) (past : List Json) (old : α) :
    (integer type zero lo hi ofInt).into past old (.int n) = .ok (ofInt n) := by
  simp only [integer, if_pos (And.intro hlo hhi)]

theorem uint64_into (past : List Json) (old n : UInt64) :
    uint64.into past old (Json.ofUInt64 n) = .ok n := by
  have hn : (n.toNat : Int) < 2 ^ 64 := by exact_mod_cast n.toNat_lt
  rw [uint64, Json.ofUInt64, integer_into (Int.natCast_nonneg n.toNat) hn, Int.toNat_natCast,
    UInt64.ofNat_toNat]

theorem uint64_decode (n : UInt64) : uint64.decode (Json.ofUInt64 n) = .ok n := by
  rw [Decoder.decode, uint64_into]

theorem uint32_into (past : List Json) (old n : UInt32) :
    uint32.into past old (Json.ofUInt32 n) = .ok n := by
  have hn : (n.toNat : Int) < 2 ^ 32 := by exact_mod_cast n.toNat_lt
  rw [uint32, Json.ofUInt32, integer_into (Int.natCast_nonneg n.toNat) hn, Int.toNat_natCast,
    UInt32.ofNat_toNat]

theorem int32_into (past : List Json) (old n : Int32) :
    int32.into past old (.int n.toInt) = .ok n := by
  rw [int32, integer_into n.le_toInt n.toInt_lt, Int32.ofInt_toInt]

section

variable {C : Codec} {α β : Type} {d : Decoder α} {f : β → Json} {g : β → α}

theorem uuid_into (hC : C.Exact) (past : List Json) (old id : Uuid) :
    (uuid C).into past old (Json.ofUuid id) = .ok id := by
  obtain ⟨text, htext⟩ : ∃ text, Json.ofUuid id = .str text := ⟨_, rfl⟩
  simp [uuid, htext, hC.uuid id text htext]

/-! ## Composite types -/

theorem pointer_into (hnull : ∀ b, f b ≠ .null) (hd : ∀ b, d.decode (f b) = .ok (g b))
    (x : Option β) : (pointer d).into [] none (Json.ofOption f x) = .ok (x.map g) := by
  cases x with
  | none => rfl
  | some b =>
    have hb : (pointer d).into [] none (f b) = (d.decode (f b)).map some := by
      cases h : f b with
      | null => exact absurd h (hnull b)
      | bool b => rfl
      | int n => rfl
      | dec q => rfl
      | str s => rfl
      | arr l => rfl
      | obj l => rfl
    rw [Json.ofOption, hb, hd]
    rfl

theorem optionalString_into (x : Option String) :
    (pointer string).into [] none (Json.ofOption Json.str x) = .ok x := by
  rw [pointer_into (fun s => by simp) fun s => string_into _ _ s, Option.map_id']

theorem optionalUint64_into (x : Option UInt64) :
    (pointer uint64).into [] none (Json.ofOption Json.ofUInt64 x) = .ok x := by
  rw [pointer_into (fun n => by simp [Json.ofUInt64]) uint64_decode, Option.map_id']

theorem float_into (hC : C.Exact) (x : Option F64) :
    (pointer (float64 C)).into [] none (Json.ofOption (F64.serialize C) x) =
      .ok (x.bind F64.value?) := by
  cases x with
  | none => rfl
  | some x =>
    cases x with
    | finite x h =>
      simp [Json.ofOption, F64.serialize, pointer, float64, numberOf, hC.float x h, F64.value?,
        Except.map]
    | infinity negative => rfl
    | nan => rfl

theorem overlay_nil (l : List Json) : overlay l [] = l.map fun j => [j] := by
  induction l with
  | nil => rfl
  | cons j l ih => rw [overlay, ih, List.map_cons]

theorem run_singleton (d : Decoder α) (j : Json) : d.run [j] = d.decode j :=
  bind_pure (d.into [] d.zero j)

/-- Nothing has been decoded into the slice before. -/
theorem slice_into_nil (d : Decoder α) (old : Slice α) (l : List Json) :
    (slice d).into [] old (.arr l) = (l.mapM d.decode).map some := by
  have hfresh : (overlay l (backing [])).take l.length = l.map fun j => [j] := by
    show (overlay l []).take l.length = _
    rw [overlay_nil, List.take_of_length_le (List.length_map _).le]
  simp only [slice, hfresh, List.mapM_map, Function.comp_def, run_singleton]

theorem slice_into (hd : ∀ b, d.decode (f b) = .ok (g b)) (old : Slice α) (l : List β) :
    (slice d).into [] old (ofVec f l) = .ok (some (l.map g)) := by
  have hl : (l.map f).mapM d.decode = .ok (l.map g) := by
    induction l with
    | nil => rfl
    | cons b l ih =>
      rw [List.map_cons, List.mapM_cons, hd, ih]
      rfl
  rw [ofVec, slice_into_nil, hl]
  rfl

theorem strings_into (old : Slice String) (l : List String) :
    (slice string).into [] old (ofVec Json.str l) = .ok (some l) := by
  rw [slice_into (fun s => string_into _ _ s), List.map_id']

end

end Decoder

/-! ## Maps -/

namespace Labels

/-- The last key goes to the end. -/
theorem insertEntry_last {key value : String} {l : List (String × String)}
    (h : ∀ e ∈ l, e.1 < key) : insertEntry key value l = l ++ [(key, value)] := by
  induction l with
  | nil => rfl
  | cons e l ih =>
    rw [List.forall_mem_cons] at h
    rw [insertEntry, if_neg h.1.not_gt, if_neg h.1.ne', ih h.2, List.cons_append]

theorem decodeEntries_eq {labels : Labels} {l : List (String × String)}
    (h : (labels.entries ++ l).Pairwise fun a b => a.1 < b.1) :
    decodeEntries labels (l.map fun e => (e.1, .str e.2)) = .ok ⟨labels.entries ++ l, h⟩ := by
  induction l generalizing labels with
  | nil => simp [decodeEntries]
  | cons e l ih =>
    have hlast : (labels.insert e.1 e.2).entries = labels.entries ++ [e] :=
      insertEntry_last fun a ha => (List.pairwise_append.1 h).2.2 a ha e List.mem_cons_self
    have hnext : ((labels.insert e.1 e.2).entries ++ l).Pairwise fun a b => a.1 < b.1 := by
      rw [hlast, List.append_assoc]
      exact h
    have hstep : decodeEntries labels ((e :: l).map fun e => (e.1, .str e.2)) =
        decodeEntries (labels.insert e.1 e.2) (l.map fun e => (e.1, .str e.2)) := rfl
    rw [hstep, ih hnext]
    simp [hlast]

theorem decoder_into (labels : Labels) :
    decoder.into [] none (ofMap labels) = .ok (some labels) := by
  have hread := @decodeEntries_eq empty labels.entries labels.sorted
  simp only [decoder, ofMap, Option.getD_none, hread, Except.map]
  rfl

end Labels

/-! ## Structs -/

namespace Decoder

section

variable {α β : Type}

/-- A name that is a field's own finds the field, where names are different. -/
theorem findField_name {fields : List (Field α)} (hnd : (fields.map Field.name).Nodup) {f : Field α}
    (hf : f ∈ fields) : findField fields f.name = some f := by
  have hfind : fields.find? (fun g => g.name == f.name) = some f := by
    induction fields with
    | nil => simp at hf
    | cons g fields ih =>
      rw [List.map_cons, List.nodup_cons] at hnd
      rcases List.mem_cons.1 hf with rfl | hf
      · simp
      · have hne : g.name ≠ f.name := fun h => hnd.1 (h ▸ List.mem_map_of_mem hf)
        rw [List.find?_cons_of_neg (by simpa using hne), ih hnd.2 hf]
  rw [findField, hfind, Option.some_or]

/-- Where every field has one member, none is decoded over another. -/
theorem members_zip {fields : List (Field α)} (hnd : (fields.map Field.name).Nodup)
    {l : List (Field α × Json)} (hl : ∀ p ∈ l, p.1 ∈ fields)
    (hfold : (l.map fun p => foldName p.1.name).Nodup) :
    ∀ {seen : List (String × Json)}, (∀ p ∈ l, valuesOf p.1.name seen = []) → ∀ a,
      members fields seen a (l.map fun p => (p.1.name, p.2)) =
        l.foldlM (fun a p => p.1.into [] a p.2) a := by
  induction l with
  | nil => exact fun _ _ => rfl
  | cons p l ih =>
    intro seen hseen a
    rw [List.forall_mem_cons] at hl hseen
    rw [List.map_cons, List.nodup_cons] at hfold
    rw [List.map_cons, List.foldlM_cons, members, findField_name hnd hl.1]
    simp only [hseen.1]
    refine congrArg (p.1.into [] a p.2 >>= ·) (funext fun a => ih hl.2 hfold.2 (fun q hq => ?_) a)
    -- the member that comes between is for another field
    have hother : foldName p.1.name ≠ foldName q.1.name := fun heq =>
      hfold.1 (List.mem_map.2 ⟨q, hq, heq.symm⟩)
    simpa [valuesOf, hother] using hseen.2 q hq

/-- **An object with the fields of a struct, in order, is decoded field by field.** -/
theorem struct_decode {zero : α} {fields : List (Field α)} {l : List (String × Json)}
    (hnames : l.map Prod.fst = fields.map Field.name)
    (hfold : (fields.map fun f => foldName f.name).Nodup) :
    (struct zero fields).decode (.obj l) =
      (fields.zip (l.map Prod.snd)).foldlM (fun a p => p.1.into [] a p.2) zero := by
  have hl : l = (fields.zip (l.map Prod.snd)).map fun p => (p.1.name, p.2) := by
    have hzip : (fields.zip (l.map Prod.snd)).map (fun p => (p.1.name, p.2)) =
        (fields.map Field.name).zip (l.map Prod.snd) := (List.zip_map_left ..).symm
    have hunzip := List.zip_unzip l
    rw [List.unzip_eq_map] at hunzip
    rw [hzip, ← hnames, hunzip]
  have hnd : (fields.map Field.name).Nodup :=
    List.Nodup.of_map foldName (by simpa [Function.comp_def] using hfold)
  have hlength : fields.length ≤ (l.map Prod.snd).length := by
    have h := congrArg List.length hnames
    simp only [List.length_map] at h ⊢
    exact h.ge
  have hfold' : ((fields.zip (l.map Prod.snd)).map fun p => foldName p.1.name).Nodup := by
    have hfst : (fields.zip (l.map Prod.snd)).map (fun p => foldName p.1.name) =
        ((fields.zip (l.map Prod.snd)).map Prod.fst).map fun f => foldName f.name := by
      rw [List.map_map]
      rfl
    rwa [hfst, List.map_fst_zip hlength]
  show members fields [] zero l = _
  nth_rewrite 1 [hl]
  exact members_zip hnd (fun p hp => (List.of_mem_zip hp).1) hfold' (fun _ _ => rfl) zero

/-- One field, and then the rest. -/
theorem foldlM_field {name : String} {get : α → β} {set : α → β → α} {d : Decoder β} {a : α}
    {j : Json} {b : β} {l : List (Field α × Json)} (h : d.into [] (get a) j = .ok b) :
    ((field name get set d, j) :: l).foldlM (fun a p => p.1.into [] a p.2) a =
      l.foldlM (fun a p => p.1.into [] a p.2) (set a b) := by
  have hfield : (field name get set d).into [] a j = .ok (set a b) := by
    show (d.into [] (get a) j).map (set a) = _
    rw [h]
    rfl
  rw [List.foldlM_cons, hfield]
  rfl

end

end Decoder

open Decoder

theorem TelemetryError.decode_serialize (e : Telemetry.TelemetryError) :
    TelemetryError.decoder.decode e.serialize = .ok e.received := by
  refine (struct_decode rfl (by simp only [field, List.map_cons, List.map_nil]; decide)).trans ?_
  refine (foldlM_field (string_into _ _ _)).trans ?_
  refine (foldlM_field (string_into _ _ _)).trans ?_
  refine (foldlM_field (string_into _ _ _)).trans ?_
  rfl

theorem Metric.decode_serialize (m : MetricView) :
    Metric.decoder.decode m.serialize = .ok m.received := by
  refine (struct_decode rfl (by simp only [field, List.map_cons, List.map_nil]; decide)).trans ?_
  refine (foldlM_field (string_into _ _ _)).trans ?_
  refine (foldlM_field (uint64_into _ _ _)).trans ?_
  refine (foldlM_field (Labels.decoder_into _)).trans ?_
  rfl

theorem Node.decode_serialize (n : NodeView) : Node.decoder.decode n.serialize = .ok n.received := by
  refine (struct_decode rfl (by simp only [field, List.map_cons, List.map_nil]; decide)).trans ?_
  refine (foldlM_field (uint32_into _ _ _)).trans ?_
  refine (foldlM_field (string_into _ _ _)).trans ?_
  refine (foldlM_field (string_into _ _ _)).trans ?_
  refine (foldlM_field (strings_into _ _)).trans ?_
  refine (foldlM_field (strings_into _ _)).trans ?_
  refine (foldlM_field (string_into _ _ _)).trans ?_
  rfl

theorem Device.decode_serialize (d : DeviceView) :
    Device.decoder.decode d.serialize = .ok d.received := by
  refine (struct_decode rfl (by simp only [field, List.map_cons, List.map_nil]; decide)).trans ?_
  refine (foldlM_field (string_into _ _ _)).trans ?_
  refine (foldlM_field (string_into _ _ _)).trans ?_
  refine (foldlM_field (string_into _ _ _)).trans ?_
  rfl

section

variable {C : Codec} (hC : C.Exact)
include hC

theorem Peer.decode_serialize (p : PeerView) :
    (Peer.decoder C).decode (p.serialize C) = .ok p.received := by
  refine (struct_decode rfl (by simp only [field, List.map_cons, List.map_nil]; decide)).trans ?_
  refine (foldlM_field (uint32_into _ _ _)).trans ?_
  refine (foldlM_field (optionalString_into _)).trans ?_
  refine (foldlM_field (string_into _ _ _)).trans ?_
  refine (foldlM_field (uint32_into _ _ _)).trans ?_
  refine (foldlM_field (bool_into _ _ _)).trans ?_
  refine (foldlM_field (int32_into _ _ _)).trans ?_
  refine (foldlM_field (float_into hC _)).trans ?_
  refine (foldlM_field (float_into hC _)).trans ?_
  refine (foldlM_field (optionalUint64_into _)).trans ?_
  refine (foldlM_field (optionalUint64_into _)).trans ?_
  refine (foldlM_field (strings_into _ _)).trans ?_
  refine (foldlM_field (string_into _ _ _)).trans ?_
  rfl

theorem Instance.decode_serialize (i : InstanceTopology) :
    (Instance.decoder C).decode (i.serialize C) = .ok i.received := by
  have hnode := @pointer_into _ _ _ _ _ (fun n => by simp [NodeView.serialize])
    Node.decode_serialize
  refine (struct_decode rfl (by simp only [field, List.map_cons, List.map_nil]; decide)).trans ?_
  refine (foldlM_field (uuid_into hC _ _ _)).trans ?_
  refine (foldlM_field (uint64_into _ _ _)).trans ?_
  refine (foldlM_field (hnode _)).trans ?_
  refine (foldlM_field (slice_into (Peer.decode_serialize hC) _ _)).trans ?_
  refine (foldlM_field (slice_into Metric.decode_serialize _ _)).trans ?_
  refine (foldlM_field (slice_into TelemetryError.decode_serialize _ _)).trans ?_
  rfl

theorem Session.decode_serialize (s : SessionView) :
    (Session.decoder C).decode s.serialize = .ok s.received := by
  have hdevice := @pointer_into _ _ _ _ _ (fun d => by simp [DeviceView.serialize])
    Device.decode_serialize
  refine (struct_decode rfl (by simp only [field, List.map_cons, List.map_nil]; decide)).trans ?_
  refine (foldlM_field (uuid_into hC _ _ _)).trans ?_
  refine (foldlM_field (string_into _ _ _)).trans ?_
  refine (foldlM_field (string_into _ _ _)).trans ?_
  refine (foldlM_field (string_into _ _ _)).trans ?_
  refine (foldlM_field (string_into _ _ _)).trans ?_
  refine (foldlM_field (uint64_into _ _ _)).trans ?_
  refine (foldlM_field (uint64_into _ _ _)).trans ?_
  refine (foldlM_field (slice_into (fun id => uuid_into hC _ _ id) _ _)).trans ?_
  refine (foldlM_field (hdevice _)).trans ?_
  simp [SessionView.received, pure, Except.pure]

theorem Machine.decode_serialize (m : MachineTopology) :
    (Machine.decoder C).decode (m.serialize C) = .ok m.received := by
  refine (struct_decode rfl (by simp only [field, List.map_cons, List.map_nil]; decide)).trans ?_
  refine (@foldlM_field Machine Session _ (·.session) _ _ _ _ _ _
    (Session.decode_serialize hC m.session)).trans ?_
  refine (foldlM_field (uint64_into _ _ _)).trans ?_
  refine (foldlM_field (slice_into (Instance.decode_serialize hC) _ _)).trans ?_
  refine (foldlM_field (slice_into TelemetryError.decode_serialize _ _)).trans ?_
  rfl

/-- **What the gateway writes is what the controller reads.** -/
theorem Snapshot.decode_serialize (t : TopologySnapshot) :
    (Snapshot.decoder C).decode (t.serialize C) = .ok t.received := by
  refine (struct_decode rfl (by simp only [field, List.map_cons, List.map_nil]; decide)).trans ?_
  refine (foldlM_field (string_into _ _ _)).trans ?_
  refine (foldlM_field (uuid_into hC _ _ _)).trans ?_
  refine (foldlM_field (uint64_into _ _ _)).trans ?_
  refine (foldlM_field (uint64_into _ _ _)).trans ?_
  refine (foldlM_field (uint64_into _ _ _)).trans ?_
  refine (foldlM_field (slice_into (Machine.decode_serialize hC) _ _)).trans ?_
  refine (foldlM_field (slice_into TelemetryError.decode_serialize _ _)).trans ?_
  rfl

end

/-! ## What can be told apart -/

/-- Lists that one function tells apart where another does are told apart alike. -/
theorem map_eq_map_iff {α β γ : Type} {f : α → β} {g : α → γ} (h : ∀ a b, f a = f b ↔ g a = g b) :
    ∀ {l l' : List α}, l.map f = l'.map f ↔ l.map g = l'.map g
  | [], [] => by simp
  | [], _ :: _ => by simp
  | _ :: _, [] => by simp
  | a :: l, b :: l' => by simp [h a b, map_eq_map_iff h]

namespace Telemetry

theorem TelemetryError.received_injective : Function.Injective TelemetryError.received := by
  rintro ⟨⟩ ⟨⟩ h
  simpa [TelemetryError.received] using h

theorem MetricView.received_injective : Function.Injective MetricView.received := by
  rintro ⟨⟩ ⟨⟩ h
  simpa [MetricView.received] using h

theorem NodeView.received_injective : Function.Injective NodeView.received := by
  rintro ⟨⟩ ⟨⟩ h
  simpa [NodeView.received] using h

theorem DeviceView.received_injective : Function.Injective DeviceView.received := by
  rintro ⟨⟩ ⟨⟩ h
  simpa [DeviceView.received] using h

theorem SessionView.received_injective : Function.Injective SessionView.received := by
  rintro ⟨⟩ ⟨⟩ h
  simpa [SessionView.received, (Option.map_injective DeviceView.received_injective).eq_iff] using h

/-- A float tells no more than the number it is, if it is one. -/
theorem bind_value?_eq_iff (x y : Option F64) :
    x.bind F64.value? = y.bind F64.value? ↔ x.filter F64.isFinite = y.filter F64.isFinite := by
  rcases x with _ | ⟨x, hx⟩ | _ | _ <;> rcases y with _ | ⟨y, hy⟩ | _ | _ <;>
    simp [F64.value?, F64.isFinite, Option.filter]

theorem PeerView.received_eq_iff (p q : PeerView) :
    p.received = q.received ↔ p.dropNonFinite = q.dropNonFinite := by
  simp [PeerView.received, PeerView.dropNonFinite, bind_value?_eq_iff]

theorem InstanceTopology.received_eq_iff (i j : InstanceTopology) :
    i.received = j.received ↔ i.dropNonFinite = j.dropNonFinite := by
  simp [InstanceTopology.received, InstanceTopology.dropNonFinite,
    map_eq_map_iff PeerView.received_eq_iff,
    (Option.map_injective NodeView.received_injective).eq_iff,
    MetricView.received_injective.list_map.eq_iff, TelemetryError.received_injective.list_map.eq_iff]

theorem MachineTopology.received_eq_iff (m n : MachineTopology) :
    m.received = n.received ↔ m.dropNonFinite = n.dropNonFinite := by
  simp [MachineTopology.received, MachineTopology.dropNonFinite,
    map_eq_map_iff InstanceTopology.received_eq_iff, SessionView.received_injective.eq_iff,
    TelemetryError.received_injective.list_map.eq_iff]

theorem TopologySnapshot.received_eq_iff (t u : TopologySnapshot) :
    t.received = u.received ↔ t.dropNonFinite = u.dropNonFinite := by
  simp [TopologySnapshot.received, TopologySnapshot.dropNonFinite,
    map_eq_map_iff MachineTopology.received_eq_iff,
    TelemetryError.received_injective.list_map.eq_iff]

end Telemetry

/-- The digits of a UUID. -/
def uuidDigits (id : Uuid) : List Char :=
  List.replicate (32 - (Nat.toDigits 16 id.val).length) '0' ++ Nat.toDigits 16 id.val

theorem length_uuidDigits (id : Uuid) : (uuidDigits id).length = 32 := by
  have hlen : (Nat.toDigits 16 id.val).length ≤ 32 :=
    (Nat.length_toDigits_le_iff (by omega) (by omega)).2 (by
      have := id.isLt
      norm_num at this ⊢
      exact this)
  simp [uuidDigits]
  omega

theorem ofUuid_digits {id : Uuid} {text : String} (h : Json.ofUuid id = .str text) :
    text.toList.filter (· ≠ '-') = uuidDigits id := by
  have hlen := length_uuidDigits id
  have hdash : ∀ c ∈ uuidDigits id, c ≠ '-' := by
    intro c hc
    rcases List.mem_append.1 hc with hzero | hdigit
    · rw [List.eq_of_mem_replicate hzero]
      decide
    · exact fun h => not_mem_toDigits (by decide) id.val (h ▸ hdigit)
  have hpart : ∀ i n, ((uuidDigits id).drop i |>.take n).filter (· ≠ '-') =
      ((uuidDigits id).drop i).take n := by
    intro i n
    refine List.filter_eq_self.2 fun c hc => ?_
    simpa using hdash c (List.mem_of_mem_drop (List.mem_of_mem_take hc))
  have hwhole : uuidDigits id =
      (uuidDigits id).take 8 ++ (((uuidDigits id).drop 8).take 4 ++
        (((uuidDigits id).drop 12).take 4 ++ (((uuidDigits id).drop 16).take 4 ++
          ((uuidDigits id).drop 20).take 12))) := by
    have hlast : ((uuidDigits id).drop 20).take 12 = (uuidDigits id).drop 20 :=
      List.take_of_length_le (by simp [hlen])
    have hsplit : ∀ i n, ((uuidDigits id).drop i).take n ++ (uuidDigits id).drop (i + n) =
        (uuidDigits id).drop i := by
      intro i n
      rw [← List.drop_drop, List.take_append_drop]
    rw [hlast, hsplit 16 4, hsplit 12 4, hsplit 8 4, List.take_append_drop]
  obtain rfl := Json.str.inj h
  show ("-".intercalate [String.ofList (((uuidDigits id).drop 0).take 8),
    String.ofList (((uuidDigits id).drop 8).take 4), String.ofList (((uuidDigits id).drop 12).take 4),
    String.ofList (((uuidDigits id).drop 16).take 4),
    String.ofList (((uuidDigits id).drop 20).take 12)]).toList.filter (· ≠ '-') = _
  simp only [String.intercalate_cons_cons, String.intercalate_singleton, String.toList_append,
    String.toList_ofList, List.filter_append, hpart]
  conv_rhs => rw [hwhole]
  simp

/-! ## The agreement -/

/-- What the gateway sends is refused only by `Validate`. -/
theorem fetchTopology_serialize {C : Codec} (hC : C.Exact) (t : TopologySnapshot) :
    fetchTopology C ⟨200, [t.serialize C]⟩ =
      (t.received.validate.mapError .invalid).map fun _ => t.received := by
  have hread : ((Snapshot.decoder C).decode (t.serialize C)).mapError FetchError.decode =
      .ok t.received := by
    rw [Snapshot.decode_serialize hC t]
    rfl
  simp only [fetchTopology, hread, ne_eq, not_true_eq_false, if_false, bind, Except.bind]
  cases t.received.validate with
  | error e => rfl
  | ok u => rfl

/-- **The encoder of the gateway and the decoder of the controller agree.**  Every topology is
decoded to the snapshot with the same value in every field, so that `FetchTopology` returns it if
it is valid, and topologies that differ in more than floats that are no numbers are decoded to
different snapshots. -/
theorem decoder_agrees {C : Codec} (hC : C.Exact) (t u : TopologySnapshot) :
    (Snapshot.decoder C).decode (t.serialize C) = .ok t.received ∧
      fetchTopology C ⟨200, [t.serialize C]⟩ =
        (t.received.validate.mapError .invalid).map (fun _ => t.received) ∧
      ((Snapshot.decoder C).decode (t.serialize C) = (Snapshot.decoder C).decode (u.serialize C) ↔
        t.dropNonFinite = u.dropNonFinite) := by
  refine ⟨Snapshot.decode_serialize hC t, fetchTopology_serialize hC t, ?_⟩
  rw [Snapshot.decode_serialize hC t, Snapshot.decode_serialize hC u, Except.ok.injEq,
    TopologySnapshot.received_eq_iff]

/-- A codec that reads the texts that are written. -/
def plainCodec : Codec where
  parseUuid text :=
    let n := ofHex (text.toList.filter (· ≠ '-'))
    if h : n < 2 ^ 128 then some ⟨n, h⟩ else none
  formatFloat x := x
  parseFloat x := some x
  size document := document.textSize formatNumber

theorem plainCodec_exact : plainCodec.Exact := by
  constructor
  · intro id text h
    have hvalue : ofHex (text.toList.filter (· ≠ '-')) = id.val := by
      rw [ofUuid_digits h, uuidDigits, ofHex_zeros, ofHex_toDigits]
    simp only [plainCodec, hvalue, id.isLt, dite_true]
  · intro x _
    rfl

/-- A peer with the largest and smallest numbers, and a latency that is no number. -/
def extremePeer (lossRate : F64) : PeerView where
  peerID := 4294967295
  ipv4 := none
  hostname := "edge-\u4eac \"1\""
  nextHopPeerID := 0
  direct := true
  pathCost := -2147483648
  latencyMS := some .nan
  lossRate := some lossRate
  rxBytes := some 18446744073709551615
  txBytes := none
  tunnelProtocols := []
  version := ""

def extremeTopology (lossRate : F64) : TopologySnapshot where
  schemaVersion := schemaVersion
  collectionID := 0x11111111111141118111111111111111
  startedAtMS := 0
  completedAtMS := 18446744073709551615
  collectedAtMS := 18446744073709551615
  machines :=
    [{ session := ⟨0xa1, "", "", "", "", 0, 0, [], none⟩
       observedAtMS := 0
       instances := [⟨0xb1, 0, none, [extremePeer lossRate], [], []⟩]
       errors := [] }]
  errors := []

/-- An eighth, and a quarter. -/
def eighth : F64 := .finite (1 / 8) ⟨1, -3, by norm_num, by norm_num, by norm_num, by norm_num⟩

def quarter : F64 := .finite (1 / 4) ⟨1, -2, by norm_num, by norm_num, by norm_num, by norm_num⟩

theorem decoder_agrees_extremes :
    (Snapshot.decoder plainCodec).decode ((extremeTopology eighth).serialize plainCodec) =
        .ok (extremeTopology eighth).received ∧
      ((extremePeer eighth).received.latencyMS = none ∧
        (extremePeer eighth).received.lossRate = some (1 / 8)) ∧
      (Snapshot.decoder plainCodec).decode ((extremeTopology eighth).serialize plainCodec) ≠
        (Snapshot.decoder plainCodec).decode ((extremeTopology quarter).serialize plainCodec) := by
  obtain ⟨hread, -, hsame⟩ := decoder_agrees plainCodec_exact (extremeTopology eighth)
    (extremeTopology quarter)
  refine ⟨hread, ⟨rfl, rfl⟩, fun h => ?_⟩
  have hdrop := hsame.1 h
  simp [TopologySnapshot.dropNonFinite, MachineTopology.dropNonFinite,
    InstanceTopology.dropNonFinite, PeerView.dropNonFinite, extremeTopology, extremePeer, eighth,
    quarter, F64.isFinite, F64.value?, Option.filter] at hdrop

end NexusTier
