import NexusTier.ReadModel.Topology

/-!
# What a page is made of

The positions through which `loadInstances` and `loadPeers` put rows together are right: every
machine of a page ends up with its own instances, in the order of their ids, and every instance
with its own links.  The loops are followed by two invariants, one for the instances placed so far
(`Placed`), one for the peers (`withPeers`); both say where the rows of a prefix have gone.

## What is here

* `Readable` and `scanPeer_eq_ok`: when a link can be read.
* `nestedMachine` and `nestedFrom`: a machine with what belongs to it, from one state of the
  database or from two.
* `Placed` and `placed_foldl`: the loop over instances.
* `loadInstancesAt_eq`: both loops.
* `currentTopology_eq` and `topology_eq`: one page, and all of them.

## What is left out

What the fields of a record are: `ReadModel/Records.lean` says it without a word about scanning.
-/

set_option autoImplicit false

namespace NexusTier

open Relational

namespace ReadModel

/-! ## The tree -/

/-- Counters that fit a `uint64`. -/
structure Readable (columns : PeerColumns) : Prop where
  rx : ∀ n ∈ columns.rxBytes, n < 2 ^ 64
  tx : ∀ n ∈ columns.txBytes, n < 2 ^ 64

/-- What `scanPeer` returns. -/
def peerOf (e : LinkKey × PeerRow) : Peer where
  peerID := uint32 e.1.destination
  ipv4 := e.2.value.ipv4
  hostname := e.2.value.hostname
  nextHopPeerID := uint32 e.2.value.nextHopPeerID
  direct := e.2.value.direct
  pathCost := e.2.value.pathCost
  latencyMS := e.2.value.latencyMS
  lossRate := e.2.value.lossRate
  rxBytes := e.2.value.rxBytes.map UInt64.ofNat
  txBytes := e.2.value.txBytes.map UInt64.ofNat
  tunnelProtocols := e.2.value.tunnelProtocols
  easyTierVersion := e.2.value.easyTierVersion
  lastObservedAt := e.2.observedAt

/-- The instances of a machine, in the order of their ids. -/
def ownedRows (active : Option Bool) (db : Db) (machineID : Uuid) : List (Uuid × InstanceRow) :=
  db.networkInstances.toList.filter fun e =>
    decide (e.2.value.machineID = machineID) && active.all fun active => e.2.active == active

/-- An instance with the peers among `links`. -/
def withPeers (db : Db) (links : List (LinkKey × PeerRow)) (e : Uuid × InstanceRow) : Instance :=
  { scanInstance db e with
    peers := (links.filter fun x => decide (x.1.source = e.1)).map peerOf }

/-- A machine with its instances, and these with their peers. -/
def nestedMachine (active : Option Bool) (db : Db) (e : Uuid × MachineRow) : Machine :=
  { scanMachine e with
    networkInstances := (ownedRows active db e.1).map (withPeers db db.peerLinks.toList) }

/-- The same, where the peers come from another state of the database. -/
def nestedFrom (active : Option Bool) (instances peers : Db) (e : Uuid × MachineRow) : Machine :=
  { scanMachine e with
    networkInstances := (ownedRows active instances e.1).map
      (withPeers instances peers.peerLinks.toList) }

theorem parseOptionalUint64_eq_ok {error : Nat → ReadError} {value : Option Nat}
    {parsed : Option UInt64} : parseOptionalUint64 error value = .ok parsed ↔
      (∀ n ∈ value, n < 2 ^ 64) ∧ parsed = value.map UInt64.ofNat := by
  cases value with
  | none => simp [parseOptionalUint64, eq_comm]
  | some n =>
    rw [parseOptionalUint64]
    split
    · rename_i hn
      refine ⟨fun h => ⟨fun k hk => Option.mem_some.1 hk ▸ hn, (Except.ok.inj h).symm⟩, ?_⟩
      rintro ⟨-, rfl⟩
      rfl
    · rename_i hn
      exact ⟨fun h => absurd h (by simp), fun h => absurd (h.1 n rfl) hn⟩

/-- **A link is read exactly if its counters fit.** -/
theorem scanPeer_eq_ok {e : LinkKey × PeerRow} {peer : Peer} :
    scanPeer e = .ok peer ↔ Readable e.2.value ∧ peer = peerOf e := by
  simp only [scanPeer, bind_eq_ok, pure_eq_ok, parseOptionalUint64_eq_ok]
  constructor
  · rintro ⟨_, ⟨hrx, rfl⟩, _, ⟨htx, rfl⟩, rfl⟩
    exact ⟨⟨hrx, htx⟩, rfl⟩
  · rintro ⟨h, rfl⟩
    exact ⟨_, ⟨h.rx, rfl⟩, _, ⟨h.tx, rfl⟩, rfl⟩

/-! ## The order of the rows -/

theorem machineIndex_eq {ids : List Uuid} (hnd : ids.Nodup) {n : Nat} {id : Uuid}
    (h : ids[n]? = some id) : (machineIndex ids)[id]? = some n := by
  refine Table.getElem?_insertAll_of_mem ?_ ?_
  · rwa [List.zipIdx_map_fst]
  · rw [List.mem_zipIdx_iff_getElem?]
    exact h

theorem mem_instanceRows {ids : List Uuid} {active : Option Bool} {db : Db}
    {e : Uuid × InstanceRow} : e ∈ instanceRows ids active db ↔
      db.networkInstances[e.1]? = some e.2 ∧ e.2.value.machineID ∈ ids ∧
        (active.all fun active => e.2.active == active) = true := by
  rw [instanceRows, List.mem_insertionSort, List.mem_filter, ← Table.mem_toList]
  simp

theorem nodup_instanceRows {ids : List Uuid} {active : Option Bool} {db : Db} :
    ((instanceRows ids active db).map Prod.fst).Nodup := by
  refine ((List.perm_insertionSort _ _).map Prod.fst).nodup_iff.2 ?_
  exact Table.nodup_keys_toList.sublist (List.filter_sublist.map _)

theorem pairwise_toList {V : Type} (t : Table Uuid V) :
    t.toList.Pairwise fun a b => a.1 < b.1 :=
  Std.ExtTreeMap.ordered_keys_toList.imp fun h => compare_lt_iff_lt.1 h

instance : Std.Total rowLE where
  total a b := by
    rcases lt_trichotomy a.2.value.machineID b.2.value.machineID with h | h | h
    · exact .inl (.inl h)
    · rcases le_total a.1 b.1 with h' | h'
      · exact .inl (.inr ⟨h, h'⟩)
      · exact .inr (.inr ⟨h.symm, h'⟩)
    · exact .inr (.inl h)

instance : IsTrans _ rowLE where
  trans a b c hab hbc := by
    rcases hab with hab | ⟨hab, hab'⟩
    · rcases hbc with hbc | ⟨hbc, _⟩
      · exact .inl (hab.trans hbc)
      · exact .inl (hbc ▸ hab)
    · rcases hbc with hbc | ⟨hbc, hbc'⟩
      · exact .inl (hab ▸ hbc)
      · exact .inr ⟨hab.trans hbc, hab'.trans hbc'⟩

/-- The rows of one machine, among those of a page, are its own. -/
theorem filter_instanceRows {ids : List Uuid} {active : Option Bool} {db : Db} {m : Uuid}
    (hm : m ∈ ids) :
    ((instanceRows ids active db).filter fun e => decide (e.2.value.machineID = m)) =
      ownedRows active db m := by
  have hperm : ((instanceRows ids active db).filter fun e =>
      decide (e.2.value.machineID = m)).Perm (ownedRows active db m) := by
    refine ((List.perm_insertionSort _ _).filter _).trans (List.Perm.of_eq ?_)
    rw [List.filter_filter]
    refine List.filter_congr fun e _ => ?_
    by_cases he : e.2.value.machineID = m
    · simp [he, hm]
    · simp [he]
  -- both are in the order of the instance ids
  refine @List.Perm.eq_of_pairwise _ (fun a b => a.1 ≤ b.1) _ _ (fun a b ha hb hab hba => ?_) ?_ ?_
    hperm
  · have hkey : a.1 = b.1 := le_antisymm hab hba
    have hrow := (mem_instanceRows.1 (List.mem_of_mem_filter ha)).1
    have hrow' := Table.mem_toList.1 (List.mem_of_mem_filter hb)
    rw [hkey, hrow'] at hrow
    exact Prod.ext hkey (Option.some.inj hrow).symm
  · refine List.Pairwise.imp_of_mem ?_ ((List.pairwise_insertionSort rowLE _).filter _)
    intro a b ha hb hab
    have hma : a.2.value.machineID = m := by simpa using (List.mem_filter.1 ha).2
    have hmb : b.2.value.machineID = m := by simpa using (List.mem_filter.1 hb).2
    rcases hab with hlt | ⟨_, hle⟩
    · rw [hma, hmb] at hlt
      exact absurd hlt (lt_irrefl m)
    · exact hle
  · exact ((pairwise_toList _).filter _).imp le_of_lt

/-! ## Placing the instances -/

/-- A machine with the instances among `rows`. -/
def withInstances (db : Db) (links : List (LinkKey × PeerRow)) (rows : List (Uuid × InstanceRow))
    (m : Machine) : Machine :=
  { m with
    networkInstances := (rows.filter fun e => decide (e.2.value.machineID = m.machineID)).map
      (withPeers db links) }

/-- The instance `e` is at position `location`, in its machine and among its instances. -/
def Located (machines : List Machine) (rows : List (Uuid × InstanceRow)) (e : Uuid × InstanceRow)
    (location : Nat × Nat) : Prop :=
  ∃ m, machines[location.1]? = some m ∧ m.machineID = e.2.value.machineID ∧
    (rows.filter fun e' => decide (e'.2.value.machineID = m.machineID))[location.2]? = some e

/-- The state of the loop after `rows`: the instances are in their machines, and the locations say
where. -/
structure Placed (db : Db) (machines : List Machine) (rows : List (Uuid × InstanceRow))
    (l : Loading) : Prop where
  placed : l.machines = machines.map (withInstances db [] rows)
  instanceIDs : l.instanceIDs = rows.map Prod.fst
  locations : ∀ e ∈ rows, ∃ location, l.locations[e.1]? = some location ∧
    Located machines rows e location

variable {db : Db} {machines : List Machine} {rows : List (Uuid × InstanceRow)} {l : Loading}

theorem withPeers_nil (e : Uuid × InstanceRow) : withPeers db [] e = scanInstance db e := rfl

theorem Placed.placeInstance (h : Placed db machines rows l)
    (hnd : (machines.map Machine.machineID).Nodup) {e : Uuid × InstanceRow}
    (howner : e.2.value.machineID ∈ machines.map Machine.machineID)
    (hnew : e.1 ∉ rows.map Prod.fst) :
    Placed db machines (rows ++ [e])
      (placeInstance db (machineIndex (machines.map Machine.machineID)) l e) := by
  obtain ⟨p, hp⟩ := List.mem_iff_getElem?.1 howner
  obtain ⟨m, hm, hid⟩ : ∃ m, machines[p]? = some m ∧ m.machineID = e.2.value.machineID := by
    rwa [List.getElem?_map, Option.map_eq_some_iff] at hp
  have hindex := machineIndex_eq hnd hp
  have hlength : ((l.machines[p]?.map fun m => m.networkInstances.length).getD 0) =
      (rows.filter fun e' => decide (e'.2.value.machineID = m.machineID)).length := by
    simp [h.placed, List.getElem?_map, hm, withInstances]
  refine ⟨?_, ?_, fun e' he' => ?_⟩
  · simp only [ReadModel.placeInstance, hindex, Option.getD_some, h.placed]
    rw [modify_map hnd hm]
    refine List.map_congr_left fun x _ => ?_
    by_cases hx : x.machineID = m.machineID
    · simp [withInstances, hx, hid, withPeers_nil]
    · have hne : ¬ e.2.value.machineID = x.machineID := fun heq => hx (heq ▸ hid ▸ rfl)
      simp [withInstances, hx, hne]
  · simp [ReadModel.placeInstance, h.instanceIDs]
  · simp only [ReadModel.placeInstance, hindex, Option.getD_some, hlength, Table.getElem?_insert]
    rcases List.mem_append.1 he' with hold | hlast
    · -- the instances before `e` stay where they are
      have hne : ¬ e.1 = e'.1 := fun heq => hnew (heq ▸ List.mem_map_of_mem hold)
      rw [if_neg hne]
      obtain ⟨location, hloc, m', hm', hid', hat⟩ := h.locations e' hold
      refine ⟨location, hloc, m', hm', hid', ?_⟩
      rw [List.filter_append, List.getElem?_append_left (List.getElem?_eq_some_iff.1 hat).1]
      exact hat
    · obtain rfl := List.mem_singleton.1 hlast
      refine ⟨_, if_pos rfl, m, hm, hid, ?_⟩
      simp [List.filter_append, hid]

/-- **All instances end up in their machines.** -/
theorem placed_foldl (hnd : (machines.map Machine.machineID).Nodup)
    (hempty : ∀ m ∈ machines, m.networkInstances = [])
    (howners : ∀ e ∈ rows, e.2.value.machineID ∈ machines.map Machine.machineID)
    (hrows : (rows.map Prod.fst).Nodup) :
    Placed db machines rows
      (rows.foldl (placeInstance db (machineIndex (machines.map Machine.machineID)))
        ⟨machines, ∅, []⟩) := by
  induction rows using List.reverseRecOn with
  | nil =>
    refine ⟨?_, rfl, by simp⟩
    have hsame : ∀ m ∈ machines, withInstances db [] [] m = m := by
      intro m hm
      have hnil := hempty m hm
      cases m
      simp_all [withInstances]
    exact ((List.map_congr_left hsame).trans (List.map_id' machines)).symm
  | append_singleton rows e ih =>
    rw [List.map_append, List.nodup_append] at hrows
    rw [List.foldl_append]
    refine (ih (fun e' he' => howners e' (List.mem_append_left _ he')) hrows.1).placeInstance hnd
      (howners e (by simp)) fun hmem => ?_
    exact hrows.2.2 _ hmem _ (by simp) rfl

/-! ## Placing the peers -/

variable {locations : Table Uuid (Nat × Nat)}

/-- A peer goes to the instance its link starts from. -/
theorem placePeer_eq (hnd : (machines.map Machine.machineID).Nodup)
    (hrows : (rows.map Prod.fst).Nodup)
    (hloc : ∀ e ∈ rows, ∃ location, locations[e.1]? = some location ∧
      Located machines rows e location)
    {links : List (LinkKey × PeerRow)} {x : LinkKey × PeerRow} (hx : Readable x.2.value)
    (hsource : x.1.source ∈ rows.map Prod.fst) :
    placePeer locations (machines.map (withInstances db links rows)) x =
      .ok (machines.map (withInstances db (links ++ [x]) rows)) := by
  obtain ⟨e, he, hes⟩ := List.mem_map.1 hsource
  obtain ⟨location, hl, m, hm, hid, hat⟩ := hloc e he
  have hother : ∀ e' : Uuid × InstanceRow, e'.1 ≠ e.1 →
      withPeers db (links ++ [x]) e' = withPeers db links e' := by
    intro e' hne
    have hsrc : ¬ x.1.source = e'.1 := fun h => hne (h ▸ hes ▸ rfl)
    simp [withPeers, hsrc]
  simp only [placePeer, scanPeer_eq_ok.2 ⟨hx, rfl⟩, bind, Except.bind, pure, Except.pure, ← hes, hl,
    Option.getD_some]
  rw [modify_map hnd hm]
  refine congrArg Except.ok (List.map_congr_left fun y _ => ?_)
  by_cases hy : y.machineID = m.machineID
  · -- the machine of the instance
    have hfilter : ((rows.filter fun e' => decide (e'.2.value.machineID = m.machineID)).map
        Prod.fst).Nodup := hrows.sublist (List.filter_sublist.map _)
    simp only [hy, if_true, withInstances]
    rw [modify_map hfilter hat]
    congr 1
    refine List.map_congr_left fun e' _ => ?_
    by_cases heq : e'.1 = e.1
    · simp [heq, withPeers, hes]
    · rw [if_neg heq, hother e' heq]
  · -- another machine: the instance is not there
    simp only [if_neg hy, withInstances]
    congr 1
    refine List.map_congr_left fun e' he' => (hother e' fun heq => hy ?_).symm
    obtain ⟨hmem, howner⟩ := List.mem_filter.1 he'
    have hsame : e' = e := List.inj_on_of_nodup_map hrows hmem he heq
    rw [hid, ← hsame]
    exact (of_decide_eq_true howner).symm

theorem placePeers_eq (hnd : (machines.map Machine.machineID).Nodup)
    (hrows : (rows.map Prod.fst).Nodup)
    (hloc : ∀ e ∈ rows, ∃ location, locations[e.1]? = some location ∧
      Located machines rows e location)
    {links done : List (LinkKey × PeerRow)} (hread : ∀ x ∈ links, Readable x.2.value)
    (hsource : ∀ x ∈ links, x.1.source ∈ rows.map Prod.fst) :
    links.foldlM (placePeer locations) (machines.map (withInstances db done rows)) =
      .ok (machines.map (withInstances db (done ++ links) rows)) := by
  induction links generalizing done with
  | nil => simp [pure, Except.pure]
  | cons x links ih =>
    rw [List.forall_mem_cons] at hread hsource
    rw [foldlM_cons_eq_ok]
    refine ⟨_, placePeer_eq hnd hrows hloc hread.1 hsource.1, ?_⟩
    rw [ih hread.2 hsource.2, List.append_assoc, List.singleton_append]

/-! ## A page -/

/-- Every link can be read. -/
def DbReadable (db : Db) : Prop := db.peerLinks.All fun _ row => Readable row.value

/-- The links of the instances of a page hold all links of each of them. -/
theorem withPeers_linkRows (db peers : Db) {ids : List Uuid} {e : Uuid × InstanceRow}
    (h : e.1 ∈ ids) :
    withPeers db (linkRows ids peers) e = withPeers db peers.peerLinks.toList e := by
  have hlinks : ((linkRows ids peers).filter fun x => decide (x.1.source = e.1)) =
      peers.peerLinks.toList.filter fun x => decide (x.1.source = e.1) := by
    rw [linkRows, List.filter_filter]
    refine List.filter_congr fun x _ => ?_
    by_cases hx : x.1.source = e.1
    · simp [hx, h]
    · simp [hx]
  rw [withPeers, hlinks, withPeers]

theorem withInstances_instanceRows {peers : Db} {ids : List Uuid} {active : Option Bool}
    {links : List (LinkKey × PeerRow)} {e : Uuid × MachineRow} (he : e.1 ∈ ids)
    (hlinks : ∀ z ∈ instanceRows ids active db,
      withPeers db links z = withPeers db peers.peerLinks.toList z) :
    withInstances db links (instanceRows ids active db) (scanMachine e) =
      nestedFrom active db peers e := by
  have hfilter : ((instanceRows ids active db).filter fun z =>
      decide (z.2.value.machineID = (scanMachine e).machineID)) = ownedRows active db e.1 :=
    filter_instanceRows he
  rw [withInstances, nestedFrom, ← hfilter]
  congr 1
  exact List.map_congr_left fun z hz => hlinks z (List.mem_of_mem_filter hz)

/-- The links of the instances of a page can be read. -/
def LinksReadable (active : Option Bool) (db peers : Db) (ids : List Uuid) : Prop :=
  ∀ x ∈ linkRows ((instanceRows ids active db).map Prod.fst) peers, Readable x.2.value

/-- The instances of a page are in their machines. -/
theorem placed_instanceRows (active : Option Bool) {es : List (Uuid × MachineRow)}
    (hnd : (es.map Prod.fst).Nodup) :
    Placed db (es.map scanMachine) (instanceRows (es.map Prod.fst) active db)
      ((instanceRows (es.map Prod.fst) active db).foldl
        (placeInstance db (machineIndex (es.map Prod.fst))) ⟨es.map scanMachine, ∅, []⟩) := by
  have hids : (es.map scanMachine).map Machine.machineID = es.map Prod.fst := by
    simp only [List.map_map]
    rfl
  have hempty : ∀ m ∈ es.map scanMachine, m.networkInstances = [] := by
    intro m hm
    obtain ⟨e, _, rfl⟩ := List.mem_map.1 hm
    rfl
  have howners : ∀ e ∈ instanceRows (es.map Prod.fst) active db,
      e.2.value.machineID ∈ (es.map scanMachine).map Machine.machineID := by
    intro e he
    rw [hids]
    exact (mem_instanceRows.1 he).2.1
  have hplaced := @placed_foldl db _ _ (hids ▸ hnd) hempty howners nodup_instanceRows
  rwa [hids] at hplaced

/-- `loadInstances`, where its query and that of `loadPeers` may see different states of the
database. -/
def loadInstancesAt (active : Option Bool) (db peers : Db) (machines : List Machine) :
    Except ReadError (List Machine) :=
  if machines.isEmpty then .ok machines
  else
    let machineIDs := machines.map Machine.machineID
    let l := (instanceRows machineIDs active db).foldl (placeInstance db (machineIndex machineIDs))
      ⟨machines, ∅, []⟩
    loadPeers peers l.machines l.instanceIDs l.locations

/-- What it does, once the instances are placed. -/
theorem loadInstancesAt_eq_loadPeers (active : Option Bool) (peers : Db)
    {es : List (Uuid × MachineRow)} (hnd : (es.map Prod.fst).Nodup) : ∃ locations,
      loadInstancesAt active db peers (es.map scanMachine) =
        loadPeers peers ((es.map scanMachine).map
          (withInstances db [] (instanceRows (es.map Prod.fst) active db)))
          ((instanceRows (es.map Prod.fst) active db).map Prod.fst) locations ∧
      ∀ e ∈ instanceRows (es.map Prod.fst) active db, ∃ location,
        locations[e.1]? = some location ∧
          Located (es.map scanMachine) (instanceRows (es.map Prod.fst) active db) e location := by
  have hids : (es.map scanMachine).map Machine.machineID = es.map Prod.fst := by
    simp only [List.map_map]
    rfl
  have hplaced := @placed_instanceRows db active es hnd
  refine ⟨_, ?_, hplaced.locations⟩
  rw [loadInstancesAt]
  split
  · rename_i hnil
    rw [List.isEmpty_iff, List.map_eq_nil_iff] at hnil
    simp [hnil, instanceRows, loadPeers]
  · simp only [hids, hplaced.placed, hplaced.instanceIDs]

/-- The peers of a page are with their instances, if they can be read. -/
theorem loadPeers_eq {active : Option Bool} {peers : Db} {es : List (Uuid × MachineRow)}
    {locations : Table Uuid (Nat × Nat)}
    (hread : LinksReadable active db peers (es.map Prod.fst)) (hnd : (es.map Prod.fst).Nodup)
    (hlocations : ∀ e ∈ instanceRows (es.map Prod.fst) active db, ∃ location,
      locations[e.1]? = some location ∧
        Located (es.map scanMachine) (instanceRows (es.map Prod.fst) active db) e location) :
    loadPeers peers ((es.map scanMachine).map
        (withInstances db [] (instanceRows (es.map Prod.fst) active db)))
        ((instanceRows (es.map Prod.fst) active db).map Prod.fst) locations =
      .ok (es.map (nestedFrom active db peers)) := by
  have hids : (es.map scanMachine).map Machine.machineID = es.map Prod.fst := by
    simp only [List.map_map]
    rfl
  rw [loadPeers]
  split
  · -- no instances
    rename_i hnil
    rw [List.isEmpty_iff, List.map_eq_nil_iff] at hnil
    rw [List.map_map]
    refine congrArg Except.ok (List.map_congr_left fun e he => ?_)
    exact withInstances_instanceRows (List.mem_map_of_mem he) (by simp [hnil])
  · rw [placePeers_eq (hids ▸ hnd) nodup_instanceRows hlocations hread, List.nil_append,
      List.map_map]
    · refine congrArg Except.ok (List.map_congr_left fun e he => ?_)
      exact withInstances_instanceRows (List.mem_map_of_mem he) fun z hz =>
        withPeers_linkRows db peers (List.mem_map_of_mem hz)
    · intro x hx
      simpa using (List.mem_filter.1 hx).2

/-- **Each machine of a page has its own instances, and each of them its own links**, if they can be
read. -/
theorem loadInstancesAt_eq {active : Option Bool} {peers : Db} {es : List (Uuid × MachineRow)}
    (hread : LinksReadable active db peers (es.map Prod.fst)) (hnd : (es.map Prod.fst).Nodup) :
    loadInstancesAt active db peers (es.map scanMachine) =
      .ok (es.map (nestedFrom active db peers)) := by
  obtain ⟨locations, heq, hlocations⟩ := @loadInstancesAt_eq_loadPeers db active peers es hnd
  rw [heq]
  exact loadPeers_eq hread hnd hlocations

/-- Both queries see one state. -/
theorem loadInstances_eq {active : Option Bool} {es : List (Uuid × MachineRow)}
    (hread : LinksReadable active db db (es.map Prod.fst)) (hnd : (es.map Prod.fst).Nodup) :
    loadInstances active db (es.map scanMachine) = .ok (es.map (nestedMachine active db)) :=
  loadInstancesAt_eq hread hnd

theorem DbReadable.links {peers : Db} (hdb : DbReadable peers) (active : Option Bool) (db : Db)
    (ids : List Uuid) : LinksReadable active db peers ids :=
  fun x hx => hdb x.1 x.2 (Table.mem_toList.1 (List.mem_of_mem_filter hx))

theorem pairwise_machineRows (query : TopologyQuery) (db : Db) :
    (machineRows query db).Pairwise fun a b => a.1 < b.1 :=
  (pairwise_toList _).filter _

/-- No machine is twice on a page. -/
theorem nodup_page (query : TopologyQuery) (db : Db) :
    ((page Prod.fst query.pageLimit query.cursor (machineRows query db)).1.map Prod.fst).Nodup := by
  have hsub : (page Prod.fst query.pageLimit query.cursor (machineRows query db)).1.Sublist
      (machineRows query db) := page_sublist
  exact Table.nodup_keys_toList.sublist ((hsub.trans List.filter_sublist).map _)

/-- **What `CurrentTopology` returns.** -/
theorem currentTopology_eq (hdb : DbReadable db) (now : Timestamp) (query : TopologyQuery) :
    currentTopology now query db = .ok
      { generatedAt := now
        latestCollection := latestCollection db
        latestErrors := ((latestCollection db).map fun c =>
          collectionErrors c.collectionID db).getD []
        machines := (page Prod.fst query.pageLimit query.cursor (machineRows query db)).1.map
          (nestedMachine query.active db)
        limit := query.pageLimit
        nextCursor := (page Prod.fst query.pageLimit query.cursor (machineRows query db)).2 } := by
  simp only [currentTopology, loadInstances_eq (hdb.links query.active db _) (nodup_page query db),
    bind, Except.bind, pure, Except.pure]

theorem pageLimit_pos (query : TopologyQuery) : 0 < query.pageLimit := by
  rw [TopologyQuery.pageLimit]
  split
  · decide
  · omega

/-- **Following the cursors returns every machine that the filters select, once, in the order of
their ids**, each with its instances and their links. -/
theorem topology_eq (hdb : DbReadable db) (now : Timestamp) {query : TopologyQuery}
    (hcursor : query.cursor = none) {fuel : Nat} (hfuel : (machineRows query db).length < fuel) :
    topology now query db fuel =
      .ok (some ((machineRows query db).map (nestedMachine query.active db))) := by
  have hfetch : ∀ cursor, (do
      let page ← currentTopology now { query with cursor } db
      return (page.machines, page.nextCursor)) =
      (Except.ok ((page Prod.fst query.pageLimit cursor (machineRows query db)).1.map
          (nestedMachine query.active db),
        (page Prod.fst query.pageLimit cursor (machineRows query db)).2) :
          Except ReadError (List Machine × Option Uuid)) := by
    intro cursor
    rw [currentTopology_eq hdb]
    rfl
  rw [topology, hcursor, readAll_eq hfetch (pageLimit_pos query) (pairwise_machineRows query db)
    (by rwa [after_none]), after_none]

end ReadModel

end NexusTier
