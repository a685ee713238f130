import NexusTier.ReadModel.Records

/-!
# The page, row by row

`CurrentTopology` reads the instances of a page in one query and the peers of all of these in
another, and puts the rows together through two maps.  `rowByRow` is what this is meant to be: for
each machine its instances are looked up, and for each instance its links.

The two return the same pages, on any database.  The schema lets a counter be larger than what
`strconv.ParseUint` reads; then both fail, though not always over the same link, as they do not come
across them in the same order.

## What is here

* `rowByRow` — the page, machine by machine and instance by instance.
* `loadInstances_eq_ok` — the nesting through the two maps comes to the same.
* `currentTopology_rowByRow` — so the pages are the same; their machines are the records of their
  rows (`Machine.RecordOf`), and which rows are looked up, and in which order, is said too.
-/

set_option autoImplicit false

namespace NexusTier

open Relational

namespace ReadModel

/-! ## Looking up -/

/-- An instance, with its node and its peers. -/
def readInstance (db : Db) (e : Uuid × InstanceRow) : Except ReadError Instance := do
  let peers ← (linksOf db e.1).mapM scanPeer
  return { scanInstance db e with
    peers }

/-- A machine, with those of its instances that pass the filter. -/
def readMachine (active : Option Bool) (db : Db) (e : Uuid × MachineRow) :
    Except ReadError Machine := do
  let networkInstances ← (ownedRows active db e.1).mapM (readInstance db)
  return { scanMachine e with
    networkInstances }

/-- A page whose machines are read one by one. -/
def rowByRow (now : Timestamp) (query : TopologyQuery) (db : Db) :
    Except ReadError TopologyPage := do
  let latest := latestCollection db
  let (rows, nextCursor) := page Prod.fst query.pageLimit query.cursor (machineRows query db)
  let machines ← rows.mapM (readMachine query.active db)
  return {
    generatedAt := now
    latestCollection := latest
    latestErrors := (latest.map fun c => collectionErrors c.collectionID db).getD []
    machines
    limit := query.pageLimit
    nextCursor }

/-! ## What is looked up -/

variable {db : Db} {active : Option Bool}

theorem mem_ownedRows {m : Uuid} {e : Uuid × InstanceRow} : e ∈ ownedRows active db m ↔
    db.networkInstances[e.1]? = some e.2 ∧ e.2.value.machineID = m ∧
      ∀ a ∈ active, e.2.active = a := by
  rw [ownedRows, List.mem_filter, ← Table.mem_toList]
  cases active <;> simp

theorem pairwise_ownedRows (active : Option Bool) (db : Db) (m : Uuid) :
    (ownedRows active db m).Pairwise fun a b => a.1 < b.1 :=
  (pairwise_toList _).filter _

theorem mem_linksOf {i : Uuid} {x : LinkKey × PeerRow} :
    x ∈ linksOf db i ↔ db.peerLinks[x.1]? = some x.2 ∧ x.1.source = i := by
  rw [linksOf, List.mem_filter, ← Table.mem_toList]
  simp

/-- Links of one instance are in the order of their peers. -/
theorem pairwise_linksOf (db : Db) (i : Uuid) :
    (linksOf db i).Pairwise fun x y => x.1.destination < y.1.destination := by
  refine List.Pairwise.imp_of_mem ?_ (Std.ExtTreeMap.ordered_keys_toList.filter _)
  intro x y hx hy hlt
  have hxi : x.1.source = i := (mem_linksOf.1 hx).2
  have hyi : y.1.source = i := (mem_linksOf.1 hy).2
  have hcolumns : compareColumns LinkKey.source LinkKey.destination x.1 y.1 = .lt := hlt
  simp only [compareColumns, compareLex, compareOn, hxi, hyi, Std.ReflOrd.compare_self,
    Ordering.eq_then] at hcolumns
  exact compare_lt_iff_lt.1 hcolumns

/-! ## When it can be read -/

theorem readInstance_eq_ok {e : Uuid × InstanceRow} {inst : Instance} :
    readInstance db e = .ok inst ↔
      (∀ x ∈ linksOf db e.1, Readable x.2.value) ∧ inst = withPeers db db.peerLinks.toList e := by
  have hpeers : ∀ peers, (linksOf db e.1).mapM scanPeer = .ok peers ↔
      (∀ x ∈ linksOf db e.1, Readable x.2.value) ∧ peers = (linksOf db e.1).map peerOf :=
    fun peers => mapM_eq_ok fun x _ peer => scanPeer_eq_ok
  simp only [readInstance, bind_eq_ok, pure_eq_ok, hpeers]
  constructor
  · rintro ⟨_, ⟨hread, rfl⟩, rfl⟩
    exact ⟨hread, rfl⟩
  · rintro ⟨hread, rfl⟩
    exact ⟨_, ⟨hread, rfl⟩, rfl⟩

theorem readMachine_eq_ok {e : Uuid × MachineRow} {machine : Machine} :
    readMachine active db e = .ok machine ↔
      (∀ z ∈ ownedRows active db e.1, ∀ x ∈ linksOf db z.1, Readable x.2.value) ∧
        machine = nestedMachine active db e := by
  have hinsts : ∀ insts, (ownedRows active db e.1).mapM (readInstance db) = .ok insts ↔
      (∀ z ∈ ownedRows active db e.1, ∀ x ∈ linksOf db z.1, Readable x.2.value) ∧
        insts = (ownedRows active db e.1).map (withPeers db db.peerLinks.toList) :=
    fun insts => mapM_eq_ok fun z _ inst => readInstance_eq_ok
  simp only [readMachine, bind_eq_ok, pure_eq_ok, hinsts]
  constructor
  · rintro ⟨_, ⟨hread, rfl⟩, rfl⟩
    exact ⟨hread, rfl⟩
  · rintro ⟨hread, rfl⟩
    exact ⟨_, ⟨hread, rfl⟩, rfl⟩

/-- The links that the peers query returns are those that are looked up. -/
theorem linksReadable_iff {es : List (Uuid × MachineRow)} :
    LinksReadable active db db (es.map Prod.fst) ↔
      ∀ e ∈ es, ∀ z ∈ ownedRows active db e.1, ∀ x ∈ linksOf db z.1, Readable x.2.value := by
  constructor
  · intro h e he z hz x hx
    obtain ⟨hlink, hsource⟩ := mem_linksOf.1 hx
    refine h x (List.mem_filter.2 ⟨Table.mem_toList.2 hlink, ?_⟩)
    have hz' : z ∈ instanceRows (es.map Prod.fst) active db := by
      rw [← filter_instanceRows (List.mem_map_of_mem he)] at hz
      exact List.mem_of_mem_filter hz
    simpa [hsource] using ⟨z.2, hz'⟩
  · intro h x hx
    obtain ⟨hlink, hsource⟩ := List.mem_filter.1 hx
    obtain ⟨z, hz, hzx⟩ := List.mem_map.1 (List.contains_iff_mem.1 hsource)
    obtain ⟨e, he, hez⟩ := List.mem_map.1 (mem_instanceRows.1 hz).2.1
    refine h e he z ?_ x (mem_linksOf.2 ⟨Table.mem_toList.1 hlink, hzx.symm⟩)
    rw [← filter_instanceRows (List.mem_map_of_mem he)]
    exact List.mem_filter.2 ⟨hz, decide_eq_true hez.symm⟩

/-- A batch that comes through has read every link. -/
theorem linksReadable_of_loadInstances {es : List (Uuid × MachineRow)} {machines : List Machine}
    (hnd : (es.map Prod.fst).Nodup)
    (h : loadInstances active db (es.map scanMachine) = .ok machines) :
    LinksReadable active db db (es.map Prod.fst) := by
  obtain ⟨locations, heq, -⟩ := @loadInstancesAt_eq_loadPeers db active db es hnd
  rw [show loadInstances active db (es.map scanMachine) = _ from heq, loadPeers] at h
  split at h
  · rename_i hnil
    rw [List.isEmpty_iff] at hnil
    intro x hx
    simp [linkRows, hnil] at hx
  · refine foldlM_forall (fun x _ s s' hplaced => ?_) h
    rw [placePeer, bind_eq_ok] at hplaced
    obtain ⟨peer, hpeer, -⟩ := hplaced
    exact (scanPeer_eq_ok.1 hpeer).1

/-- **Batched nesting is the join, row by row.** -/
theorem loadInstances_eq_ok {es : List (Uuid × MachineRow)} {machines : List Machine}
    (hnd : (es.map Prod.fst).Nodup) :
    loadInstances active db (es.map scanMachine) = .ok machines ↔
      es.mapM (readMachine active db) = .ok machines := by
  have hrows : es.mapM (readMachine active db) = .ok machines ↔
      (∀ e ∈ es, ∀ z ∈ ownedRows active db e.1, ∀ x ∈ linksOf db z.1, Readable x.2.value) ∧
        machines = es.map (nestedMachine active db) :=
    mapM_eq_ok fun e _ machine => readMachine_eq_ok
  rw [hrows, ← linksReadable_iff]
  constructor
  · intro h
    have hread := linksReadable_of_loadInstances hnd h
    rw [loadInstances_eq hread hnd] at h
    exact ⟨hread, (Except.ok.inj h).symm⟩
  · rintro ⟨hread, rfl⟩
    exact loadInstances_eq hread hnd

/-- A page that is read row by row has the records of its rows. -/
theorem rowByRow_recordOf {now : Timestamp} {query : TopologyQuery} {result : TopologyPage}
    (h : rowByRow now query db = .ok result) :
    List.Forall₂ (Machine.RecordOf query.active db db)
      (page Prod.fst query.pageLimit query.cursor (machineRows query db)).1 result.machines := by
  simp only [rowByRow, bind_eq_ok, pure_eq_ok] at h
  obtain ⟨machines, hmachines, rfl⟩ := h
  have hrows := (mapM_eq_ok (P := fun e => ∀ z ∈ ownedRows query.active db e.1,
    ∀ x ∈ linksOf db z.1, Readable x.2.value) (r := nestedMachine query.active db)
      fun e _ machine => readMachine_eq_ok).1 hmachines
  obtain ⟨hread, rfl⟩ := hrows
  rw [List.forall₂_map_right_iff, List.forall₂_same]
  exact fun e he => nestedFrom_recordOf (hread e he)

/-- **`CurrentTopology` returns the page that is read row by row.**  Its machines are, one after the
other, the records of the rows of the page, each with the records of all its instances that pass the
filter, in the order of their ids, and each of these with its node, if it has one, and with the
records of all its links, in the order of their peers. -/
theorem currentTopology_rowByRow (now : Timestamp) (query : TopologyQuery) (db : Db) :
    (∀ result, currentTopology now query db = .ok result ↔ rowByRow now query db = .ok result) ∧
    (∀ result, currentTopology now query db = .ok result →
      List.Forall₂ (Machine.RecordOf query.active db db)
        (page Prod.fst query.pageLimit query.cursor (machineRows query db)).1 result.machines) ∧
    (∀ m, (ownedRows query.active db m).Pairwise (fun a b => a.1 < b.1) ∧
      ∀ e, e ∈ ownedRows query.active db m ↔ db.networkInstances[e.1]? = some e.2 ∧
        e.2.value.machineID = m ∧ ∀ a ∈ query.active, e.2.active = a) ∧
    ∀ i, (linksOf db i).Pairwise (fun x y => x.1.destination < y.1.destination) ∧
      ∀ x, x ∈ linksOf db i ↔ db.peerLinks[x.1]? = some x.2 ∧ x.1.source = i := by
  have hsame : ∀ result,
      currentTopology now query db = .ok result ↔ rowByRow now query db = .ok result := by
    intro result
    simp only [currentTopology, rowByRow, bind_eq_ok, loadInstances_eq_ok (nodup_page query db)]
  exact ⟨hsame, fun result h => rowByRow_recordOf ((hsame result).1 h),
    fun m => ⟨pairwise_ownedRows query.active db m, fun e => mem_ownedRows⟩,
    fun i => ⟨pairwise_linksOf db i, fun x => mem_linksOf⟩⟩

end ReadModel

end NexusTier
