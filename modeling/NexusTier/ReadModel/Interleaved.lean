import NexusTier.ReadModel.Agreement
import NexusTier.ReadModel.ErrorLog
import NexusTier.ReadModel.Records

/-!
# A page whose queries see different states

`CurrentTopology` issues up to five queries on the pool, one after the other and without a
transaction, and the controller goes on ingesting.  `Moments` are the states that the queries see,
and `currentTopologyAt` is the call.

Each part of the page is then that of its own moment (`Mixed`).  The errors are the exception:
those of a stored collection do not change any more, so they belong to the state in which the latest
collection was read.  The parts belong together if no snapshot is stored between the first query and
the last; what retention deletes meanwhile is not on the page.

## What is here

* `currentTopologyAt` — the call, over the moments of its queries.
* `page_of_moments` — what the page is made of, and when it is that of one state.
* `page_mixes_states` — a page that is that of no state.
-/

set_option autoImplicit false

namespace NexusTier

open Relational

/-! ## Errors of a stored collection -/

/-- Every stored collection records the errors of a snapshot. -/
theorem Reachable.records {E : Encoding} {db : Db} (h : Reachable E db) {id : Uuid} {run : RunRow}
    (hrun : db.collectionRuns[id]? = some run) : ∃ s, s.collectionID = id ∧ db.Records E s := by
  refine (h.induct (P := fun db => db.Logged ∧ ∀ (id : Uuid) run,
    db.collectionRuns[id]? = some run → ∃ s, s.collectionID = id ∧ db.Records E s)
      ⟨⟨Table.all_empty, Table.all_empty⟩, by simp [Db.empty]⟩ ?_).2 id run hrun
  rintro db op ⟨hlogged, hdb⟩
  refine ⟨op.exec_logged hlogged, fun id run hrun => ?_⟩
  have hold : ∀ run, db.collectionRuns[id]? = some run →
      ∃ s, s.collectionID = id ∧ (op.exec E db).Records E s := by
    intro run hrun
    obtain ⟨s, hid, hs⟩ := hdb id run hrun
    exact ⟨s, hid, op.exec_records hs⟩
  obtain he | ⟨now, s, _, _, hnew, _, he⟩ | ⟨p, he⟩ | ⟨now, cutoff, p, _, he⟩ :=
    op.exec_cases E db
  · exact hold run (he ▸ hrun)
  · by_cases hid : s.collectionID = id
    · exact ⟨s, hid, he ▸ s.apply_records hlogged hnew⟩
    · rw [he, Snapshot.apply_collectionRuns, Table.getElem?_insert, if_neg hid] at hrun
      exact hold run hrun
  · rw [he] at hrun
    exact hold run hrun
  · rw [he, Table.getElem?_updateWhere, Option.map_eq_some_iff] at hrun
    obtain ⟨old, hrun, -⟩ := hrun
    exact hold old hrun

namespace ReadModel

/-- The errors of a stored collection stay as they are. -/
theorem collectionErrors_execAll {E : Encoding} {db : Db} (h : Reachable E db) {id : Uuid}
    {run : RunRow} (hrun : db.collectionRuns[id]? = some run) (ops : List Op) :
    collectionErrors id (execAll E ops db) = collectionErrors id db := by
  obtain ⟨s, rfl, hs⟩ := h.records hrun
  rw [collectionErrors_eq (execAll_records ops hs).rows, collectionErrors_eq hs.rows]

theorem latestCollection_stored {db : Db} {c : CollectionSummary}
    (h : latestCollection db = some c) : ∃ run, db.collectionRuns[c.collectionID]? = some run := by
  obtain ⟨e, he, rfl⟩ := Option.map_eq_some_iff.1 h
  exact ⟨e.2, Table.mem_toList.1 ((List.mem_insertionSort _).1 (List.mem_of_head? he))⟩

/-! ## The call -/

/-- The states of the database that the queries of a call see. -/
structure Moments where
  latest : Db
  errors : Db
  machines : Db
  instances : Db
  peers : Db

/-- The states, where the lists are what commits between one query and the next. -/
def moments (E : Encoding) (db : Db) (toErrors toMachines toInstances toPeers : List Op) :
    Moments where
  latest := db
  errors := execAll E toErrors db
  machines := execAll E (toErrors ++ toMachines) db
  instances := execAll E (toErrors ++ toMachines ++ toInstances) db
  peers := execAll E (toErrors ++ toMachines ++ toInstances ++ toPeers) db

/-- `CurrentTopology`, at time `now`. -/
def currentTopologyAt (now : Timestamp) (query : TopologyQuery) (dbs : Moments) :
    Except ReadError TopologyPage := do
  let latest := latestCollection dbs.latest
  let (rows, nextCursor) :=
    page Prod.fst query.pageLimit query.cursor (machineRows query dbs.machines)
  let machines ← loadInstancesAt query.active dbs.instances dbs.peers (rows.map scanMachine)
  return {
    generatedAt := now
    latestCollection := latest
    latestErrors := (latest.map fun c => collectionErrors c.collectionID dbs.errors).getD []
    machines
    limit := query.pageLimit
    nextCursor }

/-- Undisturbed, it is the call that was modelled before. -/
theorem currentTopologyAt_same (now : Timestamp) (query : TopologyQuery) (db : Db) :
    currentTopologyAt now query ⟨db, db, db, db, db⟩ = currentTopology now query db := rfl

/-- What a page is made of when its queries see `dbs`. -/
structure Mixed (query : TopologyQuery) (dbs : Moments) (result : TopologyPage) : Prop where
  latest : result.latestCollection = latestCollection dbs.latest
  errors : result.latestErrors = ((latestCollection dbs.latest).map fun c =>
    collectionErrors c.collectionID dbs.latest).getD []
  machines : result.machines =
    (page Prod.fst query.pageLimit query.cursor (machineRows query dbs.machines)).1.map
      (nestedFrom query.active dbs.instances dbs.peers)
  /-- They are the records of their rows: instances with their nodes at one moment, peers at the
  next. -/
  records : List.Forall₂ (Machine.RecordOf query.active dbs.instances dbs.peers)
    (page Prod.fst query.pageLimit query.cursor (machineRows query dbs.machines)).1 result.machines
  nextCursor : result.nextCursor =
    (page Prod.fst query.pageLimit query.cursor (machineRows query dbs.machines)).2

section

variable {E : Encoding} {db : Db}

theorem reachable_execAll (h : Reachable E db) (ops : List Op) : Reachable E (execAll E ops db) := by
  obtain ⟨before, rfl⟩ := h
  exact ⟨before ++ ops, (execAll_append E before ops Db.empty).symm⟩

/-- A run that stores no snapshot leaves the current topology alone. -/
theorem execAll_of_accepted_eq_nil {ops : List Op} (h : accepted E ops db = []) :
    (execAll E ops db).machines = db.machines ∧
      (execAll E ops db).networkInstances = db.networkInstances ∧
      (execAll E ops db).nodes = db.nodes ∧ (execAll E ops db).peerLinks = db.peerLinks := by
  rw [execAll_machines, execAll_networkInstances, execAll_nodes, execAll_peerLinks, h]
  exact ⟨rfl, rfl, rfl, rfl⟩

theorem nestedFrom_eq {active : Option Bool} {dbI dbP : Db}
    (hinstances : dbI.networkInstances = db.networkInstances) (hnodes : dbI.nodes = db.nodes)
    (hpeers : dbP.peerLinks = db.peerLinks) :
    nestedFrom active dbI dbP = nestedMachine active db := by
  have hwith : ∀ links, withPeers dbI links = withPeers db links := fun links => by
    funext e
    rw [withPeers, withPeers, scanInstance, hnodes, scanInstance]
  funext e
  simp only [nestedFrom, nestedMachine, ownedRows, hinstances, hpeers, hwith]

/-- **A page is a mixture of the states that its queries see, and a consistent one if no snapshot is
stored in between.**  Its machines are the records of the rows that the queries see
(`Machine.RecordOf`). -/
theorem page_of_moments (hdb : Reachable E db) (now : Timestamp) (query : TopologyQuery)
    (toErrors toMachines toInstances toPeers : List Op) :
    let dbs := moments E db toErrors toMachines toInstances toPeers
    (∃ result, currentTopologyAt now query dbs = .ok result ∧ Mixed query dbs result) ∧
      (accepted E (toErrors ++ toMachines ++ toInstances ++ toPeers) db = [] →
        currentTopologyAt now query dbs = currentTopology now query db) := by
  intro dbs
  have hread : DbReadable dbs.peers :=
    readable_of_reachable (reachable_execAll hdb (toErrors ++ toMachines ++ toInstances ++ toPeers))
  have herrors : ((latestCollection db).map fun c => collectionErrors c.collectionID dbs.errors).getD
      [] = ((latestCollection db).map fun c => collectionErrors c.collectionID db).getD [] := by
    cases hc : latestCollection db with
    | none => rfl
    | some c =>
      obtain ⟨run, hrun⟩ := latestCollection_stored hc
      exact collectionErrors_execAll hdb hrun toErrors
  have hpage : currentTopologyAt now query dbs = .ok
      { generatedAt := now
        latestCollection := latestCollection db
        latestErrors := ((latestCollection db).map fun c =>
          collectionErrors c.collectionID db).getD []
        machines := (page Prod.fst query.pageLimit query.cursor
          (machineRows query dbs.machines)).1.map (nestedFrom query.active dbs.instances dbs.peers)
        limit := query.pageLimit
        nextCursor :=
          (page Prod.fst query.pageLimit query.cursor (machineRows query dbs.machines)).2 } := by
    rw [← herrors]
    simp only [currentTopologyAt, loadInstancesAt_eq (hread.links query.active _ _)
      (nodup_page query dbs.machines), bind, Except.bind, pure, Except.pure]
    rfl
  have hrecords : List.Forall₂ (Machine.RecordOf query.active dbs.instances dbs.peers)
      (page Prod.fst query.pageLimit query.cursor (machineRows query dbs.machines)).1
      ((page Prod.fst query.pageLimit query.cursor (machineRows query dbs.machines)).1.map
        (nestedFrom query.active dbs.instances dbs.peers)) := by
    rw [List.forall₂_map_right_iff, List.forall₂_same]
    exact fun e _ => nestedFrom_recordOf fun z _ x hx => hread.linksOf hx
  refine ⟨⟨_, hpage, rfl, rfl, rfl, hrecords, rfl⟩, fun hnone => ?_⟩
  -- nothing was stored up to any of the moments
  obtain ⟨hthree, hfour⟩ := List.append_eq_nil_iff.1 ((accepted_append _ toPeers).symm.trans hnone)
  have htwo := (List.append_eq_nil_iff.1 ((accepted_append _ toInstances).symm.trans hthree)).1
  have hrows : machineRows query dbs.machines = machineRows query db := by
    show machineRows query (execAll E (toErrors ++ toMachines) db) = _
    rw [machineRows, (execAll_of_accepted_eq_nil htwo).1, machineRows]
  have hinstances := execAll_of_accepted_eq_nil hthree
  have hnested : nestedFrom query.active dbs.instances dbs.peers = nestedMachine query.active db :=
    nestedFrom_eq hinstances.2.1 hinstances.2.2.1 (execAll_of_accepted_eq_nil hnone).2.2.2
  rw [hpage, currentTopology_eq (readable_of_reachable hdb), hrows, hnested]

end

/-! ### The first report comes in after the first query -/

/-- The active topology, first page. -/
def firstPage : TopologyQuery := ⟨some true, none, none, 100⟩

theorem page_of_moments_pruning :
    currentTopologyAt 9000000 firstPage (moments sampleEncoding
        (execAll sampleEncoding [.ingest 5000000 sampleReport] Db.empty) []
        [.prunePayloads 9000000 3000000 10] [] []) =
      currentTopology 9000000 firstPage
        (execAll sampleEncoding [.ingest 5000000 sampleReport] Db.empty) :=
  (page_of_moments ⟨_, rfl⟩ 9000000 firstPage [] [.prunePayloads 9000000 3000000 10] [] []).2 rfl

/-- **A page need not be that of any state.**  The first snapshot is stored after the latest
collection has been looked for, and before the machines are read: the page has a machine, and no
collection. -/
theorem page_mixes_states :
    (currentTopologyAt 7000000 firstPage (moments sampleEncoding Db.empty []
        [.ingest 5000000 sampleReport] [] [])).map (fun result =>
          (result.latestCollection, result.machines.map Machine.machineID)) = .ok (none, [0xa1]) ∧
      ∀ ops, ops <+: [.ingest 5000000 sampleReport] →
        currentTopologyAt 7000000 firstPage (moments sampleEncoding Db.empty []
            [.ingest 5000000 sampleReport] [] []) ≠
          currentTopology 7000000 firstPage (execAll sampleEncoding ops Db.empty) := by
  refine ⟨by decide +kernel, fun ops hops => ?_⟩
  rcases List.prefix_cons_iff.1 hops with rfl | ⟨rest, rfl, hrest⟩
  · decide +kernel
  · rw [List.prefix_nil.1 hrest]
    decide +kernel

end ReadModel

end NexusTier
