import NexusTier.ReadModel.Agreement

/-!
# Paging through a topology that changes

A client that follows `next_cursor` sends one request a page, and the controller goes on ingesting
in between.  `dbAt` is the database at each of these requests, and `followCursors` what the client
is sent.

Only the cursor goes from one request to the next, and it only goes up.  So the pages ascend, and
as there are finitely many ids the last page comes.  A machine that the filters select all the time
cannot fall between two pages: either it is on a page, or it comes after the cursor of the next.

## What is here

* `dbAt` and `followCursors`: the requests of a client, with what commits in between.
* `PagesOf`: what its pages are.
* `exists_pagesOf`: it comes to the last of them.
* `pages_complete`: they repeat nothing, and have every machine that is selected all the time.

## What is left out

The queries of one request see one state here; `ReadModel/Interleaved.lean` is about several.
-/

set_option autoImplicit false

namespace NexusTier

open Relational

namespace ReadModel

/-- The database at the `n`-th request, where `commits n` are the calls that commit before it and
after the one before. -/
def dbAt (E : Encoding) (commits : Nat → List Op) : Nat → Db
  | 0 => execAll E (commits 0) Db.empty
  | n + 1 => execAll E (commits (n + 1)) (dbAt E commits n)

/-- Follow the cursors from the first page on, for at most `fuel` pages; the `n`-th is read at time
`now n` from `dbs n`. -/
def followCursors (now : Nat → Timestamp) (query : TopologyQuery) (dbs : Nat → Db) (fuel : Nat) :
    Except ReadError (Option (List (List Machine))) :=
  readPages (fun n cursor => do
    let page ← currentTopology (now n) { query with cursor } (dbs n)
    return (page.machines, page.nextCursor)) fuel 0 query.cursor

/-- The filters select the machine. -/
def Selects (query : TopologyQuery) (db : Db) (machineID : Uuid) : Prop :=
  ∃ row, db.machines[machineID]? = some row ∧ (∀ active ∈ query.active, row.active = active) ∧
    ∀ id ∈ query.machineID, machineID = id

theorem mem_machineRows {query : TopologyQuery} {db : Db} {machineID : Uuid}
    (h : Selects query db machineID) : ∃ e ∈ machineRows query db, e.1 = machineID := by
  obtain ⟨row, hrow, hactive, hid⟩ := h
  refine ⟨(machineID, row), List.mem_filter.2 ⟨Table.mem_toList.2 hrow, ?_⟩, rfl⟩
  cases ha : query.active <;> cases hm : query.machineID <;> simp_all

theorem reachable_dbAt (E : Encoding) (commits : Nat → List Op) (n : Nat) :
    Reachable E (dbAt E commits n) := by
  induction n with
  | zero => exact ⟨commits 0, rfl⟩
  | succ n ih =>
    obtain ⟨ops, hops⟩ := ih
    refine ⟨ops ++ commits (n + 1), ?_⟩
    rw [dbAt, hops]
    simp [execAll]

theorem dbAt_eq {E : Encoding} {commits : Nat → List Op} (h : ∀ n, commits (n + 1) = []) (n : Nat) :
    dbAt E commits n = dbAt E commits 0 := by
  induction n with
  | zero => rfl
  | succ n ih =>
    have hsame : dbAt E commits (n + 1) = dbAt E commits n := by
      rw [dbAt, h]
      rfl
    rw [hsame, ih]

section

variable {dbs : Nat → Db} {query : TopologyQuery}

/-- The ids on the pages are those of the rows. -/
theorem machineIDs_pages (pages : List (List (Uuid × MachineRow))) :
    (pages.mapIdx fun i p => p.map (nestedMachine query.active (dbs i))).flatten.map
      Machine.machineID = pages.flatten.map Prod.fst := by
  rw [List.map_flatten, List.map_flatten]
  congr 1
  refine List.ext_getElem? fun i => ?_
  rw [List.getElem?_map, List.getElem?_map, List.getElem?_mapIdx, Option.map_map]
  refine congrArg (Option.map · pages[i]?) (funext fun p => ?_)
  rw [Function.comp_apply, List.map_map]
  rfl

/-- What the pages are of a topology that is `dbs n` when the `n`-th of them is read. -/
structure PagesOf (query : TopologyQuery) (dbs : Nat → Db) (pages : List (List Machine)) : Prop where
  ascending : (pages.flatten.map Machine.machineID).Pairwise (· < ·)
  length_le : ∀ p ∈ pages, p.length ≤ query.pageLimit
  complete : ∀ id, (∀ n < pages.length, Selects query (dbs n) id) →
    (pages.flatten.map Machine.machineID).count id = 1
  exact : (∀ n, dbs n = dbs 0) →
    pages.flatten = (machineRows query (dbs 0)).map (nestedMachine query.active (dbs 0))

/-- Pages of rows, as they are sent. -/
theorem pagesOf_rows {pages : List (List (Uuid × MachineRow))}
    (h : Paged Prod.fst query.pageLimit (fun n => machineRows query (dbs n)) 0 none pages) :
    PagesOf query dbs (pages.mapIdx fun i p => p.map (nestedMachine query.active (dbs i))) := by
  have hpos := pageLimit_pos query
  have hsorted : ∀ n, (machineRows query (dbs n)).Pairwise fun a b => a.1 < b.1 :=
    fun n => pairwise_machineRows query (dbs n)
  have hids := @machineIDs_pages dbs query pages
  have hascend : (pages.flatten.map Prod.fst).Pairwise (· < ·) :=
    List.pairwise_map.2 (h.ascending hpos hsorted)
  constructor
  · rw [hids]
    exact hascend
  · intro p hp
    obtain ⟨i, hi, rfl⟩ := List.mem_mapIdx.1 hp
    rw [List.length_map]
    exact h.length_le _ (List.getElem_mem hi)
  · intro id hselects
    rw [List.length_mapIdx] at hselects
    obtain ⟨e, he, heq⟩ := h.complete hpos hsorted (k := id) (by simp) fun i hi => by
      simpa using mem_machineRows (hselects i hi)
    rw [hids]
    exact List.count_eq_one_of_mem (hascend.imp ne_of_lt) (List.mem_map.2 ⟨e, he, heq⟩)
  · intro hsame
    have hflat : pages.flatten = machineRows query (dbs 0) := by
      rw [h.flatten_eq hpos (hsorted 0) fun n => by rw [hsame n], after_none]
    have hpages : (pages.mapIdx fun i p => p.map (nestedMachine query.active (dbs i))) =
        pages.map fun p => p.map (nestedMachine query.active (dbs 0)) := by
      refine List.ext_getElem? fun i => ?_
      rw [List.getElem?_mapIdx, List.getElem?_map, hsame]
    rw [hpages, ← List.map_flatten, hflat]

/-- A client whose requests read the store one after the other comes to the last page, and has the
pages of the topology as it changed. -/
theorem exists_pagesOf_of_fetch {ε : Type}
    {fetch : Nat → Option Uuid → Except ε (List Machine × Option Uuid)}
    (hfetch : ∀ n cursor, fetch n cursor =
      .ok ((page Prod.fst query.pageLimit cursor (machineRows query (dbs n))).1.map
          (nestedMachine query.active (dbs n)),
        (page Prod.fst query.pageLimit cursor (machineRows query (dbs n))).2)) :
    ∃ pages, (∀ fuel, pages.length ≤ fuel → readPages fetch fuel 0 none = .ok (some pages)) ∧
      PagesOf query dbs pages := by
  obtain ⟨rows, hrows⟩ := exists_paged Prod.fst query.pageLimit
    (fun n => machineRows query (dbs n)) 0 none
  refine ⟨_, fun fuel hfuel => ?_, pagesOf_rows hrows⟩
  rw [List.length_mapIdx] at hfuel
  have hread := hrows.readPages_eq hfetch hfuel
  simp only [Nat.zero_add] at hread
  exact hread

/-- **A client that follows the cursors comes to the last page.** -/
theorem exists_pagesOf (hdbs : ∀ n, DbReadable (dbs n)) (now : Nat → Timestamp)
    (hcursor : query.cursor = none) :
    ∃ pages, (∀ fuel, pages.length ≤ fuel → followCursors now query dbs fuel = .ok (some pages)) ∧
      PagesOf query dbs pages := by
  unfold followCursors
  rw [hcursor]
  refine exists_pagesOf_of_fetch fun n cursor => ?_
  rw [currentTopology_eq (hdbs n)]
  rfl

end

theorem readable_dbAt (E : Encoding) (commits : Nat → List Op) (n : Nat) :
    DbReadable (dbAt E commits n) :=
  readable_of_reachable (reachable_dbAt E commits n)

/-- **Paging loses nothing and repeats nothing, whatever is committed meanwhile.** -/
theorem pages_complete (E : Encoding) (commits : Nat → List Op) (now : Nat → Timestamp)
    (active : Option Bool) (machineID : Option Uuid) {limit : Int} (hlimit : 1 ≤ limit) :
    let query : TopologyQuery := ⟨active, machineID, none, limit⟩
    let db := dbAt E commits
    ∃ pages : List (List Machine),
      (∀ fuel, pages.length ≤ fuel → followCursors now query db fuel = .ok (some pages)) ∧
      (pages.flatten.map Machine.machineID).Pairwise (· < ·) ∧
      (∀ p ∈ pages, (p.length : Int) ≤ limit) ∧
      (∀ id, (∀ n < pages.length, Selects query (db n) id) →
        (pages.flatten.map Machine.machineID).count id = 1) ∧
      ((∀ n, commits (n + 1) = []) →
        pages.flatten = (machineRows query (db 0)).map (nestedMachine active (db 0))) := by
  intro query db
  have hlen : (query.pageLimit : Int) = limit := by
    have hpositive : ¬query.limit ≤ 0 := Int.not_le.2 hlimit
    rw [TopologyQuery.pageLimit, if_neg hpositive]
    exact Int.toNat_of_nonneg (Int.le_of_lt hlimit)
  obtain ⟨pages, hread, hpages⟩ := @exists_pagesOf db query (readable_dbAt E commits) now rfl
  refine ⟨pages, hread, hpages.ascending, fun p hp => ?_, hpages.complete, fun hquiet => ?_⟩
  · rw [← hlen]
    exact Int.ofNat_le.2 (hpages.length_le p hp)
  · exact hpages.exact (dbAt_eq hquiet)

/-- Machines `a1` and `a2` are there at the first request, and a late report comes in before the
second. -/
def lateReport : Nat → List Op
  | 0 => [.ingest 5000000 sampleMove]
  | 1 => [.ingest 6000000 sampleReport]
  | _ => []

theorem pages_complete_lateReport :
    (followCursors (fun _ => 7000000) ⟨some true, none, none, 1⟩ (dbAt moveEncoding lateReport) 2).map
        (Option.map (List.map (List.map Machine.machineID))) = .ok (some [[0xa1], [0xa2]]) ∧
      ∃ pages, (∀ fuel, pages.length ≤ fuel → followCursors (fun _ => 7000000)
          ⟨some true, none, none, 1⟩ (dbAt moveEncoding lateReport) fuel = .ok (some pages)) ∧
        (pages.flatten.map Machine.machineID).count 0xa2 = 1 := by
  have hlast : ∀ n, dbAt moveEncoding lateReport (n + 1) = dbAt moveEncoding lateReport 1 := by
    intro n
    induction n with
    | zero => rfl
    | succ n ih => exact ih
  have hactive : ∀ n, ((dbAt moveEncoding lateReport n).machines[(0xa2 : Uuid)]?.map fun row =>
      row.active) = some true := by
    intro n
    cases n with
    | zero => decide +kernel
    | succ n =>
      rw [hlast]
      decide +kernel
  obtain ⟨pages, hread, -, -, hcount, -⟩ := @pages_complete moveEncoding lateReport
    (fun _ => 7000000) (some true) none 1 (by decide)
  refine ⟨by decide +kernel, pages, hread, hcount 0xa2 fun n _ => ?_⟩
  obtain ⟨row, hrow, htrue⟩ := Option.map_eq_some_iff.1 (hactive n)
  exact ⟨row, hrow, by simpa using htrue, by simp⟩

end ReadModel

end NexusTier
