import NexusTier.Ingest.Storable
import NexusTier.ReadModel.Topology
import NexusTier.Relational.Keyed

/-!
# The error log of a collection

`Ingest` counts the errors of a snapshot before it writes anything, and later walks over the
snapshot a second time and writes them one by one, between the statements for machines and
instances.  `collectionErrors` reads them back by their index.

`Snapshot.errorLog` is the list that both walks are about.  What is read back is this list
(`collectionErrors_eq`, `Snapshot.Valid.mapIdx_readRow`), the stored number counts it
(`length_errorLog`), and no later call touches a row of it (`Op.exec_records`): a new run has
another id, and the cleaner leaves the table alone.

## What is here

* `Snapshot.errorLog`: the errors of a snapshot, numbered as both walks number them.
* `length_errorLog`: the walk that counts counts it.
* `Db.Records` and `Op.exec_records`: its rows, and that every call leaves them alone.
* `errorLog_exact`: what is read back, after any run of calls.

## What is left out

The texts of errors are kept as they are, so nothing is said about what they mean.
-/

set_option autoImplicit false

namespace NexusTier

open Relational ReadModel

/-! ## The list -/

/-- An error as it is read back, under an index. -/
def readError (scope : ErrorScope) (machineID instanceID : Option Uuid) (e : TelemetryError)
    (index : Nat) : CollectionError :=
  ⟨index, scope, machineID, instanceID, e.code, e.operation, e.message⟩

/-- The errors of a snapshot, numbered: its own, then machine by machine those of the machine and
those of its instances, with the ids of what they are about. -/
def Snapshot.errorLog (s : Snapshot) : List CollectionError :=
  let own := s.errors.elems.map (readError .snapshot none none)
  let ofMachines := s.machines.elems.flatMap fun machine =>
    machine.errors.elems.map (readError .machine (some machine.session.machineID) none) ++
      machine.instances.elems.flatMap fun inst =>
        inst.errors.elems.map
          (readError .networkInstance (some machine.session.machineID) (some inst.instanceID))
  (own ++ ofMachines).mapIdx fun i e => e i

/-- **The walk that counts counts the list.** -/
theorem length_errorLog (s : Snapshot) : s.errorLog.length = countErrors s := by
  simp [Snapshot.errorLog, countErrors, List.length_flatMap]

/-! ## What is written -/

theorem Snapshot.writes_errors (E : Encoding) (s : Snapshot) : (s.writes E).errors =
    s.errors.elems.map (errorRow .snapshot Uuid.nil Uuid.nil) ++
      s.machines.elems.flatMap fun machine =>
        machine.errors.elems.map (errorRow .machine machine.session.machineID Uuid.nil) ++
        machine.instances.elems.flatMap fun inst =>
          inst.errors.elems.map (errorRow .networkInstance machine.session.machineID
            inst.instanceID) := by
  have hmissing : (missingWrites s).errors = [] := by
    rw [missingWrites]; split <;> rfl
  simp [writes, errorWrites, machineWrites, instanceWrites, hmissing]

section

variable {collectionID : Uuid}

/-- The rows are stored under the indexes from the first on. -/
theorem getElem?_foldl_logError {rows : List ErrorRow} {p : Table ErrorKey ErrorRow × Nat}
    (h : ∀ n, p.2 ≤ n → p.1[(⟨collectionID, n⟩ : ErrorKey)]? = none) (n : Nat) :
    (rows.foldl (Writes.logError collectionID) p).1[(⟨collectionID, p.2 + n⟩ : ErrorKey)]? =
      rows[n]? := by
  induction rows generalizing p n with
  | nil => simpa using h (p.2 + n) (Nat.le_add_right _ _)
  | cons row rows ih =>
    rw [List.foldl_cons]
    cases n with
    | zero =>
      rw [getElem?_logErrors fun _ => Nat.lt_succ_self p.2]
      show (p.1.insert ⟨collectionID, p.2⟩ row)[(⟨collectionID, p.2⟩ : ErrorKey)]? = _
      rw [Table.getElem?_insert, if_pos rfl]
      rfl
    | succ n =>
      have hfree : ∀ m, p.2 + 1 ≤ m →
          (p.1.insert ⟨collectionID, p.2⟩ row)[(⟨collectionID, m⟩ : ErrorKey)]? = none := by
        intro m hm
        have hne : ¬ (⟨collectionID, p.2⟩ : ErrorKey) = ⟨collectionID, m⟩ := fun he =>
          absurd (congrArg ErrorKey.errorIndex he) (Nat.ne_of_lt hm)
        rw [Table.getElem?_insert, if_neg hne]
        exact h m (Nat.le_of_succ_le hm)
      have hnext := @ih (Writes.logError collectionID p row) hfree n
      rw [List.getElem?_cons_succ, ← hnext]
      congr 2
      show p.2 + (n + 1) = p.2 + 1 + n
      omega

/-- The rows of a collection are read in the order of their index. -/
theorem filter_toList_of_getElem? {t : Table ErrorKey ErrorRow} {rows : List ErrorRow}
    (h : ∀ n, t[(⟨collectionID, n⟩ : ErrorKey)]? = rows[n]?) :
    (t.toList.filter fun e => decide (e.1.collectionID = collectionID)) =
      rows.mapIdx fun i row => (⟨collectionID, i⟩, row) := by
  have hindexes : (rows.mapIdx fun i row => ((⟨collectionID, i⟩ : ErrorKey), row)).map
      (fun e => e.1.errorIndex) = List.range rows.length := by
    exact List.ext_getElem (by simp) (by simp)
  have hperm : (t.toList.filter fun e => decide (e.1.collectionID = collectionID)).Perm
      (rows.mapIdx fun i row => (⟨collectionID, i⟩, row)) := by
    refine Table.perm_filter_toList ?_ fun e => ?_
    · refine List.Nodup.of_map (fun e => e.1.errorIndex) ?_
      rw [hindexes]
      exact List.nodup_range
    · rw [List.mem_mapIdx]
      constructor
      · rintro ⟨i, hi, rfl⟩
        simp [h, hi]
      · rintro ⟨hrow, hid⟩
        obtain ⟨⟨c, n⟩, row⟩ := e
        obtain rfl : c = collectionID := by simpa using hid
        rw [h, List.getElem?_eq_some_iff] at hrow
        obtain ⟨hn, rfl⟩ := hrow
        exact ⟨n, hn, rfl⟩
  refine eq_of_perm_of_ascending (f := fun e => e.1.errorIndex) hperm ?_ ?_
  · refine List.Pairwise.imp_of_mem ?_ (Std.ExtTreeMap.ordered_keys_toList.filter _)
    intro a b ha hb hab
    have hida : a.1.collectionID = collectionID := by simpa using (List.mem_filter.1 ha).2
    have hidb : b.1.collectionID = collectionID := by simpa using (List.mem_filter.1 hb).2
    have hlt : compareColumns ErrorKey.collectionID ErrorKey.errorIndex a.1 b.1 = .lt := hab
    simp only [compareColumns, compareLex, compareOn, hida, hidb, Std.ReflOrd.compare_self,
      Ordering.eq_then] at hlt
    exact Nat.compare_eq_lt.1 hlt
  · have hsorted : ((rows.mapIdx fun i row => ((⟨collectionID, i⟩ : ErrorKey), row)).map
        fun e => e.1.errorIndex).Pairwise (· < ·) := by
      rw [hindexes]
      exact List.pairwise_lt_range
    exact List.pairwise_map.1 hsorted

end

/-! ## What is read back -/

/-- A row, as it is read under its index. -/
def readRow (index : Nat) (row : ErrorRow) : CollectionError :=
  ⟨index, row.scope, row.machineID, row.instanceID, row.code, row.operation, row.message⟩

theorem collectionErrors_eq {collectionID : Uuid} {rows : List ErrorRow} {db : Db}
    (h : ∀ n, db.collectionErrors[(⟨collectionID, n⟩ : ErrorKey)]? = rows[n]?) :
    collectionErrors collectionID db = rows.mapIdx readRow := by
  rw [collectionErrors, filter_toList_of_getElem? h]
  exact List.ext_getElem (by simp) (by simp [readRow])

theorem readRow_errorRow {scope : ErrorScope} {m i : Uuid} (e : TelemetryError) (n : Nat) :
    readRow n (errorRow scope m i e) =
      readError scope (if m = Uuid.nil then none else some m)
        (if i = Uuid.nil then none else some i) e n := rfl

/-- In a snapshot that `Validate` accepts no id is nil, so that a row says what the error is
about. -/
theorem Snapshot.Valid.mapIdx_readRow {s : Snapshot} (hv : s.Valid) (E : Encoding) :
    (s.writes E).errors.mapIdx readRow = s.errorLog := by
  have hread : (s.writes E).errors.map (fun row n => readRow n row) =
      s.errors.elems.map (readError .snapshot none none) ++ s.machines.elems.flatMap fun machine =>
        machine.errors.elems.map (readError .machine (some machine.session.machineID) none) ++
          machine.instances.elems.flatMap fun inst =>
            inst.errors.elems.map
              (readError .networkInstance (some machine.session.machineID)
                (some inst.instanceID)) := by
    rw [writes_errors, List.map_append, List.map_map, List.map_flatMap]
    refine congrArg₂ _ rfl (List.flatMap_congr fun machine hm => ?_)
    have hmachine := (hv.machines machine hm).machineID_ne
    rw [List.map_append, List.map_map, List.map_flatMap]
    refine congrArg₂ _ (List.map_congr_left fun e _ => ?_) (List.flatMap_congr fun inst hi => ?_)
    · funext n
      simp [readRow_errorRow, hmachine]
    · have hinst := ((hv.machines machine hm).instances inst hi).instanceID_ne
      rw [List.map_map]
      refine List.map_congr_left fun e _ => ?_
      funext n
      simp [readRow_errorRow, hmachine, hinst]
  rw [errorLog, ← hread]
  exact List.ext_getElem (by simp) (by simp)

/-! ## No call changes it -/

/-- The rows of a snapshot's errors, and the run that counts them. -/
structure Db.Records (E : Encoding) (s : Snapshot) (db : Db) : Prop where
  rows : ∀ n, db.collectionErrors[(⟨s.collectionID, n⟩ : ErrorKey)]? = (s.writes E).errors[n]?
  run : ∃ run, db.collectionRuns[s.collectionID]? = some run ∧ run.errorCount = countErrors s ∧
    run.status = (if countErrors s > 0 then .withErrors else .complete) ∧
    run.machineCount = s.machines.elems.length

section

variable {E : Encoding} {now : Timestamp} {s : Snapshot} {db : Db}

theorem Snapshot.apply_records (hdb : db.Logged)
    (hnew : db.collectionRuns[s.collectionID]? = none) : (s.apply E now db).Records E s := by
  have hfree : ∀ n, db.collectionErrors[(⟨s.collectionID, n⟩ : ErrorKey)]? = none := by
    intro n
    by_contra hne
    obtain ⟨row, hrow⟩ := Option.ne_none_iff_exists'.1 hne
    have hrun : db.collectionRuns.contains s.collectionID = true := hdb.errors _ row hrow
    rw [Std.ExtTreeMap.contains_eq_isSome_getElem?, hnew] at hrun
    simp at hrun
  refine ⟨fun n => ?_, runRow E now s, by simp, rfl, rfl, rfl⟩
  have hwritten := @getElem?_foldl_logError s.collectionID (s.writes E).errors
    (db.collectionErrors, 0) (fun m _ => hfree m) n
  rwa [Nat.zero_add] at hwritten

/-- A call keeps what is recorded: a new collection has another id, and a pruned run still counts
its errors. -/
theorem Op.exec_records (op : Op) (h : db.Records E s) : (op.exec E db).Records E s := by
  obtain ⟨run, hrun, hcount, hstatus, hmachines⟩ := h.run
  obtain he | ⟨now, s', _, _, hnew, _, he⟩ | ⟨p, he⟩ | ⟨now, cutoff, p, _, he⟩ :=
    op.exec_cases E db
  · rwa [he]
  · have hne : s.collectionID ≠ s'.collectionID := by
      rintro hid
      rw [← hid, hrun] at hnew
      exact absurd hnew (by simp)
    rw [he]
    refine ⟨fun n => ?_, run, ?_, hcount, hstatus, hmachines⟩
    · rw [← h.rows n]
      exact getElem?_logErrors fun hid => absurd hid hne
    · rw [Snapshot.apply_collectionRuns, Table.getElem?_insert, if_neg hne.symm, hrun]
  · rw [he]
    exact ⟨h.rows, h.run⟩
  · rw [he]
    refine ⟨h.rows, ?_⟩
    by_cases hp : p s.collectionID run = true
    · exact ⟨run.prune now, by simp [hrun, hp], hcount, hstatus, hmachines⟩
    · exact ⟨run, by simp [hrun, hp], hcount, hstatus, hmachines⟩

theorem execAll_records (ops : List Op) (h : db.Records E s) :
    (execAll E ops db).Records E s := by
  induction ops generalizing db with
  | nil => exact h
  | cons op ops ih => exact ih (op.exec_records h)

/-- **The error log of a collection is exact, and stays.**  Whatever is called after the snapshot
has been ingested, its errors are read back as they were listed, and its run counts them. -/
theorem errorLog_exact {db' : Db} (hdb : Reachable E db)
    (h : ingest E now s db = .ok (true, db')) (ops : List Op) :
    collectionErrors s.collectionID (execAll E ops db') = s.errorLog ∧
      s.errorLog.map CollectionError.index = List.range s.errorLog.length ∧
      ∃ run, (execAll E ops db').collectionRuns[s.collectionID]? = some run ∧
        run.errorCount = s.errorLog.length ∧
        (run.status = .withErrors ↔ 0 < s.errorLog.length) ∧
        run.machineCount = s.machines.elems.length := by
  obtain ⟨hv, hnew, rfl⟩ := ingest_eq_ok_true h
  have hrec : (execAll E ops (s.apply E now db)).Records E s :=
    execAll_records ops (s.apply_records hdb.logged hnew)
  obtain ⟨run, hrun, hcount, hstatus, hmachines⟩ := hrec.run
  refine ⟨?_, ?_, run, hrun, ?_, ?_, hmachines⟩
  · rw [collectionErrors_eq hrec.rows, hv.mapIdx_readRow]
  · rw [← hv.mapIdx_readRow E]
    exact List.ext_getElem (by simp) (by simp [readRow])
  · rw [hcount, length_errorLog]
  · rw [hstatus, length_errorLog]
    by_cases hn : countErrors s > 0 <;> simp [hn]

end

/-! ### A failed machine, a failed instance, and what comes later -/

/-- An error of its own, one of machine `a1` and one of instance `b1`. -/
def sampleFailures : Snapshot :=
  { sampleSnapshot 0xc1 1000 2000
      [{ sampleMachine 0xa1 1500
          [{ sampleInstance 0xb1 1600 [samplePeer 7] with
              errors := some [⟨"rpc_timeout", "list_peers", "late"⟩] }] with
          errors := some [⟨"rpc_error", "list_metrics", "refused"⟩] }] with
    errors := some [⟨"collection_timeout", "collect", "1 machine"⟩] }

def failuresEncoding : Encoding :=
  .recorded
    [(sampleFailures.payload, .ofFin 0xa19d93e6a2b4e0dd9a3b592ccea64cc31a159f167c874af0462ef9840af9a869),
      (sampleAbsence.payload,
        .ofFin 0xb0f22d22f1fd266f916bfedd90b012c9451649148267d40e752354131414a0b5)]

/-- Another collection, and the payload of the first is pruned. -/
def afterFailures : List Op := [.ingest 6000000 sampleAbsence, .prunePayloads 9000000 3000000 10]

theorem errorLog_exact_sampleFailures :
    sampleFailures.errorLog.map (fun e => (e.index, e.machineID, e.instanceID, e.operation)) =
        [(0, none, none, "collect"), (1, some 0xa1, none, "list_metrics"),
          (2, some 0xa1, some 0xb1, "list_peers")] ∧
      ∃ db, ingest failuresEncoding 5000000 sampleFailures Db.empty = .ok (true, db) ∧
        collectionErrors 0xc1 (execAll failuresEncoding afterFailures db) =
          sampleFailures.errorLog := by
  have hok : ∃ db, ingest failuresEncoding 5000000 sampleFailures Db.empty = .ok (true, db) :=
    ⟨sampleFailures.apply failuresEncoding 5000000 Db.empty, by decide +kernel⟩
  obtain ⟨db, hdb⟩ := hok
  exact ⟨by decide +kernel, db, hdb, (errorLog_exact ⟨[], rfl⟩ hdb afterFailures).1⟩

end NexusTier
