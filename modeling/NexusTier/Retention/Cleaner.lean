import NexusTier.Relational.Batch
import NexusTier.Retention.Store

/-!
# The retention cleaner

`retention/cleaner.go`: `cleanup` deletes the expired samples batch by batch, then prunes the
expired payloads batch by batch, and a deferred function brings the counts into the status whether
or not a call has failed.

A call of the store is answered by a `StoreCall`, which says what else reaches the database before
it, what the server chooses, and whether the caller gets an error.  A statement whose caller gets an
error may have been executed all the same; what counts are the calls that return, and `World` keeps
the books on them from the tables themselves.

## What is here

* `Cleaner.cleanup` and `Cleaner.run` — the code;
* `deleteStatement_counts`, `pruneStatement_counts` — what the two statements do to the tables;
* `loopOn_sweep_stops` — its last call is the only one that may have failed;
* `loopOn_sweep_counts` — its count is what its calls have done;
* `loopOn_sweep_isSome` — without other writers it ends after `passes` calls at most.

What a cleanup makes of a database is in `Retention/Expiry.lean`.

## What is left out

The logger, the copy of the status that `Status` returns, and the nanoseconds that a `timestamptz`
does not have.
-/

set_option autoImplicit false

namespace NexusTier

open Relational

namespace Retention

/-! ## The store -/

/-- How a call of the store goes. -/
structure StoreCall where
  /-- What else has reached the database since the last call. -/
  meanwhile : List Op
  tie : MetricKey → Nat
  /-- The server's time. -/
  now : Timestamp
  /-- The error of the call, if it has one, and whether the statement was executed. -/
  failure : Option (String × Bool)

/-- How many samples are gone. -/
def rowsDeleted (before after : Db) : Nat :=
  (before.metricSamples.toList.filter fun e => !after.metricSamples.contains e.1).length

/-- How many payloads have been pruned. -/
def payloadsPruned (before after : Db) : Nat :=
  (before.collectionRuns.toList.filter fun e => e.2.payloadPrunedAt.isNone &&
    after.collectionRuns[e.1]?.any fun run => run.payloadPrunedAt.isSome).length

/-- The database, and what the calls that have returned did to it. -/
structure World where
  db : Db
  deletedRows : Nat
  prunedPayloads : Nat

/-- The world once a call has returned that made `db'` of `db`. -/
def World.returned (w : World) (db db' : Db) : World :=
  ⟨db', w.deletedRows + rowsDeleted db db', w.prunedPayloads + payloadsPruned db db'⟩

/-- A statement of `PostgreSQLStore`, and what its errors are wrapped in. -/
structure Statement where
  what : String
  run : StoreCall → Db → Nat × Db

/-- The statement of `DeleteMetricSamplesBefore`. -/
def deleteStatement (cutoff : Timestamp) (limit : Int64) : Statement :=
  ⟨"delete expired metric samples",
    fun call => deleteMetricSamplesBefore call.tie cutoff limit.toNatClampNeg⟩

/-- The statement of `PruneCollectionPayloadsBefore`. -/
def pruneStatement (cutoff : Timestamp) (limit : Int64) : Statement :=
  ⟨"prune expired collection payloads",
    fun call => pruneCollectionPayloadsBefore call.now cutoff limit.toNatClampNeg⟩

/-- The database that a call finds. -/
def StoreCall.found (E : Encoding) (call : StoreCall) (w : World) : Db :=
  execAll E call.meanwhile w.db

/-- `pool.Exec` of a statement: `RowsAffected`, or the wrapped error. -/
def Statement.exec (E : Encoding) (statement : Statement) (call : StoreCall) (w : World) :
    Except String Int64 × World :=
  let (count, db) := statement.run call (call.found E w)
  match call.failure with
  | none => (.ok (Int64.ofNat count), w.returned (call.found E w) db)
  | some (cause, executed) =>
    (.error (statement.what ++ ": " ++ cause),
      { w with db := if executed then db else call.found E w })

/-! ## The cleaner -/

/-- `Status`, without the texts that `New` fills in. -/
structure Status where
  running : Bool
  lastStartedAt : Option Timestamp
  lastCompletedAt : Option Timestamp
  lastDeletedSamples : Int64
  totalDeletedSamples : UInt64
  lastPrunedPayloads : Int64
  totalPrunedPayloads : UInt64
  lastError : String
deriving DecidableEq

structure Cleaner where
  retention : Int
  batchSize : Int64
  status : Status
deriving DecidableEq

def new (retention : Int) (batchSize : Int64) : Cleaner :=
  ⟨retention, batchSize, ⟨false, none, none, 0, 0, 0, 0, ""⟩⟩

/-- What a loop of `cleanup` ends with. -/
structure Swept where
  count : Int64
  err : Option String
  world : World

/-- A pass of either loop. -/
def sweep (E : Encoding) (statement : Statement) (batchSize : Int64) (call : StoreCall)
    (s : Int64 × World) : (Int64 × World) ⊕ Swept :=
  match statement.exec E call s.2 with
  | (.error err, w) => .inr ⟨s.1, some err, w⟩
  | (.ok count, w) =>
    if count < batchSize then .inr ⟨s.1 + count, none, w⟩ else .inl (s.1 + count, w)

def Cleaner.start (cleaner : Cleaner) (startedAt : Timestamp) : Cleaner :=
  { cleaner with
    status := { cleaner.status with
      running := true
      lastStartedAt := some startedAt } }

/-- The deferred function. -/
def Cleaner.finish (cleaner : Cleaner) (completedAt : Timestamp) (deleted pruned : Int64)
    (cleanupError : Option String) : Cleaner :=
  { cleaner with
    status := { cleaner.status with
      running := false
      lastCompletedAt := some completedAt
      lastDeletedSamples := deleted
      lastPrunedPayloads := pruned
      totalDeletedSamples := cleaner.status.totalDeletedSamples + deleted.toUInt64
      totalPrunedPayloads := cleaner.status.totalPrunedPayloads + pruned.toUInt64
      lastError := cleanupError.getD "" } }

/-- `cleanup`, and the calls it did not make.  `none`: it is still running when there are no more
calls. -/
def Cleaner.cleanup (E : Encoding) (cleaner : Cleaner) (startedAt completedAt : Timestamp)
    (calls : List StoreCall) (w : World) : Option ((Cleaner × World) × List StoreCall) :=
  let cleaner := cleaner.start startedAt
  let cutoff := startedAt - cleaner.retention
  match loopOn (sweep E (deleteStatement cutoff cleaner.batchSize) cleaner.batchSize)
      calls (0, w) with
  | none => none
  | some (deleted, calls) =>
    match deleted.err with
    | some err =>
      some ((cleaner.finish completedAt deleted.count 0 (some err), deleted.world), calls)
    | none =>
      match loopOn (sweep E (pruneStatement cutoff cleaner.batchSize) cleaner.batchSize)
          calls (0, deleted.world) with
      | none => none
      | some (pruned, calls) =>
        some ((cleaner.finish completedAt deleted.count pruned.count pruned.err, pruned.world),
          calls)

/-- A call of `cleanup`: when it starts and completes, and the calls of the store it can make. -/
structure Cleanup where
  startedAt : Timestamp
  completedAt : Timestamp
  calls : List StoreCall

/-- `Run`: one cleanup after the other. -/
def Cleaner.run (E : Encoding) (cleanups : List Cleanup) (s : Cleaner × World) :
    Option (Cleaner × World) :=
  cleanups.foldlM
    (fun s c => (s.1.cleanup E c.startedAt c.completedAt c.calls s.2).map Prod.fst) s

/-! ## The two statements -/

section Statements

variable {tie : MetricKey → Nat} {now cutoff : Timestamp} {limit : Nat} {db db' : Db}

/-- The samples a cleanup has to delete. -/
def sampleExpired (cutoff : Timestamp) (e : MetricKey × MetricRow) : Bool :=
  decide (e.2.observedAt < cutoff)

/-- How many there are. -/
def expiredCount (cutoff : Timestamp) (db : Db) : Nat :=
  (db.metricSamples.toList.filter (sampleExpired cutoff)).length

/-- How many payloads a cleanup has to prune. -/
def prunableCount (cutoff : Timestamp) (db : Db) : Nat :=
  (db.collectionRuns.toList.filter fun e => e.2.prunable cutoff).length

theorem not_prunable_prune {run : RunRow} : (run.prune now).prunable cutoff = false := by
  simp [RunRow.prunable, RunRow.prune]

theorem prunable_payloadPrunedAt {run : RunRow} (h : run.prunable cutoff = true) :
    run.payloadPrunedAt = none := by
  simp only [RunRow.prunable, Bool.and_eq_true, Option.isNone_iff_eq_none] at h
  exact h.1.2

/-- The order of the samples. -/
abbrev OlderSample (tie : MetricKey → Nat) (a b : MetricKey × MetricRow) : Prop :=
  toLex (a.2.observedAt, tie a.1) ≤ toLex (b.2.observedAt, tie b.1)

/-- The order of the runs. -/
abbrev OlderRun (a b : Uuid × RunRow) : Prop := a.2.completedAt ≤ b.2.completedAt

/-- The batch of the samples, as a batch of the table. -/
theorem expiredSamples_eq : expiredSamples tie cutoff limit db =
    Table.batch (sampleExpired cutoff) (OlderSample tie) limit db.metricSamples := rfl

theorem expiredPayloads_eq : expiredPayloads cutoff limit db =
    Table.batch (fun e => e.2.prunable cutoff) OlderRun limit db.collectionRuns := rfl

theorem getElem?_deleteMetricSamplesBefore (key : MetricKey) :
    (deleteMetricSamplesBefore tie cutoff limit db).2.metricSamples[key]? =
      if key ∈ expiredSamples tie cutoff limit db then none else db.metricSamples[key]? := by
  rw [deleteMetricSamplesBefore, Table.getElem?_deleteWhere]
  by_cases h : key ∈ expiredSamples tie cutoff limit db
  · simp [h]
  · cases db.metricSamples[key]? <;> simp [h]

theorem getElem?_pruneCollectionPayloadsBefore (id : Uuid) :
    (pruneCollectionPayloadsBefore now cutoff limit db).2.collectionRuns[id]? =
      db.collectionRuns[id]?.map fun run =>
        if id ∈ expiredPayloads cutoff limit db then run.prune now else run := by
  simp only [pruneCollectionPayloadsBefore, Table.getElem?_updateWhere, List.contains_iff_mem]

theorem deleteMetricSamplesBefore_count : (deleteMetricSamplesBefore tie cutoff limit db).1 =
    min limit (expiredCount cutoff db) := by
  rw [deleteMetricSamplesBefore, expiredSamples_eq, Table.length_batch, Table.length_selected]
  rfl

theorem pruneCollectionPayloadsBefore_count :
    (pruneCollectionPayloadsBefore now cutoff limit db).1 = min limit (prunableCount cutoff db) := by
  rw [pruneCollectionPayloadsBefore, expiredPayloads_eq, Table.length_batch, Table.length_selected]
  rfl

theorem expiredCount_delete : expiredCount cutoff (deleteMetricSamplesBefore tie cutoff limit db).2 =
    expiredCount cutoff db - limit := by
  have h : (Table.selected (sampleExpired cutoff) (OlderSample tie)
      (deleteMetricSamplesBefore tie cutoff limit db).2.metricSamples).length =
        (Table.selected (sampleExpired cutoff) (OlderSample tie) db.metricSamples).length -
          limit := by
    refine Table.length_selected_of_dealt fun k v _ => ?_
    rw [← expiredSamples_eq, getElem?_deleteMetricSamplesBefore]
    by_cases hk : k ∈ expiredSamples tie cutoff limit db <;> simp [hk]
  rwa [Table.length_selected, Table.length_selected] at h

theorem prunableCount_prune :
    prunableCount cutoff (pruneCollectionPayloadsBefore now cutoff limit db).2 =
      prunableCount cutoff db - limit := by
  have h : (Table.selected (fun e => e.2.prunable cutoff) OlderRun
      (pruneCollectionPayloadsBefore now cutoff limit db).2.collectionRuns).length =
        (Table.selected (fun e => e.2.prunable cutoff) OlderRun db.collectionRuns).length -
          limit := by
    refine Table.length_selected_of_dealt fun k v hv => ?_
    rw [← expiredPayloads_eq, getElem?_pruneCollectionPayloadsBefore, Option.map_eq_some_iff]
    constructor
    · rintro ⟨run, hrun, heq⟩
      by_cases hk : k ∈ expiredPayloads cutoff limit db
      · rw [if_pos hk] at heq
        rw [← heq, not_prunable_prune] at hv
        cases hv
      · rw [if_neg hk] at heq
        exact ⟨heq ▸ hrun, hk⟩
    · rintro ⟨hrun, hk⟩
      exact ⟨v, hrun, if_neg hk⟩
  rwa [Table.length_selected, Table.length_selected] at h

/-- What is deleted is what the call says. -/
theorem rowsDeleted_delete : rowsDeleted db (deleteMetricSamplesBefore tie cutoff limit db).2 =
    (deleteMetricSamplesBefore tie cutoff limit db).1 := by
  refine Table.length_filter_of_batch fun k v hv => ?_
  change _ ↔ k ∈ expiredSamples tie cutoff limit db
  rw [Std.ExtTreeMap.contains_eq_isSome_getElem?, getElem?_deleteMetricSamplesBefore, hv]
  by_cases hk : k ∈ expiredSamples tie cutoff limit db <;> simp [hk]

theorem payloadsPruned_prune :
    payloadsPruned db (pruneCollectionPayloadsBefore now cutoff limit db).2 =
      (pruneCollectionPayloadsBefore now cutoff limit db).1 := by
  refine Table.length_filter_of_batch fun k v hv => ?_
  rw [← expiredPayloads_eq]
  simp only [getElem?_pruneCollectionPayloadsBefore, hv, Option.map_some, Option.any_some,
    Bool.and_eq_true, Option.isNone_iff_eq_none]
  constructor
  · rintro ⟨hnone, hsome⟩
    by_contra hk
    rw [if_neg hk, hnone] at hsome
    cases hsome
  · intro hk
    obtain ⟨run, hrun, hp⟩ := Table.exists_of_mem_batch hk
    obtain rfl : v = run := Option.some.inj (hv.symm.trans hrun)
    exact ⟨prunable_payloadPrunedAt hp, by rw [if_pos hk]; rfl⟩

theorem rowsDeleted_eq_zero (h : db'.metricSamples = db.metricSamples) : rowsDeleted db db' = 0 := by
  rw [rowsDeleted, h, List.length_eq_zero_iff, List.filter_eq_nil_iff]
  intro e he
  simp [Std.ExtTreeMap.contains_eq_isSome_getElem?, Table.mem_toList.1 he]

theorem payloadsPruned_eq_zero (h : db'.collectionRuns = db.collectionRuns) :
    payloadsPruned db db' = 0 := by
  rw [payloadsPruned, h, List.length_eq_zero_iff, List.filter_eq_nil_iff]
  intro e he
  cases hp : e.2.payloadPrunedAt <;> simp [Table.mem_toList.1 he, hp]

end Statements

/-- A batch is short as an `int64` when it is short. -/
theorem ofNat_lt_iff {n : Nat} {batchSize : Int64} (hbatch : 0 < batchSize)
    (hn : n ≤ batchSize.toNatClampNeg) :
    Int64.ofNat n < batchSize ↔ n < batchSize.toNatClampNeg := by
  have hlt := batchSize.toNatClampNeg_lt
  rw [Int64.lt_iff_toInt_lt, Int64.toInt_ofNat_of_lt (by omega),
    ← Int64.cast_toNatClampNeg batchSize (Int64.le_of_lt hbatch), Int.ofNat_lt]

/-! ## A pass -/

section Passes

variable {E : Encoding} {statement : Statement} {batchSize : Int64} {call : StoreCall}
  {calls rest : List StoreCall} {s s' : Int64 × World} {w : World} {r : Swept}

theorem found_of_quiet (h : call.meanwhile = []) : call.found E w = w.db := by
  rw [StoreCall.found, h]
  rfl

/-- A pass goes on after a full batch. -/
theorem sweep_eq_inl : sweep E statement batchSize call s = .inl s' ↔
    call.failure = none ∧ ¬ Int64.ofNat (statement.run call (call.found E s.2)).1 < batchSize ∧
      s' = (s.1 + Int64.ofNat (statement.run call (call.found E s.2)).1,
        s.2.returned (call.found E s.2) (statement.run call (call.found E s.2)).2) := by
  cases hf : call.failure with
  | none =>
    simp only [sweep, Statement.exec, hf, true_and]
    split <;> simp_all [eq_comm]
  | some failure => simp [sweep, Statement.exec, hf]

/-- A pass ends the loop with an error, or after a short batch. -/
theorem sweep_eq_inr (h : sweep E statement batchSize call s = .inr r) :
    (∃ cause executed, call.failure = some (cause, executed) ∧
      r = ⟨s.1, some (statement.what ++ ": " ++ cause),
        { s.2 with
          db := if executed then (statement.run call (call.found E s.2)).2
            else call.found E s.2 }⟩) ∨
    (call.failure = none ∧
      Int64.ofNat (statement.run call (call.found E s.2)).1 < batchSize ∧
      r = ⟨s.1 + Int64.ofNat (statement.run call (call.found E s.2)).1, none,
        s.2.returned (call.found E s.2) (statement.run call (call.found E s.2)).2⟩) := by
  cases hf : call.failure with
  | none =>
    simp only [sweep, Statement.exec, hf] at h
    split at h
    · next hlt => exact .inr ⟨rfl, hlt, (Sum.inr.inj h).symm⟩
    · cases h
  | some failure =>
    obtain ⟨cause, executed⟩ := failure
    simp only [sweep, Statement.exec, hf] at h
    exact .inl ⟨cause, executed, rfl, (Sum.inr.inj h).symm⟩

/-- A call that fails ends the loop, whatever came before. -/
theorem sweep_of_failure (E : Encoding) (statement : Statement) (batchSize : Int64)
    (h : call.failure ≠ none) (s : Int64 × World) :
    ∃ r, sweep E statement batchSize call s = .inr r := by
  cases hs : sweep E statement batchSize call s with
  | inl s' => exact absurd (sweep_eq_inl.1 hs).1 h
  | inr r => exact ⟨r, rfl⟩

/-! ### When a loop has ended -/

/-- The calls before the last have not failed, and the loop has the error of the last. -/
theorem loopOn_sweep_stops
    (h : loopOn (sweep E statement batchSize) calls (0, w) = some (r, rest)) :
    ∃ made last, calls = made ++ last :: rest ∧ (∀ call ∈ made, call.failure = none) ∧
      ((last.failure = none ∧ r.err = none) ∨ ∃ cause executed,
        last.failure = some (cause, executed) ∧
          r.err = some (statement.what ++ ": " ++ cause)) := by
  obtain ⟨taken, rfl, made, last, rfl, hmade, hlast⟩ := loopOn_rule
    (I := fun taken _ => ∀ call ∈ taken, call.failure = none)
    (Q := fun taken r => ∃ made last, taken = made ++ [last] ∧
      (∀ call ∈ made, call.failure = none) ∧
      ((last.failure = none ∧ r.err = none) ∨ ∃ cause executed,
        last.failure = some (cause, executed) ∧ r.err = some (statement.what ++ ": " ++ cause)))
    (fun taken call s s' hI hs => by
      simpa [or_imp, forall_and] using ⟨hI, (sweep_eq_inl.1 hs).1⟩)
    (fun taken call s r hI hs => by
      refine ⟨taken, call, rfl, hI, ?_⟩
      rcases sweep_eq_inr hs with ⟨cause, executed, hf, rfl⟩ | ⟨hf, -, rfl⟩
      · exact .inr ⟨cause, executed, hf, rfl⟩
      · exact .inl ⟨hf, rfl⟩)
    (by simp) h
  exact ⟨made, last, by simp, hmade, hlast⟩

/-- A loop whose calls have not failed has no error. -/
theorem loopOn_sweep_err {taken : List StoreCall}
    (h : loopOn (sweep E statement batchSize) (taken ++ rest) (0, w) = some (r, rest))
    (hok : ∀ call ∈ taken, call.failure = none) : r.err = none := by
  obtain ⟨made, last, heq, -, hlast⟩ := loopOn_sweep_stops h
  have htaken : taken = made ++ [last] := List.append_cancel_right (heq.trans (by simp))
  rcases hlast with ⟨-, hnone⟩ | ⟨cause, executed, hf, -⟩
  · exact hnone
  · rw [hok last (by simp [htaken])] at hf
    cases hf

/-- Of the rows the statement reports, `d` each are deleted and `p` each are pruned. -/
structure Statement.Counts (statement : Statement) (d p : Nat) : Prop where
  deleted : ∀ call db,
    rowsDeleted db (statement.run call db).2 = d * (statement.run call db).1
  pruned : ∀ call db,
    payloadsPruned db (statement.run call db).2 = p * (statement.run call db).1

theorem deleteStatement_counts (cutoff : Timestamp) (limit : Int64) :
    (deleteStatement cutoff limit).Counts 1 0 :=
  ⟨fun _ _ => by rw [Nat.one_mul]; exact rowsDeleted_delete,
    fun _ _ => by rw [Nat.zero_mul]; exact payloadsPruned_eq_zero rfl⟩

theorem pruneStatement_counts (cutoff : Timestamp) (limit : Int64) :
    (pruneStatement cutoff limit).Counts 0 1 :=
  ⟨fun _ _ => by rw [Nat.zero_mul]; exact rowsDeleted_eq_zero rfl,
    fun _ _ => by rw [Nat.one_mul]; exact payloadsPruned_prune⟩

/-- A loop that began in `w` has counted what its calls have done since. -/
def Counted (d p : Nat) (w : World) (count : Int64) (w' : World) : Prop :=
  ∃ n, count = Int64.ofNat n ∧ w'.deletedRows = w.deletedRows + d * n ∧
    w'.prunedPayloads = w.prunedPayloads + p * n

theorem Statement.Counts.returned {d p : Nat} (hc : statement.Counts d p) {count : Int64}
    {w' : World} (h : Counted d p w count w') (call : StoreCall) (db : Db) :
    Counted d p w (count + Int64.ofNat (statement.run call db).1)
      (w'.returned db (statement.run call db).2) := by
  obtain ⟨n, rfl, hd, hp⟩ := h
  refine ⟨n + (statement.run call db).1, (Int64.ofNat_add ..).symm, ?_, ?_⟩
  · rw [World.returned, hd, hc.deleted]
    ring
  · rw [World.returned, hp, hc.pruned]
    ring

theorem loopOn_sweep_counts {d p : Nat} (hc : statement.Counts d p)
    (h : loopOn (sweep E statement batchSize) calls (0, w) = some (r, rest)) :
    Counted d p w r.count r.world := by
  obtain ⟨-, -, hr⟩ := loopOn_rule (I := fun _ s => Counted d p w s.1 s.2)
    (Q := fun _ r => Counted d p w r.count r.world)
    (fun _ call s s' hI hs => by
      obtain ⟨-, -, rfl⟩ := sweep_eq_inl.1 hs
      exact hc.returned hI call _)
    (fun _ call s r hI hs => by
      rcases sweep_eq_inr hs with ⟨cause, executed, -, rfl⟩ | ⟨-, -, rfl⟩
      · exact hI
      · exact hc.returned hI call _)
    ⟨0, rfl, by simp, by simp⟩ h
  exact hr

/-! ### Without other writers -/

/-- What a batch without an error and one with an error both keep, a loop keeps; and it has ended
for want of rows if it has not ended with an error. -/
theorem loopOn_sweep_quiet {P : List Timestamp → Db → Prop} {D : Db → Prop}
    (hskip : ∀ times t db, P times db → P (times ++ [t]) db)
    (hstep : ∀ times call db, P times db → P (times ++ [call.now]) (statement.run call db).2)
    (hshort : ∀ call db, Int64.ofNat (statement.run call db).1 < batchSize →
      D (statement.run call db).2)
    (h0 : P [] w.db) (h : loopOn (sweep E statement batchSize) calls (0, w) = some (r, rest)) :
    ∃ taken, calls = taken ++ rest ∧ ((∀ call ∈ taken, call.meanwhile = []) →
      P (taken.map StoreCall.now) r.world.db ∧ (r.err = none → D r.world.db)) := by
  refine loopOn_rule (s := ((0 : Int64), w))
    (I := fun taken s => (∀ call ∈ taken, call.meanwhile = []) →
      P (taken.map StoreCall.now) s.2.db)
    (Q := fun taken r => (∀ call ∈ taken, call.meanwhile = []) →
      P (taken.map StoreCall.now) r.world.db ∧ (r.err = none → D r.world.db))
    ?_ ?_ (fun _ => h0) h
  · intro taken call s s' hI hs hquiet
    rw [List.map_append]
    obtain ⟨-, -, rfl⟩ := sweep_eq_inl.1 hs
    rw [found_of_quiet (hquiet call (by simp))]
    exact hstep _ call _ (hI fun c hc => hquiet c (by simp [hc]))
  · intro taken call s r hI hs hquiet
    rw [List.map_append]
    have hP := hI fun c hc => hquiet c (by simp [hc])
    have hfound := found_of_quiet (E := E) (w := s.2) (hquiet call (by simp))
    rcases sweep_eq_inr hs with ⟨cause, executed, -, rfl⟩ | ⟨-, hlt, rfl⟩
    · rw [hfound]
      cases executed with
      | false => exact ⟨hskip _ _ _ hP, nofun⟩
      | true => exact ⟨hstep _ call _ hP, nofun⟩
    · rw [hfound] at hlt ⊢
      exact ⟨hstep _ call _ hP, fun _ => hshort call _ hlt⟩

/-- The statement deals with `limit` of the rows there are left for it. -/
structure Statement.Drains (statement : Statement) (limit : Nat) (left : Db → Nat) : Prop where
  count : ∀ call db, (statement.run call db).1 = min limit (left db)
  after : ∀ call db, left (statement.run call db).2 = left db - limit

theorem deleteStatement_drains (cutoff : Timestamp) (limit : Int64) :
    (deleteStatement cutoff limit).Drains limit.toNatClampNeg (expiredCount cutoff) :=
  ⟨fun _ _ => deleteMetricSamplesBefore_count, fun _ _ => expiredCount_delete⟩

theorem pruneStatement_drains (cutoff : Timestamp) (limit : Int64) :
    (pruneStatement cutoff limit).Drains limit.toNatClampNeg (prunableCount cutoff) :=
  ⟨fun _ _ => pruneCollectionPayloadsBefore_count, fun _ _ => prunableCount_prune⟩

variable {left : Db → Nat}

theorem Statement.Drains.lt_iff (h : statement.Drains batchSize.toNatClampNeg left)
    (hbatch : 0 < batchSize) {db : Db} :
    Int64.ofNat (statement.run call db).1 < batchSize ↔ left db < batchSize.toNatClampNeg := by
  rw [h.count, ofNat_lt_iff hbatch (Nat.min_le_left ..)]
  omega

/-- After a short batch nothing is left. -/
theorem Statement.Drains.eq_zero (h : statement.Drains batchSize.toNatClampNeg left)
    (hbatch : 0 < batchSize) {db : Db}
    (hshort : Int64.ofNat (statement.run call db).1 < batchSize) :
    left (statement.run call db).2 = 0 := by
  rw [h.lt_iff hbatch] at hshort
  rw [h.after]
  omega

/-- The calls it takes to deal with so many rows: a multiple of the batch size takes one more, for
only a short batch says that nothing is left. -/
def passes (batchSize : Int64) (left : Nat) : Nat := left / batchSize.toNatClampNeg + 1

/-- A loop whose statement drains the rows ends. -/
theorem loopOn_sweep_isSome (hd : statement.Drains batchSize.toNatClampNeg left)
    (hbatch : 0 < batchSize) (hquiet : ∀ call ∈ calls, call.meanwhile = [])
    (hcalls : passes batchSize (left w.db) ≤ calls.length) :
    ∃ r rest, loopOn (sweep E statement batchSize) calls (0, w) = some (r, rest) ∧
      calls.length ≤ rest.length + passes batchSize (left w.db) := by
  refine loopOn_isSome (I := fun _ => True)
    (m := fun s : Int64 × World => left s.2.db / batchSize.toNatClampNeg) ?_ trivial hcalls
  intro call hcall s s' _ hs
  obtain ⟨-, hfull, rfl⟩ := sweep_eq_inl.1 hs
  rw [found_of_quiet (hquiet call hcall), hd.lt_iff hbatch] at hfull
  refine ⟨trivial, ?_⟩
  rw [found_of_quiet (hquiet call hcall)]
  have hpos := (Int64.toNatClampNeg_pos_iff batchSize).2 hbatch
  calc left (statement.run call s.2.db).2 / batchSize.toNatClampNeg
      = (left s.2.db - batchSize.toNatClampNeg) / batchSize.toNatClampNeg := by rw [hd.after]
    _ < (left s.2.db - batchSize.toNatClampNeg) / batchSize.toNatClampNeg + 1 :=
      Nat.lt_succ_self _
    _ = left s.2.db / batchSize.toNatClampNeg := (Nat.div_eq_sub_div hpos (by omega)).symm

end Passes

end Retention

end NexusTier
