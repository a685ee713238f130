import NexusTier.Ingest.Store

/-!
# Retention, and the runs of the store

The two statements of `retention/cleaner.go`, and `Op`: what can happen to the telemetry database
between its creation and now.  Everything the development says about reachable databases is said
about `execAll E ops Db.empty`.

Both statements take a batch: the oldest expired rows, at most `limit` of them.  `metric_samples`
is ordered by `observed_at` alone, so which of several samples of the same time make the last
places of a batch is for the server to choose; `tie` is that choice.

## What is here

* `deleteMetricSamplesBefore` and `pruneCollectionPayloadsBefore`: the two statements, with the
  number of rows that they report.
* `Op` and `execAll`: calls, and runs of them.
* `Reachable.induct`: the rule for what holds of every reachable database.

## What is left out

The time of the server is a number of microseconds, and the cut-off is cut off at these.
-/

set_option autoImplicit false

namespace NexusTier

open Relational

/-- The sub-select of `DeleteMetricSamplesBefore`. -/
def expiredSamples (tie : MetricKey → Nat) (cutoff : Timestamp) (limit : Nat) (db : Db) :
    List MetricKey :=
  (((db.metricSamples.toList.filter fun e => decide (e.2.observedAt < cutoff)).insertionSort
    fun a b => toLex (a.2.observedAt, tie a.1) ≤ toLex (b.2.observedAt, tie b.1)).take limit).map
      Prod.fst

/-- `DeleteMetricSamplesBefore`: the number of samples deleted, and the database without them. -/
def deleteMetricSamplesBefore (tie : MetricKey → Nat) (cutoff : Timestamp) (limit : Nat)
    (db : Db) : Nat × Db :=
  let expired := expiredSamples tie cutoff limit db
  (expired.length,
    { db with metricSamples := db.metricSamples.deleteWhere fun key _ => expired.contains key })

/-- May the payload of this run be pruned? -/
def RunRow.prunable (cutoff : Timestamp) (run : RunRow) : Bool :=
  decide (run.completedAt < cutoff) && run.payloadPrunedAt.isNone && run.rawPayloadSHA256.isSome

/-- The sub-select of `PruneCollectionPayloadsBefore`: the table is scanned in the order of
`collection_id`, and the sort by `completed_at` is stable. -/
def expiredPayloads (cutoff : Timestamp) (limit : Nat) (db : Db) : List Uuid :=
  (((db.collectionRuns.toList.filter fun e => e.2.prunable cutoff).insertionSort
    fun a b => a.2.completedAt ≤ b.2.completedAt).take limit).map Prod.fst

/-- The run without its payload: `'null'::jsonb` in its place. -/
def RunRow.prune (now : Timestamp) (run : RunRow) : RunRow :=
  { run with rawPayload := "null", payloadPrunedAt := some now }

/-- `PruneCollectionPayloadsBefore`, at the server's time `now`. -/
def pruneCollectionPayloadsBefore (now cutoff : Timestamp) (limit : Nat) (db : Db) : Nat × Db :=
  let expired := expiredPayloads cutoff limit db
  (expired.length,
    { db with
      collectionRuns :=
        db.collectionRuns.updateWhere (fun id _ => expired.contains id) (RunRow.prune now) })

/-! ## Runs -/

/-- A call that reaches the telemetry database. -/
inductive Op where
  /-- `Store.Ingest`, which may fail and then leaves the database as it was. -/
  | ingest (now : Timestamp) (snapshot : Snapshot)
  | deleteMetricSamples (tie : MetricKey → Nat) (cutoff : Timestamp) (limit : Nat)
  | prunePayloads (now cutoff : Timestamp) (limit : Nat)

/-- The database after a call. -/
def Op.exec (E : Encoding) (db : Db) : Op → Db
  | ingest now snapshot =>
    match NexusTier.ingest E now snapshot db with
    | .ok (_, db') => db'
    | .error _ => db
  | deleteMetricSamples tie cutoff limit => (deleteMetricSamplesBefore tie cutoff limit db).2
  | prunePayloads now cutoff limit => (pruneCollectionPayloadsBefore now cutoff limit db).2

/-- The database after a sequence of calls. -/
def execAll (E : Encoding) (ops : List Op) (db : Db) : Db := ops.foldl (Op.exec E) db

theorem execAll_append (E : Encoding) (ops ops' : List Op) (db : Db) :
    execAll E (ops ++ ops') db = execAll E ops' (execAll E ops db) :=
  List.foldl_append

/-- A database that some sequence of calls leads to from the migrated one. -/
def Reachable (E : Encoding) (db : Db) : Prop := ∃ ops, db = execAll E ops Db.empty

/-- **The induction rule of the store.**  What holds of the empty database and survives every call
holds of every reachable one. -/
theorem Reachable.induct {E : Encoding} {P : Db → Prop} (empty : P Db.empty)
    (step : ∀ (db : Db) (op : Op), P db → P (op.exec E db)) {db : Db} (h : Reachable E db) : P db := by
  obtain ⟨ops, rfl⟩ := h
  induction ops using List.reverseRecOn with
  | nil => exact empty
  | append_singleton ops op ih =>
    rw [execAll_append]
    exact step _ op ih

end NexusTier
