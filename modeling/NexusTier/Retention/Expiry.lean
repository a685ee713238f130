import NexusTier.Config.Load
import NexusTier.Retention.Cleaner

/-!
# What a cleanup leaves

A cleanup should leave the database of `expire`: the samples from the cut-off on, and `'null'` for
the payloads of the runs that had expired, each with the time of its pruning.

## What is here

* `cleanup_expires` — that is what it leaves, when there are no other writers and no call fails;
* `cleanup_stops` — a call that fails is the last one, and the status has its error;
* `totals_count` — over any number of cleanups the totals are what `World` has counted;
* `cleanup_ends_of_load` — the batch size of an accepted configuration makes a cleanup end.
* `cleanup_exact` — all of it, for every script of calls and every batch size.

The totals are 64-bit numbers, and so are the sums that lead to them.

## What is left out

The ticker: the times of the cleanups are given.  What other writers do between two calls is any
call of the store.
-/

set_option autoImplicit false

namespace NexusTier

open Relational

namespace Retention

/-! ## What expires -/

/-- What a cleanup should make of a database: no sample from before the cut-off, and no payload in a
run that has expired, which was pruned at the time that `prunedAt` gives. -/
def expire (cutoff : Timestamp) (prunedAt : Uuid → Timestamp) (db : Db) : Db :=
  { db with
    metricSamples := db.metricSamples.deleteWhere fun _ sample => decide (sample.observedAt < cutoff)
    collectionRuns := db.collectionRuns.map fun id run =>
      if run.prunable cutoff then run.prune (prunedAt id) else run }

/-- Some of what has expired is gone, and all else is as it was. -/
structure Partly (cutoff : Timestamp) (times : List Timestamp) (db db' : Db) : Prop where
  frame : db' = { db with
    metricSamples := db'.metricSamples
    collectionRuns := db'.collectionRuns }
  samples : ∀ key : MetricKey, db'.metricSamples[key]? = db.metricSamples[key]? ∨
    db'.metricSamples[key]? = none ∧
      ∃ sample, db.metricSamples[key]? = some sample ∧ sample.observedAt < cutoff
  runs : ∀ id : Uuid, db'.collectionRuns[id]? = db.collectionRuns[id]? ∨
    ∃ run, db.collectionRuns[id]? = some run ∧ run.prunable cutoff = true ∧
      ∃ t ∈ times, db'.collectionRuns[id]? = some (run.prune t)

section Expiry

variable {tie : MetricKey → Nat} {cutoff t : Timestamp} {times times' : List Timestamp}
  {limit : Nat} {db db' : Db}

theorem Partly.refl : Partly cutoff times db db :=
  ⟨rfl, fun _ => .inl rfl, fun _ => .inl rfl⟩

theorem Partly.mono (h : Partly cutoff times db db') (hsub : times ⊆ times') :
    Partly cutoff times' db db' where
  frame := h.frame
  samples := h.samples
  runs id := by
    rcases h.runs id with heq | ⟨run, hrun, hp, t, ht, heq⟩
    · exact .inl heq
    · exact .inr ⟨run, hrun, hp, t, hsub ht, heq⟩

theorem Partly.delete (h : Partly cutoff times db db') :
    Partly cutoff times db (deleteMetricSamplesBefore tie cutoff limit db').2 where
  frame := by
    rw [deleteMetricSamplesBefore, h.frame]
  samples key := by
    rw [getElem?_deleteMetricSamplesBefore]
    by_cases hk : key ∈ expiredSamples tie cutoff limit db'
    · obtain ⟨sample, hs, hlt⟩ := Table.exists_of_mem_batch hk
      rw [if_pos hk]
      rcases h.samples key with heq | ⟨hnone, -⟩
      · exact .inr ⟨rfl, sample, heq ▸ hs, by simpa using hlt⟩
      · rw [hnone] at hs
        cases hs
    · rw [if_neg hk]
      exact h.samples key
  runs := h.runs

theorem Partly.prune (h : Partly cutoff times db db') (ht : t ∈ times) :
    Partly cutoff times db (pruneCollectionPayloadsBefore t cutoff limit db').2 where
  frame := by
    rw [pruneCollectionPayloadsBefore, h.frame]
  samples := h.samples
  runs id := by
    rw [getElem?_pruneCollectionPayloadsBefore]
    by_cases hid : id ∈ expiredPayloads cutoff limit db'
    · obtain ⟨run, hr, hp⟩ := Table.exists_of_mem_batch hid
      rcases h.runs id with heq | ⟨run', -, -, t', -, heq⟩
      · exact .inr ⟨run, heq ▸ hr, hp, t, ht, by simp [hr, hid]⟩
      · obtain rfl : run'.prune t' = run := Option.some.inj (heq.symm.trans hr)
        rw [not_prunable_prune] at hp
        cases hp
    · simpa [hid] using h.runs id

theorem Partly.metricSamples_eq (h : Partly cutoff times db db')
    (hnone : expiredCount cutoff db' = 0) :
    db'.metricSamples =
      db.metricSamples.deleteWhere fun _ sample => decide (sample.observedAt < cutoff) := by
  have hkept : ∀ (key : MetricKey) sample, db'.metricSamples[key]? = some sample →
      ¬ sample.observedAt < cutoff := by
    intro key sample hs hlt
    have hmem := List.filter_eq_nil_iff.1 (List.length_eq_zero_iff.1 hnone) (key, sample)
      (Table.mem_toList.2 hs)
    exact hmem (decide_eq_true hlt)
  ext key : 1
  rw [Table.getElem?_deleteWhere]
  rcases h.samples key with heq | ⟨hgone, sample, hs, hlt⟩
  · rw [heq]
    cases hs : db.metricSamples[key]? with
    | none => rfl
    | some sample =>
      rw [Option.filter_some, decide_eq_false (hkept key sample (heq.trans hs))]
      rfl
  · rw [hgone, hs, Option.filter_some, decide_eq_true hlt]
    rfl

theorem Partly.collectionRuns_eq (h : Partly cutoff times db db')
    (hnone : prunableCount cutoff db' = 0) :
    ∃ prunedAt : Uuid → Timestamp,
      (∀ (id : Uuid) run, db.collectionRuns[id]? = some run → run.prunable cutoff = true →
        prunedAt id ∈ times) ∧
      db'.collectionRuns = db.collectionRuns.map fun id run =>
        if run.prunable cutoff then run.prune (prunedAt id) else run := by
  have hpruned : ∀ (id : Uuid) run, db'.collectionRuns[id]? = some run →
      run.prunable cutoff ≠ true := by
    intro id run hr
    exact List.filter_eq_nil_iff.1 (List.length_eq_zero_iff.1 hnone) (id, run)
      (Table.mem_toList.2 hr)
  -- a run that has expired is one of those that were pruned, and says when
  have htime : ∀ id : Uuid, ∃ t, ∀ run, db.collectionRuns[id]? = some run →
      run.prunable cutoff = true →
        t ∈ times ∧ db'.collectionRuns[id]? = some (run.prune t) := by
    intro id
    rcases h.runs id with heq | ⟨run, hrun, -, t, ht, heq⟩
    · exact ⟨0, fun run hrun hp => absurd hp (hpruned id run (heq.trans hrun))⟩
    · refine ⟨t, fun run' hrun' _ => ?_⟩
      obtain rfl : run = run' := Option.some.inj (hrun.symm.trans hrun')
      exact ⟨ht, heq⟩
  choose prunedAt hprunedAt using htime
  refine ⟨prunedAt, fun id run hrun hp => (hprunedAt id run hrun hp).1, ?_⟩
  ext id : 1
  rw [Std.ExtTreeMap.getElem?_map]
  cases hr : db.collectionRuns[id]? with
  | none =>
    rcases h.runs id with heq | ⟨run, hrun, -⟩
    · exact heq.trans hr
    · rw [hr] at hrun
      cases hrun
  | some run =>
    rw [Option.map_some]
    by_cases hp : run.prunable cutoff = true
    · rw [if_pos hp]
      exact (hprunedAt id run hr hp).2
    · rw [if_neg hp]
      rcases h.runs id with heq | ⟨run', hrun', hp', -⟩
      · exact heq.trans hr
      · obtain rfl : run = run' := Option.some.inj (hr.symm.trans hrun')
        exact absurd hp' hp

/-- Once nothing that has expired is left, the database is the one that should be. -/
theorem Partly.eq_expire (h : Partly cutoff times db db') (hsamples : expiredCount cutoff db' = 0)
    (hruns : prunableCount cutoff db' = 0) :
    ∃ prunedAt : Uuid → Timestamp,
      (∀ (id : Uuid) run, db.collectionRuns[id]? = some run → run.prunable cutoff = true →
        prunedAt id ∈ times) ∧
      db' = expire cutoff prunedAt db := by
  obtain ⟨prunedAt, htimes, hcr⟩ := h.collectionRuns_eq hruns
  refine ⟨prunedAt, htimes, ?_⟩
  rw [h.frame, expire, h.metricSamples_eq hsamples, hcr]

end Expiry

/-! ## A cleanup -/

section Cleanups

variable {E : Encoding} {cleaner cleaner' : Cleaner} {startedAt completedAt : Timestamp}
  {calls rest : List StoreCall} {w w' : World} {s s' : Cleaner × World}

/-- A cleanup ends with an error in the first loop, or with the second. -/
theorem cleanup_eq_some : cleaner.cleanup E startedAt completedAt calls w = some (s', rest) ↔
    ∃ deleted calls',
      loopOn (sweep E (deleteStatement (startedAt - cleaner.retention) cleaner.batchSize)
        cleaner.batchSize) calls (0, w) = some (deleted, calls') ∧
      ((∃ err, deleted.err = some err ∧ rest = calls' ∧
        s' = ((cleaner.start startedAt).finish completedAt deleted.count 0 (some err),
          deleted.world)) ∨
      (deleted.err = none ∧ ∃ pruned,
        loopOn (sweep E (pruneStatement (startedAt - cleaner.retention) cleaner.batchSize)
          cleaner.batchSize) calls' (0, deleted.world) = some (pruned, rest) ∧
        s' = ((cleaner.start startedAt).finish completedAt deleted.count pruned.count pruned.err,
          pruned.world))) := by
  simp only [Cleaner.cleanup, Cleaner.start]
  split
  · next hd => simp [hd]
  · next deleted calls' hd =>
    split
    · next err he => simp [hd, he, eq_comm, and_comm]
    · next he =>
      split
      · next hp => simp [hd, he, hp]
      · next pruned rest' hp => simp [hd, he, hp, eq_comm, and_comm]

/-- The calls before the last have not failed, and the status has the error of the last. -/
theorem cleanup_stops
    (h : cleaner.cleanup E startedAt completedAt calls w = some ((cleaner', w'), rest)) :
    ∃ made last, calls = made ++ last :: rest ∧ (∀ call ∈ made, call.failure = none) ∧
      ((last.failure = none ∧ cleaner'.status.lastError = "") ∨ ∃ what cause executed,
        what ∈ ["delete expired metric samples", "prune expired collection payloads"] ∧
        last.failure = some (cause, executed) ∧
        cleaner'.status.lastError = what ++ ": " ++ cause) := by
  obtain ⟨deleted, calls', hd, hcase⟩ := cleanup_eq_some.1 h
  obtain ⟨made, last, rfl, hmade, hlast⟩ := loopOn_sweep_stops hd
  rcases hcase with ⟨err, herr, rfl, hs⟩ | ⟨herr, pruned, hp, hs⟩
  · obtain ⟨rfl, rfl⟩ := Prod.mk.inj hs
    refine ⟨made, last, rfl, hmade, .inr ?_⟩
    rcases hlast with ⟨-, hnone⟩ | ⟨cause, executed, hf, hsome⟩
    · rw [hnone] at herr
      cases herr
    · exact ⟨_, cause, executed, List.mem_cons_self, hf, Option.some.inj (herr.symm.trans hsome)⟩
  · obtain ⟨rfl, rfl⟩ := Prod.mk.inj hs
    have hok : last.failure = none := by
      rcases hlast with ⟨hok, -⟩ | ⟨cause, executed, -, hsome⟩
      · exact hok
      · rw [hsome] at herr
        cases herr
    obtain ⟨made', last', rfl, hmade', hlast'⟩ := loopOn_sweep_stops hp
    refine ⟨made ++ last :: made', last', by simp, ?_, ?_⟩
    · intro call hcall
      rcases List.mem_append.1 hcall with hcall | hcall
      · exact hmade call hcall
      · rcases List.mem_cons.1 hcall with rfl | hcall
        · exact hok
        · exact hmade' call hcall
    · rcases hlast' with ⟨hf, hnone⟩ | ⟨cause, executed, hf, hsome⟩
      · exact .inl ⟨hf, by rw [hnone]; rfl⟩
      · exact .inr ⟨_, cause, executed, List.mem_cons_of_mem _ List.mem_cons_self, hf,
          by rw [hsome]; rfl⟩

/-- A cleanup does not go past a call that fails. -/
theorem cleanup_isSome_of_failure (h : ∃ call ∈ calls, call.failure ≠ none) :
    ∃ s' rest, cleaner.cleanup E startedAt completedAt calls w = some (s', rest) := by
  obtain ⟨call, hcall, hf⟩ := h
  obtain ⟨deleted, calls', hd⟩ := loopOn_isSome_of_break
    (s := (0, w)) hcall (sweep_of_failure E
      (deleteStatement (startedAt - cleaner.retention) cleaner.batchSize) cleaner.batchSize hf)
  cases herr : deleted.err with
  | some err => exact ⟨_, _, cleanup_eq_some.2 ⟨deleted, calls', hd, .inl ⟨err, herr, rfl, rfl⟩⟩⟩
  | none =>
    obtain ⟨made, last, rfl, hmade, hlast⟩ := loopOn_sweep_stops hd
    -- the call has not been made, for those that have been did not fail
    have hcall' : call ∈ calls' := by
      rcases List.mem_append.1 hcall with hmem | hmem
      · exact absurd (hmade call hmem) hf
      · rcases List.mem_cons.1 hmem with rfl | hmem
        · rcases hlast with ⟨hok, -⟩ | ⟨cause, executed, -, hsome⟩
          · exact absurd hok hf
          · rw [hsome] at herr
            cases herr
        · exact hmem
    obtain ⟨pruned, rest, hp⟩ := loopOn_isSome_of_break
      (s := (0, deleted.world)) hcall' (sweep_of_failure E
        (pruneStatement (startedAt - cleaner.retention) cleaner.batchSize) cleaner.batchSize hf)
    exact ⟨_, _, cleanup_eq_some.2 ⟨deleted, calls', hd, .inr ⟨herr, pruned, hp, rfl⟩⟩⟩

/-! ### The totals -/

/-- The totals of the status are what the calls that returned have done, as 64-bit numbers. -/
def Booked (s : Cleaner × World) : Prop :=
  s.1.status.totalDeletedSamples = UInt64.ofNat s.2.deletedRows ∧
    s.1.status.totalPrunedPayloads = UInt64.ofNat s.2.prunedPayloads

/-- The deferred function books what the loops have counted. -/
theorem finish_booked {n m : Nat} {err : Option String} (h : Booked (cleaner, w))
    (hdeleted : w'.deletedRows = w.deletedRows + n)
    (hpruned : w'.prunedPayloads = w.prunedPayloads + m) :
    Booked ((cleaner.start startedAt).finish completedAt (Int64.ofNat n) (Int64.ofNat m) err, w') := by
  constructor
  · simp only [Cleaner.finish, Cleaner.start, hdeleted, UInt64.ofNat_add]
    rw [h.1]
    rfl
  · simp only [Cleaner.finish, Cleaner.start, hpruned, UInt64.ofNat_add]
    rw [h.2]
    rfl

theorem cleanup_booked (h : cleaner.cleanup E startedAt completedAt calls w = some (s', rest))
    (hw : Booked (cleaner, w)) : Booked s' := by
  obtain ⟨deleted, calls', hd, hcase⟩ := cleanup_eq_some.1 h
  obtain ⟨n, hn, hnd, hnp⟩ := loopOn_sweep_counts (deleteStatement_counts _ _) hd
  rw [Nat.one_mul] at hnd
  rw [Nat.zero_mul] at hnp
  rcases hcase with ⟨err, -, -, rfl⟩ | ⟨-, pruned, hp, rfl⟩
  · rw [hn]
    exact finish_booked hw hnd hnp
  · obtain ⟨m, hm, hmd, hmp⟩ := loopOn_sweep_counts (pruneStatement_counts _ _) hp
    rw [Nat.zero_mul, Nat.add_zero] at hmd
    rw [Nat.one_mul] at hmp
    rw [hn, hm]
    exact finish_booked hw (hmd.trans hnd) (by rw [hmp, hnp, Nat.add_zero])

/-- Cleanups, whatever fails in them, keep the totals right. -/
theorem totals_count {cleanups : List Cleanup} (h : Cleaner.run E cleanups s = some s')
    (hs : Booked s) : Booked s' := by
  induction cleanups generalizing s with
  | nil =>
    obtain rfl := Option.some.inj h
    exact hs
  | cons c cleanups ih =>
    rw [Cleaner.run, List.foldlM_cons, Option.bind_eq_bind, Option.bind_eq_some_iff] at h
    obtain ⟨s₁, h₁, h₂⟩ := h
    obtain ⟨⟨s₁', rest⟩, hc, rfl⟩ := Option.map_eq_some_iff.1 h₁
    exact ih h₂ (cleanup_booked hc hs)

/-! ### Without other writers -/

section Loops

variable {cutoff : Timestamp} {batchSize : Int64} {times : List Timestamp} {db : Db}

/-- The loop that deletes. -/
theorem deletion_ends (hbatch : 0 < batchSize) (hquiet : ∀ call ∈ calls, call.meanwhile = [])
    (hcalls : passes batchSize (expiredCount cutoff w.db) ≤ calls.length) :
    ∃ deleted taken rest,
      loopOn (sweep E (deleteStatement cutoff batchSize) batchSize) calls (0, w) =
        some (deleted, rest) ∧
      calls = taken ++ rest ∧
      calls.length ≤ rest.length + passes batchSize (expiredCount cutoff w.db) ∧
      Partly cutoff (taken.map StoreCall.now) w.db deleted.world.db ∧
      deleted.world.db.collectionRuns = w.db.collectionRuns ∧
      (deleted.err = none → expiredCount cutoff deleted.world.db = 0) := by
  have hdrains := deleteStatement_drains cutoff batchSize
  obtain ⟨deleted, rest, hd, hlen⟩ := loopOn_sweep_isSome (E := E) hdrains hbatch hquiet hcalls
  obtain ⟨taken, rfl, hP⟩ := loopOn_sweep_quiet
    (P := fun times db => Partly cutoff times w.db db ∧ db.collectionRuns = w.db.collectionRuns)
    (D := fun db => expiredCount cutoff db = 0)
    (fun times t db h => ⟨h.1.mono (by simp), h.2⟩)
    (fun times call db h => ⟨(h.1.mono (by simp)).delete, h.2⟩)
    (fun call db => hdrains.eq_zero hbatch)
    ⟨Partly.refl, rfl⟩ hd
  obtain ⟨⟨hpartly, hruns⟩, hnone⟩ := hP fun call hcall => hquiet call (by simp [hcall])
  exact ⟨deleted, taken, rest, hd, rfl, hlen, hpartly, hruns, hnone⟩

/-- The loop that prunes, after what has been done to `db` before. -/
theorem pruning_ends (hbatch : 0 < batchSize) (hquiet : ∀ call ∈ calls, call.meanwhile = [])
    (hcalls : passes batchSize (prunableCount cutoff w.db) ≤ calls.length)
    (hpartly : Partly cutoff times db w.db) :
    ∃ pruned taken rest,
      loopOn (sweep E (pruneStatement cutoff batchSize) batchSize) calls (0, w) =
        some (pruned, rest) ∧
      calls = taken ++ rest ∧
      Partly cutoff (times ++ taken.map StoreCall.now) db pruned.world.db ∧
      pruned.world.db.metricSamples = w.db.metricSamples ∧
      (pruned.err = none → prunableCount cutoff pruned.world.db = 0) := by
  have hdrains := pruneStatement_drains cutoff batchSize
  obtain ⟨pruned, rest, hp, -⟩ := loopOn_sweep_isSome (E := E) hdrains hbatch hquiet hcalls
  obtain ⟨taken, rfl, hP⟩ := loopOn_sweep_quiet
    (P := fun times' db' => Partly cutoff (times ++ times') db db' ∧
      db'.metricSamples = w.db.metricSamples)
    (D := fun db => prunableCount cutoff db = 0)
    (fun times t db h => ⟨h.1.mono (by simp), h.2⟩)
    (fun times call db h => ⟨(h.1.mono (by simp)).prune (by simp), h.2⟩)
    (fun call db => hdrains.eq_zero hbatch)
    ⟨hpartly.mono (by simp), rfl⟩ hp
  obtain ⟨⟨hpartly', hsamples⟩, hnone⟩ := hP fun call hcall => hquiet call (by simp [hcall])
  exact ⟨pruned, taken, rest, hp, rfl, hpartly', hsamples, hnone⟩

end Loops

/-- Without other writers a cleanup ends, and if no call has failed it has left what it should. -/
theorem cleanup_expires (hbatch : 0 < cleaner.batchSize)
    (hquiet : ∀ call ∈ calls, call.meanwhile = [])
    (hcalls : passes cleaner.batchSize (expiredCount (startedAt - cleaner.retention) w.db) +
      passes cleaner.batchSize (prunableCount (startedAt - cleaner.retention) w.db) ≤
        calls.length) :
    ∃ cleaner' w' taken rest,
      cleaner.cleanup E startedAt completedAt calls w = some ((cleaner', w'), rest) ∧
      calls = taken ++ rest ∧
      ((∀ call ∈ taken, call.failure = none) → cleaner'.status.lastError = "" ∧
        ∃ prunedAt : Uuid → Timestamp,
          (∀ (id : Uuid) run, w.db.collectionRuns[id]? = some run →
            run.prunable (startedAt - cleaner.retention) = true →
              prunedAt id ∈ taken.map StoreCall.now) ∧
          w'.db = expire (startedAt - cleaner.retention) prunedAt w.db) := by
  set cutoff := startedAt - cleaner.retention with hcutoff
  obtain ⟨deleted, taken, calls', hd, rfl, hlen, hpartly, hruns, hnone⟩ :=
    deletion_ends (E := E) hbatch hquiet (Nat.le_trans (Nat.le_add_right _ _) hcalls)
  cases herr : deleted.err with
  | some err =>
    refine ⟨_, _, taken, calls', cleanup_eq_some.2 ⟨deleted, calls', hd, .inl ⟨err, herr, rfl, rfl⟩⟩,
      rfl, fun hok => ?_⟩
    rw [loopOn_sweep_err hd hok] at herr
    cases herr
  | none =>
    have hcount : prunableCount cutoff deleted.world.db = prunableCount cutoff w.db := by
      rw [prunableCount, hruns]
      rfl
    have hquiet' : ∀ call ∈ calls', call.meanwhile = [] := fun call hcall =>
      hquiet call (by simp [hcall])
    obtain ⟨pruned, taken', rest, hp, rfl, hpartly', hsamples, hnone'⟩ :=
      pruning_ends (E := E) hbatch hquiet' (by rw [hcount]; omega) hpartly
    refine ⟨_, _, taken ++ taken', rest,
      cleanup_eq_some.2 ⟨deleted, taken' ++ rest, hd, .inr ⟨herr, pruned, hp, rfl⟩⟩,
      (List.append_assoc ..).symm, fun hok => ?_⟩
    have herr' : pruned.err = none :=
      loopOn_sweep_err hp fun call hcall => hok call (by simp [hcall])
    refine ⟨by rw [herr']; rfl, ?_⟩
    have hcount' : expiredCount cutoff pruned.world.db = 0 := by
      rw [expiredCount, hsamples]
      exact hnone herr
    rw [List.map_append]
    exact hpartly'.eq_expire hcount' (hnone' herr')

/-- The batch size that `Load` accepts is one with which a cleanup ends. -/
theorem cleanup_ends_of_load {net : Net} {getenv : Environment} {config : Config} {retention : Int}
    (hload : load net getenv = .ok config) (hquiet : ∀ call ∈ calls, call.meanwhile = [])
    (hcalls : passes config.cleanupBatchSize (expiredCount (startedAt - retention) w.db) +
      passes config.cleanupBatchSize (prunableCount (startedAt - retention) w.db) ≤ calls.length) :
    ∃ s' rest, (new retention config.cleanupBatchSize).cleanup E startedAt completedAt calls w =
      some (s', rest) := by
  have hbatch : 0 < (new retention config.cleanupBatchSize).batchSize :=
    (load_checked hload).cleanupBatchSize
  obtain ⟨cleaner', w', taken, rest, heq, -⟩ := cleanup_expires hbatch hquiet hcalls
  exact ⟨_, rest, heq⟩

end Cleanups

/-- **What a cleanup does, and what the totals count.**  Without other writers it ends and, if no call
fails, leaves exactly what has not expired; with or without them, a call that fails is the last one
and leaves its error in the status; and over any cleanups the totals count what the calls that
returned have done. -/
theorem cleanup_exact (E : Encoding) :
    (∀ (cleaner : Cleaner) (startedAt completedAt : Timestamp) (calls : List StoreCall) (w : World),
      0 < cleaner.batchSize → (∀ call ∈ calls, call.meanwhile = []) →
      passes cleaner.batchSize (expiredCount (startedAt - cleaner.retention) w.db) +
        passes cleaner.batchSize (prunableCount (startedAt - cleaner.retention) w.db) ≤
          calls.length →
      ∃ cleaner' w' taken rest,
        cleaner.cleanup E startedAt completedAt calls w = some ((cleaner', w'), rest) ∧
        calls = taken ++ rest ∧
        ((∀ call ∈ taken, call.failure = none) → cleaner'.status.lastError = "" ∧
          ∃ prunedAt : Uuid → Timestamp,
            (∀ (id : Uuid) run, w.db.collectionRuns[id]? = some run →
              run.prunable (startedAt - cleaner.retention) = true →
                prunedAt id ∈ taken.map StoreCall.now) ∧
            w'.db = expire (startedAt - cleaner.retention) prunedAt w.db)) ∧
    (∀ (cleaner : Cleaner) (startedAt completedAt : Timestamp) (calls : List StoreCall) (w : World),
      ((∃ call ∈ calls, call.failure ≠ none) →
        ∃ s' rest, cleaner.cleanup E startedAt completedAt calls w = some (s', rest)) ∧
      ∀ cleaner' w' rest,
        cleaner.cleanup E startedAt completedAt calls w = some ((cleaner', w'), rest) →
        ∃ made last, calls = made ++ last :: rest ∧ (∀ call ∈ made, call.failure = none) ∧
          (cleaner'.status.lastError = "" ↔ last.failure = none)) ∧
    ∀ (retention : Int) (batchSize : Int64) (db : Db) (cleanups : List Cleanup)
      (cleaner' : Cleaner) (w' : World),
      Cleaner.run E cleanups (new retention batchSize, ⟨db, 0, 0⟩) = some (cleaner', w') →
        cleaner'.status.totalDeletedSamples = UInt64.ofNat w'.deletedRows ∧
        cleaner'.status.totalPrunedPayloads = UInt64.ofNat w'.prunedPayloads := by
  refine ⟨fun cleaner startedAt completedAt calls w => cleanup_expires,
    fun cleaner startedAt completedAt calls w => ⟨cleanup_isSome_of_failure, ?_⟩,
    fun retention batchSize db cleanups cleaner' w' h => totals_count h ⟨rfl, rfl⟩⟩
  intro cleaner' w' rest h
  obtain ⟨made, last, heq, hmade, hlast⟩ := cleanup_stops h
  refine ⟨made, last, heq, hmade, ?_⟩
  rcases hlast with ⟨hf, herr⟩ | ⟨what, cause, executed, -, hf, herr⟩
  · exact iff_of_true herr hf
  · refine iff_of_false ?_ (by simp [hf])
    rw [herr]
    exact fun hempty => by simpa using congrArg String.length hempty

/-- A run and a sample that have expired at time 100, and a sample that has not. -/
def staleDb : Db :=
  { Db.empty with
    collectionRuns := Db.empty.collectionRuns.insert 0xc1
      ⟨schemaVersion, 10, 20, 20, .complete, 1, 0, "[]", some emptyDigest, none, 21⟩
    metricSamples := (Db.empty.metricSamples.insert ⟨0xc1, 0xb1, "rx_bytes", ""⟩ ⟨"null", 7, 20⟩).insert
      ⟨0xc2, 0xb1, "rx_bytes", ""⟩ ⟨"null", 9, 500⟩ }

/-- A call of the store that nobody disturbs. -/
def quietCall : StoreCall := ⟨[], fun _ => 0, 1001, none⟩

theorem cleanup_exact_staleDb :
    ∃ cleaner' w' taken rest,
      (new 900 1).cleanup (.recorded []) 1000 1002 (List.replicate 4 quietCall) ⟨staleDb, 0, 0⟩ =
        some ((cleaner', w'), rest) ∧
      List.replicate 4 quietCall = taken ++ rest ∧
      ((∀ call ∈ taken, call.failure = none) → cleaner'.status.lastError = "" ∧
        ∃ prunedAt : Uuid → Timestamp,
          (∀ (id : Uuid) run, staleDb.collectionRuns[id]? = some run →
            run.prunable 100 = true → prunedAt id ∈ taken.map StoreCall.now) ∧
          w'.db = expire 100 prunedAt staleDb) :=
  (cleanup_exact (.recorded [])).1 (new 900 1) 1000 1002 (List.replicate 4 quietCall)
    ⟨staleDb, 0, 0⟩ (by decide) (fun _ hcall => by rw [List.eq_of_mem_replicate hcall]; rfl)
    (by decide +kernel)

/-- The payload is not all that the cleanup touches: the run has the time of the pruning, too. -/
theorem cleanup_touches_payloadPrunedAt :
    ∃ r, (new 900 1).cleanup (.recorded []) 1000 1002 (List.replicate 4 quietCall)
        ⟨staleDb, 0, 0⟩ = some r ∧
      (∀ call ∈ List.replicate 4 quietCall, call.meanwhile = [] ∧ call.failure = none) ∧
      r.1.2.db ≠
        { staleDb with
          metricSamples := staleDb.metricSamples.deleteWhere fun _ sample =>
            decide (sample.observedAt < 100)
          collectionRuns := staleDb.collectionRuns.map fun _ run =>
            if run.prunable 100 then { run with rawPayload := "null" } else run } := by
  have hrun : (((new 900 1).cleanup (.recorded []) 1000 1002 (List.replicate 4 quietCall)
      ⟨staleDb, 0, 0⟩).bind fun r => r.1.2.db.collectionRuns[(0xc1 : Uuid)]?).map
        RunRow.payloadPrunedAt = some (some 1001) := by
    decide +kernel
  cases hr : (new 900 1).cleanup (.recorded []) 1000 1002 (List.replicate 4 quietCall)
      ⟨staleDb, 0, 0⟩ with
  | none =>
    rw [hr] at hrun
    cases hrun
  | some r =>
    refine ⟨r, rfl, fun _ hcall => by rw [List.eq_of_mem_replicate hcall]; exact ⟨rfl, rfl⟩, ?_⟩
    intro heq
    rw [hr, Option.bind_some, heq] at hrun
    revert hrun
    decide +kernel

end Retention

end NexusTier
