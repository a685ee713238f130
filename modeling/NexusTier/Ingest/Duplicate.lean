import NexusTier.Ingest.History

/-!
# Retries, and collection ids that are used twice

`collection_id` is the idempotency key of ingestion: the same payload under it is a retry and is
answered with `false`, any other payload is an error, and neither changes anything.  The answer
comes from the stored run, through its fingerprint, or through the payload itself where the run
is older than the migration that introduced fingerprints, and it has to stay the same while the
retention worker removes payloads.

`Ledger` is the ghost of that history, the snapshot first stored under each id, and `StoredAs` what
ties a row to it.  The invariant survives every call because a payload is only ever pruned from a
run that keeps its fingerprint.

## What is here

* `StoredAs` and `Ledger`: what a row has to remember of its snapshot, and that all rows do.
* `Ledger.execAll`: every run of calls keeps it, pruning included.
* `duplicate_detection`: so the answer to a retry, and to an id that is used twice, is the same for
  ever.

## What is left out

`Encoding.Faithful` is an assumption: that the texts of two payloads differ, that their hashes do,
and that their `jsonb` values do.  The last is used only for rows without a fingerprint, and leaves
out payloads that differ in the sign of a zero, which `jsonb` does not keep.
-/

set_option autoImplicit false

namespace NexusTier

open Relational

/-! ## What a run remembers -/

/-- The run stored under `id` is that of `snapshot`: by its fingerprint, or, for a run from before
there were fingerprints, by its payload, which is then unpruned. -/
structure StoredAs (E : Encoding) (id : Uuid) (snapshot : Snapshot) (run : RunRow) : Prop where
  id_eq : snapshot.collectionID = id
  valid : snapshot.Valid
  texts : storable snapshot.texts = true
  payload : run.rawPayloadSHA256 = some (E.sha256 (E.marshal snapshot)) ∨
    (run.rawPayloadSHA256 = none ∧ run.rawPayload = E.jsonb (E.marshal snapshot) ∧
      run.payloadPrunedAt = none)

/-- Under every id that is in use, the snapshot `first id` was stored first. -/
def Ledger (E : Encoding) (first : Uuid → Snapshot) (db : Db) : Prop :=
  db.collectionRuns.All fun id run => StoredAs E id (first id) run

/-- What is assumed of JSON, SHA-256 and `jsonb`, on two payloads: they tell them apart.  That the
cast to `jsonb` does is used for rows without a fingerprint only.  It does not tell minus zero from
zero, so for such rows payloads that differ in nothing else are left out. -/
structure Encoding.Faithful (E : Encoding) (s s' : Snapshot) : Prop where
  marshal : E.marshal s = E.marshal s' → s = s'
  sha256 : E.sha256 (E.marshal s) = E.sha256 (E.marshal s') → E.marshal s = E.marshal s'
  jsonb : E.jsonb (E.marshal s) = E.jsonb (E.marshal s') → E.marshal s = E.marshal s'

/-- The snapshot first stored under `id` after a run from `db`, where `first` tells those that
`db` already holds. -/
def firstStored (E : Encoding) (first : Uuid → Snapshot) (ops : List Op) (db : Db) (id : Uuid) :
    Snapshot :=
  if db.collectionRuns.contains id then first id
  else ((accepted E ops db).find? fun s => s.collectionID = id).getD (first id)

section

variable {E : Encoding} {id : Uuid} {s : Snapshot} {run : RunRow}

theorem StoredAs.matchesPayload (h : StoredAs E id s run) : run.matchesPayload E s = true := by
  rcases h.payload with hp | ⟨hnone, hp, _⟩
  · simp [RunRow.matchesPayload, hp]
  · simp [RunRow.matchesPayload, hnone, hp]

theorem StoredAs.eq_of_matchesPayload {s' : Snapshot} (h : StoredAs E id s run)
    (hE : E.Faithful s' s) (hm : run.matchesPayload E s' = true) : s' = s := by
  rcases h.payload with hp | ⟨hnone, hp, _⟩
  · simp only [RunRow.matchesPayload, hp, decide_eq_true_eq] at hm
    exact hE.marshal (hE.sha256 hm.symm)
  · simp only [RunRow.matchesPayload, hnone, hp, decide_eq_true_eq] at hm
    exact hE.marshal (hE.jsonb hm.symm)

theorem StoredAs.fingerprint_of_pruned (h : StoredAs E id s run)
    (hp : run.payloadPrunedAt.isSome = true) : run.rawPayloadSHA256.isSome = true := by
  rcases h.payload with hs | ⟨_, _, hnone⟩
  · simp [hs]
  · simp [hnone] at hp

/-- Pruning a run that may be pruned leaves it the run of its snapshot. -/
theorem StoredAs.prune (h : StoredAs E id s run) {now cutoff : Timestamp}
    (hp : run.prunable cutoff = true) : StoredAs E id s (run.prune now) := by
  refine ⟨h.id_eq, h.valid, h.texts, .inl ?_⟩
  rcases h.payload with hs | ⟨hnone, _⟩
  · exact hs
  · simp [RunRow.prunable, hnone] at hp

end

/-! ## The ledger is kept -/

section

variable {E : Encoding} {first : Uuid → Snapshot} {db : Db}

theorem Ledger.congr {first' : Uuid → Snapshot} (h : Ledger E first db)
    (heq : ∀ id run, db.collectionRuns[id]? = some run → first' id = first id) :
    Ledger E first' db := by
  intro id run hrun
  have hstored : StoredAs E id (first id) run := h id run hrun
  rwa [← heq id run hrun] at hstored

theorem firstStored_of_mem (ops : List Op) {id : Uuid} {run : RunRow}
    (h : db.collectionRuns[id]? = some run) : firstStored E first ops db id = first id := by
  have hc : db.collectionRuns.contains id = true := Table.contains_eq_true.2 ⟨run, h⟩
  simp [firstStored, hc]

/-- A call keeps the ledger, extended by the snapshot it takes in. -/
theorem Ledger.exec (h : Ledger E first db) (op : Op) :
    Ledger E (firstStored E first [op] db) (op.exec E db) := by
  have hbase : Ledger E (firstStored E first [op] db) db :=
    h.congr fun id run hrun => firstStored_of_mem [op] hrun
  cases op with
  | ingest now s =>
    cases hi : NexusTier.ingest E now s db with
    | error e => simpa [Op.exec, hi] using hbase
    | ok r =>
      obtain ⟨new, db'⟩ := r
      obtain ⟨hv, ht, ⟨_, _, _, rfl, rfl⟩ | ⟨hn, rfl, rfl⟩⟩ := ingest_eq_ok hi
      · simpa [Op.exec, hi] using hbase
      · have hacc : accepted E [.ingest now s] db = [s] := by simp [accepted, Op.accepted, hi]
        have hexec : (Op.ingest now s).exec E db = s.apply E now db := by simp [Op.exec, hi]
        rw [hexec]
        intro id run hrun
        rw [Snapshot.apply_collectionRuns, Table.getElem?_insert] at hrun
        split at hrun
        · rename_i hid
          subst hid
          have hc : db.collectionRuns.contains s.collectionID = false := by
            rw [Std.ExtTreeMap.contains_eq_isSome_getElem?, hn]
            rfl
          have hfirst : firstStored E first [.ingest now s] db s.collectionID = s := by
            simp [firstStored, hc, hacc]
          rw [hfirst, ← Option.some_inj.1 hrun]
          exact ⟨rfl, hv, ht, .inl rfl⟩
        · exact hbase id run hrun
  | deleteMetricSamples tie cutoff limit => exact hbase
  | prunePayloads now cutoff limit =>
    intro id run hrun
    have hmap : (db.collectionRuns[id]?.map fun run =>
        if (expiredPayloads cutoff limit db).contains id then run.prune now else run) = some run := by
      simpa [Op.exec, pruneCollectionPayloadsBefore] using hrun
    obtain ⟨old, hold, rfl⟩ := Option.map_eq_some_iff.1 hmap
    split
    · rename_i hmem
      obtain ⟨run', hrun', hp⟩ := mem_expiredPayloads (List.contains_iff_mem.1 hmem)
      rw [hold, Option.some_inj] at hrun'
      subst hrun'
      exact (hbase id old hold).prune hp
    · exact hbase id old hold

theorem contains_exec (op : Op) (id : Uuid) :
    (op.exec E db).collectionRuns.contains id =
      (db.collectionRuns.contains id || ((op.accepted E db).any fun s => s.collectionID = id)) := by
  cases op with
  | ingest now s =>
    cases hi : NexusTier.ingest E now s db with
    | error e => simp [Op.exec, Op.accepted, hi]
    | ok r =>
      obtain ⟨new, db'⟩ := r
      obtain ⟨_, _, ⟨_, _, _, rfl, rfl⟩ | ⟨_, rfl, rfl⟩⟩ := ingest_eq_ok hi
      · simp [Op.exec, Op.accepted, hi]
      · rw [Bool.eq_iff_iff]
        simp [Op.exec, Op.accepted, hi, or_comm]
  | deleteMetricSamples tie cutoff limit => simp [Op.exec, Op.accepted, deleteMetricSamplesBefore]
  | prunePayloads now cutoff limit =>
    simp [Op.exec, Op.accepted, pruneCollectionPayloadsBefore, Table.updateWhere]

/-- An id is in use after a run if it was before, or a snapshot was taken in under it. -/
theorem contains_execAll (ops : List Op) (id : Uuid) :
    (execAll E ops db).collectionRuns.contains id =
      (db.collectionRuns.contains id ||
        (accepted E ops db).any fun s => s.collectionID = id) := by
  induction ops generalizing db with
  | nil => simp [execAll, accepted]
  | cons op ops ih =>
    show (execAll E ops (op.exec E db)).collectionRuns.contains id = _
    rw [ih, contains_exec, accepted, List.any_append, Bool.or_assoc]
    cases op.accepted E db <;> simp

/-- No two snapshots are taken in under one id. -/
theorem nodup_accepted (ops : List Op) :
    ((accepted E ops db).map Snapshot.collectionID).Nodup := by
  induction ops using List.reverseRecOn with
  | nil => exact List.nodup_nil
  | append_singleton ops op ih =>
    rw [accepted_concat, List.map_append, List.nodup_append]
    refine ⟨ih, ?_, fun id hid id' hid' heq => ?_⟩
    · cases op.accepted E (execAll E ops db) <;> simp
    · obtain ⟨s, hs, rfl⟩ := List.mem_map.1 hid
      obtain ⟨s', hs', rfl⟩ := List.mem_map.1 hid'
      obtain ⟨_, s'', hacc, _, _, hnone, _⟩ | ⟨hacc, _⟩ := op.accepted_cases E (execAll E ops db)
      · rw [hacc, Option.toList_some, List.mem_singleton] at hs'
        subst hs'
        have hin : (execAll E ops db).collectionRuns.contains s'.collectionID = true := by
          rw [contains_execAll, ← heq]
          simp only [Bool.or_eq_true, List.any_eq_true, decide_eq_true_eq]
          exact .inr ⟨s, hs, rfl⟩
        rw [Std.ExtTreeMap.contains_eq_isSome_getElem?, hnone] at hin
        simp at hin
      · simp [hacc] at hs'

/-- A snapshot is taken in under an id that was not in use. -/
theorem not_contains_of_mem_accepted {ops : List Op} {s : Snapshot} (h : s ∈ accepted E ops db) :
    db.collectionRuns.contains s.collectionID = false := by
  induction ops generalizing db with
  | nil => simp [accepted] at h
  | cons op ops ih =>
    rw [accepted, List.mem_append] at h
    rcases h with h | h
    · obtain ⟨_, s', hacc, _, _, hnone, _⟩ | ⟨hacc, _⟩ := op.accepted_cases E db
      · rw [hacc, Option.toList_some, List.mem_singleton] at h
        rw [h, Std.ExtTreeMap.contains_eq_isSome_getElem?, hnone, Option.isSome_none]
      · simp [hacc] at h
    · have hlater := ih h
      rw [contains_exec, Bool.or_eq_false_iff] at hlater
      exact hlater.1

/-- A snapshot that a run takes in is the first one stored under its id. -/
theorem firstStored_of_mem_accepted {ops : List Op} {s : Snapshot} (h : s ∈ accepted E ops db) :
    firstStored E first ops db s.collectionID = s := by
  have hnew := not_contains_of_mem_accepted h
  have hfind : (accepted E ops db).find? (fun s' => s'.collectionID = s.collectionID) = some s := by
    obtain ⟨s', hs'⟩ : ∃ s', (accepted E ops db).find?
        (fun s' => s'.collectionID = s.collectionID) = some s' := by
      rw [← Option.isSome_iff_exists, List.find?_isSome]
      exact ⟨s, h, by simp⟩
    have hid : s'.collectionID = s.collectionID := by simpa using List.find?_some hs'
    rw [hs', List.inj_on_of_nodup_map (nodup_accepted ops) (List.mem_of_find?_eq_some hs') h hid]
  simp [firstStored, hnew, hfind]

theorem firstStored_concat (ops : List Op) (op : Op) (id : Uuid) :
    firstStored E (firstStored E first ops db) [op] (execAll E ops db) id =
      firstStored E first (ops ++ [op]) db id := by
  have hone : accepted E [op] (execAll E ops db) =
      (op.accepted E (execAll E ops db)).toList := by simp [accepted]
  by_cases hdb : db.collectionRuns.contains id = true
  · simp [firstStored, contains_execAll, hdb]
  · by_cases hmem : ((accepted E ops db).any fun s => s.collectionID = id) = true
    · obtain ⟨s, hs⟩ : ∃ s, (accepted E ops db).find? (fun s => s.collectionID = id) = some s := by
        rw [← Option.isSome_iff_exists, List.find?_isSome]
        simpa using hmem
      simp [firstStored, contains_execAll, hdb, hmem, accepted_concat, hs]
    · have hnone : (accepted E ops db).find? (fun s => s.collectionID = id) = none := by
        rw [List.find?_eq_none]
        simpa using hmem
      simp [firstStored, contains_execAll, hdb, hmem, accepted_concat, hnone, hone]

/-- **Every run keeps the ledger.** -/
theorem Ledger.execAll (h : Ledger E first db) (ops : List Op) :
    Ledger E (firstStored E first ops db) (NexusTier.execAll E ops db) := by
  induction ops using List.reverseRecOn with
  | nil =>
    exact h.congr fun id run hrun => firstStored_of_mem [] hrun
  | append_singleton ops op ih =>
    rw [execAll_concat]
    exact (funext (firstStored_concat ops op)) ▸ ih.exec op

end

/-! ## The answer -/

section

variable {E : Encoding} {first : Uuid → Snapshot} {db : Db} {now : Timestamp} {s : Snapshot}
  {run : RunRow}

theorem ingest_first (h : Ledger E first db)
    (hrun : db.collectionRuns[s.collectionID]? = some run) (hs : s = first s.collectionID) :
    ingest E now s db = .ok (false, db) := by
  have hstored : StoredAs E s.collectionID (first s.collectionID) run := h _ run hrun
  rw [← hs] at hstored
  have hv := hstored.valid
  have hvalidate : (s.validate).mapError IngestError.validate = .ok () := by
    rw [Snapshot.validate_eq_ok.2 hv]
    rfl
  have hstarted : millis s.startedAtMS ≤ millis s.completedAtMS :=
    (millis_le_millis_iff (UInt64.le_trans hv.started_le hv.completed_le) hv.completed_le).2
      hv.started_le
  simp only [ingest, unit_bind_eq_ok, check_eq_ok]
  refine ⟨hvalidate, hstored.texts, hstarted, congrArg millis hv.collected_eq, ?_⟩
  simp only [hrun, unit_bind_eq_ok, check_eq_ok, pure_eq_ok]
  exact ⟨hstored.matchesPayload, trivial⟩

theorem ingest_other (h : Ledger E first db)
    (hrun : db.collectionRuns[s.collectionID]? = some run) (hs : s ≠ first s.collectionID)
    (hE : E.Faithful s (first s.collectionID)) : ∃ e, ingest E now s db = .error e := by
  cases hi : ingest E now s db with
  | error e => exact ⟨e, rfl⟩
  | ok r =>
    obtain ⟨new, db'⟩ := r
    obtain ⟨_, _, ⟨run', hrun', hm, _⟩ | ⟨hn, _⟩⟩ := ingest_eq_ok hi
    · rw [hrun, Option.some_inj] at hrun'
      subst hrun'
      exact absurd ((h _ _ hrun).eq_of_matchesPayload hE hm) hs
    · simp [hrun] at hn

/-- Whatever the answer, an id in use leaves the database as it is. -/
theorem exec_ingest_of_mem (hrun : db.collectionRuns[s.collectionID]? = some run) :
    (Op.ingest now s).exec E db = db := by
  rw [Op.exec]
  split
  · rename_i new db' hi
    obtain ⟨_, _, ⟨_, _, _, _, rfl⟩ | ⟨hn, _⟩⟩ := ingest_eq_ok hi
    · rfl
    · simp [hrun] at hn
  · rfl

end

/-- **Exact duplicate detection, for ever.**  After any run from a database whose runs remember
their snapshots, by fingerprint or by an unpruned payload, a snapshot under an id in use is
answered with `false` if it is the one first stored there and with an error if it is any other,
nothing changes, and no run is ever pruned without a fingerprint. -/
theorem duplicate_detection {E : Encoding} {first : Uuid → Snapshot} {db : Db}
    (h : Ledger E first db) (ops : List Op) :
    (∀ now s, (execAll E ops db).collectionRuns.contains s.collectionID = true →
      (s = firstStored E first ops db s.collectionID →
        ingest E now s (execAll E ops db) = .ok (false, execAll E ops db)) ∧
      (s ≠ firstStored E first ops db s.collectionID →
        E.Faithful s (firstStored E first ops db s.collectionID) →
        ∃ e, ingest E now s (execAll E ops db) = .error e) ∧
      (Op.ingest now s).exec E (execAll E ops db) = execAll E ops db) ∧
    (execAll E ops db).collectionRuns.All fun _ run =>
      run.payloadPrunedAt.isSome = true → run.rawPayloadSHA256.isSome = true := by
  have hledger := h.execAll ops
  refine ⟨fun now s hmem => ?_, fun id run hrun hp => (hledger id run hrun).fingerprint_of_pruned hp⟩
  obtain ⟨run, hrun⟩ := Table.contains_eq_true.1 hmem
  exact ⟨ingest_first hledger hrun, ingest_other hledger hrun, exec_ingest_of_mem hrun⟩

/-- A collection that met no machine, and another one under its id. -/
def sampleEmpty : Snapshot := sampleSnapshot 0xc9 1000 2000 []

def sampleReused : Snapshot := sampleSnapshot 0xc9 1000 2500 []

def reuseEncoding : Encoding :=
  .recorded
    [(sampleAbsence.payload,
        .ofFin 0xb0f22d22f1fd266f916bfedd90b012c9451649148267d40e752354131414a0b5),
      (sampleEmpty.payload,
        .ofFin 0x14f1fdfd3e9d6888a24a87ad76bc3c33aed7fe60191bae4aae559d12738d96a4),
      (sampleReused.payload,
        .ofFin 0x346e0c846432a8c0246bd39ab3e9d81d9d381d66b4c92ec08bd8d0005a93de69)]

/-- A database with one run, stored before there were fingerprints. -/
def legacyDb : Db :=
  { Db.empty with
    collectionRuns := (∅ : Table Uuid RunRow).insert 0xc2
      { runRow reuseEncoding 5000000 sampleAbsence with rawPayloadSHA256 := none } }

/-- A collection is stored, and then every payload that may be pruned is. -/
def reuseRun : List Op :=
  [.ingest 7000000 sampleEmpty, .prunePayloads 8000000 9000000 10]

theorem legacyDb_ledger : Ledger reuseEncoding (fun _ => sampleAbsence) legacyDb := by
  intro id run hrun
  have hget : (if (0xc2 : Uuid) = id then
      some { runRow reuseEncoding 5000000 sampleAbsence with rawPayloadSHA256 := none } else none) =
        some run := by
    simpa [legacyDb, Table.getElem?_insert] using hrun
  split at hget
  · rename_i hid
    subst hid
    rw [← Option.some_inj.1 hget]
    exact ⟨rfl, Snapshot.validate_eq_ok.1 (by decide +kernel), by decide +kernel,
      .inr ⟨rfl, rfl, rfl⟩⟩
  · simp at hget

theorem duplicate_detection_reuseRun :
    let db := execAll reuseEncoding reuseRun legacyDb
    ingest reuseEncoding 9000000 sampleAbsence db = .ok (false, db) ∧
      ingest reuseEncoding 9000000 sampleEmpty db = .ok (false, db) ∧
      (∃ e, ingest reuseEncoding 9000000 sampleReused db = .error e) ∧
      (Op.ingest 9000000 sampleReused).exec reuseEncoding db = db := by
  have hdetect := (duplicate_detection legacyDb_ledger reuseRun).1 9000000
  have hempty := hdetect sampleEmpty (by decide +kernel)
  have hreused := hdetect sampleReused (by decide +kernel)
  have hfaithful : reuseEncoding.Faithful sampleReused
      (firstStored reuseEncoding (fun _ => sampleAbsence) reuseRun legacyDb
        sampleReused.collectionID) := by
    have hfirst : firstStored reuseEncoding (fun _ => sampleAbsence) reuseRun legacyDb
        sampleReused.collectionID = sampleEmpty := by decide +kernel
    rw [hfirst]
    have hpayload : sampleReused.payload ≠ sampleEmpty.payload := by decide +kernel
    have hdigest : reuseEncoding.sha256 sampleReused.payload ≠
        reuseEncoding.sha256 sampleEmpty.payload := by decide +kernel
    exact ⟨fun h => absurd h hpayload, fun h => absurd h hdigest, fun h => h⟩
  exact ⟨(hdetect sampleAbsence (by decide +kernel)).1 (by decide +kernel),
    hempty.1 (by decide +kernel), hreused.2.1 (by decide +kernel) hfaithful, hreused.2.2⟩

end NexusTier
