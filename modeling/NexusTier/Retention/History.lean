import NexusTier.Ingest.Duplicate
import NexusTier.Ingest.Storable
import NexusTier.Retention.Cleaner

/-!
# What a history leaves in the logs

`metric_samples` and `collection_runs` only grow, as far as `Ingest` goes: each snapshot that is
taken in adds a run and its samples, under keys that no other snapshot uses.  What takes away again
is the retention worker, a batch at a time.

## What is here

* `history_exact` — after any history, a sample of a snapshot that was taken in is there as it was
  reported, unless a later call has expired it; its run is there, with its payload unless a later
  call has pruned that; and there is nothing else;
* `oldest_first` — of two samples that were there at one time, the one that is gone is not the
  newer one, and the same goes for the payloads of two runs.

## What is left out

Which of several samples of the same time goes first: that is for the server to choose.
-/

set_option autoImplicit false

namespace NexusTier

open Relational Retention

/-! ## What a call can do -/

/-- The samples a snapshot brings. -/
def Snapshot.samples (E : Encoding) (s : Snapshot) : List (MetricKey × MetricRow) :=
  s.instances.flatMap (metricWrites E s.collectionID)

/-- A sample of that time is too old for the call. -/
def Op.Expires (observedAt : Timestamp) : Op → Prop
  | .deleteMetricSamples _ cutoff _ => observedAt < cutoff
  | _ => False

/-- A payload of a run that ended then is too old for the call, which is made at `now`. -/
def Op.Prunes (completedAt now : Timestamp) : Op → Prop
  | .prunePayloads now' cutoff _ => now' = now ∧ completedAt < cutoff
  | _ => False

section Calls

variable {E : Encoding} {db : Db} {s : Snapshot} {ops : List Op}

/-- What the database asks of a snapshot has been asked of one that was taken in. -/
theorem storable_of_accepted (hdb : db.Logged) {op : Op} (h : op.accepted E db = some s) :
    s.Storable E := by
  obtain ⟨now, s', hacc, hv, rfl, hnew, _⟩ | ⟨hacc, _⟩ := op.accepted_cases E db
  · obtain rfl := Option.some.inj (hacc.symm.trans h)
    refine (@ingest_eq_ok_iff E now _ _ hdb hv hnew).1 ?_
    simp only [Op.accepted] at h
    split at h
    · exact ⟨_, ‹_›⟩
    · cases h
  · simp [hacc] at h

/-- A snapshot is taken in under an id that was free, or the call changes nothing. -/
theorem ingest_exec_cases (E : Encoding) (db : Db) (now : Timestamp) (s : Snapshot) :
    ((Op.ingest now s).accepted E db = some s ∧ db.collectionRuns[s.collectionID]? = none ∧
      (Op.ingest now s).exec E db = s.apply E now db) ∨
    ((Op.ingest now s).accepted E db = none ∧ (Op.ingest now s).exec E db = db) := by
  cases hi : NexusTier.ingest E now s db with
  | error e => exact .inr (by simp [Op.accepted, Op.exec, hi])
  | ok r =>
    obtain ⟨new, db'⟩ := r
    obtain ⟨_, _, ⟨_, _, _, rfl, rfl⟩ | ⟨hnew, rfl, rfl⟩⟩ := ingest_eq_ok hi
    · exact .inr (by simp [Op.accepted, Op.exec, hi])
    · exact .inl ⟨by simp [Op.accepted, hi], hnew, by simp [Op.exec, hi]⟩

theorem sample_exec (op : Op) {key : MetricKey}
    (hkey : db.collectionRuns.contains key.collectionID = true) :
    (op.exec E db).metricSamples[key]? = db.metricSamples[key]? ∨
      (op.exec E db).metricSamples[key]? = none ∧
        ∃ sample, db.metricSamples[key]? = some sample ∧ op.Expires sample.observedAt := by
  cases op with
  | ingest now s =>
    refine .inl ?_
    obtain ⟨_, hnew, hexec⟩ | ⟨_, hexec⟩ := ingest_exec_cases E db now s
    · rw [hexec, Snapshot.apply_metricSamples, Table.getElem?_insertAll_of_not_mem]
      intro hmem
      rw [mem_metricWrites hmem, Std.ExtTreeMap.contains_eq_isSome_getElem?, hnew] at hkey
      cases hkey
    · rw [hexec]
  | deleteMetricSamples tie cutoff limit =>
    simp only [Op.exec, getElem?_deleteMetricSamplesBefore]
    split
    · rename_i hmem
      obtain ⟨sample, hsample, hp⟩ := Table.exists_of_mem_batch hmem
      exact .inr ⟨rfl, sample, hsample, by simpa [sampleExpired, Op.Expires] using hp⟩
    · exact .inl rfl
  | prunePayloads now cutoff limit => exact .inl rfl

/-- A key of a stored run gets no new sample, and loses the one it has to a call that it is too old
for. -/
theorem sample_execAll (ops : List Op) {key : MetricKey}
    (hkey : db.collectionRuns.contains key.collectionID = true) :
    (execAll E ops db).metricSamples[key]? = db.metricSamples[key]? ∨
      (execAll E ops db).metricSamples[key]? = none ∧
        ∃ sample, db.metricSamples[key]? = some sample ∧
          ∃ op ∈ ops, op.Expires sample.observedAt := by
  induction ops generalizing db with
  | nil => exact .inl rfl
  | cons op ops ih =>
    have hkey' : (op.exec E db).collectionRuns.contains key.collectionID = true := by
      rw [contains_exec, hkey, Bool.true_or]
    show (execAll E ops (op.exec E db)).metricSamples[key]? = _ ∨
      (execAll E ops (op.exec E db)).metricSamples[key]? = none ∧ _
    rcases sample_exec (E := E) op hkey with heq | ⟨hnone, sample, hsample, hexp⟩
    · rw [← heq]
      rcases ih hkey' with h | ⟨h, sample, hsample, op', hop', hexp⟩
      · exact .inl h
      · exact .inr ⟨h, sample, hsample, op', List.mem_cons_of_mem _ hop', hexp⟩
    · refine .inr ⟨?_, sample, hsample, op, List.mem_cons_self, hexp⟩
      rcases ih hkey' with h | ⟨h, _⟩
      · rw [h, hnone]
      · exact h

theorem run_exec (op : Op) {id : Uuid} {run : RunRow} (h : db.collectionRuns[id]? = some run) :
    (op.exec E db).collectionRuns[id]? = some run ∨
      ∃ t, run.payloadPrunedAt = none ∧ op.Prunes run.completedAt t ∧
        (op.exec E db).collectionRuns[id]? = some (run.prune t) := by
  cases op with
  | ingest now s =>
    refine .inl ?_
    obtain ⟨_, hnew, hexec⟩ | ⟨_, hexec⟩ := ingest_exec_cases E db now s
    · have hid : s.collectionID ≠ id := by
        rintro rfl
        simp [hnew] at h
      rw [hexec, Snapshot.apply_collectionRuns, Table.getElem?_insert, if_neg hid, h]
    · rw [hexec, h]
  | deleteMetricSamples tie cutoff limit => exact .inl h
  | prunePayloads now cutoff limit =>
    simp only [Op.exec, getElem?_pruneCollectionPayloadsBefore, h, Option.map_some]
    split
    · rename_i hmem
      obtain ⟨run', hrun', hp⟩ := Table.exists_of_mem_batch hmem
      obtain rfl := Option.some.inj (h.symm.trans hrun')
      have hlt : run.completedAt < cutoff := by
        simp only [RunRow.prunable, Bool.and_eq_true, decide_eq_true_eq] at hp
        exact hp.1.1
      exact .inr ⟨now, prunable_payloadPrunedAt hp, ⟨rfl, hlt⟩, rfl⟩
    · exact .inl rfl

/-- A run stays, and its payload is pruned once at most. -/
theorem run_execAll (ops : List Op) {id : Uuid} {run : RunRow}
    (h : db.collectionRuns[id]? = some run) :
    (execAll E ops db).collectionRuns[id]? = some run ∨
      ∃ t, run.payloadPrunedAt = none ∧ (∃ op ∈ ops, op.Prunes run.completedAt t) ∧
        (execAll E ops db).collectionRuns[id]? = some (run.prune t) := by
  induction ops generalizing db run with
  | nil => exact .inl h
  | cons op ops ih =>
    show (execAll E ops (op.exec E db)).collectionRuns[id]? = _ ∨
      ∃ t, _ ∧ _ ∧ (execAll E ops (op.exec E db)).collectionRuns[id]? = _
    rcases run_exec (E := E) op h with hkept | ⟨t, hnone, hprunes, hpruned⟩
    · rcases ih hkept with h | ⟨t, hnone, ⟨op', hop', hprunes⟩, h⟩
      · exact .inl h
      · exact .inr ⟨t, hnone, ⟨op', List.mem_cons_of_mem _ hop', hprunes⟩, h⟩
    · refine .inr ⟨t, hnone, ⟨op, List.mem_cons_self, hprunes⟩, ?_⟩
      rcases ih hpruned with h | ⟨t', hnone', _⟩
      · exact h
      · simp [RunRow.prune] at hnone'

end Calls

/-! ## The history -/

/-- What is left of a snapshot that was taken in at `now`, after later calls. -/
structure Keeps (E : Encoding) (now : Timestamp) (s : Snapshot) (later : List Op) (db : Db) :
    Prop where
  samples : ∀ e ∈ s.samples E, db.metricSamples[e.1]? = some e.2 ∨
    db.metricSamples[e.1]? = none ∧ ∃ op ∈ later, op.Expires e.2.observedAt
  run : db.collectionRuns[s.collectionID]? = some (runRow E now s) ∨
    ∃ t, (∃ op ∈ later, op.Prunes (millis s.completedAtMS) t) ∧
      db.collectionRuns[s.collectionID]? = some ((runRow E now s).prune t)

section History

variable {E : Encoding} {db : Db} {s : Snapshot} {now : Timestamp}

theorem keeps_execAll (hdb : db.Logged) (h : (Op.ingest now s).accepted E db = some s)
    (later : List Op) : Keeps E now s later (execAll E (.ingest now s :: later) db) := by
  have hstorable := storable_of_accepted hdb h
  obtain ⟨_, _, hexec⟩ | ⟨hacc, _⟩ := ingest_exec_cases E db now s
  swap
  · simp [hacc] at h
  have hcons : execAll E (.ingest now s :: later) db = execAll E later (s.apply E now db) := by
    rw [← hexec]
    rfl
  rw [hcons]
  have hrun : (s.apply E now db).collectionRuns[s.collectionID]? = some (runRow E now s) := by
    simp
  constructor
  · intro e he
    have hstored : (s.apply E now db).metricSamples[e.1]? = some e.2 := by
      rw [Snapshot.apply_metricSamples]
      exact Table.getElem?_insertAll_of_mem (metricKeys_eq (E := E) ▸ hstorable.metrics) he
    have hkey : (s.apply E now db).collectionRuns.contains e.1.collectionID = true := by
      rw [mem_metricWrites (E := E) (List.mem_map_of_mem he)]
      exact Table.contains_eq_true.2 ⟨_, hrun⟩
    rcases sample_execAll (E := E) later hkey with hsame | ⟨hnone, sample, hsample, hop⟩
    · exact .inl (hsame.trans hstored)
    · obtain rfl := Option.some.inj (hstored.symm.trans hsample)
      exact .inr ⟨hnone, hop⟩
  · rcases run_execAll (E := E) later hrun with hsame | ⟨t, _, hop, hpruned⟩
    · exact .inl hsame
    · exact .inr ⟨t, hop, hpruned⟩

/-- A call adds no samples but those of the snapshot it takes in. -/
theorem sample_of_exec (hdb : db.Logged) {op : Op} {key : MetricKey} {sample : MetricRow}
    (h : (op.exec E db).metricSamples[key]? = some sample) :
    db.metricSamples[key]? = some sample ∨
      ∃ s, op.accepted E db = some s ∧ (key, sample) ∈ s.samples E := by
  cases op with
  | ingest now s =>
    obtain ⟨hacc, _, hexec⟩ | ⟨_, hexec⟩ := ingest_exec_cases E db now s
    · rw [hexec, Snapshot.apply_metricSamples] at h
      by_cases hkey : key ∈ (s.samples E).map Prod.fst
      · obtain ⟨e, he, rfl⟩ := List.mem_map.1 hkey
        have hnodup : ((s.samples E).map Prod.fst).Nodup :=
          metricKeys_eq (E := E) ▸ (storable_of_accepted hdb hacc).metrics
        obtain rfl := Option.some.inj ((Table.getElem?_insertAll_of_mem hnodup he).symm.trans h)
        exact .inr ⟨s, hacc, he⟩
      · exact .inl ((Table.getElem?_insertAll_of_not_mem hkey).symm.trans h)
    · exact .inl (by rwa [hexec] at h)
  | deleteMetricSamples tie cutoff limit =>
    simp only [Op.exec, getElem?_deleteMetricSamplesBefore] at h
    split at h
    · cases h
    · exact .inl h
  | prunePayloads now cutoff limit => exact .inl h

theorem samples_reported (ops : List Op) :
    (execAll E ops Db.empty).metricSamples.All fun key sample =>
      ∃ s ∈ accepted E ops Db.empty, (key, sample) ∈ s.samples E := by
  induction ops using List.reverseRecOn with
  | nil => exact Table.all_empty
  | append_singleton ops op ih =>
    rw [execAll_concat, accepted_concat]
    intro key sample hsample
    rcases sample_of_exec (Reachable.logged ⟨ops, rfl⟩) hsample with hold | ⟨s, hacc, hmem⟩
    · obtain ⟨s, hs, hmem⟩ := ih key sample hold
      exact ⟨s, List.mem_append_left _ hs, hmem⟩
    · exact ⟨s, by simp [hacc], hmem⟩

/-- **The logs hold what was reported, until a batch takes it.**  After any history, every sample
and every run is one of a snapshot that was taken in.  What was taken in is still there, as it was
then, save for the samples that a later call has expired and a payload that one has pruned. -/
theorem history_exact (E : Encoding) (ops : List Op) :
    (execAll E ops Db.empty).metricSamples.All (fun key sample =>
        ∃ s ∈ accepted E ops Db.empty, (key, sample) ∈ s.samples E) ∧
      (∀ id, (execAll E ops Db.empty).collectionRuns.contains id = true ↔
        ∃ s ∈ accepted E ops Db.empty, s.collectionID = id) ∧
      ∀ before now s later, ops = before ++ .ingest now s :: later →
        (Op.ingest now s).accepted E (execAll E before Db.empty) = some s →
          Keeps E now s later (execAll E ops Db.empty) := by
  refine ⟨samples_reported ops, fun id => ?_, ?_⟩
  · rw [contains_execAll]
    simp [Db.empty]
  · rintro before now s later rfl hacc
    rw [execAll_append]
    exact keeps_execAll (Reachable.logged ⟨before, rfl⟩) hacc later

end History

/-! ## The order of expiry -/

section Order

variable {E : Encoding} {db : Db}

instance olderSample_trans (tie : MetricKey → Nat) :
    IsTrans (MetricKey × MetricRow) (OlderSample tie) :=
  ⟨fun _ _ _ => le_trans⟩

instance olderSample_total (tie : MetricKey → Nat) : Std.Total (OlderSample tie) :=
  ⟨fun _ _ => le_total _ _⟩

instance olderRun_trans : IsTrans (Uuid × RunRow) OlderRun := ⟨fun _ _ _ => le_trans⟩

instance olderRun_total : Std.Total OlderRun := ⟨fun _ _ => le_total _ _⟩

/-- A call does not delete a sample and leave an older one. -/
theorem exec_oldest_first (op : Op) {key key' : MetricKey} {sample sample' : MetricRow}
    (hkey : db.collectionRuns.contains key.collectionID = true)
    (h : db.metricSamples[key]? = some sample) (h' : db.metricSamples[key']? = some sample')
    (hgone : (op.exec E db).metricSamples[key]? = none)
    (hkept : (op.exec E db).metricSamples[key']? = some sample') :
    sample.observedAt ≤ sample'.observedAt := by
  cases op with
  | deleteMetricSamples tie cutoff limit =>
    simp only [Op.exec, getElem?_deleteMetricSamplesBefore] at hgone hkept
    have hmem : key ∈ expiredSamples tie cutoff limit db := by
      by_contra hmem
      simp [hmem, h] at hgone
    have hmem' : key' ∉ expiredSamples tie cutoff limit db := by
      intro hmem'
      simp [hmem'] at hkept
    by_cases hold : sample'.observedAt < cutoff
    · have hle : OlderSample tie (key, sample) (key', sample') :=
        Table.rel_of_mem_batch h hmem h' (by simpa [sampleExpired] using hold) hmem'
      exact Prod.Lex.monotone_fst _ _ hle
    · obtain ⟨_, hsample, hp⟩ := Table.exists_of_mem_batch hmem
      obtain rfl := Option.some.inj (h.symm.trans hsample)
      have hexp : sample.observedAt < cutoff := by simpa [sampleExpired] using hp
      exact hexp.le.trans (not_lt.1 hold)
  | ingest now s =>
    rcases sample_exec (E := E) (.ingest now s) hkey with hsame | ⟨_, _, _, hexp⟩
    · simp [hsame, h] at hgone
    · exact hexp.elim
  | prunePayloads now cutoff limit =>
    have hsame : db.metricSamples[key]? = none := hgone
    simp [hsame] at h

/-- A sample that is there in the end was there all along. -/
theorem sample_kept {op : Op} {later : List Op} {key : MetricKey}
    (hkey : db.collectionRuns.contains key.collectionID = true)
    (hkept : (execAll E (op :: later) db).metricSamples.contains key = true) :
    (op.exec E db).metricSamples[key]? = db.metricSamples[key]? := by
  rcases sample_exec (E := E) op hkey with hsame | ⟨hnone, _⟩
  · exact hsame
  · have hkey' : (op.exec E db).collectionRuns.contains key.collectionID = true := by
      rw [contains_exec, hkey, Bool.true_or]
    have hend : (execAll E later (op.exec E db)).metricSamples[key]? = none := by
      rcases sample_execAll (E := E) later hkey' with hsame | ⟨h, _⟩
      · rw [hsame, hnone]
      · exact h
    obtain ⟨sample, hsample⟩ := Table.contains_eq_true.1 hkept
    cases hend.symm.trans hsample

theorem samples_oldest_first (hdb : db.Logged) (later : List Op) {key key' : MetricKey}
    {sample sample' : MetricRow}
    (h : db.metricSamples[key]? = some sample) (h' : db.metricSamples[key']? = some sample')
    (hgone : (execAll E later db).metricSamples[key]? = none)
    (hkept : (execAll E later db).metricSamples.contains key' = true) :
    sample.observedAt ≤ sample'.observedAt := by
  induction later generalizing db with
  | nil => cases h.symm.trans hgone
  | cons op later ih =>
    have hkey := hdb.metrics key sample h
    have hlater : (op.exec E db).metricSamples[key']? = some sample' :=
      (sample_kept (hdb.metrics key' sample' h') hkept).trans h'
    rcases sample_exec (E := E) op hkey with hsame | ⟨hnone, _⟩
    · exact ih (op.exec_logged hdb) (hsame.trans h) hlater hgone hkept
    · exact exec_oldest_first op hkey h h' hnone hlater

/-- The runs that `Ingest` writes have a fingerprint, and keep it. -/
theorem fingerprinted (ops : List Op) :
    (execAll E ops Db.empty).collectionRuns.All fun _ run =>
      run.rawPayloadSHA256.isSome = true := by
  induction ops using List.reverseRecOn with
  | nil => exact Table.all_empty
  | append_singleton ops op ih =>
    rw [execAll_concat]
    intro id run hrun
    cases hold : (execAll E ops Db.empty).collectionRuns[id]? with
    | some run' =>
      have hrun' := ih id run' hold
      rcases run_exec (E := E) op hold with hsame | ⟨t, _, _, hpruned⟩
      · rwa [← Option.some.inj (hsame.symm.trans hrun)]
      · rwa [← Option.some.inj (hpruned.symm.trans hrun)]
    | none =>
      cases op with
      | ingest now s =>
        obtain ⟨_, _, hexec⟩ | ⟨_, hexec⟩ := ingest_exec_cases E (execAll E ops Db.empty) now s
        · rw [hexec, Snapshot.apply_collectionRuns, Table.getElem?_insert, hold] at hrun
          split at hrun
          · rw [← Option.some.inj hrun]
            rfl
          · cases hrun
        · cases hold.symm.trans (hexec ▸ hrun)
      | deleteMetricSamples tie cutoff limit => cases hold.symm.trans hrun
      | prunePayloads now cutoff limit =>
        simp [Op.exec, getElem?_pruneCollectionPayloadsBefore, hold] at hrun

/-- A call does not prune a payload and leave an older one. -/
theorem exec_prunes_oldest_first
    (hdb : db.collectionRuns.All fun _ run => run.rawPayloadSHA256.isSome = true) (op : Op)
    {id id' : Uuid} {run run' : RunRow} {t : Timestamp}
    (h : db.collectionRuns[id]? = some run) (h' : db.collectionRuns[id']? = some run')
    (hnone : run.payloadPrunedAt = none) (hnone' : run'.payloadPrunedAt = none)
    (hpruned : (op.exec E db).collectionRuns[id]? = some (run.prune t))
    (hkept : (op.exec E db).collectionRuns[id']? = some run') :
    run.completedAt ≤ run'.completedAt := by
  have hne : run.prune t ≠ run := fun heq => by
    simpa [RunRow.prune, hnone] using congrArg RunRow.payloadPrunedAt heq
  cases op with
  | prunePayloads now cutoff limit =>
    simp only [Op.exec, getElem?_pruneCollectionPayloadsBefore, h, h', Option.map_some,
      Option.some_inj] at hpruned hkept
    have hmem : id ∈ expiredPayloads cutoff limit db := by
      by_contra hmem
      rw [if_neg hmem] at hpruned
      exact hne hpruned.symm
    have hmem' : id' ∉ expiredPayloads cutoff limit db := by
      intro hmem'
      rw [if_pos hmem'] at hkept
      simpa [RunRow.prune, hnone'] using congrArg RunRow.payloadPrunedAt hkept
    by_cases hold : run'.completedAt < cutoff
    · have hp' : run'.prunable cutoff = true := by
        simp [RunRow.prunable, hold, hnone', hdb id' run' h']
      exact Table.rel_of_mem_batch (r := OlderRun) h hmem h' hp' hmem'
    · obtain ⟨_, hrun, hp⟩ := Table.exists_of_mem_batch hmem
      obtain rfl := Option.some.inj (h.symm.trans hrun)
      simp only [RunRow.prunable, Bool.and_eq_true, decide_eq_true_eq] at hp
      exact hp.1.1.le.trans (not_lt.1 hold)
  | ingest now s =>
    rcases run_exec (E := E) (.ingest now s) h with hsame | ⟨_, _, hprunes, _⟩
    · exact absurd (Option.some.inj (hpruned.symm.trans hsame)) hne
    · exact hprunes.elim
  | deleteMetricSamples tie cutoff limit =>
    exact absurd (Option.some.inj (hpruned.symm.trans h)) hne

/-- A payload that is there in the end was there all along. -/
theorem run_kept {op : Op} {later : List Op} {id : Uuid} {run last : RunRow}
    (h : db.collectionRuns[id]? = some run)
    (hlast : (execAll E (op :: later) db).collectionRuns[id]? = some last)
    (hnone : last.payloadPrunedAt = none) :
    (op.exec E db).collectionRuns[id]? = some run ∧ run.payloadPrunedAt = none := by
  rcases run_execAll (E := E) (op :: later) h with hsame | ⟨t, _, _, hpruned⟩
  · obtain rfl := Option.some.inj (hlast.symm.trans hsame)
    refine ⟨?_, hnone⟩
    rcases run_exec (E := E) op h with hsame | ⟨t, _, _, hpruned⟩
    · exact hsame
    · have hlater : (execAll E later (op.exec E db)).collectionRuns[id]? = some (last.prune t) := by
        rcases run_execAll (E := E) later hpruned with hsame | ⟨_, hfree, _⟩
        · exact hsame
        · simp [RunRow.prune] at hfree
      have heq : last = last.prune t := Option.some.inj (hlast.symm.trans hlater)
      simpa [RunRow.prune, hnone] using congrArg RunRow.payloadPrunedAt heq
  · obtain rfl := Option.some.inj (hlast.symm.trans hpruned)
    simp [RunRow.prune] at hnone

theorem payloads_oldest_first (past later : List Op) {id id' : Uuid} {run run' pruned last : RunRow}
    (h : (execAll E past Db.empty).collectionRuns[id]? = some run)
    (h' : (execAll E past Db.empty).collectionRuns[id']? = some run')
    (hfree : run.payloadPrunedAt = none)
    (hpruned : (execAll E (past ++ later) Db.empty).collectionRuns[id]? = some pruned)
    (hsome : pruned.payloadPrunedAt.isSome = true)
    (hlast : (execAll E (past ++ later) Db.empty).collectionRuns[id']? = some last)
    (hnone : last.payloadPrunedAt = none) : run.completedAt ≤ run'.completedAt := by
  induction later generalizing past with
  | nil =>
    rw [List.append_nil] at hpruned
    obtain rfl := Option.some.inj (h.symm.trans hpruned)
    simp [hfree] at hsome
  | cons op later ih =>
    have hkept := run_kept h' (execAll_append E past (op :: later) Db.empty ▸ hlast) hnone
    rcases run_exec (E := E) op h with hsame | ⟨t, _, _, hpruned'⟩
    · refine ih (past ++ [op]) ?_ ?_ ?_ ?_
      · rwa [execAll_concat]
      · rw [execAll_concat]
        exact hkept.1
      · rwa [List.append_assoc]
      · rwa [List.append_assoc]
    · exact exec_prunes_oldest_first (fingerprinted past) op h h' hfree hkept.2 hpruned' hkept.1

/-- **Oldest first.**  Take two samples that were in the table at one time.  If later on one of them
is gone and the other one is not, the one that is gone is not the newer one.  The same goes for the
payloads of two runs, by the time their collections ended. -/
theorem oldest_first (E : Encoding) (past later : List Op) :
    (∀ (key key' : MetricKey) (sample sample' : MetricRow),
      (execAll E past Db.empty).metricSamples[key]? = some sample →
      (execAll E past Db.empty).metricSamples[key']? = some sample' →
      (execAll E (past ++ later) Db.empty).metricSamples[key]? = none →
      (execAll E (past ++ later) Db.empty).metricSamples.contains key' = true →
        sample.observedAt ≤ sample'.observedAt) ∧
    ∀ (id id' : Uuid) (run run' pruned last : RunRow),
      (execAll E past Db.empty).collectionRuns[id]? = some run →
      (execAll E past Db.empty).collectionRuns[id']? = some run' →
      run.payloadPrunedAt = none →
      (execAll E (past ++ later) Db.empty).collectionRuns[id]? = some pruned →
      pruned.payloadPrunedAt.isSome = true →
      (execAll E (past ++ later) Db.empty).collectionRuns[id']? = some last →
      last.payloadPrunedAt = none →
        run.completedAt ≤ run'.completedAt := by
  constructor
  · intro key key' sample sample' h h' hgone hkept
    rw [execAll_append] at hgone hkept
    exact samples_oldest_first (Reachable.logged ⟨past, rfl⟩) later h h' hgone hkept
  · intro id id' run run' pruned last h h' hfree hpruned hsome hlast hnone
    exact payloads_oldest_first past later h h' hfree hpruned hsome hlast hnone

end Order

/-! ### Two collections, the first of which has expired -/

def sampleLoad (observedAtMS value : UInt64) : Instance :=
  { sampleInstance 0xb1 observedAtMS [] with metrics := some [⟨"rx_bytes", value, none⟩] }

def sampleLoads : Snapshot × Snapshot :=
  (sampleSnapshot 0xe1 1000 2000 [sampleMachine 0xa1 1500 [sampleLoad 1600 10]],
    sampleSnapshot 0xe2 3000 4000 [sampleMachine 0xa1 3500 [sampleLoad 3600 25]])

def loadEncoding : Encoding :=
  .recorded
    [(sampleLoads.1.payload,
        .ofFin 0x5d5bd57e4e6d18654fa78bbca573b7659d2cb17136d42708c374ff5391ae8453),
      (sampleLoads.2.payload,
        .ofFin 0x3de6b5eb922dec8e791ca9eee9ff82eab0bcff71cc5ae520bc05399f2412f2ba),
      (labelsPayload none,
        .ofFin 0x74234e98afe7498fb5daf1f36ac2d78acc339464f950703b8c019892f982b90b)]

/-- The second one is stored, and then one sample and one payload go. -/
def loadLater : List Op :=
  [.ingest 6000000 sampleLoads.2, .deleteMetricSamples (fun _ => 0) 9000000 1,
    .prunePayloads 8000000 9000000 1]

theorem history_exact_loadLater :
    let db := execAll loadEncoding (.ingest 5000000 sampleLoads.1 :: loadLater) Db.empty
    Keeps loadEncoding 5000000 sampleLoads.1 loadLater db ∧
      db.metricSamples.toList.map (fun e => e.2.value) = [25] ∧
      db.collectionRuns.toList.map (fun e => e.2.payloadPrunedAt) = [some 8000000, none] :=
  ⟨(history_exact loadEncoding (.ingest 5000000 sampleLoads.1 :: loadLater)).2.2 [] 5000000
    sampleLoads.1 loadLater rfl (by decide +kernel), by decide +kernel, by decide +kernel⟩

/-- The key of the sample of a collection. -/
def loadKey (collectionID : Uuid) : MetricKey :=
  ⟨collectionID, 0xb1, "rx_bytes", (loadEncoding.sha256 (labelsPayload none)).text⟩

theorem oldest_first_loadLater :
    let past : List Op := [.ingest 5000000 sampleLoads.1, .ingest 6000000 sampleLoads.2]
    let later : List Op :=
      [.deleteMetricSamples (fun _ => 0) 9000000 1, .prunePayloads 8000000 9000000 1]
    (execAll loadEncoding (past ++ later) Db.empty).metricSamples[loadKey 0xe1]? = none ∧
      (⟨"null", 10, 1600000⟩ : MetricRow).observedAt ≤
        (⟨"null", 25, 3600000⟩ : MetricRow).observedAt := by
  intro past later
  have hgone : (execAll loadEncoding (past ++ later) Db.empty).metricSamples[loadKey 0xe1]? =
      none := by decide +kernel
  exact ⟨hgone, (oldest_first loadEncoding past later).1 (loadKey 0xe1) (loadKey 0xe2) _ _
    (by decide +kernel) (by decide +kernel) hgone (by decide +kernel)⟩

end NexusTier
