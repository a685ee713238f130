import NexusTier.Ingest.Activity

/-!
# Active instances have active machines

`CurrentTopology` nests instances under machines and filters both by `active`, so an active
instance under an inactive machine is shown by neither filter.  `Db.NoOrphan` says that there is
none.

Machine rows and instance rows are guarded by their own times, so a snapshot keeps `NoOrphan` only
if its two halves are accepted together.  `SnapshotSafe` is the condition, on the snapshot and the
database before it: no machine that stays inactive in spite of being listed brings an instance
that is news, and no machine is found missing while one of its active instances is too new to be
found missing with it.

## What is here

* `Db.NoOrphan`: what is wanted of a state.
* `SnapshotSafe` and `SnapshotSafe.noOrphan`: what is asked of a snapshot, and that it is enough.
* `noOrphan_of_safeRun`: for every run of such snapshots.
* `stale_report_orphans_instance`: a run with one that is not safe.

## What is left out

That a condition is needed in each single case: a snapshot that is not safe may do no harm, if
another part of it repairs what the first has done.
-/

set_option autoImplicit false

namespace NexusTier

open Relational

/-- Every active instance is on an active machine. -/
def Db.NoOrphan (db : Db) : Prop :=
  ∀ (i : Uuid) row, db.networkInstances[i]? = some row → row.active = true →
    db.MachineActive row.value.machineID

/-- Machine `m` is inactive, and no entry of the snapshot about it is newer than its row. -/
def StaysInactive (db : Db) (s : Snapshot) (m : Uuid) : Prop :=
  ∃ row, db.machines[m]? = some row ∧ row.active = false ∧
    ∀ machine ∈ s.machines.elems, machine.session.machineID = m →
      ¬ row.olderThan (millis machine.observedAtMS) (millis s.completedAtMS) = true

/-- The entry is news about the instance: there is no row, or an older one. -/
def IsNews (db : Db) (s : Snapshot) (inst : Instance) : Prop :=
  ∀ row, db.networkInstances[inst.instanceID]? = some row →
    row.olderThan (millis inst.observedAtMS) (millis s.completedAtMS) = true

/-- The snapshot can be ingested without leaving an active instance on an inactive machine. -/
structure SnapshotSafe (db : Db) (s : Snapshot) : Prop where
  /-- A listed machine that stays inactive brings no news of an instance. -/
  listed : ∀ machine ∈ s.machines.elems, StaysInactive db s machine.session.machineID →
    ∀ inst ∈ machine.instances.elems, ¬ IsNews db s inst
  /-- The active instances of a machine that is found missing are found missing with it, unless
  the snapshot has news of them. -/
  missing : s.errors.elems = [] → ∀ (i : Uuid) row mrow, db.networkInstances[i]? = some row →
    row.active = true → db.machines[row.value.machineID]? = some mrow →
    ¬ s.Lists row.value.machineID → mrow.completedAt < millis s.completedAtMS →
    row.completedAt < millis s.completedAtMS ∨
      ∃ inst ∈ s.instances, inst.instanceID = i ∧ IsNews db s inst

/-! ## Machines -/

namespace Snapshot

variable {s : Snapshot} {m : Uuid} {r : Option MachineRow} {l : List Machine}

theorem reportsOn_active (hr : Round.Active r) : Round.Active (s.reportsOn m l r) := by
  induction l generalizing r with
  | nil => exact hr
  | cons machine l ih =>
    rw [reportsOn_cons]
    refine ih ?_
    obtain ⟨row, rfl, ha⟩ := hr
    split
    · refine ⟨_, rfl, ?_⟩
      rw [Table.upsertRow_some]
      split
      · rfl
      · exact ha
    · exact ⟨row, rfl, ha⟩

theorem reportsOn_accepted {machine : Machine} (hmem : machine ∈ l)
    (hid : machine.session.machineID = m)
    (hr : ∀ row ∈ r,
      row.olderThan (millis machine.observedAtMS) (millis s.completedAtMS) = true) :
    Round.Active (s.reportsOn m l r) := by
  induction l generalizing r with
  | nil => simp at hmem
  | cons machine' l ih =>
    rw [reportsOn_cons]
    rcases List.mem_cons.1 hmem with rfl | hmem
    · rw [if_pos hid]
      refine reportsOn_active ⟨_, rfl, ?_⟩
      cases r with
      | none => rfl
      | some row =>
        rw [Table.upsertRow_some, hr row rfl]
        rfl
    · split
      · cases r with
        | none => exact reportsOn_active ⟨_, rfl, rfl⟩
        | some row =>
          rw [Table.upsertRow_some]
          split
          · exact reportsOn_active ⟨_, rfl, rfl⟩
          · exact ih hmem hr
      · exact ih hmem hr

end Snapshot

section

variable {E : Encoding} {now : Timestamp} {s : Snapshot} {db : Db} {m : Uuid}

/-- The row of a machine after a snapshot. -/
theorem apply_machine (m : Uuid) : (s.apply E now db).machines[m]? =
    if s.Misses m then (db.machines[m]?.map fun row =>
      if row.active && decide (row.completedAt < millis s.completedAtMS) then
        row.deactivate (millis s.completedAtMS) s.collectionID
      else row)
    else s.reportsOn m s.machines.elems db.machines[m]? := by
  have hstmts : ∀ r, s.machineNotices.foldl (Notice.act m) r =
      (missingWrites s).machines.foldl (Notice.act m) (s.reportsOn m s.machines.elems r) :=
    fun r => List.foldl_append
  rw [Snapshot.apply_machines, Notice.getElem?_execAll, hstmts, Snapshot.missingOn]
  split
  · rename_i h
    rw [Snapshot.reportsOn_absent h.1]
  · rfl

theorem machineActive_of_listed (hl : s.Lists m) (h : db.MachineActive m) :
    (s.apply E now db).MachineActive m := by
  rw [Db.MachineActive, apply_machine, if_neg fun hm => hm.1 hl]
  exact Snapshot.reportsOn_active h

theorem machineActive_of_not_stays (hl : s.Lists m) (h : ¬ StaysInactive db s m) :
    (s.apply E now db).MachineActive m := by
  by_cases ha : db.MachineActive m
  · exact machineActive_of_listed hl ha
  · rw [Db.MachineActive, apply_machine, if_neg fun hm => hm.1 hl]
    cases hrow : db.machines[m]? with
    | none =>
      obtain ⟨machine, hmem, hid⟩ := List.mem_map.1 hl
      exact Snapshot.reportsOn_accepted hmem hid (by simp)
    | some row =>
      have hinact : row.active = false := by
        rw [Bool.eq_false_iff]
        exact fun hact => ha ⟨row, hrow, hact⟩
      rw [StaysInactive] at h
      push Not at h
      obtain ⟨machine, hmem, hid, hold⟩ := h row hrow hinact
      exact Snapshot.reportsOn_accepted hmem hid (by rintro _ ⟨⟩; exact hold)

/-- A machine that is not listed stays as it is, unless the collection was complete and newer. -/
theorem machineActive_of_not_listed (hl : ¬ s.Lists m) (h : db.MachineActive m)
    (hkeep : s.errors.elems = [] → ∀ row, db.machines[m]? = some row →
      ¬ row.completedAt < millis s.completedAtMS) :
    (s.apply E now db).MachineActive m := by
  obtain ⟨row, hrow, ha⟩ := h
  refine ⟨row, ?_, ha⟩
  rw [apply_machine, hrow]
  split
  · rename_i hm
    simp [hkeep hm.2 row hrow]
  · exact Snapshot.reportsOn_absent hl

end

/-! ## Instances -/

namespace Snapshot

variable {s : Snapshot}

theorem report_mem_instanceNotices {i : Uuid} {v : InstanceColumns} {o c : Timestamp} {src : Uuid}
    (h : Notice.report i v o c src ∈ s.instanceNotices) :
    ∃ machine ∈ s.machines.elems, ∃ inst ∈ machine.instances.elems, inst.instanceID = i ∧
      v = ⟨machine.session.machineID⟩ ∧ o = millis inst.observedAtMS ∧
      c = millis s.completedAtMS := by
  rcases List.mem_append.1 h with h | h
  · obtain ⟨machine, hm, h⟩ := List.mem_flatMap.1 h
    rcases List.mem_append.1 h with h | h
    · obtain ⟨inst, hi, heq⟩ := List.mem_map.1 h
      obtain ⟨rfl, rfl, rfl, rfl, rfl⟩ := Notice.report.inj heq
      exact ⟨machine, hm, inst, hi, rfl, rfl, rfl, rfl⟩
    · rw [instancesMissing] at h
      split at h <;> simp at h
  · rw [missingWrites] at h
    split at h <;> simp at h

theorem mem_instanceNotices_of_mem {inst : Instance} (h : inst ∈ s.instances) :
    ∃ v src, Notice.report inst.instanceID v (millis inst.observedAtMS) (millis s.completedAtMS) src
      ∈ s.instanceNotices := by
  obtain ⟨machine, hm, hi⟩ := mem_instances.1 h
  refine ⟨⟨machine.session.machineID⟩, s.collectionID, List.mem_append_left _ ?_⟩
  exact List.mem_flatMap.2 ⟨machine, hm, List.mem_append_left _ (List.mem_map_of_mem hi)⟩

/-- An active row that a complete snapshot leaves, on a machine it does not list, is too new to be
found missing. -/
theorem not_missed_of_active {i : Uuid} {r : Option InstanceRow} {row : InstanceRow}
    (he : s.errors.elems = []) (hl : ¬ s.Lists row.value.machineID)
    (h : s.instanceNotices.foldl (Notice.act i) r = some row) (ha : row.active = true) :
    ¬ row.completedAt < millis s.completedAtMS := by
  rw [instanceNotices, List.foldl_append] at h
  simp only [missingWrites, he, List.isEmpty_nil, if_true, List.foldl_cons, List.foldl_nil] at h
  intro hlt
  revert h
  generalize List.foldl (Notice.act i) r _ = mid
  intro h
  cases mid with
  | none => simp [Notice.act] at h
  | some old =>
    rw [Notice.act, Option.map_some, Option.some_inj] at h
    split at h
    · rw [← h] at ha
      simp [Tracked.deactivate] at ha
    · rename_i hnot
      subst h
      have hmem : old.value.machineID ∈ machineIDs s.machines.elems := by
        simpa [Tracked.missedBy, ha, hlt] using hnot
      exact hl hmem

end Snapshot

/-! ## The step and the run -/

/-- **A safe snapshot leaves no active instance on an inactive machine.** -/
theorem SnapshotSafe.noOrphan {E : Encoding} {now : Timestamp} {s : Snapshot} {db : Db}
    (hsafe : SnapshotSafe db s) (h : db.NoOrphan) : (s.apply E now db).NoOrphan := by
  intro i row hrow ha
  rw [Snapshot.apply_networkInstances, Notice.getElem?_execAll] at hrow
  rcases Notice.foldl_active_cases hrow ha with hold | ⟨v, o, c, src, hmem, hfresh, hnews⟩
  · -- the row was there before: its machine was active, and is deactivated only with it
    have hactive := h i row hold ha
    by_cases hl : s.Lists row.value.machineID
    · exact machineActive_of_listed hl hactive
    · refine machineActive_of_not_listed hl hactive fun he mrow hmrow hlt => ?_
      rcases hsafe.missing he i row mrow hold ha hmrow hl hlt with hc | ⟨inst, hinst, hid, hn⟩
      · exact Snapshot.not_missed_of_active he hl hrow ha hc
      · -- news of the instance would have replaced the row
        obtain ⟨v, src, hmem⟩ := Snapshot.mem_instanceNotices_of_mem hinst
        rw [hid] at hmem
        obtain ⟨row', hrow', hle⟩ := Notice.stamp_le_of_report_mem hmem
        rw [hrow, Option.some_inj] at hrow'
        subst hrow'
        have hlt' := hn row (by rw [hid]; exact hold)
        rw [Stamped.olderThan_iff_stamp_lt] at hlt'
        exact absurd hle hlt'.not_ge
  · -- the snapshot reported the row: its machine is listed, and brought news
    obtain ⟨machine, hm, inst, hinst, hid, rfl, rfl, rfl⟩ :=
      Snapshot.report_mem_instanceNotices hmem
    subst hfresh
    have hl : s.Lists machine.session.machineID := List.mem_map_of_mem hm
    refine machineActive_of_not_stays hl fun hstays => ?_
    refine hsafe.listed machine hm hstays inst hinst fun old hold => ?_
    exact hnews old (by rw [hid] at hold; exact hold)

/-- Every snapshot that the run takes in is safe where it arrives. -/
def SafeRun (E : Encoding) : List Op → Db → Prop
  | [], _ => True
  | op :: ops, db =>
    (∀ s, op.accepted E db = some s → SnapshotSafe db s) ∧ SafeRun E ops (op.exec E db)

theorem Op.exec_noOrphan {E : Encoding} {op : Op} {db : Db}
    (hsafe : ∀ s, op.accepted E db = some s → SnapshotSafe db s) (h : db.NoOrphan) :
    (op.exec E db).NoOrphan := by
  obtain ⟨now, s, ha, _, _, _, he⟩ | ⟨_, hm, hi, _⟩ := op.accepted_cases E db
  · rw [he]
    exact (hsafe s ha).noOrphan h
  · rw [Db.NoOrphan, hi]
    intro i row hrow ha
    rw [Db.MachineActive, hm]
    exact h i row hrow ha

/-- **No active instance under an inactive machine, in safe runs.**  If every snapshot that a run
takes in is safe where it arrives, every state of the run is without orphans. -/
theorem noOrphan_of_safeRun {E : Encoding} {ops : List Op} (h : SafeRun E ops Db.empty) :
    ∀ ops', ops' <+: ops → (execAll E ops' Db.empty).NoOrphan := by
  have hrun : ∀ (ops : List Op) (db : Db), db.NoOrphan → SafeRun E ops db →
      ∀ ops', ops' <+: ops → (execAll E ops' db).NoOrphan := by
    intro ops
    induction ops with
    | nil =>
      intro db hdb _ ops' hp
      rw [List.prefix_nil.1 hp]
      exact hdb
    | cons op ops ih =>
      intro db hdb hsafe ops' hp
      rcases List.prefix_cons_iff.1 hp with rfl | ⟨ops'', rfl, hp'⟩
      · exact hdb
      · exact ih (op.exec E db) (Op.exec_noOrphan hsafe.1 hdb) hsafe.2 ops'' hp'
  refine hrun ops Db.empty (fun i row hrow => ?_) h
  simp [Db.empty] at hrow

/-- The report, and then the collection that meets no machine, are safe in this order. -/
theorem noOrphan_of_safeRun_inOrder :
    accepted sampleEncoding inOrder Db.empty = [sampleReport, sampleAbsence] ∧
      ∀ ops', ops' <+: inOrder → (execAll sampleEncoding ops' Db.empty).NoOrphan := by
  refine ⟨by decide +kernel, noOrphan_of_safeRun ⟨fun s hs => ?_, fun s hs => ?_, trivial⟩⟩
  · obtain rfl : s = sampleReport := by
      have haccepted : (Op.ingest 5000000 sampleReport).accepted sampleEncoding Db.empty =
          some sampleReport := by decide +kernel
      exact (Option.some_inj.1 (haccepted.symm.trans hs)).symm
    refine ⟨fun _ _ ⟨row, hrow, _⟩ => ?_, fun _ i row mrow hrow => ?_⟩
    · simp [Db.empty] at hrow
    · simp [Db.empty] at hrow
  · obtain rfl : s = sampleAbsence := by
      have haccepted : (Op.ingest 6000000 sampleAbsence).accepted sampleEncoding
          ((Op.ingest 5000000 sampleReport).exec sampleEncoding Db.empty) =
            some sampleAbsence := by decide +kernel
      exact (Option.some_inj.1 (haccepted.symm.trans hs)).symm
    refine ⟨fun machine hm => ?_, fun _ i row mrow hrow _ _ _ _ => .inl ?_⟩
    · simp [sampleAbsence, sampleSnapshot] at hm
    · have hall : ∀ e ∈ ((Op.ingest 5000000 sampleReport).exec sampleEncoding
          Db.empty).networkInstances.toList,
          e.2.completedAt < millis sampleAbsence.completedAtMS := by decide +kernel
      exact hall (i, row) (Table.mem_toList.2 hrow)

/-- Machine `a1` without instances, in the collection before the one that does not meet it. -/
def sampleBare : Snapshot := sampleSnapshot 0xc7 1000 2000 [sampleMachine 0xa1 1500 []]

/-- An older report of `a1`, which then ran instance `b1`. -/
def sampleStale : Snapshot :=
  sampleSnapshot 0xc8 500 900 [sampleMachine 0xa1 700 [sampleInstance 0xb1 800 []]]

def orphanEncoding : Encoding :=
  .recorded
    [(sampleBare.payload,
        .ofFin 0x4874eba65acffa7401e41df84a7734e7bed316b7f2950a3cca2c8e5bff3de4ba),
      (sampleAbsence.payload,
        .ofFin 0xb0f22d22f1fd266f916bfedd90b012c9451649148267d40e752354131414a0b5),
      (sampleStale.payload,
        .ofFin 0xec927f6010b8a9a6dbc0bcd139f2e3b9394d3d6f953bc3e7cc1e8c61c83c4c78)]

/-- The stale report arrives last. -/
def orphanRun : List Op :=
  [.ingest 5000000 sampleBare, .ingest 6000000 sampleAbsence, .ingest 7000000 sampleStale]

/-- **A stale report leaves an active instance on an inactive machine.**  Its machine is refused
as stale, its instance is new. -/
theorem stale_report_orphans_instance :
    accepted orphanEncoding orphanRun Db.empty = [sampleBare, sampleAbsence, sampleStale] ∧
      ¬ (execAll orphanEncoding orphanRun Db.empty).NoOrphan := by
  refine ⟨by decide +kernel, fun h => ?_⟩
  have hinst : ((execAll orphanEncoding orphanRun Db.empty).networkInstances[(0xb1 : Uuid)]?.map
      fun row => (row.active, row.value.machineID)) = some (true, 0xa1) := by decide +kernel
  have hmachine : ((execAll orphanEncoding orphanRun Db.empty).machines[(0xa1 : Uuid)]?.map
      fun row => row.active) = some false := by decide +kernel
  obtain ⟨row, hrow, heq⟩ := Option.map_eq_some_iff.1 hinst
  obtain ⟨ha, hid⟩ := Prod.mk.inj heq
  obtain ⟨mrow, hmrow, hmact⟩ := h 0xb1 row hrow ha
  rw [hid] at hmrow
  rw [hmrow, Option.map_some, hmact] at hmachine
  simp at hmachine

end NexusTier
