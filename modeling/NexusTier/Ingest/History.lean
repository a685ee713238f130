import NexusTier.Ingest.Invariant

/-!
# The snapshots a run has taken in

A run is a sequence of calls, and many of them change nothing: a snapshot that is refused, one
that was stored before, a batch of the retention worker.  `accepted` lists the snapshots a run has
newly stored, in order, and `execAll_machines` and its siblings say that the current tables are
what their statements leave.  Results about arrival order are results about this list.

## What is here

* `accepted`: the snapshots that a run has newly stored.
* `execAll_machines`, `execAll_networkInstances`, `execAll_nodes` and `execAll_peerLinks`: each
  current table after a run, as what the statements of these snapshots make of it.
-/

set_option autoImplicit false

namespace NexusTier

open Relational

/-- The snapshot a call newly stores, if it does. -/
def Op.accepted (E : Encoding) (db : Db) : Op → Option Snapshot
  | ingest now snapshot =>
    match NexusTier.ingest E now snapshot db with
    | .ok (true, _) => some snapshot
    | _ => none
  | _ => none

/-- The snapshots that a run from `db` newly stores, in order. -/
def accepted (E : Encoding) : List Op → Db → List Snapshot
  | [], _ => []
  | op :: ops, db => (op.accepted E db).toList ++ accepted E ops (op.exec E db)

/-- A call newly stores a snapshot, or leaves the tables of the current topology alone. -/
theorem Op.accepted_cases (E : Encoding) (db : Db) (op : Op) :
    (∃ now snapshot, op.accepted E db = some snapshot ∧ snapshot.Valid ∧
      op = .ingest now snapshot ∧
      db.collectionRuns[snapshot.collectionID]? = none ∧
      op.exec E db = snapshot.apply E now db) ∨
    (op.accepted E db = none ∧ (op.exec E db).machines = db.machines ∧
      (op.exec E db).networkInstances = db.networkInstances ∧
      (op.exec E db).nodes = db.nodes ∧ (op.exec E db).peerLinks = db.peerLinks) := by
  cases op with
  | ingest now snapshot =>
    cases h : NexusTier.ingest E now snapshot db with
    | error e => exact .inr (by simp [Op.accepted, Op.exec, h])
    | ok r =>
      obtain ⟨new, db'⟩ := r
      obtain ⟨hv, _, ⟨_, _, _, rfl, rfl⟩ | ⟨hn, rfl, rfl⟩⟩ := ingest_eq_ok h
      · exact .inr (by simp [Op.accepted, Op.exec, h])
      · refine .inl ⟨now, snapshot, ?_, hv, rfl, hn, ?_⟩
        · simp [Op.accepted, h]
        · simp [Op.exec, h]
  | deleteMetricSamples tie cutoff limit => exact .inr ⟨rfl, rfl, rfl, rfl, rfl⟩
  | prunePayloads now cutoff limit => exact .inr ⟨rfl, rfl, rfl, rfl, rfl⟩

variable {E : Encoding} {db : Db}

/-- What a run does to a table that newly stored snapshots write and other calls leave alone. -/
theorem execAll_eq_foldl {T α : Type} {get : Db → T} {stmts : Snapshot → List α} {exec : T → α → T}
    (happly : ∀ now snapshot db,
      get (Snapshot.apply E now snapshot db) = (stmts snapshot).foldl exec (get db))
    (hkeep : ∀ op db, Op.accepted E db op = none → get (op.exec E db) = get db)
    (ops : List Op) :
    get (execAll E ops db) = ((accepted E ops db).flatMap stmts).foldl exec (get db) := by
  induction ops generalizing db with
  | nil => rfl
  | cons op ops ih =>
    show get (execAll E ops (op.exec E db)) = _
    rw [ih, accepted, List.flatMap_append, List.foldl_append]
    obtain ⟨now, snapshot, ha, _, _, _, he⟩ | ⟨ha, _⟩ := op.accepted_cases E db
    · simp [ha, he, happly]
    · simp [ha, hkeep op db ha]

theorem Op.exec_of_accepted_eq_none {op : Op} (h : op.accepted E db = none) :
    (op.exec E db).machines = db.machines ∧
      (op.exec E db).networkInstances = db.networkInstances ∧
      (op.exec E db).nodes = db.nodes ∧ (op.exec E db).peerLinks = db.peerLinks := by
  obtain ⟨_, _, ha, _⟩ | ⟨_, hkeep⟩ := op.accepted_cases E db
  · simp [ha] at h
  · exact hkeep

theorem execAll_machines (ops : List Op) :
    (execAll E ops db).machines =
      ((accepted E ops db).flatMap Snapshot.machineNotices).foldl Notice.exec db.machines :=
  execAll_eq_foldl (fun now snapshot db => snapshot.apply_machines E now db)
    (fun _ _ h => (Op.exec_of_accepted_eq_none h).1) ops

theorem execAll_networkInstances (ops : List Op) :
    (execAll E ops db).networkInstances =
      ((accepted E ops db).flatMap Snapshot.instanceNotices).foldl Notice.exec
        db.networkInstances :=
  execAll_eq_foldl (fun now snapshot db => snapshot.apply_networkInstances E now db)
    (fun _ _ h => (Op.exec_of_accepted_eq_none h).2.1) ops

theorem execAll_nodes (ops : List Op) :
    (execAll E ops db).nodes =
      ((accepted E ops db).flatMap fun snapshot => snapshot.instances.flatMap
        (nodeWrites snapshot.collectionID (millis snapshot.completedAtMS))).foldl
          putNode db.nodes :=
  execAll_eq_foldl (fun now snapshot db => snapshot.apply_nodes E now db)
    (fun _ _ h => (Op.exec_of_accepted_eq_none h).2.2.1) ops

theorem execAll_peerLinks (ops : List Op) :
    (execAll E ops db).peerLinks =
      ((accepted E ops db).flatMap fun snapshot => snapshot.instances.flatMap
        (linkWrites snapshot.collectionID (millis snapshot.completedAtMS))).foldl
          LinkWrite.exec db.peerLinks :=
  execAll_eq_foldl (fun now snapshot db => snapshot.apply_peerLinks E now db)
    (fun _ _ h => (Op.exec_of_accepted_eq_none h).2.2.2) ops

theorem accepted_append (ops ops' : List Op) :
    accepted E (ops ++ ops') db = accepted E ops db ++ accepted E ops' (execAll E ops db) := by
  induction ops generalizing db with
  | nil => rfl
  | cons op ops ih => simp [accepted, ih, execAll]

theorem accepted_concat (ops : List Op) (op : Op) :
    accepted E (ops ++ [op]) db =
      accepted E ops db ++ (op.accepted E (execAll E ops db)).toList := by
  rw [accepted_append]
  simp [accepted]

theorem execAll_concat (ops : List Op) (op : Op) :
    execAll E (ops ++ [op]) db = op.exec E (execAll E ops db) := by
  rw [execAll_append]
  rfl

theorem valid_of_mem_accepted {ops : List Op} {snapshot : Snapshot}
    (h : snapshot ∈ accepted E ops db) : snapshot.Valid := by
  induction ops generalizing db with
  | nil => simp [accepted] at h
  | cons op ops ih =>
    rw [accepted, List.mem_append] at h
    rcases h with h | h
    · obtain ⟨_, s, ha, hv, _⟩ | ⟨ha, _⟩ := op.accepted_cases E db
      · rw [ha, Option.toList_some, List.mem_singleton] at h
        exact h ▸ hv
      · simp [ha] at h
    · exact ih h

end NexusTier
