import NexusTier.Ingest.Duplicate

/-!
# The worker that polls the gateway

`Worker.collect` of `poller/worker.go`: fetch a snapshot, ingest it, and note in `Status` what has
come of it.  The status is written in three sections under a lock, and between any two of them
others may read it, or reach the database: the retention worker, a second controller.

A call of `Ingest` that fails may have been committed all the same: the request may be cancelled,
or the connection lost, when only the answer is missing.  The worker does not know, and asks again
at its next turn; what makes this safe is that a collection is recognized by its id.

`Tells` is what the status says about the outcomes so far, at any time.  `deliveries` is what they
come to in the database: each collection is applied at most once, and one that is reported is there.

## What is here

* `Worker.step`: the worker, its database and all others that write to it, step by step.
* `Status.Tells` and `status_tells`: the status tells the truth.
* `Worker.Delivered` and `deliveries`: nothing is applied twice, and what is reported is there.
* `deliveries_answerLost`: a run in which an answer is lost.

## What is left out

The timer, whose turn is an event; the context and its timeout, which make a call fail at any point;
and logging.
-/

set_option autoImplicit false

namespace NexusTier

open Relational

namespace Poller

/-- What `last_collection_state` says. -/
inductive CollectionState where
  | ingested
  | duplicate
deriving DecidableEq

/-- `Status`, where `none` is Go's zero time and the empty state. -/
structure Status where
  running : Bool
  lastAttemptAt : Option Timestamp
  lastSuccessAt : Option Timestamp
  lastCollectionID : Uuid
  lastCollectionState : Option CollectionState
  lastError : String
  consecutiveFailures : UInt64
deriving DecidableEq

/-- The zero value, with which `New` leaves it. -/
def Status.zero : Status := ⟨false, none, none, Uuid.nil, none, "", 0⟩

/-- `recordFailure`. -/
def Status.recordFailure (operation error : String) (status : Status) : Status :=
  { status with
    lastError := operation ++ ": " ++ error
    consecutiveFailures := status.consecutiveFailures + 1 }

/-- The last section of `collect`, after a success. -/
def Status.recordSuccess (now : Timestamp) (snapshot : Snapshot) (inserted : Bool)
    (status : Status) : Status :=
  { status with
    lastSuccessAt := some now
    lastCollectionID := snapshot.collectionID
    lastCollectionState := some (if inserted then .ingested else .duplicate)
    lastError := ""
    consecutiveFailures := 0 }

/-- Where `collect` stands. -/
inductive CollectPhase where
  | idle
  | fetching
  | ingesting (snapshot : Snapshot)
  /-- `recordFailure` is to be called. -/
  | failed (operation error : String)
  /-- `Ingest` has returned. -/
  | succeeded (snapshot : Snapshot) (inserted : Bool)
  /-- The deferred function is to run. -/
  | finishing

/-- What has come of an attempt. -/
inductive Outcome where
  | failed (operation error : String)
  | succeeded (now : Timestamp) (snapshot : Snapshot) (inserted : Bool)
deriving DecidableEq

/-- The worker and its database.  The last two fields are history, which no step reads. -/
structure Worker where
  db : Db
  status : Status
  phase : CollectPhase
  /-- The outcomes that have been recorded. -/
  outcomes : List Outcome
  /-- The calls that have reached the database. -/
  calls : List Op

/-- How the database answers a call of `Ingest`. -/
inductive Answer where
  | answered
  /-- The call fails before the transaction is committed. -/
  | unreached (error : String)
  /-- The call fails, and the transaction has been committed if it could be. -/
  | lost (error : String)

/-- What can happen. -/
inductive WorkerEvent where
  /-- `collect` is called. -/
  | start (now : Timestamp)
  /-- `FetchTopology` returns. -/
  | fetched (result : Except String Snapshot)
  /-- `Ingest` returns; `now` is the time of the server. -/
  | ingested (now : Timestamp) (answer : Answer)
  | record (now : Timestamp)
  | finish
  /-- Someone else calls the database. -/
  | other (op : Op)

namespace Worker

/-- `New`, over a database. -/
def new (db : Db) : Worker := ⟨db, .zero, .idle, [], []⟩

section

variable (E : Encoding) (text : IngestError → String)

/-- A call reaches the database. -/
def call (op : Op) (w : Worker) : Worker :=
  { w with
    db := op.exec E w.db
    calls := w.calls ++ [op] }

/-- `Ingest` is called with `snapshot`. -/
def ingest (now : Timestamp) (snapshot : Snapshot) (w : Worker) : Answer → Worker
  | .answered =>
    { w.call E (.ingest now snapshot) with
      phase :=
        match NexusTier.ingest E now snapshot w.db with
        | .ok (inserted, _) => .succeeded snapshot inserted
        | .error error => .failed "ingest topology" (text error) }
  | .unreached error =>
    { w with
      phase := .failed "ingest topology" error }
  | .lost error =>
    { w.call E (.ingest now snapshot) with
      phase := .failed "ingest topology" error }

/-- One step; one whose time has not come leaves everything as it is. -/
def step (w : Worker) : WorkerEvent → Worker
  | .start now =>
    match w.phase with
    | .idle =>
      { w with
        status := { w.status with
          running := true
          lastAttemptAt := some now }
        phase := .fetching }
    | _ => w
  | .fetched result =>
    match w.phase, result with
    | .fetching, .ok snapshot =>
      { w with
        phase := .ingesting snapshot }
    | .fetching, .error error =>
      { w with
        phase := .failed "fetch topology" error }
    | _, _ => w
  | .ingested now answer =>
    match w.phase with
    | .ingesting snapshot => w.ingest E text now snapshot answer
    | _ => w
  | .record now =>
    match w.phase with
    | .failed operation error =>
      { w with
        status := w.status.recordFailure operation error
        phase := .finishing
        outcomes := w.outcomes ++ [.failed operation error] }
    | .succeeded snapshot inserted =>
      { w with
        status := w.status.recordSuccess now snapshot inserted
        phase := .finishing
        outcomes := w.outcomes ++ [.succeeded now snapshot inserted] }
    | _ => w
  | .finish =>
    match w.phase with
    | .finishing =>
      { w with
        status := { w.status with
          running := false }
        phase := .idle }
    | _ => w
  | .other op => w.call E op

/-- Steps, one after the other. -/
def run (w : Worker) (events : List WorkerEvent) : Worker := events.foldl (step E text) w

end

end Worker

/-! ## What the status says -/

/-- An attempt that has failed. -/
def Outcome.isFailure : Outcome → Bool
  | .failed _ _ => true
  | .succeeded _ _ _ => false

/-- What an attempt has delivered, if it has succeeded. -/
def Outcome.delivery : Outcome → Option (Timestamp × Snapshot × Bool)
  | .failed _ _ => none
  | .succeeded now snapshot inserted => some (now, snapshot, inserted)

/-- The number of failures since the last success. -/
def failureCount (outcomes : List Outcome) : Nat :=
  (outcomes.reverse.takeWhile Outcome.isFailure).length

/-- The error of the last attempt, if that has failed. -/
def latestError (outcomes : List Outcome) : String :=
  match outcomes.getLast? with
  | some (.failed operation error) => operation ++ ": " ++ error
  | _ => ""

/-- The last success. -/
def latestDelivery (outcomes : List Outcome) : Option (Timestamp × Snapshot × Bool) :=
  outcomes.reverse.findSome? Outcome.delivery

/-- What the status says about the outcomes so far: how many attempts have failed since the last
success, with which error, and what the last success was. -/
structure Status.Tells (idle : Bool) (outcomes : List Outcome) (status : Status) : Prop where
  running : status.running = !idle
  failures : status.consecutiveFailures = UInt64.ofNat (failureCount outcomes)
  error : status.lastError = latestError outcomes
  success : status.lastSuccessAt = (latestDelivery outcomes).map Prod.fst
  collectionID : status.lastCollectionID =
    ((latestDelivery outcomes).map fun d => d.2.1.collectionID).getD Uuid.nil
  state : status.lastCollectionState =
    (latestDelivery outcomes).map fun d => if d.2.2 then .ingested else .duplicate

/-- No attempt is on its way. -/
def CollectPhase.isIdle : CollectPhase → Bool
  | .idle => true
  | _ => false

theorem Status.Tells.recordFailure {outcomes : List Outcome} {status : Status}
    (h : status.Tells false outcomes) (operation error : String) :
    (status.recordFailure operation error).Tells false
      (outcomes ++ [.failed operation error]) := by
  have hlast :
      latestDelivery (outcomes ++ [.failed operation error]) = latestDelivery outcomes := by
    simp [latestDelivery, List.findSome?_cons, Outcome.delivery]
  refine ⟨h.running, ?_, ?_, ?_, ?_, ?_⟩
  · have hcount : failureCount (outcomes ++ [.failed operation error]) =
        failureCount outcomes + 1 := by
      simp [failureCount, List.takeWhile_cons, Outcome.isFailure]
    rw [hcount, UInt64.ofNat_add, ← h.failures]
    rfl
  · simp [Status.recordFailure, latestError]
  · rw [hlast]
    exact h.success
  · rw [hlast]
    exact h.collectionID
  · rw [hlast]
    exact h.state

theorem Status.Tells.recordSuccess {outcomes : List Outcome} {status : Status}
    (h : status.Tells false outcomes) (now : Timestamp) (snapshot : Snapshot) (inserted : Bool) :
    (status.recordSuccess now snapshot inserted).Tells false
      (outcomes ++ [.succeeded now snapshot inserted]) := by
  have hlast : latestDelivery (outcomes ++ [.succeeded now snapshot inserted]) =
      some (now, snapshot, inserted) := by
    simp [latestDelivery, List.findSome?_cons, Outcome.delivery]
  refine ⟨h.running, ?_, ?_, ?_, ?_, ?_⟩
  · simp [Status.recordSuccess, failureCount, Outcome.isFailure]
  · simp [Status.recordSuccess, latestError]
  · simp [Status.recordSuccess, hlast]
  · simp [Status.recordSuccess, hlast]
  · simp [Status.recordSuccess, hlast]

namespace Worker

variable {E : Encoding} {text : IngestError → String} {w : Worker}

/-- What a step can do: nothing, a call of someone else, a part of an attempt with or without a
call, the record of an outcome, the beginning or the end of an attempt. -/
inductive Move (E : Encoding) (w : Worker) : Worker → Prop
  | stay : Move E w w
  | other (op : Op) : Move E w (w.call E op)
  | go (phase : CollectPhase) (hfrom : w.phase.isIdle = false) (hto : phase.isIdle = false)
      (hnot : ∀ snapshot inserted, phase ≠ .succeeded snapshot inserted) :
      Move E w { w with phase }
  | ingest (now : Timestamp) (snapshot : Snapshot) (phase : CollectPhase)
      (hfrom : w.phase = .ingesting snapshot) (hto : phase.isIdle = false)
      (hanswer : ∀ snapshot' inserted, phase = .succeeded snapshot' inserted →
        snapshot' = snapshot ∧ ∃ db, NexusTier.ingest E now snapshot w.db = .ok (inserted, db)) :
      Move E w { w.call E (.ingest now snapshot) with phase }
  | fail (operation error : String) (hfrom : w.phase = .failed operation error) :
      Move E w { w with
        status := w.status.recordFailure operation error
        phase := .finishing
        outcomes := w.outcomes ++ [.failed operation error] }
  | succeed (now : Timestamp) (snapshot : Snapshot) (inserted : Bool)
      (hfrom : w.phase = .succeeded snapshot inserted) :
      Move E w { w with
        status := w.status.recordSuccess now snapshot inserted
        phase := .finishing
        outcomes := w.outcomes ++ [.succeeded now snapshot inserted] }
  | start (now : Timestamp) (hfrom : w.phase = .idle) :
      Move E w { w with
        status := { w.status with
          running := true
          lastAttemptAt := some now }
        phase := .fetching }
  | finish (hfrom : w.phase = .finishing) :
      Move E w { w with
        status := { w.status with
          running := false }
        phase := .idle }

theorem step_move (w : Worker) (event : WorkerEvent) : Move E w (w.step E text event) := by
  cases event with
  | other op => exact .other op
  | start now =>
    rw [step]
    split
    next hphase => exact .start now hphase
    next => exact .stay
  | fetched result =>
    unfold step
    dsimp only
    split
    next snapshot hphase => exact .go _ (by rw [hphase]; rfl) rfl (by simp)
    next error hphase => exact .go _ (by rw [hphase]; rfl) rfl (by simp)
    next => exact .stay
  | ingested now answer =>
    rw [step]
    split
    next snapshot hphase =>
      cases answer with
      | answered =>
        refine .ingest now snapshot _ hphase ?_ ?_
        · split <;> rfl
        · intro snapshot' inserted heq
          split at heq
          next inserted' db hr =>
            obtain ⟨rfl, rfl⟩ := CollectPhase.succeeded.inj heq
            exact ⟨rfl, db, hr⟩
          next => simp at heq
      | unreached error => exact .go _ (by rw [hphase]; rfl) rfl (by simp)
      | lost error => exact .ingest now snapshot _ hphase rfl (by simp)
    next => exact .stay
  | record now =>
    rw [step]
    split
    next operation error hphase => exact .fail operation error hphase
    next snapshot inserted hphase => exact .succeed now snapshot inserted hphase
    next => exact .stay
  | finish =>
    rw [step]
    split
    next hphase => exact .finish hphase
    next => exact .stay

/-- What every move keeps holds after every run. -/
theorem run_keeps {P : Worker → Prop} (hmove : ∀ w w', P w → Move E w w' → P w')
    (events : List WorkerEvent) (h : P w) : P (w.run E text events) := by
  induction events generalizing w with
  | nil => exact h
  | cons event events ih => exact ih (hmove _ _ h (w.step_move event))

/-! ## The status -/

theorem tells_move {w' : Worker} (h : w.status.Tells w.phase.isIdle w.outcomes)
    (hmove : Move E w w') : w'.status.Tells w'.phase.isIdle w'.outcomes := by
  cases hmove with
  | stay => exact h
  | other op => exact h
  | go phase hfrom hto hnot =>
    rw [hfrom] at h
    simpa only [hto] using h
  | ingest now snapshot phase hfrom hto hanswer =>
    rw [hfrom] at h
    show w.status.Tells phase.isIdle w.outcomes
    rwa [hto]
  | fail operation error hfrom =>
    rw [hfrom] at h
    exact h.recordFailure operation error
  | succeed now snapshot inserted hfrom =>
    rw [hfrom] at h
    exact h.recordSuccess now snapshot inserted
  | start now hfrom => exact ⟨rfl, h.failures, h.error, h.success, h.collectionID, h.state⟩
  | finish hfrom => exact ⟨rfl, h.failures, h.error, h.success, h.collectionID, h.state⟩

/-! ## The database -/

end Worker

/-- The snapshots that have been reported as new, in order. -/
def insertedSnapshots (outcomes : List Outcome) : List Snapshot :=
  (outcomes.filterMap Outcome.delivery).filterMap fun d => if d.2.2 then some d.2.1 else none

/-- The snapshot of a call that has succeeded, if its outcome has yet to be recorded. -/
def CollectPhase.delivery : CollectPhase → Option (Snapshot × Bool)
  | .succeeded snapshot inserted => some (snapshot, inserted)
  | _ => none

/-- A run under the id of the snapshot matches it. -/
def Held (E : Encoding) (db : Db) (snapshot : Snapshot) : Prop :=
  ∃ run, db.collectionRuns[snapshot.collectionID]? = some run ∧ run.matchesPayload E snapshot = true

theorem Held.exec {E : Encoding} {db : Db} {snapshot : Snapshot} (h : Held E db snapshot)
    (op : Op) : Held E (op.exec E db) snapshot := by
  obtain ⟨run, hrun, hmatches⟩ := h
  obtain he | ⟨now, s, -, -, hnew, -, he⟩ | ⟨p, he⟩ | ⟨now, cutoff, p, hp, he⟩ :=
    op.exec_cases E db
  · exact ⟨run, by rwa [he], hmatches⟩
  · have hne : s.collectionID ≠ snapshot.collectionID := by
      intro heq
      rw [heq, hrun] at hnew
      simp at hnew
    refine ⟨run, ?_, hmatches⟩
    rw [he, Snapshot.apply_collectionRuns, Table.getElem?_insert, if_neg hne]
    exact hrun
  · exact ⟨run, by rwa [he], hmatches⟩
  · refine ⟨if p snapshot.collectionID run then run.prune now else run, by simp [he, hrun], ?_⟩
    split
    · -- what may be pruned is matched by its fingerprint
      rename_i hprune
      have hsha := hp _ run hrun hprune
      cases hdigest : run.rawPayloadSHA256 with
      | none => simp [RunRow.prunable, hdigest] at hsha
      | some digest => simpa [RunRow.matchesPayload, RunRow.prune, hdigest] using hmatches
    · exact hmatches

/-- A call that succeeds leaves the snapshot in the database. -/
theorem held_of_ingest {E : Encoding} {db db' : Db} {now : Timestamp} {snapshot : Snapshot}
    {inserted : Bool} (h : ingest E now snapshot db = .ok (inserted, db')) :
    Held E ((Op.ingest now snapshot).exec E db) snapshot := by
  have hexec : (Op.ingest now snapshot).exec E db = db' := by simp [Op.exec, h]
  rw [hexec]
  obtain ⟨-, -, ⟨run, hrun, hmatches, -, rfl⟩ | ⟨-, -, rfl⟩⟩ := ingest_eq_ok h
  · exact ⟨run, hrun, hmatches⟩
  · refine ⟨runRow E now snapshot, ?_, by simp [RunRow.matchesPayload, runRow]⟩
    rw [Snapshot.apply_collectionRuns, Table.getElem?_insert, if_pos rfl]

/-- The snapshots that have been reported as new, and one that is about to be. -/
def Worker.reported (w : Worker) : List Snapshot :=
  insertedSnapshots w.outcomes ++ (w.phase.delivery.filter Prod.snd).toList.map Prod.fst

/-- What ties the outcomes to the database, which was `start` at first. -/
structure Worker.Delivered (E : Encoding) (start : Db) (w : Worker) : Prop where
  executed : w.db = execAll E w.calls start
  inserted : w.reported.Sublist (accepted E w.calls start)
  held : ∀ now snapshot inserted, .succeeded now snapshot inserted ∈ w.outcomes →
    Held E w.db snapshot
  returned : ∀ d ∈ w.phase.delivery, Held E w.db d.1

namespace Worker

variable {E : Encoding} {start : Db} {w : Worker}

/-- A call changes nothing that has been reported. -/
theorem Delivered.call (h : w.Delivered E start) (op : Op) : (w.call E op).Delivered E start where
  executed := by
    rw [Worker.call, execAll_concat, ← h.executed]
  inserted := by
    show w.reported.Sublist (accepted E (w.calls ++ [op]) start)
    rw [accepted_concat]
    exact h.inserted.trans (List.sublist_append_left _ _)
  held now snapshot inserted hmem := (h.held now snapshot inserted hmem).exec op
  returned d hd := (h.returned d hd).exec op

/-- Nor does a move that delivers nothing. -/
theorem Delivered.go (h : w.Delivered E start) {phase : CollectPhase}
    (hphase : phase.delivery = none) (status : Status) : Delivered E start { w with status, phase } where
  executed := h.executed
  inserted := by
    refine List.Sublist.trans ?_ h.inserted
    simp [reported, hphase]
  held := h.held
  returned d hd := by simp [hphase] at hd

theorem Delivered.move {w' : Worker} (h : w.Delivered E start) (hmove : Move E w w') :
    w'.Delivered E start := by
  cases hmove with
  | stay => exact h
  | other op => exact h.call op
  | go phase hfrom hto hnot =>
    refine h.go ?_ w.status
    cases phase <;> first | rfl | exact absurd rfl (hnot _ _)
  | ingest now snapshot phase hfrom hto hanswer =>
    cases hphase : phase.delivery with
    | none => exact (h.call (.ingest now snapshot)).go hphase _
    | some d =>
      obtain ⟨snapshot', inserted, rfl⟩ : ∃ snapshot' inserted,
          phase = .succeeded snapshot' inserted := by
        cases phase <;> simp_all [CollectPhase.delivery]
      obtain ⟨rfl, db, hr⟩ := hanswer _ _ rfl
      have hcall := h.call (.ingest now snapshot')
      refine ⟨hcall.executed, ?_, hcall.held, fun d' hd' => ?_⟩
      · show (insertedSnapshots w.outcomes ++ _).Sublist (accepted E (w.calls ++ [_]) start)
        rw [accepted_concat, ← h.executed]
        refine List.Sublist.append ((List.sublist_append_left _ _).trans h.inserted) ?_
        cases inserted with
        | true => simp [Op.accepted, hr, CollectPhase.delivery]
        | false => simp [CollectPhase.delivery, Option.filter]
      · obtain rfl := Option.mem_some.1 hd'
        exact held_of_ingest hr
  | fail operation error hfrom =>
    refine ⟨h.executed, ?_, fun now snapshot inserted hmem => ?_, by simp [CollectPhase.delivery]⟩
    · refine List.Sublist.trans ?_ h.inserted
      simp [reported, insertedSnapshots, Outcome.delivery, CollectPhase.delivery]
    · exact h.held now snapshot inserted (by simpa using hmem)
  | succeed now snapshot inserted hfrom =>
    refine ⟨h.executed, ?_, fun now' snapshot' inserted' hmem => ?_,
      by simp [CollectPhase.delivery]⟩
    · refine List.Sublist.trans ?_ h.inserted
      cases inserted <;>
        simp [reported, insertedSnapshots, Outcome.delivery, CollectPhase.delivery, hfrom]
    · rcases List.mem_append.1 hmem with hmem | hmem
      · exact h.held _ _ _ hmem
      · obtain ⟨-, rfl, -⟩ := Outcome.succeeded.inj (List.mem_singleton.1 hmem)
        exact h.returned (snapshot', inserted) (by simp [hfrom, CollectPhase.delivery])
  | start now hfrom => exact h.go rfl _
  | finish hfrom => exact h.go rfl _

theorem tells_run (E : Encoding) (text : IngestError → String) (start : Db)
    (events : List WorkerEvent) :
    ((new start).run E text events).status.Tells ((new start).run E text events).phase.isIdle
      ((new start).run E text events).outcomes :=
  run_keeps (P := fun w => w.status.Tells w.phase.isIdle w.outcomes)
    (fun _ _ h hmove => tells_move h hmove) events ⟨rfl, rfl, rfl, rfl, rfl, rfl⟩

theorem delivered_run (E : Encoding) (text : IngestError → String) (start : Db)
    (events : List WorkerEvent) : ((new start).run E text events).Delivered E start :=
  run_keeps (fun _ _ h hmove => h.move hmove) events
    ⟨rfl, by simp [reported, new, insertedSnapshots, CollectPhase.delivery], by simp [new],
      by simp [new, CollectPhase.delivery]⟩

end Worker

/-- **The status tells the truth**, at every step of every run: it counts the failures since the
last success, it has the error of the last attempt if that has failed, it names the last collection
that has been delivered, and that collection is in the database. -/
theorem status_tells (E : Encoding) (text : IngestError → String) (start : Db)
    (events : List WorkerEvent) :
    let w := (Worker.new start).run E text events
    w.status.Tells w.phase.isIdle w.outcomes ∧
      (w.status.lastCollectionState.isSome = true →
        w.db.collectionRuns.contains w.status.lastCollectionID = true) := by
  have htells := Worker.tells_run E text start events
  refine ⟨htells, fun hstate => ?_⟩
  rw [htells.state, Option.isSome_map] at hstate
  obtain ⟨⟨now, snapshot, inserted⟩, hlast⟩ := Option.isSome_iff_exists.1 hstate
  obtain ⟨outcome, hmem, hdelivery⟩ := List.exists_of_findSome?_eq_some hlast
  obtain rfl : outcome = .succeeded now snapshot inserted := by
    cases outcome <;> simp_all [Outcome.delivery]
  obtain ⟨run, hrun, -⟩ := (Worker.delivered_run E text start events).held now snapshot inserted
    (by simpa using hmem)
  rw [htells.collectionID, hlast]
  exact Table.contains_eq_true.2 ⟨run, hrun⟩

/-- **Every collection is applied at most once, and exactly once if it is reported.**  The worker
may ask again after a call whose answer was lost, and others may write to the database meanwhile:
what is taken in has distinct ids, every success is the delivery of a snapshot that has been taken
in, and what has been taken in comes to nothing when it is ingested again. -/
theorem deliveries {E : Encoding} {first : Uuid → Snapshot} {start : Db} (h : Ledger E first start)
    (text : IngestError → String) (events : List WorkerEvent) :
    let w := (Worker.new start).run E text events
    w.db = execAll E w.calls start ∧
      ((accepted E w.calls start).map Snapshot.collectionID).Nodup ∧
      (insertedSnapshots w.outcomes).Sublist (accepted E w.calls start) ∧
      (∀ now snapshot inserted, .succeeded now snapshot inserted ∈ w.outcomes →
        start.collectionRuns.contains snapshot.collectionID = false →
        E.Faithful snapshot (firstStored E first w.calls start snapshot.collectionID) →
        snapshot ∈ accepted E w.calls start) ∧
      ∀ snapshot ∈ accepted E w.calls start, ∀ now,
        ingest E now snapshot w.db = .ok (false, w.db) := by
  intro w
  have hd : w.Delivered E start := Worker.delivered_run E text start events
  have hledger := h.execAll w.calls
  rw [← hd.executed] at hledger
  refine ⟨hd.executed, nodup_accepted _, (List.sublist_append_left _ _).trans hd.inserted,
    fun now snapshot inserted hmem hnew hfaithful => ?_, fun snapshot hmem now => ?_⟩
  · obtain ⟨run, hrun, hmatches⟩ := hd.held now snapshot inserted hmem
    have hsame := (hledger _ run hrun).eq_of_matchesPayload hfaithful hmatches
    have hin : w.db.collectionRuns.contains snapshot.collectionID = true :=
      Table.contains_eq_true.2 ⟨run, hrun⟩
    rw [hd.executed, contains_execAll, hnew, Bool.false_or, List.any_eq_true] at hin
    obtain ⟨s, hs, hid⟩ := hin
    have hid' : s.collectionID = snapshot.collectionID := by simpa using hid
    rw [hsame, ← hid', firstStored_of_mem_accepted hs]
    exact hs
  · have hin : w.db.collectionRuns.contains snapshot.collectionID = true := by
      rw [hd.executed, contains_execAll, Bool.or_eq_true, List.any_eq_true]
      exact .inr ⟨snapshot, hmem, by simp⟩
    obtain ⟨run, hrun⟩ := Table.contains_eq_true.1 hin
    exact ingest_first hledger hrun (firstStored_of_mem_accepted hmem).symm

/-- The answer to the first call is lost, and the snapshot is fetched and ingested again. -/
def answerLost : List WorkerEvent :=
  [.start 2000000, .fetched (.ok sampleReport), .ingested 5000000 (.lost "conn closed"),
    .record 5000001, .finish, .start 6000000, .fetched (.ok sampleReport),
    .ingested 7000000 .answered, .record 7000001, .finish]

theorem deliveries_answerLost :
    let w := (Worker.new Db.empty).run sampleEncoding (fun _ => "refused") answerLost
    w.outcomes = [.failed "ingest topology" "conn closed", .succeeded 7000001 sampleReport false] ∧
      accepted sampleEncoding w.calls Db.empty = [sampleReport] ∧
      ingest sampleEncoding 8000000 sampleReport w.db = .ok (false, w.db) := by
  intro w
  have hempty : Ledger sampleEncoding (fun _ => sampleReport) Db.empty := by
    intro id run hrun
    simp [Db.empty] at hrun
  have haccepted : accepted sampleEncoding w.calls Db.empty = [sampleReport] := by decide +kernel
  refine ⟨by decide +kernel, haccepted, ?_⟩
  exact (deliveries hempty (fun _ => "refused") answerLost).2.2.2.2 sampleReport
    (by rw [haccepted]; simp) 8000000

end Poller

end NexusTier
