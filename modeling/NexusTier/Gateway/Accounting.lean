import NexusTier.Concurrent.Schedule
import NexusTier.Gateway.Accepted
import NexusTier.Relational.Keyed

/-!
# What becomes of the sessions of a collection

`collect_topology` moves sessions from a queue through a bounded set of tasks into two lists of
results.  The invariant is a law of conservation: a session is waiting, or has a task, or is a
machine of the result, or its task has failed and left an error; and when the deadline passes, the
error says how many were left.

Nothing is asked of the sessions but that they have different machine ids.

## What is here

* `Collection.Ledger`: the law, with one lemma for each event, `Ledger.step` and `Ledger.run`.
* `Collection.turns` and `left`: how often the `select!` of the loop returns, and how many sessions
  are not done with.  Each turn takes one away, so the loop ends.
* `Snapshot.Accounts`: what the law comes to when the loop has ended.
* `collection_accounts`: both, for every list of sessions under different ids, every concurrency and
  every schedule.

## What is left out

Real time: that the deadline comes is an assumption on the schedule (`SelectReturns`).
-/

set_option autoImplicit false

namespace NexusTier

open Concurrent

/-! ## Turns of the loop -/

/-- A task that `join_next` can return. -/
def Phase.ended : Phase → Bool
  | starting => false
  | listing _ => false
  | collecting _ _ _ => false
  | finished _ => true
  | panicked _ => true

namespace Collection

/-- The `select!` of the loop returns: with a task that has ended, or because of the deadline. -/
def selects (c : Collection) : Event → Bool
  | .join key => (c.tasks.lookup key).any Phase.ended
  | .deadline => !c.tasks.isEmpty
  | .tick _ => false
  | .heartbeat _ _ => false
  | .advance _ => false
  | .panic _ _ => false

/-- The sessions that are not done with. -/
def left (c : Collection) : Nat := c.pending.length + c.tasks.length

/-- The error of a collection that leaves `remaining` sessions behind. -/
def timeoutError (C : TelemetryCollector) (remaining : Nat) : TelemetryError :=
  .collectionTimeout "collect_topology"
    s!"collection exceeded {C.collectionTimeoutMS} ms with {remaining} machines pending"

section

variable {PeerInfo : Type} (A : PairAccessors PeerInfo) (C : TelemetryCollector)
  (replies : Replies PeerInfo)

/-- How often the loop goes round. -/
def turns (c : Collection) : List Event → Nat
  | [] => 0
  | event :: events =>
    (if c.selects event then 1 else 0) + turns (c.step A C replies event) events

/-- Whenever the loop waits, its `select!` returns some time later: at the latest, when the deadline
has passed. -/
def SelectReturns (c : Collection) (schedule : Nat → Event) : Prop :=
  ∀ n, (stateAt (step A C replies) c schedule n).tasks ≠ [] →
    ∃ n' ≥ n, (stateAt (step A C replies) c schedule n').selects (schedule n')

variable {A C replies} {c : Collection}

theorem length_dropTask {key : Uuid} {phase : Phase} (h : c.tasks.lookup key = some phase) :
    (c.dropTask key).tasks.length < c.tasks.length := by
  refine List.length_filter_lt_length_iff_exists.2 ⟨_, mem_of_lookup h, ?_⟩
  simp

theorem left_spawnNext (c : Collection) : c.spawnNext.left = c.left := by
  rw [spawnNext]
  split
  · rfl
  · rename_i key pending hp
    simp only [left, hp, List.length_append, List.length_cons, List.length_nil]
    omega

theorem length_spawnNext_le (c : Collection) :
    c.spawnNext.tasks.length ≤ c.tasks.length + 1 := by
  rw [spawnNext]
  split
  · omega
  · simp

theorem length_mapTask (c : Collection) (key : Uuid) (f : Phase → Phase) :
    (c.mapTask key f).tasks.length = c.tasks.length := by
  simp [mapTask]

/-- What joining a task does to the sessions that are not done with, and to the tasks. -/
theorem left_join (c : Collection) (key : Uuid) :
    (c.join key).left + (if c.selects (.join key) then 1 else 0) ≤ c.left ∧
      (c.join key).tasks.length ≤ c.tasks.length := by
  rw [join]
  split
  · rename_i machine hl
    have hlt := length_dropTask hl
    have hspawn := length_spawnNext_le
      { c.dropTask key with machines := c.machines ++ [machine] }
    rw [left_spawnNext]
    simp only [left, selects, hl, Option.any_some, Phase.ended, if_true, dropTask] at hlt hspawn ⊢
    omega
  · rename_i message hl
    have hlt := length_dropTask hl
    have hspawn := length_spawnNext_le
      { c.dropTask key with errors := c.errors ++ [.task "collect_machine" message] }
    rw [left_spawnNext]
    simp only [left, selects, hl, Option.any_some, Phase.ended, if_true, dropTask] at hlt hspawn ⊢
    omega
  · rename_i hfinished hpanicked
    have hselects : c.selects (.join key) = false := by
      cases hl : c.tasks.lookup key with
      | none => simp [selects, hl]
      | some phase =>
        cases phase with
        | finished machine => exact absurd hl (hfinished machine)
        | panicked message => exact absurd hl (hpanicked message)
        | starting | listing | collecting => simp [selects, hl, Phase.ended]
    simp [hselects]

variable (A C replies) in
/-- **A turn takes a session away**, and nothing else adds one or a task. -/
theorem left_step (c : Collection) (event : Event) :
    (c.step A C replies event).left + (if c.selects event then 1 else 0) ≤ c.left ∧
      (c.step A C replies event).tasks.length ≤ c.tasks.length := by
  cases event with
  | tick now => exact ⟨Nat.le_refl _, Nat.le_refl _⟩
  | heartbeat key request => exact ⟨Nat.le_refl _, Nat.le_refl _⟩
  | advance key =>
    simp only [step]
    split
    · have hlength := length_mapTask c key
      exact ⟨by simp [left, selects, mapTask], by simp [hlength]⟩
    · exact ⟨Nat.le_refl _, Nat.le_refl _⟩
  | panic key message =>
    have hlength := length_mapTask c key
    exact ⟨by simp [step, left, selects, mapTask], by simp [step, hlength]⟩
  | join key => exact left_join c key
  | deadline =>
    simp only [step, deadline]
    split
    · rename_i hnil
      simp [selects, hnil]
    · rename_i hne
      have hpos := List.length_pos_iff.2 hne
      have hturn : (if c.selects .deadline then 1 else 0) ≤ 1 := by split <;> omega
      simp only [left, List.length_nil]
      omega

variable (A C replies) in
theorem turns_add_left (c : Collection) (events : List Event) :
    turns A C replies c events + (c.run A C replies events).left ≤ c.left := by
  induction events generalizing c with
  | nil => simp [turns, run]
  | cons event events ih =>
    have hstep := (left_step A C replies c event).1
    have hrest := ih (c.step A C replies event)
    show _ + turns A C replies (c.step A C replies event) events +
      ((c.step A C replies event).run A C replies events).left ≤ _
    omega

theorem length_tasks_run (c : Collection) (events : List Event) :
    (c.run A C replies events).tasks.length ≤ c.tasks.length := by
  induction events generalizing c with
  | nil => exact Nat.le_refl _
  | cons event events ih => exact Nat.le_trans (ih _) (left_step A C replies c event).2

/-- The loop ends. -/
theorem ends {schedule : Nat → Event} (h : c.SelectReturns A C replies schedule) :
    ∃ n, (stateAt (step A C replies) c schedule n).tasks = [] := by
  obtain ⟨n, -, hn⟩ := exhausts (m := left) (P := fun c : Collection => c.tasks ≠ [])
    (fun c event => (Nat.le_add_right _ _).trans (left_step A C replies c event).1)
    (fun n hne => by
      obtain ⟨n', hn', hselects⟩ := h n hne
      have hstep := (left_step A C replies (stateAt (step A C replies) c schedule n')
        (schedule n')).1
      rw [if_pos hselects] at hstep
      exact ⟨n', hn', hstep⟩) 0
  exact ⟨n, not_not.1 hn⟩

end

end Collection

/-! ## The law of conservation -/

/-- What a task has so far stands under its key. -/
def Phase.NamedBy (key : Uuid) : Phase → Prop
  | starting => True
  | listing view => view.machineID = key
  | collecting view _ _ => view.machineID = key
  | finished machine => machine.session.machineID = key
  | panicked _ => True

section

variable {PeerInfo : Type} {A : PairAccessors PeerInfo} {C : TelemetryCollector}
  {replies : Replies PeerInfo} {c : Collection} {keys : List Uuid}

theorem Phase.NamedBy.advance {phase : Phase} {key : Uuid} (h : phase.NamedBy key)
    {session : GatewaySession} (hs : session.machineID = .ok key) (r : MachineReplies PeerInfo)
    (now : UInt64) : (phase.advance A r now session).NamedBy key := by
  cases phase with
  | starting =>
    obtain ⟨view, hview, hid, -⟩ := GatewaySession.view_of_machineID hs
    simp only [Phase.advance, hview]
    exact hid
  | listing view =>
    have hview : view.machineID = key := h
    cases hr : r.instances with
    | ok ids =>
      simp only [Phase.advance, hr]
      exact hview
    | error message =>
      simp only [Phase.advance, hr]
      exact hview
    | timeout =>
      simp only [Phase.advance, hr]
      exact hview
  | collecting view todo insts =>
    cases todo with
    | nil => exact h
    | cons id todo => exact h
  | finished machine => exact h
  | panicked message => trivial

theorem Phase.NamedBy.panic {phase : Phase} {key : Uuid} (h : phase.NamedBy key)
    (message : String) : (Collection.panicPhase message phase).NamedBy key := by
  cases phase with
  | finished machine => exact h
  | starting | listing | collecting | panicked => trivial

namespace Collection

/-- Sessions and tasks stand under their machine ids. -/
structure Named (c : Collection) : Prop where
  sessions : ∀ e ∈ c.sessions, e.2.machineID = .ok e.1
  tasks : ∀ t ∈ c.tasks, t.2.NamedBy t.1

/-- The law of conservation.  Until the deadline passes, the sessions are those that are waiting,
have a task or have been collected, and one for each error, which is that of a failed task.  When
it passes, those without a task any more are what its error says they are. -/
def Balanced (C : TelemetryCollector) (keys : List Uuid) (c : Collection) : Prop :=
  (∃ (failed : List String) (lost : List Uuid),
    c.errors = failed.map (.task "collect_machine") ∧ lost.length = failed.length ∧
      (c.accounted ++ lost).Perm keys ∧ (c.tasks = [] → c.pending = [])) ∨
  ∃ (failed : List String) (remaining : Nat), c.tasks = [] ∧
    c.errors = failed.map (.task "collect_machine") ++ [timeoutError C remaining] ∧
      (c.machines.map fun machine => machine.session.machineID).Subperm keys ∧
      c.machines.length + failed.length + remaining = keys.length

/-- A collection of sessions under different machine ids, with the law of conservation. -/
structure Ledger (C : TelemetryCollector) (keys : List Uuid) (c : Collection) : Prop
    extends c.Named where
  nodup : keys.Nodup
  balanced : c.Balanced C keys

/-- What moves no session keeps the law. -/
theorem Balanced.of_accounted {c' : Collection} (h : c.Balanced C keys)
    (hacc : c'.accounted = c.accounted) (htasks : c'.tasks = [] ↔ c.tasks = [])
    (hpending : c'.pending = c.pending) (hmachines : c'.machines = c.machines)
    (herrors : c'.errors = c.errors) : c'.Balanced C keys := by
  obtain ⟨failed, lost, he, hlost, hperm, hidle⟩ | ⟨failed, remaining, hnil, he, hsub, hcount⟩ := h
  · exact .inl ⟨failed, lost, herrors.trans he, hlost, by rwa [hacc],
      fun hnil => hpending.trans (hidle (htasks.1 hnil))⟩
  · exact .inr ⟨failed, remaining, htasks.2 hnil, herrors.trans he, by rwa [hmachines],
      by rwa [hmachines]⟩

theorem Ledger.mapTask (h : c.Ledger C keys) {key : Uuid} {f : Phase → Phase}
    (hf : ∀ phase : Phase, phase.NamedBy key → (f phase).NamedBy key) :
    (c.mapTask key f).Ledger C keys :=
  ⟨⟨h.sessions, forall_mapTask (P := fun key phase => phase.NamedBy key) h.tasks hf⟩, h.nodup,
    h.balanced.of_accounted (c.accounted_mapTask key f) (by simp [Collection.mapTask]) rfl rfl rfl⟩

theorem Ledger.heartbeat (h : c.Ledger C keys) (key : Uuid) (request : HeartbeatRequest) :
    (c.step A C replies (.heartbeat key request)).Ledger C keys := by
  refine ⟨⟨fun e' he' => ?_, h.tasks⟩, h.nodup, h.balanced⟩
  obtain ⟨e, he, rfl⟩ := List.mem_map.1 he'
  have hnamed := h.sessions e he
  split
  · split
    · rename_i hb
      exact GatewaySession.machineID_heartbeat hnamed hb
    · exact hnamed
  · exact hnamed

/-- A task is joined while the law is in its first form: the tasks stand under different keys. -/
theorem nodup_of_perm {lost : List Uuid} (hnodup : keys.Nodup)
    (hperm : (c.accounted ++ lost).Perm keys) : (c.tasks.map Prod.fst).Nodup :=
  (hperm.nodup_iff.2 hnodup).sublist (((List.sublist_append_right _ _).trans
    (List.sublist_append_left _ _)).trans (List.sublist_append_left _ _))

theorem Named.spawnNext (h : c.Named) : c.spawnNext.Named := by
  refine ⟨fun e he => h.sessions e ?_,
    forall_spawnNext (P := fun key phase => phase.NamedBy key) h.tasks fun _ => trivial⟩
  rw [Collection.spawnNext] at he
  split at he
  · exact he
  · exact he

theorem spawnNext_errors (c : Collection) : c.spawnNext.errors = c.errors := by
  rw [Collection.spawnNext]
  split <;> rfl

/-- Sessions all told, the law holds again once the next session has its task. -/
theorem ledger_spawnNext (hnamed : c.Named) (hnodup : keys.Nodup) {failed : List String}
    {lost : List Uuid} (herrors : c.errors = failed.map (.task "collect_machine"))
    (hlost : lost.length = failed.length) (hperm : (c.accounted ++ lost).Perm keys) :
    c.spawnNext.Ledger C keys :=
  ⟨hnamed.spawnNext, hnodup, .inl ⟨failed, lost, c.spawnNext_errors.trans herrors, hlost,
    (c.accounted_spawnNext.append_right lost).trans hperm, spawnNext_idle⟩⟩

theorem Ledger.join (h : c.Ledger C keys) (key : Uuid) : (c.join key).Ledger C keys := by
  have hdrop : ∀ t ∈ (c.dropTask key).tasks, t.2.NamedBy t.1 :=
    fun t ht => h.tasks t (List.mem_of_mem_filter ht)
  rw [Collection.join]
  obtain ⟨failed, lost, he, hlost, hperm, -⟩ | ⟨_, _, hnil, -⟩ := h.balanced
  · have hnd := nodup_of_perm h.nodup hperm
    split
    · rename_i machine hl
      have hid : machine.session.machineID = key := h.tasks _ (mem_of_lookup hl)
      exact ledger_spawnNext ⟨h.sessions, hdrop⟩ h.nodup he hlost
        (((accounted_joined hnd hl hid).append_right lost).trans hperm)
    · rename_i message hl
      -- the session leaves the account and is lost
      have herrors : c.errors ++ [.task "collect_machine" message] =
          (failed ++ [message]).map (.task "collect_machine") := by simp [he]
      have hlength : (key :: lost).length = (failed ++ [message]).length := by simp [hlost]
      refine ledger_spawnNext ⟨h.sessions, hdrop⟩ h.nodup herrors hlength ?_
      have hkeys := (map_dropTask hnd hl).symm
      have hacc : (key :: (c.pending ++ (c.dropTask key).tasks.map Prod.fst ++
          c.machines.map fun machine => machine.session.machineID)).Perm c.accounted := by
        have hmid := (hkeys.append_left c.pending).append_right
          (c.machines.map fun machine => machine.session.machineID)
        refine List.Perm.trans ?_ hmid
        rw [List.append_assoc, List.append_assoc]
        exact List.perm_middle.symm
      exact (List.perm_middle.trans (hacc.append_right lost)).trans hperm
    · exact h
  · have hl : c.tasks.lookup key = none := by simp [hnil]
    simpa only [hl] using h

theorem Ledger.deadline (h : c.Ledger C keys) : (c.deadline C).Ledger C keys := by
  rw [Collection.deadline]
  split
  · exact h
  · rename_i hne
    obtain ⟨failed, lost, he, hlost, hperm, -⟩ | ⟨_, _, hnil, -⟩ := h.balanced
    · refine ⟨⟨h.sessions, by simp⟩, h.nodup, .inr ⟨failed, c.left, rfl, by rw [he]; rfl, ?_, ?_⟩⟩
      · exact ((List.sublist_append_right _ _).trans (List.sublist_append_left _ lost)).subperm.trans
          hperm.subperm
      · have hlength := hperm.length_eq
        simp only [accounted, List.length_append, List.length_map] at hlength
        simp only [left]
        omega
    · exact absurd hnil hne

/-- **One event keeps the law.** -/
theorem Ledger.step (h : c.Ledger C keys) (event : Event) :
    (c.step A C replies event).Ledger C keys := by
  cases event with
  | tick now => exact ⟨⟨h.sessions, h.tasks⟩, h.nodup, h.balanced⟩
  | heartbeat key request => exact h.heartbeat key request
  | advance key =>
    simp only [Collection.step]
    split
    · rename_i session hsession
      exact h.mapTask fun phase hphase =>
        hphase.advance (h.sessions _ (mem_of_lookup hsession)) _ _
    · exact h
  | panic key message => exact h.mapTask fun phase hphase => hphase.panic message
  | join key => exact h.join key
  | deadline => exact h.deadline

/-- **So does every run.** -/
theorem Ledger.run (h : c.Ledger C keys) (events : List Event) :
    (c.run A C replies events).Ledger C keys := by
  induction events generalizing c with
  | nil => exact h
  | cons event events ih => exact ih (h.step event)

theorem length_spawnUpTo_le {limit : Nat} {pending : List Uuid} {tasks : List (Uuid × Phase)}
    (h : tasks.length ≤ limit) : (spawnUpTo limit pending tasks).2.length ≤ limit := by
  induction pending generalizing tasks with
  | nil => exact h
  | cons key pending ih =>
    rw [spawnUpTo]
    split
    · rename_i hlt
      exact ih (by simpa using hlt)
    · exact h

variable (C) (now : UInt64) (collectionID : Uuid) (sessions : List (Uuid × GatewaySession))

/-- The first loop puts every session into the queue or the set of tasks. -/
theorem perm_start : ((start C now collectionID sessions).pending ++
    (start C now collectionID sessions).tasks.map Prod.fst).Perm (sessions.map Prod.fst) := by
  have hkeys := (@spawnUpTo_spec C.machineConcurrency (sessions.map Prod.fst) []).1
  exact List.perm_append_comm.trans (by simp only [start, hkeys]; simp)

theorem left_start : (start C now collectionID sessions).left = sessions.length := by
  simpa [left] using (perm_start C now collectionID sessions).length_eq

variable {sessions}

theorem ledger_start (hnodup : (sessions.map Prod.fst).Nodup)
    (hid : ∀ e ∈ sessions, e.2.machineID = .ok e.1) :
    (start C now collectionID sessions).Ledger C (sessions.map Prod.fst) := by
  have htasks := (@spawnUpTo_spec C.machineConcurrency (sessions.map Prod.fst) []).2
  refine ⟨⟨hid, fun t ht => ?_⟩, hnodup, .inl ⟨[], [], rfl, rfl, ?_, fun hidle => ?_⟩⟩
  · rcases htasks t ht with hold | hnew
    · simp at hold
    · rw [hnew]
      trivial
  · have hperm := perm_start C now collectionID sessions
    rw [accounted, List.append_nil]
    simpa [start] using hperm
  · have hnil := spawnUpTo_idle C.concurrency_pos hidle
    simp [start, hnil, spawnUpTo]

/-- When it has started does not matter. -/
theorem ledger_listed (startedAtMS : UInt64) (hnodup : (sessions.map Prod.fst).Nodup)
    (hid : ∀ e ∈ sessions, e.2.machineID = .ok e.1) :
    (listed C startedAtMS now collectionID sessions).Ledger C (sessions.map Prod.fst) :=
  have h := ledger_start C now collectionID hnodup hid
  ⟨⟨h.sessions, h.tasks⟩, h.nodup, h.balanced⟩

variable {C} in
theorem timeoutError_inj {m n : Nat} (h : timeoutError C m = timeoutError C n) : m = n := by
  have hmessage := congrArg TelemetryError.message h
  simpa [timeoutError, TelemetryError.collectionTimeout] using hmessage

end Collection

/-! ## What comes out -/

/-- The errors report `n` sessions as pending: none, if there is no timeout among them. -/
def ReportsPending (C : TelemetryCollector) (errors : List TelemetryError) (n : Nat) : Prop :=
  Collection.timeoutError C n ∈ errors ∨
    n = 0 ∧ ∀ error ∈ errors, error.code ≠ "collection_timeout"

/-- The errors of tasks that failed. -/
def failedTasks (errors : List TelemetryError) : List TelemetryError :=
  errors.filter fun error => error.code = "task_failed"

/-- What a snapshot says about the sessions it was collected from. -/
structure Snapshot.Accounts (C : TelemetryCollector) (keys : List Uuid) (snapshot : Snapshot) :
    Prop where
  ascending : (snapshot.machines.elems.map fun machine => machine.session.machineID).Pairwise
    (· < ·)
  complete : snapshot.errors.elems = [] →
    (snapshot.machines.elems.map fun machine => machine.session.machineID).Perm keys
  reports : ∃ n, ReportsPending C snapshot.errors.elems n
  counted : ∀ n, ReportsPending C snapshot.errors.elems n →
    snapshot.machines.elems.length + (failedTasks snapshot.errors.elems).length + n = keys.length

theorem failedTasks_map (failed : List String) :
    failedTasks (failed.map (.task "collect_machine")) = failed.map (.task "collect_machine") := by
  refine List.filter_eq_self.2 fun error herror => ?_
  obtain ⟨message, -, rfl⟩ := List.mem_map.1 herror
  simp [TelemetryError.task]

theorem code_of_mem_map {failed : List String} {error : TelemetryError}
    (h : error ∈ failed.map (.task "collect_machine")) : error.code = "task_failed" := by
  obtain ⟨message, -, rfl⟩ := List.mem_map.1 h
  rfl

/-- The sort of the machines leaves them in ascending order, if no machine occurs twice. -/
theorem sortMachines_ascending {machines : List Machine}
    (h : (machines.map fun machine => machine.session.machineID).Nodup) :
    ((sortMachines machines).map fun machine => machine.session.machineID).Pairwise (· < ·) :=
  List.pairwise_map.2 (Relational.insertionSort_ascending h)

namespace Collection

theorem Balanced.subperm (h : c.Balanced C keys) :
    (c.machines.map fun machine => machine.session.machineID).Subperm keys := by
  obtain ⟨_, lost, _, _, hperm, _⟩ | ⟨_, _, _, _, hsub, _⟩ := h
  · exact ((List.sublist_append_right _ _).trans (List.sublist_append_left _ lost)).subperm.trans
      hperm.subperm
  · exact hsub

/-- **What the law comes to when the loop has ended.** -/
theorem Ledger.accounts (h : c.Ledger C keys) {snapshot : Snapshot}
    (hs : c.snapshot? = some snapshot) : snapshot.Accounts C keys := by
  rw [snapshot?] at hs
  split at hs
  · rename_i hnil
    obtain rfl := Option.some.inj hs
    have hsort : (sortMachines c.machines).Perm c.machines := List.perm_insertionSort _ _
    have hlength : (sortMachines c.machines).length = c.machines.length := hsort.length_eq
    obtain ⟨l, hl, hsub⟩ := h.balanced.subperm
    have hasc := sortMachines_ascending (hl.nodup_iff.1 (h.nodup.sublist hsub))
    obtain ⟨failed, lost, he, hlost, hperm, hidle⟩ | ⟨failed, remaining, -, he, -, hcount⟩ :=
      h.balanced
    · simp only [accounted, hidle hnil, hnil, List.map_nil, List.nil_append] at hperm
      refine ⟨hasc, fun herr => ?_, ⟨0, .inr ⟨rfl, fun error herror => ?_⟩⟩, fun n hn => ?_⟩
      · have hfailed : failed = [] := List.map_eq_nil_iff.1 (he.symm.trans herr)
        obtain rfl : lost = [] := List.length_eq_zero_iff.1 (by rw [hlost, hfailed]; rfl)
        rw [List.append_nil] at hperm
        exact (hsort.map _).trans hperm
      · simp [code_of_mem_map (he ▸ herror)]
      · have hzero : n = 0 := by
          rcases hn with hmem | ⟨hzero, -⟩
          · have hcode := code_of_mem_map (he ▸ hmem)
            simp [timeoutError, TelemetryError.collectionTimeout] at hcode
          · exact hzero
        have hcount := hperm.length_eq
        simp only [Slice.elems_some, he, failedTasks_map, List.length_append,
          List.length_map] at hcount ⊢
        omega
    · refine ⟨hasc, fun herr => ?_, ⟨remaining, .inl ?_⟩, fun n hn => ?_⟩
      · simp [he] at herr
      · simp [he]
      · have hn' : n = remaining := by
          rcases hn with hmem | ⟨-, hnone⟩
          · rcases List.mem_append.1 (he ▸ hmem) with hfailed | hlast
            · have hcode := code_of_mem_map hfailed
              simp [timeoutError, TelemetryError.collectionTimeout] at hcode
            · exact timeoutError_inj (List.mem_singleton.1 hlast)
          · exact absurd rfl (hnone (timeoutError C remaining) (by simp [he]))
        have hfailed : (failedTasks c.errors).length = failed.length := by
          have hlast : failedTasks [timeoutError C remaining] = [] := by
            simp [failedTasks, timeoutError, TelemetryError.collectionTimeout]
          rw [he, failedTasks, List.filter_append]
          show (failedTasks _ ++ failedTasks _).length = _
          rw [failedTasks_map, hlast, List.append_nil, List.length_map]
        simp only [Slice.elems_some]
        omega
  · simp at hs

end Collection

/-- Two lists of machines with the same ids, in the same order, are the same if they agree on each
id. -/
theorem eq_of_map_machineID {l l' : List Machine}
    (hmap : (l.map fun machine => machine.session.machineID) =
      l'.map fun machine => machine.session.machineID)
    (hsame : ∀ m ∈ l, ∀ m' ∈ l', m.session.machineID = m'.session.machineID → m = m') :
    l = l' := by
  induction l generalizing l' with
  | nil => exact (List.map_eq_nil_iff.1 hmap.symm).symm
  | cons m l ih =>
    cases l' with
    | nil => simp at hmap
    | cons m' l' =>
      obtain ⟨hhead, htail⟩ := List.cons.inj hmap
      obtain rfl := hsame m (by simp) m' (by simp) hhead
      rw [ih htail fun n hn n' hn' => hsame n (by simp [hn]) n' (by simp [hn'])]

/-- Snapshots without errors of the same sessions have the same machines, if they agree on each. -/
theorem Snapshot.Accounts.machines_eq {C' : TelemetryCollector} {keys' : List Uuid}
    {snapshot snapshot' : Snapshot} (h : snapshot.Accounts C keys)
    (h' : snapshot'.Accounts C' keys') (hkeys : keys.Perm keys') (he : snapshot.errors.elems = [])
    (he' : snapshot'.errors.elems = [])
    (hsame : ∀ m ∈ snapshot.machines.elems, ∀ m' ∈ snapshot'.machines.elems,
      m.session.machineID = m'.session.machineID → m = m') :
    snapshot.machines.elems = snapshot'.machines.elems := by
  refine eq_of_map_machineID ?_ hsame
  refine List.Perm.eq_of_pairwise' (h.ascending.imp le_of_lt) (h'.ascending.imp le_of_lt) ?_
  exact (h.complete he).trans (hkeys.trans (h'.complete he').symm)

/-- **No session of a collection is lost.**  Under every schedule at most `machine_concurrency`
tasks run at once, the loop goes round at most once for each session and ends as soon as its
`select!` keeps returning, and the snapshot accounts for every session.  Without errors the machines
are the same for every schedule, every concurrency and every order of the pool in which each
session gives the same result. -/
theorem collection_accounts {PeerInfo : Type} (A : PairAccessors PeerInfo) (C : TelemetryCollector)
    (replies : Replies PeerInfo) (now : UInt64) (collectionID : Uuid)
    (sessions : List (Uuid × GatewaySession)) (hnodup : (sessions.map Prod.fst).Nodup)
    (hid : ∀ e ∈ sessions, e.2.machineID = .ok e.1) :
    (∀ events,
      ((Collection.start C now collectionID sessions).run A C replies events).tasks.length ≤
        C.machineConcurrency ∧
      Collection.turns A C replies (Collection.start C now collectionID sessions) events ≤
        sessions.length) ∧
    (∀ schedule,
      (Collection.start C now collectionID sessions).SelectReturns A C replies schedule →
      ∃ n snapshot, (stateAt (Collection.step A C replies)
        (Collection.start C now collectionID sessions) schedule n).snapshot? = some snapshot) ∧
    (∀ events snapshot,
      ((Collection.start C now collectionID sessions).run A C replies events).snapshot? =
        some snapshot → snapshot.Accounts C (sessions.map Prod.fst)) ∧
    ∀ (C' : TelemetryCollector) now' collectionID' sessions' events events' snapshot snapshot',
      sessions'.Perm sessions →
      ((Collection.start C now collectionID sessions).run A C replies events).snapshot? =
        some snapshot →
      ((Collection.start C' now' collectionID' sessions').run A C' replies events').snapshot? =
        some snapshot' →
      snapshot.errors.elems = [] → snapshot'.errors.elems = [] →
      (∀ m ∈ snapshot.machines.elems, ∀ m' ∈ snapshot'.machines.elems,
        m.session.machineID = m'.session.machineID → m = m') →
      snapshot.machines.elems = snapshot'.machines.elems := by
  have hledger := Collection.ledger_start C now collectionID hnodup hid
  refine ⟨fun events => ⟨?_, ?_⟩, fun schedule hreturns => ?_,
    fun events snapshot hs => (hledger.run events).accounts hs, ?_⟩
  · exact Nat.le_trans (Collection.length_tasks_run _ events)
      (Collection.length_spawnUpTo_le (Nat.zero_le _))
  · have hturns := Collection.turns_add_left A C replies
      (Collection.start C now collectionID sessions) events
    rw [Collection.left_start] at hturns
    omega
  · obtain ⟨n, hn⟩ := Collection.ends hreturns
    exact ⟨n, _, by rw [Collection.snapshot?, if_pos hn]⟩
  · intro C' now' collectionID' sessions' events events' snapshot snapshot' hperm hs hs' he he' hsame
    have hkeys := hperm.map Prod.fst
    have hledger' := Collection.ledger_start C' now' collectionID' (hkeys.nodup_iff.2 hnodup)
      fun e hmem => hid e (hperm.mem_iff.1 hmem)
    exact ((hledger.run events).accounts hs).machines_eq ((hledger'.run events').accounts hs')
      hkeys.symm he he' hsame

/-- Every snapshot that the gateway emits accounts for its pool. -/
theorem Gateway.Emits.accounts {PeerInfo : Type} {A : PairAccessors PeerInfo}
    {replies : Replies PeerInfo} {g : Gateway} {snapshot : Snapshot} (hg : g.Reachable)
    (h : g.Emits A C replies snapshot) : snapshot.Accounts C (g.pool.map Prod.fst) := by
  obtain ⟨hnodup, hadmitted⟩ := hg.admitted
  obtain ⟨collectionID, startedAtMS, sessions, events, -, -, hperm, hs⟩ := h
  have hkeys := hperm.map Prod.fst
  have hledger := Collection.ledger_listed C g.now collectionID startedAtMS
    (hkeys.nodup_iff.2 hnodup)
    fun e he => GatewaySession.machineID_eq_ok.2 (hadmitted e (hperm.mem_iff.1 he)).names
  have haccounts := (hledger.run events).accounts hs
  exact ⟨haccounts.ascending, fun he => (haccounts.complete he).trans hkeys, haccounts.reports,
    fun n hn => (haccounts.counted n hn).trans hkeys.length_eq⟩

end

/-! ### Two clients, one at a time or both at once -/

def oneAtATime : TelemetryCollector := ⟨15000, 1, by decide⟩

/-- Both clients are collected at time 2100, the second before the first. -/
def bothAtOnce : List Event :=
  [.advance 1, .advance 2, .tick 2100, .advance 2, .advance 2, .advance 2, .join 2, .advance 1,
    .advance 1, .advance 1, .join 1]

/-- The same, one after the other. -/
def firstThenSecond : List Event :=
  [.tick 2100, .advance 1, .advance 1, .advance 1, .advance 1, .join 1, .advance 2, .advance 2,
    .advance 2, .advance 2, .join 2]

/-- The task of the first client fails, and that of the second does not end in time. -/
def failing : List Event := [.panic 1 "panicked", .join 1, .advance 2, .deadline]

/-- What a collection of the two clients comes to. -/
def collectTwo (C : TelemetryCollector) (events : List Event) : Collection :=
  (Collection.start C 2000 7 (twoClients 1 2).pool).run noPeers C (oneInstanceEach (· + 10)) events

theorem collection_accounts_twoClients :
    (∃ n snapshot, (stateAt (Collection.step noPeers oneAtATime (oneInstanceEach (· + 10)))
      (Collection.start oneAtATime 2000 7 (twoClients 1 2).pool) (fun _ => .deadline)
      n).snapshot? = some snapshot) ∧
    (∃ snapshot, (collectTwo oneAtATime failing).snapshot? = some snapshot ∧
      snapshot.machines.elems.length + (failedTasks snapshot.errors.elems).length + 1 = 2) ∧
    ∃ snapshot snapshot', (collectTwo oneAtATime firstThenSecond).snapshot? = some snapshot ∧
      (collectTwo sampleCollector bothAtOnce).snapshot? = some snapshot' ∧
      snapshot.machines.elems.length = 2 ∧
      snapshot.machines.elems = snapshot'.machines.elems := by
  obtain ⟨-, hends, haccounts, hsame⟩ := collection_accounts noPeers oneAtATime
    (oneInstanceEach (· + 10)) 2000 7 (twoClients 1 2).pool (by decide) (by decide)
  refine ⟨hends _ fun n hne => ⟨n, Nat.le_refl n, ?_⟩, ⟨_, rfl, ?_⟩, _, _, rfl, rfl, ?_, ?_⟩
  · simpa [Collection.selects] using hne
  · exact (haccounts failing _ rfl).counted 1 (.inl (by decide +kernel))
  · decide +kernel
  · exact hsame sampleCollector 2000 7 _ firstThenSecond bothAtOnce _ _ (List.Perm.refl _) rfl rfl
      (by decide +kernel) (by decide +kernel) (by decide +kernel)

end NexusTier
