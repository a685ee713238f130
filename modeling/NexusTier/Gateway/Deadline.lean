import NexusTier.Gateway.Accounting

/-!
# What the deadline throws away

When the deadline of a collection has passed, `collect_topology` aborts the tasks of its `JoinSet`
and drains it without looking at what comes out.  A task that has ended by then, but has not been
joined, is aborted and drained like the others, and counted as pending: the two branches of the
`select!` may both be ready, and nothing prefers `join_next`.

So a machine that was collected in time is kept exactly if its task had been joined
(`deadline_keeps_iff`).

## What is here

* `Completed` and `DeadlineKeeps`: a machine has been collected, and the snapshot has all of these.
* `snapshot_of_deadline`: the snapshot of a collection whose deadline has passed.
* `deadline_keeps_iff`: for every run that takes the deadline branch, when nothing is thrown away.
* `deadline_drops_finished`: a run in which something is.

## What is left out

How likely it is that both branches of the `select!` are ready at once.
-/

set_option autoImplicit false

namespace NexusTier

namespace Collection

/-! ## The moment of the deadline -/

/-- The machine has been collected: its task has finished, joined or not. -/
def Completed (c : Collection) (machine : Machine) : Prop :=
  machine ∈ c.machines ∨ ∃ key, (key, Phase.finished machine) ∈ c.tasks

/-- The sessions whose collection has not ended. -/
def unfinished (c : Collection) : Nat :=
  c.pending.length + c.tasks.countP fun t => !t.2.ended

/-- The snapshot of a collection whose deadline passed in state `c` has every machine that had been
collected, and counts the others. -/
structure DeadlineKeeps (C : TelemetryCollector) (c : Collection) (snapshot : Snapshot) : Prop where
  machines : ∀ machine, c.Completed machine → machine ∈ snapshot.machines.elems
  pending : timeoutError C c.unfinished ∈ snapshot.errors.elems

section

variable {PeerInfo : Type} (A : PairAccessors PeerInfo) (C : TelemetryCollector)
  (replies : Replies PeerInfo)

/-- The state in which a run takes the deadline branch, if it does. -/
def atDeadline (c : Collection) : List Event → Option Collection
  | [] => none
  | event :: events =>
    if event = .deadline ∧ c.tasks ≠ [] then some c
    else (c.step A C replies event).atDeadline events

variable {A C replies} {c d : Collection}

theorem atDeadline_eq_some {events : List Event} (h : c.atDeadline A C replies events = some d) :
    d.tasks ≠ [] ∧ ∃ before after, d = c.run A C replies before ∧
      c.run A C replies events = (d.deadline C).run A C replies after := by
  induction events generalizing c with
  | nil => simp [atDeadline] at h
  | cons event events ih =>
    rw [atDeadline] at h
    split at h
    · rename_i hdeadline
      obtain ⟨rfl, hne⟩ := hdeadline
      obtain rfl := Option.some.inj h
      exact ⟨hne, [], events, rfl, rfl⟩
    · obtain ⟨hne, before, after, hd, hrun⟩ := ih h
      exact ⟨hne, event :: before, after, hd, hrun⟩

/-! ## Before it and after it -/

/-- While there are tasks, the errors are those of failed ones. -/
def OnlyFailed (c : Collection) : Prop :=
  c.tasks ≠ [] → ∀ error ∈ c.errors, error.code = "task_failed"

theorem OnlyFailed.step (h : c.OnlyFailed) (event : Event) :
    (c.step A C replies event).OnlyFailed := by
  have hmap : ∀ key f, (c.mapTask key f).OnlyFailed := fun key f hne =>
    h fun hnil => hne (by simp [mapTask, hnil])
  cases event with
  | tick now => exact h
  | heartbeat key request => exact h
  | advance key =>
    simp only [Collection.step]
    split
    · exact hmap _ _
    · exact h
  | panic key message => exact hmap _ _
  | join key =>
    simp only [Collection.step, join]
    split
    · rename_i machine hl
      have hne : c.tasks ≠ [] := List.ne_nil_of_mem (mem_of_lookup hl)
      intro _
      rw [spawnNext_errors]
      exact h hne
    · rename_i message hl
      have hne : c.tasks ≠ [] := List.ne_nil_of_mem (mem_of_lookup hl)
      intro _
      rw [spawnNext_errors]
      intro error herror
      rcases List.mem_append.1 herror with hold | hnew
      · exact h hne error hold
      · rw [List.mem_singleton.1 hnew]
        rfl
    · exact h
  | deadline =>
    simp only [Collection.step, deadline]
    split
    · exact h
    · exact fun hne => absurd rfl hne

theorem OnlyFailed.run (h : c.OnlyFailed) (events : List Event) :
    (c.run A C replies events).OnlyFailed := by
  induction events generalizing c with
  | nil => exact h
  | cons event events ih => exact ih (h.step event)

/-- Without tasks, nothing is added any more. -/
theorem run_of_no_tasks (h : c.tasks = []) (events : List Event) :
    (c.run A C replies events).tasks = [] ∧ (c.run A C replies events).machines = c.machines ∧
      (c.run A C replies events).errors = c.errors := by
  induction events generalizing c with
  | nil => exact ⟨h, rfl, rfl⟩
  | cons event events ih =>
    have hstep : (c.step A C replies event).tasks = [] ∧
        (c.step A C replies event).machines = c.machines ∧
        (c.step A C replies event).errors = c.errors := by
      cases event with
      | tick now => exact ⟨h, rfl, rfl⟩
      | heartbeat key request => exact ⟨h, rfl, rfl⟩
      | advance key =>
        simp only [step]
        split
        · exact ⟨by simp [mapTask, h], rfl, rfl⟩
        · exact ⟨h, rfl, rfl⟩
      | panic key message => exact ⟨by simp [step, mapTask, h], rfl, rfl⟩
      | join key => simp [step, join, h]
      | deadline => simp [step, deadline, h]
    obtain ⟨htasks, hmachines, herrors⟩ := hstep
    obtain ⟨htasks', hmachines', herrors'⟩ := ih htasks
    exact ⟨htasks', hmachines'.trans hmachines, herrors'.trans herrors⟩

/-- **The snapshot of a collection whose deadline has passed**: the machines that had been joined,
and an error that counts all tasks as pending. -/
theorem snapshot_of_deadline {events : List Event} (h : c.atDeadline A C replies events = some d) :
    ∃ snapshot, (c.run A C replies events).snapshot? = some snapshot ∧
      snapshot.machines.elems.Perm d.machines ∧
      snapshot.errors.elems = d.errors ++ [timeoutError C d.left] := by
  obtain ⟨hne, -, after, -, hrun⟩ := atDeadline_eq_some h
  have hidle : (d.deadline C).tasks = [] := by
    rw [deadline, if_neg hne]
  obtain ⟨htasks, hmachines, herrors⟩ :=
    @run_of_no_tasks _ A C replies (d.deadline C) hidle after
  refine ⟨_, by rw [snapshot?, hrun, if_pos htasks], ?_, ?_⟩
  · have hd : (d.deadline C).machines = d.machines := by
      rw [deadline, if_neg hne]
    rw [Slice.elems_some, hmachines, hd]
    exact List.perm_insertionSort _ _
  · have hd : (d.deadline C).errors = d.errors ++ [timeoutError C d.left] := by
      rw [deadline, if_neg hne]
      rfl
    rw [Slice.elems_some, herrors, hd]

theorem unfinished_eq_left : d.unfinished = d.left ↔ ∀ t ∈ d.tasks, t.2.ended = false := by
  rw [unfinished, left, Nat.add_left_cancel_iff, List.countP_eq_length]
  simp

end

/-- **The deadline keeps what has been finished exactly if nothing waits to be joined.**  In every
run that takes the deadline branch, the snapshot has all machines that had been collected by then
and counts only the others as pending if and only if no task of the `JoinSet` had ended. -/
theorem deadline_keeps_iff {PeerInfo : Type} (A : PairAccessors PeerInfo) (C : TelemetryCollector)
    (replies : Replies PeerInfo) (now : UInt64) (collectionID : Uuid)
    (sessions : List (Uuid × GatewaySession)) (events : List Event) {d : Collection}
    (h : (start C now collectionID sessions).atDeadline A C replies events = some d) :
    ∃ snapshot, ((start C now collectionID sessions).run A C replies events).snapshot? =
        some snapshot ∧
      (DeadlineKeeps C d snapshot ↔ ∀ t ∈ d.tasks, t.2.ended = false) := by
  obtain ⟨snapshot, hs, hmachines, herrors⟩ := snapshot_of_deadline h
  refine ⟨snapshot, hs, fun hkeeps => ?_, fun hopen => ⟨fun machine hcompleted => ?_, ?_⟩⟩
  · obtain ⟨hne, before, -, hd, -⟩ := atDeadline_eq_some h
    have hstart : (start C now collectionID sessions).OnlyFailed := fun _ error herror => by
      simp [start] at herror
    have hfailed : d.OnlyFailed := hd ▸ hstart.run before
    have hpending := hkeeps.pending
    rw [herrors] at hpending
    rcases List.mem_append.1 hpending with hold | hlast
    · have hcode := hfailed hne _ hold
      simp [timeoutError, TelemetryError.collectionTimeout] at hcode
    · exact unfinished_eq_left.1 (timeoutError_inj (List.mem_singleton.1 hlast))
  · rcases hcompleted with hjoined | ⟨key, htask⟩
    · exact hmachines.mem_iff.2 hjoined
    · exact absurd (hopen _ htask) (by simp [Phase.ended])
  · rw [herrors, unfinished_eq_left.2 hopen]
    exact List.mem_append_right _ (List.mem_singleton.2 rfl)

/-! ### The first client has answered, the second has not -/

theorem deadline_keeps_iff_failing :
    ∃ d snapshot, (start oneAtATime 2000 7 (twoClients 1 2).pool).atDeadline noPeers oneAtATime
        (oneInstanceEach (· + 10)) failing = some d ∧
      (collectTwo oneAtATime failing).snapshot? = some snapshot ∧
      DeadlineKeeps oneAtATime d snapshot := by
  obtain ⟨snapshot, hs, hiff⟩ := deadline_keeps_iff noPeers oneAtATime (oneInstanceEach (· + 10)) 2000 7
    (twoClients 1 2).pool failing rfl
  exact ⟨_, snapshot, rfl, hs, hiff.2 (by decide +kernel)⟩

/-- The task of the first client has finished when the deadline passes. -/
def finishedInTime : List Event :=
  [.tick 2100, .advance 1, .advance 1, .advance 1, .advance 1, .deadline]

/-- **A finished machine is thrown away**, and counted as pending. -/
theorem deadline_drops_finished :
    ∃ d snapshot machine, (start oneAtATime 2000 7 (twoClients 1 2).pool).atDeadline noPeers
        oneAtATime (oneInstanceEach (· + 10)) finishedInTime = some d ∧
      (collectTwo oneAtATime finishedInTime).snapshot? = some snapshot ∧
      d.Completed machine ∧ machine ∉ snapshot.machines.elems ∧
      d.unfinished = 1 ∧ timeoutError oneAtATime 2 ∈ snapshot.errors.elems ∧
      ¬ DeadlineKeeps oneAtATime d snapshot := by
  have hmissing : ∃ d snapshot machine, (start oneAtATime 2000 7 (twoClients 1 2).pool).atDeadline
      noPeers oneAtATime (oneInstanceEach (· + 10)) finishedInTime = some d ∧
        (collectTwo oneAtATime finishedInTime).snapshot? = some snapshot ∧
        (1, Phase.finished machine) ∈ d.tasks ∧ machine ∉ snapshot.machines.elems ∧
        d.unfinished = 1 ∧ timeoutError oneAtATime 2 ∈ snapshot.errors.elems :=
    ⟨_, _, _, rfl, rfl, List.mem_cons_self, by decide +kernel, by decide +kernel,
      by decide +kernel⟩
  obtain ⟨d, snapshot, machine, hd, hs, htask, hmissing, hrest⟩ := hmissing
  exact ⟨d, snapshot, machine, hd, hs, .inr ⟨1, htask⟩, hmissing, hrest.1, hrest.2,
    fun hkeeps => hmissing (hkeeps.machines machine (.inr ⟨1, htask⟩))⟩

end Collection

end NexusTier
