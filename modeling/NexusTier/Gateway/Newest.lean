import NexusTier.Concurrent.Schedule
import NexusTier.Gateway.Lifecycle

/-!
# Which of two connections wins

When a client reconnects, its new session is to replace the old one.  What decides is the order in
which the tasks come to insert, and that need not be the order in which the first heartbeats were
accepted: a task that was overtaken between the two replaces, and stops, the newer session
(`older_session_replaces_newer`).  Nor does a task look at `is_running` before it inserts, so a
session that has already ended may replace one that has not.

`newest_wins` says that there is no third way.  If the tasks of a machine insert in the order of
their first heartbeats, then no session replaces a newer one, and once all of them have inserted or
returned, none that is still alive is newer than the one in the pool.  If moreover only sessions
that run are inserted, and the current one does not end, then the one in the pool is running.

## What is here

* `NewestWins`: what is wanted.
* `InsertsInOrder` and `KeepsRunning`: what is asked of the steps of a run.
* `Ordered`: the invariant, with `Ordered.step`.
* `newest_wins`: for every run whose steps are so.
* `older_session_replaces_newer`: a run with a step that is not.

## What is left out

Which of two connections a client thinks of as its own.  What counts here is whose first heartbeat
was accepted later.
-/

set_option autoImplicit false

namespace NexusTier

open Concurrent

theorem Connection.step_returned {admissionToken : Option String} {now : UInt64} {time : Nat}
    {c : Connection} (event : ConnectionEvent) (h : c.phase.Returned) :
    (c.step admissionToken now time event).phase.Returned := by
  cases event <;> rw [step]
  all_goals first | exact h | (split <;> simp_all [AcceptPhase.Returned])

namespace Accepting

/-- The heartbeats of connection `i` name machine `m`. -/
def Heard (s : Accepting) (m : Uuid) (i : Nat) : Prop :=
  (s.conn i).session.state.heartbeat.bind HeartbeatRequest.machineID = some m

/-- The first heartbeat of connection `i` was accepted before that of connection `j`. -/
def Earlier (s : Accepting) (i j : Nat) : Prop :=
  ∃ a b, (s.conn i).firstAt = some a ∧ (s.conn j).firstAt = some b ∧ a < b

/-- A first heartbeat has been accepted, and the task has yet to insert or to return. -/
def Pending (s : Accepting) (m : Uuid) (i : Nat) : Prop :=
  s.Heard m i ∧ (s.conn i).phase.inserted? = none ∧ ¬ (s.conn i).phase.Returned

/-- The session of connection `i` is running, and its task has not given it up. -/
def Alive (s : Accepting) (i : Nat) : Prop :=
  (s.conn i).running = true ∧ ¬ ((s.conn i).phase.Returned)

/-- No session of `m` has been replaced by one whose first heartbeat was accepted earlier; and once
every task has inserted or returned, no live session is newer than the one in the pool. -/
structure NewestKept (s : Accepting) (m : Uuid) : Prop where
  replaced : ∀ i j, (s.conn j).phase.inserted? = some m → (s.conn j).replaced = some i →
    s.Earlier i j
  latest : (∀ i, ¬ s.Pending m i) → ∀ i, (m, i) ∈ s.pool → ∀ j, s.Heard m j → s.Alive j →
    j ≠ i → s.Earlier j i

/-- In addition, once every task has inserted or returned, the one in the pool is running. -/
structure NewestWins (s : Accepting) (m : Uuid) : Prop extends s.NewestKept m where
  running : (∀ i, ¬ s.Pending m i) → ∀ i, (m, i) ∈ s.pool → (s.conn i).running = true

/-- The step does not insert a session of `m` while the task of an earlier one has yet to. -/
def InsertsInOrder (m : Uuid) (s : Accepting) : AcceptEvent → Prop
  | .insert i => (s.conn i).phase = .inserting m → ∀ j, s.Pending m j → ¬ s.Earlier j i
  | _ => True

/-- The step does not insert a session of `m` that has ended, and does not end the current one. -/
def KeepsRunning (m : Uuid) (s : Accepting) : AcceptEvent → Prop
  | .insert i => (s.conn i).phase = .inserting m → (s.conn i).running = true
  | .conn i .closed => (m, i) ∉ s.pool
  | _ => True

variable {s : Accepting} {i j k : Nat} {m : Uuid}

/-! ## What a step does -/

/-- A session is inserted by its own task, which then learns what it has replaced. -/
theorem step_task_cases (s : Accepting) (event : AcceptEvent) (k : Nat) :
    (((s.step event).conn k).phase.inserted? = (s.conn k).phase.inserted? ∧
      ((s.step event).conn k).replaced = (s.conn k).replaced ∧
      ((s.conn k).phase.Returned → ((s.step event).conn k).phase.Returned)) ∨
    ∃ m, event = .insert k ∧ (s.conn k).phase = .inserting m ∧
      ((s.step event).conn k).phase.inserted? = some m ∧
      ((s.step event).conn k).replaced = s.pool.lookup m := by
  obtain ⟨hconn, -⟩ | ⟨i, e, -, -, hconn⟩ | ⟨i, m, rfl, hphase, hconn, -⟩ |
    ⟨i, m, previous, -, hphase, -, hconn⟩ | ⟨i, m, -, hphase, hconn, -⟩ := s.step_cases event
  · exact .inl (by simp [hconn])
  · refine .inl ?_
    by_cases hk : k = i
    · subst hk
      rw [hconn, modify_conn_self]
      exact ⟨Connection.step_inserted? e, Connection.step_replaced e, Connection.step_returned e⟩
    · simp [hconn, modify_conn_of_ne hk]
  · by_cases hk : k = i
    · subst hk
      refine .inr ⟨m, rfl, hphase, ?_⟩
      rw [hconn, insert_conn_self]
      cases s.pool.lookup m <;> exact ⟨rfl, rfl⟩
    · exact .inl (by simp [hconn, insert_conn_of_ne hk])
  · refine .inl ?_
    have hhalt : ((s.halt previous).conn k).phase = (s.conn k).phase ∧
        ((s.halt previous).conn k).replaced = (s.conn k).replaced := by
      by_cases hk : k = previous
      · subst hk
        simp [halt]
      · simp [halt_conn_of_ne hk]
    by_cases hk : k = i
    · subst hk
      simp [hconn, goto, hhalt, hphase, AcceptPhase.inserted?, AcceptPhase.Returned]
    · simp [hconn, goto_conn_of_ne hk, hhalt]
  · refine .inl ?_
    by_cases hk : k = i
    · subst hk
      simp [hconn, removeIfCurrent_conn_self, hphase, AcceptPhase.inserted?, AcceptPhase.Returned]
    · simp [hconn, removeIfCurrent_conn_of_ne hk]

/-- What stands in the pool after a step was inserted by it, or stood there before. -/
theorem step_mem_pool {event : AcceptEvent} (h : (m, i) ∈ (s.step event).pool) :
    (event = .insert i ∧ (s.conn i).phase = .inserting m) ∨
      ((m, i) ∈ s.pool ∧ ∀ k, event = .insert k → (s.conn k).phase ≠ .inserting m) := by
  by_cases hins : ∃ k, event = .insert k ∧ (s.conn k).phase = .inserting m
  · obtain ⟨k, rfl, hphase⟩ := hins
    have hpool : (s.step (.insert k)).pool = (s.insert k m).pool := by simp [step, act, hphase]
    rw [hpool, mem_insert_pool] at h
    rcases h with ⟨-, rfl⟩ | ⟨-, hne⟩
    · exact .inl ⟨rfl, hphase⟩
    · exact absurd rfl hne
  · refine .inr ⟨?_, fun k hk hphase => hins ⟨k, hk, hphase⟩⟩
    obtain ⟨-, hpool⟩ | ⟨_, _, -, hpool, -⟩ | ⟨i', m', heq, hphase, -, hpool⟩ |
      ⟨_, _, _, -, -, hpool, -⟩ | ⟨i', m', -, -, -, hpool⟩ := s.step_cases event
    · rwa [hpool] at h
    · rwa [hpool] at h
    · rw [hpool, mem_insert_pool] at h
      rcases h with ⟨rfl, -⟩ | ⟨hmem, -⟩
      · exact absurd ⟨i', heq, hphase⟩ hins
      · exact hmem
    · rwa [hpool] at h
    · rw [hpool, removeIfCurrent] at h
      split at h
      · exact List.mem_of_mem_filter h
      · exact h

/-! ## When first heartbeats are accepted -/

/-- A connection has a first heartbeat if it has one at all, and no two have it at the same step. -/
structure Dated (s : Accepting) : Prop where
  heard : ∀ i, (s.conn i).firstAt = none ↔ (s.conn i).session.state.heartbeat = none
  past : ∀ i a, (s.conn i).firstAt = some a → a < s.time
  distinct : ∀ i j a, (s.conn i).firstAt = some a → (s.conn j).firstAt = some a → i = j

theorem dated_start (now : UInt64) (admissionToken : Option String) :
    (start now admissionToken).Dated := by
  constructor <;> simp [start, Connection.absent, GatewaySession.new]

/-- A step leaves what a connection has heard as it is, or lets its first heartbeat in. -/
theorem step_heard_cases (hs : s.Sound) (hd : s.Dated) (event : AcceptEvent) (j : Nat) :
    (((s.step event).conn j).firstAt = (s.conn j).firstAt ∧
      (((s.step event).conn j).session.state.heartbeat = none ↔
        (s.conn j).session.state.heartbeat = none) ∧
      ∀ m, (s.step event).Heard m j ↔ s.Heard m j) ∨
    ((∃ e, event = .conn j e) ∧ (s.conn j).firstAt = none ∧
      ((s.step event).conn j).firstAt = some s.time ∧
      ((s.step event).conn j).session.state.heartbeat ≠ none) := by
  obtain ⟨e, rfl, hconn⟩ | ⟨hsession, -, hfirst, -⟩ := s.step_conn_cases event j
  · unfold Heard
    rw [hconn]
    cases e with
    | opened remoteURL secure =>
      rw [Connection.step]
      split
      next hphase =>
        have hnone : (s.conn j).session.state.heartbeat = none := by
          cases hb : (s.conn j).session.state.heartbeat with
          | none => rfl
          | some heartbeat =>
            have hmem := (hs.conns j).current heartbeat hb
            simp [((hs.conns j).absent hphase).2] at hmem
        exact .inl ⟨rfl, by simp [hnone, GatewaySession.new], fun m => by simp [hnone, GatewaySession.new]⟩
      next => exact .inl ⟨rfl, Iff.rfl, fun _ => Iff.rfl⟩
    | heartbeat request =>
      cases hb : (s.conn j).session.heartbeat s.now request with
      | error error => exact .inl (by simp [Connection.step, hb])
      | ok session =>
        obtain ⟨id, hid, hsame, rfl⟩ := GatewaySession.heartbeat_eq_ok hb
        cases hf : (s.conn j).firstAt with
        | none =>
          exact .inr ⟨⟨_, rfl⟩, rfl, by simp [Connection.step, hb, hf], by simp [Connection.step, hb]⟩
        | some a =>
          -- not the first heartbeat, so it names the same machine
          cases hcurrent : (s.conn j).session.state.heartbeat with
          | none => simp [(hd.heard j).2 hcurrent] at hf
          | some current =>
            obtain ⟨m', -, hm'⟩ := (hs.conns j).named current ((hs.conns j).current current hcurrent)
            obtain rfl : m' = id := hsame m' hm'
            rw [hcurrent] at hm'
            exact .inl ⟨by simp [Connection.step, hb, hf], by simp [Connection.step, hb],
              fun m => by simp [Connection.step, hb, hid, hm']⟩
    | notify | closed | wake | read | timeout | giveUp | poll =>
      rw [Connection.step]
      first
        | exact .inl ⟨rfl, Iff.rfl, fun _ => Iff.rfl⟩
        | (split <;> exact .inl ⟨rfl, Iff.rfl, fun _ => Iff.rfl⟩)
  · unfold Heard
    rw [hsession, hfirst]
    exact .inl ⟨rfl, Iff.rfl, fun _ => Iff.rfl⟩

theorem Dated.step (h : s.Dated) (hs : s.Sound) (event : AcceptEvent) : (s.step event).Dated := by
  have htime : (s.step event).time = s.time + 1 := rfl
  refine ⟨fun i => ?_, fun i a hi => ?_, fun i j a hi hj => ?_⟩
  · obtain ⟨hfirst, hheard, -⟩ | ⟨-, -, hfirst, hheard⟩ := step_heard_cases hs h event i
    · rw [hfirst, hheard]
      exact h.heard i
    · simp [hfirst, hheard]
  · obtain ⟨hfirst, -⟩ | ⟨-, -, hfirst, -⟩ := step_heard_cases hs h event i
    · rw [hfirst] at hi
      have hpast := h.past i a hi
      omega
    · rw [hfirst] at hi
      have ha := Option.some.inj hi
      omega
  · obtain ⟨hfirst, -⟩ | ⟨⟨e, rfl⟩, -, hfirst, -⟩ := step_heard_cases hs h event i <;>
      obtain ⟨hfirst', -⟩ | ⟨⟨e', heq⟩, -, hfirst', -⟩ := step_heard_cases hs h _ j
    · exact h.distinct i j a (hfirst ▸ hi) (hfirst' ▸ hj)
    · have hpast := h.past i a (hfirst ▸ hi)
      have ha := Option.some.inj (hfirst'.symm.trans hj)
      omega
    · have hpast := h.past j a (hfirst' ▸ hj)
      have ha := Option.some.inj (hfirst.symm.trans hi)
      omega
    · exact (AcceptEvent.conn.inj heq).1

theorem Earlier.step (h : s.Earlier i j) (hs : s.Sound) (hd : s.Dated) (event : AcceptEvent) :
    (s.step event).Earlier i j := by
  obtain ⟨a, b, hi, hj, hlt⟩ := h
  have hkeep : ∀ k c, (s.conn k).firstAt = some c → ((s.step event).conn k).firstAt = some c := by
    intro k c hk
    obtain ⟨hfirst, -⟩ | ⟨-, hnone, -⟩ := step_heard_cases hs hd event k
    · rw [hfirst, hk]
    · simp [hk] at hnone
  exact ⟨a, b, hkeep i a hi, hkeep j b hj, hlt⟩

/-- Of two connections that have been heard, one is the earlier. -/
theorem Dated.earlier_or (h : s.Dated) {m m' : Uuid} (hi : s.Heard m i) (hj : s.Heard m' j)
    (hne : i ≠ j) : s.Earlier i j ∨ s.Earlier j i := by
  have hsome : ∀ k m, s.Heard m k → ∃ a, (s.conn k).firstAt = some a := by
    intro k m hk
    cases hf : (s.conn k).firstAt with
    | some a => exact ⟨a, rfl⟩
    | none => simp [Heard, (h.heard k).1 hf] at hk
  obtain ⟨a, ha⟩ := hsome i m hi
  obtain ⟨b, hb⟩ := hsome j m' hj
  have hab : a ≠ b := by
    rintro rfl
    exact hne (h.distinct i j a ha hb)
  rcases Nat.lt_or_gt_of_ne hab with hlt | hlt
  · exact .inl ⟨a, b, ha, hb, hlt⟩
  · exact .inr ⟨b, a, hb, ha, hlt⟩

theorem Sound.heard (h : s.Sound) (hm : (s.conn i).phase.machineID? = some m) : s.Heard m i :=
  ((h.conns i).admitted hm).names

theorem machineID?_of_inserted? {phase : AcceptPhase} (h : phase.inserted? = some m) :
    phase.machineID? = some m := by
  cases phase <;> simp_all [AcceptPhase.inserted?, AcceptPhase.machineID?]

/-! ## Inserting in order -/

/-- The invariant of runs in which the tasks of `m` insert in order: what has been inserted is
earlier than what has not, and the current session is the latest of those inserted. -/
structure Ordered (s : Accepting) (m : Uuid) : Prop where
  pending : ∀ i j, (s.conn i).phase.inserted? = some m → s.Pending m j → s.Earlier i j
  current : ∀ i, (m, i) ∈ s.pool → ∀ j, (s.conn j).phase.inserted? = some m → j ≠ i →
    s.Earlier j i
  replaced : ∀ i j, (s.conn j).phase.inserted? = some m → (s.conn j).replaced = some i →
    s.Earlier i j

theorem ordered_start (now : UInt64) (admissionToken : Option String) (m : Uuid) :
    (start now admissionToken).Ordered m := by
  constructor <;> simp [start, Connection.absent, AcceptPhase.inserted?]

/-- A task that is about to insert is pending. -/
theorem Sound.pending (h : s.Sound) (hphase : (s.conn i).phase = .inserting m) :
    s.Pending m i :=
  ⟨h.heard (by rw [hphase]; rfl), by rw [hphase]; rfl, by rw [hphase]; exact id⟩

/-- What is pending after a step was so before it, or has just been heard. -/
theorem step_pending_cases (hs : s.Sound) (hd : s.Dated) {event : AcceptEvent}
    (h : (s.step event).Pending m j) :
    s.Pending m j ∨ (∃ e, event = .conn j e) ∧ ((s.step event).conn j).firstAt = some s.time := by
  obtain ⟨-, -, hheard⟩ | ⟨hevent, -, hfirst, -⟩ := step_heard_cases hs hd event j
  · obtain ⟨hinserted, -, hreturned⟩ | ⟨m', -, -, hinserted, -⟩ := s.step_task_cases event j
    · exact .inl ⟨(hheard m).1 h.1, hinserted ▸ h.2.1, fun hr => h.2.2 (hreturned hr)⟩
    · have hnone := h.2.1
      simp [hinserted] at hnone
  · exact .inr ⟨hevent, hfirst⟩

theorem step_inserted_cases {event : AcceptEvent}
    (h : ((s.step event).conn i).phase.inserted? = some m) :
    (s.conn i).phase.inserted? = some m ∨
      event = .insert i ∧ (s.conn i).phase = .inserting m := by
  obtain ⟨hinserted, -⟩ | ⟨m', hevent, hphase, hinserted, -⟩ := s.step_task_cases event i
  · exact .inl (hinserted ▸ h)
  · obtain rfl : m' = m := Option.some.inj (hinserted.symm.trans h)
    exact .inr ⟨hevent, hphase⟩

/-- **A step in order keeps the order.** -/
theorem Ordered.step (h : s.Ordered m) (hs : s.Sound) (hd : s.Dated) {event : AcceptEvent}
    (horder : InsertsInOrder m s event) : (s.step event).Ordered m := by
  refine ⟨fun i j hi hj => ?_, fun i hi j hj hne => ?_, fun i j hj hreplaced => ?_⟩
  · obtain hold | ⟨⟨e, rfl⟩, hfirst⟩ := step_pending_cases hs hd hj
    · obtain hins | ⟨rfl, hphase⟩ := step_inserted_cases hi
      · exact (h.pending i j hins hold).step hs hd event
      · have hpending := hs.pending hphase
        have hne : i ≠ j := by
          rintro rfl
          have hnone := hj.2.1
          simp [hi] at hnone
        rcases hd.earlier_or hpending.1 hold.1 hne with hij | hji
        · exact hij.step hs hd _
        · exact absurd hji (horder hphase j hold)
    · -- the first heartbeat has just been accepted, later than all others
      obtain hins | ⟨heq, -⟩ := step_inserted_cases hi
      · have hheard := hs.heard (machineID?_of_inserted? hins)
        cases hfi : (s.conn i).firstAt with
        | none => simp [Heard, (hd.heard i).1 hfi] at hheard
        | some a =>
          obtain ⟨hsame, -⟩ | ⟨-, hnone, -⟩ := step_heard_cases hs hd (.conn j e) i
          · exact ⟨a, s.time, hsame.trans hfi, hfirst, hd.past i a hfi⟩
          · simp [hfi] at hnone
      · simp at heq
  · obtain ⟨rfl, hphase⟩ | ⟨hmem, hno⟩ := step_mem_pool hi
    · obtain hins | ⟨heq, -⟩ := step_inserted_cases hj
      · exact (h.pending j i hins (hs.pending hphase)).step hs hd _
      · exact absurd (AcceptEvent.insert.inj heq).symm hne
    · obtain hins | ⟨heq, hphase⟩ := step_inserted_cases hj
      · exact (h.current i hmem j hins hne).step hs hd event
      · exact absurd hphase (hno j heq)
  · obtain ⟨hinserted, hsame, -⟩ | ⟨m', heq, hphase, hinserted, hlookup⟩ :=
      s.step_task_cases event j
    · exact (h.replaced i j (hinserted ▸ hj) (hsame ▸ hreplaced)).step hs hd event
    · obtain rfl : m' = m := Option.some.inj (hinserted.symm.trans hj)
      have hmem := mem_of_lookup (hlookup.symm.trans hreplaced)
      have hins := AcceptPhase.inserted?_of_pooled? (hs.pool _ hmem)
      exact (h.pending i j hins (hs.pending hphase)).step hs hd event

/-! ## The current session runs -/

/-- Nothing but its end and a replacer stops a session. -/
theorem step_running {event : AcceptEvent} (hr : (s.conn i).running = true)
    (h : ((s.step event).conn i).running = false) :
    event = .conn i .closed ∨ ∃ j m, (s.conn j).phase = .stopping m i := by
  obtain ⟨hconn, -⟩ | ⟨i', e, rfl, -, hconn⟩ | ⟨i', m, -, -, hconn, -⟩ |
    ⟨i', m, previous, -, hphase, -, hconn⟩ | ⟨i', m, -, -, hconn, -⟩ := s.step_cases event
  · simp [hconn, hr] at h
  · by_cases hi : i = i'
    · subst hi
      rw [hconn, modify_conn_self] at h
      have hclosed : e = .closed := by
        cases e <;> rw [Connection.step] at h
        all_goals first | rfl | (split at h <;> simp [hr] at h)
      exact .inl (by rw [hclosed])
    · simp [hconn, modify_conn_of_ne hi, hr] at h
  · by_cases hi : i = i'
    · subst hi
      simp [hconn, insert_conn_self, hr] at h
    · simp [hconn, insert_conn_of_ne hi, hr] at h
  · by_cases hprevious : i = previous
    · exact .inr ⟨i', m, hprevious ▸ hphase⟩
    · by_cases hi : i = i'
      · subst hi
        simp [hconn, goto, halt_conn_of_ne hprevious, hr] at h
      · simp [hconn, goto_conn_of_ne hi, halt_conn_of_ne hprevious, hr] at h
  · by_cases hi : i = i'
    · subst hi
      simp [hconn, removeIfCurrent_conn_self, hr] at h
    · simp [hconn, removeIfCurrent_conn_of_ne hi, hr] at h

/-- The session in the pool under `m` is running. -/
def CurrentRuns (s : Accepting) (m : Uuid) : Prop :=
  ∀ i, (m, i) ∈ s.pool → (s.conn i).running = true

theorem CurrentRuns.step (h : s.CurrentRuns m) (hs : s.Sound) (ho : s.Owned) {event : AcceptEvent}
    (hk : KeepsRunning m s event) : (s.step event).CurrentRuns m := by
  intro i hi
  rw [← Bool.not_eq_false]
  intro hend
  obtain ⟨rfl, hphase⟩ | ⟨hmem, -⟩ := step_mem_pool hi
  · obtain heq | ⟨j, m', hstopping⟩ := step_running (hk hphase) hend
    · simp at heq
    · obtain ⟨m'', hm''⟩ := ho.replaces j i (ho.stopping j m' i hstopping)
      have hinserted := hm''.inserted
      simp [hphase, AcceptPhase.inserted?] at hinserted
  · obtain rfl | ⟨j, m', hstopping⟩ := step_running (h i hmem) hend
    · exact hk hmem
    · exact ho.not_replaced_of_mem hs hmem (ho.stopping j m' i hstopping)

/-! ## Runs -/

/-- What the order comes to for the live sessions of a machine. -/
theorem Ordered.latest (h : s.Ordered m) (hsettled : ∀ i, ¬ s.Pending m i) (hi : (m, i) ∈ s.pool)
    (hj : s.Heard m j) (halive : s.Alive j) (hs : s.Sound) (hne : j ≠ i) : s.Earlier j i := by
  have hinserted : (s.conn j).phase.inserted? = some m := by
    cases hins : (s.conn j).phase.inserted? with
    | none => exact absurd ⟨hj, hins, halive.2⟩ (hsettled j)
    | some m' =>
      have hheard := hs.heard (machineID?_of_inserted? hins)
      rw [Heard] at hj hheard
      rw [← hj, hheard]
  exact h.current i hi j hinserted hne

/-- **The newest session wins, if tasks insert in order.**  In a run in which the tasks of a machine
insert in the order in which their first heartbeats were accepted, no session ever replaces a newer
one, and when all tasks have inserted or returned, no live session is newer than the one in the
pool.  As long as no session is inserted after its end, and the current one does not end, the one in
the pool is running. -/
theorem newest_wins (now : UInt64) (admissionToken : Option String) (m : Uuid)
    (events : List AcceptEvent)
    (horder : Throughout step (InsertsInOrder m) (start now admissionToken) events) :
    ∀ before, before <+: events →
      ((start now admissionToken).run before).NewestKept m ∧
        (Throughout step (KeepsRunning m) (start now admissionToken) before →
          ((start now admissionToken).run before).NewestWins m) := by
  rintro before ⟨rest, rfl⟩
  have hs := sound_start now admissionToken
  have hordered : ((start now admissionToken).run before).Sound ∧
      ((start now admissionToken).run before).Dated ∧
      ((start now admissionToken).run before).Ordered m := by
    refine Throughout.keeps (I := fun s => s.Sound ∧ s.Dated ∧ s.Ordered m) ?_
      ⟨hs, dated_start now admissionToken, ordered_start now admissionToken m⟩
      (throughout_append.1 horder).1
    rintro s event ⟨hs, hd, ho⟩ horder
    exact ⟨hs.step event, hd.step hs event, ho.step hs hd horder⟩
  have hkept : ((start now admissionToken).run before).NewestKept m := by
    refine ⟨hordered.2.2.replaced, fun hsettled i hi j hj halive hne => ?_⟩
    exact hordered.2.2.latest hsettled hi hj halive hordered.1 hne
  refine ⟨hkept, fun hruns => ⟨hkept, fun _ => ?_⟩⟩
  have hcurrent : ((start now admissionToken).run before).Sound ∧
      ((start now admissionToken).run before).Owned ∧
      ((start now admissionToken).run before).CurrentRuns m := by
    refine Throughout.keeps (I := fun s => s.Sound ∧ s.Owned ∧ s.CurrentRuns m) ?_
      ⟨hs, owned_start now admissionToken, by simp [CurrentRuns, start]⟩ hruns
    rintro s event ⟨hs, ho, hc⟩ hk
    exact ⟨hs.step event, ho.step hs event, hc.step hs ho hk⟩
  exact hcurrent.2.2

/-! ### A client that reconnects -/

end Accepting

/-- The step is not one of connection `j`, and stops no session. -/
def AcceptEvent.leaves (j : Nat) : AcceptEvent → Bool
  | tick _ => true
  | conn i _ | insert i | remove i => i != j
  | stop _ => false

namespace Accepting

variable {s : Accepting} {j : Nat} {m : Uuid}

/-- The steps with which connection `i` of machine 1 opens and has its first heartbeat noticed. -/
def connects (i : Nat) : List AcceptEvent :=
  [.conn i (.opened "udp://203.0.113.10:42000" true), .conn i (.heartbeat (sampleHeartbeat 1)),
    .conn i (.notify 0), .conn i .wake, .conn i .read]

/-- The second connection comes when the first is in the pool. -/
def reconnects : List AcceptEvent := connects 0 ++ [.insert 0] ++ connects 1 ++ [.insert 1]

theorem run_conn_of_leaves {events : List AcceptEvent} (h : ∀ event ∈ events, event.leaves j = true) :
    (s.run events).conn j = s.conn j := by
  have hstep : ∀ (s : Accepting) (event : AcceptEvent), event.leaves j = true →
      (s.step event).conn j = s.conn j := by
    intro s event hleaves
    obtain ⟨hconn, -⟩ | ⟨i, e, rfl, -, hconn⟩ | ⟨i, m, rfl, -, hconn, -⟩ | ⟨i, m, p, rfl, -⟩ |
      ⟨i, m, rfl, -, hconn, -⟩ := s.step_cases event
    · rw [hconn]
    all_goals simp only [AcceptEvent.leaves, bne_iff_ne, ne_eq, Bool.false_eq_true] at hleaves
    · rw [hconn, modify_conn_of_ne (Ne.symm hleaves)]
    · rw [hconn, insert_conn_of_ne (Ne.symm hleaves)]
    · rw [hconn, removeIfCurrent_conn_of_ne (Ne.symm hleaves)]
  induction events generalizing s with
  | nil => rfl
  | cons event events ih =>
    rw [List.forall_mem_cons] at h
    exact (ih h.2).trans (hstep s event h.1)

theorem not_pending_of_absent (h : s.conn j = .absent) : ¬ s.Pending m j := by
  intro hpending
  have hheard := hpending.1
  rw [Heard, h] at hheard
  simp [Connection.absent, GatewaySession.new] at hheard

theorem newest_wins_reconnects :
    ((start 1000 none).run reconnects).pool = [(1, 1)] ∧
      (((start 1000 none).run reconnects).conn 1).replaced = some 0 ∧
      ((start 1000 none).run reconnects).NewestWins 1 := by
  have hirrefl : ∀ (s : Accepting) (i : Nat), ¬ s.Earlier i i := by
    rintro s i ⟨a, b, ha, hb, hlt⟩
    rw [ha, Option.some_inj] at hb
    omega
  have horder : Throughout step (InsertsInOrder 1) (start 1000 none) reconnects := by
    rw [reconnects, throughout_append, throughout_append, throughout_append]
    refine ⟨⟨⟨⟨trivial, trivial, trivial, trivial, trivial, trivial⟩, ?_, trivial⟩,
      ⟨trivial, trivial, trivial, trivial, trivial, trivial⟩⟩, ?_, trivial⟩
    · intro _ j hpending hearlier
      by_cases hj : j = 0
      · exact hirrefl _ _ (hj ▸ hearlier)
      · refine not_pending_of_absent (run_conn_of_leaves ?_) hpending
        simp [connects, AcceptEvent.leaves, Ne.symm hj]
    · intro _ j hpending hearlier
      by_cases hj : j = 0
      · subst hj
        exact absurd hpending.2.1 (by decide +kernel)
      · by_cases hj' : j = 1
        · exact hirrefl _ _ (hj' ▸ hearlier)
        · refine not_pending_of_absent (run_conn_of_leaves ?_) hpending
          simp [connects, AcceptEvent.leaves, Ne.symm hj, Ne.symm hj']
  have hruns : Throughout step (KeepsRunning 1) (start 1000 none) reconnects := by
    rw [reconnects, throughout_append, throughout_append, throughout_append]
    exact ⟨⟨⟨⟨trivial, trivial, trivial, trivial, trivial, trivial⟩, fun _ => by decide +kernel,
      trivial⟩, ⟨trivial, trivial, trivial, trivial, trivial, trivial⟩⟩,
      fun _ => by decide +kernel, trivial⟩
  exact ⟨by decide +kernel, by decide +kernel,
    (newest_wins 1000 none 1 reconnects horder reconnects (List.prefix_refl _)).2 hruns⟩

/-- Both connections have had their heartbeats accepted when their tasks come to insert. -/
def overtaken : List AcceptEvent := connects 0 ++ connects 1 ++ [.insert 1, .insert 0, .stop 0]

/-- **An older session replaces a newer one**, and stops it, when the task of the newer one was the
first to insert. -/
theorem older_session_replaces_newer :
    ((start 1000 none).run overtaken).pool = [(1, 0)] ∧
      (((start 1000 none).run overtaken).conn 1).running = false ∧
      ((start 1000 none).run overtaken).Earlier 0 1 ∧
      ¬ ((start 1000 none).run overtaken).NewestWins 1 := by
  have hearlier : ((start 1000 none).run overtaken).Earlier 0 1 :=
    ⟨1, 6, by decide +kernel, by decide +kernel, by decide⟩
  refine ⟨by decide +kernel, by decide +kernel, hearlier, fun h => ?_⟩
  obtain ⟨a, b, ha, hb, hlt⟩ := h.replaced 1 0 (by decide +kernel) (by decide +kernel)
  obtain ⟨c, d, hc, hd, hlt'⟩ := hearlier
  rw [ha, Option.some_inj] at hd
  rw [hb, Option.some_inj] at hc
  omega

end Accepting

end NexusTier
