import NexusTier.Concurrent.Schedule
import NexusTier.Gateway.Accepted
import NexusTier.Gateway.SingleFlight

/-!
# Every call of `topology` returns

Nobody who waits for a collection is forgotten: the collection ends and sends its snapshot, and a
caller that has looked into the channel too early wakes up and looks again.  What this needs is that
every task that can go on is allowed to, sooner or later: a schedule is `Fair` if every step of
every task comes again and again, and then every caller returns (`returns`).

The main theorem, `topology_single_flight`, puts this next to what holds in every state.

## What is here

* `FlightPhase.rank`: how far a collection has got, the measure of progress.
* `Fair`: what is asked of a schedule.
* `returns`: every call returns.
* `SingleFlight`: what holds in every state; at most one collection is in flight, a reply is a
  snapshot that was young enough when the call looked, or the one it waited for, and no call runs
  into the `expect`.
* `topology_single_flight`: both together.

## What is left out

How long a call takes.  Fairness says that a step comes again, and not how soon.
-/

set_option autoImplicit false

namespace NexusTier

open Concurrent

/-- How far the task of a collection has got. -/
def FlightPhase.rank : FlightPhase → Nat
  | absent => 0
  | collecting => 1
  | collected _ => 2
  | published _ => 3
  | sent => 4
  | ended => 5

theorem Flight.Sound.isSome_channel {id : Uuid} {time : Nat} {f : Flight} (h : f.Sound id time)
    (hrank : 4 ≤ f.phase.rank) : f.channel.isSome = true := by
  obtain ⟨phase, channel, senderAlive, result, publishedAt⟩ := f
  cases phase with
  | absent | collecting | collected | published => simp [FlightPhase.rank] at hrank
  | sent | ended =>
    obtain ⟨snapshot, hchannel, -⟩ := h
    simp only at hchannel
    simp [hchannel]

namespace Topology

/-- No step is put off for ever. -/
structure Fair (schedule : Nat → TopologyEvent) : Prop where
  lock : ∀ c n, ∃ n' ≥ n, schedule n' = .lock c
  look : ∀ c n, ∃ n' ≥ n, schedule n' = .look c
  wake : ∀ c n, ∃ n' ≥ n, schedule n' = .wake c
  collect : ∀ k n, ∃ n' ≥ n, ∃ startedAtMS machines errors,
    schedule n' = .collect k startedAtMS machines errors
  publish : ∀ k n, ∃ n' ≥ n, schedule n' = .publish k
  send : ∀ k n, ∃ n' ≥ n, schedule n' = .send k

variable {newID : Nat → Uuid} {snapshotTTL : Nat} {s : Topology}

/-! ## The collection -/

theorem goto_flight {c : Nat} {phase : CallerPhase} : (s.goto c phase).flight = s.flight := rfl

theorem rank_modify {k k' : Nat} {f : Flight → Flight}
    (hf : (s.flight k).phase.rank ≤ (f (s.flight k)).phase.rank) :
    (s.flight k').phase.rank ≤ ((s.modify k f).flight k').phase.rank := by
  by_cases hk : k' = k
  · subst hk
    rwa [modify_flight_self]
  · rw [modify_flight_of_ne hk]

/-- What a caller that holds the lock can do. -/
theorem locked_cases (s : Topology) (snapshotTTL c : Nat) :
    (∃ snapshot, s.locked snapshotTTL c = s.goto c (.cachedReply snapshot s.now)) ∨
      (∃ k, s.locked snapshotTTL c = s.goto c (.looking k)) ∨
      s.locked snapshotTTL c = s.spawn c := by
  rw [locked]
  cases s.cached with
  | none =>
    cases s.running with
    | some k => exact .inr (.inl ⟨k, rfl⟩)
    | none => exact .inr (.inr rfl)
  | some snapshot =>
    by_cases hage : snapshotAge s.now snapshot ≤ snapshotTTL
    · exact .inl ⟨snapshot, by simp only [if_pos hage]⟩
    · simp only [if_neg hage]
      cases s.running with
      | some k => exact .inr (.inl ⟨k, rfl⟩)
      | none => exact .inr (.inr rfl)

theorem rank_locked (h : s.Sound newID snapshotTTL) (c k : Nat) :
    (s.flight k).phase.rank ≤ ((s.locked snapshotTTL c).flight k).phase.rank := by
  obtain ⟨_, heq⟩ | ⟨_, heq⟩ | heq := s.locked_cases snapshotTTL c
  · rw [heq, goto_flight]
  · rw [heq, goto_flight]
  · rw [heq]
    exact rank_modify (f := fun _ => ⟨.collecting, none, true, none, none⟩)
      (by simp [h.fresh s.started le_rfl, FlightPhase.rank])

/-- A collection does not go back. -/
theorem rank_step (h : s.Sound newID snapshotTTL) (event : TopologyEvent) (k : Nat) :
    (s.flight k).phase.rank ≤ ((s.step newID snapshotTTL event).flight k).phase.rank := by
  show _ ≤ ((s.act newID snapshotTTL event).flight k).phase.rank
  cases event with
  | tick now => exact Nat.le_refl _
  | call c =>
    simp only [act]
    split <;> exact Nat.le_refl _
  | lock c =>
    simp only [act]
    split
    next => exact rank_locked h c k
    next => exact Nat.le_refl _
  | look c =>
    simp only [act]
    split
    next => split <;> exact Nat.le_refl _
    next => exact Nat.le_refl _
  | wake c =>
    simp only [act]
    split
    next => split <;> [exact Nat.le_refl _; split <;> exact Nat.le_refl _]
    next => exact Nat.le_refl _
  | collect k' startedAtMS machines errors =>
    simp only [act]
    split
    next hphase => exact rank_modify (by simp [hphase, FlightPhase.rank])
    next => exact Nat.le_refl _
  | publish k' =>
    simp only [act]
    split
    next snapshot hphase =>
      exact rank_modify (f := fun f => { f with
        phase := .published snapshot
        publishedAt := some s.time }) (by simp [hphase, FlightPhase.rank])
    next => exact Nat.le_refl _
  | send k' =>
    simp only [act]
    split
    next snapshot hphase => exact rank_modify (by simp [hphase, FlightPhase.rank])
    next => exact Nat.le_refl _
  | finish k' =>
    simp only [act]
    split
    next hphase => exact rank_modify (by simp [hphase, FlightPhase.rank])
    next => exact Nat.le_refl _

/-- Each step of the task of a collection takes it on, if it has got so far. -/
theorem rank_collect (h : s.Sound newID snapshotTTL) {k : Nat} (hrank : 1 ≤ (s.flight k).phase.rank)
    (startedAtMS : UInt64) (machines : List Machine) (errors : List TelemetryError) :
    2 ≤ ((s.step newID snapshotTTL (.collect k startedAtMS machines errors)).flight k).phase.rank := by
  by_cases hphase : (s.flight k).phase = .collecting
  · simp [step, act, hphase, modify, FlightPhase.rank]
  · refine le_trans ?_ (rank_step h _ k)
    cases hp : (s.flight k).phase <;> simp_all [FlightPhase.rank]

theorem rank_publish (h : s.Sound newID snapshotTTL) {k : Nat}
    (hrank : 2 ≤ (s.flight k).phase.rank) :
    3 ≤ ((s.step newID snapshotTTL (.publish k)).flight k).phase.rank := by
  by_cases hphase : ∃ snapshot, (s.flight k).phase = .collected snapshot
  · obtain ⟨snapshot, hphase⟩ := hphase
    simp [step, act, hphase, modify, FlightPhase.rank]
  · refine le_trans ?_ (rank_step h _ k)
    cases hp : (s.flight k).phase <;> simp_all [FlightPhase.rank]

theorem rank_send (h : s.Sound newID snapshotTTL) {k : Nat} (hrank : 3 ≤ (s.flight k).phase.rank) :
    4 ≤ ((s.step newID snapshotTTL (.send k)).flight k).phase.rank := by
  by_cases hphase : ∃ snapshot, (s.flight k).phase = .published snapshot
  · obtain ⟨snapshot, hphase⟩ := hphase
    simp [step, act, hphase, modify, FlightPhase.rank]
  · refine le_trans ?_ (rank_step h _ k)
    cases hp : (s.flight k).phase <;> simp_all [FlightPhase.rank]

section

variable {now : UInt64} {schedule : Nat → TopologyEvent} {n : Nat}

/-- The task of collection `k` has got to rank `r`. -/
def Reached (k r : Nat) (s : Topology) : Prop := r ≤ (s.flight k).phase.rank

theorem Reached.step {k r : Nat} (h : s.Reached k r) (hs : s.Sound newID snapshotTTL)
    (event : TopologyEvent) : (s.step newID snapshotTTL event).Reached k r :=
  Nat.le_trans h (rank_step hs event k)

/-- The rule of progress, for the tasks of `topology`. -/
theorem leads {P Q : Topology → Prop} {e : TopologyEvent → Prop}
    (hkeep : ∀ s : Topology, ∀ event, s.Sound newID snapshotTTL → P s →
      P (s.step newID snapshotTTL event) ∨ Q (s.step newID snapshotTTL event))
    (hact : ∀ s : Topology, ∀ event, s.Sound newID snapshotTTL → P s → e event →
      Q (s.step newID snapshotTTL event))
    (hfair : ∀ n, ∃ n' ≥ n, e (schedule n'))
    (hn : P (stateAt (step newID snapshotTTL) (start now) schedule n)) :
    ∃ n' ≥ n, Q (stateAt (step newID snapshotTTL) (start now) schedule n') :=
  eventually (sound_start now) (fun _ event hs => Sound.step hs event) hkeep hact hfair hn

/-- A collection that has been started sends its snapshot. -/
theorem sends (hfair : Fair schedule) {k : Nat}
    (h : (stateAt (step newID snapshotTTL) (start now) schedule n).Reached k 1) :
    ∃ n' ≥ n, (stateAt (step newID snapshotTTL) (start now) schedule n').Reached k 4 := by
  have hkeep : ∀ (r : Nat) (s : Topology) (event : TopologyEvent), s.Sound newID snapshotTTL →
      s.Reached k r → (s.step newID snapshotTTL event).Reached k r ∨
        (s.step newID snapshotTTL event).Reached k (r + 1) :=
    fun r s event hs hr => .inl (hr.step hs event)
  obtain ⟨n₁, hn₁, h₁⟩ := leads (hkeep 1) (e := fun event => ∃ startedAtMS machines errors,
    event = .collect k startedAtMS machines errors) (by
      rintro s event hs hr ⟨startedAtMS, machines, errors, rfl⟩
      exact rank_collect hs hr startedAtMS machines errors) (hfair.collect k) h
  obtain ⟨n₂, hn₂, h₂⟩ := leads (hkeep 2) (e := (· = .publish k)) (by
    rintro s event hs hr rfl
    exact rank_publish hs hr) (hfair.publish k) h₁
  obtain ⟨n₃, hn₃, h₃⟩ := leads (hkeep 3) (e := (· = .send k)) (by
    rintro s event hs hr rfl
    exact rank_send hs hr) (hfair.send k) h₂
  exact ⟨n₃, by omega, h₃⟩

/-! ## The caller -/

/-- The call is waiting for collection `k`. -/
def Waits (c k : Nat) (s : Topology) : Prop :=
  (s.caller c).phase = .looking k ∨ (s.caller c).phase = .sleeping k

/-- The call has returned what it found in the channel of collection `k`. -/
def Answered (c k : Nat) (s : Topology) : Prop :=
  ∃ snapshot, (s.caller c).phase = .reply k snapshot

/-- The call has returned. -/
def Returned (c : Nat) (s : Topology) : Prop := ∃ snapshot, (s.caller c).returned? = some snapshot

theorem Answered.returned {c k : Nat} (h : s.Answered c k) : s.Returned c := by
  obtain ⟨snapshot, hphase⟩ := h
  exact ⟨snapshot, by simp [Caller.returned?, hphase]⟩

theorem goto_caller_of_ne {c c' : Nat} {phase : CallerPhase} (h : c' ≠ c) :
    (s.goto c phase).caller c' = s.caller c' :=
  if_neg h

/-- Only its own steps move a call. -/
theorem step_caller (event : TopologyEvent) {c : Nat} (hcall : event ≠ .call c)
    (hlock : event ≠ .lock c) (hlook : event ≠ .look c) (hwake : event ≠ .wake c) :
    (s.step newID snapshotTTL event).caller c = s.caller c := by
  show (s.act newID snapshotTTL event).caller c = s.caller c
  cases event with
  | tick now => rfl
  | call c' =>
    have hne : c ≠ c' := fun heq => hcall (by rw [heq])
    simp only [act]
    split
    · exact if_neg hne
    · rfl
  | lock c' =>
    have hne : c ≠ c' := fun heq => hlock (by rw [heq])
    simp only [act]
    split
    · obtain ⟨_, heq⟩ | ⟨_, heq⟩ | heq := s.locked_cases snapshotTTL c'
      · rw [heq, goto_caller_of_ne hne]
      · rw [heq, goto_caller_of_ne hne]
      · rw [heq]
        exact if_neg hne
    · rfl
  | look c' =>
    have hne : c ≠ c' := fun heq => hlook (by rw [heq])
    simp only [act]
    split
    · split <;> exact if_neg hne
    · rfl
  | wake c' =>
    have hne : c ≠ c' := fun heq => hwake (by rw [heq])
    simp only [act]
    split
    · split
      · exact if_neg hne
      · split
        · rfl
        · exact if_neg hne
    · rfl
  | collect k startedAtMS machines errors =>
    simp only [act]
    split <;> rfl
  | publish k =>
    simp only [act]
    split <;> rfl
  | send k =>
    simp only [act]
    split <;> rfl
  | finish k =>
    simp only [act]
    split <;> rfl

/-- A caller that gets the lock has a reply, or a collection to wait for. -/
theorem calling_lock {c : Nat} (hphase : (s.caller c).phase = .calling) :
    (s.step newID snapshotTTL (.lock c)).Returned c ∨
      ∃ k, (s.step newID snapshotTTL (.lock c)).Waits c k := by
  have hact : s.act newID snapshotTTL (.lock c) = s.locked snapshotTTL c := by simp [act, hphase]
  obtain ⟨snapshot, heq⟩ | ⟨k, heq⟩ | heq := s.locked_cases snapshotTTL c
  · exact .inl ⟨snapshot, by simp [step, hact, heq, goto, Caller.returned?]⟩
  · exact .inr ⟨k, .inl (by simp [step, hact, heq, goto])⟩
  · exact .inr ⟨s.started, .inl (by simp [step, hact, heq, spawn, goto])⟩

theorem calling_step {c : Nat} (hphase : (s.caller c).phase = .calling) (event : TopologyEvent) :
    ((s.step newID snapshotTTL event).caller c).phase = .calling ∨
      (s.step newID snapshotTTL event).Returned c ∨
      ∃ k, (s.step newID snapshotTTL event).Waits c k := by
  by_cases hlock : event = .lock c
  · subst hlock
    exact .inr (calling_lock hphase)
  · left
    by_cases hcall : event = .call c
    · simp [hcall, step, act, hphase]
    · by_cases hlook : event = .look c
      · simp [hlook, step, act, hphase]
      · by_cases hwake : event = .wake c
        · simp [hwake, step, act, hphase]
        · rw [step_caller event hcall hlock hlook hwake, hphase]

/-- What a caller waits for has been started. -/
theorem Sound.started_of_waits (h : s.Sound newID snapshotTTL) {c k : Nat} (hwaits : s.Waits c k) :
    s.Reached k 1 := by
  obtain ⟨-, hk⟩ := h.waits hwaits
  have hsound := h.flights k
  cases hphase : (s.flight k).phase with
  | absent =>
    simp only [Flight.Sound, hphase] at hsound
    simp [Flight.InFlight, hphase, hsound] at hk
  | collecting | collected | published | sent | ended => simp [Reached, hphase, FlightPhase.rank]

/-- A caller that finds the snapshot in the channel returns. -/
theorem looking_look (h : s.Sound newID snapshotTTL) {c k : Nat}
    (hphase : (s.caller c).phase = .looking k) (hsent : s.Reached k 4) :
    (s.step newID snapshotTTL (.look c)).Returned c := by
  obtain ⟨snapshot, hchannel⟩ := Option.isSome_iff_exists.1 ((h.flights k).isSome_channel hsent)
  exact ⟨snapshot, by simp [step, act, hphase, hchannel, goto, Caller.returned?]⟩

/-- A caller that sleeps while there is a snapshot wakes up. -/
theorem waits_wake (h : s.Sound newID snapshotTTL) {c k : Nat} (hwaits : s.Waits c k)
    (hsent : s.Reached k 4) :
    ((s.step newID snapshotTTL (.wake c)).caller c).phase = .looking k := by
  have hchannel := (h.flights k).isSome_channel hsent
  rcases hwaits with hphase | hphase
  · simp [step, act, hphase]
  · simp [step, act, hphase, hchannel, goto]

/-- A caller that waits for a collection does so until it has its answer. -/
theorem waits_step (h : s.Sound newID snapshotTTL) {c k : Nat} (hwaits : s.Waits c k)
    (event : TopologyEvent) :
    (s.step newID snapshotTTL event).Waits c k ∨ (s.step newID snapshotTTL event).Answered c k := by
  by_cases hlock : event = .lock c
  · subst hlock
    left
    rcases hwaits with hphase | hphase
    · exact .inl (by simp [step, act, hphase])
    · exact .inr (by simp [step, act, hphase])
  · by_cases hcall : event = .call c
    · subst hcall
      left
      rcases hwaits with hphase | hphase
      · exact .inl (by simp [step, act, hphase])
      · exact .inr (by simp [step, act, hphase])
    · by_cases hlook : event = .look c
      · subst hlook
        rcases hwaits with hphase | hphase
        · cases hchannel : (s.flight k).channel with
          | none => exact .inl (.inr (by simp [step, act, hphase, hchannel, goto]))
          | some snapshot =>
            exact .inr ⟨snapshot, by simp [step, act, hphase, hchannel, goto]⟩
        · exact .inl (.inr (by simp [step, act, hphase]))
      · by_cases hwake : event = .wake c
        · subst hwake
          left
          rcases hwaits with hphase | hphase
          · exact .inl (by simp [step, act, hphase])
          · obtain ⟨-, hk⟩ := h.waits (.inr hphase)
            cases hchannel : (s.flight k).channel with
            | some snapshot => exact .inl (by simp [step, act, hphase, hchannel, goto])
            | none =>
              have halive := (h.flights k).senderAlive (hk.imp id fun ht => ht.imp fun _ h => h.1) hchannel
              exact .inr (by simp [step, act, hphase, hchannel, halive])
        · left
          rw [Waits, step_caller event hcall hlock hlook hwake]
          exact hwaits

/-- A caller at the head of its loop goes on only by looking. -/
theorem looking_step {c k : Nat} (hphase : (s.caller c).phase = .looking k) {event : TopologyEvent}
    (hlook : event ≠ .look c) :
    ((s.step newID snapshotTTL event).caller c).phase = .looking k := by
  by_cases hlock : event = .lock c
  · simp [hlock, step, act, hphase]
  · by_cases hcall : event = .call c
    · simp [hcall, step, act, hphase]
    · by_cases hwake : event = .wake c
      · simp [hwake, step, act, hphase]
      · rw [step_caller event hcall hlock hlook hwake, hphase]

/-- A caller that waits for a collection that has sent its snapshot returns. -/
theorem returns_of_sent (hfair : Fair schedule) {c k : Nat}
    (h : (stateAt (step newID snapshotTTL) (start now) schedule n).Waits c k)
    (hsent : (stateAt (step newID snapshotTTL) (start now) schedule n).Reached k 4) :
    ∃ n' ≥ n, (stateAt (step newID snapshotTTL) (start now) schedule n').Returned c := by
  -- it wakes up, if it sleeps
  obtain ⟨n₁, hn₁, ⟨hlooking, hsent'⟩ | hreturned⟩ := leads
    (P := fun s => s.Waits c k ∧ s.Reached k 4)
    (Q := fun s => ((s.caller c).phase = .looking k ∧ s.Reached k 4) ∨ s.Returned c)
    (e := (· = .wake c))
    (by
      rintro s event hs ⟨hwaits, hsent⟩
      rcases waits_step hs hwaits event with hwaits' | hanswered
      · exact .inl ⟨hwaits', hsent.step hs event⟩
      · exact .inr (.inr hanswered.returned))
    (by
      rintro s event hs ⟨hwaits, hsent⟩ rfl
      exact .inl ⟨waits_wake hs hwaits hsent, hsent.step hs _⟩)
    (hfair.wake c) ⟨h, hsent⟩
  -- and looks
  · obtain ⟨n₂, hn₂, hreturned⟩ := leads
      (P := fun s => (s.caller c).phase = .looking k ∧ s.Reached k 4) (Q := Returned c)
      (e := (· = .look c))
      (by
        rintro s event hs ⟨hphase, hsent⟩
        by_cases hlook : event = .look c
        · subst hlook
          exact .inr (looking_look hs hphase hsent)
        · exact .inl ⟨looking_step hphase hlook, hsent.step hs event⟩)
      (by
        rintro s event hs ⟨hphase, hsent⟩ rfl
        exact looking_look hs hphase hsent)
      (hfair.look c) ⟨hlooking, hsent'⟩
    exact ⟨n₂, by omega, hreturned⟩
  · exact ⟨n₁, hn₁, hreturned⟩

/-- A caller that waits returns. -/
theorem returns_of_waits (hfair : Fair schedule) {c k : Nat}
    (h : (stateAt (step newID snapshotTTL) (start now) schedule n).Waits c k) :
    ∃ n' ≥ n, (stateAt (step newID snapshotTTL) (start now) schedule n').Returned c := by
  have hsound : ∀ m, (stateAt (step newID snapshotTTL) (start now) schedule m).Sound newID
      snapshotTTL := stateAt_keeps (sound_start now) fun _ event hs => Sound.step hs event
  have hstarted : (stateAt (step newID snapshotTTL) (start now) schedule n).Reached k 1 :=
    (hsound n).started_of_waits h
  obtain ⟨n₁, hn₁, hsent⟩ := sends hfair hstarted
  rcases lasts (P := Waits c k) (Q := Returned c) (sound_start now)
    (fun _ event hs => Sound.step hs event)
    (fun s event hs hwaits => (waits_step hs hwaits event).imp id Answered.returned) h hn₁ with hdone | hwaits
  · exact hdone
  · obtain ⟨n₂, hn₂, hreturned⟩ := returns_of_sent hfair hwaits hsent
    exact ⟨n₂, by omega, hreturned⟩

/-- **Every call returns**, under a fair schedule. -/
theorem returns (hfair : Fair schedule) {c : Nat}
    (h : ((stateAt (step newID snapshotTTL) (start now) schedule n).caller c).phase = .calling) :
    ∃ n' ≥ n, (stateAt (step newID snapshotTTL) (start now) schedule n').Returned c := by
  obtain ⟨n₁, hn₁, hreturned | ⟨k, hwaits⟩⟩ := leads
    (P := fun s => (s.caller c).phase = .calling) (Q := fun s => s.Returned c ∨ ∃ k, s.Waits c k)
    (fun s event _ hphase => calling_step hphase event) (e := (· = .lock c)) (by
      rintro s event - hphase rfl
      exact calling_lock hphase) (hfair.lock c) h
  · exact ⟨n₁, hn₁, hreturned⟩
  · obtain ⟨n₂, hn₂, hreturned⟩ := returns_of_waits hfair hwaits
    exact ⟨n₂, by omega, hreturned⟩

end

/-! ## Single flight -/

/-- What holds in every state.

* A collection is in flight exactly while it stands in `running`, so there is at most one.
* A caller that waits for a collection waits for no other.
* What has been returned is a cached snapshot that was young enough when the caller held the lock,
  or the snapshot of the collection it waited for, which was published after the call had begun.
* No caller runs into the `expect`.
* If no two collections have been given the same id, replies with the same id are the same. -/
structure SingleFlight (newID : Nat → Uuid) (snapshotTTL : Nat) (s : Topology) : Prop where
  inFlight : ∀ k, (s.flight k).InFlight ↔ s.running = some k
  waits : ∀ c k event, s.Waits c k → (s.step newID snapshotTTL event).Waits c k ∨
    (s.step newID snapshotTTL event).Answered c k
  replies : ∀ c snapshot, (s.caller c).returned? = some snapshot →
    (∃ now, (s.caller c).phase = .cachedReply snapshot now ∧
      snapshotAge now snapshot ≤ snapshotTTL ∧ ∃ k, (s.flight k).Published snapshot) ∨
    ∃ k t, (s.caller c).phase = .reply k snapshot ∧ (s.flight k).result = some snapshot ∧
      (s.flight k).publishedAt = some t ∧ (s.caller c).beganAt < t
  noPanic : ∀ c message, (s.caller c).phase ≠ .panicked message
  identical : (∀ k k', k < s.started → k' < s.started → newID k = newID k' → k = k') →
    ∀ c c' snapshot snapshot', (s.caller c).returned? = some snapshot →
      (s.caller c').returned? = some snapshot' →
      snapshot.collectionID = snapshot'.collectionID → snapshot = snapshot'

/-- What a collection has published carries its id. -/
theorem Sound.collectionID (h : s.Sound newID snapshotTTL) {k : Nat} {snapshot : Snapshot}
    (hresult : (s.flight k).result = some snapshot) :
    snapshot.collectionID = newID k ∧ k < s.started := by
  have hsound := h.flights k
  have hstarted : (s.flight k).phase ≠ .absent → k < s.started := by
    intro hphase
    by_contra hge
    exact hphase (h.fresh k (by omega))
  cases hphase : (s.flight k).phase with
  | absent => simp [Flight.Sound, hphase, hresult] at hsound
  | collecting => simp [Flight.Sound, hphase, hresult] at hsound
  | collected snapshot' =>
    simp only [Flight.Sound, hphase, hresult] at hsound
    obtain ⟨-, -, heq, -, hid⟩ := hsound
    obtain rfl := Option.some.inj heq
    exact ⟨hid, hstarted (by simp [hphase])⟩
  | published snapshot' =>
    simp only [Flight.Sound, hphase, hresult] at hsound
    obtain ⟨-, -, heq, -, hid⟩ := hsound
    obtain rfl := Option.some.inj heq
    exact ⟨hid, hstarted (by simp [hphase])⟩
  | sent | ended =>
    simp only [Flight.Sound, hphase, hresult] at hsound
    obtain ⟨snapshot', -, heq, -, hid⟩ := hsound
    obtain rfl := Option.some.inj heq
    exact ⟨hid, hstarted (by simp [hphase])⟩

theorem Sound.replies (h : s.Sound newID snapshotTTL) {c : Nat} {snapshot : Snapshot}
    (hreturned : (s.caller c).returned? = some snapshot) :
    (∃ now, (s.caller c).phase = .cachedReply snapshot now ∧
      snapshotAge now snapshot ≤ snapshotTTL ∧ ∃ k, (s.flight k).Published snapshot) ∨
    ∃ k t, (s.caller c).phase = .reply k snapshot ∧ (s.flight k).result = some snapshot ∧
      (s.flight k).publishedAt = some t ∧ (s.caller c).beganAt < t := by
  have hsound := h.callers c
  cases hphase : (s.caller c).phase with
  | cachedReply snapshot' now =>
    obtain rfl : snapshot' = snapshot := by simpa [Caller.returned?, hphase] using hreturned
    simp only [Caller.Sound, hphase] at hsound
    exact .inl ⟨now, rfl, hsound⟩
  | reply k snapshot' =>
    obtain rfl : snapshot' = snapshot := by simpa [Caller.returned?, hphase] using hreturned
    simp only [Caller.Sound, hphase] at hsound
    obtain ⟨hresult, t, ht, hlt⟩ := hsound
    exact .inr ⟨k, t, rfl, hresult, ht, hlt⟩
  | idle | calling | looking | sleeping | panicked =>
    simp [Caller.returned?, hphase] at hreturned

theorem Sound.singleFlight (h : s.Sound newID snapshotTTL) : s.SingleFlight newID snapshotTTL := by
  refine ⟨h.running, fun c k event hwaits => waits_step h hwaits event,
    fun c snapshot hreturned => h.replies hreturned, fun c message hphase => ?_,
    fun hnew c c' snapshot snapshot' hc hc' hid => ?_⟩
  · have hsound := h.callers c
    simp [Caller.Sound, hphase] at hsound
  · have hsource : ∀ c snapshot, (s.caller c).returned? = some snapshot →
        ∃ k, (s.flight k).result = some snapshot := by
      intro c snapshot hc
      obtain ⟨_, _, _, k, hresult, _⟩ | ⟨k, _, _, hresult, _⟩ := h.replies hc
      · exact ⟨k, hresult⟩
      · exact ⟨k, hresult⟩
    obtain ⟨k, hk⟩ := hsource c snapshot hc
    obtain ⟨k', hk'⟩ := hsource c' snapshot' hc'
    obtain ⟨hidk, hlt⟩ := h.collectionID hk
    obtain ⟨hidk', hlt'⟩ := h.collectionID hk'
    obtain rfl : k = k' := hnew k k' hlt hlt' (by rw [← hidk, ← hidk', hid])
    exact Option.some.inj (hk.symm.trans hk')

/-- **`topology` is single-flight.**  In every state of every run of callers and collections, at
most one collection is in flight and every reply is what it should be; and under every fair
schedule every call returns. -/
theorem topology_single_flight (newID : Nat → Uuid) (snapshotTTL : Nat) (now : UInt64) :
    (∀ events, ((start now).run newID snapshotTTL events).SingleFlight newID snapshotTTL) ∧
    ∀ schedule, Fair schedule → ∀ c n,
      ((stateAt (step newID snapshotTTL) (start now) schedule n).caller c).phase = .calling →
      ∃ n' ≥ n, (stateAt (step newID snapshotTTL) (start now) schedule n').Returned c :=
  ⟨fun events => ((sound_start now).run events).singleFlight,
    fun _ hfair _ _ hcalling => returns hfair hcalling⟩

/-! ### A schedule in which every step comes again and again -/

/-- The `m`-th of all the steps there are. -/
def stepNo (m : Nat) : TopologyEvent :=
  match m % 7 with
  | 0 => .call (m / 7)
  | 1 => .lock (m / 7)
  | 2 => .look (m / 7)
  | 3 => .wake (m / 7)
  | 4 => .collect (m / 7) 0 [] []
  | 5 => .publish (m / 7)
  | _ => .send (m / 7)

def dovetail (n : Nat) : TopologyEvent := stepNo n.unpair.2

theorem exists_dovetail (m n : Nat) : ∃ n' ≥ n, dovetail n' = stepNo m :=
  ⟨Nat.pair n m, Nat.left_le_pair n m, by rw [dovetail, Nat.unpair_pair]⟩

theorem fair_dovetail : Fair dovetail := by
  have hstep : ∀ r x, r < 7 → (7 * x + r) % 7 = r ∧ (7 * x + r) / 7 = x := by
    intro r x hr
    omega
  refine ⟨fun c n => ?_, fun c n => ?_, fun c n => ?_, fun k n => ?_, fun k n => ?_,
    fun k n => ?_⟩
  · obtain ⟨n', hn', heq⟩ := exists_dovetail (7 * c + 1) n
    exact ⟨n', hn',
      by simp only [heq, stepNo, (hstep 1 c (by omega)).1, (hstep 1 c (by omega)).2]⟩
  · obtain ⟨n', hn', heq⟩ := exists_dovetail (7 * c + 2) n
    exact ⟨n', hn',
      by simp only [heq, stepNo, (hstep 2 c (by omega)).1, (hstep 2 c (by omega)).2]⟩
  · obtain ⟨n', hn', heq⟩ := exists_dovetail (7 * c + 3) n
    exact ⟨n', hn',
      by simp only [heq, stepNo, (hstep 3 c (by omega)).1, (hstep 3 c (by omega)).2]⟩
  · obtain ⟨n', hn', heq⟩ := exists_dovetail (7 * k + 4) n
    exact ⟨n', hn', 0, [], [],
      by simp only [heq, stepNo, (hstep 4 k (by omega)).1, (hstep 4 k (by omega)).2]⟩
  · obtain ⟨n', hn', heq⟩ := exists_dovetail (7 * k + 5) n
    exact ⟨n', hn',
      by simp only [heq, stepNo, (hstep 5 k (by omega)).1, (hstep 5 k (by omega)).2]⟩
  · obtain ⟨n', hn', heq⟩ := exists_dovetail (7 * k + 6) n
    exact ⟨n', hn',
      by simp only [heq, stepNo, (hstep 6 k (by omega)).1, (hstep 6 k (by omega)).2]⟩

theorem topology_single_flight_dovetail :
    ∃ n, (stateAt (step (fun k => Fin.ofNat _ (k + 1)) 1000000) (start 1000) dovetail
      n).Returned 0 := by
  have hcall : dovetail 0 = .call 0 := by simp [dovetail, stepNo]
  obtain ⟨n, -, hreturned⟩ := (topology_single_flight (fun k => Fin.ofNat _ (k + 1)) 1000000
    1000).2 dovetail fair_dovetail 0 1 (by
      show ((step _ 1000000 (start 1000) (dovetail 0)).caller 0).phase = .calling
      rw [hcall]
      rfl)
  exact ⟨n, hreturned⟩

end Topology

end NexusTier
