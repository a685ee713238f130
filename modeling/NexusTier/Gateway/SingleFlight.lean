import NexusTier.Gateway.Telemetry

/-!
# One collection for all who ask

`TelemetryCollector::topology`.  A caller takes the lock.  If there is a snapshot that is young
enough it returns that; if a collection is running it waits for it; otherwise it starts one.  The
task of a collection takes the lock again when it has its snapshot, caches it and clears `running`,
and only after it has released the lock does it tell those who wait.  Between any of these steps,
and between a waiting caller's look at the channel and its sleep, everything else may happen.

A run is any list of such steps, with a clock that does not go back.  The tasks do not panic.
`topology_single_flight` collects what holds: in every state of every run at most one collection is
in flight, and every reply is what it should be; and under every schedule in which no one is left
out for ever, every caller gets its reply.

## What is here

* `Flight`, `Caller` and `Topology`: a collection, a call, and what they share.
* `Topology.step`: one step of either.
* `Topology.Sound`: the invariant, which says for each phase what belongs to it.
* `Sound.step`: it is kept.  `Gateway/Waiting.lean` has the conclusions, and progress.

## What is left out

A task that panics, after which the callers of its collection meet the `expect`.  What a collection
does until it has its snapshot is in `Gateway/Telemetry.lean`; here it is one step.
-/

set_option autoImplicit false

namespace NexusTier

/-- The text of the `expect` in `topology`. -/
def droppedMessage : String := "topology collection task dropped before publishing a snapshot"

/-- Where the task of a collection stands. -/
inductive FlightPhase where
  | absent
  /-- In `collect_topology`. -/
  | collecting
  /-- Waiting for the lock, with its snapshot. -/
  | collected (snapshot : Snapshot)
  /-- The snapshot is cached, the lock released. -/
  | published (snapshot : Snapshot)
  /-- The snapshot is sent. -/
  | sent
  | ended

/-- A collection: its task and the watch channel.  The last two fields are history. -/
structure Flight where
  phase : FlightPhase
  channel : Option Snapshot
  senderAlive : Bool
  result : Option Snapshot
  publishedAt : Option Nat

def Flight.absent : Flight := ⟨.absent, none, false, none, none⟩

/-- The collection has been started, and its snapshot is not yet cached. -/
def Flight.InFlight (f : Flight) : Prop :=
  match f.phase with
  | .collecting | .collected _ => True
  | _ => False

/-- Where a call of `topology` stands. -/
inductive CallerPhase where
  | idle
  /-- Waiting for the lock. -/
  | calling
  /-- At the head of the loop, with a receiver of collection `k`. -/
  | looking (k : Nat)
  /-- In `changed().await`. -/
  | sleeping (k : Nat)
  /-- Returned the cached snapshot; it held the lock at time `now`. -/
  | cachedReply (snapshot : Snapshot) (now : UInt64)
  /-- Returned the snapshot it found in the channel of collection `k`. -/
  | reply (k : Nat) (snapshot : Snapshot)
  | panicked (message : String)

/-- A call of `topology`, and the step at which it began. -/
structure Caller where
  phase : CallerPhase
  beganAt : Nat

/-- What the call has returned. -/
def Caller.returned? (c : Caller) : Option Snapshot :=
  match c.phase with
  | .cachedReply snapshot _ | .reply _ snapshot => some snapshot
  | _ => none

/-- What `topology` works with: the state behind the lock, the collections that were started, by
number, and the calls. -/
structure Topology where
  now : UInt64
  cached : Option Snapshot
  /-- The collection whose channel is in `running`. -/
  running : Option Nat
  flight : Nat → Flight
  /-- How many collections have been started. -/
  started : Nat
  caller : Nat → Caller
  /-- How many steps there have been. -/
  time : Nat

/-- A step of a caller or of a collection. -/
inductive TopologyEvent where
  | tick (now : UInt64)
  | call (c : Nat)
  /-- The caller holds the lock. -/
  | lock (c : Nat)
  | look (c : Nat)
  | wake (c : Nat)
  /-- `collect_topology` returns. -/
  | collect (k : Nat) (startedAtMS : UInt64) (machines : List Machine)
    (errors : List TelemetryError)
  /-- The task of collection `k` holds the lock. -/
  | publish (k : Nat)
  | send (k : Nat)
  /-- The task ends, and drops its sender. -/
  | finish (k : Nat)

/-- `snapshot_age`, in nanoseconds. -/
def snapshotAge (now : UInt64) (snapshot : Snapshot) : Nat :=
  (now.toNat - snapshot.completedAtMS.toNat) * 1000000

namespace Topology

def start (now : UInt64) : Topology :=
  ⟨now, none, none, fun _ => .absent, 0, fun _ => ⟨.idle, 0⟩, 0⟩

/-- Move a call. -/
def goto (c : Nat) (phase : CallerPhase) (s : Topology) : Topology :=
  { s with
    caller := fun c' => if c' = c then ⟨phase, (s.caller c).beganAt⟩ else s.caller c' }

/-- Change a collection. -/
def modify (k : Nat) (f : Flight → Flight) (s : Topology) : Topology :=
  { s with
    flight := fun k' => if k' = k then f (s.flight k) else s.flight k' }

/-- A new collection, started by caller `c`. -/
def spawn (c : Nat) (s : Topology) : Topology :=
  { (s.modify s.started fun _ => ⟨.collecting, none, true, none, none⟩).goto c
      (.looking s.started) with
    running := some s.started
    started := s.started + 1 }

/-- What a caller does while it holds the lock; the time to live is in nanoseconds. -/
def locked (snapshotTTL : Nat) (c : Nat) (s : Topology) : Topology :=
  match s.cached with
  | some snapshot =>
    if snapshotAge s.now snapshot ≤ snapshotTTL then s.goto c (.cachedReply snapshot s.now)
    else
      match s.running with
      | some k => s.goto c (.looking k)
      | none => s.spawn c
  | none =>
    match s.running with
    | some k => s.goto c (.looking k)
    | none => s.spawn c

/-- What a step does.  `newID k` is the id that `Uuid::new_v4` gives collection `k`. -/
def act (newID : Nat → Uuid) (snapshotTTL : Nat) (s : Topology) : TopologyEvent → Topology
  | .tick now =>
    { s with
      now := if s.now ≤ now then now else s.now }
  | .call c =>
    match (s.caller c).phase with
    | .idle =>
      { s with
        caller := fun c' => if c' = c then ⟨.calling, s.time⟩ else s.caller c' }
    | _ => s
  | .lock c =>
    match (s.caller c).phase with
    | .calling => s.locked snapshotTTL c
    | _ => s
  | .look c =>
    match (s.caller c).phase with
    | .looking k =>
      match (s.flight k).channel with
      | some snapshot => s.goto c (.reply k snapshot)
      | none => s.goto c (.sleeping k)
    | _ => s
  | .wake c =>
    match (s.caller c).phase with
    | .sleeping k =>
      if (s.flight k).channel.isSome then s.goto c (.looking k)
      else if (s.flight k).senderAlive then s
      else s.goto c (.panicked droppedMessage)
    | _ => s
  | .collect k startedAtMS machines errors =>
    match (s.flight k).phase with
    | .collecting =>
      let snapshot : Snapshot :=
        { schemaVersion := NexusTier.schemaVersion
          collectionID := newID k
          startedAtMS
          completedAtMS := s.now
          collectedAtMS := s.now
          machines := some machines
          errors := some errors }
      s.modify k fun f =>
        { f with
          phase := .collected snapshot
          result := some snapshot }
    | _ => s
  | .publish k =>
    match (s.flight k).phase with
    | .collected snapshot =>
      { s.modify k fun f =>
          { f with
            phase := .published snapshot
            publishedAt := some s.time } with
        cached := some snapshot
        running := none }
    | _ => s
  | .send k =>
    match (s.flight k).phase with
    | .published snapshot =>
      s.modify k fun f =>
        { f with
          phase := .sent
          channel := some snapshot }
    | _ => s
  | .finish k =>
    match (s.flight k).phase with
    | .sent =>
      s.modify k fun f =>
        { f with
          phase := .ended
          senderAlive := false }
    | _ => s

/-- One step, which is counted. -/
def step (newID : Nat → Uuid) (snapshotTTL : Nat) (s : Topology) (event : TopologyEvent) :
    Topology :=
  { s.act newID snapshotTTL event with
    time := s.time + 1 }

/-- Steps, one after the other. -/
def run (newID : Nat → Uuid) (snapshotTTL : Nat) (s : Topology) (events : List TopologyEvent) :
    Topology :=
  events.foldl (step newID snapshotTTL) s

end Topology

/-! ## The invariant -/

/-- What belongs to each phase of a collection with the given id: the snapshot is where it has got
to, and the sender is not dropped before it is sent. -/
def Flight.Sound (id : Uuid) (time : Nat) (f : Flight) : Prop :=
  match f.phase with
  | .absent => f.channel = none ∧ f.result = none ∧ f.publishedAt = none
  | .collecting =>
    f.channel = none ∧ f.senderAlive = true ∧ f.result = none ∧ f.publishedAt = none
  | .collected snapshot =>
    f.channel = none ∧ f.senderAlive = true ∧ f.result = some snapshot ∧ f.publishedAt = none ∧
      snapshot.collectionID = id
  | .published snapshot =>
    f.channel = none ∧ f.senderAlive = true ∧ f.result = some snapshot ∧
      (∃ t < time, f.publishedAt = some t) ∧ snapshot.collectionID = id
  | .sent | .ended =>
    ∃ snapshot, f.channel = some snapshot ∧ f.result = some snapshot ∧
      (∃ t < time, f.publishedAt = some t) ∧ snapshot.collectionID = id

/-- The snapshot of a collection that has been cached. -/
def Flight.Published (f : Flight) (snapshot : Snapshot) : Prop :=
  f.result = some snapshot ∧ ∃ t, f.publishedAt = some t

/-- What belongs to each phase of a call. -/
def Caller.Sound (snapshotTTL : Nat) (flight : Nat → Flight) (time : Nat) (c : Caller) : Prop :=
  match c.phase with
  | .idle => True
  | .calling => c.beganAt < time
  | .looking k | .sleeping k =>
    c.beganAt < time ∧ ((flight k).InFlight ∨ ∃ t, (flight k).publishedAt = some t ∧ c.beganAt < t)
  | .cachedReply snapshot now =>
    snapshotAge now snapshot ≤ snapshotTTL ∧ ∃ k, (flight k).Published snapshot
  | .reply k snapshot =>
    (flight k).result = some snapshot ∧ ∃ t, (flight k).publishedAt = some t ∧ c.beganAt < t
  | .panicked _ => False

/-- A step of a collection: it keeps its result, and leaves flight only by being published. -/
structure Flight.Grows (time : Nat) (f f' : Flight) : Prop where
  result : ∀ snapshot, f.result = some snapshot → f'.result = some snapshot
  publishedAt : ∀ t, f.publishedAt = some t → f'.publishedAt = some t
  inFlight : f.InFlight → f'.InFlight ∨ f'.publishedAt = some time

theorem Flight.Grows.refl (time : Nat) (f : Flight) : f.Grows time f :=
  ⟨fun _ => id, fun _ => id, .inl⟩

theorem Caller.Sound.grows {snapshotTTL time : Nat} {flight flight' : Nat → Flight} {c : Caller}
    (h : c.Sound snapshotTTL flight time) (hgrows : ∀ k, (flight k).Grows time (flight' k)) :
    c.Sound snapshotTTL flight' (time + 1) := by
  have hwaits : ∀ k, c.beganAt < time ∧ ((flight k).InFlight ∨
      ∃ t, (flight k).publishedAt = some t ∧ c.beganAt < t) →
      c.beganAt < time + 1 ∧ ((flight' k).InFlight ∨
        ∃ t, (flight' k).publishedAt = some t ∧ c.beganAt < t) := by
    rintro k ⟨hbegan, hin | ⟨t, ht, hlt⟩⟩
    · refine ⟨by omega, ((hgrows k).inFlight hin).imp id fun hnow => ?_⟩
      exact ⟨time, hnow, hbegan⟩
    · exact ⟨by omega, .inr ⟨t, (hgrows k).publishedAt t ht, hlt⟩⟩
  obtain ⟨phase, beganAt⟩ := c
  cases phase with
  | idle => trivial
  | calling => exact Nat.lt_succ_of_lt h
  | looking k => exact hwaits k h
  | sleeping k => exact hwaits k h
  | cachedReply snapshot now =>
    obtain ⟨hage, k, hresult, t, ht⟩ := h
    exact ⟨hage, k, (hgrows k).result _ hresult, t, (hgrows k).publishedAt t ht⟩
  | reply k snapshot =>
    obtain ⟨hresult, t, ht, hlt⟩ := h
    exact ⟨(hgrows k).result _ hresult, t, (hgrows k).publishedAt t ht, hlt⟩
  | panicked message => exact h

theorem Flight.Sound.mono {id : Uuid} {time : Nat} {f : Flight} (h : f.Sound id time) :
    f.Sound id (time + 1) := by
  have hpast : ∀ {p : Nat → Prop}, (∃ t < time, p t) → ∃ t < time + 1, p t :=
    fun ⟨t, ht, hp⟩ => ⟨t, Nat.lt_succ_of_lt ht, hp⟩
  obtain ⟨phase, channel, senderAlive, result, publishedAt⟩ := f
  cases phase with
  | absent => exact h
  | collecting => exact h
  | collected snapshot => exact h
  | published snapshot => exact ⟨h.1, h.2.1, h.2.2.1, hpast h.2.2.2.1, h.2.2.2.2⟩
  | sent =>
    obtain ⟨snapshot, hchannel, hresult, ht, hid⟩ := h
    exact ⟨snapshot, hchannel, hresult, hpast ht, hid⟩
  | ended =>
    obtain ⟨snapshot, hchannel, hresult, ht, hid⟩ := h
    exact ⟨snapshot, hchannel, hresult, hpast ht, hid⟩

/-- What is in the channel of a collection is its snapshot, and is cached. -/
theorem Flight.Sound.of_channel {id : Uuid} {time : Nat} {f : Flight} (h : f.Sound id time)
    {snapshot : Snapshot} (hchannel : f.channel = some snapshot) :
    f.result = some snapshot ∧ ¬ f.InFlight := by
  obtain ⟨phase, channel, senderAlive, result, publishedAt⟩ := f
  subst hchannel
  cases phase with
  | absent => simp [Flight.Sound] at h
  | collecting => simp [Flight.Sound] at h
  | collected s => simp [Flight.Sound] at h
  | published s => simp [Flight.Sound] at h
  | sent =>
    obtain ⟨s, hchannel, hresult, -⟩ := h
    exact ⟨hresult.trans hchannel.symm, fun hin => hin⟩
  | ended =>
    obtain ⟨s, hchannel, hresult, -⟩ := h
    exact ⟨hresult.trans hchannel.symm, fun hin => hin⟩

/-- A caller is not told that the sender is gone before it has been sent the snapshot. -/
theorem Flight.Sound.senderAlive {id : Uuid} {time : Nat} {f : Flight} (h : f.Sound id time)
    (hstarted : f.InFlight ∨ ∃ t, f.publishedAt = some t) (hchannel : f.channel = none) :
    f.senderAlive = true := by
  obtain ⟨phase, channel, senderAlive, result, publishedAt⟩ := f
  subst hchannel
  cases phase with
  | absent =>
    obtain ⟨-, -, rfl⟩ := h
    simp [Flight.InFlight] at hstarted
  | collecting => exact h.2.1
  | collected s => exact h.2.1
  | published s => exact h.2.1
  | sent => simp [Flight.Sound] at h
  | ended => simp [Flight.Sound] at h

namespace Topology

/-- The invariant. -/
structure Sound (newID : Nat → Uuid) (snapshotTTL : Nat) (s : Topology) : Prop where
  flights : ∀ k, (s.flight k).Sound (newID k) s.time
  fresh : ∀ k, s.started ≤ k → (s.flight k).phase = .absent
  running : ∀ k, (s.flight k).InFlight ↔ s.running = some k
  cached : ∀ snapshot ∈ s.cached, ∃ k, (s.flight k).Published snapshot
  callers : ∀ c, (s.caller c).Sound snapshotTTL s.flight s.time

variable {newID : Nat → Uuid} {snapshotTTL : Nat} {s : Topology}

theorem sound_start (now : UInt64) : (start now).Sound newID snapshotTTL where
  flights _ := ⟨rfl, rfl, rfl⟩
  fresh _ _ := rfl
  running k := by simp [start, Flight.InFlight, Flight.absent]
  cached := by simp [start]
  callers _ := trivial

/-- What a step has to show. -/
theorem Sound.next (h : s.Sound newID snapshotTTL) {s' : Topology} (htime : s'.time = s.time + 1)
    (hgrows : ∀ k, (s.flight k).Grows s.time (s'.flight k))
    (hflights : ∀ k, s'.flight k = s.flight k ∨ (s'.flight k).Sound (newID k) (s.time + 1))
    (hfresh : ∀ k, s'.started ≤ k → (s'.flight k).phase = .absent)
    (hrunning : ∀ k, (s'.flight k).InFlight ↔ s'.running = some k)
    (hcached : ∀ snapshot ∈ s'.cached, snapshot ∈ s.cached ∨
      ∃ k, (s'.flight k).Published snapshot)
    (hcallers : ∀ c, s'.caller c = s.caller c ∨
      (s'.caller c).Sound snapshotTTL s'.flight (s.time + 1)) : s'.Sound newID snapshotTTL := by
  refine ⟨fun k => ?_, hfresh, hrunning, fun snapshot hmem => ?_, fun c => ?_⟩
  · rw [htime]
    rcases hflights k with heq | hsound
    · rw [heq]
      exact (h.flights k).mono
    · exact hsound
  · rcases hcached snapshot hmem with hold | hnew
    · obtain ⟨k, hresult, t, ht⟩ := h.cached snapshot hold
      exact ⟨k, (hgrows k).result _ hresult, t, (hgrows k).publishedAt t ht⟩
    · exact hnew
  · rw [htime]
    rcases hcallers c with heq | hsound
    · rw [heq]
      exact (h.callers c).grows hgrows
    · exact hsound

/-- A step that moves one call only. -/
theorem Sound.move (h : s.Sound newID snapshotTTL) {c : Nat} {caller : Caller} {now : UInt64}
    (hcaller : caller.Sound snapshotTTL s.flight (s.time + 1)) :
    ({ s with
        now
        caller := fun c' => if c' = c then caller else s.caller c'
        time := s.time + 1 } : Topology).Sound newID snapshotTTL := by
  refine h.next rfl (fun k => .refl _ _) (fun k => .inl rfl) h.fresh h.running
    (fun snapshot hmem => .inl hmem) fun c' => ?_
  by_cases hc : c' = c
  · refine .inr ?_
    simp only [if_pos hc]
    exact hcaller
  · exact .inl (if_neg hc)

theorem modify_flight_self {k : Nat} {f : Flight → Flight} :
    (s.modify k f).flight k = f (s.flight k) :=
  if_pos rfl

theorem modify_flight_of_ne {k k' : Nat} {f : Flight → Flight} (h : k' ≠ k) :
    (s.modify k f).flight k' = s.flight k' :=
  if_neg h

/-- A step of the task of collection `k` that is not a publication. -/
theorem Sound.fly (h : s.Sound newID snapshotTTL) {k : Nat} {f : Flight → Flight}
    (hphase : (s.flight k).phase ≠ .absent) (hf : (f (s.flight k)).Sound (newID k) (s.time + 1))
    (hgrows : (s.flight k).Grows s.time (f (s.flight k)))
    (hin : (f (s.flight k)).InFlight ↔ (s.flight k).InFlight) :
    ({ s.modify k f with
        time := s.time + 1 } : Topology).Sound newID snapshotTTL := by
  refine h.next rfl (fun k' => ?_) (fun k' => ?_) (fun k' hk' => ?_) (fun k' => ?_)
    (fun snapshot hmem => .inl hmem) fun c => .inl rfl
  all_goals by_cases hk : k' = k
  · subst hk
    rw [modify_flight_self]
    exact hgrows
  · rw [modify_flight_of_ne hk]
    exact .refl _ _
  · subst hk
    rw [modify_flight_self]
    exact .inr hf
  · exact .inl (modify_flight_of_ne hk)
  · subst hk
    exact absurd (h.fresh k' hk') hphase
  · rw [modify_flight_of_ne hk]
    exact h.fresh k' hk'
  · subst hk
    rw [modify_flight_self, hin]
    exact h.running k'
  · rw [modify_flight_of_ne hk]
    exact h.running k'

/-- The step that publishes. -/
theorem Sound.publish (h : s.Sound newID snapshotTTL) {k : Nat} {snapshot : Snapshot}
    (hphase : (s.flight k).phase = .collected snapshot) :
    ({ s.modify k fun f =>
          { f with
            phase := .published snapshot
            publishedAt := some s.time } with
        cached := some snapshot
        running := none
        time := s.time + 1 } : Topology).Sound newID snapshotTTL := by
  have hk := h.flights k
  simp only [Flight.Sound, hphase] at hk
  obtain ⟨hchannel, halive, hresult, hnone, hid⟩ := hk
  have hin : (s.flight k).InFlight := by simp [Flight.InFlight, hphase]
  have hrunning := (h.running k).1 hin
  refine h.next rfl (fun k' => ?_) (fun k' => ?_) (fun k' hk' => ?_) (fun k' => ?_)
    (fun snapshot' hmem => .inr ⟨k, ?_⟩) fun c => .inl rfl
  case refine_5 =>
    obtain rfl := Option.mem_some_iff.1 hmem
    rw [modify_flight_self]
    exact ⟨hresult, s.time, rfl⟩
  all_goals by_cases hk : k' = k
  · subst hk
    rw [modify_flight_self]
    exact ⟨fun _ => id, fun t ht => by simp [hnone] at ht, fun _ => .inr rfl⟩
  · rw [modify_flight_of_ne hk]
    exact .refl _ _
  · subst hk
    rw [modify_flight_self]
    exact .inr ⟨hchannel, halive, hresult, ⟨s.time, Nat.lt_succ_self _, rfl⟩, hid⟩
  · exact .inl (if_neg hk)
  · subst hk
    simp [h.fresh k' hk'] at hphase
  · rw [modify_flight_of_ne hk]
    exact h.fresh k' hk'
  · subst hk
    rw [modify_flight_self]
    simp [Flight.InFlight]
  · rw [modify_flight_of_ne hk, h.running k', hrunning]
    simp [Ne.symm hk]

/-- The step that starts a collection. -/
theorem Sound.spawn (h : s.Sound newID snapshotTTL) {c : Nat} (hbegan : (s.caller c).beganAt < s.time)
    (hidle : s.running = none) :
    ({ s.spawn c with
        time := s.time + 1 } : Topology).Sound newID snapshotTTL := by
  have habsent := h.fresh s.started le_rfl
  have hnew := h.flights s.started
  simp only [Flight.Sound, habsent] at hnew
  have hself : (s.spawn c).flight s.started = ⟨.collecting, none, true, none, none⟩ := if_pos rfl
  have hother : ∀ k, k ≠ s.started → (s.spawn c).flight k = s.flight k := fun k hk => if_neg hk
  refine h.next rfl (fun k => ?_) (fun k => ?_) (fun k hk => ?_) (fun k => ?_)
    (fun snapshot hmem => .inl hmem) fun c' => ?_
  case refine_5 =>
    by_cases hc : c' = c
    · refine .inr ?_
      have hcaller : (s.spawn c).caller c' = ⟨.looking s.started, (s.caller c).beganAt⟩ := if_pos hc
      show ((s.spawn c).caller c').Sound snapshotTTL (s.spawn c).flight (s.time + 1)
      rw [hcaller]
      refine ⟨Nat.lt_succ_of_lt hbegan, .inl ?_⟩
      rw [hself]
      trivial
    · exact .inl (if_neg hc)
  case refine_3 =>
    have hlt : s.started < k := hk
    show ((s.spawn c).flight k).phase = .absent
    rw [hother k (by omega)]
    exact h.fresh k (by omega)
  all_goals
    by_cases hk : k = s.started
  · subst hk
    show (s.flight s.started).Grows s.time ((s.spawn c).flight s.started)
    rw [hself]
    exact ⟨by simp [hnew], by simp [hnew], by simp [Flight.InFlight, habsent]⟩
  · show (s.flight k).Grows s.time ((s.spawn c).flight k)
    rw [hother k hk]
    exact .refl _ _
  · subst hk
    refine .inr ?_
    show ((s.spawn c).flight s.started).Sound (newID s.started) (s.time + 1)
    rw [hself]
    exact ⟨rfl, rfl, rfl, rfl⟩
  · exact .inl (hother k hk)
  · subst hk
    show ((s.spawn c).flight s.started).InFlight ↔ some s.started = some s.started
    rw [hself]
    simp [Flight.InFlight]
  · show ((s.spawn c).flight k).InFlight ↔ some s.started = some k
    rw [hother k hk, h.running k, hidle]
    simp [Ne.symm hk]

/-- A caller that holds the lock leaves with a reply or with a collection to wait for. -/
theorem Sound.locked (h : s.Sound newID snapshotTTL) {c : Nat}
    (hphase : (s.caller c).phase = .calling) :
    ({ s.locked snapshotTTL c with
        time := s.time + 1 } : Topology).Sound newID snapshotTTL := by
  have hbegan : (s.caller c).beganAt < s.time := by
    have hc := h.callers c
    simpa only [Caller.Sound, hphase] using hc
  have hrest : ({ (match s.running with
      | some k => s.goto c (.looking k)
      | none => s.spawn c) with
        time := s.time + 1 } : Topology).Sound newID snapshotTTL := by
    cases hr : s.running with
    | some k => exact h.move ⟨Nat.lt_succ_of_lt hbegan, .inl ((h.running k).2 hr)⟩
    | none => exact h.spawn hbegan hr
  rw [Topology.locked]
  cases hcached : s.cached with
  | none => exact hrest
  | some snapshot =>
    by_cases hage : snapshotAge s.now snapshot ≤ snapshotTTL
    · simp only [if_pos hage]
      exact h.move ⟨hage, h.cached snapshot hcached⟩
    · simp only [if_neg hage]
      exact hrest

/-- A step that does nothing. -/
theorem Sound.stay (h : s.Sound newID snapshotTTL) {now : UInt64} :
    ({ s with
        now
        time := s.time + 1 } : Topology).Sound newID snapshotTTL :=
  h.next rfl (fun _ => .refl _ _) (fun _ => .inl rfl) h.fresh h.running (fun _ hmem => .inl hmem)
    fun _ => .inl rfl

/-- A caller that waits for a collection. -/
theorem Sound.waits (h : s.Sound newID snapshotTTL) {c k : Nat}
    (hphase : (s.caller c).phase = .looking k ∨ (s.caller c).phase = .sleeping k) :
    (s.caller c).beganAt < s.time ∧ ((s.flight k).InFlight ∨
      ∃ t, (s.flight k).publishedAt = some t ∧ (s.caller c).beganAt < t) := by
  have hc := h.callers c
  rcases hphase with hphase | hphase
  · simpa only [Caller.Sound, hphase] using hc
  · simpa only [Caller.Sound, hphase] using hc

theorem Sound.look (h : s.Sound newID snapshotTTL) {c k : Nat}
    (hphase : (s.caller c).phase = .looking k) :
    ({ (match (s.flight k).channel with
        | some snapshot => s.goto c (.reply k snapshot)
        | none => s.goto c (.sleeping k)) with
        time := s.time + 1 } : Topology).Sound newID snapshotTTL := by
  obtain ⟨hbegan, hk⟩ := h.waits (.inl hphase)
  cases hchannel : (s.flight k).channel with
  | none => exact h.move ⟨Nat.lt_succ_of_lt hbegan, hk⟩
  | some snapshot =>
    obtain ⟨hresult, hnot⟩ := (h.flights k).of_channel hchannel
    exact h.move ⟨hresult, hk.resolve_left hnot⟩

theorem Sound.wake (h : s.Sound newID snapshotTTL) {c k : Nat}
    (hphase : (s.caller c).phase = .sleeping k) :
    ({ (if (s.flight k).channel.isSome then s.goto c (.looking k)
        else if (s.flight k).senderAlive then s
        else s.goto c (.panicked droppedMessage)) with
        time := s.time + 1 } : Topology).Sound newID snapshotTTL := by
  obtain ⟨hbegan, hk⟩ := h.waits (.inr hphase)
  by_cases hchannel : (s.flight k).channel.isSome
  · simp only [if_pos hchannel]
    exact h.move ⟨Nat.lt_succ_of_lt hbegan, hk⟩
  · have halive := (h.flights k).senderAlive (hk.imp id fun ⟨t, ht, _⟩ => ⟨t, ht⟩)
      (by simpa using hchannel)
    simp only [if_neg hchannel, if_pos halive]
    exact h.stay

theorem Sound.collect (h : s.Sound newID snapshotTTL) {k : Nat} {snapshot : Snapshot}
    (hphase : (s.flight k).phase = .collecting) (hid : snapshot.collectionID = newID k) :
    ({ s.modify k fun f =>
          { f with
            phase := .collected snapshot
            result := some snapshot } with
        time := s.time + 1 } : Topology).Sound newID snapshotTTL := by
  have hk := h.flights k
  simp only [Flight.Sound, hphase] at hk
  obtain ⟨hchannel, halive, hresult, hpublished⟩ := hk
  refine h.fly (by simp [hphase]) ⟨hchannel, halive, rfl, hpublished, hid⟩ ?_ ?_
  · exact ⟨by simp [hresult], fun _ => id, fun _ => .inl trivial⟩
  · simp [Flight.InFlight, hphase]

theorem Sound.send (h : s.Sound newID snapshotTTL) {k : Nat} {snapshot : Snapshot}
    (hphase : (s.flight k).phase = .published snapshot) :
    ({ s.modify k fun f =>
          { f with
            phase := .sent
            channel := some snapshot } with
        time := s.time + 1 } : Topology).Sound newID snapshotTTL := by
  have hk := (h.flights k).mono
  simp only [Flight.Sound, hphase] at hk
  obtain ⟨hchannel, halive, hresult, ht, hid⟩ := hk
  refine h.fly (by simp [hphase]) ⟨snapshot, rfl, hresult, ht, hid⟩ ?_ ?_
  · exact ⟨fun _ => id, fun _ => id, by simp [Flight.InFlight, hphase]⟩
  · simp [Flight.InFlight, hphase]

theorem Sound.finish (h : s.Sound newID snapshotTTL) {k : Nat}
    (hphase : (s.flight k).phase = .sent) :
    ({ s.modify k fun f =>
          { f with
            phase := .ended
            senderAlive := false } with
        time := s.time + 1 } : Topology).Sound newID snapshotTTL := by
  have hk := (h.flights k).mono
  simp only [Flight.Sound, hphase] at hk
  refine h.fly (by simp [hphase]) hk ?_ ?_
  · exact ⟨fun _ => id, fun _ => id, by simp [Flight.InFlight, hphase]⟩
  · simp [Flight.InFlight, hphase]

/-- **A step keeps the invariant.** -/
theorem Sound.step (h : s.Sound newID snapshotTTL) (event : TopologyEvent) :
    (s.step newID snapshotTTL event).Sound newID snapshotTTL := by
  rw [Topology.step]
  cases event with
  | tick now => exact h.stay
  | call c =>
    simp only [act]
    split
    next hphase => exact h.move (Nat.lt_succ_self _)
    next => exact h.stay
  | lock c =>
    simp only [act]
    split
    next hphase => exact h.locked hphase
    next => exact h.stay
  | look c =>
    simp only [act]
    split
    next k hphase => exact h.look hphase
    next => exact h.stay
  | wake c =>
    simp only [act]
    split
    next k hphase => exact h.wake hphase
    next => exact h.stay
  | collect k startedAtMS machines errors =>
    simp only [act]
    split
    next hphase => exact h.collect hphase rfl
    next => exact h.stay
  | publish k =>
    simp only [act]
    split
    next snapshot hphase => exact h.publish hphase
    next => exact h.stay
  | send k =>
    simp only [act]
    split
    next snapshot hphase => exact h.send hphase
    next => exact h.stay
  | finish k =>
    simp only [act]
    split
    next hphase => exact h.finish hphase
    next => exact h.stay

theorem Sound.run (h : s.Sound newID snapshotTTL) (events : List TopologyEvent) :
    (s.run newID snapshotTTL events).Sound newID snapshotTTL := by
  induction events generalizing s with
  | nil => exact h
  | cons event events ih => exact ih (h.step event)

end Topology

end NexusTier
