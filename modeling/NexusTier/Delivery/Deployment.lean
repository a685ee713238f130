import NexusTier.Contract.Body
import NexusTier.Gateway.Listing
import NexusTier.Ingest.Provenance

/-!
# Gateway, controller and database

The whole of it as one system.  While a collection of the gateway is on its way, connections are
opened, heartbeats come in, and sessions replace each other.  The collection lists the pool while it
changes, and reads the sessions it has found there as they are by then.  What it returns is
serialized, and the worker of the controller may receive it late, or more than once, since the
gateway keeps it for a while.  Between two polls, retention does its work.

## What is here

* `Deployment`, `Deployment.step`, `Deployment.run` — the system, with all that may interleave.
* `Deployment.Sound` — its invariant, with one lemma for each kind of step and `sound_run` for all.
* `run_refines` — nothing is lost if one looks at the gateway alone (`Gateway.Emits`) and at the
  database alone (`execAll`): in every run of the whole, every answer of the gateway is one that it
  emits of a pool it has listed, and the database is the result of a run of its own that has taken
  in nothing but answers.  Hence what has been proved of either holds of the whole.

## What is left out

* The clock of the gateway does not go back, though the one of its host may be set.
* There is one gateway, which does not restart, and one controller.  A poll that fails leaves the
  database as it is, and so do other requests.
* An answer is received as it was written: nothing is lost or changed on its way.
-/

set_option autoImplicit false

namespace NexusTier

open Telemetry (TopologySnapshot)

/-! ## The system -/

/-- `collect_topology` on its way: the sessions it has taken from the pool, by their connections,
and what their clients reply. -/
structure Collecting (PeerInfo : Type) where
  held : List (Uuid × Nat)
  replies : Replies PeerInfo
  collection : Collection

/-- The collection shares the clock and the sessions with the gateway. -/
def Collecting.follow {PeerInfo : Type} (s : Accepting) (c : Collecting PeerInfo) :
    Collecting PeerInfo :=
  { c with
    collection :=
      { c.collection with
        now := s.now
        sessions := s.sessionsOf c.held } }

/-- Is the event one of the tasks of a collection, or its deadline? -/
def Event.ofTask : Event → Bool
  | .tick _ | .heartbeat _ _ => false
  | .advance _ | .panic _ _ | .join _ | .deadline => true

structure Deployment (PeerInfo : Type) where
  gateway : Accepting
  /-- The pool on its way to be listed, for the next collection. -/
  listing : Option Listing
  /-- The collection on its way: there is one at most. -/
  collecting : Option (Collecting PeerInfo)
  /-- What collections have returned so far. -/
  answers : List TopologySnapshot
  db : Db

inductive DeploymentEvent (PeerInfo : Type) where
  /-- A step of the gateway that is not one of its collection. -/
  | accept (event : AcceptEvent)
  /-- `collect_topology` starts: it reads the clock. -/
  | begin (collectionID : Uuid)
  /-- It lists the sessions that stand in the pool under some keys. -/
  | visit (keys : Uuid → Bool)
  /-- It has the whole list, in some order, and starts its tasks. -/
  | listed (held : List (Uuid × Nat)) (replies : Replies PeerInfo)
  /-- A step of a task of the collection, or its deadline. -/
  | collect (event : Event)
  /-- The collection returns. -/
  | answer (topology : TopologySnapshot)
  /-- The worker receives answer `n`, and ingests it. -/
  | poll (now : Timestamp) (n : Nat)
  /-- A statement of retention. -/
  | retain (op : Op)

namespace Deployment

variable {PeerInfo : Type} (A : PairAccessors PeerInfo) (C : TelemetryCollector) (codec : Codec)
  (E : Encoding)

def start (now : UInt64) (admissionToken : Option String) : Deployment PeerInfo :=
  ⟨.start now admissionToken, none, none, [], Db.empty⟩

/-- One step. -/
def step (d : Deployment PeerInfo) : DeploymentEvent PeerInfo → Deployment PeerInfo
  | .accept event =>
    let gateway := d.gateway.step event
    { d with
      gateway
      collecting := d.collecting.map (Collecting.follow gateway) }
  | .begin collectionID =>
    if d.listing.isNone ∧ d.collecting.isNone ∧ collectionID.IsV4 then
      { d with
        listing := some ⟨collectionID, d.gateway.now, fun _ => false, []⟩ }
    else d
  | .visit keys =>
    { d with
      listing := d.listing.map (Listing.visit keys d.gateway.pool) }
  | .listed held replies =>
    match d.listing with
    | none => d
    | some l =>
      if held.Perm l.held ∧ ∀ e ∈ d.gateway.pool, l.visited e.1 = true then
        { d with
          listing := none
          collecting := some ⟨held, replies,
            .listed C l.startedAtMS d.gateway.now l.collectionID (d.gateway.sessionsOf held)⟩ }
      else d
  | .collect event =>
    -- the clock and the heartbeats are the gateway's
    if event.ofTask then
      { d with
        collecting := d.collecting.map fun c =>
          { c with
            collection := c.collection.step A C c.replies event } }
    else d
  | .answer topology =>
    match d.collecting with
    | none => d
    | some c =>
      if c.collection.snapshot? = some topology.received then
        { d with
          collecting := none
          answers := d.answers ++ [topology] }
      else d
  | .poll now n =>
    match d.answers[n]? with
    | none => d
    | some topology =>
      match fetchAnswer codec (topology.serialize codec) with
      | .error _ => d
      | .ok snapshot =>
        { d with
          db := (Op.ingest now snapshot).exec E d.db }
  | .retain op =>
    match op with
    | .ingest _ _ => d
    | op =>
      { d with
        db := op.exec E d.db }

/-- Steps, one after the other. -/
def run (d : Deployment PeerInfo) (events : List (DeploymentEvent PeerInfo)) :
    Deployment PeerInfo :=
  events.foldl (step A C codec E) d

end Deployment

/-! ## The collection and the gateway -/

section

variable {PeerInfo : Type} {A : PairAccessors PeerInfo} {C : TelemetryCollector}

/-- What holds between the gateway and the collection on its way, whose sessions have been listed in
the course of `past`. -/
structure Collecting.Follows (A : PairAccessors PeerInfo) (C : TelemetryCollector)
    (past : List Accepting) (s : Accepting) (c : Collecting PeerInfo) : Prop where
  now : c.collection.now = s.now
  sessions : c.collection.sessions = s.sessionsOf c.held
  keys : (c.held.map Prod.fst).Nodup
  inserted : ∀ e ∈ c.held, (s.conn e.2).phase.inserted? = some e.1
  emits : ∃ (g : Gateway) (collectionID : Uuid) (startedAtMS : UInt64)
    (sessions : List (Uuid × GatewaySession)) (events : List Event),
      Listed past startedAtMS g ∧ g.Reachable ∧ collectionID.IsV4 ∧ startedAtMS ≤ g.now ∧
        sessions.Perm g.pool ∧ c.collection =
          (Collection.listed C startedAtMS g.now collectionID sessions).run A C c.replies events

variable {past past' : List Accepting} {s : Accepting} {c : Collecting PeerInfo}

theorem Collecting.Follows.mono (h : c.Follows A C past s) (hpast : past <:+: past') :
    c.Follows A C past' s where
  now := h.now
  sessions := h.sessions
  keys := h.keys
  inserted := h.inserted
  emits := by
    obtain ⟨g, collectionID, startedAtMS, sessions, events, hlisted, hrest⟩ := h.emits
    exact ⟨g, collectionID, startedAtMS, sessions, events, hlisted.mono hpast, hrest⟩

/-- What a step of the gateway does to the collection, events of the collection alone do. -/
theorem Collecting.follow_eq_run (h : c.Follows A C past s) (event : AcceptEvent) :
    ∃ events, (c.follow (s.step event)).collection = c.collection.run A C c.replies events := by
  have hle : c.collection.now ≤ (s.step event).now := h.now ▸ s.step_now_le event
  by_cases hsame : ∀ e ∈ c.held, ((s.step event).conn e.2).session = (s.conn e.2).session
  · refine ⟨[.tick (s.step event).now], ?_⟩
    have hsessions : (s.step event).sessionsOf c.held = c.collection.sessions := by
      rw [h.sessions]
      exact List.map_congr_left fun e he => by rw [hsame e he]
    simp [Collecting.follow, Collection.run, Collection.step, hle, hsessions]
  · -- a heartbeat was let in, and only one session has it
    push Not at hsame
    obtain ⟨⟨m, i⟩, hmem, hne⟩ := hsame
    obtain heq | ⟨request, hb⟩ := s.step_session_of_inserted (h.inserted _ hmem) event
    · exact absurd heq hne
    · refine ⟨[.heartbeat m request, .tick (s.step event).now], ?_⟩
      have hsessions : (c.collection.step A C c.replies (.heartbeat m request)).sessions =
          (s.step event).sessionsOf c.held := by
        show c.collection.sessions.map _ = _
        rw [h.sessions, Accepting.sessionsOf, Accepting.sessionsOf, List.map_map]
        refine List.map_congr_left fun e he => ?_
        by_cases hkey : e.1 = m
        · have hlookup : some e.2 = some i := by
            rw [← lookup_of_mem h.keys he, ← lookup_of_mem h.keys hmem, hkey]
          obtain rfl := Option.some.inj hlookup
          simp [hkey, h.now, hb]
        · rw [Function.comp_apply, if_neg hkey]
          obtain ⟨e', rfl, -⟩ | ⟨hkept, -⟩ := s.step_conn_cases event e.2
          · obtain ⟨e'', heq, -⟩ | ⟨hkept, -⟩ := s.step_conn_cases (.conn e.2 e') i
            · have hsame : e.2 = i := (AcceptEvent.conn.inj heq).1
              have hm := h.inserted _ hmem
              rw [← hsame, h.inserted e he] at hm
              exact absurd (Option.some.inj hm) hkey
            · exact absurd hkept hne
          · rw [hkept]
      rw [Collecting.follow, ← hsessions]
      simp [Collection.run, Collection.step, hle]

theorem Collecting.Follows.step (h : c.Follows A C past s) (event : AcceptEvent) :
    (c.follow (s.step event)).Follows A C past (s.step event) where
  now := rfl
  sessions := rfl
  keys := h.keys
  inserted e he := s.step_inserted? (h.inserted e he) event
  emits := by
    obtain ⟨g, collectionID, startedAtMS, sessions, events, hlisted, hg, hv4, hle, hperm, hrun⟩ :=
      h.emits
    obtain ⟨events', hfollow⟩ := Collecting.follow_eq_run h event
    refine ⟨g, collectionID, startedAtMS, sessions, events ++ events', hlisted, hg, hv4, hle, hperm,
      ?_⟩
    rw [hfollow, hrun, Collection.run, Collection.run, Collection.run, List.foldl_append]
    rfl

/-- Such an event leaves the clock and the sessions alone. -/
theorem Collection.step_ofTask (c : Collection) {replies : Replies PeerInfo} {event : Event}
    (h : event.ofTask = true) : (c.step A C replies event).now = c.now ∧
      (c.step A C replies event).sessions = c.sessions := by
  have hspawn : ∀ c : Collection, c.spawnNext.now = c.now ∧ c.spawnNext.sessions = c.sessions := by
    intro c
    rw [spawnNext]
    split <;> exact ⟨rfl, rfl⟩
  cases event with
  | tick | heartbeat => simp [Event.ofTask] at h
  | advance key =>
    simp only [step]
    split <;> exact ⟨rfl, rfl⟩
  | panic key message => exact ⟨rfl, rfl⟩
  | join key =>
    simp only [step, join]
    split
    · exact hspawn _
    · exact hspawn _
    · exact ⟨rfl, rfl⟩
  | deadline =>
    simp only [step, deadline]
    split <;> exact ⟨rfl, rfl⟩

theorem Collecting.Follows.collect (h : c.Follows A C past s) {event : Event}
    (hevent : event.ofTask = true) :
    Collecting.Follows A C past s { c with
      collection := c.collection.step A C c.replies event } where
  now := (c.collection.step_ofTask hevent).1.trans h.now
  sessions := (c.collection.step_ofTask hevent).2.trans h.sessions
  keys := h.keys
  inserted := h.inserted
  emits := by
    obtain ⟨g, collectionID, startedAtMS, sessions, events, hlisted, hg, hv4, hle, hperm, hrun⟩ :=
      h.emits
    refine ⟨g, collectionID, startedAtMS, sessions, events ++ [event], hlisted, hg, hv4, hle, hperm,
      ?_⟩
    rw [Collection.run, List.foldl_append]
    exact congrArg (fun c' : Collection => c'.step A C c.replies event) hrun

/-- A collection starts its tasks when the pool has been listed. -/
theorem Collecting.follows_listed (hs : s.Sound) {states : List Accepting} {l : Listing}
    (h : l.Walked states s) (hstates : states <:+: past)
    (hall : ∀ e ∈ s.pool, l.visited e.1 = true) {held : List (Uuid × Nat)}
    (hperm : held.Perm l.held) (replies : Replies PeerInfo) :
    Collecting.Follows A C past s ⟨held, replies,
      .listed C l.startedAtMS s.now l.collectionID (s.sessionsOf held)⟩ where
  now := rfl
  sessions := rfl
  keys := (hperm.map Prod.fst).nodup_iff.2 h.keys
  inserted e he := h.inserted e (hperm.mem_iff.1 he)
  emits := by
    have hreachable : Gateway.Reachable ⟨s.now, s.sessionsOf held⟩ :=
      Accepting.reachable_sessionsOf hs ((hperm.map Prod.fst).nodup_iff.2 h.keys)
        fun e he => h.inserted e (hperm.mem_iff.1 he)
    exact ⟨⟨s.now, s.sessionsOf held⟩, l.collectionID, l.startedAtMS, s.sessionsOf held, [],
      h.listed hstates hall hperm, hreachable, h.v4, h.started_le, List.Perm.refl _, rfl⟩

end

/-! ## The run of the whole -/

namespace Deployment

variable {PeerInfo : Type} {A : PairAccessors PeerInfo} {C : TelemetryCollector} {codec : Codec}
  {E : Encoding} {past past' : List Accepting} {d : Deployment PeerInfo}

/-- The database is what a run of its own has made it, which has taken in answers only. -/
def Fed (E : Encoding) (d : Deployment PeerInfo) : Prop :=
  ∃ ops, d.db = execAll E ops Db.empty ∧
    ∀ s ∈ accepted E ops Db.empty, ∃ topology ∈ d.answers, topology.received = s

/-- The answer is one that a gateway of sessions alone may give, whose pool has been listed in the
course of `past`. -/
def Emitted (A : PairAccessors PeerInfo) (C : TelemetryCollector) (past : List Accepting)
    (topology : TopologySnapshot) : Prop :=
  ∃ (g : Gateway) (replies : Replies PeerInfo), Listed past topology.startedAtMS g ∧ g.Reachable ∧
    g.Emits A C replies topology.received

/-- The invariant of the whole, after the gateway has been in the states `past`. -/
structure Sound (A : PairAccessors PeerInfo) (C : TelemetryCollector) (E : Encoding)
    (past : List Accepting) (d : Deployment PeerInfo) : Prop where
  gateway : d.gateway.Sound
  last : past.getLast? = some d.gateway
  listing : ∀ l ∈ d.listing, ∃ states, states <:+ past ∧ l.Walked states d.gateway
  collecting : ∀ c ∈ d.collecting, c.Follows A C past d.gateway
  emitted : ∀ topology ∈ d.answers, Emitted A C past topology
  fed : d.Fed E

theorem Emitted.mono {topology : TopologySnapshot} (h : Emitted A C past topology)
    (hpast : past <:+: past') : Emitted A C past' topology := by
  obtain ⟨g, replies, hlisted, hrest⟩ := h
  exact ⟨g, replies, hlisted.mono hpast, hrest⟩

theorem sound_start (now : UInt64) (admissionToken : Option String) :
    (start now admissionToken : Deployment PeerInfo).Sound A C E
      [(start now admissionToken : Deployment PeerInfo).gateway] where
  gateway := Accepting.sound_start now admissionToken
  last := rfl
  listing := by simp [start]
  collecting := by simp [start]
  emitted := by simp [start]
  fed := ⟨[], rfl, by simp [accepted]⟩

/-! ### The gateway -/

/-- While the gateway goes on, the pool is still being listed. -/
theorem Sound.walked (h : d.Sound A C E past) {s : Accepting} (hnow : d.gateway.now ≤ s.now)
    (hinserted : ∀ i m, (d.gateway.conn i).phase.inserted? = some m →
      (s.conn i).phase.inserted? = some m) :
    ∀ l ∈ d.listing, ∃ states, states <:+ past ++ [s] ∧ l.Walked states s := by
  intro l hl
  obtain ⟨states, ⟨before, hsplit⟩, hwalked⟩ := h.listing l hl
  exact ⟨states ++ [s], ⟨before, by rw [← List.append_assoc, hsplit]⟩,
    hwalked.next hnow hinserted⟩

theorem infix_concat (s : Accepting) : past <:+: past ++ [s] :=
  (List.prefix_append past [s]).isInfix

theorem Sound.accept (h : d.Sound A C E past) (event : AcceptEvent) :
    (d.step A C codec E (.accept event)).Sound A C E (past ++ [d.gateway.step event]) where
  gateway := h.gateway.step event
  last := List.getLast?_concat
  listing := h.walked (d.gateway.step_now_le event)
    fun _ _ hinserted => Accepting.step_inserted? hinserted event
  collecting c hc := by
    obtain ⟨c', hc', rfl⟩ := Option.map_eq_some_iff.1 hc
    exact ((h.collecting c' hc').step event).mono (infix_concat _)
  emitted topology ht := (h.emitted topology ht).mono (infix_concat _)
  fed := h.fed

/-- The gateway may stay as it is. -/
theorem Sound.again (h : d.Sound A C E past) : d.Sound A C E (past ++ [d.gateway]) where
  gateway := h.gateway
  last := List.getLast?_concat
  listing := h.walked (UInt64.le_refl _) fun _ _ hinserted => hinserted
  collecting c hc := (h.collecting c hc).mono (infix_concat _)
  emitted topology ht := (h.emitted topology ht).mono (infix_concat _)
  fed := h.fed

/-! ### A collection -/

theorem Sound.begin (h : d.Sound A C E past) (collectionID : Uuid) :
    (d.step A C codec E (.begin collectionID)).Sound A C E past := by
  rw [Deployment.step]
  split
  next hbegin =>
    refine ⟨h.gateway, h.last, fun l hl => ?_, h.collecting, h.emitted, h.fed⟩
    obtain rfl := Option.some.inj hl
    obtain ⟨before, rfl⟩ := List.getLast?_eq_some_iff.1 h.last
    exact ⟨[d.gateway], List.suffix_append _ _, Listing.walked_begin hbegin.2.2⟩
  next => exact h

theorem Sound.visit (h : d.Sound A C E past) (keys : Uuid → Bool) :
    (d.step A C codec E (.visit keys)).Sound A C E past := by
  refine ⟨h.gateway, h.last, fun l hl => ?_, h.collecting, h.emitted, h.fed⟩
  obtain ⟨l', hl', rfl⟩ := Option.map_eq_some_iff.1 hl
  obtain ⟨states, hstates, hwalked⟩ := h.listing l' hl'
  exact ⟨states, hstates, hwalked.visit h.gateway keys⟩

theorem Sound.listed (h : d.Sound A C E past) (held : List (Uuid × Nat))
    (replies : Replies PeerInfo) :
    (d.step A C codec E (.listed held replies)).Sound A C E past := by
  rw [Deployment.step]
  split
  next => exact h
  next l hl =>
    split
    next hlisted =>
      obtain ⟨states, hstates, hwalked⟩ := h.listing l hl
      refine ⟨h.gateway, h.last, by simp, fun c hc => ?_, h.emitted, h.fed⟩
      obtain rfl := Option.some.inj hc
      exact Collecting.follows_listed h.gateway hwalked hstates.isInfix hlisted.2 hlisted.1 replies
    next => exact h

theorem Sound.collect (h : d.Sound A C E past) (event : Event) :
    (d.step A C codec E (.collect event)).Sound A C E past := by
  rw [Deployment.step]
  split
  next hevent =>
    refine ⟨h.gateway, h.last, h.listing, fun c hc => ?_, h.emitted, h.fed⟩
    obtain ⟨c', hc', rfl⟩ := Option.map_eq_some_iff.1 hc
    exact (h.collecting c' hc').collect hevent
  next => exact h

/-- What the collection returns is emitted. -/
theorem emitted_of_follows {s : Accepting} {c : Collecting PeerInfo} (h : c.Follows A C past s)
    {topology : TopologySnapshot} (hsnapshot : c.collection.snapshot? = some topology.received) :
    Emitted A C past topology := by
  obtain ⟨g, collectionID, startedAtMS, sessions, events, hlisted, hg, hv4, hle, hperm, hrun⟩ :=
    h.emits
  have hstarted : topology.startedAtMS = startedAtMS := by
    have heq := Collection.snapshot?_startedAtMS hsnapshot
    rw [hrun, (Collection.run_begun _ events).2] at heq
    exact heq
  exact ⟨g, c.replies, hstarted ▸ hlisted, hg, collectionID, startedAtMS, sessions, events, hv4,
    hle, hperm, hrun ▸ hsnapshot⟩

theorem Sound.answer (h : d.Sound A C E past) (topology : TopologySnapshot) :
    (d.step A C codec E (.answer topology)).Sound A C E past := by
  rw [Deployment.step]
  split
  next => exact h
  next c hc =>
    split
    next hsnapshot =>
      refine ⟨h.gateway, h.last, h.listing, by simp, fun t ht => ?_, ?_⟩
      · rcases List.mem_append.1 ht with ht | ht
        · exact h.emitted t ht
        · obtain rfl := List.mem_singleton.1 ht
          exact emitted_of_follows (h.collecting c hc) hsnapshot
      · obtain ⟨ops, hdb, hall⟩ := h.fed
        refine ⟨ops, hdb, fun s hs => ?_⟩
        obtain ⟨t, ht, heq⟩ := hall s hs
        exact ⟨t, List.mem_append_left _ ht, heq⟩
    next => exact h

/-! ### The database -/

/-- A statement that takes in nothing but answers. -/
theorem Fed.exec (h : d.Fed E) (op : Op)
    (hop : ∀ s, op.accepted E d.db = some s → ∃ topology ∈ d.answers, topology.received = s) :
    Fed E { d with db := op.exec E d.db } := by
  obtain ⟨ops, hdb, hall⟩ := h
  refine ⟨ops ++ [op], by rw [execAll_concat, ← hdb], fun s hs => ?_⟩
  rw [accepted_concat, ← hdb] at hs
  rcases List.mem_append.1 hs with hs | hs
  · exact hall s hs
  · exact hop s (Option.mem_toList.1 hs)

/-- The snapshot that an ingestion takes in is the one it is called with. -/
theorem accepted_ingest {db : Db} {now : Timestamp} {snapshot s : Snapshot}
    (h : (Op.ingest now snapshot).accepted E db = some s) : s = snapshot := by
  obtain ⟨now', snapshot', ha, -, heq, -⟩ | ⟨ha, -⟩ := (Op.ingest now snapshot).accepted_cases E db
  · rw [ha] at h
    obtain ⟨rfl, rfl⟩ := Op.ingest.inj heq
    exact (Option.some.inj h).symm
  · simp [ha] at h

/-- Retention takes in nothing. -/
theorem accepted_retain {db : Db} {op : Op} (hop : ∀ now snapshot, op ≠ .ingest now snapshot) :
    op.accepted E db = none := by
  cases op with
  | ingest now snapshot => exact absurd rfl (hop now snapshot)
  | deleteMetricSamples | prunePayloads => rfl

theorem Sound.poll (hC : codec.Exact) (h : d.Sound A C E past) (now : Timestamp) (n : Nat) :
    (d.step A C codec E (.poll now n)).Sound A C E past := by
  rw [Deployment.step]
  split
  next => exact h
  next topology htopology =>
    split
    next => exact h
    next snapshot hfetch =>
      obtain ⟨-, rfl, -⟩ := (fetchAnswer_serialize hC).1 hfetch
      refine ⟨h.gateway, h.last, h.listing, h.collecting, h.emitted, h.fed.exec _ fun s hs => ?_⟩
      exact ⟨topology, List.mem_of_getElem? htopology, by rw [accepted_ingest hs]⟩

theorem Sound.retain (h : d.Sound A C E past) (op : Op) :
    (d.step A C codec E (.retain op)).Sound A C E past := by
  have hretain : (∀ now snapshot, op ≠ .ingest now snapshot) →
      Sound A C E past { d with db := op.exec E d.db } := by
    intro hop
    refine ⟨h.gateway, h.last, h.listing, h.collecting, h.emitted, h.fed.exec _ fun s hs => ?_⟩
    simp [accepted_retain hop] at hs
  cases op with
  | ingest => exact h
  | deleteMetricSamples | prunePayloads => exact hretain nofun

/-! ### Any step -/

/-- **Every step keeps the invariant.** -/
theorem Sound.step (hC : codec.Exact) (h : d.Sound A C E past)
    (event : DeploymentEvent PeerInfo) :
    (d.step A C codec E event).Sound A C E (past ++ [(d.step A C codec E event).gateway]) := by
  cases event with
  | accept event => exact h.accept event
  | begin collectionID => exact (h.begin collectionID).again
  | visit keys => exact (h.visit keys).again
  | listed held replies => exact (h.listed held replies).again
  | collect event => exact (h.collect event).again
  | answer topology => exact (h.answer topology).again
  | poll now n => exact (h.poll hC now n).again
  | retain op => exact (h.retain op).again

variable (A C codec E) in
/-- The states of the gateway in the course of the events. -/
def gateways (now : UInt64) (admissionToken : Option String)
    (events : List (DeploymentEvent PeerInfo)) : List Accepting :=
  events.inits.map fun before => ((start now admissionToken).run A C codec E before).gateway

theorem sound_run (hC : codec.Exact) (now : UInt64) (admissionToken : Option String)
    (events : List (DeploymentEvent PeerInfo)) :
    ((start now admissionToken).run A C codec E events).Sound A C E
      (gateways A C codec E now admissionToken events) := by
  induction events using List.reverseRecOn with
  | nil => exact sound_start now admissionToken
  | append_singleton events event ih =>
    have hgateways : gateways A C codec E now admissionToken (events ++ [event]) =
        gateways A C codec E now admissionToken events ++
          [((start now admissionToken).run A C codec E (events ++ [event])).gateway] := by
      simp [gateways, List.inits_append]
    rw [hgateways, run, List.foldl_append]
    exact ih.step hC event

/-- **The whole refines its parts.**  In every run, each answer is one that `Gateway.Emits` allows
of sessions that have been listed, from the time it gives as its start on: under each key, what the
pool had there at some time of the listing.  And the database is what a run of statements makes of
an empty one, if nothing but answers is ingested. -/
theorem run_refines (A : PairAccessors PeerInfo) (C : TelemetryCollector) (E : Encoding)
    (hC : codec.Exact) (now : UInt64) (admissionToken : Option String)
    (events : List (DeploymentEvent PeerInfo)) :
    let d := (start now admissionToken).run A C codec E events
    (∀ topology ∈ d.answers, ∃ (g : Gateway) (replies : Replies PeerInfo),
      Listed (gateways A C codec E now admissionToken events) topology.startedAtMS g ∧
        g.Reachable ∧ g.Emits A C replies topology.received) ∧
    ∃ ops, d.db = execAll E ops Db.empty ∧
      ∀ s ∈ accepted E ops Db.empty, ∃ topology ∈ d.answers, topology.received = s := by
  have h := sound_run (A := A) (C := C) (E := E) hC now admissionToken events
  exact ⟨h.emitted, h.fed⟩

/-! ### Answers -/

/-- A collection that has ended can be answered. -/
theorem answers_of_snapshot {topology : TopologySnapshot}
    (h : d.collecting.bind (fun c => c.collection.snapshot?) = some topology.received) :
    (d.step A C codec E (.answer topology)).answers = d.answers ++ [topology] := by
  obtain ⟨c, hc, hsnapshot⟩ := Option.bind_eq_some_iff.1 h
  rw [step, hc]
  simp [hsnapshot]

/-- What has been answered stays so. -/
theorem answers_step (event : DeploymentEvent PeerInfo) :
    d.answers ⊆ (d.step A C codec E event).answers := by
  cases event with
  | accept | visit => exact List.Subset.refl _
  | begin | collect =>
    rw [Deployment.step]
    split <;> exact List.Subset.refl _
  | listed held replies =>
    rw [Deployment.step]
    split
    · exact List.Subset.refl _
    · split <;> exact List.Subset.refl _
  | answer topology =>
    rw [Deployment.step]
    split
    · exact List.Subset.refl _
    · split
      · exact List.subset_append_left _ _
      · exact List.Subset.refl _
  | poll now n =>
    rw [Deployment.step]
    split
    · exact List.Subset.refl _
    · split <;> exact List.Subset.refl _
  | retain op => cases op <;> exact List.Subset.refl _

theorem answers_run (events : List (DeploymentEvent PeerInfo)) :
    d.answers ⊆ (d.run A C codec E events).answers := by
  induction events generalizing d with
  | nil => exact List.Subset.refl _
  | cons event events ih => exact List.Subset.trans (answers_step event) ih

theorem run_append (d : Deployment PeerInfo) (events events' : List (DeploymentEvent PeerInfo)) :
    d.run A C codec E (events ++ events') =
      (d.run A C codec E events).run A C codec E events' :=
  List.foldl_append

/-! ### One client registers late, and the other leaves early -/

def renamed : HeartbeatRequest :=
  { Accepting.tokenHeartbeat 2 "token" with
    hostname := "edge-2" }

def wholeTopology : TopologySnapshot where
  schemaVersion := schemaVersion
  collectionID := 0x11111111111141118111111111111111
  startedAtMS := 1000
  completedAtMS := 2300
  collectedAtMS := 2300
  machines :=
    [{ session := ⟨1, "udp://203.0.113.10:42000", "edge", "2.6.4", "2026-07-29T18:00:00+08:00",
          1000, 1000, [], none⟩
       observedAtMS := 2200
       instances := [⟨11, 2100, none, [], [], []⟩]
       errors := [] },
     { session := ⟨2, "udp://203.0.113.12:42000", "edge-2", "2.6.4", "2026-07-29T18:00:00+08:00",
          1000, 2000, [], none⟩
       observedAtMS := 2200
       instances := [⟨12, 2100, none, [], [], []⟩]
       errors := [] }]
  errors := []

/-- The first client registers, and a collection starts.  The second client registers while the pool
is being listed. -/
def listedLate : List (DeploymentEvent Empty) :=
  let register := Accepting.twoRegister.map DeploymentEvent.accept
  register.take 15 ++
    (.begin 0x11111111111141118111111111111111 :: .visit (fun key => key = 1) ::
      (register.drop 15 ++
        [.visit fun _ => true, .listed [(1, 0), (2, 2)] (oneInstanceEach (· + 10))]))

/-- Later it has a new name, and the first client closes its connection. -/
def collectedLate : List (DeploymentEvent Empty) :=
  [.accept (.tick 2000), .accept (.conn 2 (.heartbeat renamed)), .collect (.advance 1),
    .collect (.advance 2), .accept (.tick 2100), .collect (.advance 2), .collect (.advance 2),
    .collect (.advance 1), .collect (.advance 1), .accept (.conn 0 .closed), .accept (.tick 2200),
    .collect (.advance 2), .collect (.join 2), .accept (.conn 0 .poll), .accept (.remove 0),
    .collect (.advance 1), .collect (.join 1), .accept (.tick 2300)]

def answeredRun : List (DeploymentEvent Empty) :=
  listedLate ++ collectedLate ++ [.answer wholeTopology]

/-- The answer is received twice. -/
def wholeRun : List (DeploymentEvent Empty) := answeredRun ++ [.poll 5000000 0, .poll 6000000 0]

theorem answers_answeredRun :
    ((start 1000 (some "token")).run noPeers sampleCollector plainCodec sampleEncoding
      answeredRun).answers = [wholeTopology] := by
  have hcollected : (((start 1000 (some "token")).run noPeers sampleCollector plainCodec
      sampleEncoding (listedLate ++ collectedLate)).collecting.bind
        fun c => c.collection.snapshot?) = some wholeTopology.received := by
    decide +kernel
  have hnone : ((start 1000 (some "token")).run noPeers sampleCollector plainCodec sampleEncoding
      (listedLate ++ collectedLate)).answers.isEmpty = true := by
    decide +kernel
  have hanswers := @answers_of_snapshot Empty noPeers sampleCollector plainCodec sampleEncoding _ _
    hcollected
  rw [List.isEmpty_iff.1 hnone] at hanswers
  rw [answeredRun, run_append]
  exact hanswers

theorem run_refines_wholeRun :
    ((start 1000 (some "token")).run noPeers sampleCollector plainCodec sampleEncoding
        wholeRun).db.machines.toList.map (fun e => (e.1, e.2.value.hostname)) =
          [(1, "edge"), (2, "edge-2")] ∧
      ∃ (g : Gateway) (replies : Replies Empty),
        Listed (gateways noPeers sampleCollector plainCodec sampleEncoding 1000 (some "token")
          wholeRun) 1000 g ∧
          g.Reachable ∧ g.Emits noPeers sampleCollector replies wholeTopology.received := by
  obtain ⟨hemitted, -⟩ := run_refines noPeers sampleCollector sampleEncoding plainCodec_exact 1000
    (some "token") wholeRun
  have hmem : wholeTopology ∈ ((start 1000 (some "token")).run noPeers sampleCollector plainCodec
      sampleEncoding wholeRun).answers := by
    have hanswered : wholeTopology ∈ ((start 1000 (some "token")).run noPeers sampleCollector
        plainCodec sampleEncoding answeredRun).answers := by
      rw [answers_answeredRun]
      exact List.mem_singleton_self _
    rw [wholeRun, run_append]
    exact answers_run _ hanswered
  exact ⟨by decide +kernel, hemitted wholeTopology hmem⟩

end Deployment

end NexusTier
