import NexusTier.Gateway.Admission
import NexusTier.Gateway.Lifecycle

/-!
# Listing the pool

A collection begins with `SessionPool::sessions`, which walks over a `DashMap` one shard after the
other.  The tasks of other connections insert and remove sessions in the meantime, so what it
returns need never have been the pool: with one session there and then gone, and another one
inserted into a later shard, both are listed.

## What is here

* `Listing` — the walk on its way, and `Listing.visit`, one step of it.
* `Lists` — what such a walk may return while the gateway goes through given states: under every
  key, what the pool has there in one of them.
* `Listing.Walked` — the invariant of the walk; a step of the gateway keeps it
  (`Listing.Walked.next`), so does a visit (`Listing.Walked.visit`), and at the end it gives `Lists`
  (`Listing.Walked.listed`).
* `Accepting.reachable_sessionsOf` — although the sessions that have been listed were perhaps never
  together in the pool, they are a pool that a gateway may have.  So all that has been proved of
  `Gateway.Emits` holds of a collection of them.

## What is left out

Which keys share a shard is up to a hash with a random seed.  A walk may visit any set of keys
here, in any order, one shard at a time or many.
-/

set_option autoImplicit false

namespace NexusTier

/-! ## Sessions that have been inserted -/

theorem AcceptPhase.machineID?_of_inserted? {phase : AcceptPhase} {m : Uuid}
    (h : phase.inserted? = some m) : phase.machineID? = some m := by
  cases phase <;> simp_all [inserted?, machineID?]

namespace Accepting

variable {s : Accepting} {i : Nat} {m : Uuid}

/-- A session that has been inserted is left alone by a step, or takes a heartbeat. -/
theorem step_session_of_inserted (h : (s.conn i).phase.inserted? = some m) (event : AcceptEvent) :
    ((s.step event).conn i).session = (s.conn i).session ∨
      ∃ request, (s.conn i).session.heartbeat s.now request =
        .ok ((s.step event).conn i).session := by
  obtain heq | habsent | hb := s.step_session_cases event i
  · exact .inl heq
  · rw [habsent] at h
    simp [AcceptPhase.inserted?] at h
  · exact .inr hb

/-- A task that has inserted its session stays with the machine. -/
theorem step_inserted? (h : (s.conn i).phase.inserted? = some m) (event : AcceptEvent) :
    ((s.step event).conn i).phase.inserted? = some m := by
  obtain ⟨hconn, -⟩ | ⟨j, e, -, -, hconn⟩ | ⟨j, k, -, hphase, hconn, -⟩ |
    ⟨j, k, previous, -, hphase, -, hconn⟩ | ⟨j, k, -, hphase, hconn, -⟩ := s.step_cases event
  · rwa [hconn]
  · by_cases hij : i = j
    · subst hij
      rw [hconn, modify_conn_self, Connection.step_inserted?, h]
    · rwa [hconn, modify_conn_of_ne hij]
  · by_cases hij : i = j
    · subst hij
      simp [hphase, AcceptPhase.inserted?] at h
    · rwa [hconn, insert_conn_of_ne hij]
  · have hhalt : ((s.halt previous).conn i).phase = (s.conn i).phase := by
      by_cases hp : i = previous
      · subst hp
        simp [halt]
      · rw [halt_conn_of_ne hp]
    by_cases hij : i = j
    · subst hij
      obtain rfl : k = m := by simpa [hphase, AcceptPhase.inserted?] using h
      simp [hconn, goto, AcceptPhase.inserted?]
    · rwa [hconn, goto_conn_of_ne hij, hhalt]
  · by_cases hij : i = j
    · subst hij
      obtain rfl : k = m := by simpa [hphase, AcceptPhase.inserted?] using h
      simp [hconn, removeIfCurrent_conn_self, AcceptPhase.inserted?]
    · rwa [hconn, removeIfCurrent_conn_of_ne hij]

/-- Sessions of the gateway, as they are by now. -/
def sessionsOf (s : Accepting) (held : List (Uuid × Nat)) : List (Uuid × GatewaySession) :=
  held.map fun e => (e.1, (s.conn e.2).session)

end Accepting

/-- Sessions that are what they claim to be may all be in a pool. -/
theorem Gateway.reachable_of_lived {now : UInt64} {pool : List (Uuid × GatewaySession)}
    (hkeys : (pool.map Prod.fst).Nodup)
    (h : ∀ e ∈ pool, e.2.Lived now ∧ e.2.machineID = .ok e.1) : Gateway.Reachable ⟨now, pool⟩ := by
  induction pool with
  | nil => exact .start now
  | cons e pool ih =>
    rw [List.map_cons, List.nodup_cons] at hkeys
    have hpool := ih hkeys.2 fun e' he' => h e' (List.mem_cons_of_mem _ he')
    obtain ⟨hlived, hid⟩ := h e List.mem_cons_self
    have hfresh : (pool.filter fun e' => e'.1 ≠ e.1) = pool := by
      refine List.filter_eq_self.2 fun e' he' => ?_
      have hne : e'.1 ≠ e.1 := by
        intro heq
        exact hkeys.1 (heq ▸ List.mem_map_of_mem he')
      simpa using hne
    have hinsert := hpool.insert hlived hid
    rwa [hfresh] at hinsert

theorem Accepting.reachable_sessionsOf {s : Accepting} (hs : s.Sound) {held : List (Uuid × Nat)}
    (hkeys : (held.map Prod.fst).Nodup)
    (hheld : ∀ e ∈ held, (s.conn e.2).phase.inserted? = some e.1) :
    Gateway.Reachable ⟨s.now, s.sessionsOf held⟩ := by
  have hsame : (s.sessionsOf held).map Prod.fst = held.map Prod.fst := List.map_map
  refine Gateway.reachable_of_lived (hsame ▸ hkeys) fun e he => ?_
  obtain ⟨⟨m, i⟩, hmem, rfl⟩ := List.mem_map.1 he
  have hconn := hs.conns i
  exact ⟨hconn.lived, hconn.registered m (AcceptPhase.machineID?_of_inserted? (hheld _ hmem))⟩

/-! ## Looking up -/

section

variable {α : Type} {l l' : List (Uuid × α)} {key : Uuid}

theorem lookup_eq_none (h : key ∉ l.map Prod.fst) : l.lookup key = none := by
  rw [List.lookup_eq_none_iff]
  rintro ⟨key', a⟩ hmem
  have hne : key ≠ key' := by
    rintro rfl
    exact h (List.mem_map.2 ⟨_, hmem, rfl⟩)
  simpa using hne

theorem lookup_of_perm (hkeys : (l'.map Prod.fst).Nodup) (h : l.Perm l') :
    l.lookup key = l'.lookup key := by
  by_cases hkey : key ∈ l'.map Prod.fst
  · obtain ⟨⟨_, a⟩, hmem, rfl⟩ := List.mem_map.1 hkey
    rw [lookup_of_mem hkeys hmem,
      lookup_of_mem ((h.map Prod.fst).nodup_iff.2 hkeys) (h.mem_iff.2 hmem)]
  · rw [lookup_eq_none hkey, lookup_eq_none fun hmem => hkey ((h.map Prod.fst).mem_iff.1 hmem)]

theorem lookup_filter_key {p : Uuid → Bool} (hp : p key = true) :
    (l.filter fun e => p e.1).lookup key = l.lookup key := by
  induction l with
  | nil => rfl
  | cons e l ih =>
    obtain ⟨key', a⟩ := e
    by_cases hkey : key = key'
    · subst hkey
      rw [List.filter_cons_of_pos (by exact hp), List.lookup_cons_self, List.lookup_cons_self]
    · have hbeq : (key == key') = false := beq_false_of_ne hkey
      by_cases hp' : p key' = true
      · rw [List.filter_cons_of_pos (by exact hp'), List.lookup_cons, List.lookup_cons, hbeq, ih]
      · rw [List.filter_cons_of_neg (by exact hp'), List.lookup_cons, hbeq, ih]

end

/-! ## The walk -/

/-- `sessions()` on its way, for a collection that has read the clock. -/
structure Listing where
  collectionID : Uuid
  startedAtMS : UInt64
  /-- The keys of the shards that have been visited. -/
  visited : Uuid → Bool
  held : List (Uuid × Nat)

/-- The walk visits the shards of some keys, and takes what the pool has there. -/
def Listing.visit (keys : Uuid → Bool) (pool : List (Uuid × Nat)) (l : Listing) : Listing :=
  { l with
    visited := fun key => l.visited key || keys key
    held := l.held ++ pool.filter fun e => !l.visited e.1 && keys e.1 }

/-- What may be listed while the gateway goes through `states`: under every key, what the pool has
there in one of these states. -/
structure Lists (states : List Accepting) (held : List (Uuid × Nat)) : Prop where
  keys : (held.map Prod.fst).Nodup
  agrees : ∀ key, ∃ s ∈ states, held.lookup key = s.pool.lookup key

/-- The pool of `g` has been listed in the course of `past`, from time `startedAtMS` on; the
sessions are as they were at the end. -/
def Listed (past : List Accepting) (startedAtMS : UInt64) (g : Gateway) : Prop :=
  ∃ states s held, states <:+: past ∧ states.head?.map Accepting.now = some startedAtMS ∧
    states.getLast? = some s ∧ Lists states held ∧ g = ⟨s.now, s.sessionsOf held⟩

theorem Listed.mono {past past' : List Accepting} {startedAtMS : UInt64} {g : Gateway}
    (h : Listed past startedAtMS g) (hpast : past <:+: past') : Listed past' startedAtMS g := by
  obtain ⟨states, s, held, hstates, hrest⟩ := h
  exact ⟨states, s, held, hstates.trans hpast, hrest⟩

/-- The invariant of a walk in whose course the gateway has gone through `states`, up to `s`. -/
structure Listing.Walked (states : List Accepting) (s : Accepting) (l : Listing) : Prop where
  first : states.head?.map Accepting.now = some l.startedAtMS
  last : states.getLast? = some s
  started_le : l.startedAtMS ≤ s.now
  v4 : l.collectionID.IsV4
  keys : (l.held.map Prod.fst).Nodup
  visited : ∀ e ∈ l.held, l.visited e.1 = true
  inserted : ∀ e ∈ l.held, (s.conn e.2).phase.inserted? = some e.1
  agrees : ∀ key, l.visited key = true → ∃ s' ∈ states, l.held.lookup key = s'.pool.lookup key

namespace Listing

variable {states : List Accepting} {s s' : Accepting} {l : Listing}

theorem walked_begin {collectionID : Uuid} (hv4 : collectionID.IsV4) :
    Walked [s] s ⟨collectionID, s.now, fun _ => false, []⟩ where
  first := rfl
  last := rfl
  started_le := UInt64.le_refl _
  v4 := hv4
  keys := List.nodup_nil
  visited := by simp
  inserted := by simp
  agrees := by simp

/-- The gateway goes on. -/
theorem Walked.next (h : l.Walked states s) (hnow : s.now ≤ s'.now)
    (hinserted : ∀ i m, (s.conn i).phase.inserted? = some m →
      (s'.conn i).phase.inserted? = some m) : l.Walked (states ++ [s']) s' where
  first := by
    rw [List.head?_append, Option.map_or, h.first]
    rfl
  last := List.getLast?_concat
  started_le := UInt64.le_trans h.started_le hnow
  v4 := h.v4
  keys := h.keys
  visited := h.visited
  inserted e he := hinserted _ _ (h.inserted e he)
  agrees key hkey := by
    obtain ⟨s'', hmem, heq⟩ := h.agrees key hkey
    exact ⟨s'', List.mem_append_left _ hmem, heq⟩

/-- What has been listed under a key that the walk has not visited is nothing. -/
theorem Walked.lookup_unvisited (h : l.Walked states s) {key : Uuid}
    (hkey : ¬ l.visited key = true) : l.held.lookup key = none := by
  refine lookup_eq_none fun hmem => hkey ?_
  obtain ⟨e, he, rfl⟩ := List.mem_map.1 hmem
  exact h.visited e he

/-- **A visit takes over what is in the pool now.** -/
theorem Walked.visit (h : l.Walked states s) (hs : s.Sound) (keys : Uuid → Bool) :
    (l.visit keys s.pool).Walked states s where
  first := h.first
  last := h.last
  started_le := h.started_le
  v4 := h.v4
  keys := by
    show (List.map Prod.fst (l.held ++ _)).Nodup
    rw [List.map_append, List.nodup_append']
    refine ⟨h.keys, hs.keys.sublist (List.filter_sublist.map _), ?_⟩
    intro key hheld hnew
    obtain ⟨e, he, rfl⟩ := List.mem_map.1 hheld
    obtain ⟨e', he', heq⟩ := List.mem_map.1 hnew
    have hunvisited := (List.mem_filter.1 he').2
    simp [heq, h.visited e he] at hunvisited
  visited e he := by
    show (l.visited e.1 || keys e.1) = true
    rcases List.mem_append.1 he with he | he
    · rw [h.visited e he, Bool.true_or]
    · have hp := (List.mem_filter.1 he).2
      simp only [Bool.and_eq_true] at hp
      rw [hp.2, Bool.or_true]
  inserted e he := by
    rcases List.mem_append.1 he with he | he
    · exact h.inserted e he
    · exact AcceptPhase.inserted?_of_pooled? (hs.pool e (List.mem_of_mem_filter he))
  agrees key hkey := by
    have hvisited : (l.visited key || keys key) = true := hkey
    show ∃ s' ∈ states, (l.held ++ _).lookup key = _
    by_cases hbefore : l.visited key = true
    · obtain ⟨s', hmem, heq⟩ := h.agrees key hbefore
      have hnew : (s.pool.filter fun e => !l.visited e.1 && keys e.1).lookup key = none := by
        refine lookup_eq_none fun hmem => ?_
        obtain ⟨e, he, rfl⟩ := List.mem_map.1 hmem
        have hunvisited := (List.mem_filter.1 he).2
        simp [hbefore] at hunvisited
      exact ⟨s', hmem, by rw [List.lookup_append, hnew, Option.or_none, heq]⟩
    · have hnow : (!l.visited key && keys key) = true := by
        simpa [hbefore] using hvisited
      refine ⟨s, List.mem_of_getLast? h.last, ?_⟩
      rw [List.lookup_append, h.lookup_unvisited hbefore, Option.none_or]
      exact @lookup_filter_key _ _ key (fun key => !l.visited key && keys key) hnow

/-- **When every shard has been visited, the pool has been listed.** -/
theorem Walked.listed (h : l.Walked states s) {past : List Accepting} (hpast : states <:+: past)
    (hall : ∀ e ∈ s.pool, l.visited e.1 = true) {held : List (Uuid × Nat)}
    (hperm : held.Perm l.held) : Listed past l.startedAtMS ⟨s.now, s.sessionsOf held⟩ := by
  refine ⟨states, s, held, hpast, h.first, h.last, ⟨(hperm.map Prod.fst).nodup_iff.2 h.keys,
    fun key => ?_⟩, rfl⟩
  rw [lookup_of_perm h.keys hperm]
  by_cases hkey : l.visited key = true
  · exact h.agrees key hkey
  · refine ⟨s, List.mem_of_getLast? h.last, ?_⟩
    rw [h.lookup_unvisited hkey, lookup_eq_none fun hmem => hkey ?_]
    obtain ⟨e, he, rfl⟩ := List.mem_map.1 hmem
    exact hall e he

end Listing

end NexusTier
