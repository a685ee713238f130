import NexusTier.Gateway.Admission

/-!
# Replacing and removing sessions

Connections of one machine follow each other faster than their tasks do: while `A` is still
waiting for its session to end, `B` may have replaced it and `C` may have replaced `B`, and the
removals come last and in any order.  `Accepting.Owned` is what holds throughout.  A session that
was inserted and has left the pool either ended by itself and was removed by its own task, or there
is one task, and only one, that took it out of the pool and that has stopped it or is about to.

`sessions_owned` draws the conclusions: a task that has returned has no session in the pool, a
removal takes out no session but its own, and no replaced session goes on running with nobody to
stop it.

## What is here

* `Accepting.Owned`: the invariant.  `Accepting.Inserted` and `Accepting.Removed` say what an
  insertion and a removal have done, and the lemmas under them keep it part by part.
* `Owned.step` and `Owned.run`: so does every step, and every run.
* `SessionsOwned` and `sessions_owned`: what it comes to.

## What is left out

That a task which is about to stop a session does so at last.  This is about what holds in every
state, and not about schedules.
-/

set_option autoImplicit false

namespace NexusTier

/-- The machine id of a task that has inserted its session. -/
def AcceptPhase.inserted? : AcceptPhase → Option Uuid
  | stopping m _ | polling m | removing m | disconnected m _ => some m
  | _ => none

/-- Has the task returned? -/
def AcceptPhase.Returned : AcceptPhase → Prop
  | disconnected _ _ | rejected _ => True
  | _ => False

theorem AcceptPhase.inserted?_of_pooled? {phase : AcceptPhase} {m : Uuid}
    (h : phase.pooled? = some m) : phase.inserted? = some m := by
  cases phase <;> simp_all [pooled?, inserted?]

namespace Connection

variable {admissionToken : Option String} {now : UInt64} {time : Nat} {c : Connection}

@[simp] theorem step_replaced (event : ConnectionEvent) :
    (c.step admissionToken now time event).replaced = c.replaced := by
  cases event <;> rw [step]
  all_goals first | rfl | (split <;> rfl)

@[simp] theorem step_inserted? (event : ConnectionEvent) :
    (c.step admissionToken now time event).phase.inserted? = c.phase.inserted? := by
  have hfirst : c.firstSnapshot.inserted? = none := by
    rw [firstSnapshot]
    split
    · rfl
    · split <;> rfl
  cases event <;> rw [step]
  all_goals first | rfl | (split <;> simp_all [AcceptPhase.inserted?])

/-- Once a session is inserted, its own steps only let it end, and its task notice. -/
theorem step_of_inserted {m : Uuid} (h : c.phase.inserted? = some m) (event : ConnectionEvent) :
    (c.running = false → (c.step admissionToken now time event).running = false) ∧
      ((c.step admissionToken now time event).phase = c.phase ∨
        c.phase = .polling m ∧ c.running = false ∧
          (c.step admissionToken now time event).phase = .removing m) := by
  cases event <;> rw [step]
  all_goals first | exact ⟨id, .inl rfl⟩ | exact ⟨fun _ => rfl, .inl rfl⟩ |
    (split <;> simp_all [AcceptPhase.inserted?])

end Connection

namespace Accepting

/-- The task of connection `j` has taken the session of connection `i` out of the pool, where it
stood under `m`, and has stopped it or is about to. -/
structure Replaces (s : Accepting) (m : Uuid) (j i : Nat) : Prop where
  ne : j ≠ i
  inserted : (s.conn i).phase.inserted? = some m
  replacer : (s.conn j).phase.inserted? = some m
  gone : (m, i) ∉ s.pool
  kept : (s.conn i).phase ≠ .disconnected m true
  stops : (s.conn j).phase = .stopping m i ∨ (s.conn i).running = false

/-- The invariant of the sessions that have been inserted. -/
structure Owned (s : Accepting) : Prop where
  replaces : ∀ j i, (s.conn j).replaced = some i → ∃ m, s.Replaces m j i
  unique : ∀ j j' i, (s.conn j).replaced = some i → (s.conn j').replaced = some i → j = j'
  stopping : ∀ j m i, (s.conn j).phase = .stopping m i → (s.conn j).replaced = some i
  ended : ∀ i m, ((s.conn i).phase = .removing m ∨ ∃ removed,
    (s.conn i).phase = .disconnected m removed) → (s.conn i).running = false
  owned : ∀ i m, (s.conn i).phase.inserted? = some m →
    (m, i) ∈ s.pool ∨ (s.conn i).phase = .disconnected m true ∨ ∃ j, (s.conn j).replaced = some i

theorem owned_start (now : UInt64) (admissionToken : Option String) :
    (start now admissionToken).Owned := by
  constructor <;> simp [start, Connection.absent, AcceptPhase.inserted?]

variable {s : Accepting}

/-- What the tasks of inserted sessions do without touching the pool: they notice that their
session has ended, or stop the one they have replaced. -/
def Moves (s s' : Accepting) (k : Nat) (m : Uuid) : Prop :=
  (s'.conn k).phase = (s.conn k).phase ∨
  ((s.conn k).phase = .polling m ∧ (s'.conn k).running = false ∧ (s'.conn k).phase = .removing m) ∨
  ∃ previous, (s.conn k).phase = .stopping m previous ∧ (s'.conn previous).running = false ∧
    (s'.conn k).phase = .polling m

theorem Owned.quiet (h : s.Owned) {s' : Accepting} (hpool : s'.pool = s.pool)
    (hreplaced : ∀ k, (s'.conn k).replaced = (s.conn k).replaced)
    (hinserted : ∀ k, (s'.conn k).phase.inserted? = (s.conn k).phase.inserted?)
    (hrunning : ∀ k m, (s.conn k).phase.inserted? = some m → (s.conn k).running = false →
      (s'.conn k).running = false)
    (hmoves : ∀ k m, (s.conn k).phase.inserted? = some m → s.Moves s' k m) : s'.Owned := by
  refine ⟨fun j i hj => ?_, fun j j' i hj hj' => ?_, fun j m i hj => ?_, fun i m hi => ?_,
    fun i m hi => ?_⟩
  · obtain ⟨m, hm⟩ := h.replaces j i (by rwa [← hreplaced])
    refine ⟨m, hm.ne, by rw [hinserted]; exact hm.inserted, by rw [hinserted]; exact hm.replacer,
      by rw [hpool]; exact hm.gone, ?_, ?_⟩
    · obtain heq | ⟨-, -, heq⟩ | ⟨p, -, -, heq⟩ := hmoves i m hm.inserted
      · rw [heq]
        exact hm.kept
      · simp [heq]
      · simp [heq]
    · rcases hm.stops with hstops | hstops
      · obtain heq | ⟨hpoll, -⟩ | ⟨p, hp, hstopped, -⟩ := hmoves j m hm.replacer
        · exact .inl (heq.trans hstops)
        · simp [hstops] at hpoll
        · obtain rfl : i = p := by
            rw [hstops] at hp
            exact (AcceptPhase.stopping.inj hp).2
          exact .inr hstopped
      · exact .inr (hrunning i m hm.inserted hstops)
  · exact h.unique j j' i (by rwa [← hreplaced]) (by rwa [← hreplaced])
  · have hm : (s.conn j).phase.inserted? = some m := by
      rw [← hinserted, hj]
      rfl
    obtain heq | ⟨-, -, heq⟩ | ⟨p, -, -, heq⟩ := hmoves j m hm
    · rw [hreplaced]
      exact h.stopping j m i (by rw [← heq, hj])
    · simp [hj] at heq
    · simp [hj] at heq
  · have hm : (s.conn i).phase.inserted? = some m := by
      rw [← hinserted]
      obtain hi | ⟨b, hi⟩ := hi <;> rw [hi] <;> rfl
    obtain heq | ⟨-, hend, -⟩ | ⟨p, -, -, heq⟩ := hmoves i m hm
    · rw [heq] at hi
      exact hrunning i m hm (h.ended i m hi)
    · exact hend
    · simp [heq] at hi
  · have hm : (s.conn i).phase.inserted? = some m := by rw [← hinserted, hi]
    obtain hin | hdone | ⟨j, hj⟩ := h.owned i m hm
    · exact .inl (hpool ▸ hin)
    · obtain heq | ⟨hpoll, -⟩ | ⟨p, hp, -⟩ := hmoves i m hm
      · exact .inr (.inl (heq.trans hdone))
      · simp [hdone] at hpoll
      · simp [hdone] at hp
    · exact .inr (.inr ⟨j, by rw [hreplaced, hj]⟩)

theorem Owned.conn (h : s.Owned) {s' : Accepting} {i : Nat} {e : ConnectionEvent}
    (hpool : s'.pool = s.pool)
    (hconn : s'.conn = (s.modify i fun c => c.step s.admissionToken s.now s.time e).conn) :
    s'.Owned := by
  have hself : s'.conn i = (s.conn i).step s.admissionToken s.now s.time e := by
    rw [hconn, modify_conn_self]
  have hother : ∀ k, k ≠ i → s'.conn k = s.conn k := fun k hk => by rw [hconn, modify_conn_of_ne hk]
  refine h.quiet hpool (fun k => ?_) (fun k => ?_) (fun k m hm hrun => ?_) fun k m hm => ?_
  all_goals by_cases hk : k = i
  · rw [hk, hself, Connection.step_replaced]
  · rw [hother k hk]
  · rw [hk, hself, Connection.step_inserted?]
  · rw [hother k hk]
  · subst hk
    rw [hself]
    exact (Connection.step_of_inserted hm e).1 hrun
  · rwa [hother k hk]
  · subst hk
    obtain heq | ⟨hpoll, hrun, heq⟩ := (Connection.step_of_inserted hm e).2
    · exact .inl (by rw [hself, heq])
    · exact .inr (.inl ⟨hpoll, by rw [hself]; exact (Connection.step_of_inserted hm e).1 hrun,
        by rw [hself, heq]⟩)
  · exact .inl (by rw [hother k hk])

theorem Owned.stop (h : s.Owned) {s' : Accepting} {i previous : Nat} {m : Uuid}
    (hphase : (s.conn i).phase = .stopping m previous) (hpool : s'.pool = s.pool)
    (hconn : s'.conn = ((s.halt previous).goto i (.polling m)).conn) : s'.Owned := by
  obtain ⟨m', hm'⟩ := h.replaces i previous (h.stopping i m previous hphase)
  have hi : s'.conn i = { s.conn i with
      phase := .polling m } := by
    rw [hconn, goto, modify_conn_self, halt_conn_of_ne hm'.ne]
  have hprevious : s'.conn previous = { s.conn previous with
      running := false } := by
    rw [hconn, goto_conn_of_ne hm'.ne.symm, halt, modify_conn_self]
  have hother : ∀ k, k ≠ i → k ≠ previous → s'.conn k = s.conn k := fun k hk hk' => by
    rw [hconn, goto_conn_of_ne hk, halt_conn_of_ne hk']
  have hcases : ∀ k, k = i ∨ k = previous ∨ s'.conn k = s.conn k := by
    intro k
    by_cases hk : k = i
    · exact .inl hk
    · by_cases hk' : k = previous
      · exact .inr (.inl hk')
      · exact .inr (.inr (hother k hk hk'))
  refine h.quiet hpool (fun k => ?_) (fun k => ?_) (fun k m'' hm'' hrun => ?_) fun k m'' hm'' => ?_
  all_goals obtain rfl | rfl | heq := hcases k
  · rw [hi]
  · rw [hprevious]
  · rw [heq]
  · rw [hi, hphase]
    rfl
  · rw [hprevious]
  · rw [heq]
  · rw [hi]
    exact hrun
  · rw [hprevious]
  · rwa [heq]
  · rw [hphase] at hm''
    obtain rfl : m = m'' := Option.some.inj hm''
    exact .inr (.inr ⟨previous, hphase, by rw [hprevious], by rw [hi]⟩)
  · exact .inl (by rw [hprevious])
  · exact .inl (by rw [heq])

theorem mem_insert_pool {i j : Nat} {m k : Uuid} : (k, j) ∈ (s.insert i m).pool ↔
    (k = m ∧ j = i) ∨ ((k, j) ∈ s.pool ∧ k ≠ m) := by
  simp [insert]

/-- The session that is about to be replaced has no replacer yet. -/
theorem Owned.not_replaced_of_mem (h : s.Owned) (hs : s.Sound) {m : Uuid} {i j : Nat}
    (hmem : (m, i) ∈ s.pool) : (s.conn j).replaced ≠ some i := by
  intro hj
  obtain ⟨m', hm'⟩ := h.replaces j i hj
  have hinserted := AcceptPhase.inserted?_of_pooled? (hs.pool _ hmem)
  obtain rfl : m = m' := Option.some.inj (hinserted.symm.trans hm'.inserted)
  exact hm'.gone hmem

/-- What is known of the state in which connection `i` has inserted its session. -/
structure Inserted (s s' : Accepting) (i : Nat) (m : Uuid) : Prop where
  phase : (s'.conn i).phase = afterInsert m (s.pool.lookup m)
  replaced : (s'.conn i).replaced = s.pool.lookup m
  other : ∀ k, k ≠ i → s'.conn k = s.conn k
  fresh : ∀ k m', (s.conn k).phase.inserted? = some m' → k ≠ i
  pool : ∀ k j, (k, j) ∈ s'.pool ↔ (k = m ∧ j = i) ∨ ((k, j) ∈ s.pool ∧ k ≠ m)

theorem inserted_insert {s' : Accepting} {i : Nat} {m : Uuid}
    (hphase : (s.conn i).phase = .inserting m) (hconn : s'.conn = (s.insert i m).conn)
    (hpool : s'.pool = (s.insert i m).pool) : s.Inserted s' i m where
  phase := by rw [hconn, insert_conn_self]
  replaced := by rw [hconn, insert_conn_self]
  other k hk := by rw [hconn, insert_conn_of_ne hk]
  fresh := by
    rintro k m' hk rfl
    simp [hphase, AcceptPhase.inserted?] at hk
  pool k j := by rw [hpool, mem_insert_pool]

section

variable {s' : Accepting} {i j k q : Nat} {m m' : Uuid}

theorem afterInsert_inserted? (previous : Option Nat) :
    (afterInsert m previous).inserted? = some m := by
  cases previous <;> rfl

/-- The new session has replaced the one that stood under its machine id. -/
theorem Inserted.replaces_self (hin : s.Inserted s' i m) (hs : s.Sound)
    (hq : s.pool.lookup m = some q) : s'.Replaces m i q := by
  have hpooled := hs.pool _ (mem_of_lookup hq)
  have hinserted := AcceptPhase.inserted?_of_pooled? hpooled
  have hne := hin.fresh q m hinserted
  have hphase : (s'.conn i).phase = .stopping m q := by rw [hin.phase, hq, afterInsert]
  refine ⟨hne.symm, ?_, ?_, ?_, ?_, .inl hphase⟩
  · rwa [hin.other q hne]
  · rw [hphase]
    rfl
  · rw [hin.pool]
    rintro (⟨-, heq⟩ | ⟨-, hkey⟩)
    · exact hne heq
    · exact hkey rfl
  · rw [hin.other q hne]
    intro hdone
    simp [hdone, AcceptPhase.pooled?] at hpooled

/-- Those that have replaced another one before are as they were. -/
theorem Inserted.replaces_other (hin : s.Inserted s' i m) (hji : j ≠ i)
    (h : s.Replaces m' j q) : s'.Replaces m' j q := by
  have hq := hin.fresh q m' h.inserted
  refine ⟨h.ne, ?_, ?_, ?_, ?_, ?_⟩
  · rw [hin.other q hq]
    exact h.inserted
  · rw [hin.other j hji]
    exact h.replacer
  · rw [hin.pool]
    rintro (⟨-, heq⟩ | ⟨hmem, -⟩)
    · exact hq heq
    · exact h.gone hmem
  · rw [hin.other q hq]
    exact h.kept
  · rw [hin.other j hji, hin.other q hq]
    exact h.stops

theorem Inserted.unique (hin : s.Inserted s' i m) (h : s.Owned) (hs : s.Sound) {j' : Nat}
    (hj : (s'.conn j).replaced = some q) (hj' : (s'.conn j').replaced = some q) : j = j' := by
  by_cases hji : j = i <;> by_cases hji' : j' = i
  · rw [hji, hji']
  · rw [hji, hin.replaced] at hj
    rw [hin.other j' hji'] at hj'
    exact absurd hj' (h.not_replaced_of_mem hs (mem_of_lookup hj))
  · rw [hji', hin.replaced] at hj'
    rw [hin.other j hji] at hj
    exact absurd hj (h.not_replaced_of_mem hs (mem_of_lookup hj'))
  · rw [hin.other j hji] at hj
    rw [hin.other j' hji'] at hj'
    exact h.unique j j' q hj hj'

theorem Inserted.stopping (hin : s.Inserted s' i m) (h : s.Owned)
    (hj : (s'.conn j).phase = .stopping m' q) : (s'.conn j).replaced = some q := by
  by_cases hji : j = i
  · subst hji
    rw [hin.phase] at hj
    rw [hin.replaced]
    cases hl : s.pool.lookup m with
    | none => simp [hl, afterInsert] at hj
    | some previous =>
      rw [hl] at hj
      rw [(AcceptPhase.stopping.inj hj).2]
  · rw [hin.other j hji] at hj ⊢
    exact h.stopping j m' q hj

theorem Inserted.ended (hin : s.Inserted s' i m) (h : s.Owned)
    (hk : (s'.conn k).phase = .removing m' ∨ ∃ removed,
      (s'.conn k).phase = .disconnected m' removed) : (s'.conn k).running = false := by
  by_cases hki : k = i
  · subst hki
    rw [hin.phase] at hk
    cases hl : s.pool.lookup m <;> simp [hl, afterInsert] at hk
  · rw [hin.other k hki] at hk ⊢
    exact h.ended k m' hk

/-- A session that is no longer in the pool has just been replaced. -/
theorem Inserted.owned (hin : s.Inserted s' i m) (h : s.Owned) (hs : s.Sound)
    (hk : (s'.conn k).phase.inserted? = some m') : (m', k) ∈ s'.pool ∨
      (s'.conn k).phase = .disconnected m' true ∨ ∃ j, (s'.conn j).replaced = some k := by
  by_cases hki : k = i
  · subst hki
    rw [hin.phase, afterInsert_inserted?] at hk
    obtain rfl : m = m' := Option.some.inj hk
    exact .inl ((hin.pool m k).2 (.inl ⟨rfl, rfl⟩))
  · rw [hin.other k hki] at hk ⊢
    obtain hmem | hdone | ⟨j, hj⟩ := h.owned k m' hk
    · by_cases hkey : m' = m
      · subst hkey
        exact .inr (.inr ⟨i, by rw [hin.replaced, lookup_of_mem hs.keys hmem]⟩)
      · exact .inl ((hin.pool m' k).2 (.inr ⟨hmem, hkey⟩))
    · exact .inr (.inl hdone)
    · obtain ⟨m'', hm''⟩ := h.replaces j k hj
      exact .inr (.inr ⟨j, by rw [hin.other j (hin.fresh j m'' hm''.replacer), hj]⟩)

theorem Owned.insert (h : s.Owned) (hs : s.Sound) (hin : s.Inserted s' i m) : s'.Owned where
  replaces j q hj := by
    by_cases hji : j = i
    · subst hji
      rw [hin.replaced] at hj
      exact ⟨m, hin.replaces_self hs hj⟩
    · rw [hin.other j hji] at hj
      obtain ⟨m', hm'⟩ := h.replaces j q hj
      exact ⟨m', hin.replaces_other hji hm'⟩
  unique _ _ _ hj hj' := hin.unique h hs hj hj'
  stopping _ _ _ hj := hin.stopping h hj
  ended _ _ hk := hin.ended h hk
  owned _ _ hk := hin.owned h hs hk

end

theorem mem_removeIfCurrent_pool (hs : s.Sound) {i j : Nat} {m k : Uuid}
    (hphase : (s.conn i).phase = .removing m) :
    (k, j) ∈ (s.removeIfCurrent i m).pool ↔ (k, j) ∈ s.pool ∧ j ≠ i := by
  rw [removeIfCurrent]
  split
  next hcurrent =>
    have hmem := mem_of_lookup hcurrent
    rw [List.mem_filter]
    constructor
    · rintro ⟨hin, hkey⟩
      refine ⟨hin, ?_⟩
      rintro rfl
      exact absurd (hs.mem_pool hin hmem) (by simpa using hkey)
    · rintro ⟨hin, hj⟩
      refine ⟨hin, ?_⟩
      have hkey : k ≠ m := by
        rintro rfl
        rw [lookup_of_mem hs.keys hin] at hcurrent
        exact hj (Option.some.inj hcurrent)
      simpa using hkey
  next hcurrent =>
    constructor
    · intro hin
      refine ⟨hin, ?_⟩
      rintro rfl
      have hpooled := hs.pool _ hin
      rw [hphase] at hpooled
      obtain rfl : m = k := Option.some.inj hpooled
      exact hcurrent (lookup_of_mem hs.keys hin)
    · exact fun h => h.1

/-- What is known of the state in which connection `i` has removed its session. -/
structure Removed (s s' : Accepting) (i : Nat) (m : Uuid) : Prop where
  self : s'.conn i = { s.conn i with
    phase := .disconnected m (decide (s.pool.lookup m = some i)) }
  other : ∀ k, k ≠ i → s'.conn k = s.conn k
  replaced : ∀ k, (s'.conn k).replaced = (s.conn k).replaced
  running : ∀ k, (s'.conn k).running = (s.conn k).running
  inserted : ∀ k, (s'.conn k).phase.inserted? = (s.conn k).phase.inserted?
  pool : ∀ k j, (k, j) ∈ s'.pool ↔ (k, j) ∈ s.pool ∧ j ≠ i

theorem removed_removeIfCurrent (hs : s.Sound) {s' : Accepting} {i : Nat} {m : Uuid}
    (hphase : (s.conn i).phase = .removing m) (hconn : s'.conn = (s.removeIfCurrent i m).conn)
    (hpool : s'.pool = (s.removeIfCurrent i m).pool) : s.Removed s' i m := by
  have hself : s'.conn i = { s.conn i with
      phase := .disconnected m (decide (s.pool.lookup m = some i)) } := by
    rw [hconn, removeIfCurrent_conn_self]
  have hother : ∀ k, k ≠ i → s'.conn k = s.conn k := fun k hk => by
    rw [hconn, removeIfCurrent_conn_of_ne hk]
  have hmem : ∀ k j, (k, j) ∈ s'.pool ↔ (k, j) ∈ s.pool ∧ j ≠ i := fun k j => by
    rw [hpool, mem_removeIfCurrent_pool hs hphase]
  refine ⟨hself, hother, fun k => ?_, fun k => ?_, fun k => ?_, hmem⟩
  all_goals by_cases hk : k = i
  · rw [hk, hself]
  · rw [hother k hk]
  · rw [hk, hself]
  · rw [hother k hk]
  · rw [hk, hself, hphase]
    rfl
  · rw [hother k hk]

section

variable {s' : Accepting} {i j k q : Nat} {m m' : Uuid}

/-- A session that was replaced is not taken for the one in its place. -/
theorem Removed.replaces (hrem : s.Removed s' i m) (h : s.Owned) (hs : s.Sound)
    (hphase : (s.conn i).phase = .removing m) (hj : (s.conn j).replaced = some q)
    (hm' : s.Replaces m' j q) : s'.Replaces m' j q := by
  refine ⟨hm'.ne, ?_, ?_, fun hin => hm'.gone ((hrem.pool m' q).1 hin).1, ?_, ?_⟩
  · rw [hrem.inserted]
    exact hm'.inserted
  · rw [hrem.inserted]
    exact hm'.replacer
  · by_cases hq : q = i
    · subst hq
      have hgone : s.pool.lookup m ≠ some q := fun hcurrent =>
        h.not_replaced_of_mem hs (mem_of_lookup hcurrent) hj
      simp [hrem.self, hgone]
    · rw [hrem.other q hq]
      exact hm'.kept
  · rw [hrem.running]
    refine hm'.stops.imp (fun hstops => ?_) id
    have hji : j ≠ i := by
      rintro rfl
      simp [hphase] at hstops
    rw [hrem.other j hji, hstops]

theorem Removed.stopping (hrem : s.Removed s' i m) (h : s.Owned)
    (hj : (s'.conn j).phase = .stopping m' q) : (s'.conn j).replaced = some q := by
  have hji : j ≠ i := by
    rintro rfl
    simp [hrem.self] at hj
  rw [hrem.other j hji] at hj ⊢
  exact h.stopping j m' q hj

theorem Removed.ended (hrem : s.Removed s' i m) (h : s.Owned)
    (hphase : (s.conn i).phase = .removing m)
    (hk : (s'.conn k).phase = .removing m' ∨ ∃ removed,
      (s'.conn k).phase = .disconnected m' removed) : (s'.conn k).running = false := by
  rw [hrem.running]
  by_cases hki : k = i
  · subst hki
    exact h.ended k m (.inl hphase)
  · rw [hrem.other k hki] at hk
    exact h.ended k m' hk

/-- The session is gone by its own task, or was replaced before. -/
theorem Removed.owned_self (hrem : s.Removed s' i m) (h : s.Owned) (hs : s.Sound)
    (hphase : (s.conn i).phase = .removing m) :
    (s'.conn i).phase = .disconnected m true ∨ ∃ j, (s'.conn j).replaced = some i := by
  have hinserted : (s.conn i).phase.inserted? = some m := by
    rw [hphase]
    rfl
  obtain hin | hdone | ⟨j, hj⟩ := h.owned i m hinserted
  · exact .inl (by simp [hrem.self, lookup_of_mem hs.keys hin])
  · simp [hphase] at hdone
  · exact .inr ⟨j, by rw [hrem.replaced, hj]⟩

theorem Removed.owned (hrem : s.Removed s' i m) (h : s.Owned) (hs : s.Sound)
    (hphase : (s.conn i).phase = .removing m) (hk : (s'.conn k).phase.inserted? = some m') :
    (m', k) ∈ s'.pool ∨ (s'.conn k).phase = .disconnected m' true ∨
      ∃ j, (s'.conn j).replaced = some k := by
  rw [hrem.inserted] at hk
  by_cases hki : k = i
  · subst hki
    rw [hphase] at hk
    obtain rfl : m = m' := Option.some.inj hk
    exact .inr (hrem.owned_self h hs hphase)
  · obtain hin | hdone | ⟨j, hj⟩ := h.owned k m' hk
    · exact .inl ((hrem.pool m' k).2 ⟨hin, hki⟩)
    · exact .inr (.inl (by rw [hrem.other k hki, hdone]))
    · exact .inr (.inr ⟨j, by rw [hrem.replaced, hj]⟩)

theorem Owned.remove (h : s.Owned) (hs : s.Sound) (hphase : (s.conn i).phase = .removing m)
    (hrem : s.Removed s' i m) : s'.Owned where
  replaces j q hj := by
    rw [hrem.replaced] at hj
    obtain ⟨m', hm'⟩ := h.replaces j q hj
    exact ⟨m', hrem.replaces h hs hphase hj hm'⟩
  unique j j' q hj hj' := by
    rw [hrem.replaced] at hj hj'
    exact h.unique j j' q hj hj'
  stopping _ _ _ hj := hrem.stopping h hj
  ended _ _ hk := hrem.ended h hphase hk
  owned _ _ hk := hrem.owned h hs hphase hk

end

/-- **A step keeps every session owned.** -/
theorem Owned.step (h : s.Owned) (hs : s.Sound) (event : AcceptEvent) : (s.step event).Owned := by
  obtain ⟨hconn, hpool⟩ | ⟨i, e, -, hpool, hconn⟩ | ⟨i, m, -, hphase, hconn, hpool⟩ |
    ⟨i, m, previous, -, hphase, hpool, hconn⟩ | ⟨i, m, -, hphase, hconn, hpool⟩ :=
      s.step_cases event
  · exact h.quiet hpool (by simp [hconn]) (by simp [hconn]) (by simp [hconn])
      fun k m _ => .inl (by rw [hconn])
  · exact h.conn hpool hconn
  · exact h.insert hs (inserted_insert hphase hconn hpool)
  · exact h.stop hphase hpool hconn
  · exact h.remove hs hphase (removed_removeIfCurrent hs hphase hconn hpool)

theorem Owned.run (h : s.Owned) (hs : s.Sound) (events : List AcceptEvent) :
    (s.run events).Owned := by
  induction events generalizing s with
  | nil => exact h
  | cons event events ih => exact ih (h.step hs event) (hs.step event)

/-- What becomes of the sessions.

* The session of a task that has returned is not in the pool.
* A removal takes no session out of the pool but its own.
* A session that was inserted and is not in the pool has ended without having been replaced, and
  was removed by its own task; or exactly one task has replaced it, and has stopped it unless it is
  just about to. -/
structure SessionsOwned (s : Accepting) : Prop where
  returned : ∀ i, (s.conn i).phase.Returned → ∀ e ∈ s.pool, e.2 ≠ i
  removal : ∀ i, ∀ e ∈ s.pool, e.2 ≠ i → e ∈ (s.step (.remove i)).pool
  gone : ∀ i m, (s.conn i).phase.inserted? = some m → (m, i) ∉ s.pool →
    ((s.conn i).phase = .disconnected m true ∧ (s.conn i).running = false ∧
      ∀ j, (s.conn j).replaced ≠ some i) ∨
    ∃ j, (s.conn j).replaced = some i ∧ (∀ j', (s.conn j').replaced = some i → j' = j) ∧
      ((s.conn j).phase = .stopping m i ∨ (s.conn i).running = false)

/-- **Sessions are removed by their own tasks and stopped by their replacers**, in every run. -/
theorem sessions_owned (now : UInt64) (admissionToken : Option String)
    (events : List AcceptEvent) : ((start now admissionToken).run events).SessionsOwned := by
  have hs := (sound_start now admissionToken).run events
  have ho := (owned_start now admissionToken).run (sound_start now admissionToken) events
  generalize (start now admissionToken).run events = s at hs ho
  refine ⟨fun i hi e he => ?_, fun i e he hne => ?_, fun i m hi hgone => ?_⟩
  · rintro rfl
    have hpooled := hs.pool e he
    cases hphase : (s.conn e.2).phase <;>
      simp [hphase, AcceptPhase.pooled?, AcceptPhase.Returned] at hi hpooled
  · obtain ⟨-, hpool⟩ | ⟨i', e', heq, -⟩ | ⟨i', m, heq, -⟩ | ⟨i', m, p, heq, -⟩ |
      ⟨i', m, heq, hphase, -, hpool⟩ := s.step_cases (.remove i)
    · rwa [hpool]
    · simp at heq
    · simp at heq
    · simp at heq
    · obtain rfl : i = i' := by simpa using heq
      rw [hpool]
      exact (mem_removeIfCurrent_pool hs hphase).2 ⟨he, hne⟩
  · obtain hin | hdone | ⟨j, hj⟩ := ho.owned i m hi
    · exact absurd hin hgone
    · refine .inl ⟨hdone, ho.ended i m (.inr ⟨true, hdone⟩), fun j hj => ?_⟩
      obtain ⟨m', hm'⟩ := ho.replaces j i hj
      obtain rfl : m = m' := Option.some.inj (hi.symm.trans hm'.inserted)
      exact hm'.kept hdone
    · obtain ⟨m', hm'⟩ := ho.replaces j i hj
      obtain rfl : m = m' := Option.some.inj (hi.symm.trans hm'.inserted)
      exact .inr ⟨j, hj, fun j' hj' => ho.unique j' j i hj' hj, hm'.stops⟩

end Accepting

end NexusTier
