import Mathlib.Data.List.Induction
import Mathlib.Logic.Function.Basic

/-!
# Transactions behind one lock

Several parties each run one transaction on a store.  A transaction waits for the lock, works on what
it has read, one statement after the other, and in the end commits, which replaces the store, or
fails, which leaves it alone; both give the lock back.  The steps of different parties may come in
any order.

`Locked.step_cases` says that this is as good as running every transaction at one time: what a party
returns with is what its transaction as a whole (`Transaction.whole`) makes of the store at that
moment.

## What is here

* `Transaction`: what each party does, statement by statement, with its failures.
* `Locked.step`: one step of one party.
* `Locked.step_cases`: the step that commits is the whole transaction at that moment, and all other
  steps leave the store alone.
* `Locked.run_keeps`: what all whole transactions keep is kept by every run.

## What is left out

Parties that crash while they hold the lock, and commits whose answer is lost.
-/

set_option autoImplicit false

namespace Concurrent

variable {ι σ τ ε : Type}

/-- What the parties do: party `i` has read the store, and goes on statement by statement. -/
structure Transaction (ι σ τ ε : Type) where
  /-- What is done first, with the lock. -/
  start : ι → σ → Except ε τ
  /-- The next statement, or the commit. -/
  next : ι → τ → Except ε (τ ⊕ σ)
  /-- All that is left to do. -/
  rest : ι → τ → Except ε σ
  rest_eq : ∀ i work, rest i work =
    match next i work with
    | .error e => .error e
    | .ok (.inl work) => rest i work
    | .ok (.inr store) => .ok store

/-- The transaction, at one time. -/
def Transaction.whole (T : Transaction ι σ τ ε) (i : ι) (store : σ) : Except ε σ :=
  T.start i store >>= T.rest i

/-- Where a party is. -/
inductive Phase (τ ε : Type) where
  | waiting
  | holding (work : τ)
  | returned (result : Except ε Unit)

/-- The store, the lock and the parties. -/
structure Locked (ι σ τ ε : Type) where
  store : σ
  holder : Option ι
  phase : ι → Phase τ ε

namespace Locked

def init (store : σ) : Locked ι σ τ ε := ⟨store, none, fun _ => .waiting⟩

variable [DecidableEq ι]

/-- Party `i` goes to another phase. -/
def move (s : Locked ι σ τ ε) (i : ι) (holder : Option ι) (phase : Phase τ ε) : Locked ι σ τ ε :=
  { s with
    holder
    phase := Function.update s.phase i phase }

/-- A step of party `i`. -/
def step (T : Transaction ι σ τ ε) (s : Locked ι σ τ ε) (i : ι) : Locked ι σ τ ε :=
  match s.phase i with
  | .waiting =>
    match s.holder with
    | some _ => s
    | none =>
      match T.start i s.store with
      | .error e => s.move i none (.returned (.error e))
      | .ok work => s.move i (some i) (.holding work)
  | .holding work =>
    match T.next i work with
    | .error e => s.move i none (.returned (.error e))
    | .ok (.inl work) => s.move i (some i) (.holding work)
    | .ok (.inr store) =>
      { s.move i none (.returned (.ok ())) with store }
  | .returned _ => s

/-- Steps, one after the other. -/
def run (T : Transaction ι σ τ ε) (store : σ) (schedule : List ι) : Locked ι σ τ ε :=
  schedule.foldl (step T) (init store)

/-- Party `i` has come through. -/
def Done (s : Locked ι σ τ ε) (i : ι) : Prop := s.phase i = .returned (.ok ())

/-- Who works has the lock, and will come to what the whole transaction comes to. -/
def Serial (T : Transaction ι σ τ ε) (s : Locked ι σ τ ε) : Prop :=
  ∀ i work, s.phase i = .holding work → s.holder = some i ∧ T.rest i work = T.whole i s.store

variable {T : Transaction ι σ τ ε} {s : Locked ι σ τ ε} {i : ι}

omit [DecidableEq ι] in
theorem serial_init (store : σ) : (init store : Locked ι σ τ ε).Serial T := by
  intro i work h
  cases h

/-- A party that gives the lock back leaves nobody at work. -/
theorem Serial.returned (h : s.Serial T) (hi : s.holder = none ∨ ∃ work, s.phase i = .holding work)
    (result : Except ε Unit) (store : σ) :
    ({ s.move i none (.returned result) with store } : Locked ι σ τ ε).Serial T := by
  intro j work hj
  by_cases hji : j = i
  · subst hji
    simp [move] at hj
  · have hj' : s.phase j = .holding work := by simpa [move, hji] using hj
    have hholder := (h j work hj').1
    rcases hi with hnone | ⟨work', hwork'⟩
    · simp [hnone] at hholder
    · rw [(h i work' hwork').1, Option.some_inj] at hholder
      exact absurd hholder.symm hji

/-- A party that goes on working leaves nobody else at work. -/
theorem Serial.holding (h : s.Serial T) (hi : s.holder = none ∨ s.holder = some i) {work : τ}
    (hrest : T.rest i work = T.whole i s.store) :
    (s.move i (some i) (.holding work)).Serial T := by
  intro j work' hj
  by_cases hji : j = i
  · subst hji
    obtain rfl : work = work' := by simpa [move] using hj
    exact ⟨rfl, hrest⟩
  · have hj' : s.phase j = .holding work' := by simpa [move, hji] using hj
    have hholder := (h j work' hj').1
    rcases hi with hnone | hsome
    · simp [hnone] at hholder
    · rw [hsome, Option.some_inj] at hholder
      exact absurd hholder.symm hji

theorem done_move {holder : Option ι} {phase : Phase τ ε} (hi : ¬ s.Done i)
    (hphase : phase ≠ .returned (.ok ())) : (s.move i holder phase).Done = s.Done := by
  funext j
  by_cases hji : j = i
  · subst hji
    simp [Done, move, hphase, show s.phase j ≠ .returned (.ok ()) from hi]
  · simp [Done, move, hji]

theorem done_commit (store : σ) :
    ({ s.move i none (.returned (.ok ())) with store } : Locked ι σ τ ε).Done =
      fun j => j = i ∨ s.Done j := by
  funext j
  by_cases hji : j = i
  · subst hji
    simp [Done, move]
  · simp [Done, move, hji]

/-- **What a step does.**  It leaves the store alone, or it is the commit of a transaction, and then
the store is what that makes of it as a whole. -/
theorem step_cases (h : s.Serial T) (i : ι) :
    (s.step T i).Serial T ∧
      (((s.step T i).store = s.store ∧ (s.step T i).Done = s.Done) ∨
        (T.whole i s.store = .ok (s.step T i).store ∧
          (s.step T i).Done = fun j => j = i ∨ s.Done j)) := by
  cases hphase : s.phase i with
  | waiting =>
    have hdone : ¬ s.Done i := by simp [Done, hphase]
    cases hholder : s.holder with
    | some j =>
      have hstep : s.step T i = s := by simp only [step, hphase, hholder]
      rw [hstep]
      exact ⟨h, .inl ⟨rfl, rfl⟩⟩
    | none =>
      cases hstart : T.start i s.store with
      | error e =>
        have hstep : s.step T i = s.move i none (.returned (.error e)) := by
          simp only [step, hphase, hholder, hstart]
        rw [hstep]
        exact ⟨h.returned (.inl hholder) _ s.store, .inl ⟨rfl, done_move hdone (by simp)⟩⟩
      | ok work =>
        have hstep : s.step T i = s.move i (some i) (.holding work) := by
          simp only [step, hphase, hholder, hstart]
        have hwhole : T.rest i work = T.whole i s.store := by
          rw [Transaction.whole, hstart]
          rfl
        rw [hstep]
        exact ⟨h.holding (.inl hholder) hwhole, .inl ⟨rfl, done_move hdone (by simp)⟩⟩
  | holding work =>
    have hdone : ¬ s.Done i := by simp [Done, hphase]
    obtain ⟨hholder, hwhole⟩ := h i work hphase
    rw [T.rest_eq] at hwhole
    cases hnext : T.next i work with
    | error e =>
      have hstep : s.step T i = s.move i none (.returned (.error e)) := by
        simp only [step, hphase, hnext]
      rw [hstep]
      exact ⟨h.returned (.inr ⟨work, hphase⟩) _ s.store, .inl ⟨rfl, done_move hdone (by simp)⟩⟩
    | ok result =>
      rw [hnext] at hwhole
      cases result with
      | inl work' =>
        have hstep : s.step T i = s.move i (some i) (.holding work') := by
          simp only [step, hphase, hnext]
        rw [hstep]
        exact ⟨h.holding (.inr hholder) hwhole, .inl ⟨rfl, done_move hdone (by simp)⟩⟩
      | inr store =>
        have hstep : s.step T i = { s.move i none (.returned (.ok ())) with store } := by
          simp only [step, hphase, hnext]
        rw [hstep]
        exact ⟨h.returned (.inr ⟨work, hphase⟩) _ store, .inr ⟨hwhole.symm, done_commit store⟩⟩
  | returned result =>
    have hstep : s.step T i = s := by simp only [step, hphase]
    rw [hstep]
    exact ⟨h, .inl ⟨rfl, rfl⟩⟩

theorem run_concat (T : Transaction ι σ τ ε) (store : σ) (schedule : List ι) (i : ι) :
    run T store (schedule ++ [i]) = (run T store schedule).step T i := by
  simp [run]

theorem serial_run (T : Transaction ι σ τ ε) (store : σ) (schedule : List ι) :
    (run T store schedule).Serial T := by
  induction schedule using List.reverseRecOn with
  | nil => exact serial_init store
  | append_singleton schedule i ih =>
    rw [run_concat]
    exact (step_cases ih i).1

/-- **What every transaction keeps, a run keeps.**  `I` speaks of the store and of who has come
through. -/
theorem run_keeps {I : σ → (ι → Prop) → Prop} {store : σ} (hinit : I store fun _ => False)
    (hcommit : ∀ i store done store', I store done → T.whole i store = .ok store' →
      I store' fun j => j = i ∨ done j)
    (schedule : List ι) : I (run T store schedule).store (run T store schedule).Done := by
  induction schedule using List.reverseRecOn with
  | nil =>
    have hnone : (init store : Locked ι σ τ ε).Done = fun _ => False := by
      funext i
      simp [Done, init]
    show I store (init store : Locked ι σ τ ε).Done
    rwa [hnone]
  | append_singleton schedule i ih =>
    rw [run_concat]
    obtain ⟨-, ⟨hstore, hdone⟩ | ⟨hwhole, hdone⟩⟩ := step_cases (serial_run T store schedule) i
    · rwa [hstore, hdone]
    · rw [hdone]
      exact hcommit i _ _ _ ih hwhole

end Locked

end Concurrent
