import Mathlib.Data.List.Basic
import Mathlib.Data.List.Induction
import Mathlib.Order.Basic
import Mathlib.Data.Nat.Init

/-!
# Runs and schedules

A system of tasks is a step function: in a state, something happens, and there is a next state.
What happens is decided from outside, so a finite run is a list of steps and an infinite one a
schedule.

## What is here

* `Throughout P s l`: every step of the run `l` satisfies `P` where it is taken.
  `prefixes_iff_throughout` says that this is what a property of all states of the run comes to,
  where `P` is what a step needs to keep it.
* `stateAt`: the state after `n` steps of a schedule; `lasts` is what every step keeps.
* `eventually` and `exhausts`: the rules of progress.  What waits for a step that comes again and
  again, and can only be changed into what it waits for, gets there; and what uses up a measure
  comes to an end.

Nothing here names a system.  The development uses it for the gateway, for the guard, for ingestion
and for the console in the browser.
-/

set_option autoImplicit false

namespace Concurrent

variable {σ ε : Type} {step : σ → ε → σ}

/-- Every step of the run satisfies `P` where it is taken. -/
def Throughout (step : σ → ε → σ) (P : σ → ε → Prop) : σ → List ε → Prop
  | _, [] => True
  | s, event :: events => P s event ∧ Throughout step P (step s event) events

theorem throughout_append {P : σ → ε → Prop} {events events' : List ε} : ∀ {s : σ},
    Throughout step P s (events ++ events') ↔
      Throughout step P s events ∧ Throughout step P (events.foldl step s) events' := by
  induction events with
  | nil => exact ⟨fun h => ⟨trivial, h⟩, fun h => h.2⟩
  | cons event events ih =>
    exact ⟨fun h => ⟨⟨h.1, (ih.1 h.2).1⟩, (ih.1 h.2).2⟩, fun h => ⟨h.1.1, ih.2 ⟨h.1.2, h.2⟩⟩⟩

/-- What every step keeps, a run in which every step satisfies `P` keeps. -/
theorem Throughout.keeps {P : σ → ε → Prop} {I : σ → Prop}
    (hstep : ∀ s event, I s → P s event → I (step s event)) {events : List ε} :
    ∀ {s : σ}, I s → Throughout step P s events → I (events.foldl step s) := by
  induction events with
  | nil => exact fun h _ => h
  | cons event events ih => exact fun h hP => ih (hstep _ event h hP.1) hP.2

/-- The same, said of the runs that the run goes on from. -/
theorem throughout_iff_prefixes {P : σ → ε → Prop} {events : List ε} : ∀ {s : σ},
    Throughout step P s events ↔
      ∀ before event, before ++ [event] <+: events → P (before.foldl step s) event := by
  induction events using List.reverseRecOn with
  | nil =>
    exact fun {s} => ⟨fun _ before event h => absurd (List.prefix_nil.1 h) (by simp),
      fun _ => trivial⟩
  | append_singleton events event ih =>
    intro s
    rw [throughout_append, ih]
    constructor
    · rintro ⟨hevents, hevent, -⟩ before e h
      rcases List.prefix_concat_iff.1 h with heq | h
      · obtain ⟨rfl, rfl⟩ := List.append_singleton_inj.1 heq
        exact hevent
      · exact hevents before e h
    · exact fun h => ⟨fun before e hp => h before e (hp.trans (List.prefix_append _ _)),
        h events event (List.prefix_refl _), trivial⟩

/-- **All states of a run.**  A property of the first state holds in all of them exactly if every
step satisfies what it takes to keep it. -/
theorem prefixes_iff_throughout {I P : σ → Prop} {C : σ → ε → Prop}
    (hI : ∀ s event, I s → I (step s event))
    (hstep : ∀ s event, I s → P s → (P (step s event) ↔ C s event)) {events : List ε} :
    ∀ {s : σ}, I s → P s →
      ((∀ before, before <+: events → P (before.foldl step s)) ↔ Throughout step C s events) := by
  induction events with
  | nil =>
    intro s _ hP
    refine ⟨fun _ => trivial, fun _ before h => ?_⟩
    rw [List.prefix_nil.1 h]
    exact hP
  | cons event events ih =>
    intro s hs hP
    have hiff := hstep s event hs hP
    constructor
    · intro h
      have hnext : P (step s event) := h [event] (List.prefix_append [event] events)
      exact ⟨hiff.1 hnext, (ih (hI s event hs) hnext).1 fun before hp =>
        h (event :: before) (List.cons_prefix_cons.2 ⟨rfl, hp⟩)⟩
    · rintro ⟨hevent, hrest⟩ before h
      cases before with
      | nil => exact hP
      | cons e before =>
        obtain ⟨rfl, hp⟩ := List.cons_prefix_cons.1 h
        exact (ih (hI s e hs) (hiff.2 hevent)).2 hrest before hp

/-- The state after `n` steps. -/
def stateAt (step : σ → ε → σ) (init : σ) (schedule : Nat → ε) : Nat → σ
  | 0 => init
  | n + 1 => step (stateAt step init schedule n) (schedule n)

variable {init : σ} {schedule : Nat → ε} {I : σ → Prop}

theorem stateAt_keeps (hinit : I init) (hstep : ∀ s event, I s → I (step s event)) (n : Nat) :
    I (stateAt step init schedule n) := by
  induction n with
  | zero => exact hinit
  | succ n ih => exact hstep _ (schedule n) ih

/-- What every step takes to itself or to `Q` lasts until there is `Q`. -/
theorem lasts (hinit : I init) (hstep : ∀ s event, I s → I (step s event)) {P Q : σ → Prop}
    (hkeep : ∀ s event, I s → P s → P (step s event) ∨ Q (step s event)) {n : Nat}
    (hn : P (stateAt step init schedule n)) {n' : Nat} (hle : n ≤ n') :
    (∃ m ≥ n, Q (stateAt step init schedule m)) ∨ P (stateAt step init schedule n') := by
  induction n', hle using Nat.le_induction with
  | base => exact .inr hn
  | succ n' hle ih =>
    rcases ih with hdone | hp
    · exact .inl hdone
    · rcases hkeep _ (schedule n') (stateAt_keeps hinit hstep n') hp with hp' | hq
      · exact .inr hp'
      · exact .inl ⟨n' + 1, Nat.le_succ_of_le hle, hq⟩

/-- **Progress.**  If every step takes `P` to `P` or to `Q`, and a step of kind `e` takes it to `Q`,
then `P` leads to `Q` as long as such steps come again and again. -/
theorem eventually (hinit : I init) (hstep : ∀ s event, I s → I (step s event)) {P Q : σ → Prop}
    {e : ε → Prop} (hkeep : ∀ s event, I s → P s → P (step s event) ∨ Q (step s event))
    (hact : ∀ s event, I s → P s → e event → Q (step s event))
    (hfair : ∀ n, ∃ n' ≥ n, e (schedule n')) {n : Nat} (hn : P (stateAt step init schedule n)) :
    ∃ n' ≥ n, Q (stateAt step init schedule n') := by
  obtain ⟨last, hle, he⟩ := hfair n
  rcases lasts hinit hstep hkeep hn hle with hdone | hp
  · exact hdone
  · exact ⟨last + 1, Nat.le_succ_of_le hle, hact _ _ (stateAt_keeps hinit hstep last) hp he⟩

/-- **Exhaustion.**  What lasts only while a measure goes down again and again, and never up, comes
to an end. -/
theorem exhausts {m : σ → Nat} (hle : ∀ s event, m (step s event) ≤ m s) {P : σ → Prop}
    (hlt : ∀ n, P (stateAt step init schedule n) → ∃ n' ≥ n,
      m (stateAt step init schedule (n' + 1)) < m (stateAt step init schedule n')) (n : Nat) :
    ∃ n' ≥ n, ¬P (stateAt step init schedule n') := by
  have hanti : ∀ {i j : Nat}, i ≤ j →
      m (stateAt step init schedule j) ≤ m (stateAt step init schedule i) := by
    intro i j hij
    induction j, hij using Nat.le_induction with
    | base => exact Nat.le_refl _
    | succ j _ ih => exact Nat.le_trans (hle _ (schedule j)) ih
  -- the measure at `n` bounds how often it can still go down
  induction hm : m (stateAt step init schedule n) using Nat.strongRecOn generalizing n with
  | ind k ih =>
    by_cases hP : P (stateAt step init schedule n)
    · obtain ⟨last, hn, hdown⟩ := hlt n hP
      have hle' := hanti hn
      obtain ⟨n', hn', hnot⟩ := ih _ (by omega) (last + 1) rfl
      exact ⟨n', by omega, hnot⟩
    · exact ⟨n, Nat.le_refl n, hP⟩

end Concurrent
