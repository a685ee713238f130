import Mathlib

/-!
# Loops that may fail

A transaction is a computation in `Except`: it threads a state through statements, any of which
may abort it.  Its loops are `List.foldlM`.  Here are the rules to reason about them without
unrolling: what a loop that came through has done (`foldlM_eq_foldl`), what it keeps
(`foldlM_inv`), and when it comes through (`foldlM_ok_of_inv`).

## What is here

* `foldlM_cons_eq_ok` and `mapM_eq_ok`: a loop that came through, step by step.
* `foldlM_eq_foldl`: it did what the loop without failures does.
* `foldlM_inv` and `foldlM_forall`: what it has kept, and what it has checked on its way.
* `foldlM_ok_of_inv`: when it comes through.

States and errors are of any type.
-/

set_option autoImplicit false

namespace Relational

variable {ε α β σ : Type}

/-- Sequencing succeeds when both parts do. -/
@[simp] theorem bind_eq_ok {x : Except ε α} {f : α → Except ε β} {b : β} :
    (x >>= f) = .ok b ↔ ∃ a, x = .ok a ∧ f a = .ok b := by
  cases x with
  | error e => simp [bind, Except.bind]
  | ok a => simp [bind, Except.bind]

@[simp] theorem pure_eq_ok {a b : α} : (pure a : Except ε α) = .ok b ↔ a = b :=
  Except.ok.injEq a b ▸ Iff.rfl

variable {f : σ → α → Except ε σ} {l : List α} {s s' : σ}

theorem foldlM_cons_eq_ok {a : α} :
    (a :: l).foldlM f s = .ok s' ↔ ∃ s₁, f s a = .ok s₁ ∧ l.foldlM f s₁ = .ok s' := by
  rw [List.foldlM_cons, bind_eq_ok]

theorem foldlM_nil_eq_ok : ([] : List α).foldlM f s = .ok s' ↔ s = s' := by
  rw [List.foldlM_nil, pure_eq_ok]

/-- A loop that comes through has done what its body does, element after element. -/
theorem foldlM_eq_foldl {g : σ → α → σ}
    (h : ∀ a ∈ l, ∀ s s', f s a = .ok s' → s' = g s a) (hs : l.foldlM f s = .ok s') :
    s' = l.foldl g s := by
  induction l generalizing s with
  | nil => exact (foldlM_nil_eq_ok.1 hs).symm
  | cons a l ih =>
    obtain ⟨s₁, h₁, h₂⟩ := foldlM_cons_eq_ok.1 hs
    rw [List.foldl_cons, ← h a (by simp) s s₁ h₁]
    exact ih (fun a' ha' => h a' (by simp [ha'])) h₂

/-- A loop whose body keeps an invariant keeps it. -/
theorem foldlM_inv {I : σ → Prop} (h : ∀ a ∈ l, ∀ s s', I s → f s a = .ok s' → I s')
    (h0 : I s) (hs : l.foldlM f s = .ok s') : I s' := by
  induction l generalizing s with
  | nil => exact foldlM_nil_eq_ok.1 hs ▸ h0
  | cons a l ih =>
    obtain ⟨s₁, h₁, h₂⟩ := foldlM_cons_eq_ok.1 hs
    exact ih (fun a' ha' => h a' (by simp [ha'])) (h a (by simp) s s₁ h0 h₁) h₂

/-- A loop that comes through has come through each pass. -/
theorem foldlM_forall {P : α → Prop} (h : ∀ a ∈ l, ∀ s s', f s a = .ok s' → P a)
    (hs : l.foldlM f s = .ok s') : ∀ a ∈ l, P a := by
  induction l generalizing s with
  | nil => simp
  | cons a l ih =>
    obtain ⟨s₁, h₁, h₂⟩ := foldlM_cons_eq_ok.1 hs
    exact List.forall_mem_cons.2 ⟨h a (by simp) s s₁ h₁, ih (fun a' ha' => h a' (by simp [ha'])) h₂⟩

/-- Every element has its result among the results. -/
theorem exists_of_mapM_eq_ok {g : α → Except ε β} {bs : List β} (h : l.mapM g = .ok bs) :
    ∀ a ∈ l, ∃ b ∈ bs, g a = .ok b := by
  induction l generalizing bs with
  | nil => simp
  | cons a l ih =>
    rw [List.mapM_cons, bind_eq_ok] at h
    obtain ⟨b, hb, h⟩ := h
    rw [bind_eq_ok] at h
    obtain ⟨bs', hbs', h⟩ := h
    obtain rfl := pure_eq_ok.1 h
    intro x hx
    rcases List.mem_cons.1 hx with rfl | hx
    · exact ⟨b, List.mem_cons_self, hb⟩
    · obtain ⟨y, hy, hg⟩ := ih hbs' x hx
      exact ⟨y, List.mem_cons_of_mem b hy, hg⟩

/-- A loop that collects succeeds when each element can be read. -/
theorem mapM_eq_ok {g : α → Except ε β} {P : α → Prop} {r : α → β} {bs : List β}
    (h : ∀ a ∈ l, ∀ b, g a = .ok b ↔ P a ∧ b = r a) :
    l.mapM g = .ok bs ↔ (∀ a ∈ l, P a) ∧ bs = l.map r := by
  induction l generalizing bs with
  | nil =>
    rw [List.mapM_nil, pure_eq_ok]
    simp [eq_comm]
  | cons a l ih =>
    have hrest : ∀ {bs}, l.mapM g = .ok bs ↔ (∀ a ∈ l, P a) ∧ bs = l.map r :=
      ih fun a' ha' => h a' (by simp [ha'])
    rw [List.mapM_cons]
    simp only [bind_eq_ok, pure_eq_ok, h a (by simp), hrest, List.forall_mem_cons, List.map_cons]
    constructor
    · rintro ⟨_, ⟨ha, rfl⟩, _, ⟨hl, rfl⟩, rfl⟩
      exact ⟨⟨ha, hl⟩, rfl⟩
    · rintro ⟨⟨ha, hl⟩, rfl⟩
      exact ⟨_, ⟨ha, rfl⟩, _, ⟨hl, rfl⟩, rfl⟩

/-- A loop whose body succeeds wherever an invariant holds, and keeps it, comes through. -/
theorem foldlM_ok_of_inv {I : σ → Prop}
    (h : ∀ a ∈ l, ∀ s, I s → ∃ s', f s a = .ok s' ∧ I s') (h0 : I s) :
    ∃ s', l.foldlM f s = .ok s' ∧ I s' := by
  induction l generalizing s with
  | nil => exact ⟨s, foldlM_nil_eq_ok.2 rfl, h0⟩
  | cons a l ih =>
    obtain ⟨s₁, h₁, hI⟩ := h a (by simp) s h0
    obtain ⟨s', h₂, hI'⟩ := ih (fun a' ha' => h a' (by simp [ha'])) hI
    exact ⟨s', foldlM_cons_eq_ok.2 ⟨s₁, h₁, h₂⟩, hI'⟩

end Relational
