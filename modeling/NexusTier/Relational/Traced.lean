import NexusTier.Relational.Stamped

/-!
# Where a row comes from

Rounds of reports write a table of tracked rows, and nothing else does.  So each row that is found
there is one of two things: what some report made it, or what some report made it, deactivated by
a round that has missed it (`Tracked.Traced`, `Notice.traced_execAll`).

The point is that no two reports mix: the columns and the time of a row are those of one of them.

## What is here

* `Tracked.Traced`: one report has made the row what it is, and perhaps a later round has
  deactivated it.
* `Notice.traced_execAll`: so it is with every row of a table that notices have written.

Keys, columns and times are of any type, and so are the names of rounds.
-/

set_option autoImplicit false

namespace Relational

open Std (TransOrd LawfulEqOrd)

section

variable {K T S A : Type} [LinearOrder T]

/-- One of the notices has made the row at `k` what it is, and perhaps another one has deactivated
it since. -/
def Tracked.Traced (k : K) (past : List (Notice K T S A)) (row : Tracked T S A) : Prop :=
  ∃ c s, .report k row.value row.observedAt c s ∈ past ∧
    (row = .fresh row.value row.observedAt c s ∨
      ∃ concerns c' s', .missing concerns c' s' ∈ past ∧ concerns k row.value = true ∧ c < c' ∧
        row = (Tracked.fresh row.value row.observedAt c s).deactivate c' s')

theorem Tracked.Traced.mono {k : K} {past past' : List (Notice K T S A)} {row : Tracked T S A}
    (h : row.Traced k past) (hsub : past ⊆ past') : row.Traced k past' := by
  obtain ⟨c, s, hmem, hrow | ⟨concerns, c', s', hmissing, hrow⟩⟩ := h
  · exact ⟨c, s, hsub hmem, .inl hrow⟩
  · exact ⟨c, s, hsub hmem, .inr ⟨concerns, c', s', hsub hmissing, hrow⟩⟩

namespace Notice

/-- A notice makes a row of its own, or deactivates one, or leaves it. -/
theorem traced_act [DecidableEq K] {k : K} {past : List (Notice K T S A)}
    {r : Option (Tracked T S A)} (h : ∀ row ∈ r, row.Traced k past) (n : Notice K T S A) :
    ∀ row ∈ n.act k r, row.Traced k (past ++ [n]) := by
  have hkept : ∀ row ∈ r, row.Traced k (past ++ [n]) :=
    fun row hrow => (h row hrow).mono (List.subset_append_left _ _)
  intro row hrow
  cases n with
  | report key v o c s =>
    rw [act] at hrow
    split at hrow
    next hk =>
      subst hk
      obtain rfl := Option.some.inj hrow
      have hfresh : (Tracked.fresh v o c s).Traced key (past ++ [.report key v o c s]) :=
        ⟨c, s, List.mem_append_right _ (List.mem_singleton_self _), .inl rfl⟩
      cases r with
      | none => exact hfresh
      | some old =>
        rw [Table.upsertRow_some]
        split
        · exact hfresh
        · exact hkept old rfl
    next => exact hkept row hrow
  | missing concerns c s =>
    rw [act] at hrow
    obtain ⟨old, hold, rfl⟩ := Option.map_eq_some_iff.1 hrow
    split
    next hmissed =>
      simp only [Tracked.missedBy, Bool.and_eq_true, decide_eq_true_eq] at hmissed
      obtain ⟨⟨hactive, hconcerns⟩, hlt⟩ := hmissed
      -- only an active row is deactivated, and that is as its report has left it
      obtain ⟨c', s', hmem, heq | ⟨_, _, _, _, _, _, heq⟩⟩ := h old hold
      · refine ⟨c', s', List.mem_append_left _ hmem, .inr ⟨concerns, c, s,
          List.mem_append_right _ (List.mem_singleton_self _), hconcerns, ?_, ?_⟩⟩
        · have hc : old.completedAt = c' := congrArg (fun r => r.completedAt) heq
          exact hc ▸ hlt
        · exact congrArg (Tracked.deactivate c s) heq
      · rw [heq] at hactive
        simp [Tracked.deactivate] at hactive
    next => exact hkept old hold

/-- **No row is made up.**  In a table that has been written by notices alone, each row is traced to
them. -/
theorem traced_execAll [Ord K] [TransOrd K] [LawfulEqOrd K] [DecidableEq K]
    (ns : List (Notice K T S A)) :
    (ns.foldl exec (∅ : Table K (Tracked T S A))).All fun k row => row.Traced k ns := by
  have hfold : ∀ k, ∀ row ∈ ns.foldl (act k) none, row.Traced k ns := by
    intro k
    induction ns using List.reverseRecOn with
    | nil => simp
    | append_singleton ns n ih =>
      rw [List.foldl_append]
      exact traced_act ih n
  intro k row hrow
  rw [getElem?_execAll] at hrow
  exact hfold k row (by simpa using hrow)

end Notice

end

end Relational
