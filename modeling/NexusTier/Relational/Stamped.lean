import NexusTier.Relational.Table

/-!
# Rows that keep the newest report

A row that mirrors something outside the database carries two times: when the thing was observed,
and when the round of observation it belongs to was completed.  A report replaces the row only if
the row is *older* — earlier observed, or observed at the same time in an earlier round
(`Stamped.olderThan`).  A row may also be marked as gone by a round that enumerated everything and
did not meet it; that moves the round's time and leaves the observation time alone.

## What is here

* `Stamped` is a row with the two times, `Tracked` one that can also be gone.
* `Notice` is what a round says about a table of tracked rows: a report about one key, or that
  some rows are missing.  `Notice.exec` runs it on the table, `Notice.act` on the row at one key,
  and `getElem?_execAll` says that the second is what the first does.
* `Change` forgets everything but the shape — a row is put or amended — and `replay_newest` is the
  law the two times are there for: whatever the order of arrival, the columns that survive are
  those of the latest observation.
* `foldl_eq_fresh`, `foldl_inactive` and `foldl_active_cases` say what remains of a row after many
  notices.

Times are any linear order; columns, keys and the names of rounds are of any type.
-/

set_option autoImplicit false

namespace Relational

open Std (TransOrd LawfulEqOrd)

/-! ## Stamped rows -/

/-- The columns `value` of a row, with the time it was observed at, the time its round of
observation was completed at, and the round itself. -/
structure Stamped (T S A : Type) where
  /-- The columns the report is about. -/
  value : A
  /-- When it was observed. -/
  observedAt : T
  /-- When the round that wrote the row was completed. -/
  completedAt : T
  /-- The round that wrote the row. -/
  source : S
deriving DecidableEq

/-- A stamped row that can be gone. -/
structure Tracked (T S A : Type) extends Stamped T S A where
  /-- Is the row still there, as far as is known? -/
  active : Bool
  /-- When it was found to be gone. -/
  disappearedAt : Option T
deriving DecidableEq

namespace Stamped

variable {T S A : Type} [LinearOrder T]

/-- The guard of every conditional write: the row was observed earlier, or at the same time in a
round completed earlier. -/
def olderThan (r : Stamped T S A) (observedAt completedAt : T) : Bool :=
  decide (r.observedAt < observedAt) ||
    (decide (r.observedAt = observedAt) && decide (r.completedAt < completedAt))

theorem olderThan_iff {r : Stamped T S A} {o c : T} :
    r.olderThan o c = true ↔ r.observedAt < o ∨ (r.observedAt = o ∧ r.completedAt < c) := by
  simp [olderThan]

/-- The two times of a row, compared lexicographically. -/
def stamp (r : Stamped T S A) : T ×ₗ T := toLex (r.observedAt, r.completedAt)

theorem stamp_le_iff {r r' : Stamped T S A} :
    r.stamp ≤ r'.stamp ↔ r.observedAt < r'.observedAt ∨
      (r.observedAt = r'.observedAt ∧ r.completedAt ≤ r'.completedAt) :=
  Prod.Lex.toLex_le_toLex

/-- The guard is the strict order on stamps. -/
theorem olderThan_iff_stamp_lt {r : Stamped T S A} {o c : T} :
    r.olderThan o c = true ↔ r.stamp < toLex (o, c) := by
  rw [olderThan_iff, stamp, Prod.Lex.toLex_lt_toLex]

end Stamped

namespace Tracked

variable {T S A : Type}

/-- The row a report writes. -/
def fresh (value : A) (observedAt completedAt : T) (source : S) : Tracked T S A :=
  { value, observedAt, completedAt, source, active := true, disappearedAt := none }

/-- The row after a round completed at `completedAt` found it gone. -/
def deactivate (completedAt : T) (source : S) (r : Tracked T S A) : Tracked T S A :=
  { r with active := false, disappearedAt := some completedAt, completedAt, source }

/-- Does a round completed at `completedAt` that missed rows with these columns concern `r`? -/
def missedBy [LinearOrder T] (concerns : A → Bool) (completedAt : T) (r : Tracked T S A) : Bool :=
  r.active && concerns r.value && decide (r.completedAt < completedAt)

/-- What the row of a tracked table satisfies: it was observed before its round was completed, it
is active exactly while no disappearance is recorded, and a disappearance is recorded at the
completion of the round that noticed it, after the last observation. -/
structure WellFormed [LinearOrder T] (r : Tracked T S A) : Prop where
  /-- The observation precedes the completion of the round. -/
  observed_le : r.observedAt ≤ r.completedAt
  /-- Active rows are those with no disappearance. -/
  active_iff : r.active = true ↔ r.disappearedAt = none
  /-- A disappearance is recorded at the completion of the round, after the last observation. -/
  gone : r.active = false → r.disappearedAt = some r.completedAt ∧ r.observedAt < r.completedAt

theorem wellFormed_fresh [LinearOrder T] {v : A} {o c : T} {s : S} (h : o ≤ c) :
    (fresh v o c s).WellFormed :=
  ⟨h, by simp [fresh], by simp [fresh]⟩

theorem WellFormed.deactivate [LinearOrder T] {r : Tracked T S A} (h : r.WellFormed) {c : T}
    (s : S) (hc : r.completedAt < c) : (r.deactivate c s).WellFormed := by
  have ho : r.observedAt < c := lt_of_le_of_lt h.observed_le hc
  exact ⟨ho.le, by simp [Tracked.deactivate], fun _ => ⟨rfl, ho⟩⟩

end Tracked

section Sound

variable {T S A : Type} [LinearOrder T]

/-- A row as a round may have left it; `issued` are the rounds there are, with their completion
times. -/
structure Stamped.Sound (issued : S → T → Prop) (r : Stamped T S A) : Prop where
  /-- The observation precedes the completion of the round. -/
  observed_le : r.observedAt ≤ r.completedAt
  /-- The row names a round, and carries its completion time. -/
  source_issued : issued r.source r.completedAt

/-- A tracked row as a round may have left it. -/
structure Tracked.Sound (issued : S → T → Prop) (r : Tracked T S A) : Prop
    extends r.WellFormed where
  /-- The row names a round, and carries its completion time. -/
  source_issued : issued r.source r.completedAt

theorem Stamped.Sound.mono {issued issued' : S → T → Prop} (h : ∀ s c, issued s c → issued' s c)
    {r : Stamped T S A} (hr : r.Sound issued) : r.Sound issued' :=
  ⟨hr.1, h _ _ hr.2⟩

theorem Tracked.Sound.mono {issued issued' : S → T → Prop} (h : ∀ s c, issued s c → issued' s c)
    {r : Tracked T S A} (hr : r.Sound issued) : r.Sound issued' :=
  ⟨hr.1, h _ _ hr.2⟩

end Sound

/-! ## What a round says about a table -/

/-- One statement of a round about a table of tracked rows. -/
inductive Notice (K T S A : Type) where
  /-- A report about the row at `key`. -/
  | report (key : K) (value : A) (observedAt completedAt : T) (source : S)
  /-- The rows that `concerns` selects were not met by the round. -/
  | missing (concerns : K → A → Bool) (completedAt : T) (source : S)

namespace Notice

variable {K T S A : Type} [LinearOrder T]

/-- What a notice does to the row at key `k`. -/
def act [DecidableEq K] (k : K) (r : Option (Tracked T S A)) :
    Notice K T S A → Option (Tracked T S A)
  | report key v o c s =>
    if key = k then
      some (Table.upsertRow (.fresh v o c s)
        (fun old => if old.olderThan o c then .fresh v o c s else old) r)
    else r
  | missing concerns c s =>
    r.map fun row => if row.missedBy (concerns k) c then row.deactivate c s else row

/-- Run a notice on a table. -/
def exec [Ord K] [TransOrd K] (t : Table K (Tracked T S A)) :
    Notice K T S A → Table K (Tracked T S A)
  | report key v o c s =>
    t.upsert key (.fresh v o c s) fun old => if old.olderThan o c then .fresh v o c s else old
  | missing concerns c s =>
    t.updateWhere (fun k row => row.missedBy (concerns k) c) (Tracked.deactivate c s)

variable [Ord K] [TransOrd K] [LawfulEqOrd K] [DecidableEq K]

theorem getElem?_exec (t : Table K (Tracked T S A)) (n : Notice K T S A) (k : K) :
    (n.exec t)[k]? = n.act k t[k]? := by
  cases n with
  | report key v o c s => simp [exec, act]
  | missing concerns c s => simp [exec, act]

/-- **Follow one key.**  Running notices on a table acts on each row by itself. -/
theorem getElem?_execAll (ns : List (Notice K T S A)) (t : Table K (Tracked T S A)) (k : K) :
    (ns.foldl exec t)[k]? = ns.foldl (act k) t[k]? := by
  induction ns generalizing t with
  | nil => rfl
  | cons n ns ih => rw [List.foldl_cons, ih, getElem?_exec, List.foldl_cons]

/-- A notice that a round may give. -/
def Sound (issued : S → T → Prop) : Notice K T S A → Prop
  | report _ _ o c s => o ≤ c ∧ issued s c
  | missing _ c s => issued s c

omit [Ord K] [TransOrd K] [LawfulEqOrd K] in
theorem Sound.act {issued : S → T → Prop} {n : Notice K T S A} (hn : n.Sound issued) {k : K}
    {r : Option (Tracked T S A)} (hr : ∀ row ∈ r, row.Sound issued) :
    ∀ row ∈ n.act k r, row.Sound issued := by
  cases n with
  | report key v o c s =>
    have hfresh : (Tracked.fresh v o c s).Sound issued := ⟨Tracked.wellFormed_fresh hn.1, hn.2⟩
    simp only [Notice.act]
    split
    · rintro row ⟨⟩
      cases r with
      | none => exact hfresh
      | some old =>
        simp only [Table.upsertRow_some]
        split
        · exact hfresh
        · exact hr old rfl
    · exact hr
  | missing concerns c s =>
    cases r with
    | none => exact fun row h => by simp [Notice.act] at h
    | some old =>
      have hold := hr old rfl
      rintro row ⟨⟩
      simp only
      split
      · rename_i hm
        simp only [Tracked.missedBy, Bool.and_eq_true, decide_eq_true_eq] at hm
        exact ⟨hold.1.deactivate s hm.2, hn⟩
      · exact hold

/-- Running the notices of rounds keeps a table of sound rows one. -/
theorem all_sound_execAll {issued : S → T → Prop} {ns : List (Notice K T S A)}
    (hns : ∀ n ∈ ns, n.Sound issued) {t : Table K (Tracked T S A)}
    (ht : t.All fun _ r => r.Sound issued) :
    (ns.foldl exec t).All fun _ r => r.Sound issued := by
  intro k row hrow
  rw [getElem?_execAll] at hrow
  have hinv : ∀ r : Option (Tracked T S A), (∀ row ∈ r, row.Sound issued) →
      ∀ row ∈ ns.foldl (act k) r, row.Sound issued := by
    clear hrow ht
    induction ns with
    | nil => exact fun r hr => hr
    | cons n ns ih =>
      intro r hr
      exact ih (fun m hm => hns m (by simp [hm])) _ ((hns n (by simp)).act hr)
  exact hinv _ (fun row' hrow' => ht k row' hrow') row hrow

omit [Ord K] [TransOrd K] [LawfulEqOrd K] in
/-- A row that is there stays, and its stamp does not decrease. -/
theorem act_stamp_le (n : Notice K T S A) (k : K) (row : Tracked T S A) :
    ∃ row', n.act k (some row) = some row' ∧ row.stamp ≤ row'.stamp := by
  cases n with
  | report key v o c s =>
    simp only [act]
    split
    · refine ⟨_, rfl, ?_⟩
      simp only [Table.upsertRow_some]
      split
      · rename_i h
        exact (Stamped.olderThan_iff_stamp_lt.1 h).le
      · exact le_rfl
    · exact ⟨row, rfl, le_rfl⟩
  | missing concerns c s =>
    refine ⟨_, rfl, ?_⟩
    simp only
    split
    · rename_i hm
      simp only [Tracked.missedBy, Bool.and_eq_true, decide_eq_true_eq] at hm
      exact Stamped.stamp_le_iff.2 (.inr ⟨rfl, hm.2.le⟩)
    · exact le_rfl

theorem grows_execAll (ns : List (Notice K T S A)) (t : Table K (Tracked T S A)) :
    t.Grows (fun r r' => r.stamp ≤ r'.stamp) (ns.foldl exec t) := by
  induction ns generalizing t with
  | nil => exact Table.Grows.refl fun _ => le_rfl
  | cons n ns ih =>
    have hstep : t.Grows (fun r r' => r.stamp ≤ r'.stamp) (n.exec t) := by
      intro k row hrow
      rw [getElem?_exec, hrow]
      exact act_stamp_le n k row
    exact hstep.trans (fun _ _ _ h h' => h.trans h') (ih (n.exec t))

section Fold

variable {k : K} {ns : List (Notice K T S A)} {r : Option (Tracked T S A)}

omit [Ord K] [TransOrd K] [LawfulEqOrd K] in
theorem foldl_stamp_le (k : K) (ns : List (Notice K T S A)) {row : Tracked T S A}
    (hr : r = some row) :
    ∃ row', ns.foldl (act k) r = some row' ∧ row.stamp ≤ row'.stamp := by
  subst hr
  induction ns generalizing row with
  | nil => exact ⟨row, rfl, le_rfl⟩
  | cons n ns ih =>
    obtain ⟨row₁, h₁, hle₁⟩ := act_stamp_le n k row
    obtain ⟨row₂, h₂, hle₂⟩ := @ih row₁
    exact ⟨row₂, by rw [List.foldl_cons, h₁, h₂], hle₁.trans hle₂⟩

omit [Ord K] [TransOrd K] [LawfulEqOrd K] in
/-- After a report the row is at least as new as the report. -/
theorem stamp_le_of_report_mem {v : A} {o c : T} {s : S} (h : report k v o c s ∈ ns) :
    ∃ row', ns.foldl (act k) r = some row' ∧ toLex (o, c) ≤ row'.stamp := by
  obtain ⟨pre, post, rfl⟩ := List.append_of_mem h
  have hput : ∃ row, (report k v o c s).act k (pre.foldl (act k) r) = some row ∧
      toLex (o, c) ≤ row.stamp := by
    refine ⟨_, if_pos rfl, ?_⟩
    cases pre.foldl (act k) r with
    | none => exact le_rfl
    | some old =>
      rw [Table.upsertRow_some]
      split
      · exact le_rfl
      · rename_i hold
        rw [Stamped.olderThan_iff_stamp_lt, not_lt] at hold
        exact hold
  obtain ⟨row, hrow, hle⟩ := hput
  obtain ⟨row', hrow', hle'⟩ := foldl_stamp_le k post hrow
  exact ⟨row', by rw [List.foldl_append, List.foldl_cons, hrow'], hle.trans hle'⟩

omit [Ord K] [TransOrd K] [LawfulEqOrd K] in
/-- **Where an active row comes from**: it was there before the notices, or one of them reported
it, newer than what was there. -/
theorem foldl_active_cases {row' : Tracked T S A} (h : ns.foldl (act k) r = some row')
    (ha : row'.active = true) :
    r = some row' ∨ ∃ v o c s, report k v o c s ∈ ns ∧ row' = .fresh v o c s ∧
      ∀ row ∈ r, row.olderThan o c = true := by
  induction ns using List.reverseRecOn generalizing row' with
  | nil => exact .inl h
  | append_singleton ns n ih =>
    rw [List.foldl_append, List.foldl_cons, List.foldl_nil] at h
    have hmid : ∀ mid, ns.foldl (act k) r = some mid → mid.active = true → mid = row' →
        r = some row' ∨ ∃ v o c s, report k v o c s ∈ ns ++ [n] ∧ row' = .fresh v o c s ∧
          ∀ row ∈ r, row.olderThan o c = true := by
      rintro mid hm hma rfl
      rcases ih hm hma with h | ⟨v, o, c, s, hmem, hrest⟩
      · exact .inl h
      · exact .inr ⟨v, o, c, s, by simp [hmem], hrest⟩
    cases n with
    | report key v o c s =>
      rw [act] at h
      split at h
      · rename_i hk
        subst hk
        rw [Option.some_inj] at h
        cases hm : ns.foldl (act key) r with
        | none =>
          have hr : r = none := by
            cases hr : r with
            | none => rfl
            | some row =>
              obtain ⟨_, hfold, _⟩ := foldl_stamp_le key ns hr
              rw [hm] at hfold
              simp at hfold
          rw [hm, Table.upsertRow_none] at h
          exact .inr ⟨v, o, c, s, by simp, h.symm, by simp [hr]⟩
        | some old =>
          rw [hm, Table.upsertRow_some] at h
          split at h
          · rename_i hold
            refine .inr ⟨v, o, c, s, by simp, h.symm, fun row hrow => ?_⟩
            obtain ⟨mid, hfold, hle⟩ := foldl_stamp_le key ns hrow
            rw [hm, Option.some_inj] at hfold
            subst hfold
            rw [Stamped.olderThan_iff_stamp_lt] at hold ⊢
            exact hle.trans_lt hold
          · exact hmid old hm (h ▸ ha) h
      · exact hmid row' h ha rfl
    | missing concerns c s =>
      cases hm : ns.foldl (act k) r with
      | none => simp [hm, act] at h
      | some old =>
        rw [hm, act, Option.map_some, Option.some_inj] at h
        split at h
        · rw [← h] at ha
          simp [Tracked.deactivate] at ha
        · exact hmid old hm (h ▸ ha) h

omit [Ord K] [TransOrd K] [LawfulEqOrd K] in
/-- **What keeps a row active**: a property of its columns that every report of it has, and that
puts it out of the reach of every round that misses rows. -/
theorem foldl_active_of_kept {P : A → Prop} {row : Tracked T S A} (ha : row.active = true)
    (hP : P row.value) (hreport : ∀ v o c s, report k v o c s ∈ ns → P v)
    (hmissing : ∀ concerns c s, missing concerns c s ∈ ns → ∀ v, P v → concerns k v = false) :
    ∃ row', ns.foldl (act k) (some row) = some row' ∧ row'.active = true ∧ P row'.value := by
  induction ns generalizing row with
  | nil => exact ⟨row, rfl, ha, hP⟩
  | cons n ns ih =>
    obtain ⟨mid, hmid, hma, hmP⟩ :
        ∃ mid, n.act k (some row) = some mid ∧ mid.active = true ∧ P mid.value := by
      cases n with
      | report key v o c s =>
        rw [act]
        split
        · rename_i hk
          subst hk
          rw [Table.upsertRow_some]
          split
          · exact ⟨_, rfl, rfl, hreport v o c s (by simp)⟩
          · exact ⟨row, rfl, ha, hP⟩
        · exact ⟨row, rfl, ha, hP⟩
      | missing concerns c s =>
        have hnot : row.missedBy (concerns k) c = false := by
          simp [Tracked.missedBy, hmissing concerns c s (by simp) row.value hP]
        exact ⟨row, by simp [act, hnot], ha, hP⟩
    rw [List.foldl_cons, hmid]
    exact ih hma hmP (fun v o c s h => hreport v o c s (List.mem_cons_of_mem _ h))
      (fun concerns c s h => hmissing concerns c s (List.mem_cons_of_mem _ h))

/-- Nothing in `ns` is a report about row `k`. -/
def Silent (k : K) (ns : List (Notice K T S A)) : Prop :=
  ∀ v o c s, report k v o c s ∉ ns

omit [Ord K] [TransOrd K] [LawfulEqOrd K] in
/-- Without a report, the observation of a row stays. -/
theorem foldl_observedAt_of_silent (h : Silent k ns) {o : T} (hr : ∀ row ∈ r, row.observedAt < o) :
    ∀ row ∈ ns.foldl (act k) r, row.observedAt < o := by
  induction ns generalizing r with
  | nil => exact hr
  | cons n ns ih =>
    refine ih (fun v o c s hmem => h v o c s (List.mem_cons_of_mem _ hmem)) fun row hrow => ?_
    cases n with
    | report key v o' c s =>
      have hne : key ≠ k := fun heq => h v o' c s (by simp [heq])
      rw [act, if_neg hne] at hrow
      exact hr row hrow
    | missing concerns c s =>
      obtain ⟨old, hold, rfl⟩ := Option.map_eq_some_iff.1 hrow
      have hlt := hr old hold
      split
      · exact hlt
      · exact hlt

omit [Ord K] [TransOrd K] [LawfulEqOrd K] in
/-- A row that no notice reports, from a round no later than its own, stays as it is. -/
theorem foldl_of_silent (h : Silent k ns) {row : Tracked T S A}
    (hle : ∀ concerns c s, missing concerns c s ∈ ns → c ≤ row.completedAt) :
    ns.foldl (act k) (some row) = some row := by
  induction ns with
  | nil => rfl
  | cons n ns ih =>
    have hkeep : n.act k (some row) = some row := by
      cases n with
      | report key v o c s =>
        have hne : key ≠ k := fun heq => h v o c s (by simp [heq])
        rw [act, if_neg hne]
      | missing concerns c s =>
        have hnot : row.missedBy (concerns k) c = false := by
          simp [Tracked.missedBy, not_lt.2 (hle concerns c s (by simp))]
        simp [act, hnot]
    rw [List.foldl_cons, hkeep]
    exact ih (fun v o c s hmem => h v o c s (List.mem_cons_of_mem _ hmem))
      fun concerns c s hmem => hle concerns c s (List.mem_cons_of_mem _ hmem)

/-- The row a notice reports. -/
def key? : Notice K T S A → Option K
  | report key _ _ _ _ => some key
  | missing _ _ _ => none

omit [Ord K] [TransOrd K] [LawfulEqOrd K] [LinearOrder T] [DecidableEq K] in
theorem silent_of_not_mem (h : k ∉ ns.filterMap key?) : Silent k ns :=
  fun _ _ _ _ hmem => h (List.mem_filterMap.2 ⟨_, hmem, rfl⟩)

omit [Ord K] [TransOrd K] [LawfulEqOrd K] in
/-- **The only report about a row, newer than what is there, is what remains**, if no round that
misses rows is later than it. -/
theorem foldl_eq_fresh {v : A} {o c : T} {s : S} (hmem : report k v o c s ∈ ns)
    (hnd : (ns.filterMap key?).Nodup) (hr : ∀ row ∈ r, row.observedAt < o)
    (hle : ∀ concerns c' s', missing concerns c' s' ∈ ns → c' ≤ c) :
    ns.foldl (act k) r = some (.fresh v o c s) := by
  obtain ⟨pre, post, rfl⟩ := List.append_of_mem hmem
  have hkey : key? (report k v o c s) = some k := rfl
  rw [List.filterMap_append, List.filterMap_cons_some hkey, List.nodup_append,
    List.nodup_cons] at hnd
  obtain ⟨_, ⟨hpost, _⟩, hpre⟩ := hnd
  have hbefore := foldl_observedAt_of_silent
    (silent_of_not_mem fun hk => hpre k hk k (by simp) rfl) hr
  have hput : (report k v o c s).act k (pre.foldl (act k) r) = some (.fresh v o c s) := by
    rw [act, if_pos rfl]
    cases hmid : pre.foldl (act k) r with
    | none => rfl
    | some old =>
      have hold : old.olderThan o c = true :=
        Stamped.olderThan_iff.2 (.inl (hbefore old hmid))
      rw [Table.upsertRow_some, if_pos hold]
  rw [List.foldl_append, List.foldl_cons, hput]
  exact foldl_of_silent (silent_of_not_mem hpost)
    fun concerns c' s' hm => hle concerns c' s' (by simp [hm])

omit [Ord K] [TransOrd K] [LawfulEqOrd K] in
/-- **A row that no notice reports and that a later round misses is not active afterwards.** -/
theorem foldl_inactive (h : Silent k ns) (hr : ∀ row ∈ r, ∃ concerns c s,
      missing concerns c s ∈ ns ∧ concerns k row.value = true ∧ row.completedAt < c)
    {row' : Tracked T S A} (hrow' : ns.foldl (act k) r = some row') : row'.active = false := by
  rw [Bool.eq_false_iff]
  intro ha
  -- an active row that was not reported has come through every round unchanged
  obtain hold | ⟨v, o, c, s, hmem, _⟩ := foldl_active_cases hrow' ha
  · obtain ⟨concerns, c, s, hmem, hconc, hlt⟩ := hr row' hold
    obtain ⟨pre, post, rfl⟩ := List.append_of_mem hmem
    rw [List.foldl_append, List.foldl_cons] at hrow'
    have hpost : Silent k post := fun v o c s hm => h v o c s (by simp [hm])
    obtain hmid | ⟨v, o, c', s', hm, _⟩ := foldl_active_cases hrow' ha
    · rw [act, Option.map_eq_some_iff] at hmid
      obtain ⟨mid, hmid, heq⟩ := hmid
      split at heq
      · rw [← heq] at ha
        simp [Tracked.deactivate] at ha
      · rename_i hnot
        rw [heq] at hnot
        simp [Tracked.missedBy, ha, hconc, hlt] at hnot
    · exact hpost v o c' s' hm
  · exact h v o c s hmem

end Fold

end Notice

/-! ## The latest observation wins -/

/-- The shape of a write to one row: a new row is put, over an old one only if the guard accepts,
or the row that is there is amended. -/
inductive Change (R : Type) where
  /-- Put `new`, over an old row only if it is accepted. -/
  | put (new : R) (accepts : R → Bool)
  /-- Amend the row that is there. -/
  | amend (f : R → R)

namespace Change

variable {R T A : Type}

/-- What a change does to a row. -/
def act (r : Option R) : Change R → Option R
  | put new accepts => some (Table.upsertRow new (fun old => if accepts old then new else old) r)
  | amend f => r.map f

/-- The row a change offers, if it offers one. -/
def offered : Change R → Option R
  | put new _ => some new
  | amend _ => none

/-- The guard follows the observation time where it can, and amending leaves it and the columns
`core` alone. -/
def Lawful [LinearOrder T] (obs : R → T) (core : R → A) : Change R → Prop
  | put new accepts =>
    (∀ old, obs old < obs new → accepts old = true) ∧
      (∀ old, obs new < obs old → accepts old = false)
  | amend f => ∀ r, obs (f r) = obs r ∧ core (f r) = core r

variable [LinearOrder T] {obs : R → T} {core : R → A}

/-- `r` is what the offers in `news` leave: nothing if there were none, else a row with the
columns of an offer that no other offer was observed after. -/
def Newest (obs : R → T) (core : R → A) (news : List R) : Option R → Prop
  | none => news = []
  | some r => (∃ new ∈ news, obs r = obs new ∧ core r = core new) ∧ ∀ new ∈ news, obs new ≤ obs r

theorem Newest.act {news : List R} {r : Option R} (h : Newest obs core news r) {c : Change R}
    (hc : c.Lawful obs core) : Newest obs core (news ++ c.offered.toList) (c.act r) := by
  cases c with
  | amend f =>
    cases r with
    | none => simpa [Newest, Change.act, offered] using h
    | some old =>
      obtain ⟨⟨new, hnew, ho, hcore⟩, hmax⟩ := h
      obtain ⟨hfo, hfc⟩ := hc old
      simp only [Change.act, offered, Option.map_some, Option.toList_none, List.append_nil]
      exact ⟨⟨new, hnew, hfo.trans ho, hfc.trans hcore⟩, fun n hn => hfo ▸ hmax n hn⟩
  | put new accepts =>
    simp only [Change.act, offered, Option.toList_some]
    cases r with
    | none =>
      rw [Newest] at h
      subst h
      exact ⟨⟨new, by simp, rfl, rfl⟩, by simp⟩
    | some old =>
      obtain ⟨⟨w, hw, ho, hcore⟩, hmax⟩ := h
      by_cases ha : accepts old = true
      · -- an accepted offer was not observed before the row it replaces
        have hle : obs old ≤ obs new := by
          by_contra hlt
          rw [hc.2 old (not_le.1 hlt)] at ha
          exact absurd ha (by simp)
        simp only [Table.upsertRow_some, ha, if_true]
        refine ⟨⟨new, by simp, rfl, rfl⟩, fun n hn => ?_⟩
        rcases List.mem_append.1 hn with hn | hn
        · exact (hmax n hn).trans hle
        · rw [List.mem_singleton.1 hn]
      · have hle : obs new ≤ obs old := by
          by_contra hlt
          exact ha (hc.1 old (not_le.1 hlt))
        simp only [Table.upsertRow_some, ha]
        refine ⟨⟨w, List.mem_append_left _ hw, ho, hcore⟩, fun n hn => ?_⟩
        rcases List.mem_append.1 hn with hn | hn
        · exact hmax n hn
        · rw [List.mem_singleton.1 hn]; exact hle

/-- **The latest observation wins.**  After any sequence of lawful changes from an empty row, the
row carries the columns of an offer that was observed last. -/
theorem replay_newest {cs : List (Change R)} (h : ∀ c ∈ cs, c.Lawful obs core) :
    Newest obs core (cs.filterMap offered) (cs.foldl act none) := by
  induction cs using List.reverseRecOn with
  | nil => rfl
  | append_singleton cs c ih =>
    have hcs := ih fun c' hc' => h c' (List.mem_append_left _ hc')
    have hc := h c (by simp)
    have hoff : (cs ++ [c]).filterMap offered = cs.filterMap offered ++ c.offered.toList := by
      rw [List.filterMap_append]
      cases hco : c.offered <;> simp [hco]
    rw [hoff, List.foldl_append]
    exact hcs.act hc

/-- When no two offers were observed at the same time, the columns that survive are those of the
one that was observed last. -/
theorem Newest.core_eq {news : List R} {r : R} (h : Newest obs core news (some r))
    {best : R} (hbest : best ∈ news) (hmax : ∀ new ∈ news, obs new ≤ obs best)
    (huniq : ∀ new ∈ news, obs new = obs best → core new = core best) :
    obs r = obs best ∧ core r = core best := by
  obtain ⟨⟨w, hw, ho, hcore⟩, hle⟩ := h
  have hobs : obs w = obs best := le_antisymm (hmax w hw) (ho ▸ hle best hbest)
  exact ⟨ho.trans hobs, hcore.trans (huniq w hw hobs)⟩

/-- The row that offers made from reports at distinct times leave is that of the latest report. -/
theorem Newest.map_eq_argmax {α β : Type} [LinearOrder β] {reports : List α} {mk : α → R}
    {time : α → β} {r : Option R} (h : Newest obs core (reports.map mk) r)
    (hmono : ∀ a ∈ reports, ∀ b ∈ reports, obs (mk a) ≤ obs (mk b) ↔ time a ≤ time b)
    (hdist : (reports.map time).Nodup) :
    r.map (fun row => (core row, obs row)) =
      (reports.argmax time).map fun a => (core (mk a), obs (mk a)) := by
  cases hb : reports.argmax time with
  | none =>
    rw [List.argmax_eq_none] at hb
    subst hb
    cases r with
    | none => rfl
    | some row => simp [Newest] at h
  | some best =>
    obtain ⟨hmem, hmax⟩ : best ∈ reports ∧ ∀ a ∈ reports, time a ≤ time best :=
      ⟨List.argmax_mem hb, fun a ha => List.le_of_mem_argmax ha hb⟩
    cases r with
    | none =>
      rw [Newest, List.map_eq_nil_iff] at h
      simp [h] at hmem
    | some row =>
      obtain ⟨hobs, hcore⟩ := h.core_eq (List.mem_map_of_mem hmem)
        (List.forall_mem_map.2 fun a ha => (hmono a ha best hmem).2 (hmax a ha))
        (List.forall_mem_map.2 fun a ha heq => by
          have ht : time a = time best :=
            le_antisymm (hmax a ha) ((hmono best hmem a ha).1 heq.ge)
          rw [List.inj_on_of_nodup_map hdist ha hmem ht])
      simp [hobs, hcore]

end Change

theorem argmax_eq_of_perm {α β : Type} [LinearOrder β] {time : α → β} {l l' : List α}
    (h : l.Perm l') (hdist : (l.map time).Nodup) : l.argmax time = l'.argmax time := by
  cases hb : l.argmax time with
  | none =>
    rw [List.argmax_eq_none] at hb
    have hl' : l' = [] := (hb ▸ h : [].Perm l').nil_eq.symm
    rw [hl', List.argmax_nil]
  | some best =>
    cases hb' : l'.argmax time with
    | none =>
      rw [List.argmax_eq_none] at hb'
      have hl : l = [] := List.Perm.eq_nil (hb' ▸ h)
      simp [hl] at hb
    | some best' =>
      have hmem : best ∈ l := List.argmax_mem hb
      have hmem' : best' ∈ l := h.mem_iff.2 (List.argmax_mem hb')
      have ht : time best = time best' :=
        le_antisymm (List.le_of_mem_argmax (h.mem_iff.1 hmem) hb')
          (List.le_of_mem_argmax hmem' hb)
      rw [List.inj_on_of_nodup_map hdist hmem hmem' ht]

section

variable {K T S A : Type} [LinearOrder T] [DecidableEq K]

/-- What a notice is to the row at key `k`: nothing, if it reports another row. -/
def Notice.change (k : K) : Notice K T S A → Option (Change (Tracked T S A))
  | .report key v o c s =>
    if key = k then some (.put (.fresh v o c s) fun old => old.olderThan o c) else none
  | .missing concerns c s =>
    some (.amend fun row => if row.missedBy (concerns k) c then row.deactivate c s else row)

theorem Notice.foldl_act (k : K) (ns : List (Notice K T S A)) (r : Option (Tracked T S A)) :
    ns.foldl (Notice.act k) r = (ns.filterMap (Notice.change k)).foldl Change.act r := by
  induction ns generalizing r with
  | nil => rfl
  | cons n ns ih =>
    rw [List.foldl_cons, ih]
    cases n with
    | report key v o c s =>
      by_cases hk : key = k
      · simp [Notice.change, Notice.act, Change.act, hk]
      · simp [Notice.change, Notice.act, hk]
    | missing concerns c s => simp [Notice.change, Notice.act, Change.act]

/-- The guard is lawful: it decides by the observation time unless the two are equal. -/
theorem Change.lawful_put {R : Type} {obs : R → T} {core : R → A} {new : R}
    {row : R → Stamped T S A} (hobs : ∀ r, (row r).observedAt = obs r) {c : T} :
    (Change.put new fun old => (row old).olderThan (obs new) c).Lawful obs core := by
  constructor
  · intro old h
    exact Stamped.olderThan_iff.2 (.inl (by rwa [hobs]))
  · intro old h
    rw [Bool.eq_false_iff, ne_eq, Stamped.olderThan_iff, hobs]
    rintro (h' | ⟨h', _⟩)
    · exact absurd h' h.not_gt
    · exact absurd h'.symm h.ne

theorem Notice.change_lawful {k : K} {n : Notice K T S A} {c : Change (Tracked T S A)}
    (h : n.change k = some c) :
    c.Lawful (fun row => row.observedAt) (fun row => row.value) := by
  cases n with
  | report key v o c' s =>
    rw [Notice.change] at h
    split at h
    · cases h
      exact Change.lawful_put fun _ => rfl
    · simp at h
  | missing concerns c' s =>
    cases h
    intro row
    simp only
    split <;> exact ⟨rfl, rfl⟩

/-- **Notices keep the latest observation.**  The row they leave carries the columns of a report
that was observed last. -/
theorem Notice.replay_newest (k : K) (ns : List (Notice K T S A)) :
    Change.Newest (fun row => row.observedAt) (fun row => row.value)
      ((ns.filterMap (Notice.change k)).filterMap Change.offered) (ns.foldl (Notice.act k) none) := by
  rw [Notice.foldl_act]
  refine Change.replay_newest fun c hc => ?_
  obtain ⟨n, _, hn⟩ := List.mem_filterMap.1 hc
  exact Notice.change_lawful hn

end

end Relational
