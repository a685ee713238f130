import NexusTier.Relational.Stamped

/-!
# What rounds say about one row

A round of observation looks at the world during a window of time.  About one thing it says that
it met it, that it looked everywhere and did not, or nothing.  When the windows of rounds do not
overlap, what the newest round says is the truth, and a table that is told of the rounds in any
order ought to follow it.

## What is here

* `Round` is a round as far as one row is concerned, and `Round.Moves` how it moves the row.
* `NewestHolds` says that the newest evidence in a list is positive.
* `Follows` is the invariant: the row shows the newest sighting, and is active unless a newer
  round missed it.  It survives a round that is *timely* (`Follows.moves`), and an untimely round
  makes the row contradict the newest evidence at once (`Follows.contradicts`).
* `Sighting` is the same for a row that is removed when it is missed, with `Sighting.Follows` and
  its two theorems.

A round is untimely when it brings the newest sighting so far, after a still newer round that
missed the thing has been recorded: a row that does not exist has no place to remember the miss,
and one that does compares the sighting with the last sighting only.

Nothing here names a repository.  Times are any linear order, and rows carry what they like.
-/

set_option autoImplicit false

namespace Relational

/-- The newest evidence in the list is positive: some positive entry has the greatest time among
all entries that are evidence. -/
def NewestHolds {α β : Type} [LE β] (time : α → β) (evidence positive : α → Prop) (l : List α) :
    Prop :=
  ∃ a ∈ l, positive a ∧ ∀ b ∈ l, evidence b → time b ≤ time a

/-- What a round says about one thing. -/
inductive Verdict where
  | met
  | missed
  | silent
deriving DecidableEq

/-- A round of observation, as far as one thing is concerned. -/
structure Round (T : Type) where
  /-- The start of its window. -/
  opened : T
  /-- The end of its window. -/
  closed : T
  /-- What it says. -/
  verdict : Verdict

namespace Round

variable {T S A : Type} [LinearOrder T]

/-- The windows do not overlap. -/
def Apart (x y : Round T) : Prop := x.closed < y.opened ∨ y.closed < x.opened

/-- The row as a report of the round leaves it. -/
def Renews (x : Round T) (r : Option (Tracked T S A)) : Prop :=
  ∃ row, r = some row ∧ row.active = true ∧ row.completedAt = x.closed ∧
    x.opened ≤ row.observedAt ∧ row.observedAt ≤ x.closed

/-- How a round moves a row.  A row last observed inside the window of a round that met it is not
spoken of: the windows do not overlap. -/
def Moves (x : Round T) (r r' : Option (Tracked T S A)) : Prop :=
  match x.verdict with
  | .met =>
    ((∀ row ∈ r, row.observedAt < x.opened) → x.Renews r') ∧
      ∀ row ∈ r, x.closed < row.observedAt → r' = r
  | .missed => ∃ source : S, r' = r.map fun row =>
      if row.active && decide (row.completedAt < x.closed) then row.deactivate x.closed source
      else row
  | .silent => r' = r

/-- A round that brings the newest sighting comes before any newer miss. -/
def Timely (past : List (Round T)) (x : Round T) : Prop :=
  x.verdict = .met → (∀ y ∈ past, y.verdict = .met → y.closed < x.closed) →
    ∀ y ∈ past, y.verdict = .missed → y.closed < x.closed

/-- The row after the rounds in `past`: it shows the newest sighting, and is active unless a newer
round missed it. -/
def Follows (past : List (Round T)) : Option (Tracked T S A) → Prop
  | none => ∀ y ∈ past, y.verdict ≠ .met
  | some row => ∃ p ∈ past, p.verdict = .met ∧ (∀ y ∈ past, y.verdict = .met → y.closed ≤ p.closed) ∧
      p.opened ≤ row.observedAt ∧ row.observedAt ≤ p.closed ∧
      (row.active = true → row.completedAt = p.closed ∧
        ∀ y ∈ past, y.verdict = .missed → y.closed < p.closed) ∧
      (row.active = false → ∃ y ∈ past, y.verdict = .missed ∧ p.closed < y.closed)

/-- The newest evidence says that the thing was met. -/
def NewestMet (past : List (Round T)) : Prop :=
  NewestHolds closed (fun y => y.verdict ≠ .silent) (fun y => y.verdict = .met) past

/-- Is there an active row? -/
def Active (r : Option (Tracked T S A)) : Prop := ∃ row, r = some row ∧ row.active = true

/-- A row that follows the rounds is active exactly when the newest evidence is positive. -/
theorem Follows.active_iff {past : List (Round T)} {r : Option (Tracked T S A)}
    (h : Follows past r) : Active r ↔ NewestMet past := by
  cases r with
  | none =>
    refine ⟨fun ⟨_, hr, _⟩ => by simp at hr, fun ⟨p, hp, hmet, _⟩ => absurd hmet (h p hp)⟩
  | some row =>
    obtain ⟨p, hp, hmet, hmax, _, _, hact, hinact⟩ := h
    constructor
    · rintro ⟨_, ⟨⟩, ha⟩
      refine ⟨p, hp, hmet, fun y hy hev => ?_⟩
      cases hv : y.verdict with
      | met => exact hmax y hy hv
      | missed => exact ((hact ha).2 y hy hv).le
      | silent => exact absurd hv hev
    · rintro ⟨q, hq, hqmet, hqmax⟩
      refine ⟨row, rfl, ?_⟩
      by_contra hna
      obtain ⟨y, hy, hmiss, hlt⟩ := hinact (by simpa using hna)
      have h1 : y.closed ≤ q.closed := hqmax y hy (by simp [hmiss])
      exact absurd (h1.trans (hmax q hq hqmet)) hlt.not_ge

section

variable {past : List (Round T)} {x : Round T} {r r' : Option (Tracked T S A)}

/-- A sighting older than the newest one leaves the row alone; a newer one renews it. -/
theorem Follows.met_cases (h : Follows past r) (hx : x.verdict = .met)
    (hwin : ∀ y ∈ past, y.opened ≤ y.closed) (hxw : x.opened ≤ x.closed)
    (hapart : ∀ y ∈ past, x.Apart y) (hm : x.Moves r r') :
    ((∀ y ∈ past, y.verdict = .met → y.closed < x.closed) ∧ x.Renews r') ∨
      ((∃ p ∈ past, p.verdict = .met ∧ x.closed < p.closed) ∧ r' = r) := by
  simp only [Moves, hx] at hm
  cases r with
  | none => exact .inl ⟨fun y hy hmet => absurd hmet (h y hy), hm.1 (by simp)⟩
  | some row =>
    obtain ⟨p, hp, hmet, hmax, hlo, hhi, _⟩ := h
    rcases hapart p hp with hbefore | hafter
    · refine .inr ⟨⟨p, hp, hmet, hbefore.trans_le (hwin p hp)⟩, hm.2 row rfl (hbefore.trans_le hlo)⟩
    · refine .inl ⟨fun y hy hym => (hmax y hy hym).trans_lt (hafter.trans_le hxw), hm.1 ?_⟩
      rintro _ ⟨⟩
      exact hhi.trans_lt hafter

/-- A row that a round leaves alone, since it has shown a sighting as new, or newer than the miss. -/
theorem Follows.append (h : Follows past r)
    (hmet : x.verdict = .met → ∃ q ∈ past, q.verdict = .met ∧ x.closed ≤ q.closed)
    (hmissed : x.verdict = .missed → ∀ row ∈ r, row.active = true → x.closed < row.completedAt) :
    Follows (past ++ [x]) r := by
  cases r with
  | none =>
    intro y hy hym
    rcases List.mem_append.1 hy with hy | hy
    · exact h y hy hym
    · obtain ⟨q, hq, hqm, -⟩ := hmet (List.mem_singleton.1 hy ▸ hym)
      exact h q hq hqm
  | some row =>
    obtain ⟨p, hp, hpm, hmax, hlo, hhi, hact, hinact⟩ := h
    refine ⟨p, by simp [hp], hpm, ?_, hlo, hhi, fun ha => ⟨(hact ha).1, ?_⟩, fun ha => ?_⟩
    · intro y hy hym
      rcases List.mem_append.1 hy with hy | hy
      · exact hmax y hy hym
      · obtain rfl := List.mem_singleton.1 hy
        obtain ⟨q, hq, hqm, hle⟩ := hmet hym
        exact hle.trans (hmax q hq hqm)
    · intro y hy hmiss
      rcases List.mem_append.1 hy with hy | hy
      · exact (hact ha).2 y hy hmiss
      · obtain rfl := List.mem_singleton.1 hy
        exact (hact ha).1 ▸ hmissed hmiss row rfl ha
    · obtain ⟨y, hy, hmiss, hlt⟩ := hinact ha
      exact ⟨y, by simp [hy], hmiss, hlt⟩

/-- **A timely round keeps the row true to the newest evidence.** -/
theorem Follows.moves (h : Follows past r) (hwin : ∀ y ∈ past, y.opened ≤ y.closed)
    (hxw : x.opened ≤ x.closed) (hapart : ∀ y ∈ past, x.Apart y) (htimely : x.Timely past)
    (hm : x.Moves r r') : Follows (past ++ [x]) r' := by
  cases hv : x.verdict with
  | silent =>
    have hr : r' = r := by simpa only [Moves, hv] using hm
    subst hr
    exact h.append (by simp [hv]) (by simp [hv])
  | met =>
    rcases h.met_cases hv hwin hxw hapart hm with ⟨hnew, row, rfl, ha, hc, hlo, hhi⟩ | ⟨hold, rfl⟩
    · refine ⟨x, by simp, hv, ?_, hlo, hhi, fun _ => ⟨hc, ?_⟩, fun ha' => by simp [ha] at ha'⟩
      · intro y hy hmet
        rcases List.mem_append.1 hy with hy | hy
        · exact (hnew y hy hmet).le
        · rw [List.mem_singleton.1 hy]
      · intro y hy hmiss
        rcases List.mem_append.1 hy with hy | hy
        · exact htimely hv hnew y hy hmiss
        · rw [List.mem_singleton.1 hy, hv] at hmiss
          simp at hmiss
    · obtain ⟨q, hq, hqmet, hlt⟩ := hold
      exact h.append (fun _ => ⟨q, hq, hqmet, hlt.le⟩) (by simp [hv])
  | missed =>
    simp only [Moves, hv] at hm
    obtain ⟨source, rfl⟩ := hm
    cases r with
    | none => exact h.append (by simp [hv]) (by simp)
    | some row =>
      simp only [Option.map_some]
      split
      · rename_i hg
        simp only [Bool.and_eq_true, decide_eq_true_eq] at hg
        obtain ⟨p, hp, hmet, hmax, hlo, hhi, hact, -⟩ := h
        -- an active row carries the closing time of the newest sighting, so this miss is newer
        refine ⟨p, by simp [hp], hmet, by simpa [or_imp, forall_and, hv] using hmax, hlo, hhi,
          fun ha => by simp [Tracked.deactivate] at ha, fun _ => ⟨x, by simp, hv, ?_⟩⟩
        rw [← (hact hg.1).1]
        exact hg.2
      · rename_i hg
        simp only [Bool.and_eq_true, decide_eq_true_eq, not_and, not_lt] at hg
        refine h.append (by simp [hv]) ?_
        rintro - _ ⟨⟩ ha
        obtain ⟨p, hp, -, -, -, -, hact, -⟩ := h
        have hle := hg ha
        rw [(hact ha).1] at hle ⊢
        -- the miss is not newer than the row, and its window is not that of the sighting
        rcases hapart p hp with hb | hb
        · exact hb.trans_le (hwin p hp)
        · exact absurd (hb.trans_le hxw) hle.not_gt

/-- **An untimely round contradicts the newest evidence.**  Afterwards the row is active, and the
newest evidence is a miss. -/
theorem Follows.contradicts (h : Follows past r) (hwin : ∀ y ∈ past, y.opened ≤ y.closed)
    (hxw : x.opened ≤ x.closed) (hapart : ∀ y ∈ past, x.Apart y) (hlate : ¬ x.Timely past)
    (hm : x.Moves r r') : Active r' ∧ ¬ NewestMet (past ++ [x]) := by
  rw [Timely] at hlate
  push Not at hlate
  obtain ⟨hv, hnew, n, hn, hmiss, hle⟩ := hlate
  have hlt : x.closed < n.closed := by
    rcases hapart n hn with hb | hb
    · exact hb.trans_le (hwin n hn)
    · exact absurd (hb.trans_le hxw) hle.not_gt
  constructor
  · rcases h.met_cases hv hwin hxw hapart hm with ⟨_, row, rfl, ha, _⟩ | ⟨⟨p, hp, hmet, hlt'⟩, _⟩
    · exact ⟨row, rfl, ha⟩
    · exact absurd (hnew p hp hmet) hlt'.not_gt
  · rintro ⟨p, hp, hmet, hmax⟩
    have hnp : n.closed ≤ p.closed := hmax n (by simp [hn]) (by simp [hmiss])
    rcases List.mem_append.1 hp with hp | hp
    · exact absurd ((hnew p hp hmet).trans hlt) hnp.not_gt
    · rw [List.mem_singleton.1 hp] at hnp
      exact absurd hlt hnp.not_gt

end

end Round

/-! ## Rows that are removed when they are missed -/

/-- What one observation says about one thing whose row is removed when it is missed. -/
structure Sighting (T : Type) where
  /-- When it was made. -/
  observedAt : T
  /-- When its round was completed. -/
  completedAt : T
  /-- What it says. -/
  verdict : Verdict

namespace Sighting

variable {T S A : Type} [LinearOrder T]

/-- The row carries the two times of the observation. -/
def Stamps (x : Sighting T) (r : Option (Stamped T S A)) : Prop :=
  ∃ row, r = some row ∧ row.observedAt = x.observedAt ∧ row.completedAt = x.completedAt

/-- How an observation moves a row: an older row makes way, to the new one or to nothing. -/
def Moves (x : Sighting T) (r r' : Option (Stamped T S A)) : Prop :=
  match x.verdict with
  | .met =>
    (r = none → x.Stamps r') ∧
      ∀ row ∈ r, if row.olderThan x.observedAt x.completedAt then x.Stamps r' else r' = r
  | .missed => r' = r.filter fun row => !row.olderThan x.observedAt x.completedAt
  | .silent => r' = r

/-- The newest evidence says that the thing was met. -/
def NewestMet (past : List (Sighting T)) : Prop :=
  NewestHolds observedAt (fun y => y.verdict ≠ .silent) (fun y => y.verdict = .met) past

/-- An observation that met the thing, while the newest evidence has it gone, is not older than a
miss. -/
def Timely (past : List (Sighting T)) (x : Sighting T) : Prop :=
  x.verdict = .met → ¬ NewestMet past →
    ∀ y ∈ past, y.verdict = .missed → y.observedAt ≤ x.observedAt

/-- Observations made at the same time belong to the same round. -/
def Agrees (x y : Sighting T) : Prop := x.observedAt = y.observedAt → x.completedAt = y.completedAt

/-- The row after the observations in `past`: it is there, as the newest evidence left it, or a
newer miss outweighs every sighting. -/
def Follows (past : List (Sighting T)) : Option (Stamped T S A) → Prop
  | none => ∀ y ∈ past, y.verdict = .met →
      ∃ n ∈ past, n.verdict = .missed ∧ y.observedAt < n.observedAt
  | some row => ∃ p ∈ past, p.verdict = .met ∧ row.observedAt = p.observedAt ∧
      row.completedAt = p.completedAt ∧
      ∀ y ∈ past, y.verdict ≠ .silent → y.observedAt ≤ p.observedAt

/-- A row that follows the observations is there exactly when the newest evidence is positive. -/
theorem Follows.isSome_iff {past : List (Sighting T)} {r : Option (Stamped T S A)}
    (h : Follows past r) : r.isSome = true ↔ NewestMet past := by
  cases r with
  | none =>
    refine ⟨fun hr => by simp at hr, fun ⟨p, hp, hmet, hmax⟩ => ?_⟩
    obtain ⟨n, hn, hmiss, hlt⟩ := h p hp hmet
    exact absurd hlt (hmax n hn (by simp [hmiss])).not_gt
  | some row =>
    obtain ⟨p, hp, hmet, _, _, hmax⟩ := h
    exact ⟨fun _ => ⟨p, hp, hmet, hmax⟩, fun _ => rfl⟩

section

variable {past : List (Sighting T)} {x : Sighting T} {r r' : Option (Stamped T S A)}

/-- Between observations that agree, a row is older than a new one when its observation is. -/
theorem Follows.olderThan_iff {row : Stamped T S A} (h : Follows past (some row))
    (hagree : ∀ y ∈ past, x.Agrees y) :
    row.olderThan x.observedAt x.completedAt = true ↔ row.observedAt < x.observedAt := by
  obtain ⟨p, hp, -, ho, hc, -⟩ := h
  rw [Stamped.olderThan_iff, ho, hc]
  constructor
  · rintro (h | ⟨h, h'⟩)
    · exact h
    · exact absurd (hagree p hp h.symm) h'.ne'
  · exact .inl

/-- A row that an observation leaves alone, since it is not newer. -/
theorem Follows.append (h : Follows past r) (hnone : x.verdict = .met → r ≠ none)
    (hsome : x.verdict ≠ .silent → ∀ row ∈ r, x.observedAt ≤ row.observedAt) :
    Follows (past ++ [x]) r := by
  cases r with
  | none =>
    intro y hy hmet
    rcases List.mem_append.1 hy with hy | hy
    · obtain ⟨n, hn, hmiss, hlt⟩ := h y hy hmet
      exact ⟨n, by simp [hn], hmiss, hlt⟩
    · exact absurd rfl (hnone (List.mem_singleton.1 hy ▸ hmet))
  | some row =>
    obtain ⟨p, hp, hmet, ho, hc, hmax⟩ := h
    refine ⟨p, by simp [hp], hmet, ho, hc, fun y hy hev => ?_⟩
    rcases List.mem_append.1 hy with hy | hy
    · exact hmax y hy hev
    · obtain rfl := List.mem_singleton.1 hy
      exact ho ▸ hsome hev row rfl

/-- **A timely observation keeps the row true to the newest evidence.** -/
theorem Follows.moves (h : Follows past r) (hagree : ∀ y ∈ past, x.Agrees y)
    (htimely : x.Timely past) (hm : x.Moves r r') : Follows (past ++ [x]) r' := by
  cases hv : x.verdict with
  | silent =>
    have hr : r' = r := by simpa only [Moves, hv] using hm
    subst hr
    exact h.append (by simp [hv]) (by simp [hv])
  | met =>
    simp only [Moves, hv] at hm
    cases r with
    | none =>
      obtain ⟨row, rfl, ho, hc⟩ := hm.1 rfl
      have hgone : ¬ NewestMet past := fun hn => by simpa using h.isSome_iff.2 hn
      refine ⟨x, by simp, hv, ho, hc, fun y hy hev => ?_⟩
      rcases List.mem_append.1 hy with hy | hy
      · cases hy' : y.verdict with
        | met =>
          obtain ⟨n, hn, hmiss, hlt⟩ := h y hy hy'
          exact hlt.le.trans (htimely hv hgone n hn hmiss)
        | missed => exact htimely hv hgone y hy hy'
        | silent => exact absurd hy' hev
      · rw [List.mem_singleton.1 hy]
    | some row =>
      have hrow := hm.2 row rfl
      have hiff := h.olderThan_iff hagree
      split at hrow
      · rename_i hold
        obtain ⟨row', rfl, ho', hc'⟩ := hrow
        obtain ⟨p, hp, hmet, ho, hc, hmax⟩ := h
        refine ⟨x, by simp, hv, ho', hc', fun y hy hev => ?_⟩
        rcases List.mem_append.1 hy with hy | hy
        · exact (hmax y hy hev).trans (ho ▸ (hiff.1 hold).le)
        · rw [List.mem_singleton.1 hy]
      · rename_i hold
        subst hrow
        rw [hiff, not_lt] at hold
        refine h.append (by simp) ?_
        rintro - _ ⟨⟩
        exact hold
  | missed =>
    simp only [Moves, hv] at hm
    subst hm
    cases r with
    | none => exact h.append (by simp [hv]) (by simp)
    | some row =>
      have hiff := h.olderThan_iff hagree
      by_cases hold : row.olderThan x.observedAt x.completedAt = true
      · simp only [Option.filter_some, hold, Bool.not_true]
        obtain ⟨p, hp, hmet, ho, hc, hmax⟩ := h
        intro y hy hym
        rcases List.mem_append.1 hy with hy | hy
        · exact ⟨x, by simp, hv, (hmax y hy (by simp [hym])).trans_lt (ho ▸ hiff.1 hold)⟩
        · simp [List.mem_singleton.1 hy, hv] at hym
      · have hle := hold
        rw [hiff, not_lt] at hle
        simp only [Option.filter_some, hold, Bool.not_false, if_true]
        refine h.append (by simp) ?_
        rintro - _ ⟨⟩
        exact hle

/-- **An untimely observation contradicts the newest evidence.**  Afterwards the row is there, and
the newest evidence is a miss. -/
theorem Follows.contradicts (h : Follows past r) (hlate : ¬ x.Timely past) (hm : x.Moves r r') :
    r'.isSome = true ∧ ¬ NewestMet (past ++ [x]) := by
  rw [Timely] at hlate
  push Not at hlate
  obtain ⟨hv, hgone, n, hn, hmiss, hlt⟩ := hlate
  have hr : r = none := by
    cases r with
    | none => rfl
    | some row => exact absurd (h.isSome_iff.1 rfl) hgone
  subst hr
  simp only [Moves, hv] at hm
  constructor
  · obtain ⟨row, rfl, _⟩ := hm.1 trivial
    rfl
  · rintro ⟨p, hp, hmet, hmax⟩
    rcases List.mem_append.1 hp with hp | hp
    · exact hgone ⟨p, hp, hmet, fun y hy hev => hmax y (by simp [hy]) hev⟩
    · rw [List.mem_singleton.1 hp] at hmax
      exact absurd hlt (hmax n (by simp [hn]) (by simp [hmiss])).not_gt

end

end Sighting

end Relational
