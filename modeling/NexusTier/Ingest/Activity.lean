import NexusTier.Relational.Evidence
import NexusTier.Ingest.History

/-!
# Is a machine active?

A snapshot is evidence about a machine: positive if it lists it, negative if it does not and its
collection met no error.  When collections run one after the other, the newest evidence is the
truth, and `machines.active` is there to show it.

It does, as long as no snapshot arrives *untimely*: one that lists a machine, newer than every
snapshot ingested before it that does, after a complete and still newer collection that did not
meet the machine (`Snapshot.Timely`).  A timely run leaves every machine as the newest evidence
has it, and an untimely snapshot activates a machine against it.

## What is here

* `Snapshot.Timely` and `TimelyRun`: what is asked of a snapshot where it arrives, and of a run.
* `MachineFollows`: machine and evidence agree.
* `machineFollows_iff_timelyRun`: they do in every state of a run exactly if the run is timely.
* `stale_report_reactivates_machine`: a run in which they do not.

The invariant is `Follows` of `Relational/Evidence.lean`, with snapshots as its rounds (`round`).

## What is left out

Collections that overlap.  For these "the newest evidence" has no meaning that one time could tell.
-/

set_option autoImplicit false

namespace NexusTier

open Relational

/-! ## Evidence -/

namespace Snapshot

/-- The snapshot lists machine `m`: positive evidence. -/
def Lists (m : Uuid) (s : Snapshot) : Prop := m ∈ machineIDs s.machines.elems

/-- The snapshot does not list machine `m`, and has no top-level error: negative evidence. -/
def Misses (m : Uuid) (s : Snapshot) : Prop := ¬ s.Lists m ∧ s.errors.elems = []

/-- Every observation of the snapshot was made during its collection. -/
def Windowed (s : Snapshot) : Prop :=
  ∀ machine ∈ s.machines.elems,
    (s.startedAtMS ≤ machine.observedAtMS ∧ machine.observedAtMS ≤ s.completedAtMS) ∧
    ∀ inst ∈ machine.instances.elems,
      s.startedAtMS ≤ inst.observedAtMS ∧ inst.observedAtMS ≤ s.completedAtMS

/-- The two collections did not overlap. -/
def Apart (s s' : Snapshot) : Prop :=
  s.completedAtMS < s'.startedAtMS ∨ s'.completedAtMS < s.startedAtMS

/-- A snapshot that brings the newest sighting of a machine comes before any newer complete
collection that missed it. -/
def Timely (m : Uuid) (past : List Snapshot) (s : Snapshot) : Prop :=
  s.Lists m → (∀ p ∈ past, p.Lists m → p.completedAtMS < s.completedAtMS) →
    ∀ n ∈ past, n.Misses m → n.completedAtMS < s.completedAtMS

instance (m : Uuid) : DecidablePred (Lists m) := fun s =>
  inferInstanceAs (Decidable (m ∈ machineIDs s.machines.elems))

instance (m : Uuid) : DecidablePred (Misses m) := fun s =>
  inferInstanceAs (Decidable (¬ s.Lists m ∧ s.errors.elems = []))

instance (m : Uuid) (past : List Snapshot) : DecidablePred (Timely m past) := fun s =>
  inferInstanceAs (Decidable (s.Lists m → _ → _))

instance : DecidablePred Windowed := fun s =>
  inferInstanceAs (Decidable (∀ machine ∈ s.machines.elems, (_ ∧ _) ∧ ∀ inst ∈ _, _ ∧ _))

instance : DecidableRel Apart := fun s s' =>
  inferInstanceAs (Decidable (s.completedAtMS < s'.startedAtMS ∨ _))

end Snapshot

/-- The evidence about machine `m` with the greatest `completed_at` is positive. -/
def NewestEvidenceLists (m : Uuid) (snapshots : List Snapshot) : Prop :=
  NewestHolds Snapshot.completedAtMS (fun s => s.Lists m ∨ s.Misses m) (Snapshot.Lists m) snapshots

instance (m : Uuid) : DecidablePred (NewestEvidenceLists m) := fun snapshots =>
  inferInstanceAs (Decidable (∃ s ∈ snapshots, s.Lists m ∧ ∀ e ∈ snapshots, _ → _))

/-- Machine `m` has an active row. -/
def Db.MachineActive (db : Db) (m : Uuid) : Prop :=
  ∃ row, db.machines[m]? = some row ∧ row.active = true

/-! ## A snapshot as a round -/

namespace Snapshot

variable {s : Snapshot} {m : Uuid}

/-- What a snapshot says about machine `m`. -/
def round (m : Uuid) (s : Snapshot) : Round Timestamp where
  opened := millis s.startedAtMS
  closed := millis s.completedAtMS
  verdict := if s.Lists m then .met else if s.errors.elems = [] then .missed else .silent

theorem round_met_iff : (s.round m).verdict = .met ↔ s.Lists m := by
  simp only [round]
  split
  · simp_all
  · split <;> simp_all

theorem round_missed_iff : (s.round m).verdict = .missed ↔ s.Misses m := by
  simp only [round, Misses]
  split
  · simp_all
  · split <;> simp_all

theorem Valid.started_max (hv : s.Valid) : s.startedAtMS ≤ maxTimestampMS :=
  UInt64.le_trans hv.started_le hv.completed_le

theorem Valid.round_opened_le (hv : s.Valid) : (s.round m).opened ≤ (s.round m).closed :=
  (millis_le_millis_iff hv.started_max hv.completed_le).2 hv.started_le

theorem Apart.round {s' : Snapshot} (h : s.Apart s') (hv : s.Valid) (hv' : s'.Valid) :
    (s.round m).Apart (s'.round m) := by
  rcases h with h | h
  · exact .inl ((millis_lt_millis_iff hv.completed_le hv'.started_max).2 h)
  · exact .inr ((millis_lt_millis_iff hv'.completed_le hv.started_max).2 h)

/-- The reports of the machines in `l`, as they act on the row of `m`. -/
def reportsOn (m : Uuid) (s : Snapshot) (l : List Machine) (r : Option MachineRow) :
    Option MachineRow :=
  (l.map (machineReport s.collectionID (millis s.completedAtMS))).foldl (Notice.act m) r

section Reports

variable {l : List Machine} {r : Option MachineRow}

/-- The window of the round, for the observations in `l`. -/
def Within (s : Snapshot) (l : List Machine) : Prop :=
  ∀ machine ∈ l, millis s.startedAtMS ≤ millis machine.observedAtMS ∧
    millis machine.observedAtMS ≤ millis s.completedAtMS

theorem Within.cons {machine : Machine} (h : s.Within (machine :: l)) : s.Within l :=
  fun m' hm' => h m' (by simp [hm'])

/-- One report on the row of `m`. -/
theorem reportsOn_cons (machine : Machine) :
    s.reportsOn m (machine :: l) r = s.reportsOn m l
      (if machine.session.machineID = m then
        some (Table.upsertRow
          (.fresh (machineColumns machine) (millis machine.observedAtMS)
            (millis s.completedAtMS) s.collectionID)
          (fun old =>
            if old.olderThan (millis machine.observedAtMS) (millis s.completedAtMS) then
              .fresh (machineColumns machine) (millis machine.observedAtMS)
                (millis s.completedAtMS) s.collectionID
            else old) r)
      else r) := rfl

theorem reportsOn_renewed (hl : s.Within l) (hr : (s.round m).Renews r) :
    (s.round m).Renews (s.reportsOn m l r) := by
  induction l generalizing r with
  | nil => exact hr
  | cons machine l ih =>
    rw [reportsOn_cons]
    refine ih hl.cons ?_
    obtain ⟨row, rfl, hrow⟩ := hr
    have hw := hl machine (by simp)
    split
    · refine ⟨_, rfl, ?_⟩
      rw [Table.upsertRow_some]
      split
      · exact ⟨rfl, rfl, hw.1, hw.2⟩
      · exact hrow
    · exact ⟨row, rfl, hrow⟩

theorem reportsOn_older (hl : s.Within l) (hm : m ∈ machineIDs l)
    (hr : ∀ row ∈ r, row.observedAt < (s.round m).opened) :
    (s.round m).Renews (s.reportsOn m l r) := by
  induction l with
  | nil => simp [machineIDs] at hm
  | cons machine l ih =>
    rw [reportsOn_cons]
    have hw := hl machine (by simp)
    split
    · refine reportsOn_renewed hl.cons ⟨_, rfl, ?_⟩
      cases r with
      | none => exact ⟨rfl, rfl, hw.1, hw.2⟩
      | some old =>
        have hold : old.olderThan (millis machine.observedAtMS) (millis s.completedAtMS) = true :=
          Stamped.olderThan_iff.2 (.inl ((hr old rfl).trans_le hw.1))
        rw [Table.upsertRow_some, hold]
        exact ⟨rfl, rfl, hw.1, hw.2⟩
    · rename_i hne
      rcases List.mem_cons.1 hm with h | h
      · exact absurd h.symm hne
      · exact ih hl.cons h

theorem reportsOn_newer (hl : s.Within l) {row : MachineRow}
    (hr : (s.round m).closed < row.observedAt) :
    s.reportsOn m l (some row) = some row := by
  induction l with
  | nil => rfl
  | cons machine l ih =>
    rw [reportsOn_cons]
    have hw := hl machine (by simp)
    have hlt : millis machine.observedAtMS < row.observedAt := hw.2.trans_lt hr
    have hnot : row.olderThan (millis machine.observedAtMS) (millis s.completedAtMS) = false := by
      rw [Bool.eq_false_iff, ne_eq, Stamped.olderThan_iff]
      rintro (h | ⟨h, _⟩)
      · exact absurd h hlt.not_gt
      · exact absurd h hlt.ne'
    split
    · rw [Table.upsertRow_some, hnot]
      exact ih hl.cons
    · exact ih hl.cons

theorem reportsOn_absent (hm : m ∉ machineIDs l) : s.reportsOn m l r = r := by
  induction l generalizing r with
  | nil => rfl
  | cons machine l ih =>
    rw [machineIDs, List.map_cons, List.mem_cons, not_or] at hm
    rw [reportsOn_cons, if_neg fun h => hm.1 h.symm]
    exact ih hm.2

end Reports

/-- What the last statement of `Ingest` does to the row of `m`. -/
theorem missingOn (r : Option MachineRow) :
    (missingWrites s).machines.foldl (Notice.act m) r =
      if s.Misses m then r.map fun row =>
        if row.active && decide (row.completedAt < millis s.completedAtMS) then
          row.deactivate (millis s.completedAtMS) s.collectionID
        else row
      else r := by
  by_cases he : s.errors.elems = []
  · by_cases hl : s.Lists m
    · have hmem : m ∈ machineIDs s.machines.elems := hl
      cases r <;> simp [missingWrites, he, Misses, hl, hmem, Notice.act, Tracked.missedBy]
    · have hmem : m ∉ machineIDs s.machines.elems := hl
      simp [missingWrites, he, Misses, hl, hmem, Notice.act, Tracked.missedBy]
  · simp [missingWrites, he, Misses]

theorem Valid.within (hv : s.Valid) (hw : s.Windowed) : s.Within s.machines.elems := by
  intro machine hm
  have hle := (hw machine hm).1
  have hmax := UInt64.le_trans hle.2 hv.completed_le
  exact ⟨(millis_le_millis_iff hv.started_max hmax).2 hle.1,
    (millis_le_millis_iff hmax hv.completed_le).2 hle.2⟩

/-- **A snapshot moves the row of a machine as a round does.** -/
theorem moves (hv : s.Valid) (hw : s.Windowed) (r : Option MachineRow) :
    (s.round m).Moves r (s.machineNotices.foldl (Notice.act m) r) := by
  have hwin := hv.within hw
  have hstmts : s.machineNotices.foldl (Notice.act m) r =
      (missingWrites s).machines.foldl (Notice.act m) (s.reportsOn m s.machines.elems r) :=
    List.foldl_append
  rw [hstmts, missingOn, Round.Moves]
  cases hverdict : (s.round m).verdict with
  | met =>
    have hlists := round_met_iff.1 hverdict
    have hnot : ¬ s.Misses m := fun h => h.1 hlists
    rw [if_neg hnot]
    refine ⟨reportsOn_older hwin hlists, ?_⟩
    rintro row ⟨⟩ hlt
    exact reportsOn_newer hwin hlt
  | missed =>
    have hmiss := round_missed_iff.1 hverdict
    rw [if_pos hmiss, reportsOn_absent hmiss.1]
    exact ⟨s.collectionID, rfl⟩
  | silent =>
    have hmet : ¬ s.Lists m := fun h => by simp [round_met_iff.2 h] at hverdict
    have hmiss : ¬ s.Misses m := fun h => by simp [round_missed_iff.2 h] at hverdict
    rw [if_neg hmiss, reportsOn_absent hmet]

theorem round_closed_le_iff {s' : Snapshot} (hv : s.Valid) (hv' : s'.Valid) :
    (s.round m).closed ≤ (s'.round m).closed ↔ s.completedAtMS ≤ s'.completedAtMS :=
  millis_le_millis_iff hv.completed_le hv'.completed_le

theorem round_closed_lt_iff {s' : Snapshot} (hv : s.Valid) (hv' : s'.Valid) :
    (s.round m).closed < (s'.round m).closed ↔ s.completedAtMS < s'.completedAtMS :=
  millis_lt_millis_iff hv.completed_le hv'.completed_le

theorem round_timely_iff {past : List Snapshot} (hv : s.Valid) (hpast : ∀ p ∈ past, p.Valid) :
    (s.round m).Timely (past.map (round m)) ↔ s.Timely m past := by
  simp only [Round.Timely, Timely, List.forall_mem_map, round_met_iff, round_missed_iff]
  refine imp_congr_right fun _ => imp_congr ?_ ?_
  · exact forall₂_congr fun p hp => by rw [round_closed_lt_iff (hpast p hp) hv]
  · exact forall₂_congr fun p hp => by rw [round_closed_lt_iff (hpast p hp) hv]

end Snapshot

theorem newestMet_iff {m : Uuid} {snapshots : List Snapshot} (hv : ∀ s ∈ snapshots, s.Valid) :
    Round.NewestMet (snapshots.map (Snapshot.round m)) ↔ NewestEvidenceLists m snapshots := by
  have hev : ∀ s : Snapshot, (s.round m).verdict ≠ .silent ↔ s.Lists m ∨ s.Misses m := by
    intro s
    rw [← Snapshot.round_met_iff, ← Snapshot.round_missed_iff]
    cases (s.round m).verdict <;> simp
  have hle : ∀ p ∈ snapshots, (∀ s ∈ snapshots, s.Lists m ∨ s.Misses m →
        (s.round m).closed ≤ (p.round m).closed) ↔
      ∀ s ∈ snapshots, s.Lists m ∨ s.Misses m → s.completedAtMS ≤ p.completedAtMS :=
    fun p hp => forall₂_congr fun s hs => by
      rw [Snapshot.round_closed_le_iff (hv s hs) (hv p hp)]
  simp only [Round.NewestMet, NewestEvidenceLists, NewestHolds, List.forall_mem_map, hev]
  constructor
  · rintro ⟨_, hmem, hmet, hmax⟩
    obtain ⟨p, hp, rfl⟩ := List.mem_map.1 hmem
    exact ⟨p, hp, Snapshot.round_met_iff.1 hmet, (hle p hp).1 hmax⟩
  · rintro ⟨p, hp, hlists, hmax⟩
    exact ⟨_, List.mem_map_of_mem hp, Snapshot.round_met_iff.2 hlists, (hle p hp).2 hmax⟩

/-! ## Runs -/

/-- Snapshots of collections that ran one after the other. -/
structure Collected (snapshots : List Snapshot) : Prop where
  windowed : ∀ s ∈ snapshots, s.Windowed
  apart : snapshots.Pairwise Snapshot.Apart

/-- Every snapshot of the sequence is timely as far as machine `m` is concerned. -/
def TimelyRun (m : Uuid) (snapshots : List Snapshot) : Prop :=
  ∀ past s, past ++ [s] <+: snapshots → s.Timely m past

/-- Machine `m` is as the newest evidence has it. -/
def MachineFollows (E : Encoding) (m : Uuid) (ops : List Op) : Prop :=
  (execAll E ops Db.empty).MachineActive m ↔ NewestEvidenceLists m (accepted E ops Db.empty)

theorem Collected.of_append {l l' : List Snapshot} (h : Collected (l ++ l')) : Collected l :=
  ⟨fun s hs => h.windowed s (by simp [hs]), (List.pairwise_append.1 h.apart).1⟩

theorem TimelyRun.of_append {m : Uuid} {l l' : List Snapshot} (h : TimelyRun m (l ++ l')) :
    TimelyRun m l :=
  fun past s hp => h past s (hp.trans (List.prefix_append l l'))

theorem timelyRun_concat {m : Uuid} {l : List Snapshot} {s : Snapshot} :
    TimelyRun m (l ++ [s]) ↔ TimelyRun m l ∧ s.Timely m l := by
  constructor
  · exact fun h => ⟨h.of_append, h l s (List.prefix_refl _)⟩
  · rintro ⟨h, hs⟩ past s' hp
    rcases List.prefix_concat_iff.1 hp with heq | hp
    · obtain ⟨rfl, rfl⟩ := List.append_singleton_inj.1 heq
      exact hs
    · exact h past s' hp

section

variable {E : Encoding} {m : Uuid} {ops : List Op}

/-- The row of `m` follows the rounds taken in. -/
def RowFollows (E : Encoding) (m : Uuid) (ops : List Op) : Prop :=
  Round.Follows ((accepted E ops Db.empty).map (Snapshot.round m))
    (execAll E ops Db.empty).machines[m]?

theorem RowFollows.machineFollows (h : RowFollows E m ops) : MachineFollows E m ops := by
  rw [MachineFollows, ← newestMet_iff fun s hs => valid_of_mem_accepted hs]
  exact h.active_iff

/-- One call: the row keeps following if the snapshot it takes in is timely, and contradicts the
newest evidence if not. -/
theorem RowFollows.concat (h : RowFollows E m ops) {op : Op}
    (hc : Collected (accepted E (ops ++ [op]) Db.empty)) :
    (TimelyRun m (accepted E (ops ++ [op]) Db.empty) → RowFollows E m (ops ++ [op])) ∧
      (TimelyRun m (accepted E ops Db.empty) → MachineFollows E m (ops ++ [op]) →
        TimelyRun m (accepted E (ops ++ [op]) Db.empty)) := by
  rw [RowFollows, MachineFollows, accepted_concat, execAll_concat] at *
  obtain ⟨now, s, ha, hv, _, _, he⟩ | ⟨ha, hmach, _⟩ := op.accepted_cases E (execAll E ops Db.empty)
  · rw [ha, Option.toList_some] at hc ⊢
    rw [he, Snapshot.apply_machines, Notice.getElem?_execAll, timelyRun_concat]
    have hpast : ∀ p ∈ accepted E ops Db.empty, p.Valid := fun p hp => valid_of_mem_accepted hp
    have hwin : ∀ y ∈ (accepted E ops Db.empty).map (Snapshot.round m), y.opened ≤ y.closed :=
      List.forall_mem_map.2 fun p hp => (hpast p hp).round_opened_le
    have hapart : ∀ y ∈ (accepted E ops Db.empty).map (Snapshot.round m), (s.round m).Apart y := by
      refine List.forall_mem_map.2 fun p hp => ?_
      have hsp : s.Apart p := ((List.pairwise_append.1 hc.apart).2.2 p hp s (by simp)).symm
      exact hsp.round hv (hpast p hp)
    have hmoves : (s.round m).Moves _ (s.machineNotices.foldl (Notice.act m)
        (execAll E ops Db.empty).machines[m]?) :=
      Snapshot.moves hv (hc.windowed s (by simp)) _
    constructor
    · rintro ⟨_, htimely⟩
      rw [List.map_append]
      exact h.moves hwin hv.round_opened_le hapart
        ((Snapshot.round_timely_iff hv hpast).2 htimely) hmoves
    · intro htr hfollow
      refine ⟨htr, ?_⟩
      by_contra hlate
      obtain ⟨hact, hnew⟩ := h.contradicts hwin hv.round_opened_le hapart
        (fun ht => hlate ((Snapshot.round_timely_iff hv hpast).1 ht)) hmoves
      have hvalid : ∀ p ∈ accepted E ops Db.empty ++ [s], p.Valid := by
        intro p hp
        rcases List.mem_append.1 hp with hp | hp
        · exact hpast p hp
        · exact List.mem_singleton.1 hp ▸ hv
      refine hnew ?_
      rw [← List.map_singleton, ← List.map_append, newestMet_iff hvalid, ← hfollow,
        Db.MachineActive, Snapshot.apply_machines, Notice.getElem?_execAll]
      exact hact
  · rw [ha, hmach, Option.toList_none, List.append_nil]
    exact ⟨fun _ => h, fun ht _ => ht⟩

theorem rowFollows_of_timely (hc : Collected (accepted E ops Db.empty))
    (ht : TimelyRun m (accepted E ops Db.empty)) : RowFollows E m ops := by
  induction ops using List.reverseRecOn with
  | nil => exact fun y hy => by simp [accepted] at hy
  | append_singleton ops op ih =>
    have hc' := hc
    have ht' := ht
    rw [accepted_concat] at hc' ht'
    exact ((ih hc'.of_append ht'.of_append).concat hc).1 ht

/-- **Machine activity follows the newest evidence exactly in timely runs.**  Whatever the order
in which snapshots of collections that ran one after the other arrive, a machine has an active row
in every state of the run iff the newest evidence there is positive — if and only if no snapshot
brings its newest sighting after a newer complete collection that missed it. -/
theorem machineFollows_iff_timelyRun (hc : Collected (accepted E ops Db.empty)) :
    (∀ ops', ops' <+: ops → MachineFollows E m ops') ↔ TimelyRun m (accepted E ops Db.empty) := by
  constructor
  · intro h
    induction ops using List.reverseRecOn with
    | nil => exact fun past s hp => by simp [accepted] at hp
    | append_singleton ops op ih =>
      have hc' := hc
      rw [accepted_concat] at hc'
      have ht := ih hc'.of_append fun ops' hp => h ops' (hp.trans (List.prefix_append ops [op]))
      exact ((rowFollows_of_timely hc'.of_append ht).concat hc).2 ht (h _ (List.prefix_refl _))
  · rintro ht ops' ⟨rest, rfl⟩
    rw [accepted_append] at hc ht
    exact (rowFollows_of_timely hc.of_append ht.of_append).machineFollows

end

/-- The report, and then the later collection that does not meet its machine. -/
def inOrder : List Op := [.ingest 5000000 sampleReport, .ingest 6000000 sampleAbsence]

theorem machineFollows_iff_timelyRun_inOrder :
    accepted sampleEncoding inOrder Db.empty = [sampleReport, sampleAbsence] ∧
      ∀ ops', ops' <+: inOrder → MachineFollows sampleEncoding 0xa1 ops' := by
  have haccepted : accepted sampleEncoding inOrder Db.empty = [sampleReport, sampleAbsence] := by
    decide +kernel
  have hc : Collected (accepted sampleEncoding inOrder Db.empty) :=
    ⟨by decide +kernel, by decide +kernel⟩
  refine ⟨haccepted, (machineFollows_iff_timelyRun hc).2 ?_⟩
  rw [haccepted, ← List.singleton_append, timelyRun_concat, ← List.nil_append [sampleReport],
    timelyRun_concat]
  exact ⟨⟨fun past s hp => by simp at hp, by decide +kernel⟩, by decide +kernel⟩

/-- A second sighting of the machine, before the collection that does not meet it. -/
def sampleLate : Snapshot := sampleSnapshot 0xc4 2100 2900 [sampleMachine 0xa1 2500 []]

def lateEncoding : Encoding :=
  .recorded
    [(sampleReport.payload,
        .ofFin 0x9a34ab897a0b42ca4ce4417db93346b710953fbd6b5bad8b4c0cdfae90045624),
      (sampleAbsence.payload,
        .ofFin 0xb0f22d22f1fd266f916bfedd90b012c9451649148267d40e752354131414a0b5),
      (sampleLate.payload,
        .ofFin 0xd0a217e1afef924fe0cbc70ccaf80bac1f87c779f5f840c0132b3665c1d6ffef)]

/-- The second sighting arrives last. -/
def lateRun : List Op :=
  [.ingest 5000000 sampleReport, .ingest 6000000 sampleAbsence, .ingest 7000000 sampleLate]

/-- **A stale report reactivates a machine.**  The newer, complete collection did not meet it, and
had marked it inactive. -/
theorem stale_report_reactivates_machine :
    Collected (accepted lateEncoding lateRun Db.empty) ∧
      accepted lateEncoding lateRun Db.empty = [sampleReport, sampleAbsence, sampleLate] ∧
      ¬ MachineFollows lateEncoding 0xa1 lateRun := by
  refine ⟨⟨by decide +kernel, by decide +kernel⟩, by decide +kernel, fun h => ?_⟩
  have hrow : ((execAll lateEncoding lateRun Db.empty).machines[(0xa1 : Uuid)]?.map fun row =>
      row.active) = some true := by
    decide +kernel
  obtain ⟨row, hrow, hact⟩ := Option.map_eq_some_iff.1 hrow
  exact absurd (h.1 ⟨row, hrow, hact⟩) (by decide +kernel)

end NexusTier
