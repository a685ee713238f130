import NexusTier.Ingest.Activity

/-!
# Does a link exist?

An instance that lists its peers and routes is evidence about each of its links: positive if it
lists the peer, negative if it does not and the routes could be listed.  `peer_links_current` keeps
no trace of a link that was removed, so what it shows can be the newest evidence only if no
stale entry arrives that lists a peer after a newer enumeration without it (`TimelyEntries`).

The evidence is the entry, not the snapshot: a snapshot may list an instance more than once.

## What is here

* `linkEntries`: the entries about an instance, in the order in which they are visited.
* `TimelyEntry` and `TimelyEntries`: what is asked of them.
* `LinkFollows`: link and evidence agree.
* `linkFollows_iff_timelyEntries`: they do in every state of a run exactly if its entries are
  timely.
* `stale_report_restores_link`: a run in which they do not.

The invariant is `Sighting.Follows` of `Relational/Evidence.lean`, with entries as its observations
(`sighting`).

## What is left out

Collections that overlap, as for machines.
-/

set_option autoImplicit false

namespace NexusTier

open Relational

/-! ## Evidence -/

/-- The instance lists peer `p`: positive evidence. -/
def Instance.ListsPeer (p : UInt32) (inst : Instance) : Prop :=
  p ∈ inst.peers.elems.map Peer.peerID

/-- The routes of the instance could be listed. -/
def Instance.Enumerates (inst : Instance) : Prop :=
  hasOperationError inst.errors "list_routes" = false

instance (p : UInt32) : DecidablePred (Instance.ListsPeer p) := fun inst =>
  inferInstanceAs (Decidable (p ∈ inst.peers.elems.map Peer.peerID))

instance : DecidablePred Instance.Enumerates := fun inst =>
  inferInstanceAs (Decidable (hasOperationError inst.errors "list_routes" = false))

/-- The entries about instance `i` in a sequence of snapshots, in the order `Ingest` visits
them. -/
def linkEntries (i : Uuid) (snapshots : List Snapshot) : List (Snapshot × Instance) :=
  snapshots.flatMap fun s =>
    (s.instances.filter fun inst => inst.instanceID = i).map fun inst => (s, inst)

/-- The evidence about the link to peer `p` with the greatest `observed_at` lists `p`. -/
def NewestEntryLists (p : UInt32) (entries : List (Snapshot × Instance)) : Prop :=
  NewestHolds (fun e => e.2.observedAtMS) (fun e => e.2.ListsPeer p ∨ e.2.Enumerates)
    (fun e => e.2.ListsPeer p) entries

/-- An entry that lists `p`, while the newest evidence has the link gone, is not older than an
enumeration without `p`. -/
def TimelyEntry (p : UInt32) (past : List (Snapshot × Instance)) (e : Snapshot × Instance) : Prop :=
  e.2.ListsPeer p → ¬ NewestEntryLists p past →
    ∀ n ∈ past, ¬ n.2.ListsPeer p → n.2.Enumerates → n.2.observedAtMS ≤ e.2.observedAtMS

/-- Every entry of the sequence is timely. -/
def TimelyEntries (p : UInt32) (entries : List (Snapshot × Instance)) : Prop :=
  ∀ past e, past ++ [e] <+: entries → TimelyEntry p past e

instance (p : UInt32) : DecidablePred (NewestEntryLists p) := fun entries =>
  inferInstanceAs (Decidable (∃ e ∈ entries, e.2.ListsPeer p ∧ ∀ e' ∈ entries, _ → _))

instance (p : UInt32) (past : List (Snapshot × Instance)) : DecidablePred (TimelyEntry p past) :=
  fun e => inferInstanceAs (Decidable (e.2.ListsPeer p → _ → ∀ n ∈ past, _ → _ → _))

/-! ## An entry as an observation -/

/-- What an entry says about the link to `p`. -/
def sighting (p : UInt32) (e : Snapshot × Instance) : Sighting Timestamp where
  observedAt := millis e.2.observedAtMS
  completedAt := millis e.1.completedAtMS
  verdict := if e.2.ListsPeer p then .met else if e.2.Enumerates then .missed else .silent

theorem sighting_met_iff {p : UInt32} {e : Snapshot × Instance} :
    (sighting p e).verdict = .met ↔ e.2.ListsPeer p := by
  simp only [sighting]
  split
  · simp_all
  · split <;> simp_all

theorem sighting_missed_iff {p : UInt32} {e : Snapshot × Instance} :
    (sighting p e).verdict = .missed ↔ ¬ e.2.ListsPeer p ∧ e.2.Enumerates := by
  simp only [sighting]
  split
  · simp_all
  · split <;> simp_all

theorem sighting_evidence_iff {p : UInt32} {e : Snapshot × Instance} :
    (sighting p e).verdict ≠ .silent ↔ e.2.ListsPeer p ∨ e.2.Enumerates := by
  simp only [sighting]
  split
  · simp_all
  · split <;> simp_all

/-- What the statements of an entry do to the link to `p`. -/
def entryAct (i : Uuid) (p : UInt32) (r : Option PeerRow) (e : Snapshot × Instance) :
    Option PeerRow :=
  (linkWrites e.1.collectionID (millis e.1.completedAtMS) e.2).foldl
    (LinkWrite.act ⟨i, p.toNat⟩) r

section

variable {s : Snapshot} {inst : Instance} {p : UInt32} {r : Option PeerRow}

/-- The upserts of the peers in `l`, as they act on the link to `p`. -/
def putsOn (s : Snapshot) (inst : Instance) (i : Uuid) (p : UInt32) (l : List Peer)
    (r : Option PeerRow) : Option PeerRow :=
  (l.map fun peer => LinkWrite.put ⟨inst.instanceID, peer.peerID.toNat⟩
    (peerRow s.collectionID (millis s.completedAtMS) inst peer)
    (!hasOperationError inst.errors "list_peers")).foldl (LinkWrite.act ⟨i, p.toNat⟩) r

theorem entryAct_eq (i : Uuid) : entryAct i p r (s, inst) =
    if hasOperationError inst.errors "list_routes" then putsOn s inst i p inst.peers.elems r
    else (LinkWrite.clear inst.instanceID (inst.peers.elems.map fun peer => (peer.peerID.toNat : Int))
      (millis inst.observedAtMS) (millis s.completedAtMS)).act ⟨i, p.toNat⟩
        (putsOn s inst i p inst.peers.elems r) := by
  rw [entryAct, linkWrites, List.foldl_append]
  split <;> rfl

theorem putsOn_cons (i : Uuid) (peer : Peer) (l : List Peer) :
    putsOn s inst i p (peer :: l) r = putsOn s inst i p l
      ((LinkWrite.put ⟨inst.instanceID, peer.peerID.toNat⟩
        (peerRow s.collectionID (millis s.completedAtMS) inst peer)
        (!hasOperationError inst.errors "list_peers")).act ⟨i, p.toNat⟩ r) := rfl

theorem linkKey_eq_iff {i i' : Uuid} {q : UInt32} :
    (⟨i', (q.toNat : Int)⟩ : LinkKey) = ⟨i, p.toNat⟩ ↔ i' = i ∧ q = p := by
  simp [LinkKey.mk.injEq, UInt32.toNat_inj]

/-- An entry about another instance leaves the link alone. -/
theorem entryAct_of_ne {i : Uuid} (hne : inst.instanceID ≠ i) : entryAct i p r (s, inst) = r :=
  foldl_linkWrites_of_ne _ _ hne r

/-- A row that the entry has stamped keeps its stamp under further upserts of the entry. -/
theorem putsOn_stamped (l : List Peer) (hr : (sighting p (s, inst)).Stamps r) :
    (sighting p (s, inst)).Stamps (putsOn s inst inst.instanceID p l r) := by
  induction l generalizing r with
  | nil => exact hr
  | cons peer l ih =>
    rw [putsOn_cons]
    refine ih ?_
    obtain ⟨row, rfl, ho, hc⟩ := hr
    simp only [LinkWrite.act]
    split
    · refine ⟨_, rfl, ?_⟩
      rw [Table.upsertRow_some]
      split
      · exact ⟨rfl, rfl⟩
      · exact ⟨ho, hc⟩
    · exact ⟨row, rfl, ho, hc⟩

theorem putsOn_older {l : List Peer} (hp : p ∈ l.map Peer.peerID)
    (hr : ∀ row ∈ r, row.olderThan (millis inst.observedAtMS) (millis s.completedAtMS) = true) :
    (sighting p (s, inst)).Stamps (putsOn s inst inst.instanceID p l r) := by
  induction l with
  | nil => simp at hp
  | cons peer l ih =>
    rw [putsOn_cons]
    by_cases hpeer : peer.peerID = p
    · refine putsOn_stamped l ⟨_, if_pos (linkKey_eq_iff.2 ⟨rfl, hpeer⟩), ?_⟩
      cases r with
      | none => exact ⟨rfl, rfl⟩
      | some old =>
        have hold : old.olderThan (peerRow s.collectionID (millis s.completedAtMS) inst
            peer).observedAt (peerRow s.collectionID (millis s.completedAtMS) inst
            peer).completedAt = true := hr old rfl
        rw [Table.upsertRow_some, hold]
        exact ⟨rfl, rfl⟩
    · rw [LinkWrite.act, if_neg fun h => hpeer (linkKey_eq_iff.1 h).2]
      rw [List.map_cons, List.mem_cons] at hp
      exact ih (hp.resolve_left fun h => hpeer h.symm)

theorem putsOn_newer (l : List Peer) {row : PeerRow}
    (hr : ¬ row.olderThan (millis inst.observedAtMS) (millis s.completedAtMS) = true) :
    putsOn s inst inst.instanceID p l (some row) = some row := by
  induction l with
  | nil => rfl
  | cons peer l ih =>
    rw [putsOn_cons, LinkWrite.act]
    split
    · rw [Table.upsertRow_some, if_neg]
      · exact ih
      · exact hr
    · exact ih

theorem putsOn_absent {l : List Peer} (hp : p ∉ l.map Peer.peerID) :
    putsOn s inst inst.instanceID p l r = r := by
  induction l generalizing r with
  | nil => rfl
  | cons peer l ih =>
    rw [List.map_cons, List.mem_cons, not_or] at hp
    rw [putsOn_cons, LinkWrite.act, if_neg fun h => hp.1 (linkKey_eq_iff.1 h).2.symm]
    exact ih hp.2

theorem contains_peerIDs : (inst.peers.elems.map fun peer => (peer.peerID.toNat : Int)).contains
    (p.toNat : Int) = true ↔ inst.ListsPeer p := by
  simp [Instance.ListsPeer, UInt32.toNat_inj]

/-- **An entry moves a link of its instance as an observation does.** -/
theorem entryAct_moves :
    (sighting p (s, inst)).Moves r (entryAct inst.instanceID p r (s, inst)) := by
  rw [entryAct_eq, Sighting.Moves]
  cases hverdict : (sighting p (s, inst)).verdict with
  | met =>
    have hlists := sighting_met_iff.1 hverdict
    -- the enumeration of the same entry lists the peer, so its removal spares the link
    have hspare : ∀ (q : Option PeerRow), (LinkWrite.clear inst.instanceID
        (inst.peers.elems.map fun peer => (peer.peerID.toNat : Int)) (millis inst.observedAtMS)
        (millis s.completedAtMS)).act ⟨inst.instanceID, p.toNat⟩ q = q := by
      intro q
      have hc := contains_peerIDs.2 hlists
      cases q with
      | none => rfl
      | some row => simp only [LinkWrite.act, hc, Option.filter_some]; simp
    rw [hspare, ite_self]
    refine ⟨fun hnone => putsOn_older hlists (by simp [hnone]), ?_⟩
    rintro row ⟨⟩
    split
    · rename_i hold
      exact putsOn_older hlists (by rintro _ ⟨⟩; exact hold)
    · rename_i hold
      exact putsOn_newer _ hold
  | missed =>
    obtain ⟨hnot, henum⟩ := sighting_missed_iff.1 hverdict
    have hc : (inst.peers.elems.map fun peer => (peer.peerID.toNat : Int)).contains
        (p.toNat : Int) = false := by
      rw [Bool.eq_false_iff]
      exact fun h => hnot (contains_peerIDs.1 h)
    have hroutes : hasOperationError inst.errors "list_routes" = false := henum
    rw [if_neg (by simp [hroutes]), putsOn_absent hnot]
    simp only [LinkWrite.act, hc]
    simp [sighting]
  | silent =>
    have hnone : ¬ (inst.ListsPeer p ∨ inst.Enumerates) := fun h =>
      sighting_evidence_iff.2 h hverdict
    rw [not_or] at hnone
    have herr : hasOperationError inst.errors "list_routes" = true := by
      simpa [Instance.Enumerates] using hnone.2
    rw [if_pos herr, putsOn_absent hnone.1]

end

/-! ## Sequences of entries -/

/-- The link to `p` after a sequence of entries about instance `i`. -/
def entriesRow (i : Uuid) (p : UInt32) (entries : List (Snapshot × Instance)) : Option PeerRow :=
  entries.foldl (entryAct i p) none

/-- The entries are from collections that ran one after the other. -/
structure EntriesCollected (entries : List (Snapshot × Instance)) : Prop where
  observed_le : ∀ e ∈ entries, e.2.observedAtMS ≤ maxTimestampMS
  agree : ∀ e ∈ entries, ∀ e' ∈ entries,
    e.2.observedAtMS = e'.2.observedAtMS → e.1.completedAtMS = e'.1.completedAtMS

theorem EntriesCollected.of_append {l l' : List (Snapshot × Instance)}
    (h : EntriesCollected (l ++ l')) : EntriesCollected l :=
  ⟨fun e he => h.observed_le e (by simp [he]),
    fun e he e' he' => h.agree e (by simp [he]) e' (by simp [he'])⟩

section

variable {i : Uuid} {p : UInt32} {entries : List (Snapshot × Instance)}

theorem newestEntry_iff (h : EntriesCollected entries) :
    Sighting.NewestMet (entries.map (sighting p)) ↔ NewestEntryLists p entries := by
  have hle : ∀ e ∈ entries, (∀ e' ∈ entries, e'.2.ListsPeer p ∨ e'.2.Enumerates →
        (sighting p e').observedAt ≤ (sighting p e).observedAt) ↔
      ∀ e' ∈ entries, e'.2.ListsPeer p ∨ e'.2.Enumerates →
        e'.2.observedAtMS ≤ e.2.observedAtMS :=
    fun e he => forall₂_congr fun e' he' => imp_congr_right fun _ =>
      millis_le_millis_iff (h.observed_le e' he') (h.observed_le e he)
  simp only [Sighting.NewestMet, NewestEntryLists, NewestHolds, List.forall_mem_map,
    sighting_evidence_iff]
  constructor
  · rintro ⟨_, hmem, hmet, hmax⟩
    obtain ⟨e, he, rfl⟩ := List.mem_map.1 hmem
    exact ⟨e, he, sighting_met_iff.1 hmet, (hle e he).1 hmax⟩
  · rintro ⟨e, he, hlists, hmax⟩
    exact ⟨_, List.mem_map_of_mem he, sighting_met_iff.2 hlists, (hle e he).2 hmax⟩

theorem sighting_timely_iff {e : Snapshot × Instance} (h : EntriesCollected (entries ++ [e])) :
    (sighting p e).Timely (entries.map (sighting p)) ↔ TimelyEntry p entries e := by
  simp only [Sighting.Timely, TimelyEntry, List.forall_mem_map, sighting_met_iff,
    sighting_missed_iff, newestEntry_iff h.of_append, and_imp]
  refine imp_congr_right fun _ => imp_congr_right fun _ => forall₂_congr fun n hn =>
    imp_congr_right fun _ => imp_congr_right fun _ => ?_
  exact millis_le_millis_iff (h.observed_le n (by simp [hn])) (h.observed_le e (by simp))

theorem EntriesCollected.agrees {e : Snapshot × Instance} (h : EntriesCollected (entries ++ [e])) :
    ∀ y ∈ entries.map (sighting p), (sighting p e).Agrees y := by
  refine List.forall_mem_map.2 fun n hn heq => ?_
  have hobs : e.2.observedAtMS = n.2.observedAtMS :=
    (millis_inj (h.observed_le e (by simp)) (h.observed_le n (by simp [hn]))).1 heq
  show millis e.1.completedAtMS = millis n.1.completedAtMS
  rw [h.agree e (by simp) n (by simp [hn]) hobs]

theorem timelyEntries_concat {e : Snapshot × Instance} :
    TimelyEntries p (entries ++ [e]) ↔ TimelyEntries p entries ∧ TimelyEntry p entries e := by
  constructor
  · exact fun h => ⟨fun past e' hp => h past e' (hp.trans (List.prefix_append _ _)),
      h entries e (List.prefix_refl _)⟩
  · rintro ⟨h, he⟩ past e' hp
    rcases List.prefix_concat_iff.1 hp with heq | hp
    · obtain ⟨rfl, rfl⟩ := List.append_singleton_inj.1 heq
      exact he
    · exact h past e' hp

theorem entriesRow_concat (e : Snapshot × Instance) :
    entriesRow i p (entries ++ [e]) = entryAct i p (entriesRow i p entries) e := by
  rw [entriesRow, List.foldl_append]
  rfl

/-- Timely entries leave the link as the newest evidence has it. -/
theorem entriesRow_follows (hi : ∀ e ∈ entries, e.2.instanceID = i) (h : EntriesCollected entries)
    (ht : TimelyEntries p entries) :
    Sighting.Follows (entries.map (sighting p)) (entriesRow i p entries) := by
  induction entries using List.reverseRecOn with
  | nil => exact fun y hy => by simp at hy
  | append_singleton entries e ih =>
    obtain ⟨ht, he⟩ := timelyEntries_concat.1 ht
    have hfollows := ih (fun e' he' => hi e' (by simp [he'])) h.of_append ht
    rw [List.map_append, entriesRow_concat]
    obtain rfl : e.2.instanceID = i := hi e (by simp)
    exact hfollows.moves h.agrees ((sighting_timely_iff h).2 he) entryAct_moves

/-- The link is as the newest evidence has it. -/
def EntriesFollow (i : Uuid) (p : UInt32) (entries : List (Snapshot × Instance)) : Prop :=
  (entriesRow i p entries).isSome = true ↔ NewestEntryLists p entries

theorem entriesFollow_of_timely (hi : ∀ e ∈ entries, e.2.instanceID = i)
    (h : EntriesCollected entries) (ht : TimelyEntries p entries) : EntriesFollow i p entries := by
  rw [EntriesFollow, ← newestEntry_iff h]
  exact (entriesRow_follows hi h ht).isSome_iff

/-- The first entry that is not timely puts the link back against the newest evidence. -/
theorem timelyEntry_of_follow {e : Snapshot × Instance}
    (hi : ∀ e' ∈ entries ++ [e], e'.2.instanceID = i) (h : EntriesCollected (entries ++ [e]))
    (ht : TimelyEntries p entries) (hfollow : EntriesFollow i p (entries ++ [e])) :
    TimelyEntry p entries e := by
  by_contra hlate
  have hfollows := entriesRow_follows (fun e' he' => hi e' (by simp [he'])) h.of_append ht
  obtain rfl : e.2.instanceID = i := hi e (by simp)
  obtain ⟨hsome, hnew⟩ := hfollows.contradicts
    (fun ht => hlate ((sighting_timely_iff h).1 ht)) entryAct_moves
  rw [EntriesFollow, entriesRow_concat] at hfollow
  refine hnew ?_
  rw [← List.map_singleton, ← List.map_append, newestEntry_iff h, ← hfollow]
  exact hsome

end

/-! ## Runs -/

/-- Is there a link from instance `i` to peer `p`? -/
def Db.LinkExists (db : Db) (i : Uuid) (p : UInt32) : Prop :=
  ∃ row, db.peerLinks[(⟨i, p.toNat⟩ : LinkKey)]? = some row

/-- The link is as the newest evidence has it. -/
def LinkFollows (E : Encoding) (i : Uuid) (p : UInt32) (ops : List Op) : Prop :=
  (execAll E ops Db.empty).LinkExists i p ↔
    NewestEntryLists p (linkEntries i (accepted E ops Db.empty))

section

variable {E : Encoding} {i : Uuid} {p : UInt32} {ops : List Op}

theorem mem_linkEntries {snapshots : List Snapshot} {e : Snapshot × Instance}
    (h : e ∈ linkEntries i snapshots) :
    e.1 ∈ snapshots ∧ e.2 ∈ e.1.instances ∧ e.2.instanceID = i := by
  obtain ⟨s, hs, he⟩ := List.mem_flatMap.1 h
  obtain ⟨inst, hinst, rfl⟩ := List.mem_map.1 he
  obtain ⟨hmem, hid⟩ := List.mem_filter.1 hinst
  exact ⟨hs, hmem, by simpa using hid⟩

/-- Only the entries about `i` matter to its links. -/
theorem foldl_linkWrites_eq (snapshots : List Snapshot) (r : Option PeerRow) :
    ((snapshots.flatMap fun s => s.instances.flatMap
      (linkWrites s.collectionID (millis s.completedAtMS))).foldl
        (LinkWrite.act ⟨i, p.toNat⟩) r) = (linkEntries i snapshots).foldl (entryAct i p) r := by
  induction snapshots generalizing r with
  | nil => rfl
  | cons s snapshots ih =>
    have hentries : linkEntries i (s :: snapshots) = ((s.instances.filter fun inst =>
        inst.instanceID = i).map fun inst => (s, inst)) ++ linkEntries i snapshots := rfl
    rw [List.flatMap_cons, List.foldl_append, ih, hentries, List.foldl_append]
    congr 1
    clear ih hentries
    induction s.instances generalizing r with
    | nil => rfl
    | cons inst insts ih =>
      rw [List.flatMap_cons, List.foldl_append, ih]
      by_cases h : inst.instanceID = i
      · simp [h, entryAct]
      · have hact := entryAct_of_ne (s := s) (p := p) (r := r) h
        simp only [entryAct] at hact
        simp [h, hact]

theorem execAll_link : (execAll E ops Db.empty).peerLinks[(⟨i, p.toNat⟩ : LinkKey)]? =
    entriesRow i p (linkEntries i (accepted E ops Db.empty)) := by
  rw [execAll_peerLinks, LinkWrite.getElem?_execAll, foldl_linkWrites_eq]
  rfl

theorem linkFollows_iff : LinkFollows E i p ops ↔
    EntriesFollow i p (linkEntries i (accepted E ops Db.empty)) := by
  rw [LinkFollows, EntriesFollow, Db.LinkExists, execAll_link, Option.isSome_iff_exists]

theorem Collected.entries {snapshots : List Snapshot} (h : Collected snapshots)
    (hv : ∀ s ∈ snapshots, s.Valid) : EntriesCollected (linkEntries i snapshots) := by
  have hwin : ∀ e ∈ linkEntries i snapshots, e.1.Valid ∧ e.1.startedAtMS ≤ e.2.observedAtMS ∧
      e.2.observedAtMS ≤ e.1.completedAtMS := by
    intro e he
    obtain ⟨hs, hmem, _⟩ := mem_linkEntries he
    obtain ⟨machine, hm, hinst⟩ := Snapshot.mem_instances.1 hmem
    exact ⟨hv _ hs, (h.windowed _ hs machine hm).2 e.2 hinst⟩
  refine ⟨fun e he => UInt64.le_trans (hwin e he).2.2 (hwin e he).1.completed_le, ?_⟩
  intro e he e' he' hobs
  by_contra hne
  have hsne : e.1 ≠ e'.1 := fun heq => hne (by rw [heq])
  have hsymm : Std.Symm Snapshot.Apart := ⟨fun _ _ => Or.symm⟩
  obtain ⟨_, hlo, hhi⟩ := hwin e he
  obtain ⟨_, hlo', hhi'⟩ := hwin e' he'
  rcases h.apart.forall (mem_linkEntries he).1 (mem_linkEntries he').1 hsne with hlt | hlt
  · exact absurd (UInt64.le_trans (hobs ▸ hlo') hhi) (UInt64.not_le.2 hlt)
  · exact absurd (UInt64.le_trans (hobs ▸ hlo) hhi') (UInt64.not_le.2 hlt)

theorem linkEntries_append (l l' : List Snapshot) :
    linkEntries i (l ++ l') = linkEntries i l ++ linkEntries i l' :=
  List.flatMap_append

theorem TimelyEntries.of_append {l l' : List (Snapshot × Instance)}
    (h : TimelyEntries p (l ++ l')) : TimelyEntries p l :=
  fun past e hp => h past e (hp.trans (List.prefix_append l l'))

theorem linkFollows_of_timely (hc : Collected (accepted E ops Db.empty))
    (ht : TimelyEntries p (linkEntries i (accepted E ops Db.empty))) : LinkFollows E i p ops :=
  linkFollows_iff.2 (entriesFollow_of_timely (fun _ he => (mem_linkEntries he).2.2)
    (hc.entries fun _ hs => valid_of_mem_accepted hs) ht)

/-- Where no snapshot lists the instance twice, the states of the run are those between entries,
and a link that is right in all of them has met timely entries only. -/
theorem timely_of_linkFollows (hc : Collected (accepted E ops Db.empty))
    (hone : ∀ s ∈ accepted E ops Db.empty,
      (s.instances.filter fun inst => inst.instanceID = i).length ≤ 1)
    (h : ∀ ops', ops' <+: ops → LinkFollows E i p ops') :
    TimelyEntries p (linkEntries i (accepted E ops Db.empty)) := by
  induction ops using List.reverseRecOn with
  | nil => exact fun past e hp => by simp [accepted, linkEntries] at hp
  | append_singleton ops op ih =>
    have hfollow := linkFollows_iff.1 (h _ (List.prefix_refl _))
    have hentries : EntriesCollected (linkEntries i (accepted E (ops ++ [op]) Db.empty)) :=
      hc.entries fun _ hs => valid_of_mem_accepted hs
    rw [accepted_concat] at hc hone hfollow hentries ⊢
    have ht := ih hc.of_append (fun s hs => hone s (by simp [hs])) fun ops' hp =>
      h ops' (hp.trans (List.prefix_append ops [op]))
    obtain ⟨_, s, ha, _⟩ | ⟨ha, _⟩ := op.accepted_cases E (execAll E ops Db.empty)
    · rw [ha, Option.toList_some] at hone hfollow hentries ⊢
      rw [linkEntries_append] at hfollow hentries ⊢
      -- the snapshot has no entry about the instance, or just one
      have hs : linkEntries i [s] = [] ∨ ∃ e, linkEntries i [s] = [e] := by
        have hlen : (linkEntries i [s]).length ≤ 1 := by
          simpa [linkEntries] using hone s (by simp)
        exact (Nat.le_one_iff_eq_zero_or_eq_one.1 hlen).imp List.eq_nil_of_length_eq_zero
          List.length_eq_one_iff.1
      have hid : ∀ e ∈ linkEntries i (accepted E ops Db.empty) ++ linkEntries i [s],
          e.2.instanceID = i := by
        intro e he
        rw [← linkEntries_append] at he
        exact (mem_linkEntries he).2.2
      rcases hs with hs | ⟨e, hs⟩
      · rwa [hs, List.append_nil]
      · rw [hs] at hfollow hentries hid ⊢
        exact timelyEntries_concat.2 ⟨ht, timelyEntry_of_follow hid hentries ht hfollow⟩
    · rwa [ha, Option.toList_none, List.append_nil]

/-- **Removed peers stay removed, in runs of timely entries.**  Whatever the order in which
snapshots of collections that ran one after the other arrive, if no entry lists the peer, older
than an enumeration without it, while the newest evidence has the link gone, then in every state
of the run the link exists iff the newest evidence lists the peer.  Where no snapshot lists the
instance twice, the condition is also necessary. -/
theorem linkFollows_iff_timelyEntries (hc : Collected (accepted E ops Db.empty)) :
    (TimelyEntries p (linkEntries i (accepted E ops Db.empty)) →
      ∀ ops', ops' <+: ops → LinkFollows E i p ops') ∧
    ((∀ s ∈ accepted E ops Db.empty,
        (s.instances.filter fun inst => inst.instanceID = i).length ≤ 1) →
      (∀ ops', ops' <+: ops → LinkFollows E i p ops') →
      TimelyEntries p (linkEntries i (accepted E ops Db.empty))) := by
  refine ⟨?_, timely_of_linkFollows hc⟩
  rintro ht ops' ⟨rest, rfl⟩
  rw [accepted_append] at hc ht
  rw [linkEntries_append] at ht
  exact linkFollows_of_timely hc.of_append ht.of_append

end

/-- A later enumeration of instance `b1`: its link to peer 7 is gone. -/
def sampleUnlinked : Snapshot :=
  sampleSnapshot 0xc5 3000 4000 [sampleMachine 0xa1 3500 [sampleInstance 0xb1 3600 []]]

def unlinkedEncoding : Encoding :=
  .recorded
    [(sampleReport.payload,
        .ofFin 0x9a34ab897a0b42ca4ce4417db93346b710953fbd6b5bad8b4c0cdfae90045624),
      (sampleUnlinked.payload,
        .ofFin 0x8c76def9cc727c4b3aadd50b6475b0492ca70878ef3ea0e126475a7f359f079e)]

/-- The two arrive in order. -/
def unlinkedInOrder : List Op := [.ingest 5000000 sampleReport, .ingest 6000000 sampleUnlinked]

theorem linkFollows_iff_timelyEntries_unlinkedInOrder :
    accepted unlinkedEncoding unlinkedInOrder Db.empty = [sampleReport, sampleUnlinked] ∧
      ∀ ops', ops' <+: unlinkedInOrder → LinkFollows unlinkedEncoding 0xb1 7 ops' := by
  have hentries : linkEntries 0xb1 (accepted unlinkedEncoding unlinkedInOrder Db.empty) =
      [(sampleReport, sampleInstance 0xb1 1600 [samplePeer 7]),
        (sampleUnlinked, sampleInstance 0xb1 3600 [])] := by
    decide +kernel
  have hc : Collected (accepted unlinkedEncoding unlinkedInOrder Db.empty) :=
    ⟨by decide +kernel, by decide +kernel⟩
  refine ⟨by decide +kernel, (linkFollows_iff_timelyEntries hc).1 ?_⟩
  rw [hentries, ← List.singleton_append, timelyEntries_concat,
    ← List.nil_append [(sampleReport, sampleInstance 0xb1 1600 [samplePeer 7])],
    timelyEntries_concat]
  exact ⟨⟨fun past e hp => by simp at hp, by decide +kernel⟩, by decide +kernel⟩

/-- A second report of the link, from before the enumeration without it. -/
def sampleRelinked : Snapshot :=
  sampleSnapshot 0xc6 2100 2900
    [sampleMachine 0xa1 2500 [sampleInstance 0xb1 2600 [samplePeer 7]]]

def relinkedEncoding : Encoding :=
  .recorded
    [(sampleReport.payload,
        .ofFin 0x9a34ab897a0b42ca4ce4417db93346b710953fbd6b5bad8b4c0cdfae90045624),
      (sampleUnlinked.payload,
        .ofFin 0x8c76def9cc727c4b3aadd50b6475b0492ca70878ef3ea0e126475a7f359f079e),
      (sampleRelinked.payload,
        .ofFin 0x5e0d73e537e6a5bfa8b41407c5fbf0b72a9c1c5b7752528a2f91c012e969645b)]

/-- The second report arrives last. -/
def relinkedRun : List Op :=
  [.ingest 5000000 sampleReport, .ingest 6000000 sampleUnlinked, .ingest 7000000 sampleRelinked]

/-- **A stale report puts a removed link back.**  The newer enumeration had removed it. -/
theorem stale_report_restores_link :
    Collected (accepted relinkedEncoding relinkedRun Db.empty) ∧
      accepted relinkedEncoding relinkedRun Db.empty =
        [sampleReport, sampleUnlinked, sampleRelinked] ∧
      ¬ LinkFollows relinkedEncoding 0xb1 7 relinkedRun := by
  refine ⟨⟨by decide +kernel, by decide +kernel⟩, by decide +kernel, fun h => ?_⟩
  have hrow : ((execAll relinkedEncoding relinkedRun Db.empty).peerLinks[
      (⟨0xb1, (7 : UInt32).toNat⟩ : LinkKey)]?).isSome = true := by
    decide +kernel
  exact absurd (h.1 (Option.isSome_iff_exists.1 hrow)) (by decide +kernel)

end NexusTier
