import NexusTier.Ingest.Ownership

/-!
# What a snapshot with errors leaves alone

A snapshot says with its errors what it could not see.  `Ingest` reads them at three places: with
an error of the collection it looks for no missing machines, with a `list_network_instances` error
of a machine for no missing instances of it, and with a `list_routes` or `list_peers` error of an
instance it removes no link, or leaves the measurements of the links as they are.  A node that was
not reported is not written at all.

Here each of these gates is one lemma about the database after the snapshot.

## What is here

* `machineActive_of_gated` and `instanceActive_of_gated`: an error of the collection, or of the
  machine, leaves active what it does not mention.
* `node_of_gated`: a node that is not reported stays.
* `link_of_gated` and `measured_of_gated`: links are not removed, and keep what has been measured.

## What is left out

What the snapshot does report is written all the same; the gates are about what it does not.
-/

set_option autoImplicit false

namespace NexusTier

open Relational

variable {E : Encoding} {now : Timestamp} {s : Snapshot} {db : Db}

/-- A machine that a complete snapshot lists, or that any snapshot with errors may have missed,
stays active. -/
theorem machineActive_of_gated {m : Uuid} (hgate : s.errors.elems = [] → s.Lists m)
    (h : db.MachineActive m) : (s.apply E now db).MachineActive m := by
  by_cases hl : s.Lists m
  · exact machineActive_of_listed hl h
  · exact machineActive_of_not_listed hl h fun he => absurd (hgate he) hl

/-! ## Instances -/

theorem missing_mem_instanceNotices {concerns : Uuid → InstanceColumns → Bool} {c : Timestamp}
    {src : Uuid} (h : Notice.missing concerns c src ∈ s.instanceNotices) :
    (∃ machine ∈ s.machines.elems,
      hasOperationError machine.errors "list_network_instances" = false ∧
      concerns = instanceMissing machine) ∨
    (s.errors.elems = [] ∧
      concerns = fun _ columns => !(machineIDs s.machines.elems).contains columns.machineID) := by
  rcases List.mem_append.1 h with h | h
  · obtain ⟨machine, hm, h⟩ := List.mem_flatMap.1 h
    rcases List.mem_append.1 h with h | h
    · obtain ⟨inst, _, heq⟩ := List.mem_map.1 h
      simp [instanceReport] at heq
    · rw [instancesMissing] at h
      split at h
      · simp at h
      · rename_i hop
        obtain ⟨rfl, _, _⟩ := Notice.missing.inj (List.mem_singleton.1 h)
        exact .inl ⟨machine, hm, by simpa using hop, rfl⟩
  · rw [missingWrites] at h
    split at h
    · rename_i he
      obtain ⟨rfl, _, _⟩ := Notice.missing.inj (List.mem_singleton.1 h)
      exact .inr ⟨List.isEmpty_iff.1 he, rfl⟩
    · simp at h

/-- An instance on a machine whose instances could not be listed stays active. -/
theorem instanceActive_of_gated {m i : Uuid} {row : InstanceRow}
    (hnodup : (machineIDs s.machines.elems).Nodup)
    (hmachine : s.errors.elems = [] → s.Lists m)
    (hgate : ∀ machine ∈ s.machines.elems, machine.session.machineID = m →
      hasOperationError machine.errors "list_network_instances" = true)
    (hrow : db.networkInstances[i]? = some row) (ha : row.active = true)
    (hm : row.value.machineID = m) :
    ∃ row', (s.apply E now db).networkInstances[i]? = some row' ∧ row'.active = true := by
  -- the instance is on `m`, or has moved to a machine that lists it
  let P (v : InstanceColumns) : Prop := v.machineID = m ∨
    ∃ machine ∈ s.machines.elems, machine.session.machineID = v.machineID ∧
      i ∈ machine.instanceIDs
  have hreport : ∀ v o c src, Notice.report i v o c src ∈ s.instanceNotices → P v := by
    intro v o c src hmem
    obtain ⟨machine, hmach, inst, hinst, hid, rfl, _⟩ := Snapshot.report_mem_instanceNotices hmem
    exact .inr ⟨machine, hmach, rfl, List.mem_map.2 ⟨inst, hinst, hid⟩⟩
  have hmissing : ∀ concerns c src, Notice.missing concerns c src ∈ s.instanceNotices →
      ∀ v, P v → concerns i v = false := by
    intro concerns c src hmem v hv
    rcases missing_mem_instanceNotices hmem with ⟨machine, hmach, hop, rfl⟩ | ⟨he, rfl⟩
    · rcases hv with hv | ⟨machine', hmach', hid', hi⟩
      · -- `m` itself looks for no missing instances
        have hne : v.machineID ≠ machine.session.machineID := by
          intro heq
          rw [hgate machine hmach (heq ▸ hv)] at hop
          simp at hop
        simp [instanceMissing, hne]
      · -- the machine that lists the instance does not miss it
        by_cases heq : v.machineID = machine.session.machineID
        · have hsame : machine' = machine :=
            List.inj_on_of_nodup_map hnodup hmach' hmach (hid'.trans heq)
          rw [hsame] at hi
          simp [instanceMissing, hi]
        · simp [instanceMissing, heq]
    · have hl : v.machineID ∈ machineIDs s.machines.elems := by
        rcases hv with hv | ⟨machine', hmach', hid', _⟩
        · exact hv ▸ hmachine he
        · exact hid' ▸ List.mem_map_of_mem hmach'
      simp [hl]
  obtain ⟨row', hrow', ha', _⟩ := Notice.foldl_active_of_kept ha (.inl hm : P row.value) hreport
    hmissing
  refine ⟨row', ?_, ha'⟩
  rw [Snapshot.apply_networkInstances, Notice.getElem?_execAll, hrow, hrow']

/-! ## Nodes and links -/

/-- A node that no entry reports stays as it is. -/
theorem node_of_gated {i : Uuid}
    (hgate : ∀ inst ∈ s.instances, inst.instanceID = i → inst.node = none) :
    (s.apply E now db).nodes[i]? = db.nodes[i]? := by
  rw [Snapshot.apply_nodes, getElem?_putNodes]
  have hskip : ∀ w ∈ s.instances.flatMap
      (nodeWrites s.collectionID (millis s.completedAtMS)), w.1 ≠ i := by
    rintro w hw rfl
    obtain ⟨inst, hinst, hw⟩ := List.mem_flatMap.1 hw
    obtain ⟨node, hnode, rfl⟩ := List.mem_map.1 hw
    rw [Option.mem_toList] at hnode
    have hnone := hgate inst hinst rfl
    simp [hnone] at hnode
  generalize s.instances.flatMap (nodeWrites s.collectionID (millis s.completedAtMS)) = ws at hskip
  induction ws with
  | nil => rfl
  | cons w ws ih =>
    rw [List.foldl_cons, actNode, if_neg (hskip w (by simp))]
    exact ih fun w' hw' => hskip w' (List.mem_cons_of_mem _ hw')

namespace LinkWrite

/-- A statement that does not remove links of `source`. -/
def Spares (source : Uuid) : LinkWrite → Prop
  | put _ _ _ => True
  | clear source' _ _ _ => source' ≠ source

theorem isSome_act {k : LinkKey} {r : Option PeerRow} {w : LinkWrite} (hw : w.Spares k.source)
    (hr : r.isSome = true) : (w.act k r).isSome = true := by
  cases w with
  | put key new detailsComplete =>
    rw [act]
    split
    · rfl
    · exact hr
  | clear source listed o c =>
    obtain ⟨row, rfl⟩ := Option.isSome_iff_exists.1 hr
    have hne : k.source ≠ source := fun h => hw h.symm
    simp [act, hne]

theorem isSome_foldl_act {k : LinkKey} {ws : List LinkWrite} {r : Option PeerRow}
    (hws : ∀ w ∈ ws, w.Spares k.source) (hr : r.isSome = true) :
    (ws.foldl (act k) r).isSome = true := by
  induction ws generalizing r with
  | nil => exact hr
  | cons w ws ih =>
    exact ih (fun w' hw' => hws w' (List.mem_cons_of_mem _ hw')) (isSome_act (hws w (by simp)) hr)

end LinkWrite

/-- A link of an instance whose routes no entry could list stays. -/
theorem link_of_gated {k : LinkKey}
    (hgate : ∀ inst ∈ s.instances, inst.instanceID = k.source →
      hasOperationError inst.errors "list_routes" = true)
    (h : db.peerLinks[k]?.isSome = true) : (s.apply E now db).peerLinks[k]?.isSome = true := by
  rw [Snapshot.apply_peerLinks, LinkWrite.getElem?_execAll]
  refine LinkWrite.isSome_foldl_act (fun w hw => ?_) h
  obtain ⟨inst, hinst, hw⟩ := List.mem_flatMap.1 hw
  rcases List.mem_append.1 hw with hw | hw
  · obtain ⟨peer, _, rfl⟩ := List.mem_map.1 hw
    trivial
  · split at hw
    · simp at hw
    · rename_i hop
      rw [List.mem_singleton.1 hw]
      exact fun hid => hop (hgate inst hinst hid)

/-- The columns of a link that `list_peer` measures. -/
def PeerColumns.measured (columns : PeerColumns) :
    Option ℚ × Option Nat × Option Nat × List String :=
  (columns.lossRate, columns.rxBytes, columns.txBytes, columns.tunnelProtocols)

theorem measured_mergePeer (old new : PeerColumns) :
    (mergePeer false old new).measured = old.measured := rfl

/-- Without the details of the peers, an entry keeps what is measured of a link, or removes it. -/
theorem foldl_linkWrites_measured {cid : Uuid} {c : Timestamp} {inst : Instance} {k : LinkKey}
    (hop : hasOperationError inst.errors "list_peers" = true) {row row' : PeerRow}
    (h : (linkWrites cid c inst).foldl (LinkWrite.act k) (some row) = some row') :
    row'.value.measured = row.value.measured := by
  have hputs : ∀ (peers : List Peer) (row : PeerRow),
      ∃ mid, (peers.map fun peer => LinkWrite.put ⟨inst.instanceID, peer.peerID.toNat⟩
        (peerRow cid c inst peer) false).foldl (LinkWrite.act k) (some row) = some mid ∧
        mid.value.measured = row.value.measured := by
    intro peers
    induction peers with
    | nil => exact fun row => ⟨row, rfl, rfl⟩
    | cons peer peers ih =>
      intro row
      rw [List.map_cons, List.foldl_cons, LinkWrite.act]
      split
      · rw [Table.upsertRow_some]
        split
        · obtain ⟨mid, hmid, hmeas⟩ := ih { peerRow cid c inst peer with
            value := mergePeer false row.value (peerRow cid c inst peer).value }
          exact ⟨mid, hmid, hmeas.trans (measured_mergePeer _ _)⟩
        · exact ih row
      · exact ih row
  obtain ⟨mid, hmid, hmeas⟩ := hputs inst.peers.elems row
  rw [linkWrites, hop, Bool.not_true, List.foldl_append, hmid] at h
  split at h
  · rw [← Option.some.inj h, hmeas]
  · rw [List.foldl_cons, List.foldl_nil, LinkWrite.act] at h
    rw [← Option.some.inj (Option.eq_some_of_filter_eq_some h), hmeas]

/-- Entries about other instances leave the links of an instance alone. -/
theorem foldl_entries_of_not_mem {cid : Uuid} {c : Timestamp} {insts : List Instance}
    {k : LinkKey} {r : Option PeerRow} (h : k.source ∉ insts.map Instance.instanceID) :
    insts.foldl (fun r inst => (linkWrites cid c inst).foldl (LinkWrite.act k) r) r = r := by
  induction insts with
  | nil => rfl
  | cons inst insts ih =>
    rw [List.map_cons, List.mem_cons, not_or] at h
    rw [List.foldl_cons, foldl_linkWrites_of_ne _ _ fun heq => h.1 heq.symm]
    exact ih h.2

/-- What is measured of the links of an instance stays, if its only entry lacks the details of the
peers. -/
theorem measured_of_gated {k : LinkKey}
    (honce : (s.instances.map Instance.instanceID).count k.source ≤ 1)
    (hgate : ∀ inst ∈ s.instances, inst.instanceID = k.source →
      hasOperationError inst.errors "list_peers" = true)
    {row row' : PeerRow} (hrow : db.peerLinks[k]? = some row)
    (hrow' : (s.apply E now db).peerLinks[k]? = some row') :
    row'.value.measured = row.value.measured := by
  rw [Snapshot.apply_peerLinks, LinkWrite.getElem?_execAll, hrow, List.foldl_flatMap] at hrow'
  generalize s.instances = insts at honce hgate hrow'
  induction insts with
  | nil => rw [← Option.some.inj hrow']
  | cons inst insts ih =>
    rw [List.foldl_cons] at hrow'
    by_cases hid : inst.instanceID = k.source
    · -- the entry of the instance; no later one is about it
      have hlater : k.source ∉ insts.map Instance.instanceID := by
        rw [← List.count_eq_zero]
        rw [List.map_cons, hid, List.count_cons_self] at honce
        omega
      rw [foldl_entries_of_not_mem hlater] at hrow'
      exact foldl_linkWrites_measured (hgate inst (by simp) hid) hrow'
    · rw [foldl_linkWrites_of_ne _ _ hid] at hrow'
      rw [List.map_cons, List.count_cons_of_ne hid] at honce
      exact ih honce (fun inst' h => hgate inst' (List.mem_cons_of_mem _ h)) hrow'

end NexusTier
