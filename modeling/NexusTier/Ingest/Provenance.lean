import NexusTier.Ingest.Activity
import NexusTier.Ingest.Order
import NexusTier.Relational.Traced

/-!
# Nothing in the database is made up

Every row of the current topology is the report of a snapshot that has been taken in, or such a
report and a later collection that did not meet its entity.  Columns of different reports are never
mixed, with one exception that is meant: where `list_peers` has failed, a link keeps the
measurements of an earlier report (`LinkWrite.Composed`).

`rows_reported` says this of every database that any run leads to, whatever has been ingested in
whatever order and whatever retention has removed since.

## What is here

* `Composed`: the row of a link, of at most three reports.
* `Snapshot.MissesInstance` and `Snapshot.Misses`: what deactivates.
* `Db.Reported`: every row goes back to snapshots of a list.
* `rows_reported`: for every run, the list being what it has accepted.

## What is left out

The logs, which `Retention/History.lean` traces in both directions.
-/

set_option autoImplicit false

namespace NexusTier

open Relational

/-! ## Links -/

namespace LinkWrite

/-- The row of a link: its times and route are those of one report, its measurements and its
latency those of others, unless the first has measurements of its own. -/
def Composed (k : LinkKey) (past : List LinkWrite) (row : PeerRow) : Prop :=
  ∃ routed detailsComplete, put k routed detailsComplete ∈ past ∧
    ∃ measured d, put k measured d ∈ past ∧ ∃ delayed d', put k delayed d' ∈ past ∧
      (detailsComplete = true → measured = routed ∧ delayed = routed) ∧
      row = { routed with
        value := { routed.value with
          latencyMS := delayed.value.latencyMS
          lossRate := measured.value.lossRate
          rxBytes := measured.value.rxBytes
          txBytes := measured.value.txBytes
          tunnelProtocols := measured.value.tunnelProtocols } }

theorem Composed.mono {k : LinkKey} {past past' : List LinkWrite} {row : PeerRow}
    (h : Composed k past row) (hsub : past ⊆ past') : Composed k past' row := by
  obtain ⟨routed, complete, hr, measured, d, hm, delayed, d', hd, hown, hrow⟩ := h
  exact ⟨routed, complete, hsub hr, measured, d, hsub hm, delayed, d', hsub hd, hown, hrow⟩

/-- A row that a report writes where there is none. -/
theorem composed_put {k : LinkKey} {past : List LinkWrite} {new : PeerRow} {detailsComplete : Bool}
    (h : put k new detailsComplete ∈ past) : Composed k past new :=
  ⟨new, detailsComplete, h, new, _, h, new, _, h, fun _ => ⟨rfl, rfl⟩, rfl⟩

/-- A merge takes the route of the new row, and each of the rest from the new row or the old. -/
theorem Composed.merge {k : LinkKey} {past : List LinkWrite} {old new : PeerRow}
    (h : Composed k past old) {detailsComplete : Bool} (hnew : put k new detailsComplete ∈ past) :
    Composed k past { new with value := mergePeer detailsComplete old.value new.value } := by
  obtain ⟨routed, complete, -, measured, d, hm, delayed, d', hd, -, rfl⟩ := h
  cases detailsComplete with
  | true => exact composed_put hnew
  | false =>
    by_cases hdirect : new.value.direct = true
    · refine ⟨new, false, hnew, measured, d, hm, delayed, d', hd, nofun, ?_⟩
      simp [mergePeer, hdirect]
    · refine ⟨new, false, hnew, measured, d, hm, new, false, hnew, nofun, ?_⟩
      simp [mergePeer, hdirect]

theorem composed_act {k : LinkKey} {past : List LinkWrite} {r : Option PeerRow}
    (h : ∀ row ∈ r, Composed k past row) (w : LinkWrite) :
    ∀ row ∈ w.act k r, Composed k (past ++ [w]) row := by
  have hkept : ∀ row ∈ r, Composed k (past ++ [w]) row :=
    fun row hrow => (h row hrow).mono (List.subset_append_left _ _)
  have hlast : w ∈ past ++ [w] := List.mem_append_right _ (List.mem_singleton_self _)
  intro row hrow
  cases w with
  | clear source listed o c => exact hkept row (Option.eq_some_of_filter_eq_some hrow)
  | put key new detailsComplete =>
    rw [act] at hrow
    split at hrow
    next hk =>
      subst hk
      obtain rfl := Option.some.inj hrow
      cases r with
      | none => exact composed_put hlast
      | some old =>
        rw [Table.upsertRow_some]
        split
        · exact (hkept old rfl).merge hlast
        · exact hkept old rfl
    next => exact hkept row hrow

theorem composed_foldl (k : LinkKey) (ws : List LinkWrite) :
    ∀ row ∈ ws.foldl (act k) none, Composed k ws row := by
  induction ws using List.reverseRecOn with
  | nil => simp
  | append_singleton ws w ih =>
    rw [List.foldl_append]
    exact composed_act ih w

end LinkWrite

/-! ## Nodes -/

theorem node_of_foldl (id : Uuid) (ws : List (Uuid × NodeRow)) :
    ∀ row ∈ ws.foldl (actNode id) none, (id, row) ∈ ws := by
  induction ws using List.reverseRecOn with
  | nil => simp
  | append_singleton ws w ih =>
    intro row hrow
    rw [List.foldl_append, List.foldl_cons, List.foldl_nil, actNode] at hrow
    split at hrow
    next hid =>
      obtain rfl := Option.some.inj hrow
      have hnew : (id, w.2) ∈ ws ++ [w] :=
        List.mem_append_right _ (List.mem_singleton.2 (by rw [← hid]))
      cases hold : ws.foldl (actNode id) none with
      | none => exact hnew
      | some old =>
        rw [Table.upsertRow_some]
        split
        · exact hnew
        · exact List.mem_append_left _ (ih old hold)
    next => exact List.mem_append_left _ (ih row hrow)

/-! ## The statements of a snapshot -/

/-- The snapshot has met every instance of the machine, and not this one; or not the machine. -/
def Snapshot.MissesInstance (machineID id : Uuid) (s : Snapshot) : Prop :=
  (∃ machine ∈ s.machines.elems, machine.session.machineID = machineID ∧
    hasOperationError machine.errors "list_network_instances" = false ∧ id ∉ machine.instanceIDs) ∨
  s.Misses machineID

/-- The reports of a link: the peer, as an entry of its instance lists it. -/
def linkReports (k : LinkKey) (snapshots : List Snapshot) : List (Snapshot × Instance × Peer) :=
  snapshots.flatMap fun s =>
    (s.instances.filter fun inst => inst.instanceID = k.source).flatMap fun inst =>
      (inst.peers.elems.filter fun peer =>
        (peer.peerID.toNat : Int) = k.destination).map fun peer => (s, inst, peer)

/-- The row a report of a link proposes. -/
def linkReportRow (r : Snapshot × Instance × Peer) : PeerRow :=
  peerRow r.1.collectionID (millis r.1.completedAtMS) r.2.1 r.2.2

section

variable {snapshots : List Snapshot}

theorem mem_machineReports {s : Snapshot} {machine : Machine} (hs : s ∈ snapshots)
    (h : machine ∈ s.machines.elems) :
    (s, machine) ∈ machineReports machine.session.machineID snapshots :=
  List.mem_flatMap.2 ⟨s, hs, List.mem_map_of_mem (List.mem_filter.2 ⟨h, by simp⟩)⟩

theorem mem_instanceReports {s : Snapshot} {machine : Machine} {inst : Instance}
    (hs : s ∈ snapshots) (hm : machine ∈ s.machines.elems) (hi : inst ∈ machine.instances.elems) :
    (s, machine, inst) ∈ instanceReports inst.instanceID snapshots :=
  List.mem_flatMap.2 ⟨s, hs, List.mem_flatMap.2
    ⟨machine, hm, List.mem_map_of_mem (List.mem_filter.2 ⟨hi, by simp⟩)⟩⟩

theorem mem_nodeReports {s : Snapshot} {inst : Instance} {node : Node} (hs : s ∈ snapshots)
    (hi : inst ∈ s.instances) (hn : node ∈ inst.node) :
    (s, inst, node) ∈ nodeReports inst.instanceID snapshots :=
  List.mem_flatMap.2 ⟨s, hs, List.mem_flatMap.2 ⟨inst, List.mem_filter.2 ⟨hi, by simp⟩,
    List.mem_map_of_mem (Option.mem_toList.2 hn)⟩⟩

theorem mem_linkReports {s : Snapshot} {inst : Instance} {peer : Peer} (hs : s ∈ snapshots)
    (hi : inst ∈ s.instances) (hp : peer ∈ inst.peers.elems) :
    (s, inst, peer) ∈ linkReports ⟨inst.instanceID, peer.peerID.toNat⟩ snapshots :=
  List.mem_flatMap.2 ⟨s, hs, List.mem_flatMap.2 ⟨inst, List.mem_filter.2 ⟨hi, by simp⟩,
    List.mem_map_of_mem (List.mem_filter.2 ⟨hp, by simp⟩)⟩⟩

/-- A report among the statements on `machines` is the report of a machine. -/
theorem machineReports_of_notice {id : Uuid} {v : MachineColumns} {o c : Timestamp} {src : Uuid}
    (h : .report id v o c src ∈ snapshots.flatMap Snapshot.machineNotices) :
    ∃ r ∈ machineReports id snapshots, Tracked.fresh v o c src = machineReportRow r := by
  obtain ⟨s, hs, h⟩ := List.mem_flatMap.1 h
  rcases List.mem_append.1 h with h | h
  · obtain ⟨machine, hmachine, heq⟩ := List.mem_map.1 h
    obtain ⟨rfl, rfl, rfl, rfl, rfl⟩ := Notice.report.inj heq
    exact ⟨(s, machine), mem_machineReports hs hmachine, rfl⟩
  · rw [missingWrites] at h
    split at h <;> simp at h

theorem misses_of_machineNotice {concerns : Uuid → MachineColumns → Bool} {c : Timestamp}
    {src : Uuid} (h : .missing concerns c src ∈ snapshots.flatMap Snapshot.machineNotices)
    {id : Uuid} {v : MachineColumns} (hconcerns : concerns id v = true) :
    ∃ s ∈ snapshots, s.Misses id ∧ c = millis s.completedAtMS ∧ src = s.collectionID := by
  obtain ⟨s, hs, h⟩ := List.mem_flatMap.1 h
  rcases List.mem_append.1 h with h | h
  · obtain ⟨machine, -, heq⟩ := List.mem_map.1 h
    simp [machineReport] at heq
  · rw [missingWrites] at h
    split at h
    next herrors =>
      obtain ⟨rfl, rfl, rfl⟩ := Notice.missing.inj (List.mem_singleton.1 h)
      have habsent : id ∉ machineIDs s.machines.elems := by simpa using hconcerns
      exact ⟨s, hs, ⟨habsent, List.isEmpty_iff.1 herrors⟩, rfl, rfl⟩
    next => simp at h

theorem instanceReports_of_notice {id : Uuid} {v : InstanceColumns} {o c : Timestamp} {src : Uuid}
    (h : .report id v o c src ∈ snapshots.flatMap Snapshot.instanceNotices) :
    ∃ r ∈ instanceReports id snapshots, Tracked.fresh v o c src = instanceReportRow r := by
  obtain ⟨s, hs, h⟩ := List.mem_flatMap.1 h
  rcases List.mem_append.1 h with h | h
  · obtain ⟨machine, hmachine, h⟩ := List.mem_flatMap.1 h
    rcases List.mem_append.1 h with h | h
    · obtain ⟨inst, hinst, heq⟩ := List.mem_map.1 h
      obtain ⟨rfl, rfl, rfl, rfl, rfl⟩ := Notice.report.inj heq
      exact ⟨(s, machine, inst), mem_instanceReports hs hmachine hinst, rfl⟩
    · rw [instancesMissing] at h
      split at h <;> simp at h
  · rw [missingWrites] at h
    split at h <;> simp at h

theorem misses_of_instanceNotice {concerns : Uuid → InstanceColumns → Bool} {c : Timestamp}
    {src : Uuid} (h : .missing concerns c src ∈ snapshots.flatMap Snapshot.instanceNotices)
    {id : Uuid} {v : InstanceColumns} (hconcerns : concerns id v = true) :
    ∃ s ∈ snapshots, s.MissesInstance v.machineID id ∧ c = millis s.completedAtMS ∧
      src = s.collectionID := by
  obtain ⟨s, hs, h⟩ := List.mem_flatMap.1 h
  rcases List.mem_append.1 h with h | h
  · obtain ⟨machine, hmachine, h⟩ := List.mem_flatMap.1 h
    rcases List.mem_append.1 h with h | h
    · obtain ⟨inst, -, heq⟩ := List.mem_map.1 h
      simp [instanceReport] at heq
    · rw [instancesMissing] at h
      split at h
      next => simp at h
      next herrors =>
        obtain ⟨rfl, rfl, rfl⟩ := Notice.missing.inj (List.mem_singleton.1 h)
        have hmissing : v.machineID = machine.session.machineID ∧ id ∉ machine.instanceIDs := by
          simpa [instanceMissing] using hconcerns
        exact ⟨s, hs, .inl ⟨machine, hmachine, hmissing.1.symm, by simpa using herrors, hmissing.2⟩,
          rfl, rfl⟩
  · rw [missingWrites] at h
    split at h
    next herrors =>
      obtain ⟨rfl, rfl, rfl⟩ := Notice.missing.inj (List.mem_singleton.1 h)
      have habsent : v.machineID ∉ machineIDs s.machines.elems := by simpa using hconcerns
      exact ⟨s, hs, .inr ⟨habsent, List.isEmpty_iff.1 herrors⟩, rfl, rfl⟩
    next => simp at h

/-- What a statement on links writes is the report of a link. -/
theorem linkReports_of_put {k : LinkKey} {row : PeerRow} {detailsComplete : Bool}
    (h : .put k row detailsComplete ∈ snapshots.flatMap fun s => s.instances.flatMap
      (linkWrites s.collectionID (millis s.completedAtMS))) :
    ∃ r ∈ linkReports k snapshots, row = linkReportRow r ∧
      detailsComplete = !hasOperationError r.2.1.errors "list_peers" := by
  obtain ⟨s, hs, h⟩ := List.mem_flatMap.1 h
  obtain ⟨inst, hinst, h⟩ := List.mem_flatMap.1 h
  rcases List.mem_append.1 h with h | h
  · obtain ⟨peer, hpeer, heq⟩ := List.mem_map.1 h
    obtain ⟨rfl, rfl, rfl⟩ := LinkWrite.put.inj heq
    exact ⟨(s, inst, peer), mem_linkReports hs hinst hpeer, rfl, rfl⟩
  · split at h <;> simp at h

end

/-! ## The database of a run -/

/-- Every row of the current topology is what reports of the snapshots `past` have made it. -/
structure Db.Reported (past : List Snapshot) (db : Db) : Prop where
  /-- A machine is as one report has it, or such a report and a later collection without it. -/
  machines : db.machines.All fun id row => ∃ r ∈ machineReports id past,
    row = machineReportRow r ∨ ∃ s ∈ past, s.Misses id ∧
      millis r.1.completedAtMS < millis s.completedAtMS ∧
      row = (machineReportRow r).deactivate (millis s.completedAtMS) s.collectionID
  /-- So is an instance. -/
  instances : db.networkInstances.All fun id row => ∃ r ∈ instanceReports id past,
    row = instanceReportRow r ∨ ∃ s ∈ past, s.MissesInstance r.2.1.session.machineID id ∧
      millis r.1.completedAtMS < millis s.completedAtMS ∧
      row = (instanceReportRow r).deactivate (millis s.completedAtMS) s.collectionID
  /-- A node is as one report has it. -/
  nodes : db.nodes.All fun id row => ∃ r ∈ nodeReports id past, row = nodeReportRow r
  /-- A link is routed as one report has it, which has measured it too unless `list_peers` has
  failed there. -/
  links : db.peerLinks.All fun k row => ∃ routed ∈ linkReports k past,
    ∃ measured ∈ linkReports k past, ∃ delayed ∈ linkReports k past,
      (hasOperationError routed.2.1.errors "list_peers" = false →
        linkReportRow measured = linkReportRow routed ∧
          linkReportRow delayed = linkReportRow routed) ∧
      row = { linkReportRow routed with
        value := { peerColumns routed.2.2 with
          latencyMS := delayed.2.2.latencyMS
          lossRate := measured.2.2.lossRate
          rxBytes := decimalString measured.2.2.rxBytes
          txBytes := decimalString measured.2.2.txBytes
          tunnelProtocols := measured.2.2.tunnelProtocols.elems } }

section

variable (E : Encoding) (ops : List Op)

theorem machines_reported : (execAll E ops Db.empty).machines.All fun id row =>
    ∃ r ∈ machineReports id (accepted E ops Db.empty), row = machineReportRow r ∨
      ∃ s ∈ accepted E ops Db.empty, s.Misses id ∧
        millis r.1.completedAtMS < millis s.completedAtMS ∧
        row = (machineReportRow r).deactivate (millis s.completedAtMS) s.collectionID := by
  intro id row hrow
  rw [execAll_machines] at hrow
  obtain ⟨c, src, hmem, heq⟩ := Notice.traced_execAll _ id row hrow
  obtain ⟨r, hr, hfresh⟩ := machineReports_of_notice hmem
  refine ⟨r, hr, ?_⟩
  rw [hfresh] at heq
  refine heq.imp_right ?_
  rintro ⟨concerns, c', src', hmissing, hconcerns, hlt, heq⟩
  obtain ⟨s, hs, hmisses, rfl, rfl⟩ := misses_of_machineNotice hmissing hconcerns
  have hc : c = millis r.1.completedAtMS := congrArg (fun row => row.completedAt) hfresh
  exact ⟨s, hs, hmisses, hc ▸ hlt, heq⟩

theorem instances_reported : (execAll E ops Db.empty).networkInstances.All fun id row =>
    ∃ r ∈ instanceReports id (accepted E ops Db.empty), row = instanceReportRow r ∨
      ∃ s ∈ accepted E ops Db.empty, s.MissesInstance r.2.1.session.machineID id ∧
        millis r.1.completedAtMS < millis s.completedAtMS ∧
        row = (instanceReportRow r).deactivate (millis s.completedAtMS) s.collectionID := by
  intro id row hrow
  rw [execAll_networkInstances] at hrow
  obtain ⟨c, src, hmem, heq⟩ := Notice.traced_execAll _ id row hrow
  obtain ⟨r, hr, hfresh⟩ := instanceReports_of_notice hmem
  refine ⟨r, hr, ?_⟩
  rw [hfresh] at heq
  refine heq.imp_right ?_
  rintro ⟨concerns, c', src', hmissing, hconcerns, hlt, heq⟩
  obtain ⟨s, hs, hmisses, rfl, rfl⟩ := misses_of_instanceNotice hmissing hconcerns
  have hc : c = millis r.1.completedAtMS := congrArg (fun row => row.completedAt) hfresh
  have hv : row.value.machineID = r.2.1.session.machineID :=
    congrArg (fun row => row.value.machineID) hfresh
  exact ⟨s, hs, hv ▸ hmisses, hc ▸ hlt, heq⟩

theorem nodes_reported : (execAll E ops Db.empty).nodes.All fun id row =>
    ∃ r ∈ nodeReports id (accepted E ops Db.empty), row = nodeReportRow r := by
  intro id row hrow
  rw [execAll_nodes, getElem?_putNodes] at hrow
  have hmem := node_of_foldl id _ row (by simpa [Db.empty] using hrow)
  obtain ⟨s, hs, hmem⟩ := List.mem_flatMap.1 hmem
  obtain ⟨inst, hinst, hmem⟩ := List.mem_flatMap.1 hmem
  obtain ⟨node, hnode, heq⟩ := List.mem_map.1 hmem
  obtain ⟨rfl, rfl⟩ := Prod.mk.inj heq
  exact ⟨(s, inst, node), mem_nodeReports hs hinst (Option.mem_toList.1 hnode), rfl⟩

theorem links_reported : (execAll E ops Db.empty).peerLinks.All fun k row =>
    ∃ routed ∈ linkReports k (accepted E ops Db.empty),
    ∃ measured ∈ linkReports k (accepted E ops Db.empty),
    ∃ delayed ∈ linkReports k (accepted E ops Db.empty),
      (hasOperationError routed.2.1.errors "list_peers" = false →
        linkReportRow measured = linkReportRow routed ∧
          linkReportRow delayed = linkReportRow routed) ∧
      row = { linkReportRow routed with
        value := { peerColumns routed.2.2 with
          latencyMS := delayed.2.2.latencyMS
          lossRate := measured.2.2.lossRate
          rxBytes := decimalString measured.2.2.rxBytes
          txBytes := decimalString measured.2.2.txBytes
          tunnelProtocols := measured.2.2.tunnelProtocols.elems } } := by
  intro k row hrow
  rw [execAll_peerLinks, LinkWrite.getElem?_execAll] at hrow
  obtain ⟨_, complete, hr, _, _, hm, _, _, hd, hown, hrow⟩ :=
    LinkWrite.composed_foldl k _ row (by simpa [Db.empty] using hrow)
  obtain ⟨routed, hrouted, rfl, rfl⟩ := linkReports_of_put hr
  obtain ⟨measured, hmeasured, rfl, -⟩ := linkReports_of_put hm
  obtain ⟨delayed, hdelayed, rfl, -⟩ := linkReports_of_put hd
  exact ⟨routed, hrouted, measured, hmeasured, delayed, hdelayed, fun h => hown (by simp [h]),
    hrow⟩

end

/-- **Nothing in the database is made up.**  Whatever a run has been through, each row of its
current topology goes back to the snapshots that it has taken in. -/
theorem rows_reported (E : Encoding) (ops : List Op) :
    (execAll E ops Db.empty).Reported (accepted E ops Db.empty) where
  machines := machines_reported E ops
  instances := instances_reported E ops
  nodes := nodes_reported E ops
  links := links_reported E ops

end NexusTier
