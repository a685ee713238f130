import NexusTier.Ingest.History

/-!
# Where the latency of a direct link comes from

The latency of a relayed link is that of its path, the latency of a direct one is measured on its
connection, and one column holds both.  When `list_peers` has failed there is no measurement, so
the upsert of a direct link keeps the latency that is stored.  It does not ask whether the stored
link was direct: where it was relayed, the latency of the path is from then on that of a direct
link (`relayed_latency_becomes_direct`).

Everywhere else the column is what it should be.  A statement that does not do this leaves every
direct link with no latency or with one that was reported for it as direct, and so does a run of
such statements (`direct_latencies_reported`).

## What is here

* `LinkWrite.promotes` and `NeverPromote`: the statement that does it, and runs without one.
* `Traced`: the invariant of such runs.
* `direct_latencies_reported`: what it comes to for snapshots.
* `relayed_latency_becomes_direct`: a run with such a statement.

## What is left out

Whether a latency is right.  It is reported for a direct link, or it is not; what the client has
measured is its own.
-/

set_option autoImplicit false

namespace NexusTier

open Relational

namespace LinkWrite

/-- Without the details of `list_peers`, the statement marks as direct a link that is stored as
relayed, with a latency. -/
def promotes (t : Table LinkKey PeerRow) : LinkWrite → Bool
  | put key new detailsComplete =>
    !detailsComplete && new.value.direct && t[key]?.any fun old =>
      old.olderThan new.observedAt new.completedAt && !old.value.direct &&
        old.value.latencyMS.isSome
  | clear _ _ _ _ => false

/-- No statement of the list promotes a relayed link, where it comes to run. -/
def NeverPromote : Table LinkKey PeerRow → List LinkWrite → Prop
  | _, [] => True
  | t, w :: ws => w.promotes t = false ∧ NeverPromote (w.exec t) ws

instance decidableNeverPromote : ∀ (t : Table LinkKey PeerRow) (ws : List LinkWrite),
    Decidable (NeverPromote t ws)
  | _, [] => .isTrue trivial
  | t, w :: ws => @instDecidableAnd _ _ _ (decidableNeverPromote (w.exec t) ws)

theorem NeverPromote.of_append {ws ws' : List LinkWrite} :
    ∀ {t : Table LinkKey PeerRow}, NeverPromote t (ws ++ ws') → NeverPromote t ws := by
  induction ws with
  | nil => exact fun _ => trivial
  | cons w ws ih => exact fun h => ⟨h.1, ih h.2⟩

/-- The statement reports `v` as the latency of a direct link. -/
def ReportsDirect (k : LinkKey) (v : ℚ) : LinkWrite → Prop
  | put key new _ => key = k ∧ new.value.direct = true ∧ new.value.latencyMS = some v
  | clear _ _ _ _ => False

/-- The latency of every direct link was reported as such by one of the statements `past`. -/
def Traced (past : List LinkWrite) (t : Table LinkKey PeerRow) : Prop :=
  ∀ (k : LinkKey) (row : PeerRow) (v : ℚ), t[k]? = some row → row.value.direct = true →
    row.value.latencyMS = some v → ∃ w ∈ past, w.ReportsDirect k v

/-- What an upsert leaves is the row it proposes, the row that was there, or a merge of the two. -/
theorem act_put_cases {key k : LinkKey} {new row : PeerRow} {detailsComplete : Bool}
    {r : Option PeerRow} (h : (put key new detailsComplete).act k r = some row) :
    r = some row ∨ (key = k ∧ row = new) ∨
      ∃ old, key = k ∧ r = some old ∧ old.olderThan new.observedAt new.completedAt = true ∧
        row.value = mergePeer detailsComplete old.value new.value := by
  rw [act] at h
  split at h
  next hk =>
    obtain rfl := Option.some.inj h
    cases r with
    | none => exact .inr (.inl ⟨hk, rfl⟩)
    | some old =>
      rw [Table.upsertRow_some]
      by_cases hold : old.olderThan new.observedAt new.completedAt = true
      · exact .inr (.inr ⟨old, hk, rfl, hold, by rw [if_pos hold]⟩)
      · exact .inl (by rw [if_neg hold])
  next hk => exact .inl h

/-- One statement that promotes no relayed link keeps the latencies traced. -/
theorem Traced.step {past : List LinkWrite} {t : Table LinkKey PeerRow} (h : Traced past t)
    {w : LinkWrite} (hw : w.promotes t = false) : Traced (past ++ [w]) (w.exec t) := by
  intro k row v hrow hdirect hv
  rw [getElem?_exec] at hrow
  have hkept : t[k]? = some row → ∃ w' ∈ past ++ [w], w'.ReportsDirect k v := by
    intro hold
    obtain ⟨w', hw', hrep⟩ := h k row v hold hdirect hv
    exact ⟨w', List.mem_append_left _ hw', hrep⟩
  cases w with
  | clear source listed o c => exact hkept (Option.eq_some_of_filter_eq_some hrow)
  | put key new detailsComplete =>
    obtain hold | ⟨rfl, rfl⟩ | ⟨old, rfl, hold, holder, hval⟩ := act_put_cases hrow
    · exact hkept hold
    · exact ⟨_, List.mem_append_right _ (List.mem_singleton_self _), rfl, hdirect, hv⟩
    · have hnew : new.value.direct = true := by
        rw [hval] at hdirect
        exact hdirect
      rw [hval, mergePeer] at hv
      cases detailsComplete with
      | true => exact ⟨_, List.mem_append_right _ (List.mem_singleton_self _), rfl, hnew, hv⟩
      | false =>
        -- the stored latency stays, so the stored link has to be direct already
        have hlat : old.value.latencyMS = some v := by simpa [hnew] using hv
        have hdir : old.value.direct = true := by
          simpa [promotes, hnew, hold, holder, hlat] using hw
        obtain ⟨w', hw', hrep⟩ := h key old v hold hdir hlat
        exact ⟨w', List.mem_append_left _ hw', hrep⟩

/-- So does a list of such statements. -/
theorem Traced.run {ws : List LinkWrite} :
    ∀ {past : List LinkWrite} {t : Table LinkKey PeerRow}, Traced past t → NeverPromote t ws →
      Traced (past ++ ws) (ws.foldl exec t) := by
  induction ws with
  | nil =>
    intro past t h _
    rwa [List.append_nil]
  | cons w ws ih =>
    intro past t h hws
    rw [List.append_cons]
    exact ih (h.step hws.1) hws.2

end LinkWrite

/-! ## Runs -/

/-- The snapshot reports `v` as the latency of a direct link `k`. -/
def Snapshot.ReportsDirect (k : LinkKey) (v : ℚ) (s : Snapshot) : Prop :=
  ∃ inst ∈ s.instances, inst.instanceID = k.source ∧ ∃ peer ∈ inst.peers.elems,
    (peer.peerID.toNat : Int) = k.destination ∧ peer.direct = true ∧ peer.latencyMS = some v

/-- The statements on links of the snapshots, in order. -/
def linkStatements (snapshots : List Snapshot) : List LinkWrite :=
  snapshots.flatMap fun s =>
    s.instances.flatMap (linkWrites s.collectionID (millis s.completedAtMS))

/-- The latency of every direct link is one that some snapshot of the run reported for it as
direct. -/
def DirectLatenciesReported (E : Encoding) (ops : List Op) : Prop :=
  ∀ (k : LinkKey) (row : PeerRow) (v : ℚ),
    (execAll E ops Db.empty).peerLinks[k]? = some row → row.value.direct = true →
      row.value.latencyMS = some v → ∃ s ∈ accepted E ops Db.empty, s.ReportsDirect k v

/-- What a statement reports, its snapshot does. -/
theorem exists_reportsDirect {snapshots : List Snapshot} {w : LinkWrite} {k : LinkKey} {v : ℚ}
    (hw : w ∈ linkStatements snapshots) (h : w.ReportsDirect k v) :
    ∃ s ∈ snapshots, s.ReportsDirect k v := by
  obtain ⟨s, hs, hw⟩ := List.mem_flatMap.1 hw
  obtain ⟨inst, hinst, hw⟩ := List.mem_flatMap.1 hw
  rcases List.mem_append.1 hw with hw | hw
  · obtain ⟨peer, hpeer, rfl⟩ := List.mem_map.1 hw
    obtain ⟨rfl, hdirect, hv⟩ := h
    exact ⟨s, hs, inst, hinst, rfl, peer, hpeer, rfl, hdirect, hv⟩
  · split at hw
    · simp at hw
    · rw [List.mem_singleton.1 hw] at h
      exact h.elim

section

variable {E : Encoding} {ops : List Op}

theorem directLatenciesReported_of_neverPromote
    (h : LinkWrite.NeverPromote ∅ (linkStatements (accepted E ops Db.empty))) :
    DirectLatenciesReported E ops := by
  intro k row v hrow hdirect hv
  have hempty : LinkWrite.Traced [] (∅ : Table LinkKey PeerRow) := by
    intro k row v hrow
    simp at hrow
  have htraced := LinkWrite.Traced.run hempty h
  rw [List.nil_append] at htraced
  rw [execAll_peerLinks] at hrow
  obtain ⟨w, hw, hrep⟩ := htraced k row v hrow hdirect hv
  exact exists_reportsDirect hw hrep

/-- **A direct latency was reported as one, in runs that promote no relayed link.**  In every state
of such a run the latency of a direct link is null or a value that some ingested snapshot reported
for that link with `direct` set. -/
theorem direct_latencies_reported
    (h : LinkWrite.NeverPromote ∅ (linkStatements (accepted E ops Db.empty))) :
    ∀ ops', ops' <+: ops → DirectLatenciesReported E ops' := by
  rintro ops' ⟨rest, rfl⟩
  rw [accepted_append, linkStatements, List.flatMap_append] at h
  exact directLatenciesReported_of_neverPromote h.of_append

end

/-! ### A link that becomes direct -/

/-- Peer 7 by way of peer 3: the latency is that of the path. -/
def relayedPeer : Peer :=
  { samplePeer 7 with
    nextHopPeerID := 3
    direct := false
    pathCost := 2
    latencyMS := some 25 }

/-- Peer 7 as a direct one, without what `list_peers` would have told. -/
def unmeasuredPeer : Peer :=
  { samplePeer 7 with
    latencyMS := none
    lossRate := none
    rxBytes := none
    txBytes := none
    tunnelProtocols := some [] }

/-- An instance whose `list_peers` call has timed out. -/
def unmeasuredInstance : Instance :=
  { sampleInstance 0xb1 3600 [unmeasuredPeer] with
    errors := some [⟨"rpc_timeout", "list_peers", "RPC timed out"⟩] }

/-- Peer 7 is relayed. -/
def sampleRelayed : Snapshot :=
  sampleSnapshot 0xc7 1000 2000
    [sampleMachine 0xa1 1500 [sampleInstance 0xb1 1600 [relayedPeer]]]

/-- Peer 7 is direct, and not measured. -/
def sampleUnmeasured : Snapshot :=
  sampleSnapshot 0xc8 3000 4000 [sampleMachine 0xa1 3500 [unmeasuredInstance]]

def latencyRunEncoding : Encoding :=
  .recorded
    [(sampleReport.payload,
        .ofFin 0x9a34ab897a0b42ca4ce4417db93346b710953fbd6b5bad8b4c0cdfae90045624),
      (sampleRelayed.payload,
        .ofFin 0x15e23eb3d7bc2ec76ad3ec8992300391c60d541eea380c99fbfda269f9ab63c3),
      (sampleUnmeasured.payload,
        .ofFin 0x5c187a6e77f51837aa20b60c797cab93a13593267121e748961c203164276b32)]

/-- Peer 7 is direct and measured, then direct and not. -/
def stayingDirect : List Op := [.ingest 5000000 sampleReport, .ingest 6000000 sampleUnmeasured]

theorem direct_latencies_reported_stayingDirect :
    (((execAll latencyRunEncoding stayingDirect Db.empty).peerLinks[
        (⟨0xb1, 7⟩ : LinkKey)]?).map fun row => (row.value.direct, row.value.latencyMS)) =
        some (true, some 12) ∧
      ∀ ops', ops' <+: stayingDirect → DirectLatenciesReported latencyRunEncoding ops' :=
  ⟨by decide +kernel, direct_latencies_reported (by decide +kernel)⟩

/-- Peer 7 is relayed, then direct and not measured. -/
def becomingDirect : List Op := [.ingest 5000000 sampleRelayed, .ingest 6000000 sampleUnmeasured]

/-- **The latency of a path becomes that of a direct link** when `list_peers` fails while the link
changes from relayed to direct. -/
theorem relayed_latency_becomes_direct :
    accepted latencyRunEncoding becomingDirect Db.empty = [sampleRelayed, sampleUnmeasured] ∧
      ¬ DirectLatenciesReported latencyRunEncoding becomingDirect := by
  have haccepted : accepted latencyRunEncoding becomingDirect Db.empty =
      [sampleRelayed, sampleUnmeasured] := by
    decide +kernel
  refine ⟨haccepted, fun h => ?_⟩
  have hrow : (((execAll latencyRunEncoding becomingDirect Db.empty).peerLinks[
      (⟨0xb1, 7⟩ : LinkKey)]?).map fun row => (row.value.direct, row.value.latencyMS)) =
        some (true, some 25) := by
    decide +kernel
  obtain ⟨row, hrow, hcolumns⟩ := Option.map_eq_some_iff.1 hrow
  obtain ⟨hdirect, hlatency⟩ := Prod.mk.inj hcolumns
  obtain ⟨s, hs, inst, hinst, -, peer, hpeer, -, hrep⟩ := h _ row 25 hrow hdirect hlatency
  rw [haccepted] at hs
  have hnone : ∀ s ∈ [sampleRelayed, sampleUnmeasured], ∀ inst ∈ s.instances,
      ∀ peer ∈ inst.peers.elems, ¬ (peer.direct = true ∧ peer.latencyMS = some 25) := by
    decide
  exact hnone s hs inst hinst peer hpeer hrep

end NexusTier
