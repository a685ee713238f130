import NexusTier.Gateway.Accepted
import NexusTier.Ingest.Storable

/-!
# Which emitted snapshots the database takes

Between `Validate` and the constraints of the migrations there is a gap, and what falls into it
comes from clients.  The gateway turns the `path_latency` of a relayed route into a latency as it
is, a signed number, where the column and the schema of the contract want none below zero; a text
may hold NUL; the name of a metric may be too long for the index of the samples; and an instance that
a client lists twice brings its metrics twice.  Any of these aborts the transaction with everything
else in the snapshot.

`emitted_snapshot_stored_iff` says that nothing else does: no array of an emitted snapshot is nil,
and the other constraints hold of any snapshot that is valid (`ingest_eq_ok_iff`).

## What is here

* `collectInstance_storable_iff`: what is asked of an instance that was collected.
* `emitted_snapshot_stored_iff`: what is asked of a snapshot that was emitted, and that it is exact.
* `negative_path_latency_aborts`: a route that is enough to lose a whole collection.

## What is left out

That PostgreSQL is there, and has room.
-/

set_option autoImplicit false

namespace NexusTier

section

variable {PeerInfo : Type} {A : PairAccessors PeerInfo} {C : TelemetryCollector}
  {replies : Replies PeerInfo} {g : Gateway} {s : Snapshot}

theorem exists_peerView {t : Relational.Table UInt32 PeerInfo} {routes : List Route} {peer : Peer}
    (h : peer ∈ peerViews A t routes) : ∃ route ∈ routes, ∃ p, peer = peerView A route p := by
  induction routes generalizing t with
  | nil => simp [peerViews] at h
  | cons route routes ih =>
    rw [peerViews, List.mem_cons] at h
    rcases h with rfl | h
    · exact ⟨route, by simp, _, rfl⟩
    · obtain ⟨route', hroute, p, heq⟩ := ih h
      exact ⟨route', List.mem_cons_of_mem _ hroute, p, heq⟩

/-- Of an instance as the gateway collects it, only measurements and the names of metrics can be in
the way. -/
theorem collectInstance_storable_iff {E : Encoding} {now : UInt64} {id : Uuid}
    {r : InstanceReplies PeerInfo} :
    (collectInstance A now id r).Storable E ↔
      (∀ peer ∈ (collectInstance A now id r).peers.elems,
        nullOrNonneg peer.latencyMS = true ∧ nullOrNonneg peer.lossRate = true) ∧
      ∀ metric ∈ (collectInstance A now id r).metrics.elems, E.indexable metric.name = true := by
  constructor
  · exact fun h => ⟨fun peer hpeer => ⟨(h.peers peer hpeer).latency, (h.peers peer hpeer).loss⟩,
      h.names⟩
  · rintro ⟨h, hnames⟩
    refine ⟨fun node hnode => ?_, fun peer hpeer => ⟨?_, (h peer hpeer).1, (h peer hpeer).2⟩,
      hnames⟩
    · obtain ⟨info, _, rfl⟩ := Option.map_eq_some_iff.1 hnode
      exact ⟨rfl, rfl⟩
    · obtain ⟨route, _, p, rfl⟩ := exists_peerView ((List.mem_insertionSort _).1 hpeer)
      rfl

/-- **Which emitted snapshots the database takes**: those without NUL, without negative latencies
and loss rates, without a metric whose name does not fit into the index, and without a metric that
occurs twice. -/
theorem emitted_snapshot_stored_iff {E : Encoding} {db : Db} (hdb : Reachable E db)
    (hg : g.Reachable) (h : g.Emits A C replies s) (hv : s.validate = .ok ())
    (hnew : db.collectionRuns[s.collectionID]? = none) (now : Timestamp) :
    (∃ db', ingest E now s db = .ok (true, db')) ↔
      storable s.texts = true ∧
      (∀ inst ∈ s.instances, ∀ peer ∈ inst.peers.elems,
        nullOrNonneg peer.latencyMS = true ∧ nullOrNonneg peer.lossRate = true) ∧
      (∀ inst ∈ s.instances, ∀ metric ∈ inst.metrics.elems, E.indexable metric.name = true) ∧
      (s.metricKeys E).Nodup := by
  have hinsts : ∀ inst ∈ s.instances, (inst.Storable E ↔
      (∀ peer ∈ inst.peers.elems,
        nullOrNonneg peer.latencyMS = true ∧ nullOrNonneg peer.lossRate = true) ∧
      ∀ metric ∈ inst.metrics.elems, E.indexable metric.name = true) := by
    intro inst hinst
    obtain ⟨m, hm, hinst⟩ := Snapshot.mem_instances.1 hinst
    obtain ⟨_, _, _, _, heq⟩ := (((h.collected hg).gathered m hm).instance_from hinst)
    rw [heq]
    exact collectInstance_storable_iff
  rw [ingest_eq_ok_iff hdb.logged (Snapshot.validate_eq_ok.1 hv) hnew]
  constructor
  · exact fun hs => ⟨hs.texts, fun inst hi => ((hinsts inst hi).1 (hs.instances inst hi)).1,
      fun inst hi => ((hinsts inst hi).1 (hs.instances inst hi)).2, hs.metrics⟩
  · exact fun ⟨ht, hp, hn, hk⟩ =>
      ⟨ht, fun inst hi => (hinsts inst hi).2 ⟨hp inst hi, hn inst hi⟩, hk⟩

end

/-! ## A relayed route -/

/-- A route to peer 7 by way of peer 3. -/
def relayedRoute (pathLatency : Int32) : Route where
  peerID := 7
  ipv4Addr := some "10.144.0.7"
  hostname := "edge-7"
  nextHopPeerID := 3
  cost := 2
  pathLatency
  version := "2.6.4"

/-- Replies of clients that run one instance each; the one of machine 2 has a relayed route. -/
def relayedReplies (pathLatency : Int32) : Replies Empty := fun key =>
  ⟨.ok [key + 10], fun _ =>
    ⟨.ok [], .ok (if key = 2 then [relayedRoute pathLatency] else []), .ok none, .ok []⟩⟩

/-- The snapshot collected from them. -/
def relayedSnapshot (pathLatency : Int32) : Snapshot :=
  { twoClientsSnapshot 1 2 (· + 10) with
    machines := some [collectedMachine 1 11 2200,
      { collectedMachine 2 12 2100 with
        instances := some [⟨12, 2100, none, some [peerView noPeers (relayedRoute pathLatency) none],
          some [], some []⟩] }] }

def positiveLatency : Snapshot := relayedSnapshot 25

def negativeLatency : Snapshot := relayedSnapshot (-1)

def latencyEncoding : Encoding :=
  .recorded [(positiveLatency.payload, .ofFin 0xd2120edda00a34b8c9633aaa65a8d0c228dc7b922bec45134ce1df36bd2e4b66),
    (negativeLatency.payload, .ofFin 0xa0201a31347ff1316e1625c7f4e41a2edce9e38f856559ca6eee9ad230d69a72)]

theorem emitted_snapshot_stored_iff_positiveLatency :
    positiveLatency.validate = .ok () ∧
      ∃ db', ingest latencyEncoding 5000000 positiveLatency Db.empty = .ok (true, db') := by
  have hreach : (twoClients 1 2).Reachable := twoClients_reachable (by decide)
  have hemits : (twoClients 1 2).Emits noPeers sampleCollector (relayedReplies 25)
      positiveLatency :=
    ⟨0x11111111111141118111111111111111, 2000, _, secondFirst 1 2, by decide, by decide,
      List.Perm.refl _, by decide +kernel⟩
  have hvalid : positiveLatency.validate = .ok () := by decide
  refine ⟨hvalid, (emitted_snapshot_stored_iff ⟨[], rfl⟩ hreach hemits hvalid (by decide)
    5000000).2 ⟨by decide +kernel, by decide +kernel, by decide +kernel, by decide +kernel⟩⟩

/-- **A relayed route with a negative latency aborts the whole ingestion.** -/
theorem negative_path_latency_aborts :
    Reachable latencyEncoding Db.empty ∧ (twoClients 1 2).Reachable ∧
      (twoClients 1 2).Emits noPeers sampleCollector (relayedReplies (-1)) negativeLatency ∧
      negativeLatency.validate = .ok () ∧
      ingest latencyEncoding 5000000 negativeLatency Db.empty =
        .error (.upsertPeer 7 12 (.check "latency_ms")) :=
  ⟨⟨[], rfl⟩, twoClients_reachable (by decide),
    ⟨0x11111111111141118111111111111111, 2000, _, secondFirst 1 2, by decide, by decide,
      List.Perm.refl _, by decide +kernel⟩,
    by decide, by decide +kernel⟩

end NexusTier
