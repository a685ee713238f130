import NexusTier.Delivery.Deployment
import NexusTier.Delivery.Storage
import NexusTier.Gateway.Accounting
import NexusTier.ReadModel.Agreement

/-!
# The console shows the pool

What all of this is for: a user of the console sees which clients the gateway has.  After an answer
to a collection without errors has been received, paging through the active topology shows the
machines whose sessions the collection has listed, each with what has been collected from it, and no
others (`pool_shown`).  Which sessions these are, `Listed` says: while the pool does not change,
those of the pool.

## What stands in the way

`Snapshot.Showable` puts together the conditions that the stages in between have been found to set:

* to be valid, no id is nil and the clock is within its range;
* to replace what has been stored, the collection has had no error, has an id that is not in use,
  and is later than all that is stored;
* to be stored whole, no instance, peer of an instance or metric of an instance occurs twice, texts
  and numbers are such that PostgreSQL takes them, the names of metrics are short enough for an
  index, and labels have fingerprints of their own.

The answer must also end within the limit of `FetchTopology`.
-/

set_option autoImplicit false

namespace NexusTier

open Relational ReadModel Telemetry

/-- Nothing stands in the way of showing the snapshot, once it has been emitted. -/
structure Snapshot.Showable (E : Encoding) (db : Db) (s : Snapshot) : Prop where
  completed_le : s.completedAtMS ≤ maxTimestampMS
  complete : s.Complete
  ids : ∀ machine ∈ s.machines.elems,
    machine.session.machineID ≠ Uuid.nil ∧ Uuid.nil ∉ machine.instanceIDs
  instances : (s.instances.map Instance.instanceID).Nodup
  peers : ∀ inst ∈ s.instances, (inst.peers.elems.map Peer.peerID).Nodup
  metrics : ∀ inst ∈ s.instances,
    (inst.metrics.elems.map fun metric => (metric.name, metric.labels)).Nodup
  texts : storable s.texts = true
  numbers : ∀ inst ∈ s.instances, ∀ peer ∈ inst.peers.elems,
    nullOrNonneg peer.latencyMS = true ∧ nullOrNonneg peer.lossRate = true
  names : ∀ inst ∈ s.instances, ∀ metric ∈ inst.metrics.elems, E.indexable metric.name = true
  fingerprinted : Fingerprinted E s
  unused : db.collectionRuns[s.collectionID]? = none
  later : s.LaterThan db

section

variable {PeerInfo : Type} {A : PairAccessors PeerInfo} {C : TelemetryCollector}
  {replies : Replies PeerInfo} {g : Gateway} {s : Snapshot} {E : Encoding} {db : Db}

/-- What is emitted is valid, if its ids are not nil. -/
theorem Snapshot.Collected.valid (hc : s.Collected A replies (g.pool.map Prod.fst))
    (hs : s.Showable E db) : s.Valid := by
  refine ⟨hc.schema, hc.collectionID_ne, hc.started_le, hc.collected_eq, hs.completed_le,
    fun m hm => ((hc.gathered m hm).valid_iff hs.completed_le).2 ⟨(hs.ids m hm).1, ?_⟩⟩
  rw [← (hc.gathered m hm).instanceIDs_perm.mem_iff]
  exact (hs.ids m hm).2

/-- What is emitted can be stored, if its texts and numbers can. -/
theorem Snapshot.Collected.storable (hc : s.Collected A replies (g.pool.map Prod.fst))
    (hs : s.Showable E db) : s.Storable E where
  texts := hs.texts
  instances inst hinst := by
    obtain ⟨m, hm, hmem⟩ := Snapshot.mem_instances.1 hinst
    obtain ⟨_, _, _, _, heq⟩ := (hc.gathered m hm).instance_from hmem
    have hnumbers := hs.numbers inst hinst
    have hnames := hs.names inst hinst
    rw [heq] at hnumbers hnames ⊢
    exact collectInstance_storable_iff.2 ⟨hnumbers, hnames⟩
  metrics := nodup_metricKeys ⟨hc.nodup, hs.instances, hs.peers, hs.metrics⟩ hs.fingerprinted

/-- The machines that are shown have the ids of those of the snapshot. -/
theorem ReadModel.Shows.perm_machineIDs {shown : List ReadModel.Machine} (h : Shows s shown) :
    (shown.map ReadModel.Machine.machineID).Perm (machineIDs s.machines.elems) := by
  obtain ⟨machines, hperm, hshows⟩ := h
  have hids : shown.map ReadModel.Machine.machineID = machineIDs machines := by
    clear hperm
    induction hshows with
    | nil => rfl
    | cons hshow _ ih =>
      rw [List.map_cons, hshow.machineID, ih]
      rfl
  rw [hids]
  exact hperm.map _

/-- The active topology after such a snapshot has been applied. -/
theorem shows_apply (hdb : Reachable E db) (hc : s.Collected A replies (g.pool.map Prod.fst))
    (hs : s.Showable E db) (now : Timestamp) (limit : Int) :
    Shows s ((machineRows (activeQuery limit) (s.apply E now db)).map
      (nestedMachine (some true) (s.apply E now db))) := by
  have hd : s.Distinct := ⟨hc.nodup, hs.instances, hs.peers, hs.metrics⟩
  obtain ⟨machines, hm, heq⟩ := exists_perm_map
    (@machines_perm E now s db hdb.wellFormed hs.complete hd hs.later limit)
  refine ⟨machines, hm, ?_⟩
  rw [heq, List.map_map, List.forall₂_map_right_iff, List.forall₂_same]
  intro machine hmachine
  exact shows_machine hdb.wellFormed hs.complete hd hs.later (hm.mem_iff.1 hmachine)

/-- What paging through it returns. -/
theorem topology_apply (hdb : Reachable E db) (hc : s.Collected A replies (g.pool.map Prod.fst))
    (hs : s.Showable E db) (now readAt : Timestamp) (limit : Int) {fuel : Nat}
    (hfuel : s.machines.elems.length < fuel) :
    ∃ shown, topology readAt (activeQuery limit) (s.apply E now db) fuel = .ok (some shown) ∧
      Shows s shown := by
  have hshows := shows_apply hdb hc hs now limit
  have hlength := hshows.perm_machineIDs.length_eq
  rw [List.length_map, List.length_map, machineIDs, List.length_map] at hlength
  exact ⟨_, topology_eq (readable_apply (readable_of_reachable hdb)) readAt rfl (hlength ▸ hfuel),
    hshows⟩

end

namespace Deployment

variable {PeerInfo : Type} {codec : Codec}

/-- An answer that nothing stands in the way of is stored as it was collected. -/
theorem poll_answer (A : PairAccessors PeerInfo) (C : TelemetryCollector) (E : Encoding)
    (hC : codec.Exact) (now : UInt64) (admissionToken : Option String)
    (events : List (DeploymentEvent PeerInfo)) {n : Nat} {topology : TopologySnapshot}
    (hanswer : ((start now admissionToken).run A C codec E events).answers[n]? = some topology)
    (hsize : codec.size (topology.serialize codec) ≤ maxTopologyResponseBytes + 1)
    (hs : topology.received.Showable E ((start now admissionToken).run A C codec E events).db) :
    Reachable E ((start now admissionToken).run A C codec E events).db ∧
    ∃ (g : Gateway) (replies : Replies PeerInfo),
      Listed (gateways A C codec E now admissionToken events) topology.startedAtMS g ∧
        g.Emits A C replies topology.received ∧
        topology.received.Collected A replies (g.pool.map Prod.fst) ∧
        (machineIDs topology.received.machines.elems).Perm (g.pool.map Prod.fst) ∧
        ∀ pollAt, (((start now admissionToken).run A C codec E events).step A C codec E
          (.poll pollAt n)).db = topology.received.apply E pollAt
            ((start now admissionToken).run A C codec E events).db := by
  have hsound := sound_run (A := A) (C := C) (E := E) hC now admissionToken events
  obtain ⟨g, replies, hlisted, hg, hemits⟩ :=
    hsound.emitted topology (List.mem_of_getElem? hanswer)
  obtain ⟨ops, hops, -⟩ := hsound.fed
  have hdb : Reachable E ((start now admissionToken).run A C codec E events).db := ⟨ops, hops⟩
  have hc := hemits.collected hg
  refine ⟨hdb, g, replies, hlisted, hemits, hc, (hemits.accounts hg).complete hs.complete.errors,
    fun pollAt => ?_⟩
  have hvalid := hc.valid hs
  -- the answer is received as it was sent, and stored
  have hfetch : fetchAnswer codec (topology.serialize codec) = .ok topology.received :=
    (fetchAnswer_serialize hC).2 ⟨hsize, rfl, hvalid⟩
  obtain ⟨db', hdb'⟩ := (@ingest_eq_ok_iff E pollAt _ _ hdb.logged hvalid hs.unused).2
    (hc.storable hs)
  obtain ⟨-, -, rfl⟩ := ingest_eq_ok_true hdb'
  simp only [Deployment.step, hanswer, hfetch, Op.exec, hdb']

theorem getElem?_answeredRun :
    ((start 1000 (some "token")).run noPeers sampleCollector plainCodec sampleEncoding
      answeredRun).answers[0]? = some wholeTopology := by
  rw [answers_answeredRun]
  rfl

theorem size_wholeTopology :
    plainCodec.size (wholeTopology.serialize plainCodec) ≤ maxTopologyResponseBytes + 1 := by
  decide +kernel

/-- Nothing has been stored yet. -/
theorem showable_answeredRun : wholeTopology.received.Showable sampleEncoding
    ((start 1000 (some "token")).run noPeers sampleCollector plainCodec sampleEncoding
      answeredRun).db := by
  show wholeTopology.received.Showable sampleEncoding Db.empty
  exact ⟨by decide, ⟨by decide, by decide, by decide⟩, by decide, by decide, by decide, by decide,
    by decide +kernel, by decide, by decide, by simp [Fingerprinted]; decide, by decide +kernel,
    Snapshot.laterThan_empty _⟩

/-- **The console shows the pool.**  In every run, an answer goes back to sessions that have been
listed: under each key, what the pool had there at some time of the listing.  If nothing stands in
the way of showing it, and it is not too long, then once the worker has received it, paging through
the active topology returns the machines of these sessions, each as it has been collected, whatever
has been stored before. -/
theorem pool_shown (A : PairAccessors PeerInfo) (C : TelemetryCollector) (E : Encoding)
    (hC : codec.Exact) (now : UInt64) (admissionToken : Option String)
    (events : List (DeploymentEvent PeerInfo)) {n : Nat} {topology : TopologySnapshot}
    (hanswer : ((start now admissionToken).run A C codec E events).answers[n]? = some topology)
    (hsize : codec.size (topology.serialize codec) ≤ maxTopologyResponseBytes + 1)
    (hs : topology.received.Showable E ((start now admissionToken).run A C codec E events).db) :
    ∃ (g : Gateway) (replies : Replies PeerInfo),
      Listed (gateways A C codec E now admissionToken events) topology.startedAtMS g ∧
        g.Emits A C replies topology.received ∧
        ∀ (pollAt readAt : Timestamp) (limit : Int) fuel, g.pool.length < fuel → ∃ shown,
          ReadModel.topology readAt (activeQuery limit)
            (((start now admissionToken).run A C codec E events).step A C codec E
              (.poll pollAt n)).db fuel = .ok (some shown) ∧
          Shows topology.received shown ∧
          (shown.map ReadModel.Machine.machineID).Perm (g.pool.map Prod.fst) := by
  obtain ⟨hdb, g, replies, hlisted, hemits, hc, hkeys, hpoll⟩ :=
    poll_answer A C E hC now admissionToken events hanswer hsize hs
  refine ⟨g, replies, hlisted, hemits, fun pollAt readAt limit fuel hfuel => ?_⟩
  have hlength : topology.received.machines.elems.length = g.pool.length := by
    simpa [machineIDs] using hkeys.length_eq
  obtain ⟨shown, hshown, hshows⟩ := topology_apply hdb hc hs pollAt readAt limit
    (by omega : topology.received.machines.elems.length < fuel)
  exact ⟨shown, hpoll pollAt ▸ hshown, hshows, hshows.perm_machineIDs.trans hkeys⟩

theorem pool_shown_answered :
    ∃ (g : Gateway) (replies : Replies Empty),
      Listed (gateways noPeers sampleCollector plainCodec sampleEncoding 1000 (some "token")
        answeredRun) 1000 g ∧
        g.Emits noPeers sampleCollector replies wholeTopology.received ∧
        ∃ shown, ReadModel.topology 7000000 (activeQuery 1)
            (((start 1000 (some "token")).run noPeers sampleCollector plainCodec sampleEncoding
              answeredRun).step noPeers sampleCollector plainCodec sampleEncoding
                (.poll 5000000 0)).db (g.pool.length + 1) = .ok (some shown) ∧
          (shown.map ReadModel.Machine.machineID).Perm (g.pool.map Prod.fst) := by
  obtain ⟨g, replies, hlisted, hemits, hshown⟩ := pool_shown noPeers sampleCollector sampleEncoding
    plainCodec_exact 1000 (some "token") answeredRun getElem?_answeredRun size_wholeTopology
    showable_answeredRun
  obtain ⟨shown, hpaged, -, hperm⟩ := hshown 5000000 7000000 1 _ (Nat.lt_succ_self _)
  exact ⟨g, replies, hlisted, hemits, shown, hpaged, hperm⟩

end Deployment

end NexusTier
