import NexusTier.Contract.Schema
import NexusTier.Delivery.Deployment
import NexusTier.Delivery.PartialFailure
import NexusTier.Gateway.Accounting

/-!
# The contract, in every run

`TopologySnapshot.serialize_conforms_iff` says when a topology conforms to the published schema.
Here the topology is an answer of the gateway, in a run of the whole.  Then all that the gateway
says of its own conforms: the version, the collection id, the times and the errors.  What is left is
what clients have said (`TopologySnapshot.Supplied`), and that the clock has not passed the last
time of the contract (`answers_conform_iff`).

## What is here

* `TelemetryError.Known` and `errors_conform`: every error that the gateway records is one of the
  contract.
* `TopologySnapshot.Supplied`: what is asked of the clients.
* `valid_of_conforms`: what conforms and was emitted is valid.
* `answers_conform_iff`: when an answer conforms; and that one which does is accepted, within the
  limit of `FetchTopology`.

## What is left out

Whether clients keep to it: the gateway does not check, and passes on what they say.
-/

set_option autoImplicit false

namespace NexusTier

open Telemetry (TopologySnapshot MachineTopology InstanceTopology)

/-! ## Errors of the gateway -/

/-- The code is one of the contract, and the operation has a name. -/
def TelemetryError.Known (e : TelemetryError) : Prop :=
  e.code ∈ Schema.errorCodes ∧ e.operation ≠ ""

theorem RpcOutcome.failure_known {α : Type} (result : RpcOutcome α) {operation : String}
    (h : operation ≠ "") : ∀ e ∈ result.failure operation, e.Known := by
  intro e he
  cases result with
  | ok value => simp [failure] at he
  | error message =>
    obtain rfl := List.mem_singleton.1 he
    exact ⟨by simp [TelemetryError.rpc, Schema.errorCodes], h⟩
  | timeout =>
    obtain rfl := List.mem_singleton.1 he
    exact ⟨by simp [TelemetryError.timeout, Schema.errorCodes], h⟩

section

variable {PeerInfo : Type} {A : PairAccessors PeerInfo} {C : TelemetryCollector}
  {replies : Replies PeerInfo} {g : Gateway} {now : UInt64}

theorem collectInstance_errors_known {id : Uuid} {r : InstanceReplies PeerInfo} :
    ∀ e ∈ (collectInstance A now id r).errors.elems, e.Known := by
  intro e he
  rw [collectInstance_errors, Slice.elems_some] at he
  simp only [List.mem_append] at he
  rcases he with ((he | he) | he) | he
  · exact r.peers.failure_known (by decide) e he
  · exact r.routes.failure_known (by decide) e he
  · exact r.node.failure_known (by decide) e he
  · exact r.metrics.failure_known (by decide) e he

theorem Machine.Gathered.errors_known {machine : Machine} (h : machine.Gathered A replies now) :
    ∀ e ∈ machine.errors.elems, e.Known := by
  rw [h.errors, Slice.elems_some]
  exact RpcOutcome.failure_known _ (by decide)

/-- A collection reports failed tasks, and at the end perhaps that it took too long. -/
theorem Collection.Ledger.errors_known {keys : List Uuid} {c : Collection}
    (h : c.Ledger C keys) : ∀ e ∈ c.errors, e.Known := by
  have hfailed : ∀ failed : List String,
      ∀ e ∈ failed.map (TelemetryError.task "collect_machine"), e.Known := by
    intro failed e he
    obtain ⟨message, -, rfl⟩ := List.mem_map.1 he
    exact ⟨by simp [TelemetryError.task, Schema.errorCodes], by simp [TelemetryError.task]⟩
  obtain ⟨failed, lost, he, -⟩ | ⟨failed, remaining, -, he, -⟩ := h.balanced
  · rw [he]
    exact hfailed failed
  · rw [he, List.forall_mem_append]
    refine ⟨hfailed failed, List.forall_mem_singleton.2 ⟨?_, ?_⟩⟩
    · simp [timeoutError, TelemetryError.collectionTimeout, Schema.errorCodes]
    · simp [timeoutError, TelemetryError.collectionTimeout]

theorem Gateway.Emits.errors_known (hg : g.Reachable) {snapshot : Snapshot}
    (h : g.Emits A C replies snapshot) : ∀ e ∈ snapshot.errors.elems, e.Known := by
  obtain ⟨hnodup, hadmitted⟩ := hg.admitted
  obtain ⟨collectionID, startedAtMS, sessions, events, -, -, hperm, hs⟩ := h
  have hledger := Collection.ledger_listed C g.now collectionID startedAtMS
    ((hperm.map Prod.fst).nodup_iff.2 hnodup)
    fun e he => GatewaySession.machineID_eq_ok.2 (hadmitted e (hperm.mem_iff.1 he)).names
  rw [Collection.snapshot?] at hs
  split at hs
  · obtain rfl := Option.some.inj hs
    exact (hledger.run events).errors_known
  · simp at hs

end

/-! ## What clients supply -/

namespace Telemetry

/-- What a client has said about itself. -/
structure SessionView.Supplied (s : SessionView) : Prop where
  machineID : s.machineID ≠ Uuid.nil
  remoteURL : s.remoteURL ≠ ""
  instances : ∀ id ∈ s.runningInstanceIDs, id ≠ Uuid.nil

/-- What a client has replied about an instance. -/
structure InstanceTopology.Supplied (i : InstanceTopology) : Prop where
  instanceID : i.instanceID ≠ Uuid.nil
  peers : ∀ p ∈ i.peers, p.Conforms
  metrics : ∀ m ∈ i.metrics, m.Conforms

structure TopologySnapshot.Supplied (t : TopologySnapshot) : Prop where
  sessions : ∀ m ∈ t.machines, m.session.Supplied
  instances : ∀ m ∈ t.machines, ∀ i ∈ m.instances, i.Supplied

theorem TopologySnapshot.Conforms.supplied {t : TopologySnapshot} (h : t.Conforms) :
    t.Supplied where
  sessions m hm :=
    have hs := (h.machines m hm).session
    ⟨hs.machineID, hs.remoteURL, hs.instances⟩
  instances m hm i hi :=
    have hi := (h.machines m hm).instances i hi
    ⟨hi.instanceID, hi.peers, hi.metrics⟩

end Telemetry

section

variable {PeerInfo : Type} {A : PairAccessors PeerInfo} {replies : Replies PeerInfo}
  {now : UInt64}

theorem errors_conform {errors : List Telemetry.TelemetryError}
    (h : ∀ e ∈ errors.map Telemetry.TelemetryError.received, e.Known) :
    ∀ e ∈ errors, e.Conforms := by
  intro e he
  have hknown := h _ (List.mem_map_of_mem he)
  exact ⟨hknown.1, hknown.2⟩

/-- An instance of a gathered machine conforms, if its client has said nothing else. -/
theorem Machine.Gathered.instance_conforms {m : MachineTopology} {i : InstanceTopology}
    (h : m.received.Gathered A replies now) (hnow : now ≤ maxTimestampMS) (hi : i ∈ m.instances)
    (hsupplied : i.Supplied) : i.Conforms := by
  have hmem : i.received ∈ m.received.instances.elems := List.mem_map_of_mem hi
  obtain ⟨j, t, ht, -, heq⟩ := h.instance_from hmem
  have hobserved : i.observedAtMS = t := congrArg Instance.observedAtMS heq
  have herrors : i.errors.map Telemetry.TelemetryError.received =
      (collectInstance A t i.received.instanceID
        ((replies m.received.session.machineID).each j)).errors.elems :=
    congrArg (fun inst : Instance => inst.errors.elems) heq
  refine ⟨hsupplied.instanceID, ?_, hsupplied.peers, hsupplied.metrics, errors_conform ?_⟩
  · rw [hobserved]
    exact UInt64.le_trans ht hnow
  · rw [herrors]
    exact collectInstance_errors_known

theorem Machine.Gathered.conforms {m : MachineTopology} (h : m.received.Gathered A replies now)
    (hnow : now ≤ maxTimestampMS) (hsession : m.session.Supplied)
    (hinstances : ∀ i ∈ m.instances, i.Supplied) : m.Conforms where
  session :=
    ⟨hsession.machineID, hsession.remoteURL, UInt64.le_trans h.seen.connected_le hnow,
      UInt64.le_trans h.seen.lastHeartbeat_le hnow, hsession.instances⟩
  observed := UInt64.le_trans h.observed_le hnow
  instances i hi := h.instance_conforms hnow hi (hinstances i hi)
  errors := errors_conform h.errors_known

end

namespace Deployment

variable {PeerInfo : Type} {codec : Codec}

/-- What is emitted is valid, if it conforms. -/
theorem valid_of_conforms {A : PairAccessors PeerInfo} {replies : Replies PeerInfo}
    {topology : TopologySnapshot} {keys : List Uuid}
    (hcollected : topology.received.Collected A replies keys) (h : topology.Conforms) :
    topology.received.Valid := by
  refine ⟨hcollected.schema, hcollected.collectionID_ne, hcollected.started_le,
    hcollected.collected_eq, h.completed, fun machine hmachine => ?_⟩
  obtain ⟨m, hm, rfl⟩ := List.mem_map.1 hmachine
  have hgathered := hcollected.gathered m.received hmachine
  have hmachine := h.machines m hm
  refine ⟨hmachine.session.machineID, hgathered.observed_le,
    hmachine.session.connected, hmachine.session.lastHeartbeat, fun inst hinst => ?_⟩
  obtain ⟨j, t, ht, -, heq⟩ := hgathered.instance_from hinst
  obtain ⟨i, hi, rfl⟩ := List.mem_map.1 hinst
  have hobserved : i.observedAtMS = t := congrArg Instance.observedAtMS heq
  refine ⟨(hmachine.instances i hi).instanceID, ?_⟩
  show i.observedAtMS ≤ topology.completedAtMS
  rw [hobserved]
  exact ht

/-- **The gateway keeps its part of the contract.**  In every run, an answer conforms to the
published schema exactly if what clients have supplied does, and the clock is within its range.  The
controller accepts an answer that conforms exactly if it has no more bytes than the limit lets it
see. -/
theorem answers_conform_iff (A : PairAccessors PeerInfo) (C : TelemetryCollector) (E : Encoding)
    (hC : codec.Exact) (hsigned : codec.Signed) (now : UInt64) (admissionToken : Option String)
    (events : List (DeploymentEvent PeerInfo)) {topology : TopologySnapshot}
    (h : topology ∈ ((start now admissionToken).run A C codec E events).answers) :
    (Schema.topology (topology.serialize codec) = true ↔
      topology.completedAtMS ≤ maxTimestampMS ∧ topology.Supplied) ∧
    (Schema.topology (topology.serialize codec) = true →
      (fetchAnswer codec (topology.serialize codec) = .ok topology.received ↔
        codec.size (topology.serialize codec) ≤ maxTopologyResponseBytes + 1)) := by
  have hsound := sound_run (A := A) (C := C) (E := E) hC now admissionToken events
  obtain ⟨g, replies, -, hg, hemits⟩ := hsound.emitted topology h
  have hcollected := hemits.collected hg
  have hgathered : ∀ m ∈ topology.machines,
      m.received.Gathered A replies topology.completedAtMS := fun m hm =>
    hcollected.gathered m.received (List.mem_map_of_mem hm)
  rw [TopologySnapshot.serialize_conforms_iff hC hsigned]
  refine ⟨⟨fun hconforms => ⟨hconforms.completed, hconforms.supplied⟩, ?_⟩, fun hconforms => ?_⟩
  · rintro ⟨hcompleted, hsupplied⟩
    have hcollectedAt : topology.collectedAtMS = topology.completedAtMS := hcollected.collected_eq
    refine ⟨hcollected.schema, hcollected.collectionID_ne,
      UInt64.le_trans hcollected.started_le hcompleted, hcompleted, ?_, fun m hm => ?_,
      errors_conform (hemits.errors_known hg)⟩
    · rw [hcollectedAt]
      exact hcompleted
    · exact (hgathered m hm).conforms hcompleted (hsupplied.sessions m hm)
        (hsupplied.instances m hm)
  · rw [fetchAnswer_serialize hC]
    exact ⟨fun haccepted => haccepted.1,
      fun hsize => ⟨hsize, rfl, valid_of_conforms hcollected hconforms⟩⟩

theorem wholeTopology_supplied : wholeTopology.Supplied := by
  constructor
  · simp only [wholeTopology, List.forall_mem_cons]
    exact ⟨⟨by decide, by decide, by simp⟩, ⟨by decide, by decide, by simp⟩, by simp⟩
  · simp only [wholeTopology, List.forall_mem_cons]
    exact ⟨⟨⟨by decide, by simp, by simp⟩, by simp⟩, ⟨⟨by decide, by simp, by simp⟩, by simp⟩,
      by simp⟩

theorem answers_conform_iff_answered :
    Schema.topology (wholeTopology.serialize plainCodec) = true ∧
      fetchAnswer plainCodec (wholeTopology.serialize plainCodec) =
        .ok wholeTopology.received := by
  have hmem : wholeTopology ∈ ((start 1000 (some "token")).run noPeers sampleCollector plainCodec
      sampleEncoding answeredRun).answers := by
    rw [answers_answeredRun]
    exact List.mem_singleton_self _
  obtain ⟨hiff, haccepted⟩ := answers_conform_iff noPeers sampleCollector sampleEncoding
    plainCodec_exact (fun _ _ => Iff.rfl) 1000 (some "token") answeredRun hmem
  have hconforms := hiff.2 ⟨by decide, wholeTopology_supplied⟩
  exact ⟨hconforms, (haccepted hconforms).2 (by decide +kernel)⟩

end Deployment

end NexusTier
