import NexusTier.Gateway.Collection

/-!
# Which emitted snapshots the controller accepts

`Validate` refuses a nil id of a machine or an instance, and so does the schema of the contract.
The gateway checks neither: a heartbeat needs a machine id, but any, and the ids of
`list_network_instance` are passed on as they come.  Every other clause of `Validate` is met by the
way a snapshot is built, as long as the clock does not run backwards.

So a snapshot is accepted when every client of the pool keeps to ids that are not nil
(`Gateway.Identified`), and one that does not is enough to have the whole snapshot refused.

## What is here

* `Gateway.Identified`: what is asked of the clients.
* `emitted_snapshot_accepted`: it is enough, and where all clients have been collected it is needed.
* `nil_machine_refused`: a client without it, and what becomes of another one's machine.

## What is left out

The limit on the length of a response, which `Contract/Body.lean` is about, and the times of a clock
that runs backwards.
-/

set_option autoImplicit false

namespace NexusTier

/-- No session of the pool is for the nil machine, and no client lists the nil instance. -/
def Gateway.Identified {PeerInfo : Type} (replies : Replies PeerInfo) (g : Gateway) : Prop :=
  ∀ key ∈ g.pool.map Prod.fst, key ≠ Uuid.nil ∧ Uuid.nil ∉ (replies key).listed

section

variable {PeerInfo : Type} {A : PairAccessors PeerInfo} {C : TelemetryCollector}
  {replies : Replies PeerInfo} {g : Gateway} {s : Snapshot}

/-- A machine is valid when its ids are not nil: its times are in order. -/
theorem Machine.Gathered.valid_iff {now : UInt64} {machine : Machine}
    (h : machine.Gathered A replies now) (hnow : now ≤ maxTimestampMS) :
    machine.Valid now ↔ machine.session.machineID ≠ Uuid.nil ∧
      Uuid.nil ∉ (replies machine.session.machineID).listed := by
  have hlisted : ∀ id, id ∈ (replies machine.session.machineID).listed ↔
      ∃ inst ∈ machine.instances.elems, inst.instanceID = id := fun id => by
    rw [← h.instanceIDs_perm.mem_iff, List.mem_map]
  constructor
  · intro hv
    refine ⟨hv.machineID_ne, fun hmem => ?_⟩
    obtain ⟨inst, hinst, hid⟩ := (hlisted _).1 hmem
    exact (hv.instances inst hinst).instanceID_ne hid
  · rintro ⟨hid, hinsts⟩
    refine ⟨hid, h.observed_le, UInt64.le_trans h.seen.connected_le hnow,
      UInt64.le_trans h.seen.lastHeartbeat_le hnow, fun inst hinst => ⟨fun hnil => ?_, ?_⟩⟩
    · exact hinsts ((hlisted _).2 ⟨inst, hinst, hnil⟩)
    · obtain ⟨_, t, ht, _, heq⟩ := h.instance_from hinst
      rw [heq]
      exact ht

/-- **An emitted snapshot is accepted when every client of the pool keeps to ids that are not
nil**, and, if all of them have been collected, only then. -/
theorem emitted_snapshot_accepted (hg : g.Reachable) (h : g.Emits A C replies s)
    (hclock : s.completedAtMS ≤ maxTimestampMS) :
    (g.Identified replies → s.validate = .ok ()) ∧
      (s.errors.elems = [] → s.validate = .ok () → g.Identified replies) := by
  have hc := h.collected hg
  rw [Snapshot.validate_eq_ok]
  constructor
  · intro hids
    refine ⟨hc.schema, hc.collectionID_ne, hc.started_le, hc.collected_eq, hclock, fun m hm => ?_⟩
    exact ((hc.gathered m hm).valid_iff hclock).2 (hids _ (hc.mem_keys m hm))
  · intro herr hv key hkey
    obtain ⟨m, hm, rfl⟩ := hc.complete herr key hkey
    exact ((hc.gathered m hm).valid_iff hclock).1 (hv.machines m hm)

end

/-! ## One client among two -/

/-- EasyTier's accessors, on routes without a peer: there is nothing to read. -/
def noPeers : PairAccessors Empty where
  peerID := Empty.elim
  getLatencyMS _ _ := none
  getLossRate _ _ := none
  getRxBytes _ _ := none
  getTxBytes _ _ := none
  getConnProtos _ _ := none

def sampleCollector : TelemetryCollector := ⟨15000, 8, by decide⟩

def sampleHeartbeat (machineID : Uuid) : HeartbeatRequest where
  machineID := some machineID
  userToken := ""
  hostname := "edge"
  easyTierVersion := "2.6.4"
  reportTime := "2026-07-29T18:00:00+08:00"
  runningNetworkInstances := []
  deviceOS := none

/-- A session that connected at time 1000 and sent its heartbeat at once. -/
def sampleClient (machineID : Uuid) : GatewaySession where
  state := ⟨"udp://203.0.113.10:42000", some (sampleHeartbeat machineID), 1000, 1000⟩
  secure := true
  admissionToken := none

def twoClients (a b : Uuid) : Gateway := ⟨2000, [(a, sampleClient a), (b, sampleClient b)]⟩

theorem sampleClient_lived (machineID : Uuid) : (sampleClient machineID).Lived 2000 := by
  have hnew : (GatewaySession.new "udp://203.0.113.10:42000" true none 1000).Lived 2000 :=
    .new _ _ _ (by decide)
  refine .heartbeat hnew (by decide : (1000 : UInt64) ≤ 2000)
    (?_ : GatewaySession.heartbeat 1000 (sampleHeartbeat machineID) _ = _)
  simp only [GatewaySession.heartbeat, sampleHeartbeat, unit_bind_eq_ok, check_eq_ok]
  exact ⟨rfl, by simp [GatewaySession.new], by simp [GatewaySession.new], rfl⟩

theorem twoClients_reachable {a b : Uuid} (hne : a ≠ b) : (twoClients a b).Reachable := by
  have hb : Gateway.Reachable ⟨2000, [(b, sampleClient b)]⟩ :=
    .insert (.start 2000) (sampleClient_lived b) rfl
  have ha : Gateway.Reachable ⟨2000, (a, sampleClient a) :: [(b, sampleClient b)].filter _⟩ :=
    .insert hb (sampleClient_lived a) rfl
  simpa [twoClients, hne.symm] using ha

/-- Replies of clients that each run one instance, without peers. -/
def oneInstanceEach (instanceID : Uuid → Uuid) : Replies Empty := fun key =>
  ⟨.ok [instanceID key], fun _ => ⟨.ok [], .ok [], .ok none, .ok []⟩⟩

/-- A schedule in which the second client is collected before the first. -/
def secondFirst (a b : Uuid) : List Event :=
  [.advance a, .advance b, .tick 2100, .advance b, .advance b, .advance b, .join b,
    .advance a, .advance a, .tick 2200, .advance a, .join a, .tick 2300]

/-- What is collected from a client of `oneInstanceEach`. -/
def collectedMachine (machineID instanceID : Uuid) (observedAtMS : UInt64) : Machine where
  session :=
    { machineID
      remoteURL := "udp://203.0.113.10:42000"
      hostname := "edge"
      easyTierVersion := "2.6.4"
      reportTime := "2026-07-29T18:00:00+08:00"
      connectedAtMS := 1000
      lastHeartbeatAtMS := 1000
      runningInstanceIDs := some []
      device := none }
  observedAtMS
  instances := some [⟨instanceID, 2100, none, some [], some [], some []⟩]
  errors := some []

/-- The snapshot that `secondFirst` ends with. -/
def twoClientsSnapshot (a b : Uuid) (instanceID : Uuid → Uuid) : Snapshot where
  schemaVersion := "nexustier.topology.v1"
  collectionID := 0x11111111111141118111111111111111
  startedAtMS := 2000
  completedAtMS := 2300
  collectedAtMS := 2300
  machines := some [collectedMachine a (instanceID a) 2200, collectedMachine b (instanceID b) 2100]
  errors := some []

theorem emitted_snapshot_accepted_twoClients :
    (twoClients 1 2).Reachable ∧
      (twoClients 1 2).Emits noPeers sampleCollector (oneInstanceEach (· + 10))
        (twoClientsSnapshot 1 2 (· + 10)) ∧
      (twoClientsSnapshot 1 2 (· + 10)).validate = .ok () := by
  have hreach : (twoClients 1 2).Reachable := twoClients_reachable (by decide)
  have hemits : (twoClients 1 2).Emits noPeers sampleCollector (oneInstanceEach (· + 10))
      (twoClientsSnapshot 1 2 (· + 10)) :=
    ⟨0x11111111111141118111111111111111, 2000, _, secondFirst 1 2, by decide, by decide,
      List.Perm.refl _, by decide +kernel⟩
  refine ⟨hreach, hemits, (emitted_snapshot_accepted hreach hemits (by decide)).1 ?_⟩
  intro key hkey
  have hcases : key = 1 ∨ key = 2 := by simpa [twoClients] using hkey
  rcases hcases with rfl | rfl <;> decide

/-- **A client that calls itself the nil machine has the whole snapshot refused**, the machine of
the other client with it. -/
theorem nil_machine_refused :
    (twoClients Uuid.nil 2).Reachable ∧
      (twoClients Uuid.nil 2).Emits noPeers sampleCollector (oneInstanceEach (· + 10))
        (twoClientsSnapshot Uuid.nil 2 (· + 10)) ∧
      (twoClientsSnapshot Uuid.nil 2 (· + 10)).completedAtMS ≤ maxTimestampMS ∧
      (twoClientsSnapshot Uuid.nil 2 (· + 10)).validate = .error (.nilMachineID 0) :=
  ⟨twoClients_reachable (by decide),
    ⟨0x11111111111141118111111111111111, 2000, _, secondFirst Uuid.nil 2, by decide, by decide,
      List.Perm.refl _, by decide +kernel⟩,
    by decide, by decide⟩

end NexusTier
