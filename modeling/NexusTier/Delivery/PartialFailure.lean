import NexusTier.Gateway.Accepted
import NexusTier.Ingest.Gating

/-!
# A failure is not a disappearance

The gateway and the controller agree on failures through the names of operations, and through the
emptiness of error lists.  A call that fails leaves an error under its name, and `Ingest` opens the
gate for that name (`Ingest.Gating`).  A task that panics or a deadline leaves an error of the
collection; without one, every session of the pool has been collected (`Gateway.Collection`).

`emitted_failure_keeps` puts the two together, for every schedule and every outcome of every call.
It has to say which calls are meant when a client lists an instance twice, and that the gate for
`list_peers` is not one for links: routes that were listed remove a link whether the peers were
listed or not.

## What is here

* `MachineReplies.AllFailed`: what it is for a call to fail, where an instance is listed more than
  once.
* `FailureKeeps`: what failures leave as it was, table by table.
* `emitted_failure_keeps`: they do, for every collection.
* `routes_remove_link_without_peers`: what the gate for `list_peers` does not keep.

## What is left out

Sessions that list each other's instances (`Gateway.Unshared`).  There one client's report changes
what the other one's failure should have kept.
-/

set_option autoImplicit false

namespace NexusTier

open Relational

/-! ## Failed calls and error operations -/

section

variable {PeerInfo : Type} {A : PairAccessors PeerInfo} {now : UInt64} {id : Uuid}
  {r : InstanceReplies PeerInfo}

theorem RpcOutcome.any_failure {α : Type} (result : RpcOutcome α) (operation operation' : String) :
    ((result.failure operation).any fun e => e.operation == operation') =
      (!result.succeeded && operation == operation') := by
  cases result <;> simp [failure, succeeded, value?, TelemetryError.rpc, TelemetryError.timeout]

theorem collectInstance_errors : (collectInstance A now id r).errors =
    some (r.peers.failure "list_peers" ++ r.routes.failure "list_routes" ++
      r.node.failure "show_node_info" ++ r.metrics.failure "get_stats") := by
  simp [collectInstance, rpcValue_eq]

/-- The error for `list_peers` is there exactly when the call failed. -/
theorem hasOperationError_listPeers :
    hasOperationError (collectInstance A now id r).errors "list_peers" = !r.peers.succeeded := by
  simp [hasOperationError, collectInstance_errors, RpcOutcome.any_failure]

/-- The error for `list_routes` is there exactly when the call failed. -/
theorem hasOperationError_listRoutes :
    hasOperationError (collectInstance A now id r).errors "list_routes" = !r.routes.succeeded := by
  simp [hasOperationError, collectInstance_errors, RpcOutcome.any_failure]

/-- Without a reply there is no node. -/
theorem collectInstance_node (h : r.node.succeeded = false) :
    (collectInstance A now id r).node = none := by
  have hnone : r.node.value? = none := by simpa [RpcOutcome.succeeded] using h
  simp [collectInstance, rpcValue_eq, hnone]

/-- The error for `list_network_instances` is there exactly when the call failed. -/
theorem Machine.Gathered.hasOperationError_listed {replies : Replies PeerInfo} {machine : Machine}
    (h : machine.Gathered A replies now) :
    hasOperationError machine.errors "list_network_instances" =
      !(replies machine.session.machineID).instances.succeeded := by
  simp [hasOperationError, h.errors, RpcOutcome.any_failure]

end

/-! ## From the gateway to the store -/

/-- No two sessions of the pool list the same instance. -/
def Gateway.Unshared {PeerInfo : Type} (replies : Replies PeerInfo) (g : Gateway) : Prop :=
  ∀ key ∈ g.pool.map Prod.fst, ∀ key' ∈ g.pool.map Prod.fst,
    ∀ i ∈ (replies key).listed, i ∈ (replies key').listed → key = key'

/-- Every call `call` that a client made about instance `i` failed. -/
def MachineReplies.AllFailed {PeerInfo α : Type} (replies : MachineReplies PeerInfo) (i : Uuid)
    (call : InstanceReplies PeerInfo → RpcOutcome α) : Prop :=
  ∀ j : Nat, replies.listed[j]? = some i → (call (replies.each j)).succeeded = false

/-- What the failures of a collection leave as it was in `db`, when `db'` is the database after
its snapshot. -/
structure FailureKeeps {PeerInfo : Type} (replies : Replies PeerInfo) (g : Gateway) (s : Snapshot)
    (db db' : Db) : Prop where
  /-- No machine of the pool is deactivated. -/
  machines : ∀ key ∈ g.pool.map Prod.fst, db.MachineActive key → db'.MachineActive key
  /-- No instance is deactivated on a machine whose instances could not be listed, or which has
  not been collected. -/
  instances : ∀ key ∈ g.pool.map Prod.fst,
    ((replies key).instances.succeeded = false ∨ key ∉ machineIDs s.machines.elems) →
    ∀ (i : Uuid) row, db.networkInstances[i]? = some row → row.active = true →
      row.value.machineID = key →
      ∃ row', db'.networkInstances[i]? = some row' ∧ row'.active = true
  /-- No link is removed of an instance whose routes could not be listed. -/
  links : ∀ key ∈ g.pool.map Prod.fst, ∀ i ∈ (replies key).listed,
    (replies key).AllFailed i InstanceReplies.routes →
    ∀ destination : Int, db.peerLinks[(⟨i, destination⟩ : LinkKey)]?.isSome = true →
      db'.peerLinks[(⟨i, destination⟩ : LinkKey)]?.isSome = true
  /-- The links that remain of an instance whose peers could not be listed keep what was measured
  of them, if the client listed the instance once. -/
  measured : ∀ key ∈ g.pool.map Prod.fst, ∀ i, (replies key).listed.count i = 1 →
    (replies key).AllFailed i InstanceReplies.peers →
    ∀ (destination : Int) row row', db.peerLinks[(⟨i, destination⟩ : LinkKey)]? = some row →
      db'.peerLinks[(⟨i, destination⟩ : LinkKey)]? = some row' →
      row'.value.measured = row.value.measured
  /-- The node stays of an instance whose node could not be read. -/
  nodes : ∀ key ∈ g.pool.map Prod.fst, ∀ i ∈ (replies key).listed,
    (replies key).AllFailed i InstanceReplies.node → db'.nodes[i]? = db.nodes[i]?

theorem FailureKeeps.of_eq {PeerInfo : Type} {replies : Replies PeerInfo} {g : Gateway}
    {s : Snapshot} {db db' : Db} (hm : db'.machines = db.machines)
    (hi : db'.networkInstances = db.networkInstances) (hn : db'.nodes = db.nodes)
    (hl : db'.peerLinks = db.peerLinks) : FailureKeeps replies g s db db' where
  machines key _ h := by rwa [Db.MachineActive, hm]
  instances key _ _ i row hrow ha _ := ⟨row, by rw [hi, hrow], ha⟩
  links key _ i _ _ d h := by rwa [hl]
  measured key _ i _ _ d row row' hrow hrow' := by
    rw [hl, hrow] at hrow'
    rw [Option.some.inj hrow']
  nodes key _ i _ _ := by rw [hn]

section

variable {PeerInfo : Type} {A : PairAccessors PeerInfo} {C : TelemetryCollector}
  {replies : Replies PeerInfo} {g : Gateway} {s : Snapshot}

/-- The entries about an instance that `key` lists are the replies of `key`. -/
theorem Snapshot.Collected.entry_from (hc : s.Collected A replies (g.pool.map Prod.fst))
    (hu : g.Unshared replies) {key i : Uuid} (hkey : key ∈ g.pool.map Prod.fst)
    (hi : i ∈ (replies key).listed) {inst : Instance} (hinst : inst ∈ s.instances)
    (hid : inst.instanceID = i) :
    ∃ j t, (replies key).listed[j]? = some i ∧
      inst = collectInstance A t i ((replies key).each j) := by
  obtain ⟨m, hm, hinst⟩ := Snapshot.mem_instances.1 hinst
  obtain ⟨j, t, _, hj, heq⟩ := (hc.gathered m hm).instance_from hinst
  rw [hid] at hj heq
  have hmem : i ∈ (replies m.session.machineID).listed := List.mem_of_getElem? hj
  obtain rfl := hu key hkey _ (hc.mem_keys m hm) i hi hmem
  exact ⟨j, t, hj, heq⟩

/-- An instance that `key` lists once has at most one entry in the snapshot. -/
theorem Snapshot.Collected.count_le (hc : s.Collected A replies (g.pool.map Prod.fst))
    (hu : g.Unshared replies) {key i : Uuid} (hkey : key ∈ g.pool.map Prod.fst)
    (honce : (replies key).listed.count i = 1) :
    (s.instances.map Instance.instanceID).count i ≤ 1 := by
  have hi : i ∈ (replies key).listed := List.count_pos_iff.1 (by omega)
  -- each machine brings what its client listed, and no other one listed `i`
  have hmachine : ∀ m ∈ s.machines.elems,
      (m.instances.elems.map Instance.instanceID).count i =
        if m.session.machineID = key then 1 else 0 := by
    intro m hm
    rw [(hc.gathered m hm).instanceIDs_perm.count_eq]
    split
    · rename_i heq
      rw [heq, honce]
    · rename_i hne
      exact List.count_eq_zero.2 fun hmem => hne (hu key hkey _ (hc.mem_keys m hm) i hi hmem).symm
  have hnodup := hc.nodup
  rw [Snapshot.instances]
  generalize s.machines.elems = machines at hmachine hnodup
  have hcount : ((machines.flatMap fun m => m.instances.elems).map Instance.instanceID).count i =
      (machines.map fun m => m.session.machineID).count key := by
    clear hnodup
    induction machines with
    | nil => rfl
    | cons m machines ih =>
      rw [List.flatMap_cons, List.map_append, List.count_append, hmachine m (by simp),
        ih fun m' hm' => hmachine m' (List.mem_cons_of_mem _ hm'), List.map_cons, List.count_cons]
      simp [Nat.add_comm]
  rw [hcount]
  exact List.nodup_iff_count_le_one.1 hnodup key

/-- **A failure is not a disappearance.**  However a collection goes, the ingestion of its snapshot
leaves alone what the collection could not see. -/
theorem emitted_failure_keeps (hg : g.Reachable) (h : g.Emits A C replies s)
    (hu : g.Unshared replies) (E : Encoding) (now : Timestamp) (db : Db) :
    FailureKeeps replies g s db ((Op.ingest now s).exec E db) := by
  have hc := h.collected hg
  obtain ⟨now', s', _, _, hop, _, he⟩ | ⟨_, hm, hi, hn, hl⟩ :=
    (Op.ingest now s).accepted_cases E db
  · obtain ⟨rfl, rfl⟩ := Op.ingest.inj hop
    rw [he]
    have hlists : ∀ key ∈ g.pool.map Prod.fst, s.errors.elems = [] → s.Lists key := by
      intro key hkey herr
      obtain ⟨m, hm, rfl⟩ := hc.complete herr key hkey
      exact List.mem_map_of_mem hm
    refine ⟨fun key hkey => machineActive_of_gated (hlists key hkey), ?_, ?_, ?_, ?_⟩
    · intro key hkey hfail i row hrow ha hid
      refine instanceActive_of_gated hc.nodup (hlists key hkey) (fun m hm hmid => ?_) hrow ha hid
      rcases hfail with hfail | hnot
      · rw [(hc.gathered m hm).hasOperationError_listed, hmid, hfail]
        rfl
      · exact absurd (hmid ▸ List.mem_map_of_mem hm) hnot
    · intro key hkey i hi hfail destination
      refine link_of_gated fun inst hinst hid => ?_
      obtain ⟨j, t, hj, rfl⟩ := hc.entry_from hu hkey hi hinst hid
      rw [hasOperationError_listRoutes, hfail j hj]
      rfl
    · intro key hkey i honce hfail destination row row'
      have hi : i ∈ (replies key).listed := List.count_pos_iff.1 (by omega)
      refine measured_of_gated (hc.count_le hu hkey honce) fun inst hinst hid => ?_
      obtain ⟨j, t, hj, rfl⟩ := hc.entry_from hu hkey hi hinst hid
      rw [hasOperationError_listPeers, hfail j hj]
      rfl
    · intro key hkey i hi hfail
      refine node_of_gated fun inst hinst hid => ?_
      obtain ⟨j, t, hj, rfl⟩ := hc.entry_from hu hkey hi hinst hid
      exact collectInstance_node (hfail j hj)
  · exact .of_eq hm hi hn hl

end

/-! ## Routes without their peers -/

/-- Each client is collected in turn. -/
def inTurn (a b : Uuid) : List Event :=
  .tick 2100 :: List.replicate 6 (.advance a) ++ [.join a] ++ List.replicate 6 (.advance b) ++
    [.join b, .tick 2300]

/-- A direct route to peer 7. -/
def directRoute : Route where
  peerID := 7
  ipv4Addr := some "10.144.0.2"
  hostname := "edge-2"
  nextHopPeerID := 7
  cost := 1
  pathLatency := 0
  version := "2.6.4"

/-- Client `a1` lists `instances`, whose peers it is asked for in vain; the routes at each position
are `routes`.  Client `a2` runs nothing. -/
def peersUnknown (instances : List Uuid) (routes : Nat → List Route) : Replies Empty := fun key =>
  if key = 0xa1 then
    ⟨.ok instances, fun j => ⟨.timeout, .ok (routes j), .ok none, .ok []⟩⟩
  else ⟨.ok [], fun _ => ⟨.ok [], .ok [], .ok none, .ok []⟩⟩

/-- An entry collected from `a1`. -/
def peersUnknownEntry (routes : List Route) : Instance :=
  ⟨0xb1, 2100, none, some (routes.map fun route => peerView noPeers route none), some [],
    some [.timeout "list_peers"]⟩

/-- The snapshot collected from the two. -/
def peersUnknownSnapshot (entries : List Instance) : Snapshot :=
  { twoClientsSnapshot 0xa1 0xa2 id with
    machines := some [{ collectedMachine 0xa1 0 2100 with instances := some entries },
      { collectedMachine 0xa2 0 2100 with instances := some [] }] }

/-- The route to peer 7 is still there. -/
def routeKept : Snapshot := peersUnknownSnapshot [peersUnknownEntry [directRoute]]

/-- The route to peer 7 is gone. -/
def routeGone : Snapshot := peersUnknownSnapshot [peersUnknownEntry []]

/-- Instance `b1` is listed twice: its first entry is without the route, its second has it. -/
def listedTwice : Snapshot :=
  peersUnknownSnapshot [peersUnknownEntry [], peersUnknownEntry [directRoute]]

def failureEncoding : Encoding :=
  .recorded
    [(sampleReport.payload,
        .ofFin 0x9a34ab897a0b42ca4ce4417db93346b710953fbd6b5bad8b4c0cdfae90045624),
      (routeKept.payload,
        .ofFin 0x8c9c391173475bd50d93e0ddde75d33eb1d3fb64b6ab709eaa1783575d122c9e),
      (routeGone.payload,
        .ofFin 0x6996bbeb953e940649def43a11fc8055771f549ecfc96090a16fc4dde427a437),
      (listedTwice.payload,
        .ofFin 0x3f64cebdb49ded454171d5c65f3adc80037e031e85689e559a0e1285cdaa534b)]

/-- The database that knows instance `b1` of machine `a1`, and its link to peer 7. -/
def linkedDb : Db := execAll failureEncoding [.ingest 5000000 sampleReport] Db.empty

theorem peersUnknown_unshared (instances : List Uuid) (routes : Nat → List Route) :
    (twoClients 0xa1 0xa2).Unshared (peersUnknown instances routes) := by
  have hlisted : ∀ key i, i ∈ (peersUnknown instances routes key).listed → key = 0xa1 := by
    intro key i hi
    by_contra hne
    simp [peersUnknown, hne, MachineReplies.listed, RpcOutcome.value?] at hi
  intro key _ key' _ i hi hi'
  rw [hlisted key i hi, hlisted key' i hi']

theorem emitted_failure_keeps_routeKept :
    linkedDb.peerLinks[(⟨0xb1, 7⟩ : LinkKey)]?.isSome = true ∧
      (twoClients 0xa1 0xa2).Emits noPeers sampleCollector
        (peersUnknown [0xb1] fun _ => [directRoute]) routeKept ∧
      FailureKeeps (peersUnknown [0xb1] fun _ => [directRoute]) (twoClients 0xa1 0xa2) routeKept
        linkedDb ((Op.ingest 6000000 routeKept).exec failureEncoding linkedDb) := by
  have hemits : (twoClients 0xa1 0xa2).Emits noPeers sampleCollector
      (peersUnknown [0xb1] fun _ => [directRoute]) routeKept :=
    ⟨0x11111111111141118111111111111111, 2000, _, inTurn 0xa1 0xa2, by decide, by decide,
      List.Perm.refl _, by decide +kernel⟩
  exact ⟨by decide +kernel, hemits, emitted_failure_keeps (twoClients_reachable (by decide)) hemits
    (peersUnknown_unshared _ _) _ _ _⟩

/-- What is measured of the link from `b1` to peer 7. -/
def measuredLink (db : Db) : Option (Option ℚ × Option Nat × Option Nat × List String) :=
  db.peerLinks[(⟨0xb1, 7⟩ : LinkKey)]?.map fun row => row.value.measured

/-- **Failed `list_peer` calls do not keep every link as it was.**  Routes that were listed remove
the link, and if the client lists the instance twice, a second entry brings it back without what
had been measured. -/
theorem routes_remove_link_without_peers :
    Reachable failureEncoding linkedDb ∧ (twoClients 0xa1 0xa2).Reachable ∧
      measuredLink linkedDb = some (some 0, some 18446744073709551615, some 1024, ["tcp"]) ∧
      ((twoClients 0xa1 0xa2).Unshared (peersUnknown [0xb1] fun _ => []) ∧
        (twoClients 0xa1 0xa2).Emits noPeers sampleCollector (peersUnknown [0xb1] fun _ => [])
          routeGone ∧
        (peersUnknown [0xb1] (fun _ => []) 0xa1).AllFailed 0xb1 InstanceReplies.peers ∧
        measuredLink ((Op.ingest 6000000 routeGone).exec failureEncoding linkedDb) = none) ∧
      ((twoClients 0xa1 0xa2).Unshared
          (peersUnknown [0xb1, 0xb1] fun j => if j = 0 then [] else [directRoute]) ∧
        (twoClients 0xa1 0xa2).Emits noPeers sampleCollector
          (peersUnknown [0xb1, 0xb1] fun j => if j = 0 then [] else [directRoute]) listedTwice ∧
        (peersUnknown [0xb1, 0xb1] (fun j => if j = 0 then [] else [directRoute]) 0xa1).AllFailed
          0xb1 InstanceReplies.peers ∧
        measuredLink ((Op.ingest 6000000 listedTwice).exec failureEncoding linkedDb) =
          some (none, none, none, [])) := by
  have hfailed : ∀ instances routes,
      (peersUnknown instances routes 0xa1).AllFailed 0xb1 InstanceReplies.peers :=
    fun _ _ _ _ => rfl
  refine ⟨⟨_, rfl⟩, twoClients_reachable (by decide), by decide +kernel,
    ⟨peersUnknown_unshared _ _, ?_, hfailed _ _, by decide +kernel⟩,
    ⟨peersUnknown_unshared _ _, ?_, hfailed _ _, by decide +kernel⟩⟩
  · exact ⟨0x11111111111141118111111111111111, 2000, _, inTurn 0xa1 0xa2, by decide, by decide,
      List.Perm.refl _, by decide +kernel⟩
  · exact ⟨0x11111111111141118111111111111111, 2000, _, inTurn 0xa1 0xa2, by decide, by decide,
      List.Perm.refl _, by decide +kernel⟩

end NexusTier
