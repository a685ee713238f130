import NexusTier.Gateway.Telemetry
import NexusTier.Relational.Keyed

/-!
# Peers and routes

`join_peers_and_routes` takes the peer of a route out of a map while it goes over the routes, and
sorts the views in the end.  Where no two routes have the same peer id, no route misses a peer that
another has taken (`peerViews_eq`), so a view depends on its route and on all of `list_peer`, and
not on the order of the routes (`join_exact`).

## What is here

* `JoinedFrom`: what the view of a route has from the route, and from the peer with its id.
* `peerViews_eq`: the loop as a map over the routes, where ids are different.
* `PairAccessors.Unmeasured`: what is relied on about EasyTier, that it measures nothing without a
  connection.
* `join_exact`: every view, for all routes with different ids and all lists of peers; and where no
  peer repeats either, the order of both lists does not matter.

## What is left out

How EasyTier measures a connection: its accessors are parameters.
-/

set_option autoImplicit false

namespace NexusTier

open Relational

instance uint32LinearOrder : LinearOrder UInt32 where
  le_refl _ := UInt32.le_refl _
  le_trans _ _ _ := UInt32.le_trans
  le_antisymm _ _ := UInt32.le_antisymm
  le_total := UInt32.le_total
  lt_iff_le_not_ge a b := by
    rw [UInt32.not_le]
    exact ⟨fun h => ⟨UInt32.le_of_lt h, h⟩, fun h => h.2⟩
  toDecidableLE := inferInstance

section

variable {PeerInfo : Type} (A : PairAccessors PeerInfo) (peers : List PeerInfo)

/-- The peer with this id: where it is listed twice, the last one. -/
def lastPeer (id : UInt32) : Option PeerInfo :=
  (peers.filter fun peer => A.peerID peer = id).getLast?

/-- What a view says of its route, and of the peer with the same id. -/
structure JoinedFrom (route : Route) (view : Peer) : Prop where
  peerID : view.peerID = route.peerID
  lossRate : view.lossRate = A.getLossRate route (lastPeer A peers route.peerID)
  rxBytes : view.rxBytes = A.getRxBytes route (lastPeer A peers route.peerID)
  txBytes : view.txBytes = A.getTxBytes route (lastPeer A peers route.peerID)
  tunnelProtocols : view.tunnelProtocols =
    some ((A.getConnProtos route (lastPeer A peers route.peerID)).getD [])
  direct : view.direct = true ↔ route.cost = 1
  latency_direct : route.cost = 1 →
    view.latencyMS = A.getLatencyMS route (lastPeer A peers route.peerID)
  latency_relayed : route.cost ≠ 1 → view.latencyMS = some (route.pathLatency.toInt : ℚ)

/-- EasyTier measures nothing without a connection. -/
structure PairAccessors.Unmeasured : Prop where
  latencyMS : ∀ route, A.getLatencyMS route none = none
  lossRate : ∀ route, A.getLossRate route none = none
  rxBytes : ∀ route, A.getRxBytes route none = none
  txBytes : ∀ route, A.getTxBytes route none = none
  connProtos : ∀ route, A.getConnProtos route none = none

/-- The view shows no connection. -/
structure Peer.Unconnected (view : Peer) : Prop where
  latencyMS : view.direct = true → view.latencyMS = none
  lossRate : view.lossRate = none
  rxBytes : view.rxBytes = none
  txBytes : view.txBytes = none
  tunnelProtocols : view.tunnelProtocols = some []

end

variable {PeerInfo : Type} {A : PairAccessors PeerInfo} {peers peers' : List PeerInfo}
  {routes routes' : List Route} {route : Route} {view : Peer} {id : UInt32}

theorem lastPeer_eq_none_iff :
    lastPeer A peers id = none ↔ ∀ peer ∈ peers, A.peerID peer ≠ id := by
  simp [lastPeer]

/-- Peers with different ids may be listed in any order. -/
theorem lastPeer_of_perm (hnd : (peers.map A.peerID).Nodup) (h : peers'.Perm peers) :
    lastPeer A peers' id = lastPeer A peers id := by
  have hone : (peers.filter fun peer => A.peerID peer = id).length ≤ 1 := by
    have hsub : (peers.filter fun peer => A.peerID peer = id).map A.peerID ⊆ [id] := by
      intro k hk
      obtain ⟨peer, hpeer, rfl⟩ := List.mem_map.1 hk
      exact List.mem_singleton.2 (by simpa using (List.mem_filter.1 hpeer).2)
    have hlength := ((hnd.sublist (List.filter_sublist.map _)).subperm hsub).length_le
    rwa [List.length_map] at hlength
  have hsame := h.filter fun peer => A.peerID peer = id
  rw [lastPeer, lastPeer]
  cases hl : peers.filter fun peer => A.peerID peer = id with
  | nil =>
    rw [hl] at hsame
    rw [hsame.eq_nil]
  | cons peer rest =>
    rw [hl] at hsame hone
    obtain rfl : rest = [] := by simpa using hone
    rw [hsame.eq_singleton]

theorem joinedFrom_peerView :
    JoinedFrom A peers route (peerView A route (lastPeer A peers route.peerID)) := by
  refine ⟨rfl, rfl, rfl, rfl, rfl, by simp [peerView], fun h => ?_, fun h => ?_⟩
  · rw [peerView, if_pos h]
  · rw [peerView, if_neg h]

theorem JoinedFrom.unconnected (hA : A.Unmeasured) (h : JoinedFrom A peers route view)
    (hnone : ∀ peer ∈ peers, A.peerID peer ≠ route.peerID) : view.Unconnected := by
  rw [← lastPeer_eq_none_iff] at hnone
  constructor
  · intro hdirect
    rw [h.latency_direct (h.direct.1 hdirect), hnone, hA.latencyMS]
  · rw [h.lossRate, hnone, hA.lossRate]
  · rw [h.rxBytes, hnone, hA.rxBytes]
  · rw [h.txBytes, hnone, hA.txBytes]
  · rw [h.tunnelProtocols, hnone, hA.connProtos, Option.getD_none]

/-! ## The loop and the sort -/

/-- A peer that is taken out of the map is not looked for again. -/
theorem peerViews_eq (hnd : (routes.map Route.peerID).Nodup) (t : Table UInt32 PeerInfo) :
    peerViews A t routes = routes.map fun route => peerView A route t[route.peerID]? := by
  induction routes generalizing t with
  | nil => rfl
  | cons route routes ih =>
    rw [List.map_cons, List.nodup_cons] at hnd
    rw [peerViews, ih hnd.2, List.map_cons, List.cons.injEq]
    refine ⟨rfl, List.map_congr_left fun route' hroute' => ?_⟩
    have hne : route.peerID ≠ route'.peerID := by
      intro h
      exact hnd.1 (h ▸ List.mem_map_of_mem hroute')
    rw [Std.ExtTreeMap.getElem?_erase, if_neg (by simpa using hne)]

theorem joinPeersAndRoutes_eq (hnd : (routes.map Route.peerID).Nodup) :
    joinPeersAndRoutes A peers routes =
      (routes.map fun route => peerView A route (lastPeer A peers route.peerID)).insertionSort
        fun p q => p.peerID ≤ q.peerID := by
  rw [joinPeersAndRoutes, peerViews_eq hnd]
  simp only [Table.getElem?_insertEach]
  simp [lastPeer]

theorem nodup_peerViews (hnd : (routes.map Route.peerID).Nodup) :
    ((routes.map fun route => peerView A route (lastPeer A peers route.peerID)).map
      Peer.peerID).Nodup := by
  rw [List.map_map]
  exact hnd

/-- **The join is exact, and does not depend on the order.** -/
theorem join_exact {PeerInfo : Type} (A : PairAccessors PeerInfo) (peers : List PeerInfo)
    {routes : List Route} (hnd : (routes.map Route.peerID).Nodup) :
    (joinPeersAndRoutes A peers routes).Pairwise (fun p q => p.peerID < q.peerID) ∧
    (∃ ordered : List Route, ordered.Perm routes ∧
      List.Forall₂ (JoinedFrom A peers) ordered (joinPeersAndRoutes A peers routes)) ∧
    (A.Unmeasured → ∀ view ∈ joinPeersAndRoutes A peers routes,
      (∀ peer ∈ peers, A.peerID peer ≠ view.peerID) → view.Unconnected) ∧
    (∀ routes', routes'.Perm routes →
      joinPeersAndRoutes A peers routes' = joinPeersAndRoutes A peers routes) ∧
    ∀ peers', (peers.map A.peerID).Nodup → peers'.Perm peers →
      joinPeersAndRoutes A peers' routes = joinPeersAndRoutes A peers routes := by
  have hsort : (joinPeersAndRoutes A peers routes).Perm
      (routes.map fun route => peerView A route (lastPeer A peers route.peerID)) := by
    rw [joinPeersAndRoutes_eq hnd]
    exact List.perm_insertionSort _ _
  refine ⟨?_, ?_, fun hA view hview hnone => ?_, fun routes' h => ?_, fun peers' hpeers h => ?_⟩
  · rw [joinPeersAndRoutes_eq hnd]
    exact insertionSort_ascending (nodup_peerViews hnd)
  · obtain ⟨ordered, hordered, heq⟩ := exists_perm_map hsort
    refine ⟨ordered, hordered, ?_⟩
    rw [heq, List.forall₂_map_right_iff]
    exact List.forall₂_same.2 fun route _ => joinedFrom_peerView
  · obtain ⟨route, -, rfl⟩ := List.mem_map.1 (hsort.mem_iff.1 hview)
    exact joinedFrom_peerView.unconnected hA hnone
  · rw [joinPeersAndRoutes_eq hnd, joinPeersAndRoutes_eq ((h.map _).nodup_iff.2 hnd)]
    exact insertionSort_eq_of_perm (nodup_peerViews hnd) (h.map _)
  · rw [joinPeersAndRoutes_eq hnd, joinPeersAndRoutes_eq hnd]
    simp only [lastPeer_of_perm hpeers h]

/-! ## Two routes and a peer that is listed twice -/

/-- A peer with an id and the bytes it has received. -/
def countedPeers : PairAccessors (UInt32 × UInt64) where
  peerID := Prod.fst
  getLatencyMS _ _ := none
  getLossRate _ _ := none
  getRxBytes _ peer := peer.map Prod.snd
  getTxBytes _ _ := none
  getConnProtos _ _ := none

def sampleRoute (peerID : UInt32) (cost : Int32) : Route :=
  ⟨peerID, none, "", peerID, cost, 42, ""⟩

theorem join_exact_repeated :
    (joinPeersAndRoutes countedPeers [(7, 1), (7, 2)] [sampleRoute 9 2, sampleRoute 7 1]).map
        (fun view => (view.peerID, view.rxBytes, view.latencyMS)) =
      [(7, some 2, none), (9, none, some 42)] ∧
    joinPeersAndRoutes countedPeers [(7, 1), (7, 2)] [sampleRoute 7 1, sampleRoute 9 2] =
      joinPeersAndRoutes countedPeers [(7, 1), (7, 2)] [sampleRoute 9 2, sampleRoute 7 1] := by
  obtain ⟨-, -, -, hroutes, -⟩ := @join_exact _ countedPeers [(7, 1), (7, 2)]
    [sampleRoute 9 2, sampleRoute 7 1] (by decide)
  exact ⟨by decide +kernel, hroutes _ (List.Perm.swap _ _ _)⟩

end NexusTier
