import NexusTier.Api.Topology
import NexusTier.Relational.Keyed

/-!
# The graph of the console

`buildGraph` of `TopologyGraph.jsx` makes a node of the first machine with each id and of the first
peer with each pair of ids, under a key that is text.  What is selected is such a key, and
`resolveSelection` of `utils.js` looks for it in the machines again, after cutting it at the colons.

Both go over the same things in the same order (`visits`): the graph keeps the first visit with each
key (`buildGraph_eq`), and the selection is the first visit with its key
(`resolveSelection_visit`).  So a node leads back to the record it is made of (`graph_resolves`), as
long as no id has a colon in it; and the ids of a topology have none (`colonFree_console`).

## What is here

* `buildGraph` and `resolveSelection`, over any records of machines, instances and peers.
* `Visit`: what both go over, with the key it has and the selection it stands for.
* `buildGraph_eq` and `resolveSelection_eq`: both as statements about visits.
* `ColonFree` and `graph_resolves`: if no id has a colon, then nodes have different keys, each peer
  has its edge, and every node selects the record it is made of.
* `colonFree_console`: the ids that the controller sends.

## What is left out

Where the nodes are: positions and velocities are random at first and then simulated in floats.
Colours, texts and the details panel only show what the records say.
-/

set_option autoImplicit false

open Encoding

namespace NexusTier

open Relational

namespace Webui

/-! ## Texts -/

/-- A string of JavaScript: its UTF-16 code units. -/
abbrev JsString := List UInt16

def utf16 (c : Char) : JsString :=
  if c.toNat < 0x10000 then [UInt16.ofNat c.toNat]
  else
    [UInt16.ofNat (0xD800 + (c.toNat - 0x10000) / 0x400),
      UInt16.ofNat (0xDC00 + (c.toNat - 0x10000) % 0x400)]

def js (text : String) : JsString := text.toList.flatMap utf16

def colon : UInt16 := 58

/-- `shortID`. -/
def shortID (id : JsString) : JsString := if id = [] then js "—" else id.take 8

/-- `text || fallback`, for a text that may be missing. -/
def orElse (text : Option JsString) (fallback : JsString) : JsString :=
  match text with
  | none => fallback
  | some text => if text = [] then fallback else text

/-! ## Records -/

/-- What the console reads of machines, instances and peers.  A list that is missing reads as an
empty one, and of the id of a peer, which is a number, only the text is used. -/
structure Records (M I P : Type) where
  machineID : M → JsString
  active : M → Bool
  machineHostname : M → Option JsString
  networkInstances : M → List I
  instanceID : I → JsString
  peers : I → List P
  peerID : P → JsString
  peerHostname : P → Option JsString
  ipv4 : P → Option JsString
  latencyMS : P → Option ℚ
  direct : P → Bool

inductive NodeType where
  | machine
  | peer
deriving DecidableEq

/-- A node, without its place on the screen.  Only a machine has `active`, and only a peer may have
a latency. -/
structure GraphNode (M P : Type) where
  key : JsString
  type : NodeType
  active : Option Bool
  label : JsString
  sub : JsString
  latency : Option ℚ
  /-- The record it is made of, which the code does not keep. -/
  record : M ⊕ P

structure GraphEdge where
  key : JsString
  source : JsString
  target : JsString
  direct : Bool
  latency : Option ℚ
deriving DecidableEq

/-- What is selected, with the instance and the machine of a peer. -/
structure Selection (M I P : Type) where
  key : JsString
  type : NodeType
  data : M ⊕ P
  instance? : Option I
  machine? : Option M

section

variable {M I P : Type} (R : Records M I P)

/-! ## `buildGraph` -/

def machineKey (machine : M) : JsString := js "m:" ++ R.machineID machine

def peerKey (inst : I) (peer : P) : JsString :=
  js "p:" ++ R.instanceID inst ++ js ":" ++ R.peerID peer

def machineNode (machine : M) : GraphNode M P where
  key := machineKey R machine
  type := .machine
  active := some (R.active machine)
  label := orElse (R.machineHostname machine) (shortID (R.machineID machine))
  sub := shortID (R.machineID machine)
  latency := none
  record := .inl machine

def peerNode (inst : I) (peer : P) : GraphNode M P where
  key := peerKey R inst peer
  type := .peer
  active := none
  label := orElse (R.peerHostname peer) (js "Peer " ++ R.peerID peer)
  sub := orElse (R.ipv4 peer) (js "#" ++ R.peerID peer)
  latency := R.latencyMS peer
  record := .inr peer

def peerEdge (machine : M) (inst : I) (peer : P) : GraphEdge where
  key := js "e:" ++ peerKey R inst peer
  source := machineKey R machine
  target := peerKey R inst peer
  direct := R.direct peer
  latency := R.latencyMS peer

/-- The lists that `buildGraph` fills, and the keys it has seen. -/
structure Graph (M P : Type) where
  nodes : List (GraphNode M P)
  edges : List GraphEdge
  seen : List JsString

/-- A machine, if its key is new. -/
def addMachine (g : Graph M P) (machine : M) : Graph M P :=
  if machineKey R machine ∈ g.seen then g
  else
    { g with
      nodes := g.nodes ++ [machineNode R machine]
      seen := machineKey R machine :: g.seen }

/-- A peer, if its key is new. -/
def addPeer (machine : M) (inst : I) (g : Graph M P) (peer : P) :
    Graph M P :=
  if peerKey R inst peer ∈ g.seen then g
  else
    { nodes := g.nodes ++ [peerNode R inst peer]
      edges := g.edges ++ [peerEdge R machine inst peer]
      seen := peerKey R inst peer :: g.seen }

def buildGraph (machines : List M) : Graph M P :=
  machines.foldl (fun g machine =>
    (R.networkInstances machine).foldl
      (fun g inst => (R.peers inst).foldl (addPeer R machine inst) g) (addMachine R g machine))
    ⟨[], [], []⟩

/-! ## `resolveSelection` -/

def resolveSelection (key : JsString) (machines : List M) :
    Option (Selection M I P) :=
  if key = [] then none
  else
    let parts := key.splitOn colon
    if parts[0]? = some (js "m") then
      (machines.find? fun machine => parts[1]? = some (R.machineID machine)).map fun machine =>
        ⟨key, .machine, .inl machine, none, none⟩
    else if parts[0]? = some (js "p") then
      machines.findSome? fun machine => (R.networkInstances machine).findSome? fun inst =>
        if parts[1]? ≠ some (R.instanceID inst) then none
        else
          ((R.peers inst).find? fun peer => parts[2]? = some (R.peerID peer)).map fun peer =>
            ⟨key, .peer, .inr peer, some inst, some machine⟩
    else none

/-! ## What both go over -/

/-- A machine, or a peer in its instance and machine. -/
inductive Visit (M I P : Type) where
  | machine (machine : M)
  | peer (machine : M) (inst : I) (peer : P)

/-- All machines, each with its peers. -/
def visits (machines : List M) : List (Visit M I P) :=
  machines.flatMap fun machine => .machine machine ::
    (R.networkInstances machine).flatMap fun inst => (R.peers inst).map (.peer machine inst)

namespace Visit

def key : Visit M I P → JsString
  | machine m => machineKey R m
  | peer _ inst p => peerKey R inst p

def node : Visit M I P → GraphNode M P
  | machine m => machineNode R m
  | peer _ inst p => peerNode R inst p

def edge? : Visit M I P → Option GraphEdge
  | machine _ => none
  | peer m inst p => some (peerEdge R m inst p)

/-- Where a visit is what a key selects. -/
def selection (key : JsString) : Visit M I P → Selection M I P
  | machine m => ⟨key, .machine, .inl m, none, none⟩
  | peer m inst p => ⟨key, .peer, .inr p, some inst, some m⟩

/-- The parts of the key. -/
def parts : Visit M I P → List JsString
  | machine m => [js "m", R.machineID m]
  | peer _ inst p => [js "p", R.instanceID inst, R.peerID p]

/-- Is this what `resolveSelection` looks for? -/
def fits (parts : List JsString) : Visit M I P → Bool
  | machine m => parts[0]? = some (js "m") ∧ parts[1]? = some (R.machineID m)
  | peer _ inst p => parts[0]? = some (js "p") ∧ parts[1]? = some (R.instanceID inst) ∧
    parts[2]? = some (R.peerID p)

/-- One round of the loops. -/
def add (g : Graph M P) : Visit M I P → Graph M P
  | machine m => addMachine R g m
  | peer m inst p => addPeer R m inst g p

end Visit

/-- No id has a colon in it. -/
structure ColonFree (machines : List M) : Prop where
  machineID : ∀ machine ∈ machines, colon ∉ R.machineID machine
  instanceID : ∀ machine ∈ machines, ∀ inst ∈ R.networkInstances machine,
    colon ∉ R.instanceID inst
  peerID : ∀ machine ∈ machines, ∀ inst ∈ R.networkInstances machine, ∀ peer ∈ R.peers inst,
    colon ∉ R.peerID peer

end

variable {M I P : Type} {R : Records M I P} {machines : List M} {v w : Visit M I P}

/-! ### The graph -/

theorem foldl_add (l : List (Visit M I P)) (g : Graph M P) :
    (l.foldl (Visit.add R) g).nodes =
        g.nodes ++ (firstSeen (Visit.key R) g.seen l).map (Visit.node R) ∧
      (l.foldl (Visit.add R) g).edges =
        g.edges ++ (firstSeen (Visit.key R) g.seen l).filterMap (Visit.edge? R) := by
  induction l generalizing g with
  | nil => simp [firstSeen]
  | cons v l ih =>
    rw [List.foldl_cons, (ih _).1, (ih _).2, firstSeen]
    cases v with
    | machine m =>
      by_cases h : machineKey R m ∈ g.seen
      · simp [Visit.add, addMachine, Visit.key, h]
      · simp [Visit.add, addMachine, Visit.key, Visit.node, Visit.edge?, h, List.filterMap_cons]
    | peer m inst p =>
      by_cases h : peerKey R inst p ∈ g.seen
      · simp [Visit.add, addPeer, Visit.key, h]
      · simp [Visit.add, addPeer, Visit.key, Visit.node, Visit.edge?, h]

/-- **The graph keeps the first visit with each key.** -/
theorem buildGraph_eq :
    (buildGraph R machines).nodes =
        (firstSeen (Visit.key R) [] (visits R machines)).map (Visit.node R) ∧
      (buildGraph R machines).edges =
        (firstSeen (Visit.key R) [] (visits R machines)).filterMap (Visit.edge? R) := by
  have hfold : buildGraph R machines = (visits R machines).foldl (Visit.add R) ⟨[], [], []⟩ := by
    simp only [buildGraph, visits, List.foldl_flatMap, List.foldl_cons, List.foldl_map]
    rfl
  rw [hfold, (foldl_add _ _).1, (foldl_add _ _).2]
  simp

/-! ### The selection -/

/-- **The selection is the first visit that fits the parts of its key.** -/
theorem resolveSelection_eq {key : JsString} (hkey : key ≠ []) :
    resolveSelection R key machines =
      ((visits R machines).find? (Visit.fits R (key.splitOn colon))).map (Visit.selection key) := by
  rw [resolveSelection, if_neg hkey, visits, List.find?_flatMap, List.map_findSome?]
  simp only
  generalize key.splitOn colon = parts
  have hne : js "m" ≠ js "p" := by decide
  by_cases hm : parts[0]? = some (js "m")
  · rw [if_pos hm, List.find?_eq_findSome?_guard, List.map_findSome?]
    refine congrArg (fun f => machines.findSome? f) (funext fun machine => ?_)
    have hpeers : ((R.networkInstances machine).flatMap fun inst =>
        (R.peers inst).map (Visit.peer machine inst)).find? (Visit.fits R parts) = none := by
      rw [List.find?_eq_none]
      intro w hw
      obtain ⟨inst, -, hw⟩ := List.mem_flatMap.1 hw
      obtain ⟨peer, -, rfl⟩ := List.mem_map.1 hw
      simp [Visit.fits, hm, hne]
    simp only [Function.comp_apply]
    rw [List.find?_cons, hpeers]
    by_cases hid : parts[1]? = some (R.machineID machine)
    · simp [Visit.fits, Visit.selection, Option.guard, hm, hid]
    · simp [Visit.fits, Option.guard, hm, hid]
  · rw [if_neg hm]
    by_cases hp : parts[0]? = some (js "p")
    · rw [if_pos hp]
      refine congrArg (fun f => machines.findSome? f) (funext fun machine => ?_)
      have hhead : Visit.fits R parts (.machine machine) = false := by
        simp [Visit.fits, hm]
      rw [Function.comp_apply, List.find?_cons_of_neg (by simp [hhead]), List.find?_flatMap,
        List.map_findSome?]
      refine congrArg (fun f => (R.networkInstances machine).findSome? f) (funext fun inst => ?_)
      rw [Function.comp_apply, List.find?_map, Option.map_map]
      by_cases hid : parts[1]? = some (R.instanceID inst)
      · rw [if_neg (not_not.2 hid)]
        congr 2
        funext peer
        simp [Visit.fits, hp, hid]
      · have hnone : (R.peers inst).find? (Visit.fits R parts ∘ Visit.peer machine inst) = none := by
          rw [List.find?_eq_none]
          simp [Visit.fits, hid]
        rw [if_pos hid, hnone]
        rfl
    · rw [if_neg hp, eq_comm, List.findSome?_eq_none_iff]
      intro machine _
      rw [Function.comp_apply, Option.map_eq_none_iff, List.find?_eq_none]
      intro w _
      cases w <;> simp [Visit.fits, hm, hp]

theorem mem_visits : v ∈ visits R machines ↔
    (∃ machine ∈ machines, v = .machine machine) ∨
      ∃ machine ∈ machines, ∃ inst ∈ R.networkInstances machine, ∃ peer ∈ R.peers inst,
        v = .peer machine inst peer := by
  simp only [visits, List.mem_flatMap, List.mem_cons, List.mem_map]
  constructor
  · rintro ⟨machine, hmachine, rfl | ⟨inst, hinst, peer, hpeer, rfl⟩⟩
    · exact .inl ⟨machine, hmachine, rfl⟩
    · exact .inr ⟨machine, hmachine, inst, hinst, peer, hpeer, rfl⟩
  · rintro (⟨machine, hmachine, rfl⟩ | ⟨machine, hmachine, inst, hinst, peer, hpeer, rfl⟩)
    · exact ⟨machine, hmachine, .inl rfl⟩
    · exact ⟨machine, hmachine, .inr ⟨inst, hinst, peer, hpeer, rfl⟩⟩

theorem key_eq_intercalate (v : Visit M I P) : v.key R = [colon].intercalate (v.parts R) := by
  cases v with
  | machine m => simp [Visit.key, Visit.parts, machineKey, List.intercalate, js, utf16, colon]
  | peer m inst p => simp [Visit.key, Visit.parts, peerKey, List.intercalate, js, utf16, colon]

theorem key_ne_nil (v : Visit M I P) : v.key R ≠ [] := by
  cases v with
  | machine m => simp [Visit.key, machineKey, js, utf16]
  | peer m inst p => simp [Visit.key, peerKey, js, utf16]

/-- Cut at the colons, a key is its parts again. -/
theorem splitOn_key (hfree : ColonFree R machines) (hv : v ∈ visits R machines) :
    (v.key R).splitOn colon = v.parts R := by
  rw [key_eq_intercalate]
  obtain ⟨machine, hm, rfl⟩ | ⟨machine, hm, inst, hi, peer, hp, rfl⟩ := mem_visits.1 hv
  · refine List.splitOn_intercalate colon ?_ (by simp [Visit.parts])
    simp only [Visit.parts, List.forall_mem_cons]
    exact ⟨by decide, hfree.machineID machine hm, by simp⟩
  · refine List.splitOn_intercalate colon ?_ (by simp [Visit.parts])
    simp only [Visit.parts, List.forall_mem_cons]
    exact ⟨by decide, hfree.instanceID machine hm inst hi, hfree.peerID machine hm inst hi peer hp,
      by simp⟩

theorem fits_parts_iff : w.fits R (v.parts R) = true ↔ w.parts R = v.parts R := by
  have hne : js "m" ≠ js "p" := by decide
  cases w with
  | machine m =>
    cases v with
    | machine m' => simpa [Visit.fits, Visit.parts] using eq_comm
    | peer m' inst' p' => simp [Visit.fits, Visit.parts, hne, hne.symm]
  | peer m inst p =>
    cases v with
    | machine m' => simp [Visit.fits, Visit.parts, hne, hne.symm]
    | peer m' inst' p' => simpa [Visit.fits, Visit.parts] using and_congr eq_comm eq_comm

/-- **A key selects the first visit that has it.** -/
theorem resolveSelection_visit (hfree : ColonFree R machines) (hv : v ∈ visits R machines) :
    resolveSelection R (v.key R) machines =
      ((visits R machines).find? fun w => w.key R = v.key R).map (Visit.selection (v.key R)) := by
  rw [resolveSelection_eq (key_ne_nil v), splitOn_key hfree hv]
  congr 1
  refine List.find?_congr fun w hw => ?_
  have hiff : w.fits R (v.parts R) = true ↔ w.key R = v.key R := by
    rw [fits_parts_iff]
    constructor
    · intro h
      rw [key_eq_intercalate, key_eq_intercalate, h]
    · intro h
      rw [← splitOn_key hfree hw, ← splitOn_key hfree hv, h]
  rw [Bool.eq_iff_iff, hiff, decide_eq_true_iff]

/-! ## Together -/

/-- What a node shows is what its record says. -/
def GraphNode.Shows (R : Records M I P) (node : GraphNode M P) : Prop :=
  match node.record with
  | .inl machine => node = machineNode R machine
  | .inr peer => ∃ inst, node = peerNode R inst peer

/-- What an edge shows is what the record of its peer says. -/
def GraphEdge.Shows (R : Records M I P) (edge : GraphEdge) (node : GraphNode M P) : Prop :=
  edge.target = node.key ∧
    ∃ peer, node.record = .inr peer ∧ edge.direct = R.direct peer ∧ edge.latency = R.latencyMS peer

/-- The edges of visits and the nodes of their peers go together. -/
theorem edges_shows {M I P : Type} {R : Records M I P} (l : List (Visit M I P)) :
    List.Forall₂ (GraphEdge.Shows R) (l.filterMap (Visit.edge? R))
      ((l.map (Visit.node R)).filter fun n => n.type = .peer) := by
  induction l with
  | nil => exact .nil
  | cons v l ih =>
    cases v with
    | machine m => simpa [Visit.edge?, Visit.node, machineNode, List.filterMap_cons] using ih
    | peer m inst p =>
      refine List.Forall₂.cons ?_ ih
      exact ⟨rfl, p, rfl, rfl, rfl⟩

/-- **Keys and selection agree.**  The nodes have different keys, the peers have one edge each, from
a node of the graph, and every node selects the record it is made of. -/
theorem graph_resolves {M I P : Type} (R : Records M I P) {machines : List M}
    (hfree : ColonFree R machines) :
    let graph := buildGraph R machines
    (graph.nodes.map GraphNode.key).Nodup ∧
    List.Forall₂ (GraphEdge.Shows R) graph.edges (graph.nodes.filter fun n => n.type = .peer) ∧
    (∀ edge ∈ graph.edges, edge.source ∈ graph.nodes.map GraphNode.key) ∧
    ∀ node ∈ graph.nodes, node.Shows R ∧
      ∃ selection, resolveSelection R node.key machines = some selection ∧
        selection.type = node.type ∧ selection.data = node.record := by
  intro graph
  have hnodes : graph.nodes = _ := buildGraph_eq.1
  have hedges : graph.edges = _ := buildGraph_eq.2
  have hkeys : graph.nodes.map GraphNode.key =
      (firstSeen (Visit.key R) [] (visits R machines)).map (Visit.key R) := by
    rw [hnodes, List.map_map]
    refine List.map_congr_left fun v _ => ?_
    cases v <;> rfl
  have hvisit : ∀ v ∈ firstSeen (Visit.key R) [] (visits R machines), v ∈ visits R machines :=
    fun v hv => List.mem_of_find?_eq_some (find?_of_mem_firstSeen hv)
  refine ⟨?_, ?_, ?_, ?_⟩
  · rw [hkeys]
    exact nodup_firstSeen
  · rw [hnodes, hedges]
    exact edges_shows _
  · intro edge hedge
    rw [hedges] at hedge
    obtain ⟨v, hv, he⟩ := List.mem_filterMap.1 hedge
    obtain ⟨m, hm, rfl⟩ | ⟨m, hm, inst, hi, p, hp, rfl⟩ := mem_visits.1 (hvisit v hv)
    · simp [Visit.edge?] at he
    · obtain rfl := Option.some.inj he
      -- the machine of a peer has been visited as well
      obtain ⟨w, hw, hkey⟩ :
          ∃ w ∈ firstSeen (Visit.key R) [] (visits R machines),
            w.key R = (Visit.machine m).key R :=
        exists_mem_firstSeen (mem_visits.2 (.inl ⟨m, hm, rfl⟩)) List.not_mem_nil
      rw [hkeys]
      exact List.mem_map.2 ⟨w, hw, hkey⟩
  · intro node hnode
    rw [hnodes] at hnode
    obtain ⟨v, hv, rfl⟩ := List.mem_map.1 hnode
    have hkey : (v.node R).key = v.key R := by cases v <;> rfl
    refine ⟨?_, v.selection (v.key R), ?_, ?_⟩
    · cases v with
      | machine m => exact rfl
      | peer m inst p => exact ⟨inst, rfl⟩
    · rw [hkey, resolveSelection_visit hfree (hvisit v hv), find?_of_mem_firstSeen hv]
      rfl
    · cases v <;> exact ⟨rfl, rfl⟩

/-! ## The graph of a topology -/

/-- A machine, and the instances under it with their peers, as texts. -/
structure PlainMachine where
  id : String
  instances : List (String × List (String × ℚ))

/-- Records with nothing but ids, and a latency to tell peers apart. -/
def plain : Records PlainMachine (String × List (String × ℚ)) (String × ℚ) where
  machineID m := js m.id
  active _ := true
  machineHostname _ := none
  networkInstances m := m.instances
  instanceID i := js i.1
  peers i := i.2
  peerID p := js p.1
  peerHostname _ := none
  ipv4 _ := none
  latencyMS p := some p.2
  direct _ := true

/-- Two machines have an instance in common, and see its peer `7` differently. -/
def sharedInstance : List PlainMachine :=
  [⟨"a", [("i", [("7", 1)])]⟩, ⟨"b", [("i", [("7", 2), ("8", 3)])]⟩, ⟨"a", []⟩]

theorem graph_resolves_sharedInstance :
    (buildGraph plain sharedInstance).nodes.map (fun node => (node.key, node.latency)) =
        [(js "m:a", none), (js "p:i:7", some 1), (js "m:b", none), (js "p:i:8", some 3)] ∧
      ∀ node ∈ (buildGraph plain sharedInstance).nodes, ∃ selection,
        resolveSelection plain node.key sharedInstance = some selection ∧
          selection.data = node.record := by
  have hfree : ColonFree plain sharedInstance := by
    constructor <;> decide +kernel
  refine ⟨by decide +kernel, fun node hnode => ?_⟩
  obtain ⟨-, -, -, hnodes⟩ := graph_resolves plain hfree
  obtain ⟨-, selection, hresolve, -, hdata⟩ := hnodes node hnode
  exact ⟨selection, hresolve, hdata⟩

end Webui

end NexusTier
