import NexusTier.Ingest.History

/-!
# Which snapshots can be stored

`Validate` and the constraints of the migrations are two conditions, written apart.  What the
second asks of a valid snapshot under a new collection id is `Snapshot.Storable`: texts without
NUL, arrays that are not nil, latencies and loss rates that are not negative, metrics whose names
fit into an index entry, and that are pairwise different, over the whole snapshot, in instance, name
and labels.  Primary keys with a conflict clause, foreign keys and the checks on peer ids never
refuse anything.

The foreign keys are met because `Ingest` writes a machine before its instances and an instance
before what belongs to it, and because no row is ever deleted that another one refers to; the keys of
metrics and errors start with the collection id, so those of earlier collections are out of the way
(`Db.Logged`).

## What is here

* `Reachable.logged` — metric samples and errors belong to stored runs.
* `foldlM_isOk_iff` — when a loop of the transaction comes through.
* `ingest_eq_ok_iff` — that `Snapshot.Storable` is exact.
-/

set_option autoImplicit false

namespace NexusTier

open Relational

/-! ## The log tables -/

/-- Metric samples and errors belong to stored runs. -/
structure Db.Logged (db : Db) : Prop where
  metrics : db.metricSamples.All fun key _ => db.collectionRuns.contains key.collectionID = true
  errors : db.collectionErrors.All fun key _ => db.collectionRuns.contains key.collectionID = true

section

variable {E : Encoding} {now : Timestamp} {s : Snapshot} {db : Db}

theorem getElem?_logErrors {collectionID : Uuid} {rows : List ErrorRow}
    {p : Table ErrorKey ErrorRow × Nat} {k : ErrorKey}
    (h : k.collectionID = collectionID → k.errorIndex < p.2) :
    (rows.foldl (Writes.logError collectionID) p).1[k]? = p.1[k]? := by
  induction rows generalizing p with
  | nil => rfl
  | cons row rows ih =>
    have hne : ¬ (⟨collectionID, p.2⟩ : ErrorKey) = k := by
      rintro rfl
      exact absurd (h rfl) (lt_irrefl _)
    rw [List.foldl_cons, ih fun hid => (h hid).trans (Nat.lt_succ_self p.2)]
    show (p.1.insert ⟨collectionID, p.2⟩ row)[k]? = _
    rw [Table.getElem?_insert, if_neg hne]

theorem mem_metricWrites {E : Encoding} {k : MetricKey}
    (h : k ∈ (s.instances.flatMap (metricWrites E s.collectionID)).map Prod.fst) :
    k.collectionID = s.collectionID := by
  obtain ⟨w, hw, rfl⟩ := List.mem_map.1 h
  obtain ⟨inst, _, hw⟩ := List.mem_flatMap.1 hw
  obtain ⟨metric, _, rfl⟩ := List.mem_map.1 hw
  rfl

theorem Snapshot.apply_logged (h : db.Logged) : (s.apply E now db).Logged := by
  have hruns : ∀ id, id = s.collectionID ∨ db.collectionRuns.contains id = true →
      (s.apply E now db).collectionRuns.contains id = true := by
    rintro id (rfl | hid)
    · simp
    · simp [hid]
  constructor
  · intro k row hrow
    refine hruns _ ?_
    by_cases hk : k ∈ (s.instances.flatMap (metricWrites E s.collectionID)).map Prod.fst
    · exact .inl (mem_metricWrites hk)
    · rw [apply_metricSamples, Table.getElem?_insertAll_of_not_mem hk] at hrow
      exact .inr (h.metrics k row hrow)
  · intro k row hrow
    refine hruns _ ?_
    by_cases hk : k.collectionID = s.collectionID
    · exact .inl hk
    · have herr : (s.apply E now db).collectionErrors[k]? = db.collectionErrors[k]? :=
        getElem?_logErrors fun hid => absurd hid hk
      rw [herr] at hrow
      exact .inr (h.errors k row hrow)

theorem Op.exec_logged (op : Op) (h : db.Logged) : (op.exec E db).Logged := by
  obtain he | ⟨now, snapshot, _, _, _, _, he⟩ | ⟨p, he⟩ | ⟨now, cutoff, p, _, he⟩ :=
    op.exec_cases E db
  · rwa [he]
  · rw [he]
    exact snapshot.apply_logged h
  · rw [he]
    refine ⟨fun k row hrow => ?_, h.errors⟩
    rw [Table.getElem?_deleteWhere] at hrow
    exact h.metrics k row (Option.eq_some_of_filter_eq_some hrow)
  · rw [he]
    have hruns : ∀ id, (db.collectionRuns.updateWhere p (RunRow.prune now)).contains id =
        db.collectionRuns.contains id := fun id => by simp [Table.updateWhere]
    exact ⟨fun k row hrow => (hruns _).trans (h.metrics k row hrow),
      fun k row hrow => (hruns _).trans (h.errors k row hrow)⟩

theorem Reachable.logged (h : Reachable E db) : db.Logged :=
  h.induct ⟨Table.all_empty, Table.all_empty⟩ fun _ op hdb => op.exec_logged hdb

end

/-! ## What the constraints ask -/

/-- The constraints on a peer: its protocols are not nil, its measurements not negative. -/
structure Peer.Storable (peer : Peer) : Prop where
  protocols : peer.tunnelProtocols.isSome = true
  latency : nullOrNonneg peer.latencyMS = true
  loss : nullOrNonneg peer.lossRate = true

/-- The constraints on a node: its arrays are not nil. -/
structure Node.Storable (node : Node) : Prop where
  cidrs : node.proxyCIDRs.isSome = true
  listeners : node.listeners.isSome = true

/-- The constraints on an instance, and the limit of the index on the names of its metrics. -/
structure Instance.Storable (E : Encoding) (inst : Instance) : Prop where
  node : ∀ node ∈ inst.node, node.Storable
  peers : ∀ peer ∈ inst.peers.elems, peer.Storable
  names : ∀ metric ∈ inst.metrics.elems, E.indexable metric.name = true

/-- The primary keys of the metrics of a snapshot. -/
def Snapshot.metricKeys (E : Encoding) (s : Snapshot) : List MetricKey :=
  s.instances.flatMap fun inst =>
    inst.metrics.elems.map (metricKey s.collectionID E inst.instanceID)

/-- What the database asks of a snapshot beyond `Validate`. -/
structure Snapshot.Storable (E : Encoding) (s : Snapshot) : Prop where
  texts : storable s.texts = true
  instances : ∀ inst ∈ s.instances, inst.Storable E
  metrics : (s.metricKeys E).Nodup

/-- The samples can be inserted: their keys are new, and different from each other. -/
def Fits (t : Table MetricKey MetricRow) (ws : List (MetricKey × MetricRow)) : Prop :=
  (ws.map Prod.fst).Nodup ∧ ∀ w ∈ ws, t[w.1]? = none

theorem fits_nil (t : Table MetricKey MetricRow) : Fits t [] := ⟨by simp, by simp⟩

theorem fits_cons {t : Table MetricKey MetricRow} {w : MetricKey × MetricRow}
    {ws : List (MetricKey × MetricRow)} :
    Fits t (w :: ws) ↔ t[w.1]? = none ∧ Fits (t.insert w.1 w.2) ws := by
  simp only [Fits, List.map_cons, List.nodup_cons, List.forall_mem_cons, Table.getElem?_insert]
  constructor
  · rintro ⟨⟨hw, hl⟩, hnone, hrest⟩
    refine ⟨hnone, hl, fun v hv => ?_⟩
    rw [if_neg fun he => hw (by rw [he]; exact List.mem_map_of_mem hv)]
    exact hrest v hv
  · rintro ⟨hnone, hl, hrest⟩
    refine ⟨⟨fun hmem => ?_, hl⟩, hnone, fun v hv => ?_⟩
    · obtain ⟨v, hv, he⟩ := List.mem_map.1 hmem
      simpa [he] using hrest v hv
    · have hv' := hrest v hv
      split at hv'
      · simp at hv'
      · exact hv'

theorem fits_append {t : Table MetricKey MetricRow} {ws ws' : List (MetricKey × MetricRow)} :
    Fits t (ws ++ ws') ↔ Fits t ws ∧ Fits (ws.foldl (fun t e => t.insert e.1 e.2) t) ws' := by
  induction ws generalizing t with
  | nil => simp [fits_nil]
  | cons w ws ih => rw [List.cons_append, fits_cons, ih, fits_cons, List.foldl_cons, and_assoc]

@[simp] theorem storable_append (l l' : List String) :
    storable (l ++ l') = (storable l && storable l') :=
  List.all_append

theorem storable_flatMap {α : Type} {l : List α} {f : α → List String}
    (h : storable (l.flatMap f) = true) : ∀ a ∈ l, storable (f a) = true := by
  simpa [storable] using h

/-! ## When each loop comes through -/

section

variable {E : Encoding} {collectionID : Uuid} {completedAt : Timestamp} {db : Db}

theorem upsertReportedNode_isOk_iff {inst : Instance} (ht : storable inst.texts = true)
    (hrun : db.collectionRuns.contains collectionID = true)
    (hinst : db.networkInstances.contains inst.instanceID = true) :
    (∃ db', upsertReportedNode collectionID completedAt inst db = .ok db') ↔
      ∀ node ∈ inst.node, node.Storable := by
  rw [upsertReportedNode]
  cases hn : inst.node with
  | none => simp
  | some node =>
    have hnode : storable node.texts = true := by
      simp only [Instance.texts, storable_append, Bool.and_eq_true, hn] at ht
      simpa using ht.1.1.1
    simp only [upsertNode_eq_ok, hnode, hinst, hrun, Option.mem_def, Option.some.injEq,
      forall_eq', true_and]
    refine ⟨?_, fun h => ⟨_, h.cidrs, h.listeners, rfl⟩⟩
    rintro ⟨_, hc, hl, _⟩
    exact ⟨hc, hl⟩

theorem upsertPeers_isOk_iff {inst : Instance} {detailsComplete : Bool} {l : List Peer}
    (ht : ∀ peer ∈ l, storable peer.texts = true)
    (hrun : db.collectionRuns.contains collectionID = true)
    (hinst : db.networkInstances.contains inst.instanceID = true) :
    (∃ db', l.foldlM (fun db peer =>
      upsertPeer collectionID completedAt inst detailsComplete peer db) db = .ok db') ↔
      ∀ peer ∈ l, peer.Storable := by
  induction l generalizing db with
  | nil => simp [pure, Except.pure]
  | cons peer l ih =>
    obtain ⟨db₁, hdb₁⟩ : ∃ db₁ : Db, { db with
      peerLinks := (LinkWrite.put ⟨inst.instanceID, peer.peerID.toNat⟩
        (peerRow collectionID completedAt inst peer) detailsComplete).exec db.peerLinks } = db₁ :=
      ⟨_, rfl⟩
    have hrest := @ih db₁ (fun q hq => ht q (by simp [hq])) (hdb₁ ▸ hrun) (hdb₁ ▸ hinst)
    simp only [foldlM_cons_eq_ok, upsertPeer_eq_ok, ht peer (by simp), hinst, hrun, true_and,
      List.forall_mem_cons, hdb₁, ← hrest]
    constructor
    · rintro ⟨db', _, ⟨hp, hlat, hloss, rfl⟩, h⟩
      exact ⟨⟨hp, hlat, hloss⟩, db', h⟩
    · rintro ⟨hpeer, db', h⟩
      exact ⟨db', db₁, ⟨hpeer.protocols, hpeer.latency, hpeer.loss, rfl⟩, h⟩

theorem insertMetrics_isOk_iff {inst : Instance} {l : List Metric}
    (ht : ∀ metric ∈ l, storable metric.texts = true)
    (hrun : db.collectionRuns.contains collectionID = true)
    (hinst : db.networkInstances.contains inst.instanceID = true) :
    (∃ db', l.foldlM (fun db metric => insertMetric collectionID E inst metric db) db
      = .ok db') ↔
      (∀ metric ∈ l, E.indexable metric.name = true) ∧
        Fits db.metricSamples (l.map fun metric =>
          (metricKey collectionID E inst.instanceID metric,
            ⟨E.jsonb (E.marshalLabels metric.labels), metric.value.toNat,
              millis inst.observedAtMS⟩)) := by
  induction l generalizing db with
  | nil => simp [pure, Except.pure, fits_nil]
  | cons metric l ih =>
    obtain ⟨db₁, hdb₁⟩ : ∃ db₁ : Db, { db with
      metricSamples := db.metricSamples.insert (metricKey collectionID E inst.instanceID metric)
        ⟨E.jsonb (E.marshalLabels metric.labels), metric.value.toNat,
          millis inst.observedAtMS⟩ } = db₁ := ⟨_, rfl⟩
    have hrest := @ih db₁ (fun q hq => ht q (by simp [hq])) (hdb₁ ▸ hrun) (hdb₁ ▸ hinst)
    have hsamples : db₁.metricSamples = db.metricSamples.insert
        (metricKey collectionID E inst.instanceID metric) ⟨E.jsonb (E.marshalLabels metric.labels),
          metric.value.toNat, millis inst.observedAtMS⟩ := hdb₁ ▸ rfl
    rw [List.map_cons, fits_cons, ← hsamples, List.forall_mem_cons]
    simp only [foldlM_cons_eq_ok, insertMetric_eq_ok, ht metric (by simp), hinst, hrun, true_and,
      hdb₁]
    constructor
    · rintro ⟨db', _, ⟨hindexable, hnone, rfl⟩, h⟩
      obtain ⟨hnames, hfits⟩ := hrest.1 ⟨db', h⟩
      exact ⟨⟨hindexable, hnames⟩, hnone, hfits⟩
    · rintro ⟨⟨hindexable, hnames⟩, hnone, hfits⟩
      obtain ⟨db', h⟩ := hrest.2 ⟨hnames, hfits⟩
      exact ⟨db', db₁, ⟨hindexable, hnone, rfl⟩, h⟩

/-- An instance that has been upserted is there. -/
theorem contains_instanceReport {machineID : Uuid} {inst : Instance}
    {t : Table Uuid InstanceRow} :
    ((instanceReport collectionID completedAt machineID inst).exec t).contains inst.instanceID =
      true := by
  rw [Table.contains_eq_true]
  exact ⟨_, by rw [Notice.getElem?_exec]; exact if_pos rfl⟩

/-- The node and the peers of an instance leave the tables alone that its metrics look at. -/
theorem upsertNodeAndPeers_frame {inst : Instance} {detailsComplete : Bool} {db₁ db₂ : Db}
    (h₁ : upsertReportedNode collectionID completedAt inst db = .ok db₁)
    (h₂ : inst.peers.elems.foldlM (fun db peer =>
      upsertPeer collectionID completedAt inst detailsComplete peer db) db₁ = .ok db₂) :
    db₂.collectionRuns = db.collectionRuns ∧ db₂.networkInstances = db.networkInstances ∧
      db₂.metricSamples = db.metricSamples := by
  rw [upsertPeers_exec h₂, upsertReportedNode_exec h₁]
  exact ⟨rfl, rfl, rfl⟩

theorem upsertNodeAndPeers_isOk_iff {inst : Instance} {detailsComplete : Bool}
    (ht : storable inst.texts = true) (hrun : db.collectionRuns.contains collectionID = true)
    (hinst : db.networkInstances.contains inst.instanceID = true) :
    (∃ db₁ db₂, upsertReportedNode collectionID completedAt inst db = .ok db₁ ∧
      inst.peers.elems.foldlM (fun db peer =>
        upsertPeer collectionID completedAt inst detailsComplete peer db) db₁ = .ok db₂) ↔
      (∀ node ∈ inst.node, node.Storable) ∧ ∀ peer ∈ inst.peers.elems, peer.Storable := by
  have hpeers : ∀ peer ∈ inst.peers.elems, storable peer.texts = true := by
    simp only [Instance.texts, storable_append, Bool.and_eq_true] at ht
    exact storable_flatMap ht.1.1.2
  have hpeer : ∀ db₁, upsertReportedNode collectionID completedAt inst db = .ok db₁ →
      ((∃ db₂, inst.peers.elems.foldlM (fun db peer =>
        upsertPeer collectionID completedAt inst detailsComplete peer db) db₁ = .ok db₂) ↔
        ∀ peer ∈ inst.peers.elems, peer.Storable) := by
    intro db₁ h₁
    have e₁ := upsertReportedNode_exec h₁
    exact upsertPeers_isOk_iff hpeers (by rw [e₁]; exact hrun) (by rw [e₁]; exact hinst)
  rw [← upsertReportedNode_isOk_iff ht hrun hinst]
  constructor
  · rintro ⟨db₁, db₂, h₁, h₂⟩
    exact ⟨⟨db₁, h₁⟩, (hpeer db₁ h₁).1 ⟨db₂, h₂⟩⟩
  · rintro ⟨⟨db₁, h₁⟩, hstorable⟩
    obtain ⟨db₂, h₂⟩ := (hpeer db₁ h₁).2 hstorable
    exact ⟨db₁, db₂, h₁, h₂⟩

/-- The metrics of an instance come through, whether stale links have been removed or not. -/
theorem insertReportedMetrics_isOk_iff {inst : Instance} (ht : storable inst.texts = true)
    (hrun : db.collectionRuns.contains collectionID = true)
    (hinst : db.networkInstances.contains inst.instanceID = true) :
    (∃ db', inst.metrics.elems.foldlM
      (fun db metric => insertMetric collectionID E inst metric db)
      (if hasOperationError inst.errors "list_routes" then db
        else removeStalePeers completedAt inst db) = .ok db') ↔
      (∀ metric ∈ inst.metrics.elems, E.indexable metric.name = true) ∧
        Fits db.metricSamples (metricWrites E collectionID inst) := by
  have hmetrics : ∀ metric ∈ inst.metrics.elems, storable metric.texts = true := by
    simp only [Instance.texts, storable_append, Bool.and_eq_true] at ht
    exact storable_flatMap ht.1.2
  split
  · exact insertMetrics_isOk_iff hmetrics hrun hinst
  · exact @insertMetrics_isOk_iff E collectionID (removeStalePeers completedAt inst db) inst _
      hmetrics hrun hinst

theorem ingestInstance_isOk_iff {machineID : Uuid} {inst : Instance}
    (ht : storable inst.texts = true) (hrun : db.collectionRuns.contains collectionID = true)
    (hmachine : db.machines.contains machineID = true) :
    (∃ db', ingestInstance collectionID completedAt E machineID inst db = .ok db') ↔
      inst.Storable E ∧ Fits db.metricSamples (metricWrites E collectionID inst) := by
  -- the instance is there once it has been upserted, and the later statements keep it
  obtain ⟨db₁, hdb₁⟩ : ∃ db₁ : Db, { db with
      networkInstances := (instanceReport collectionID completedAt machineID inst).exec
        db.networkInstances } = db₁ := ⟨_, rfl⟩
  have hrun₁ : db₁.collectionRuns.contains collectionID = true := hdb₁ ▸ hrun
  have hinst₁ : db₁.networkInstances.contains inst.instanceID = true :=
    hdb₁ ▸ contains_instanceReport
  have hsamples₁ : db₁.metricSamples = db.metricSamples := hdb₁ ▸ rfl
  have hreports := @upsertNodeAndPeers_isOk_iff collectionID completedAt db₁ inst
    (!hasOperationError inst.errors "list_peers") ht hrun₁ hinst₁
  have hmetrics : ∀ db₃, db₃.collectionRuns = db₁.collectionRuns →
      db₃.networkInstances = db₁.networkInstances → db₃.metricSamples = db₁.metricSamples →
      ((∃ db', inst.metrics.elems.foldlM
        (fun db metric => insertMetric collectionID E inst metric db)
        (if hasOperationError inst.errors "list_routes" then db₃
          else removeStalePeers completedAt inst db₃) = .ok db') ↔
        (∀ metric ∈ inst.metrics.elems, E.indexable metric.name = true) ∧
          Fits db.metricSamples (metricWrites E collectionID inst)) := by
    intro db₃ hr hi hs
    rw [insertReportedMetrics_isOk_iff ht (hr ▸ hrun₁) (hi ▸ hinst₁), hs, hsamples₁]
  simp only [ingestInstance, bind_eq_ok, upsertInstance_eq_ok, hrun, hmachine, true_and, hdb₁]
  constructor
  · rintro ⟨db', _, rfl, db₂, h₂, db₃, h₃, h₄⟩
    obtain ⟨hr, hi, hs⟩ := upsertNodeAndPeers_frame h₂ h₃
    obtain ⟨hnode, hpeers⟩ := hreports.1 ⟨db₂, db₃, h₂, h₃⟩
    obtain ⟨hnames, hfits⟩ := (hmetrics db₃ hr hi hs).1 ⟨db', h₄⟩
    exact ⟨⟨hnode, hpeers, hnames⟩, hfits⟩
  · rintro ⟨⟨hnode, hpeers, hnames⟩, hfits⟩
    obtain ⟨db₂, db₃, h₂, h₃⟩ := hreports.2 ⟨hnode, hpeers⟩
    obtain ⟨hr, hi, hs⟩ := upsertNodeAndPeers_frame h₂ h₃
    obtain ⟨db', h₄⟩ := (hmetrics db₃ hr hi hs).2 ⟨hnames, hfits⟩
    exact ⟨db', db₁, rfl, db₂, h₂, db₃, h₃, h₄⟩

/-! ## When the whole transaction does -/

/-- The transaction holds its run, and the error log is free from the next index on. -/
structure Ready (collectionID : Uuid) (p : Progress) : Prop where
  run : p.db.collectionRuns.contains collectionID = true
  errors : ∀ n, p.errorIndex ≤ n → p.db.collectionErrors[(⟨collectionID, n⟩ : ErrorKey)]? = none

theorem logErrors_free {rows : List ErrorRow} {p : Table ErrorKey ErrorRow × Nat}
    (h : ∀ n, p.2 ≤ n → p.1[(⟨collectionID, n⟩ : ErrorKey)]? = none) :
    ∀ n, (rows.foldl (Writes.logError collectionID) p).2 ≤ n →
      (rows.foldl (Writes.logError collectionID) p).1[(⟨collectionID, n⟩ : ErrorKey)]? = none := by
  induction rows generalizing p with
  | nil => exact h
  | cons row rows ih =>
    rw [List.foldl_cons]
    refine ih fun n hn => ?_
    have hlt : p.2 < n := hn
    show (p.1.insert ⟨collectionID, p.2⟩ row)[(⟨collectionID, n⟩ : ErrorKey)]? = none
    rw [Table.getElem?_insert, if_neg fun he => hlt.ne (congrArg ErrorKey.errorIndex he)]
    exact h n hlt.le

theorem Ready.exec {p : Progress} (h : Ready collectionID p) (w : Writes) :
    Ready collectionID (w.exec collectionID p) :=
  ⟨h.run, logErrors_free h.errors⟩

/-- **When a loop of the transaction comes through.**  Its body succeeds where its own condition
holds and its samples fit, so the loop does where all the conditions hold and all the samples
fit. -/
theorem foldlM_isOk_iff {α : Type} {f : Progress → α → Except IngestError Progress} {l : List α}
    {w : α → Writes} {C : α → Prop} {I : Progress → Prop} {p : Progress}
    (hok : ∀ a ∈ l, ∀ p, I p →
      ((∃ p', f p a = .ok p') ↔ C a ∧ Fits p.db.metricSamples (w a).metrics))
    (hexec : ∀ a ∈ l, ∀ p p', f p a = .ok p' → p' = (w a).exec collectionID p)
    (hI : ∀ a ∈ l, ∀ p, I p → I ((w a).exec collectionID p)) (hp : I p) :
    (∃ p', l.foldlM f p = .ok p') ↔
      (∀ a ∈ l, C a) ∧ Fits p.db.metricSamples (l.flatMap fun a => (w a).metrics) := by
  induction l generalizing p with
  | nil => simp [pure, Except.pure, fits_nil]
  | cons a l ih =>
    have hrest := @ih ((w a).exec collectionID p) (fun b hb => hok b (by simp [hb]))
      (fun b hb => hexec b (by simp [hb])) (fun b hb => hI b (by simp [hb])) (hI a (by simp) p hp)
    have hsamples : ((w a).exec collectionID p).db.metricSamples =
        (w a).metrics.foldl (fun t e => t.insert e.1 e.2) p.db.metricSamples := rfl
    have hhead := hok a (by simp) p hp
    rw [List.flatMap_cons, fits_append, ← hsamples, List.forall_mem_cons]
    constructor
    · rintro ⟨p', h⟩
      obtain ⟨p₁, h₁, h₂⟩ := foldlM_cons_eq_ok.1 h
      obtain ⟨hC, hfits⟩ := hhead.1 ⟨p₁, h₁⟩
      rw [hexec a (by simp) p p₁ h₁] at h₂
      obtain ⟨hCs, hfits'⟩ := hrest.1 ⟨p', h₂⟩
      exact ⟨⟨hC, hCs⟩, hfits, hfits'⟩
    · rintro ⟨⟨hC, hCs⟩, hfits, hfits'⟩
      obtain ⟨p₁, h₁⟩ := hhead.2 ⟨hC, hfits⟩
      obtain ⟨p', h₂⟩ := hrest.2 ⟨hCs, hfits'⟩
      rw [← hexec a (by simp) p p₁ h₁] at h₂
      exact ⟨p', foldlM_cons_eq_ok.2 ⟨p₁, h₁, h₂⟩⟩

theorem insertErrors_ok {scope : ErrorScope} {machineID instanceID : Uuid}
    {errors : Slice TelemetryError} {p : Progress}
    (ht : ∀ e ∈ errors.elems, storable e.texts = true) (h : Ready collectionID p) :
    ∃ p', insertErrors collectionID scope machineID instanceID errors p = .ok p' := by
  obtain ⟨p', hp', -⟩ := foldlM_ok_of_inv (I := Ready collectionID) (l := errors.elems)
    (f := insertError collectionID scope machineID instanceID) (fun e he p hp => by
      simp only [insertError_eq_ok, ht e he, hp.run, hp.errors p.errorIndex le_rfl, true_and]
      exact ⟨_, rfl, hp.exec _⟩) h
  exact ⟨p', hp'⟩

theorem ingestInstanceStep_isOk_iff {machineID : Uuid} {inst : Instance} {p : Progress}
    (ht : storable inst.texts = true) (h : Ready collectionID p)
    (hmachine : p.db.machines.contains machineID = true) :
    (∃ p', ingestInstanceStep collectionID completedAt E machineID p inst = .ok p') ↔
      inst.Storable E ∧ Fits p.db.metricSamples (metricWrites E collectionID inst) := by
  rw [← ingestInstance_isOk_iff ht h.run hmachine]
  simp only [ingestInstanceStep, bind_eq_ok]
  constructor
  · rintro ⟨p', db', h', _⟩
    exact ⟨db', h'⟩
  · rintro ⟨db', h'⟩
    have hready : Ready collectionID ⟨db', p.errorIndex⟩ := by
      rw [ingestInstance_exec h']
      exact h.exec _
    have herrors : ∀ e ∈ inst.errors.elems, storable e.texts = true := by
      simp only [Instance.texts, storable_append, Bool.and_eq_true] at ht
      exact storable_flatMap ht.2
    obtain ⟨p', hp'⟩ := insertErrors_ok herrors hready
    exact ⟨p', db', h', hp'⟩

theorem ingestInstances_isOk_iff {machine : Machine} {p : Progress}
    (ht : ∀ inst ∈ machine.instances.elems, storable inst.texts = true) (h : Ready collectionID p)
    (hmachine : p.db.machines.contains machine.session.machineID = true) :
    (∃ p', machine.instances.elems.foldlM (ingestInstanceStep collectionID completedAt E
        machine.session.machineID) p = .ok p') ↔
      (∀ inst ∈ machine.instances.elems, inst.Storable E) ∧
        Fits p.db.metricSamples (machineWrites E collectionID completedAt machine).metrics := by
  have hmetrics : (machineWrites E collectionID completedAt machine).metrics =
      machine.instances.elems.flatMap (metricWrites E collectionID) := by
    simp [machineWrites, instanceWrites]
  rw [hmetrics]
  exact foldlM_isOk_iff
    (w := instanceWrites E collectionID completedAt machine.session.machineID)
    (I := fun p => Ready collectionID p ∧
      p.db.machines.contains machine.session.machineID = true)
    (fun inst hi p hp => ingestInstanceStep_isOk_iff (ht inst hi) hp.1 hp.2)
    (fun _ _ _ _ hs => ingestInstanceStep_exec hs) (fun _ _ _ hp => ⟨hp.1.exec _, hp.2⟩)
    ⟨h, hmachine⟩

theorem ingestMachineStep_isOk_iff {machine : Machine} {p : Progress}
    (ht : storable machine.texts = true) (h : Ready collectionID p) :
    (∃ p', ingestMachineStep collectionID completedAt E p machine = .ok p') ↔
      (∀ inst ∈ machine.instances.elems, inst.Storable E) ∧
        Fits p.db.metricSamples (machineWrites E collectionID completedAt machine).metrics := by
  simp only [Machine.texts, storable_append, Bool.and_eq_true] at ht
  obtain ⟨⟨hsession, hinsts⟩, herrors⟩ := ht
  have hinsts := storable_flatMap hinsts
  have herrors := storable_flatMap herrors
  -- the machine is there once it has been upserted, and stays
  obtain ⟨db₁, hdb₁⟩ : ∃ db₁ : Db, { p.db with
      machines := (machineReport collectionID completedAt machine).exec p.db.machines } = db₁ :=
    ⟨_, rfl⟩
  have hready₁ : Ready collectionID ⟨db₁, p.errorIndex⟩ := by
    rw [← hdb₁]
    exact ⟨h.run, h.errors⟩
  have hmachine₁ : db₁.machines.contains machine.session.machineID = true := by
    rw [Table.contains_eq_true, ← hdb₁]
    exact ⟨_, by rw [Notice.getElem?_exec]; exact if_pos rfl⟩
  have hloop : ∀ p₁, insertErrors collectionID .machine machine.session.machineID Uuid.nil
        machine.errors ⟨db₁, p.errorIndex⟩ = .ok p₁ →
      ((∃ p₂, machine.instances.elems.foldlM (ingestInstanceStep collectionID completedAt E
          machine.session.machineID) p₁ = .ok p₂) ↔
        (∀ inst ∈ machine.instances.elems, inst.Storable E) ∧
          Fits p.db.metricSamples (machineWrites E collectionID completedAt machine).metrics) := by
    intro p₁ h₁
    have e₁ := insertErrors_exec h₁
    have hready : Ready collectionID p₁ := e₁ ▸ hready₁.exec _
    have hmachine : p₁.db.machines.contains machine.session.machineID = true := e₁ ▸ hmachine₁
    have hsamples : p₁.db.metricSamples = p.db.metricSamples := by
      rw [e₁, ← hdb₁]
      rfl
    rw [← hsamples]
    exact ingestInstances_isOk_iff hinsts hready hmachine
  simp only [ingestMachineStep, bind_eq_ok, upsertMachine_eq_ok, hsession, h.run, true_and, hdb₁]
  constructor
  · rintro ⟨p', _, rfl, p₁, h₁, p₂, h₂, _⟩
    exact (hloop p₁ h₁).1 ⟨p₂, h₂⟩
  · intro hcond
    obtain ⟨p₁, h₁⟩ : ∃ p₁, insertErrors collectionID .machine machine.session.machineID Uuid.nil
        machine.errors ⟨db₁, p.errorIndex⟩ = .ok p₁ := insertErrors_ok herrors hready₁
    obtain ⟨p₂, h₂⟩ := (hloop p₁ h₁).2 hcond
    have hready₂ : Ready collectionID p₂ := by
      rw [Writes.foldlM_exec (fun _ _ _ _ hs => ingestInstanceStep_exec hs) h₂,
        insertErrors_exec h₁]
      exact (hready₁.exec _).exec _
    by_cases hlist : hasOperationError machine.errors "list_network_instances" = true
    · exact ⟨p₂, db₁, rfl, p₁, h₁, p₂, h₂, by rw [if_pos hlist]; rfl⟩
    · obtain ⟨db₃, h₃⟩ : ∃ db₃,
          markMissingInstancesInactive collectionID completedAt machine p₂.db = .ok db₃ :=
        ⟨_, (markMissingInstancesInactive_eq_ok hready₂.run).2 rfl⟩
      refine ⟨⟨db₃, p₂.errorIndex⟩, db₁, rfl, p₁, h₁, p₂, h₂, ?_⟩
      rw [if_neg hlist, bind_eq_ok]
      exact ⟨db₃, h₃, rfl⟩

end

section

variable {E : Encoding} {now : Timestamp} {s : Snapshot} {db : Db}

theorem metricKeys_eq :
    s.metricKeys E = (s.instances.flatMap (metricWrites E s.collectionID)).map Prod.fst := by
  simp [Snapshot.metricKeys, metricWrites, List.map_flatMap, Function.comp_def]

/-- No sample of the collection is there before, so that only its own may get in the way. -/
theorem fits_iff_nodup (hfree : db.metricSamples.All fun key _ => key.collectionID ≠ s.collectionID)
    {ws : List (MetricKey × MetricRow)} (hws : ∀ w ∈ ws, w.1.collectionID = s.collectionID) :
    Fits db.metricSamples ws ↔ (ws.map Prod.fst).Nodup := by
  refine ⟨And.left, fun hn => ⟨hn, fun w hw => ?_⟩⟩
  cases hrow : db.metricSamples[w.1]? with
  | none => rfl
  | some row => exact absurd (hws w hw) (hfree w.1 row hrow)

theorem ingestMachines_isOk_iff {p : Progress}
    (ht : ∀ machine ∈ s.machines.elems, storable machine.texts = true)
    (hready : Ready s.collectionID p)
    (hfree : p.db.metricSamples.All fun key _ => key.collectionID ≠ s.collectionID) :
    (∃ p', s.machines.elems.foldlM
        (ingestMachineStep s.collectionID (millis s.completedAtMS) E) p = .ok p') ↔
      (∀ inst ∈ s.instances, inst.Storable E) ∧ (s.metricKeys E).Nodup := by
  have hmetrics : (s.machines.elems.flatMap fun machine =>
      (machineWrites E s.collectionID (millis s.completedAtMS) machine).metrics) =
        s.instances.flatMap (metricWrites E s.collectionID) := by
    simp [machineWrites, instanceWrites, Snapshot.instances, List.flatMap_assoc]
  have hiff := foldlM_isOk_iff (p := p)
    (w := machineWrites E s.collectionID (millis s.completedAtMS)) (I := Ready s.collectionID)
    (fun machine hm p hp => ingestMachineStep_isOk_iff (ht machine hm) hp)
    (fun _ _ _ _ hs => ingestMachineStep_exec hs) (fun _ _ _ hp => hp.exec _) hready
  rw [hiff, hmetrics, metricKeys_eq, fits_iff_nodup hfree]
  · refine and_congr_left' ⟨fun h inst hi => ?_, fun h machine hm inst hi => ?_⟩
    · obtain ⟨machine, hm, hi⟩ := Snapshot.mem_instances.1 hi
      exact h machine hm inst hi
    · exact h inst (Snapshot.mem_instances.2 ⟨machine, hm, hi⟩)
  · exact fun w hw => mem_metricWrites (List.mem_map_of_mem hw)

/-- The body of `Ingest` comes through exactly on what the constraints ask. -/
theorem ingestBody_isOk_iff (ht : storable s.texts = true)
    (hready : Ready s.collectionID ⟨db, 0⟩)
    (hfree : db.metricSamples.All fun key _ => key.collectionID ≠ s.collectionID) :
    (∃ db', ingestBody E s db = .ok db') ↔
      (∀ inst ∈ s.instances, inst.Storable E) ∧ (s.metricKeys E).Nodup := by
  have htexts := ht
  simp only [Snapshot.texts, storable_append, Bool.and_eq_true] at htexts
  have hmachines : ∀ machine ∈ s.machines.elems, storable machine.texts = true := by
    have hcons := htexts.1
    simp only [storable, List.all_cons, Bool.and_eq_true] at hcons
    exact storable_flatMap hcons.2
  have herrors := storable_flatMap htexts.2
  have hloop : ∀ p₁, insertErrors s.collectionID .snapshot Uuid.nil Uuid.nil s.errors ⟨db, 0⟩
        = .ok p₁ →
      ((∃ p₂, s.machines.elems.foldlM
          (ingestMachineStep s.collectionID (millis s.completedAtMS) E) p₁ = .ok p₂) ↔
        (∀ inst ∈ s.instances, inst.Storable E) ∧ (s.metricKeys E).Nodup) := by
    intro p₁ h₁
    have e₁ := insertErrors_exec h₁
    have hsamples : p₁.db.metricSamples = db.metricSamples := by rw [e₁]; rfl
    exact ingestMachines_isOk_iff hmachines (e₁ ▸ hready.exec _) (hsamples ▸ hfree)
  simp only [ingestBody, bind_eq_ok]
  constructor
  · rintro ⟨db', p₁, h₁, p₂, h₂, _⟩
    exact (hloop p₁ h₁).1 ⟨p₂, h₂⟩
  · intro hcond
    obtain ⟨p₁, h₁⟩ : ∃ p₁, insertErrors s.collectionID .snapshot Uuid.nil Uuid.nil s.errors
        ⟨db, 0⟩ = .ok p₁ := insertErrors_ok herrors hready
    obtain ⟨p₂, h₂⟩ := (hloop p₁ h₁).2 hcond
    have hrun : p₂.db.collectionRuns.contains s.collectionID = true := by
      rw [Writes.foldlM_exec (fun _ _ _ _ hs => ingestMachineStep_exec hs) h₂,
        insertErrors_exec h₁]
      exact hready.run
    by_cases he : s.errors.elems.isEmpty = true
    · obtain ⟨db₃, h₃⟩ : ∃ db₃, markMissingMachinesInactive s.collectionID
          (millis s.completedAtMS) s.machines.elems p₂.db = .ok db₃ := by
        simp [markMissingMachinesInactive, hrun, check, pure, Except.pure, bind, Except.bind]
      exact ⟨db₃, p₁, h₁, p₂, h₂, by rw [if_pos he]; exact h₃⟩
    · exact ⟨p₂.db, p₁, h₁, p₂, h₂, by rw [if_neg he]; rfl⟩

/-- **Which snapshots can be stored.**  A valid snapshot under a new collection id is ingested
exactly when it is storable. -/
theorem ingest_eq_ok_iff (hdb : db.Logged) (hv : s.Valid)
    (hnew : db.collectionRuns[s.collectionID]? = none) :
    (∃ db', ingest E now s db = .ok (true, db')) ↔ s.Storable E := by
  have hvalidate : (s.validate).mapError IngestError.validate = .ok () := by
    rw [Snapshot.validate_eq_ok.2 hv]
    rfl
  have hstarted : (runRow E now s).startedAt ≤ (runRow E now s).completedAt :=
    (millis_le_millis_iff (UInt64.le_trans hv.started_le hv.completed_le) hv.completed_le).2
      hv.started_le
  have hcollected : (runRow E now s).collectedAt = (runRow E now s).completedAt :=
    congrArg millis hv.collected_eq
  have hunused : db.collectionRuns.contains s.collectionID = false := by
    rw [Std.ExtTreeMap.contains_eq_isSome_getElem?, hnew]
    rfl
  have hbody : storable s.texts = true →
      ((∃ db', ingestBody E s { db with
        collectionRuns := db.collectionRuns.insert s.collectionID (runRow E now s) } = .ok db') ↔
        (∀ inst ∈ s.instances, inst.Storable E) ∧ (s.metricKeys E).Nodup) := by
    refine fun ht => ingestBody_isOk_iff ht ⟨by simp, fun n _ => ?_⟩ fun key row hrow hid => ?_
    · cases hrow : db.collectionErrors[(⟨s.collectionID, n⟩ : ErrorKey)]? with
      | none => rfl
      | some row =>
        have hc := hdb.errors _ row hrow
        simp [hunused] at hc
    · have hc : db.collectionRuns.contains key.collectionID = true := hdb.metrics key row hrow
      rw [hid, hunused] at hc
      simp at hc
  simp only [ingest, unit_bind_eq_ok, check_eq_ok, hvalidate, hstarted, hcollected, hnew,
    true_and]
  simp only [bind_eq_ok, pure_eq_ok, Prod.mk.injEq, true_and]
  constructor
  · rintro ⟨_, ht, db₁, h₁, _⟩
    obtain ⟨hinst, hmetrics⟩ := (hbody ht).1 ⟨db₁, h₁⟩
    exact ⟨ht, hinst, hmetrics⟩
  · intro h
    obtain ⟨db₁, h₁⟩ := (hbody h.texts).2 ⟨h.instances, h.metrics⟩
    exact ⟨db₁, h.texts, db₁, h₁, rfl⟩

end

end NexusTier
