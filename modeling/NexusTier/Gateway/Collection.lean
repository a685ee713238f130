import NexusTier.Gateway.Telemetry

/-!
# What a collection gathers

The invariant of a collection, over any schedule.  It has two halves.

* **Provenance** (`Machine.Gathered`): what stands in the snapshot for a machine is its session
  under the key it has in the pool, and the replies of its client, each taken at some time that has
  passed.  A failed `list_network_instance` is the machine's only error, and a failed call about an
  instance is an error of that instance under the call's name.
* **Accounting** (`Collection.accounted`): a session is waiting, or has a task, or its machine has
  been collected.  No session is counted twice, and while there is no error none is lost.

## What is here

* `Machine.Gathered` and `Phase.Sound`: provenance, of a machine and of a task on its way.
* `Collection.Sound`: the invariant, with one lemma for each event, `Sound.step` and `Sound.run`.
* `Gateway.Emits`: a snapshot is one that `collect_topology` may return.
* `Gateway.Emits.collected`: what is known of such a snapshot.

## What is left out

When the calls of a client are answered, but for the order of events; and how long one waits for
them.  A reply that never comes is a timeout.
-/

set_option autoImplicit false

namespace NexusTier

open Relational

/-! ## Views of sessions -/

/-- A view of the session under `key`, whose times have passed at `now`. -/
structure Session.Seen (now : UInt64) (key : Uuid) (view : Session) : Prop where
  machineID : view.machineID = key
  connected_le : view.connectedAtMS ≤ now
  lastHeartbeat_le : view.lastHeartbeatAtMS ≤ now

/-- A session that has a machine id can be read. -/
theorem GatewaySession.view_of_machineID {key : Uuid} {session : GatewaySession}
    (h : session.machineID = .ok key) :
    ∃ view, session.view = .ok view ∧ view.machineID = key ∧
      view.connectedAtMS = session.state.connectedAtMS ∧
      view.lastHeartbeatAtMS = session.state.lastHeartbeatAtMS := by
  have hnames := machineID_eq_ok.1 h
  cases hb : session.state.heartbeat with
  | none => simp [hb] at hnames
  | some heartbeat =>
    have hid : heartbeat.machineID = some key := by simpa [hb] using hnames
    simp only [GatewaySession.view, snapshot, hb, hid, bind, Except.bind, pure, Except.pure]
    exact ⟨_, rfl, rfl, rfl, rfl⟩

/-- A session of the pool can always be read. -/
theorem GatewaySession.Admitted.view {now : UInt64} {key : Uuid} {session : GatewaySession}
    (h : session.Admitted now key) : ∃ view, session.view = .ok view ∧ view.Seen now key := by
  obtain ⟨view, hview, hid, hconnected, hlast⟩ :=
    GatewaySession.view_of_machineID (machineID_eq_ok.2 h.names)
  exact ⟨view, hview, hid, hconnected ▸ h.connected_le, hlast ▸ h.lastHeartbeat_le⟩

/-! ## Provenance -/

section

variable {PeerInfo : Type} (A : PairAccessors PeerInfo) (replies : Replies PeerInfo)

/-- The instances collected from the first replies of a client, each at a time that has passed. -/
def CollectedFrom (replies : MachineReplies PeerInfo) (now : UInt64) (insts : List Instance) :
    Prop :=
  ∀ (j : Nat) inst, insts[j]? = some inst →
    ∃ t ≤ now, inst = collectInstance A t inst.instanceID (replies.each j)

/-- A machine as `collect_machine` returns it, from the replies of its client. -/
structure Machine.Gathered (now : UInt64) (machine : Machine) : Prop where
  seen : machine.session.Seen now machine.session.machineID
  observed_le : machine.observedAtMS ≤ now
  errors : machine.errors =
    some ((replies machine.session.machineID).instances.failure "list_network_instances")
  instances : ∃ l insts, machine.instances = some l ∧ l.Perm insts ∧
    insts.map Instance.instanceID = (replies machine.session.machineID).listed ∧
    CollectedFrom A (replies machine.session.machineID) now insts

/-- What a task has so far. -/
def Phase.Sound (now : UInt64) (key : Uuid) : Phase → Prop
  | starting => True
  | listing view => view.Seen now key
  | collecting view todo insts =>
    view.Seen now key ∧ CollectedFrom A (replies key) now insts ∧
      (replies key).instances = .ok (insts.map Instance.instanceID ++ todo)
  | finished machine => machine.session.machineID = key ∧ machine.Gathered A replies now
  | panicked _ => True

variable {A replies} {now now' : UInt64} {key : Uuid}

theorem Session.Seen.mono {view : Session} (h : view.Seen now key) (hle : now ≤ now') :
    view.Seen now' key :=
  ⟨h.machineID, UInt64.le_trans h.connected_le hle, UInt64.le_trans h.lastHeartbeat_le hle⟩

theorem CollectedFrom.mono {r : MachineReplies PeerInfo} {insts : List Instance}
    (h : CollectedFrom A r now insts) (hle : now ≤ now') : CollectedFrom A r now' insts := by
  intro j inst hinst
  obtain ⟨t, ht, heq⟩ := h j inst hinst
  exact ⟨t, UInt64.le_trans ht hle, heq⟩

theorem Machine.Gathered.mono {machine : Machine} (h : machine.Gathered A replies now)
    (hle : now ≤ now') : machine.Gathered A replies now' := by
  obtain ⟨l, insts, hl, hperm, hids, hfrom⟩ := h.instances
  exact ⟨h.seen.mono hle, UInt64.le_trans h.observed_le hle, h.errors,
    l, insts, hl, hperm, hids, hfrom.mono hle⟩

theorem Phase.Sound.mono {phase : Phase} (h : phase.Sound A replies now key) (hle : now ≤ now') :
    phase.Sound A replies now' key := by
  cases phase with
  | starting => trivial
  | listing view => exact Session.Seen.mono h hle
  | collecting view todo insts => exact ⟨h.1.mono hle, h.2.1.mono hle, h.2.2⟩
  | finished machine => exact ⟨h.1, h.2.mono hle⟩
  | panicked message => trivial

theorem collectedFrom_nil {r : MachineReplies PeerInfo} : CollectedFrom A r now [] := by
  intro j inst hinst
  simp at hinst

theorem CollectedFrom.concat {r : MachineReplies PeerInfo} {insts : List Instance}
    (h : CollectedFrom A r now insts) (id : Uuid) :
    CollectedFrom A r now (insts ++ [collectInstance A now id (r.each insts.length)]) := by
  intro j inst hinst
  rcases Nat.lt_or_ge j insts.length with hj | hj
  · rw [List.getElem?_append_left hj] at hinst
    exact h j inst hinst
  · rw [List.getElem?_append_right hj] at hinst
    obtain ⟨hlt, rfl⟩ := List.getElem?_eq_some_iff.1 hinst
    have hj' : j = insts.length := by
      simp only [List.length_singleton] at hlt
      omega
    subst hj'
    exact ⟨now, UInt64.le_refl now, by simp [collectInstance]⟩

/-- A machine of which no instance has been collected. -/
theorem Machine.gathered_of_failure {view : Session} (hview : view.Seen now key)
    {errors : List TelemetryError} (hnone : (replies key).instances.value? = none)
    (herr : errors = (replies key).instances.failure "list_network_instances") :
    (⟨view, now, some [], some errors⟩ : Machine).Gathered A replies now := by
  obtain rfl := hview.machineID
  refine ⟨hview, UInt64.le_refl now, by rw [herr], [], [], rfl, List.Perm.refl _, ?_,
    collectedFrom_nil⟩
  simp [MachineReplies.listed, hnone]

/-- **A step of a task keeps what it has.**  The session is admitted, so the view is never
`SessionView::unavailable`. -/
theorem Phase.Sound.advance {phase : Phase} {session : GatewaySession}
    (h : phase.Sound A replies now key) (hs : session.Admitted now key) :
    (phase.advance A (replies key) now session).Sound A replies now key := by
  cases phase with
  | starting =>
    obtain ⟨view, hview, hseen⟩ := hs.view
    simp only [Phase.advance, hview]
    exact hseen
  | listing view =>
    have hview : view.Seen now key := h
    cases hr : (replies key).instances with
    | ok ids =>
      simp only [Phase.advance, hr]
      exact ⟨hview, collectedFrom_nil, by simp [hr]⟩
    | error message =>
      simp only [Phase.advance, hr]
      exact ⟨hview.machineID, Machine.gathered_of_failure hview (by simp [hr, RpcOutcome.value?])
        (by simp [hr, RpcOutcome.failure])⟩
    | timeout =>
      simp only [Phase.advance, hr]
      exact ⟨hview.machineID, Machine.gathered_of_failure hview (by simp [hr, RpcOutcome.value?])
        (by simp [hr, RpcOutcome.failure])⟩
  | collecting view todo insts =>
    obtain ⟨hview, hfrom, hids⟩ := h
    cases todo with
    | nil =>
      obtain rfl := hview.machineID
      rw [List.append_nil] at hids
      refine ⟨rfl, hview, UInt64.le_refl now, ?_, sortInstances insts, insts, rfl,
        List.perm_insertionSort _ _, ?_, hfrom⟩
      · simp [hids, RpcOutcome.failure]
      · simp [MachineReplies.listed, hids, RpcOutcome.value?]
    | cons id todo =>
      refine ⟨hview, hfrom.concat id, ?_⟩
      simp [hids, collectInstance]
  | finished machine => exact h
  | panicked message => trivial

theorem Phase.Sound.panic {phase : Phase} (h : phase.Sound A replies now key) (message : String) :
    (Collection.panicPhase message phase).Sound A replies now key := by
  cases phase with
  | finished machine => exact h
  | starting | listing | collecting | panicked => trivial

end

section

variable {PeerInfo : Type} {A : PairAccessors PeerInfo} {replies : Replies PeerInfo}
  {now : UInt64} {machine : Machine}

/-- A machine has the instances its client listed. -/
theorem Machine.Gathered.instanceIDs_perm (h : machine.Gathered A replies now) :
    (machine.instances.elems.map Instance.instanceID).Perm
      (replies machine.session.machineID).listed := by
  obtain ⟨l, insts, hl, hperm, hids, _⟩ := h.instances
  rw [hl, Slice.elems_some, ← hids]
  exact hperm.map _

/-- Each instance of a machine is what the replies about some position of the list make it. -/
theorem Machine.Gathered.instance_from (h : machine.Gathered A replies now) {inst : Instance}
    (hinst : inst ∈ machine.instances.elems) :
    ∃ j t, t ≤ now ∧
      (replies machine.session.machineID).listed[j]? = some inst.instanceID ∧
      inst = collectInstance A t inst.instanceID ((replies machine.session.machineID).each j) := by
  obtain ⟨l, insts, hl, hperm, hids, hfrom⟩ := h.instances
  rw [hl, Slice.elems_some] at hinst
  obtain ⟨j, hj⟩ := List.mem_iff_getElem?.1 (hperm.mem_iff.1 hinst)
  obtain ⟨t, ht, heq⟩ := hfrom j inst hj
  refine ⟨j, t, ht, ?_, heq⟩
  rw [← hids, List.getElem?_map, hj, Option.map_some]

end

/-! ## Accounting -/

namespace Collection

/-- The sessions that are waiting, have a task or have been collected. -/
def accounted (c : Collection) : List Uuid :=
  c.pending ++ c.tasks.map Prod.fst ++ c.machines.map fun machine => machine.session.machineID

theorem accounted_spawnNext (c : Collection) : c.spawnNext.accounted.Perm c.accounted := by
  rw [spawnNext]
  split
  · exact List.Perm.refl _
  · rename_i key pending hp
    have hmid : (pending ++ (c.tasks.map Prod.fst ++ [key])).Perm
        (key :: (pending ++ c.tasks.map Prod.fst)) := by
      rw [← List.append_assoc]
      exact List.perm_append_singleton _ _
    simpa [accounted, hp] using hmid.append_right
      (c.machines.map fun machine => machine.session.machineID)

theorem map_mapTask (c : Collection) (key : Uuid) (f : Phase → Phase) :
    (c.mapTask key f).tasks.map Prod.fst = c.tasks.map Prod.fst := by
  simp only [mapTask, List.map_map]
  refine List.map_congr_left fun t _ => ?_
  simp only [Function.comp_apply]
  split
  · rename_i hkey
    exact hkey.symm
  · rfl

theorem accounted_mapTask (c : Collection) (key : Uuid) (f : Phase → Phase) :
    (c.mapTask key f).accounted = c.accounted := by
  rw [accounted, map_mapTask]
  rfl

/-- What a step of one task keeps holds of all tasks still. -/
theorem forall_mapTask {c : Collection} {key : Uuid} {f : Phase → Phase}
    {P : Uuid → Phase → Prop} (h : ∀ t ∈ c.tasks, P t.1 t.2)
    (hf : ∀ phase, P key phase → P key (f phase)) : ∀ t ∈ (c.mapTask key f).tasks, P t.1 t.2 := by
  intro t' ht'
  obtain ⟨t, ht, rfl⟩ := List.mem_map.1 ht'
  split
  · rename_i hkey
    exact hf t.2 (hkey ▸ h t ht)
  · exact h t ht

/-- What holds of a task that starts holds of all tasks after `spawnNext`. -/
theorem forall_spawnNext {c : Collection} {P : Uuid → Phase → Prop} (h : ∀ t ∈ c.tasks, P t.1 t.2)
    (hnew : ∀ key, P key .starting) : ∀ t ∈ c.spawnNext.tasks, P t.1 t.2 := by
  intro t ht
  rw [spawnNext] at ht
  split at ht
  · exact h t ht
  · rcases List.mem_append.1 ht with hold | hnew'
    · exact h t hold
    · rw [List.mem_singleton.1 hnew']
      exact hnew _

/-- A free slot does not stay free while sessions wait. -/
theorem spawnNext_idle {c : Collection} (h : c.spawnNext.tasks = []) :
    c.spawnNext.pending = [] := by
  rw [spawnNext] at h ⊢
  split at h
  · rename_i hp
    exact hp
  · simp at h

end Collection

theorem spawnUpTo_spec {limit : Nat} {pending : List Uuid} {tasks : List (Uuid × Phase)} :
    (spawnUpTo limit pending tasks).2.map Prod.fst ++ (spawnUpTo limit pending tasks).1 =
        tasks.map Prod.fst ++ pending ∧
      ∀ t ∈ (spawnUpTo limit pending tasks).2, t ∈ tasks ∨ t.2 = .starting := by
  induction pending generalizing tasks with
  | nil => exact ⟨by simp [spawnUpTo], fun t ht => .inl ht⟩
  | cons key pending ih =>
    rw [spawnUpTo]
    split
    · refine ⟨by rw [ih.1]; simp, fun t ht => ?_⟩
      rcases ih.2 t ht with hold | hnew
      · rcases List.mem_append.1 hold with hold | hkey
        · exact .inl hold
        · rw [List.mem_singleton.1 hkey]
          exact .inr rfl
      · exact .inr hnew
    · exact ⟨rfl, fun t ht => .inl ht⟩

theorem length_le_spawnUpTo {limit : Nat} {pending : List Uuid} {tasks : List (Uuid × Phase)} :
    tasks.length ≤ (spawnUpTo limit pending tasks).2.length := by
  induction pending generalizing tasks with
  | nil => exact Nat.le_refl _
  | cons key pending ih =>
    rw [spawnUpTo]
    split
    · have hle := @ih (tasks ++ [(key, .starting)])
      rw [List.length_append, List.length_singleton] at hle
      omega
    · exact Nat.le_refl _

/-- With a positive limit, the first loop starts a task unless there is no session. -/
theorem spawnUpTo_idle {limit : Nat} {pending : List Uuid} (hpos : 0 < limit)
    (h : (spawnUpTo limit pending []).2 = []) : pending = [] := by
  cases pending with
  | nil => rfl
  | cons key pending =>
    rw [spawnUpTo, if_pos (by simpa using hpos)] at h
    have hle := @length_le_spawnUpTo limit pending ([] ++ [(key, .starting)])
    rw [h] at hle
    simp at hle

theorem mem_of_lookup {α : Type} {l : List (Uuid × α)} {key : Uuid} {a : α}
    (h : l.lookup key = some a) : (key, a) ∈ l := by
  obtain ⟨l₁, l₂, rfl, _⟩ := List.lookup_eq_some_iff.1 h
  simp

/-! ## The invariant -/

section

variable {PeerInfo : Type} (A : PairAccessors PeerInfo) (C : TelemetryCollector)
  (replies : Replies PeerInfo)

/-- A collection of the sessions under `keys`, between two statements. -/
structure Collection.Coherent (keys : List Uuid) (c : Collection) : Prop where
  nodup : keys.Nodup
  sessions : c.sessions.map Prod.fst = keys
  admitted : ∀ e ∈ c.sessions, e.2.Admitted c.now e.1
  started_le : c.startedAtMS ≤ c.now
  tasks : ∀ t ∈ c.tasks, t.2.Sound A replies c.now t.1
  machines : ∀ machine ∈ c.machines, machine.Gathered A replies c.now
  counted : c.accounted.Subperm keys
  complete : c.errors = [] → c.accounted.Perm keys

/-- The invariant of a collection: in addition, no session waits for a task when there is none. -/
structure Collection.Sound (keys : List Uuid) (c : Collection) : Prop
    extends c.Coherent A replies keys where
  idle : c.errors = [] → c.tasks = [] → c.pending = []

variable {A C replies} {keys : List Uuid} {c : Collection}

namespace Collection

theorem sound_start {now : UInt64} {collectionID : Uuid} {sessions : List (Uuid × GatewaySession)}
    (hnd : (sessions.map Prod.fst).Nodup) (hadm : ∀ e ∈ sessions, e.2.Admitted now e.1) :
    (start C now collectionID sessions).Sound A replies (sessions.map Prod.fst) := by
  obtain ⟨hkeys, htasks⟩ :=
    @spawnUpTo_spec C.machineConcurrency (sessions.map Prod.fst) []
  have hall : (start C now collectionID sessions).accounted.Perm (sessions.map Prod.fst) := by
    simp only [accounted, start, List.map_nil, List.append_nil]
    exact List.perm_append_comm.trans (by rw [hkeys]; simp)
  refine ⟨⟨hnd, rfl, hadm, UInt64.le_refl now, fun t ht => ?_, by simp [start], hall.subperm,
    fun _ => hall⟩, fun _ hidle => ?_⟩
  · rcases htasks t ht with hold | hnew
    · simp at hold
    · rw [hnew]
      trivial
  · have hnil := spawnUpTo_idle C.concurrency_pos hidle
    simp [start, hnil, spawnUpTo]

theorem Sound.tick (h : c.Sound A replies keys) (now : UInt64) :
    (c.step A C replies (.tick now)).Sound A replies keys := by
  have hle : c.now ≤ (c.step A C replies (.tick now)).now := by
    simp only [step]
    split
    · assumption
    · exact UInt64.le_refl c.now
  exact ⟨⟨h.nodup, h.sessions, fun e he => (h.admitted e he).mono hle,
    UInt64.le_trans h.started_le hle, fun t ht => (h.tasks t ht).mono hle,
    fun m hm => (h.machines m hm).mono hle, h.counted, h.complete⟩, h.idle⟩

theorem Sound.heartbeat (h : c.Sound A replies keys) (key : Uuid) (request : HeartbeatRequest) :
    (c.step A C replies (.heartbeat key request)).Sound A replies keys := by
  refine ⟨⟨h.nodup, ?_, ?_, h.started_le, h.tasks, h.machines, h.counted, h.complete⟩, h.idle⟩
  · rw [← h.sessions]
    simp only [step, List.map_map]
    refine List.map_congr_left fun e _ => ?_
    simp only [Function.comp_apply]
    split
    · split <;> rfl
    · rfl
  · intro e' he'
    obtain ⟨e, he, rfl⟩ := List.mem_map.1 he'
    have hadm := h.admitted e he
    split
    · split
      · rename_i hb
        exact hadm.heartbeat hb
      · exact hadm
    · exact hadm

/-- A step of a task that keeps it sound keeps the collection sound. -/
theorem Sound.mapTask (h : c.Sound A replies keys) {key : Uuid} {f : Phase → Phase}
    (hf : ∀ phase : Phase, phase.Sound A replies c.now key →
      (f phase).Sound A replies c.now key) :
    (c.mapTask key f).Sound A replies keys := by
  have hacc := c.accounted_mapTask key f
  refine ⟨⟨h.nodup, h.sessions, h.admitted, h.started_le, ?_, h.machines, hacc ▸ h.counted,
    hacc ▸ h.complete⟩, fun herr hnil => h.idle herr (by simpa [Collection.mapTask] using hnil)⟩
  exact forall_mapTask (P := fun key phase => phase.Sound A replies c.now key) h.tasks hf

theorem Sound.advance (h : c.Sound A replies keys) (key : Uuid) :
    (c.step A C replies (.advance key)).Sound A replies keys := by
  simp only [step]
  split
  · rename_i session hsession
    have hmem : (key, session) ∈ c.sessions := mem_of_lookup hsession
    exact h.mapTask fun phase hphase => hphase.advance (h.admitted _ hmem)
  · exact h

/-- The next session gets its task, and the collection is sound again. -/
theorem Coherent.spawnNext (h : c.Coherent A replies keys) : c.spawnNext.Sound A replies keys := by
  have hacc := c.accounted_spawnNext
  have htasks := forall_spawnNext (P := fun key phase => phase.Sound A replies c.now key) h.tasks
    fun _ => trivial
  refine ⟨?_, fun _ => spawnNext_idle⟩
  cases hp : c.pending with
  | nil =>
    have heq : c.spawnNext = c := by simp only [Collection.spawnNext, hp]
    rwa [heq]
  | cons key pending =>
    have heq : c.spawnNext =
        { c with
          pending
          tasks := c.tasks ++ [(key, .starting)] } := by
      simp only [Collection.spawnNext, hp]
    rw [heq] at hacc htasks ⊢
    exact ⟨h.nodup, h.sessions, h.admitted, h.started_le, htasks, h.machines,
      hacc.subperm_right.2 h.counted, fun herr => hacc.trans (h.complete herr)⟩

/-- Among tasks under different keys, dropping one takes its key out. -/
theorem map_dropTask {key : Uuid} {phase : Phase} (hnd : (c.tasks.map Prod.fst).Nodup)
    (h : c.tasks.lookup key = some phase) :
    (c.tasks.map Prod.fst).Perm (key :: (c.dropTask key).tasks.map Prod.fst) := by
  have hmem : key ∈ c.tasks.map Prod.fst := List.mem_map.2 ⟨_, mem_of_lookup h, rfl⟩
  have herase : (c.dropTask key).tasks.map Prod.fst = (c.tasks.map Prod.fst).erase key := by
    rw [hnd.erase_eq_filter, List.filter_map]
    simp only [dropTask]
    congr 2
    funext t
    by_cases ht : t.1 = key <;> simp [ht]
  rw [herase]
  exact List.perm_cons_erase hmem

theorem Coherent.nodup_tasks (h : c.Coherent A replies keys) :
    (c.tasks.map Prod.fst).Nodup := by
  obtain ⟨l, hperm, hsub⟩ := h.counted
  have hacc : c.accounted.Nodup := hperm.nodup_iff.1 (h.nodup.sublist hsub)
  exact hacc.sublist
    ((List.sublist_append_right _ _).trans (List.sublist_append_left _ _))

/-- A task that has ended with a machine of its key moves in the account. -/
theorem accounted_joined {key : Uuid} {phase : Phase} (hnd : (c.tasks.map Prod.fst).Nodup)
    (hl : c.tasks.lookup key = some phase) {machine : Machine}
    (hid : machine.session.machineID = key) :
    ({ c.dropTask key with machines := c.machines ++ [machine] } : Collection).accounted.Perm
      c.accounted := by
  have hdrop := (map_dropTask hnd hl).symm
  have hmove : (((c.dropTask key).tasks.map Prod.fst) ++
      ((c.machines.map fun m => m.session.machineID) ++ [key])).Perm
      (c.tasks.map Prod.fst ++ c.machines.map fun m => m.session.machineID) := by
    rw [← List.append_assoc]
    exact (List.perm_append_singleton _ _).trans (hdrop.append_right _)
  have hpending : (c.dropTask key).pending = c.pending := rfl
  simpa [accounted, hid, hpending] using hmove.append_left c.pending

/-- A finished task becomes a machine of the collection. -/
theorem Coherent.joinFinished (h : c.Coherent A replies keys) {key : Uuid} {machine : Machine}
    (hl : c.tasks.lookup key = some (.finished machine)) :
    ({ c.dropTask key with machines := c.machines ++ [machine] } : Collection).Coherent
      A replies keys := by
  obtain ⟨hid, hgathered⟩ : machine.session.machineID = key ∧ machine.Gathered A replies c.now :=
    h.tasks _ (mem_of_lookup hl)
  have hacc := accounted_joined h.nodup_tasks hl hid
  refine ⟨h.nodup, h.sessions, h.admitted, h.started_le,
    fun t ht => h.tasks t (List.mem_of_mem_filter ht), fun m hm => ?_,
    hacc.subperm_right.2 h.counted, fun herr => hacc.trans (h.complete herr)⟩
  rcases List.mem_append.1 hm with hold | hnew
  · exact h.machines m hold
  · rw [List.mem_singleton.1 hnew]
    exact hgathered

/-- A task that ends with an error leaves the account. -/
theorem Coherent.dropFailed (h : c.Coherent A replies keys) {tasks : List (Uuid × Phase)}
    (hsub : tasks.Sublist c.tasks) (error : TelemetryError) :
    ({ c with tasks, errors := c.errors ++ [error] } : Collection).Coherent A replies keys := by
  refine ⟨h.nodup, h.sessions, h.admitted, h.started_le, fun t ht => h.tasks t (hsub.mem ht),
    h.machines, ?_, by simp⟩
  have hacc : ({ c with tasks, errors := c.errors ++ [error] } : Collection).accounted.Sublist
      c.accounted :=
    ((hsub.map Prod.fst).append_left c.pending).append_right _
  exact hacc.subperm.trans h.counted

theorem Sound.join (h : c.Sound A replies keys) (key : Uuid) :
    (c.join key).Sound A replies keys := by
  rw [Collection.join]
  split
  · rename_i machine hl
    exact (h.joinFinished hl).spawnNext
  · exact (h.dropFailed (List.filter_sublist) _).spawnNext
  · exact h

theorem Sound.deadline (h : c.Sound A replies keys) : (c.deadline C).Sound A replies keys := by
  rw [Collection.deadline]
  split
  · exact h
  · exact ⟨h.dropFailed (List.nil_sublist _) _, by simp⟩

/-- **One event keeps the invariant.** -/
theorem Sound.step (h : c.Sound A replies keys) (event : Event) :
    (c.step A C replies event).Sound A replies keys := by
  cases event with
  | tick now => exact h.tick now
  | heartbeat key request => exact h.heartbeat key request
  | advance key => exact h.advance key
  | panic key message => exact h.mapTask fun phase hphase => hphase.panic message
  | join key => exact h.join key
  | deadline => exact h.deadline

/-- **So does every run.** -/
theorem Sound.run (h : c.Sound A replies keys) (events : List Event) :
    (c.run A C replies events).Sound A replies keys := by
  induction events generalizing c with
  | nil => exact h
  | cons event events ih => exact ih (h.step event)

/-- What a collection has begun with stays. -/
theorem spawnNext_begun (c : Collection) :
    c.spawnNext.collectionID = c.collectionID ∧ c.spawnNext.startedAtMS = c.startedAtMS := by
  rw [Collection.spawnNext]
  split <;> exact ⟨rfl, rfl⟩

theorem step_begun (c : Collection) (event : Event) :
    (c.step A C replies event).collectionID = c.collectionID ∧
      (c.step A C replies event).startedAtMS = c.startedAtMS := by
  cases event with
  | tick now => exact ⟨rfl, rfl⟩
  | heartbeat key request => exact ⟨rfl, rfl⟩
  | advance key =>
    simp only [Collection.step]
    split <;> exact ⟨rfl, rfl⟩
  | panic key message => exact ⟨rfl, rfl⟩
  | join key =>
    simp only [Collection.step, Collection.join]
    split
    · exact spawnNext_begun _
    · exact spawnNext_begun _
    · exact ⟨rfl, rfl⟩
  | deadline =>
    simp only [Collection.step, Collection.deadline]
    split <;> exact ⟨rfl, rfl⟩

theorem run_begun (c : Collection) (events : List Event) :
    (c.run A C replies events).collectionID = c.collectionID ∧
      (c.run A C replies events).startedAtMS = c.startedAtMS := by
  induction events generalizing c with
  | nil => exact ⟨rfl, rfl⟩
  | cons event events ih =>
    obtain ⟨hid, hstarted⟩ := ih (c.step A C replies event)
    obtain ⟨hid', hstarted'⟩ := step_begun c event
    exact ⟨hid.trans hid', hstarted.trans hstarted'⟩

theorem snapshot?_startedAtMS {c : Collection} {snapshot : Snapshot}
    (h : c.snapshot? = some snapshot) : snapshot.startedAtMS = c.startedAtMS := by
  rw [snapshot?] at h
  split at h
  · obtain rfl := Option.some.inj h
    rfl
  · simp at h

end Collection

/-! ## What the gateway emits -/

/-- What `Uuid::new_v4` returns: version 4, variant 1. -/
def Uuid.IsV4 (id : Uuid) : Prop := id.val / 2 ^ 76 % 16 = 4 ∧ id.val / 2 ^ 62 % 4 = 2

instance (id : Uuid) : Decidable id.IsV4 :=
  inferInstanceAs (Decidable (_ ∧ _))

theorem Uuid.IsV4.ne_nil {id : Uuid} (h : id.IsV4) : id ≠ Uuid.nil := by
  rintro rfl
  exact absurd h (by decide)

variable (C) in
/-- A collection whose sessions have been listed at time `now`.  What it gives as its start is
earlier: the clock is read before the pool. -/
def Collection.listed (startedAtMS now : UInt64) (collectionID : Uuid)
    (sessions : List (Uuid × GatewaySession)) : Collection :=
  { start C now collectionID sessions with startedAtMS }

theorem Collection.sound_listed {startedAtMS now : UInt64} {collectionID : Uuid}
    {sessions : List (Uuid × GatewaySession)} (hle : startedAtMS ≤ now)
    (hnd : (sessions.map Prod.fst).Nodup) (hadm : ∀ e ∈ sessions, e.2.Admitted now e.1) :
    (listed C startedAtMS now collectionID sessions).Sound A replies (sessions.map Prod.fst) := by
  have h : (start C now collectionID sessions).Sound A replies (sessions.map Prod.fst) :=
    sound_start hnd hadm
  exact ⟨⟨h.nodup, h.sessions, h.admitted, hle, h.tasks, h.machines, h.counted, h.complete⟩, h.idle⟩

variable (A C replies) in
/-- `collect_topology` may return `snapshot`, if its sessions are those of the pool of `g`, which
have been listed at the time of `g`: in some order, with a fresh id, and under some schedule. -/
def Gateway.Emits (g : Gateway) (snapshot : Snapshot) : Prop :=
  ∃ (collectionID : Uuid) (startedAtMS : UInt64) (sessions : List (Uuid × GatewaySession))
    (events : List Event), collectionID.IsV4 ∧ startedAtMS ≤ g.now ∧ sessions.Perm g.pool ∧
      ((Collection.listed C startedAtMS g.now collectionID sessions).run A C replies
        events).snapshot? = some snapshot

variable (A replies) in
/-- What a collection of the sessions under `keys` returns. -/
structure Snapshot.Collected (keys : List Uuid) (snapshot : Snapshot) : Prop where
  schema : snapshot.schemaVersion = NexusTier.schemaVersion
  collectionID_ne : snapshot.collectionID ≠ Uuid.nil
  started_le : snapshot.startedAtMS ≤ snapshot.completedAtMS
  collected_eq : snapshot.collectedAtMS = snapshot.completedAtMS
  gathered : ∀ machine ∈ snapshot.machines.elems, machine.Gathered A replies snapshot.completedAtMS
  nodup : (snapshot.machines.elems.map fun machine => machine.session.machineID).Nodup
  mem_keys : ∀ machine ∈ snapshot.machines.elems, machine.session.machineID ∈ keys
  complete : snapshot.errors.elems = [] →
    ∀ key ∈ keys, ∃ machine ∈ snapshot.machines.elems, machine.session.machineID = key

/-- No machine occurs twice in what a collection returns. -/
theorem Collection.Sound.nodup_machines (h : c.Sound A replies keys) {snapshot : Snapshot}
    (hs : c.snapshot? = some snapshot) :
    (snapshot.machines.elems.map fun machine => machine.session.machineID).Nodup := by
  rw [Collection.snapshot?] at hs
  split at hs
  · obtain rfl := Option.some.inj hs
    have hperm : (sortMachines c.machines).Perm c.machines := List.perm_insertionSort _ _
    obtain ⟨l, hl, hsub⟩ := h.counted
    refine (hperm.map fun machine => machine.session.machineID).nodup_iff.2 ?_
    exact (hl.nodup_iff.1 (h.nodup.sublist hsub)).sublist (List.sublist_append_right _ _)
  · simp at hs

theorem Collection.Sound.collected (h : c.Sound A replies keys) {snapshot : Snapshot}
    (hid : c.collectionID ≠ Uuid.nil) (hs : c.snapshot? = some snapshot) :
    snapshot.Collected A replies keys := by
  have hnodup := h.nodup_machines hs
  rw [Collection.snapshot?] at hs
  split at hs
  · rename_i hidle
    obtain rfl := Option.some.inj hs
    have hperm : (sortMachines c.machines).Perm c.machines := List.perm_insertionSort _ _
    have hcount : (c.machines.map fun machine => machine.session.machineID).Sublist c.accounted :=
      List.sublist_append_right _ _
    refine ⟨rfl, hid, h.started_le, rfl, fun m hm => h.machines m (hperm.mem_iff.1 hm), hnodup,
      fun m hm => ?_, fun herr key hkey => ?_⟩
    · have hmem : m.session.machineID ∈ c.machines.map fun machine => machine.session.machineID :=
        List.mem_map.2 ⟨m, hperm.mem_iff.1 hm, rfl⟩
      exact h.counted.subset (hcount.mem hmem)
    · have herr' : c.errors = [] := herr
      have hall := (h.complete herr').mem_iff.2 hkey
      rw [Collection.accounted, h.idle herr' hidle, hidle] at hall
      obtain ⟨m, hm, hmid⟩ := List.mem_map.1 (by simpa using hall)
      exact ⟨m, hperm.mem_iff.2 hm, hmid⟩
  · simp at hs

/-- **What holds of every snapshot the gateway emits**, whatever its clients send and however its
tasks are scheduled. -/
theorem Gateway.Emits.collected {g : Gateway} {snapshot : Snapshot} (hg : g.Reachable)
    (h : g.Emits A C replies snapshot) :
    snapshot.Collected A replies (g.pool.map Prod.fst) := by
  obtain ⟨hnd, hadm⟩ := hg.admitted
  obtain ⟨collectionID, startedAtMS, sessions, events, hv4, hle, hperm, hs⟩ := h
  have hkeys := hperm.map Prod.fst
  have hstart : (Collection.listed C startedAtMS g.now collectionID sessions).Sound A replies
      (sessions.map Prod.fst) :=
    Collection.sound_listed hle (hkeys.nodup_iff.2 hnd) fun e he => hadm e (hperm.mem_iff.1 he)
  have hid : ((Collection.listed C startedAtMS g.now collectionID sessions).run A C replies
      events).collectionID ≠ Uuid.nil := by
    rw [(Collection.run_begun _ events).1]
    exact hv4.ne_nil
  have hc := (hstart.run events).collected hid hs
  exact ⟨hc.schema, hc.collectionID_ne, hc.started_le, hc.collected_eq, hc.gathered, hc.nodup,
    fun m hm => hkeys.mem_iff.1 (hc.mem_keys m hm),
    fun herr key hkey => hc.complete herr key (hkeys.mem_iff.2 hkey)⟩

end

end NexusTier
