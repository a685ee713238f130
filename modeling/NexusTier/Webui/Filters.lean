import NexusTier.Concurrent.Schedule
import NexusTier.Webui.UseTopology

/-!
# Choosing another filter

`useTopology.js` once more, now with the filter: `setActiveFilter` makes a new `fetchPage`, one
effect asks for the first page with it, and a second one forgets the list and the cursor.  The
requests that are on their way stay on their way, and their responses are put in like any other
(`receive` does not look at the filter).

To say which filter a machine or a cursor comes from, each carries the filter of the request that
returned it; the code knows nothing of that (`erase_step`).  What is shown is current (`Current`)
exactly as long as no response to a request of another filter gets in the way (`current_iff`), and
a slow response is enough for that.

## What is here

* `FilteredTopology` and its `step`: the hook with the filter, and with the sources that only this
  description has.
* `FilteredTopology.Current` and `Undisturbed`: what is wanted of a state, and of an event.
* `FilteredTopology.current_iff`: over every run, the one exactly if the other.
* `slow_response_shown`: a run in which it fails.
* `FilteredTopology.erase_step`: under one filter this is `UseTopology`.

## What is left out

The texts of filters and buttons, and the interval timer, whose refreshes are events like any other.
-/

set_option autoImplicit false

namespace NexusTier

open Relational ReadModel Concurrent

namespace Webui

/-! ## The hook, with its filter -/

/-- A value, and the filter of the request that returned it. -/
structure Sourced (α : Type) where
  filter : Option Bool
  value : α
deriving DecidableEq

/-- `TopologyData`, of machines with their source. -/
structure SourcedData where
  machines : List (Sourced ReadModel.Machine)
  latestCollection : Option CollectionSummary
  latestErrors : List CollectionError
  hasMore : Bool
deriving DecidableEq

/-- A call of `fetchPage`, with the filter that it was made for. -/
structure FilteredRequest extends PageRequest where
  activeFilter : Option Bool
deriving DecidableEq

structure FilteredTopology where
  activeFilter : Option Bool
  data : Option SourcedData
  status : Status
  error : Option String
  loading : Bool
  cursorRef : Option (Sourced Uuid)
  machinesRef : List (Sourced ReadModel.Machine)
  requests : List FilteredRequest
  /-- Has a response to a request under `activeFilter` been put in since it was chosen?  The code
  does not keep this either. -/
  applied : Bool
deriving DecidableEq

inductive FilterEvent where
  | refresh
  | loadMore
  /-- The user chooses a filter. -/
  | changeFilter (value : Option Bool)
  /-- The response to the `i`-th of the requests comes in. -/
  | arrive (i : Nat) (page : TopologyPage)
  | fail (i : Nat) (message : String)

namespace FilteredTopology

def start : FilteredTopology := ⟨some true, none, .connecting, none, false, none, [], [], false⟩

@[inherit_doc UseTopology.fetchPage]
def fetchPage (append : Bool) (s : FilteredTopology) : FilteredTopology :=
  { s with
    loading := true
    requests := s.requests ++
      [⟨⟨append, if append then s.cursorRef.map Sourced.value else none⟩, s.activeFilter⟩] }

@[inherit_doc UseTopology.receive]
def receive (request : FilteredRequest) (page : TopologyPage) (s : FilteredTopology) :
    FilteredTopology :=
  let returned := page.machines.map (Sourced.mk request.activeFilter)
  let machines := if request.append then s.machinesRef ++ returned else returned
  { s with
    data := some ⟨machines, page.latestCollection, page.latestErrors, page.nextCursor.isSome⟩
    status := .online
    error := none
    loading := false
    cursorRef := page.nextCursor.map (Sourced.mk request.activeFilter)
    machinesRef := machines
    applied := s.applied || decide (request.activeFilter = s.activeFilter) }

@[inherit_doc UseTopology.caught]
def caught (message : String) (s : FilteredTopology) : FilteredTopology :=
  { s with
    status := .offline
    error := some message
    loading := false }

/-- `setActiveFilter`, and the effects that it sets off: the first page is asked for, then the
references are reset. -/
def changeFilter (value : Option Bool) (s : FilteredTopology) : FilteredTopology :=
  if value = s.activeFilter then s
  else
    let s := { s with
      activeFilter := value
      applied := false }.fetchPage false
    { s with
      cursorRef := none
      machinesRef := [] }

/-- The `i`-th request is taken out. -/
def answered (i : Nat) (s : FilteredTopology) : FilteredTopology :=
  { s with
    requests := s.requests.eraseIdx i }

/-- One event. -/
def step (s : FilteredTopology) : FilterEvent → FilteredTopology
  | .refresh => s.fetchPage false
  | .loadMore => s.fetchPage true
  | .changeFilter value => s.changeFilter value
  | .arrive i page =>
    match s.requests[i]? with
    | none => s
    | some request => (s.answered i).receive request page
  | .fail i message =>
    match s.requests[i]? with
    | none => s
    | some _ => (s.answered i).caught message

/-- Events, one after the other. -/
def run (events : List FilterEvent) : FilteredTopology := events.foldl step start

end FilteredTopology

/-! ## What should be shown -/

/-- Once a response under the filter has been put in, only machines from such responses are shown;
and the cursor is never from another one. -/
structure Current (s : FilteredTopology) : Prop where
  machines : s.applied = true → ∀ data ∈ s.data, ∀ m ∈ data.machines, m.filter = s.activeFilter
  cursor : ∀ c ∈ s.cursorRef, c.filter = s.activeFilter

/-- A response to a request of another filter brings no cursor, and no machines once the filter has
a response of its own; and no page goes to the end of a list with machines of another filter. -/
def Undisturbed (s : FilteredTopology) : FilterEvent → Prop
  | .arrive i page => ∀ request ∈ s.requests[i]?,
    if request.activeFilter = s.activeFilter then
      request.append = true → ∀ m ∈ s.machinesRef, m.filter = s.activeFilter
    else page.nextCursor = none ∧ (s.applied = true → page.machines = [])
  | _ => True

/-- What is shown is the list. -/
def Held (s : FilteredTopology) : Prop :=
  s.applied = true → s.data.map SourcedData.machines = some s.machinesRef

variable {s : FilteredTopology}

/-- An event, seen by the list: a page is put in, the filter changes, or it stays as it is. -/
theorem FilteredTopology.step_cases (s : FilteredTopology) (event : FilterEvent) :
    (∃ i page request, event = .arrive i page ∧ s.requests[i]? = some request ∧
      s.step event = (s.answered i).receive request page) ∨
    Undisturbed s event ∧ ((s.step event).applied = false ∧ (s.step event).cursorRef = none ∨
      (s.step event).activeFilter = s.activeFilter ∧ (s.step event).data = s.data ∧
        (s.step event).cursorRef = s.cursorRef ∧ (s.step event).machinesRef = s.machinesRef ∧
        (s.step event).applied = s.applied) := by
  cases event with
  | refresh => exact .inr ⟨trivial, .inr ⟨rfl, rfl, rfl, rfl, rfl⟩⟩
  | loadMore => exact .inr ⟨trivial, .inr ⟨rfl, rfl, rfl, rfl, rfl⟩⟩
  | changeFilter value =>
    refine .inr ⟨trivial, ?_⟩
    simp only [step, changeFilter]
    split
    · exact .inr ⟨rfl, rfl, rfl, rfl, rfl⟩
    · exact .inl ⟨rfl, rfl⟩
  | arrive i page =>
    cases hr : s.requests[i]? with
    | none =>
      have hstep : s.step (.arrive i page) = s := by simp only [step, hr]
      rw [hstep]
      exact .inr ⟨by simp [Undisturbed, hr], .inr ⟨rfl, rfl, rfl, rfl, rfl⟩⟩
    | some request => exact .inl ⟨i, page, request, rfl, hr, by simp only [step, hr]⟩
  | fail i message =>
    refine .inr ⟨trivial, .inr ?_⟩
    simp only [step]
    split
    · exact ⟨rfl, rfl, rfl, rfl, rfl⟩
    · exact ⟨rfl, rfl, rfl, rfl, rfl⟩

theorem Held.step (h : Held s) (event : FilterEvent) : Held (s.step event) := by
  obtain ⟨i, page, request, -, -, he⟩ | ⟨-, ⟨happlied, -⟩ | ⟨-, hdata, -, hmachines, happlied⟩⟩ :=
    s.step_cases event
  · rw [he]
    exact fun _ => rfl
  · exact fun h => absurd (happlied.symm.trans h) Bool.false_ne_true
  · rw [Held, hdata, hmachines, happlied]
    exact h

section Receive

variable {i : Nat} {request : FilteredRequest} {page : TopologyPage}

/-- A page of the current filter goes to what the list had, unless it starts it anew. -/
theorem current_receive_same (hsame : request.activeFilter = s.activeFilter) :
    Current ((s.answered i).receive request page) ↔
      (request.append = true → ∀ m ∈ s.machinesRef, m.filter = s.activeFilter) := by
  constructor
  · intro hnew happend m hm
    refine hnew.machines (by simp [FilteredTopology.receive, hsame, FilteredTopology.answered])
      _ rfl m ?_
    rw [if_pos happend]
    exact List.mem_append_left _ hm
  · intro hold
    constructor
    · rintro - _ ⟨⟩ m hm
      have hreturned : m ∈ page.machines.map (Sourced.mk request.activeFilter) →
          m.filter = s.activeFilter := by
        intro hmem
        obtain ⟨_, -, rfl⟩ := List.mem_map.1 hmem
        exact hsame
      cases happend : request.append with
      | false =>
        rw [happend, if_neg Bool.false_ne_true] at hm
        exact hreturned hm
      | true =>
        rw [happend, if_pos rfl] at hm
        exact (List.mem_append.1 hm).elim (hold happend m) hreturned
    · intro c hc
      obtain ⟨_, -, rfl⟩ := Option.map_eq_some_iff.1 hc
      exact hsame

/-- A page of another filter does no harm if there is nothing in it. -/
theorem current_receive_other (hother : request.activeFilter ≠ s.activeFilter)
    (hlist : s.applied = true → ∀ m ∈ s.machinesRef, m.filter = s.activeFilter) :
    Current ((s.answered i).receive request page) ↔
      page.nextCursor = none ∧ (s.applied = true → page.machines = []) := by
  have happlied : ((s.answered i).receive request page).applied = s.applied := by
    simp [FilteredTopology.receive, FilteredTopology.answered, hother]
  constructor
  · intro hnew
    constructor
    · cases hnext : page.nextCursor with
      | none => rfl
      | some id =>
        refine absurd (hnew.cursor ⟨request.activeFilter, id⟩ ?_) hother
        simp [FilteredTopology.receive, hnext]
    · intro ha
      refine List.eq_nil_iff_forall_not_mem.2 fun machine hmachine => hother ?_
      refine hnew.machines (happlied.trans ha) _ rfl ⟨request.activeFilter, machine⟩ ?_
      have hreturned := List.mem_map_of_mem (f := Sourced.mk request.activeFilter) hmachine
      split
      · exact List.mem_append_right _ hreturned
      · exact hreturned
  · rintro ⟨hnext, hnil⟩
    constructor
    · rw [happlied]
      rintro ha _ ⟨⟩ m hm
      rw [hnil ha, List.map_nil, List.append_nil] at hm
      split at hm
      · exact hlist ha m hm
      · exact absurd hm List.not_mem_nil
    · simp [FilteredTopology.receive, hnext]

end Receive

/-- **One event.** -/
theorem current_step_iff (hheld : Held s) (h : Current s) (event : FilterEvent) :
    Current (s.step event) ↔ Undisturbed s event := by
  obtain ⟨i, page, request, rfl, hr, he⟩ |
    ⟨hquiet, ⟨happlied, hcursor⟩ | ⟨hfilter, hdata, hcursor, -, happlied⟩⟩ := s.step_cases event
  · have hlist : s.applied = true → ∀ m ∈ s.machinesRef, m.filter = s.activeFilter := by
      intro ha
      obtain ⟨data, hdata, hmachines⟩ := Option.map_eq_some_iff.1 (hheld ha)
      exact hmachines ▸ h.machines ha data hdata
    rw [he]
    by_cases hsame : request.activeFilter = s.activeFilter
    · rw [current_receive_same hsame]
      simp [Undisturbed, hr, hsame]
    · rw [current_receive_other hsame hlist]
      simp [Undisturbed, hr, hsame]
  · refine ⟨fun _ => hquiet, fun _ => ⟨fun ha => ?_, fun c hc => ?_⟩⟩
    · exact absurd (happlied.symm.trans ha) Bool.false_ne_true
    · rw [hcursor] at hc
      exact absurd hc (Option.not_mem_none c)
  · refine ⟨fun _ => hquiet, fun _ => ⟨?_, ?_⟩⟩
    · rw [happlied, hdata, hfilter]
      exact h.machines
    · rw [hcursor, hfilter]
      exact h.cursor

/-- **What is shown is current all the time exactly if no response of another filter gets in the
way.** -/
theorem current_iff (events : List FilterEvent) :
    (∀ before, before <+: events → Current (FilteredTopology.run before)) ↔
      Throughout FilteredTopology.step Undisturbed .start events := by
  have hheld : Held .start := fun h => absurd h Bool.false_ne_true
  have hcurrent : Current .start :=
    ⟨fun h => absurd h Bool.false_ne_true, fun c hc => absurd hc (Option.not_mem_none c)⟩
  have hkeep : ∀ s event, Held s → Held (FilteredTopology.step s event) :=
    fun _ event h => h.step event
  have hstep : ∀ s event, Held s → Current s →
      (Current (FilteredTopology.step s event) ↔ Undisturbed s event) :=
    fun _ event hheld h => current_step_iff hheld h event
  exact prefixes_iff_throughout hkeep hstep hheld hcurrent

/-! ### A slow response -/

/-- The machine with this id, as a response may show it. -/
def shownMachine (machineID : Uuid) (active : Bool) : ReadModel.Machine where
  machineID
  remoteURL := ""
  hostname := ""
  easyTierVersion := ""
  reportTime := ""
  connectedAt := 0
  lastHeartbeatAt := 0
  device := none
  active
  disappearedAt := none
  lastObservedAt := 0
  lastCollectionID := 0xc1
  networkInstances := []

def pageOfOne (machineID : Uuid) (active : Bool) : TopologyPage :=
  ⟨7000000, none, [], [shownMachine machineID active], 200, none⟩

/-- The first page of active machines takes so long that the user has the inactive ones before. -/
def slowResponse : List FilterEvent :=
  [.refresh, .changeFilter (some false), .arrive 1 (pageOfOne 0xb1 false),
    .arrive 0 (pageOfOne 0xa1 true)]

/-- **It takes their place**: under the filter for inactive machines the active one is shown. -/
theorem slow_response_shown :
    (FilteredTopology.run slowResponse).activeFilter = some false ∧
      (FilteredTopology.run slowResponse).applied = true ∧
      (FilteredTopology.run slowResponse).data.map (fun data => data.machines.map Sourced.value) =
        some [shownMachine 0xa1 true] ∧
      ¬ Current (FilteredTopology.run slowResponse) := by
  refine ⟨by decide +kernel, by decide +kernel, by decide +kernel, fun h => ?_⟩
  have hfilters : (FilteredTopology.run slowResponse).data.map
      (fun data => data.machines.map Sourced.filter) = some [some true] := by decide +kernel
  obtain ⟨data, hdata, hmachines⟩ := Option.map_eq_some_iff.1 hfilters
  obtain ⟨m, hm, hfilter⟩ := List.mem_map.1 (hmachines ▸ List.mem_singleton_self (some true))
  have hcurrent := h.machines (by decide +kernel) data hdata m hm
  rw [hfilter] at hcurrent
  exact absurd hcurrent (by decide +kernel)

/-! ## Without the sources -/

/-- The hook as it was before. -/
def FilteredTopology.erase (s : FilteredTopology) : UseTopology where
  data := s.data.map fun data =>
    ⟨data.machines.map Sourced.value, data.latestCollection, data.latestErrors, data.hasMore⟩
  status := s.status
  error := s.error
  loading := s.loading
  cursorRef := s.cursorRef.map Sourced.value
  machinesRef := s.machinesRef.map Sourced.value
  requests := s.requests.map FilteredRequest.toPageRequest

/-- What the controller makes of an event: it answers requests from `db`. -/
def answer (db : Db) (s : FilteredTopology) : HookEvent → FilterEvent
  | .refresh => .refresh
  | .loadMore => .loadMore
  | .arrive i now =>
    match s.requests[i]? with
    | none => .fail i ""
    | some request =>
      match currentTopology now (pageQuery request.activeFilter request.cursor) db with
      | .ok page => .arrive i page
      | .error _ => .fail i "HTTP 503"
  | .fail i message => .fail i message

/-- **Under one filter it does what it did before.** -/
theorem FilteredTopology.erase_step (db : Db) {s : FilteredTopology}
    (h : ∀ request ∈ s.requests, request.activeFilter = s.activeFilter) (event : HookEvent) :
    (s.step (answer db s event)).erase = s.erase.step db s.activeFilter event := by
  have hrequest : ∀ i, s.erase.requests[i]? = s.requests[i]?.map FilteredRequest.toPageRequest :=
    fun i => List.getElem?_map
  have herase : ∀ i, (s.answered i).erase = { s.erase with
      requests := s.erase.requests.eraseIdx i } := by
    intro i
    simp [erase, answered, List.eraseIdx_map]
  have hcaught : ∀ message, (s.caught message).erase = s.erase.caught message := fun _ => rfl
  cases event with
  | refresh => simp [answer, step, fetchPage, erase, UseTopology.step, UseTopology.fetchPage]
  | loadMore => simp [answer, step, fetchPage, erase, UseTopology.step, UseTopology.fetchPage]
  | arrive i now =>
    cases hr : s.requests[i]? with
    | none => simp [answer, step, hr, UseTopology.step, hrequest]
    | some request =>
      have hfilter := h request (List.mem_of_getElem? hr)
      simp only [answer, UseTopology.step, hrequest, hr, Option.map_some, ← herase, ← hfilter]
      cases currentTopology now (pageQuery request.activeFilter request.cursor) db with
      | ok page =>
        simp only [step, hr]
        cases happend : request.append <;>
          simp [receive, UseTopology.receive, erase, happend, answered, Function.comp_def]
      | error e =>
        simp only [step, hr]
        rfl
  | fail i message =>
    cases hr : s.requests[i]? with
    | none => simp [answer, step, hr, UseTopology.step, hrequest]
    | some request =>
      simp only [answer, step, hr, UseTopology.step, hrequest, Option.map_some, ← herase]
      rfl

end Webui

end NexusTier
