import NexusTier.Concurrent.Schedule
import NexusTier.ReadModel.Agreement

/-!
# The list of machines in the console

`useTopology.js`: what `fetchPage` does when it starts a request, and when the response comes in or
fails.  Any number of requests may be on their way, for the timer and the buttons do not wait for
one another, and their responses come in any order.

A request takes the cursor along when it starts, and its page goes to the end of the list as it is
when the response comes.  So the list is a start of what the server has as long as each page that is
appended was asked for with the cursor that is the list's own by then (`InStep`), and not otherwise
(`list_gapless_iff`).  A second click on the button before the first page has come is enough to
break it.

What is shown, the state of React, follows the two references at once.

## What is here

* `UseTopology.step`: the hook, event by event, its requests answered from the database of that
  moment.
* `Gapless` and `InStep`: what is wanted of a list, and of a page that is appended.
* `gapless_append_iff` and `gapless_step_iff`: for one page, and for one event.
* `list_gapless_iff`: over every run.
* `shown_run`: React shows what the references hold.
* `second_click_repeats`: a run that breaks the list.

## What is left out

`updatedAt`, the text of a request and the text of an error but for its status.  Requests are never
aborted, as in the source.
-/

set_option autoImplicit false

namespace NexusTier

open Relational ReadModel Concurrent

namespace Webui

/-! ## The hook -/

/-- What the hook holds for the page. -/
structure TopologyData where
  machines : List ReadModel.Machine
  latestCollection : Option CollectionSummary
  latestErrors : List CollectionError
  hasMore : Bool
deriving DecidableEq

inductive Status where
  | connecting
  | online
  | offline
deriving DecidableEq

/-- A call of `fetchPage` that waits for its response. -/
structure PageRequest where
  append : Bool
  /-- The parameter `cursor`, if it is set. -/
  cursor : Option Uuid
deriving DecidableEq

/-- `useTopology`, under one filter. -/
structure UseTopology where
  data : Option TopologyData
  status : Status
  error : Option String
  loading : Bool
  cursorRef : Option Uuid
  machinesRef : List ReadModel.Machine
  requests : List PageRequest
deriving DecidableEq

/-- What can happen to it. -/
inductive HookEvent where
  /-- The timer or the button calls `refresh`. -/
  | refresh
  /-- The button calls `loadMore`. -/
  | loadMore
  /-- The response to the `i`-th of the requests comes in; the server made it at time `now`. -/
  | arrive (i : Nat) (now : Timestamp)
  /-- The `i`-th of the requests fails. -/
  | fail (i : Nat) (message : String)

/-- The query of a request: `limit` is 200. -/
def pageQuery (activeFilter : Option Bool) (cursor : Option Uuid) : TopologyQuery :=
  ⟨activeFilter, none, cursor, 200⟩

namespace UseTopology

def start : UseTopology := ⟨none, .connecting, none, false, none, [], []⟩

/-- `fetchPage`, up to the request. -/
def fetchPage (append : Bool) (s : UseTopology) : UseTopology :=
  { s with
    loading := true
    requests := s.requests ++ [⟨append, if append then s.cursorRef else none⟩] }

/-- The rest of it, when there is a page. -/
def receive (append : Bool) (page : TopologyPage) (s : UseTopology) : UseTopology :=
  let machines := if append then s.machinesRef ++ page.machines else page.machines
  { s with
    data := some ⟨machines, page.latestCollection, page.latestErrors, page.nextCursor.isSome⟩
    status := .online
    error := none
    loading := false
    cursorRef := page.nextCursor
    machinesRef := machines }

/-- The `catch` clause. -/
def caught (message : String) (s : UseTopology) : UseTopology :=
  { s with
    status := .offline
    error := some message
    loading := false }

/-- One event.  The server answers from `db`. -/
def step (db : Db) (activeFilter : Option Bool) (s : UseTopology) : HookEvent → UseTopology
  | .refresh => s.fetchPage false
  | .loadMore => s.fetchPage true
  | .arrive i now =>
    match s.requests[i]? with
    | none => s
    | some request =>
      let s := { s with
        requests := s.requests.eraseIdx i }
      match currentTopology now (pageQuery activeFilter request.cursor) db with
      | .ok page => s.receive request.append page
      | .error _ => s.caught "HTTP 503"
  | .fail i message =>
    match s.requests[i]? with
    | none => s
    | some _ =>
      { s with
        requests := s.requests.eraseIdx i }.caught message

/-- Events, one after the other. -/
def run (db : Db) (activeFilter : Option Bool) (events : List HookEvent) : UseTopology :=
  events.foldl (step db activeFilter) start

end UseTopology

/-! ## What the list should be -/

/-- The machines the server has, in the order of their ids. -/
def matching (db : Db) (activeFilter : Option Bool) : List ReadModel.Machine :=
  (machineRows (pageQuery activeFilter none) db).map (nestedMachine activeFilter db)

/-- The list is a start of what the server has, and the cursor is its end if there is more. -/
structure Gapless (all : List ReadModel.Machine) (s : UseTopology) : Prop where
  held : s.machinesRef <+: all
  cursor : s.cursorRef =
    if s.machinesRef.length < all.length then s.machinesRef.getLast?.map Machine.machineID else none

/-- A page that is appended was asked for with the cursor of the list, and without one only if the
list is empty. -/
def InStep (s : UseTopology) : HookEvent → Prop
  | .refresh => True
  | .loadMore => True
  | .arrive i _ => ∀ request ∈ s.requests[i]?, request.append = true →
    request.cursor = s.cursorRef ∧ (request.cursor = none → s.machinesRef = [])
  | .fail _ _ => True

instance InStep.decidable (s : UseTopology) : (event : HookEvent) → Decidable (InStep s event)
  | .refresh => inferInstanceAs (Decidable True)
  | .loadMore => inferInstanceAs (Decidable True)
  | .arrive i _ => inferInstanceAs (Decidable (∀ request ∈ s.requests[i]?, request.append = true →
    request.cursor = s.cursorRef ∧ (request.cursor = none → s.machinesRef = [])))
  | .fail _ _ => inferInstanceAs (Decidable True)

/-- Every page that is appended in the run is in step. -/
def RunInStep (db : Db) (activeFilter : Option Bool) (events : List HookEvent) : Prop :=
  ∀ before event, before ++ [event] <+: events →
    InStep (UseTopology.run db activeFilter before) event

/-- Cursors come from the server: each leads to some position. -/
structure Asked (all : List ReadModel.Machine) (s : UseTopology) : Prop where
  cursor : ∃ n, Leads Machine.machineID all s.cursorRef n
  requests : ∀ request ∈ s.requests, ∃ n, Leads Machine.machineID all request.cursor n
  first : ∀ request ∈ s.requests, request.append = false → request.cursor = none

/-- What is shown is the list, and the button if there is a cursor. -/
def Shown (s : UseTopology) : Prop :=
  ∀ data ∈ s.data, data.machines = s.machinesRef ∧ data.hasMore = s.cursorRef.isSome

variable {db : Db} {activeFilter : Option Bool} {s : UseTopology} {all : List ReadModel.Machine}

theorem pairwise_matching (db : Db) (activeFilter : Option Bool) :
    (matching db activeFilter).Pairwise fun a b => a.machineID < b.machineID :=
  List.pairwise_map.2 (pairwise_machineRows _ db)

/-- The server answers with the page to which the cursor leads. -/
theorem currentTopology_page (hdb : DbReadable db) (now : Timestamp) {cursor : Option Uuid} {n : Nat}
    (h : Leads Machine.machineID (matching db activeFilter) cursor n) :
    ∃ page, currentTopology now (pageQuery activeFilter cursor) db = .ok page ∧
      page.machines = ((matching db activeFilter).drop n).take 200 ∧
      page.nextCursor = cursorAfter Machine.machineID (matching db activeFilter) (n + 200) := by
  have hpage : page Machine.machineID 200 cursor (matching db activeFilter) = _ :=
    page_of_leads (pairwise_matching db activeFilter) (by decide) h
  rw [matching, page_map fun _ => rfl] at hpage
  exact ⟨_, currentTopology_eq hdb now _, congrArg Prod.fst hpage, congrArg Prod.snd hpage⟩

/-! ### Requests and responses -/

theorem asked_start : Asked all .start :=
  ⟨⟨0, leads_none⟩, fun _ h => absurd h List.not_mem_nil, fun _ h => absurd h List.not_mem_nil⟩

theorem Asked.fetchPage (h : Asked all s) (append : Bool) : Asked all (s.fetchPage append) := by
  refine ⟨h.cursor, fun request hr => ?_, fun request hr happend => ?_⟩
  · rcases List.mem_append.1 hr with hr | hr
    · exact h.requests request hr
    · obtain rfl := List.mem_singleton.1 hr
      cases append with
      | false => exact ⟨0, leads_none⟩
      | true => exact h.cursor
  · rcases List.mem_append.1 hr with hr | hr
    · exact h.first request hr happend
    · obtain rfl := List.mem_singleton.1 hr
      obtain rfl : append = false := happend
      rfl

/-- A request that is answered, or fails, is taken out. -/
theorem Asked.eraseIdx (h : Asked all s) (i : Nat) :
    Asked all { s with requests := s.requests.eraseIdx i } :=
  ⟨h.cursor, fun request hr => h.requests request (List.mem_of_mem_eraseIdx hr),
    fun request hr => h.first request (List.mem_of_mem_eraseIdx hr)⟩

theorem Asked.caught (h : Asked all s) (message : String) : Asked all (s.caught message) :=
  ⟨h.cursor, h.requests, h.first⟩

theorem Asked.receive (h : Asked all s) {page : TopologyPage} {n : Nat}
    (hnext : page.nextCursor = cursorAfter Machine.machineID all n) (append : Bool) :
    Asked all (s.receive append page) := by
  refine ⟨?_, h.requests, h.first⟩
  show ∃ m, Leads Machine.machineID all page.nextCursor m
  rw [hnext]
  exact exists_leads _ _ n

/-- An event, seen by the list: a page is put in, or it stays as it is. -/
theorem step_cases (hdb : DbReadable db) (h : Asked (matching db activeFilter) s)
    (event : HookEvent) :
    (∃ i now request page n, event = .arrive i now ∧ s.requests[i]? = some request ∧
      Leads Machine.machineID (matching db activeFilter) request.cursor n ∧
      page.machines = ((matching db activeFilter).drop n).take 200 ∧
      page.nextCursor = cursorAfter Machine.machineID (matching db activeFilter) (n + 200) ∧
      s.step db activeFilter event = { s with
        requests := s.requests.eraseIdx i }.receive request.append page) ∨
    (InStep s event ∧ Asked (matching db activeFilter) (s.step db activeFilter event) ∧
      (s.step db activeFilter event).machinesRef = s.machinesRef ∧
      (s.step db activeFilter event).cursorRef = s.cursorRef ∧
      (s.step db activeFilter event).data = s.data) := by
  cases event with
  | refresh => exact .inr ⟨trivial, h.fetchPage false, rfl, rfl, rfl⟩
  | loadMore => exact .inr ⟨trivial, h.fetchPage true, rfl, rfl, rfl⟩
  | arrive i now =>
    cases hr : s.requests[i]? with
    | none =>
      have hstep : s.step db activeFilter (.arrive i now) = s := by simp only [UseTopology.step, hr]
      rw [hstep]
      exact .inr ⟨by simp [InStep, hr], h, rfl, rfl, rfl⟩
    | some request =>
      obtain ⟨n, hn⟩ := h.requests request (List.mem_of_getElem? hr)
      obtain ⟨page, hpage, hmachines, hnext⟩ := currentTopology_page hdb now hn
      refine .inl ⟨i, now, request, page, n, rfl, hr, hn, hmachines, hnext, ?_⟩
      simp only [UseTopology.step, hr, hpage]
  | fail i message =>
    cases hr : s.requests[i]? with
    | none =>
      have hstep : s.step db activeFilter (.fail i message) = s := by
        simp only [UseTopology.step, hr]
      rw [hstep]
      exact .inr ⟨trivial, h, rfl, rfl, rfl⟩
    | some request =>
      have hstep : s.step db activeFilter (.fail i message) = { s with
          requests := s.requests.eraseIdx i }.caught message := by
        simp only [UseTopology.step, hr]
      rw [hstep]
      exact .inr ⟨trivial, (h.eraseIdx i).caught message, rfl, rfl, rfl⟩

theorem Asked.step (hdb : DbReadable db) (h : Asked (matching db activeFilter) s)
    (event : HookEvent) : Asked (matching db activeFilter) (s.step db activeFilter event) := by
  obtain ⟨i, _, request, page, n, -, -, -, -, hnext, he⟩ | ⟨-, hstep, -⟩ := step_cases hdb h event
  · rw [he]
    exact (h.eraseIdx i).receive hnext request.append
  · exact hstep

theorem Shown.step (hdb : DbReadable db) (ha : Asked (matching db activeFilter) s) (h : Shown s)
    (event : HookEvent) : Shown (s.step db activeFilter event) := by
  obtain ⟨i, _, request, page, n, -, -, -, -, -, he⟩ | ⟨-, -, hmachines, hcursor, hdata⟩ :=
    step_cases hdb ha event
  · rw [he]
    rintro _ ⟨⟩
    exact ⟨rfl, rfl⟩
  · rw [Shown, hdata, hmachines, hcursor]
    exact h

/-! ### The list -/

theorem gapless_start : Gapless all .start := ⟨List.nil_prefix, (ite_self none).symm⟩

theorem gapless_iff : Gapless all s ↔ s.machinesRef <+: all ∧
    s.cursorRef = cursorAfter Machine.machineID all s.machinesRef.length := by
  constructor
  · rintro ⟨hheld, hcursor⟩
    rw [hcursor, cursorAfter, ← List.prefix_iff_eq_take.1 hheld]
    exact ⟨hheld, rfl⟩
  · rintro ⟨hheld, hcursor⟩
    rw [cursorAfter, ← List.prefix_iff_eq_take.1 hheld] at hcursor
    exact ⟨hheld, hcursor⟩

/-- The first `n` machines and the cursor after them. -/
theorem gapless_take {n : Nat} (hmachines : s.machinesRef = all.take n)
    (hcursor : s.cursorRef = cursorAfter Machine.machineID all n) : Gapless all s := by
  refine gapless_iff.2 ⟨hmachines ▸ List.take_prefix n all, ?_⟩
  rw [hcursor, hmachines, List.length_take, cursorAfter, cursorAfter]
  by_cases hlt : n < all.length
  · rw [Nat.min_eq_left hlt.le]
  · rw [Nat.min_eq_right (Nat.not_lt.1 hlt), if_neg hlt, if_neg (lt_irrefl _)]

/-- A page in the place of the list. -/
theorem gapless_replace {page : TopologyPage} {n : Nat} (hzero : n = 0)
    (hmachines : page.machines = (all.drop n).take 200)
    (hnext : page.nextCursor = cursorAfter Machine.machineID all (n + 200)) :
    Gapless all (s.receive false page) := by
  subst hzero
  exact gapless_take hmachines hnext

/-- **A page at the end of the list continues it exactly if it was asked for with the cursor of the
list.** -/
theorem gapless_append_iff (h : Gapless all s)
    (hall : all.Pairwise fun a b => a.machineID < b.machineID) {page : TopologyPage} {n : Nat}
    {cursor : Option Uuid} (hn : Leads Machine.machineID all cursor n)
    (hmachines : page.machines = (all.drop n).take 200)
    (hnext : page.nextCursor = cursorAfter Machine.machineID all (n + 200)) :
    Gapless all (s.receive true page) ↔
      cursor = s.cursorRef ∧ (cursor = none → s.machinesRef = []) := by
  obtain ⟨hheld, hcursor⟩ := gapless_iff.1 h
  have htake : s.machinesRef = all.take s.machinesRef.length := List.prefix_iff_eq_take.1 hheld
  have hle : s.machinesRef.length ≤ all.length := hheld.length_le
  have hnd : all.Nodup := hall.imp fun hab => ne_of_apply_ne Machine.machineID hab.ne
  constructor
  · intro hnew
    have happend : all.take s.machinesRef.length ++ (all.drop n).take 200 <+: all := by
      rw [← htake, ← hmachines]
      exact hnew.held
    have hsame : s.machinesRef.length = n := by
      by_cases hnil : all = []
      · subst hnil
        have hzero : n = 0 := hn.lt.resolve_right (Nat.not_lt_zero n)
        rw [hzero]
        simpa using hle
      · have hlt : n < all.length :=
          hn.lt.elim (fun hzero => hzero ▸ List.length_pos_iff.2 hnil) id
        exact eq_of_append_prefix hnd hle hlt (by decide) happend
    refine ⟨by rw [hn.cursor_eq, hcursor, hsame], fun hnone => List.length_eq_zero_iff.1 ?_⟩
    rw [hsame, hn.eq_none_iff.1 hnone]
  · rintro ⟨hsame, hnil⟩
    -- both lead to the same position
    have hlength : n = s.machinesRef.length := by
      cases hc : cursor with
      | none => rw [hn.eq_none_iff.1 hc, hnil hc, List.length_nil]
      | some k => exact hn.unique hall (hsame.trans hcursor) (hc ▸ Option.some_ne_none k)
    refine gapless_take (n := n + 200) ?_ hnext
    show s.machinesRef ++ page.machines = _
    rw [hmachines, htake, ← hlength, ← List.take_add]

/-- **One event.** -/
theorem gapless_step_iff (hdb : DbReadable db) (ha : Asked (matching db activeFilter) s)
    (h : Gapless (matching db activeFilter) s) (event : HookEvent) :
    Gapless (matching db activeFilter) (s.step db activeFilter event) ↔ InStep s event := by
  obtain ⟨i, now, request, page, n, rfl, hr, hn, hmachines, hnext, he⟩ |
    ⟨hin, -, hmachines, hcursor, -⟩ := step_cases hdb ha event
  · rw [he]
    have hin : InStep s (.arrive i now) ↔ (request.append = true →
        request.cursor = s.cursorRef ∧ (request.cursor = none → s.machinesRef = [])) := by
      simp [InStep, hr]
    rw [hin]
    cases happend : request.append with
    | false =>
      have hzero : n = 0 :=
        hn.eq_none_iff.1 (ha.first request (List.mem_of_getElem? hr) happend)
      simpa using gapless_replace hzero hmachines hnext
    | true =>
      have hiff := gapless_append_iff (s := { s with
        requests := s.requests.eraseIdx i }) ⟨h.held, h.cursor⟩ (pairwise_matching db activeFilter)
          hn hmachines hnext
      rw [hiff]
      simp
  · refine ⟨fun _ => hin, fun _ => gapless_iff.2 ?_⟩
    rw [hmachines, hcursor]
    exact gapless_iff.1 h

/-! ### A run -/

@[simp] theorem run_concat (db : Db) (activeFilter : Option Bool) (events : List HookEvent)
    (event : HookEvent) : UseTopology.run db activeFilter (events ++ [event]) =
      (UseTopology.run db activeFilter events).step db activeFilter event := by
  simp [UseTopology.run]

theorem asked_run (hdb : DbReadable db) (events : List HookEvent) :
    Asked (matching db activeFilter) (UseTopology.run db activeFilter events) := by
  induction events using List.reverseRecOn with
  | nil => exact asked_start
  | append_singleton events event ih =>
    rw [run_concat]
    exact ih.step hdb event

/-- **What is shown is always the list.** -/
theorem shown_run (hdb : DbReadable db) (events : List HookEvent) :
    Shown (UseTopology.run db activeFilter events) := by
  induction events using List.reverseRecOn with
  | nil => exact fun _ h => absurd h (Option.not_mem_none _)
  | append_singleton events event ih =>
    rw [run_concat]
    exact ih.step hdb (asked_run hdb events) event

theorem runInStep_iff {events : List HookEvent} :
    RunInStep db activeFilter events ↔
      Throughout (UseTopology.step db activeFilter) InStep .start events :=
  throughout_iff_prefixes.symm

/-- **The list is a gapless start of what the server has, all the time, exactly if every page that
is appended was asked for with the cursor that the list has by then.** -/
theorem list_gapless_iff {E : Encoding} (hdb : Reachable E db) (activeFilter : Option Bool)
    (events : List HookEvent) :
    (∀ before, before <+: events →
      Gapless (matching db activeFilter) (UseTopology.run db activeFilter before)) ↔
      RunInStep db activeFilter events := by
  have hread := readable_of_reachable hdb
  have hkeep : ∀ s event, Asked (matching db activeFilter) s →
      Asked (matching db activeFilter) (UseTopology.step db activeFilter s event) :=
    fun _ event h => h.step hread event
  have hstep : ∀ s event, Asked (matching db activeFilter) s → Gapless (matching db activeFilter) s →
      (Gapless (matching db activeFilter) (UseTopology.step db activeFilter s event) ↔
        InStep s event) :=
    fun _ event hasked h => gapless_step_iff hread hasked h event
  rw [runInStep_iff]
  exact prefixes_iff_throughout hkeep hstep asked_start gapless_start

/-! ### Two requests that overlap -/

/-- The database after `sampleReport`: machine `a1`. -/
def reported : Db := execAll sampleEncoding [.ingest 5000000 sampleReport] Db.empty

/-- The timer asks for the list and the button for more of it, and the answers change places. -/
def outOfOrder : List HookEvent := [.refresh, .loadMore, .arrive 1 7000000, .arrive 0 7000000]

theorem list_gapless_iff_outOfOrder :
    (∀ before, before <+: outOfOrder →
      Gapless (matching reported (some true)) (UseTopology.run reported (some true) before)) ∧
      (UseTopology.run reported (some true) outOfOrder).machinesRef.map Machine.machineID =
        [0xa1] := by
  refine ⟨(list_gapless_iff ⟨_, rfl⟩ (some true) outOfOrder).2 ?_, by decide +kernel⟩
  exact runInStep_iff.2 ⟨by decide +kernel, by decide +kernel, by decide +kernel, by decide +kernel,
    trivial⟩

/-- A machine of which little is known. -/
def silentMachine (machineID : Uuid) : NexusTier.Machine :=
  ⟨⟨machineID, "", "", "", "", 500, 900, some [], none⟩, 1500, some [], some []⟩

/-- 201 machines: one more than a page holds. -/
def crowd : Snapshot :=
  sampleSnapshot 0xc1 1000 2000
    ((List.range 201).map fun i => silentMachine (Fin.ofNat (2 ^ 128) (i + 1)))

def crowdEncoding : Encoding :=
  .recorded
    [(crowd.payload,
        .ofFin 0xefa1dc61ffe1f3f2a3f30a3b5d12c6326f20f0925ba5a31e9c051dfa91fecc93)]

def crowdDb : Db := execAll crowdEncoding [.ingest 5000000 crowd] Db.empty

/-- The button, clicked again before the second page has come. -/
def twoClicks : List HookEvent :=
  [.refresh, .arrive 0 7000000, .loadMore, .loadMore, .arrive 0 7000000, .arrive 0 7000000]

/-- **The second click shows the last machine twice.** -/
theorem second_click_repeats :
    (UseTopology.run crowdDb (some true) twoClicks).machinesRef.map Machine.machineID =
        (List.range 201).map (fun i => Fin.ofNat (2 ^ 128) (i + 1)) ++ [201] ∧
      ¬ Gapless (matching crowdDb (some true)) (UseTopology.run crowdDb (some true) twoClicks) := by
  have hids : (UseTopology.run crowdDb (some true) twoClicks).machinesRef.map Machine.machineID =
      (List.range 201).map (fun i => Fin.ofNat (2 ^ 128) (i + 1)) ++ [201] := by decide +kernel
  refine ⟨hids, fun h => ?_⟩
  have hnd : ((UseTopology.run crowdDb (some true) twoClicks).machinesRef.map
      Machine.machineID).Nodup :=
    (List.pairwise_map.2 (pairwise_matching crowdDb (some true))).imp ne_of_lt |>.sublist
      (h.held.sublist.map _)
  rw [hids] at hnd
  exact absurd hnd (by decide +kernel)

end Webui

end NexusTier
