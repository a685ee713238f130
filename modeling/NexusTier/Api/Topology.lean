import NexusTier.Contract.RoundTrip
import NexusTier.ReadModel.Pages

/-!
# The topology, as it is asked for

`topologyQuery` and the handler `currentTopology` of `api/api.go`.  A request is its query
parameters, of each the first value, which is empty where there is none.

A client follows the cursors by sending the `next_cursor` of a page along with the parameters of
the first request.  The cursor is sent as text, and `topologyQuery_withCursor` says that it arrives;
so such a client is sent pages of the topology as well (`exists_pagesOf_requests`), and what holds of
the pages of the store holds of those that are served.

## What is here

* `Api.topologyQuery`: the parameters of a request, in the order in which they are looked at, with
  the error of the first that cannot be read.
* `Api.currentTopology`: the handler.
* `Api.topologyQuery_withCursor`: a cursor that is sent back is read.
* `Api.exists_pagesOf_requests`: following the cursors over HTTP pages through the topology.

## What is left out

The JSON of a response, and its headers.  Parameters that come twice are read as the first of them,
which is what the standard library returns.
-/

set_option autoImplicit false

open Encoding

namespace NexusTier

open Relational ReadModel

namespace Api

/-- An answer that is an error. -/
structure ApiError where
  status : Nat
  code : String
  message : String
deriving DecidableEq

/-- The value of a query parameter, `url.Values.Get`. -/
abbrev Parameters := String → String

/-- `strconv.ParseBool`. -/
def parseBool (text : String) : Option Bool :=
  if text ∈ ["1", "t", "T", "true", "TRUE", "True"] then some true
  else if text ∈ ["0", "f", "F", "false", "FALSE", "False"] then some false
  else none

/-- `strconv.Atoi`. -/
def atoi (text : String) : Option Int := parseInt (ascii text)

/-- A parameter that is not given leaves its field as it is; one that cannot be read is refused. -/
def parameter {α : Type} (values : Parameters) (name : String) (parse : String → Option α)
    (message : String) : Except String (Option α) :=
  if values name = "" then .ok none
  else
    match parse (values name) with
    | some a => .ok (some a)
    | none => .error message

section

variable (C : Codec)

/-- `topologyQuery`; an error is its message. -/
def topologyQuery (values : Parameters) : Except String TopologyQuery := do
  let active ← parameter values "active" parseBool "active must be true or false"
  let machineID ← parameter values "machine_id" C.parseUuid "machine_id must be a UUID"
  let cursor ← parameter values "cursor" C.parseUuid "cursor must be a UUID"
  let limit ← parameter values "limit"
    (fun text => (atoi text).filter fun limit => 1 ≤ limit ∧ limit ≤ 500)
    "limit must be between 1 and 500"
  return { active, machineID, cursor, limit := limit.getD 100 }

/-- The handler of `GET /v1/topology`. -/
def currentTopology (now : Timestamp) (values : Parameters) (db : Db) :
    Except ApiError TopologyPage := do
  let query ← (topologyQuery C values).mapError fun message => ⟨400, "invalid_query", message⟩
  (ReadModel.currentTopology now query db).mapError fun _ =>
    ⟨503, "topology_unavailable", "current topology is unavailable"⟩

/-- The text of a UUID. -/
def uuidText (id : Uuid) : String :=
  match Json.ofUuid id with
  | .str text => text
  | _ => ""

/-- The parameters of the request for the next page. -/
def withCursor (values : Parameters) : Option Uuid → Parameters
  | none => values
  | some id => Function.update values "cursor" (uuidText id)

/-- Follow the cursors from the first page on, for at most `fuel` pages; the `n`-th is requested at
time `now n` and read from `dbs n`. -/
def followRequests (now : Nat → Timestamp) (values : Parameters) (dbs : Nat → Db) (fuel : Nat) :
    Except ApiError (Option (List (List ReadModel.Machine))) :=
  readPages (fun n cursor => do
    let page ← currentTopology C (now n) (withCursor values cursor) (dbs n)
    return (page.machines, page.nextCursor)) fuel 0 none

end

/-! ## What is accepted -/

variable {C : Codec} {values : Parameters} {query : TopologyQuery}

/-- The limit of a query that is accepted is between 1 and 500. -/
theorem topologyQuery_limit (h : topologyQuery C values = .ok query) :
    1 ≤ query.limit ∧ query.limit ≤ 500 := by
  simp only [topologyQuery, bind, Except.bind, pure, Except.pure] at h
  split at h
  · cases h
  split at h
  · cases h
  split at h
  · cases h
  split at h
  · cases h
  rename_i limit hlimit
  obtain rfl := Except.ok.inj h
  rw [parameter] at hlimit
  split at hlimit
  · obtain rfl := Except.ok.inj hlimit
    simp
  · split at hlimit
    · rename_i n hn
      obtain rfl := Except.ok.inj hlimit
      simpa using (Option.filter_eq_some_iff.1 hn).2
    · cases hlimit

theorem ofUuid_uuidText (id : Uuid) : Json.ofUuid id = .str (uuidText id) := rfl

theorem uuidText_ne (id : Uuid) : uuidText id ≠ "" := by
  intro h
  have hdigits := ofUuid_digits (ofUuid_uuidText id)
  have hlen := length_uuidDigits id
  simp [← hdigits, h] at hlen

theorem parameter_update {α : Type} {name other : String} (hne : name ≠ other) (text : String)
    (parse : String → Option α) (message : String) :
    parameter (Function.update values other text) name parse message =
      parameter values name parse message := by
  rw [parameter, parameter, Function.update_of_ne hne]

/-- **The cursor arrives**: the query of the next page is that of the first, from the cursor on. -/
theorem topologyQuery_withCursor (hC : C.Exact) (hnone : values "cursor" = "")
    (h : topologyQuery C values = .ok query) (cursor : Option Uuid) :
    topologyQuery C (withCursor values cursor) =
      .ok { query with
        cursor } := by
  have hfirst : parameter values "cursor" C.parseUuid "cursor must be a UUID" = .ok none := by
    rw [parameter, if_pos hnone]
  cases cursor with
  | none =>
    rw [withCursor, h]
    simp only [topologyQuery, hfirst, bind, Except.bind, pure, Except.pure] at h
    split at h
    · cases h
    split at h
    · cases h
    split at h
    · cases h
    obtain rfl := Except.ok.inj h
    rfl
  | some id =>
    have hsent : parameter (withCursor values (some id)) "cursor" C.parseUuid
        "cursor must be a UUID" = .ok (some id) := by
      rw [parameter, withCursor, Function.update_self, if_neg (uuidText_ne id),
        hC.uuid id _ (ofUuid_uuidText id)]
    rw [topologyQuery, hsent, withCursor, parameter_update (by decide), parameter_update (by decide),
      parameter_update (by decide)]
    simp only [topologyQuery, hfirst, bind, Except.bind, pure, Except.pure] at h ⊢
    split at h
    · cases h
    split at h
    · cases h
    split at h
    · cases h
    obtain rfl := Except.ok.inj h
    rfl

/-- **What is served is what the store pages through.**  A client that follows the cursors over
HTTP comes to the last page too, and has the pages of the topology as it changed. -/
theorem exists_pagesOf_requests {dbs : Nat → Db} (hC : C.Exact) (hdbs : ∀ n, DbReadable (dbs n))
    (now : Nat → Timestamp) (hnone : values "cursor" = "")
    (h : topologyQuery C values = .ok query) :
    ∃ pages, (∀ fuel, pages.length ≤ fuel →
        followRequests C now values dbs fuel = .ok (some pages)) ∧ PagesOf query dbs pages := by
  refine exists_pagesOf_of_fetch fun n cursor => ?_
  rw [currentTopology, topologyQuery_withCursor hC hnone h]
  simp only [Except.mapError, bind, Except.bind]
  rw [currentTopology_eq (hdbs n)]
  rfl

end Api

end NexusTier
