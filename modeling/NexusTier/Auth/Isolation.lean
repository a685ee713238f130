import NexusTier.Auth.Limiter

/-!
# Clients do not throttle each other

The limiter keeps all clients in one table, and every call of `Allow` sweeps all of it.  So other
clients decide when the bucket of a client disappears, and whether a late `Refund` still finds it.

The client cannot tell.  `LimiterCall.own` is a limiter for it alone, and the simulation compares
the two buckets by what a sweep would leave of them (`live`): an idle bucket is as good as none,
since `Allow` sweeps before it looks and a refund does not make a bucket younger.  Only the refusal
of a full table says something about the others.

## What is here

* `LimiterCall.exec` and `LoginLimiter.trace`: the calls of a run, and what each returns.
* `LimiterCall.own` and `ownAnswers`: the limiter for one client.
* `Alike`: the simulation, kept by the calls of others (`Alike.exec_other`) and of the client
  (`Alike.exec_own`).
* `throttling_isolated`: two runs that agree on one client answer it alike.

## What is left out

Calls that meet a full table.  There the limiter refuses newcomers on account of others, as it says
it does (`RoomFor`).
-/

set_option autoImplicit false

namespace NexusTier

open Relational TokenBucket

/-- A call of the limiter. -/
inductive LimiterCall where
  | allow (client : String)
  | refund (client : String)
deriving DecidableEq

namespace LimiterCall

/-- The client it is made for. -/
def client : LimiterCall → String
  | allow client => client
  | refund client => client

/-- The limiter after a call at time `now`, and what the call returns. -/
def exec (now : Int) (limiter : LoginLimiter) : LimiterCall → Option Bool × LoginLimiter
  | allow client => (some (limiter.allow now client).1, (limiter.allow now client).2)
  | refund client => (none, limiter.refund client)

/-- Does the call meet a table with no room for its client? -/
def saturated (now : Int) (limiter : LoginLimiter) : LimiterCall → Bool
  | allow client => ((limiter.sweepLocked now).entry now client).isNone
  | refund _ => false

end LimiterCall

/-- A call in a run: when it is made, the limiter that it meets, and what it returns. -/
structure LimiterStep where
  now : Int
  call : LimiterCall
  limiter : LoginLimiter
  answer : Option Bool

/-- The calls of a run, each with its time. -/
def LoginLimiter.trace : LoginLimiter → List (Int × LimiterCall) → List LimiterStep
  | _, [] => []
  | limiter, (now, call) :: calls =>
    ⟨now, call, limiter, (call.exec now limiter).1⟩ :: (call.exec now limiter).2.trace calls

/-- The calls of one client. -/
def callsOf (client : String) (calls : List (Int × LimiterCall)) : List (Int × LimiterCall) :=
  calls.filter fun e => e.2.client = client

/-- What `Allow` returns to a client, call by call. -/
def answersTo (client : String) (steps : List LimiterStep) : List Bool :=
  (steps.filter fun step => step.call.client = client).filterMap LimiterStep.answer

/-- The client does not meet a full table. -/
def RoomFor (client : String) (steps : List LimiterStep) : Prop :=
  ∀ step ∈ steps, step.call.client = client → step.call.saturated step.now step.limiter = false

instance (client : String) (steps : List LimiterStep) : Decidable (RoomFor client steps) :=
  inferInstanceAs (Decidable (∀ step ∈ steps, _ → _))

/-! ## A limiter for one client -/

/-- What a sweep leaves of a bucket. -/
def live (now : Int) (bucket : Option Bucket) : Option Bucket :=
  bucket.filter fun entry => !decide (timeSub now entry.lastSeen > limiterSweepAfter)

/-- `Allow` on the bucket that it has found or made. -/
def spendToken (now : Int) (entry : Bucket) : Bool × Bucket :=
  let replenished := seconds (timeSub now entry.lastSeen) / seconds defaultRefill
  let tokens := min (entry.tokens + replenished) defaultBurst
  if tokens < 1 then (false, ⟨tokens, now⟩) else (true, ⟨tokens - 1, now⟩)

/-- `Refund` on the bucket that it has found. -/
def refundToken (entry : Bucket) : Bucket :=
  { entry with tokens := min (entry.tokens + 1) defaultBurst }

/-- The call in a limiter that has no other clients. -/
def LimiterCall.own (now : Int) (bucket : Option Bucket) : LimiterCall → Option Bool × Option Bucket
  | allow _ =>
    let entry := (live now bucket).getD ⟨defaultBurst, now⟩
    (some (spendToken now entry).1, some (spendToken now entry).2)
  | refund _ => (none, (live now bucket).map refundToken)

/-- What it answers to a list of calls. -/
def ownAnswers : Option Bucket → List (Int × LimiterCall) → List Bool
  | _, [] => []
  | bucket, (now, call) :: calls =>
    (call.own now bucket).1.toList ++ ownAnswers (call.own now bucket).2 calls

section

variable {now now' : Int} {b b' : Option Bucket}

@[simp] theorem live_none : live now none = none := rfl

theorem live_some (entry : Bucket) : live now (some entry) =
    if timeSub now entry.lastSeen > limiterSweepAfter then none else some entry := by
  by_cases h : timeSub now entry.lastSeen > limiterSweepAfter
  · simp [live, Option.filter, h]
  · simp [live, Option.filter, h]

@[simp] theorem live_live : live now (live now b) = live now b := by
  cases b with
  | none => rfl
  | some entry =>
    rw [live_some]
    split
    · rfl
    · rename_i h
      rw [live_some, if_neg h]

/-- A refund does not make a bucket younger. -/
theorem live_map_refund : live now (b.map refundToken) = (live now b).map refundToken := by
  cases b with
  | none => rfl
  | some entry =>
    rw [Option.map_some, live_some, live_some]
    show (if timeSub now entry.lastSeen > limiterSweepAfter then none
      else some (refundToken entry)) = _
    split
    · rfl
    · rfl

/-- What a sweep leaves now decides what one leaves later. -/
theorem live_later (hle : now ≤ now') (h : live now b = live now b') :
    live now' b = live now' b' := by
  have hcompose : ∀ b, live now' (live now b) = live now' b := by
    intro b
    cases b with
    | none => rfl
    | some entry =>
      rw [live_some]
      split
      · rename_i hidle
        have hlater : timeSub now' entry.lastSeen > limiterSweepAfter :=
          LoginLimiter.timeSub_gt.2 (by have := LoginLimiter.timeSub_gt.1 hidle; omega)
        rw [live_some, if_pos hlater]
        rfl
      · rfl
  rw [← hcompose b, h, hcompose b']

end

/-! ## The simulation -/

namespace LoginLimiter

variable {limiter : LoginLimiter} {now now' : Int} {client : String} {own : Option Bucket}

theorem getElem?_sweepLocked : (limiter.sweepLocked now).buckets[client]? =
    live now limiter.buckets[client]? := by
  rw [sweepLocked, Table.getElem?_deleteWhere]
  rfl

theorem allow_of_entry {entry : Bucket}
    (h : (limiter.sweepLocked now).entry now client = some entry) :
    limiter.allow now client =
      ((spendToken now entry).1, ⟨(limiter.sweepLocked now).buckets.insert client (spendToken now entry).2⟩) := by
  simp only [allow, h, spendToken]
  split
  · rfl
  · rfl

theorem allow_of_saturated (h : (limiter.sweepLocked now).entry now client = none) :
    limiter.allow now client = (false, limiter.sweepLocked now) := by
  simp only [allow, h]

theorem refund_buckets : (limiter.refund client).buckets[client]? =
    limiter.buckets[client]?.map refundToken := by
  cases hb : limiter.buckets[client]? with
  | none => simp only [refund, hb, Option.map_none]
  | some entry =>
    simp only [refund, hb, Option.map_some, Table.getElem?_insert, if_true]
    rfl

/-- The bucket of the client is, up to a sweep, the one it would have alone. -/
def Alike (now : Int) (client : String) (limiter : LoginLimiter) (own : Option Bucket) : Prop :=
  live now limiter.buckets[client]? = live now own

/-- A call of another client. -/
theorem Alike.exec_other (h : limiter.Alike now client own) {call : LimiterCall}
    (hne : call.client ≠ client) : (call.exec now limiter).2.Alike now client own := by
  cases call with
  | allow other =>
    have hother : ¬ other = client := hne
    show live now (limiter.allow now other).2.buckets[client]? = live now own
    cases hentry : (limiter.sweepLocked now).entry now other with
    | none => rw [allow_of_saturated hentry, getElem?_sweepLocked, live_live, h]
    | some entry =>
      rw [allow_of_entry hentry]
      simp only [Table.getElem?_insert, if_neg hother]
      rw [getElem?_sweepLocked, live_live, h]
  | refund other =>
    have hother : ¬ other = client := hne
    show live now (limiter.refund other).buckets[client]? = live now own
    rw [← h, refund]
    split
    · simp only [Table.getElem?_insert, if_neg hother]
    · rfl

/-- A call of the client itself, if there is room for it: the two limiters return the same. -/
theorem Alike.exec_own (h : limiter.Alike now client own) {call : LimiterCall}
    (hclient : call.client = client) (hroom : call.saturated now limiter = false) :
    (call.exec now limiter).1 = (call.own now own).1 ∧
      (call.exec now limiter).2.Alike now client (call.own now own).2 := by
  cases call with
  | allow c =>
    obtain rfl : c = client := hclient
    have hentry : (limiter.sweepLocked now).entry now c =
        some ((live now own).getD ⟨defaultBurst, now⟩) := by
      have hnone : (limiter.sweepLocked now).entry now c ≠ none := by
        simpa [LimiterCall.saturated, Option.isSome_iff_ne_none] using hroom
      rw [entry, getElem?_sweepLocked, h] at hnone ⊢
      cases hlive : live now own with
      | some entry => rfl
      | none =>
        rw [hlive] at hnone
        simp only at hnone ⊢
        split at hnone
        · exact absurd rfl hnone
        · rename_i hsize
          rw [if_neg hsize]
          rfl
    simp only [LimiterCall.exec, LimiterCall.own, allow_of_entry hentry, Alike,
      Table.getElem?_insert, if_true, and_self]
  | refund c =>
    obtain rfl : c = client := hclient
    refine ⟨rfl, ?_⟩
    show live now (limiter.refund c).buckets[c]? = live now ((live now own).map refundToken)
    rw [refund_buckets, live_map_refund, live_map_refund, live_live, h]

/-- **A client is answered as if it were alone**, in a run whose clock does not go back and in which
it does not meet a full table. -/
theorem Alike.answersTo_trace {calls : List (Int × LimiterCall)} (h : limiter.Alike now client own)
    (hclock : (now :: calls.map Prod.fst).Pairwise (· ≤ ·))
    (hroom : RoomFor client (limiter.trace calls)) :
    answersTo client (limiter.trace calls) = ownAnswers own (callsOf client calls) := by
  induction calls generalizing limiter own now with
  | nil => rfl
  | cons e calls ih =>
    obtain ⟨now', call⟩ := e
    obtain ⟨hfirst, hrest⟩ := List.pairwise_cons.1 hclock
    have hlater : limiter.Alike now' client own := live_later (hfirst now' (by simp)) h
    obtain ⟨hhere, hroom'⟩ := List.forall_mem_cons.1 hroom
    by_cases hclient : call.client = client
    · obtain ⟨hanswer, hnext⟩ := hlater.exec_own hclient (hhere hclient)
      have hih := ih hnext hrest hroom'
      simp only [answersTo, callsOf] at hih
      simp only [trace, answersTo, callsOf, List.filter_cons, hclient, decide_true, if_true,
        ownAnswers, ← hih, ← hanswer]
      cases (call.exec now' limiter).1 <;> rfl
    · have hih := ih (hlater.exec_other hclient) hrest hroom'
      simp only [answersTo, callsOf] at hih
      simpa [trace, answersTo, callsOf, List.filter_cons, hclient] using hih

end LoginLimiter

/-! ## Two runs -/

/-- **Throttling is isolated per client.**  Two runs with the same calls of a client at the same
times, and any calls of others, answer it alike, unless a full table refuses it. -/
theorem throttling_isolated (client : String) (calls calls' : List (Int × LimiterCall))
    (hclock : (calls.map Prod.fst).Pairwise (· ≤ ·))
    (hclock' : (calls'.map Prod.fst).Pairwise (· ≤ ·))
    (hsame : callsOf client calls = callsOf client calls')
    (hroom : RoomFor client (LoginLimiter.new.trace calls))
    (hroom' : RoomFor client (LoginLimiter.new.trace calls')) :
    answersTo client (LoginLimiter.new.trace calls) =
      answersTo client (LoginLimiter.new.trace calls') := by
  have halone : ∀ calls : List (Int × LimiterCall), (calls.map Prod.fst).Pairwise (· ≤ ·) →
      RoomFor client (LoginLimiter.new.trace calls) →
      answersTo client (LoginLimiter.new.trace calls) = ownAnswers none (callsOf client calls) := by
    intro calls hclock hroom
    cases calls with
    | nil => rfl
    | cons e calls =>
      have hstart : LoginLimiter.new.Alike e.1 client none := by
        simp [LoginLimiter.Alike, LoginLimiter.new]
      refine hstart.answersTo_trace (List.pairwise_cons.2 ⟨?_, hclock⟩) hroom
      simpa using (List.pairwise_cons.1 hclock).1
  rw [halone calls hclock hroom, halone calls' hclock' hroom', hsame]

/-! ### A refund that comes late -/

/-- One client logs in, and its login ends after more than half an hour. -/
def lateRefund : List (Int × LimiterCall) :=
  [(0, .allow "203.0.113.9"), (31 * 60 * 10 ^ 9, .refund "203.0.113.9"),
    (31 * 60 * 10 ^ 9, .allow "203.0.113.9")]

/-- Just before that, another client has swept the bucket. -/
def sweptBefore : List (Int × LimiterCall) :=
  [(0, .allow "203.0.113.9"), (31 * 60 * 10 ^ 9, .allow "198.51.100.4"),
    (31 * 60 * 10 ^ 9, .refund "203.0.113.9"), (31 * 60 * 10 ^ 9, .allow "203.0.113.9")]

theorem throttling_isolated_lateRefund :
    answersTo "203.0.113.9" (LoginLimiter.new.trace lateRefund) =
      answersTo "203.0.113.9" (LoginLimiter.new.trace sweptBefore) :=
  throttling_isolated "203.0.113.9" lateRefund sweptBefore (by decide) (by decide) (by decide)
    (by decide +kernel) (by decide +kernel)

end NexusTier
