import NexusTier.Auth.Guessing
import NexusTier.Auth.Rounding

/-!
# A login that has waited is let through

`Retry-After` tells a client that is refused to come back when the limiter has refilled a token.
Whether one is there then must not depend on what others do in the meantime.

## What is here

* `Console.runFloat`: the console, with the tokens of its limiter as the floats they are.
* `Console.hasLeft_run`: a client has what time has given it, less its attempts and their rounding,
  however many others there are.
* `LoginLimiter.Known`: its place in the table is kept as well, for half an hour after each attempt,
  so a table that others have filled up refuses newcomers only (`Console.known_run`).
* `patient_client_allowed`: so an attempt that has waited is let through.

## What is left out

An attempt at the very nanosecond at which its thirty seconds are over.  It may be refused, since
the float it finds can be just below one; the nanosecond after is more than all the rounding.
-/

set_option autoImplicit false

namespace NexusTier

open Http TokenBucket Binary64

/-- The event is an attempt of the client to log in: it asks for a token. -/
def ConsoleEvent.attempts (guard : Guard) (client : String) : ConsoleEvent → Bool
  | request r now => (guard.answer r now).isNone && decide (clientAddress r = client)
  | submit _ _ _ => false
  | finish _ _ => false

/-- The table has a place for the client. -/
def LoginLimiter.HasRoom (limiter : LoginLimiter) (now : Int) (client : String) : Prop :=
  (LimiterCall.allow client).saturated now limiter = false

namespace Console

/-- One step, as `Console.act` has it but for the tokens. -/
def actFloat (guard : Guard) (s : Console) : ConsoleEvent → Console
  | .request request now =>
    match guard.answer request now with
    | some response =>
      { s with exchanges := s.exchanges ++ [.answered request now s.steps response] }
    | none =>
      let (allowed, limiter) := s.limiter.allowFloat now (clientAddress request)
      { s with
        limiter
        exchanges := s.exchanges ++ [if allowed then .allowed request
          else .answered request now s.steps Guard.throttled] }
  | .submit i now nonce => s.act guard (.submit i now nonce)
  | .finish i now =>
    match s.exchanges[i]? with
    | some (.accepted request token) =>
      { s with
        limiter := s.limiter.refundFloat (clientAddress request)
        exchanges := s.exchanges.set i (.answered request now s.steps (guard.loggedIn token)) }
    | _ => s

def stepFloat (guard : Guard) (s : Console) (event : ConsoleEvent) : Console :=
  { s.actFloat guard event with steps := s.steps + 1 }

def runFloat (guard : Guard) (events : List ConsoleEvent) : Console :=
  events.foldl (stepFloat guard) start

end Console

namespace LoginLimiter

variable {limiter : LoginLimiter} {now since : Int} {attempts : Nat} {client other : String}

/-! ## Tokens -/

/-- Thirty seconds for each attempt and the next one, and a nanosecond for all the rounding. -/
theorem one_le_tokensFloat {bucket : Bucket} (hsound : bucket.Sound defaultBurst now)
    (hkept : now - bucket.lastSeen ≤ limiterSweepAfter)
    (hleft : left since attempts bucket.lastSeen ≤ bucket.tokens) (hfew : attempts < 8)
    (hwaited : since + (attempts + 1) * retryAfter < now) : 1 ≤ tokensFloat now bucket := by
  have hfew' : (attempts : ℚ) + 1 ≤ 8 := by exact_mod_cast hfew
  have hgained : (attempts : ℚ) + 1 + 1 / defaultRefill ≤ gained defaultRefill now since := by
    rw [gained, le_div_iff₀ refill_pos, add_mul, div_mul_cancel₀ _ refill_pos.ne']
    have hlong : ((attempts + 1) * defaultRefill + 1 : ℤ) ≤ now - since := by
      rw [retryAfter] at hwaited
      omega
    exact_mod_cast hlong
  refine le_trans (le_min ?_ ?_) (left_le_tokensFloat hsound hkept hleft)
  · rw [defaultBurst]
    linarith
  · have hnanosecond : (1 : ℚ) / 2 ^ 38 ≤ 1 / defaultRefill := by norm_num [defaultRefill]
    rw [roundingError]
    linarith

/-- **An attempt that has waited is allowed if there is room.** -/
theorem HasLeft.allowed_iff (h : limiter.HasLeft since attempts client) (hsound : limiter.Sound now)
    (hfew : attempts < 8) (hwaited : since + (attempts + 1) * retryAfter < now) :
    (limiter.allowFloat now client).1 = true ↔ limiter.HasRoom now client := by
  rw [HasRoom, LimiterCall.saturated]
  cases hentry : (limiter.sweepLocked now).entry now client with
  | none => simp [allowFloat_of_saturated hentry]
  | some bucket =>
    obtain ⟨hbucket, hkept, -⟩ := entry_eq_some hsound hentry
    simp [allowFloat_of_entry hentry, spendFloat_allowed,
      one_le_tokensFloat hbucket hkept (h.of_entry hentry) hfew hwaited]

/-- Whatever there is at a time is more than nothing. -/
theorem Sound.hasLeft (h : limiter.Sound now) (client : String) : limiter.HasLeft now 0 client := by
  intro bucket hb
  obtain ⟨hnonneg, -, hseen⟩ := h.buckets client bucket hb
  refine (min_le_right _ _).trans ?_
  have hgained : gained defaultRefill bucket.lastSeen now ≤ 0 := by
    rw [gained]
    refine div_nonpos_of_nonpos_of_nonneg ?_ refill_pos.le
    exact_mod_cast sub_nonpos.2 hseen
  push_cast
  linarith

/-! ## The place in the table -/

/-- The client has a bucket, and has been seen since. -/
def Known (since : Int) (client : String) (limiter : LoginLimiter) : Prop :=
  ∃ bucket, limiter.buckets[client]? = some bucket ∧ since ≤ bucket.lastSeen

/-- A sweep keeps it for half an hour. -/
theorem Known.sweepLocked (h : limiter.Known since client)
    (hle : now ≤ since + limiterSweepAfter) : (limiter.sweepLocked now).Known since client := by
  obtain ⟨bucket, hbucket, hseen⟩ := h
  exact ⟨bucket, getElem?_sweepLocked_eq_some.2 ⟨hbucket, by omega⟩, hseen⟩

theorem Known.hasRoom (h : limiter.Known since client) (hle : now ≤ since + limiterSweepAfter) :
    limiter.HasRoom now client := by
  obtain ⟨bucket, hbucket, -⟩ := h.sweepLocked hle
  simp only [HasRoom, LimiterCall.saturated, entry, hbucket, Option.isNone_some]

theorem known_allowFloat (hroom : limiter.HasRoom now client) :
    (limiter.allowFloat now client).2.Known now client := by
  cases hentry : (limiter.sweepLocked now).entry now client with
  | none => simp [HasRoom, LimiterCall.saturated, hentry] at hroom
  | some bucket =>
    refine ⟨(spendFloat now bucket).2, ?_, ?_⟩
    · simp only [allowFloat_of_entry hentry, Relational.Table.getElem?_insert, if_true]
    · rw [spendFloat_lastSeen]

/-- Nobody's attempt takes the place away. -/
theorem Known.allowFloat (h : limiter.Known since client) (hsince : since ≤ now)
    (hle : now ≤ since + limiterSweepAfter) (other : String) :
    (limiter.allowFloat now other).2.Known since client := by
  by_cases hother : other = client
  · subst hother
    obtain ⟨bucket, hbucket, hseen⟩ := known_allowFloat (h.hasRoom hle)
    exact ⟨bucket, hbucket, hsince.trans hseen⟩
  · obtain ⟨bucket, hbucket, hseen⟩ := h.sweepLocked hle
    refine ⟨bucket, ?_, hseen⟩
    cases hentry : (limiter.sweepLocked now).entry now other with
    | none => rw [allowFloat_of_saturated hentry, hbucket]
    | some entry =>
      simp only [allowFloat_of_entry hentry, Relational.Table.getElem?_insert, if_neg hother,
        hbucket]

theorem Known.refundFloat (h : limiter.Known since client) (other : String) :
    (limiter.refundFloat other).Known since client := by
  obtain ⟨bucket, hbucket, hseen⟩ := h
  rw [LoginLimiter.refundFloat]
  split
  · rename_i entry hentry
    by_cases hother : other = client
    · subst hother
      obtain rfl : entry = bucket := Option.some.inj (hentry.symm.trans hbucket)
      refine ⟨{ entry with tokens := min (float64 (entry.tokens + 1)) defaultBurst }, ?_, hseen⟩
      rw [Relational.Table.getElem?_insert, if_pos rfl]
    · refine ⟨bucket, ?_, hseen⟩
      rw [Relational.Table.getElem?_insert, if_neg hother, hbucket]
  · exact ⟨bucket, hbucket, hseen⟩

end LoginLimiter

/-! ## Runs -/

namespace Console

section

variable {guard : Guard} {s : Console} {t now since : Int} {attempts : Nat} {client : String}
  {event : ConsoleEvent} {events : List ConsoleEvent}

/-- What is no login request leaves the limiter alone. -/
theorem step_request_limiter {request : Request} {response : Response}
    (h : guard.answer request now = some response) :
    (s.stepFloat guard (.request request now)).limiter = s.limiter := by
  simp only [stepFloat, actFloat, h]

theorem step_attempt_limiter {request : Request} (h : guard.answer request now = none) :
    (s.stepFloat guard (.request request now)).limiter =
      (s.limiter.allowFloat now (clientAddress request)).2 := by
  simp only [stepFloat, actFloat, h]

theorem step_submit_limiter {i : Nat} {nonce : Except String Encoding.Bytes} :
    (s.stepFloat guard (.submit i now nonce)).limiter = s.limiter := by
  simp only [stepFloat, actFloat, act]
  split
  · rfl
  · rfl

theorem step_finish_limiter {i : Nat} : (s.stepFloat guard (.finish i now)).limiter = s.limiter ∨
    ∃ other, (s.stepFloat guard (.finish i now)).limiter = s.limiter.refundFloat other := by
  simp only [stepFloat, actFloat]
  split
  · rename_i request token hi
    exact .inr ⟨clientAddress request, rfl⟩
  · exact .inl rfl

/-- **What a step can do to the limiter.** -/
theorem limiter_step_cases (guard : Guard) (s : Console) (event : ConsoleEvent) :
    (s.stepFloat guard event).limiter = s.limiter ∧
        (∀ client, event.attempts guard client = false) ∨
    (∃ other, (s.stepFloat guard event).limiter = s.limiter.refundFloat other ∧
      ∀ client, event.attempts guard client = false) ∨
    ∃ other, (s.stepFloat guard event).limiter = (s.limiter.allowFloat event.now other).2 ∧
      ∀ client, event.attempts guard client = decide (other = client) := by
  cases event with
  | request request now =>
    cases hanswer : guard.answer request now with
    | some response =>
      exact .inl ⟨step_request_limiter hanswer,
        fun client => by simp [ConsoleEvent.attempts, hanswer]⟩
    | none =>
      exact .inr (.inr ⟨clientAddress request, step_attempt_limiter hanswer,
        fun client => by simp [ConsoleEvent.attempts, hanswer]⟩)
  | submit i now nonce => exact .inl ⟨step_submit_limiter, fun _ => rfl⟩
  | finish i now =>
    obtain hsame | ⟨other, hrefund⟩ :
        (s.stepFloat guard (.finish i now)).limiter = s.limiter ∨
          ∃ other, (s.stepFloat guard (.finish i now)).limiter = s.limiter.refundFloat other :=
      step_finish_limiter
    · exact .inl ⟨hsame, fun _ => rfl⟩
    · exact .inr (.inl ⟨other, hrefund, fun _ => rfl⟩)

theorem sound_stepFloat (h : s.limiter.Sound event.now) (guard : Guard) :
    (s.stepFloat guard event).limiter.Sound event.now := by
  obtain ⟨hsame, -⟩ | ⟨other, hrefund, -⟩ | ⟨other, hallow, -⟩ := limiter_step_cases guard s event
  · rwa [hsame]
  · rw [hrefund]
    exact h.refundFloat other
  · rw [hallow]
    exact h.allowFloat other

/-- An attempt of the client takes at most one token, and nothing else takes any. -/
theorem hasLeft_step (h : s.limiter.HasLeft since attempts client)
    (hsound : s.limiter.Sound event.now) (guard : Guard) :
    (s.stepFloat guard event).limiter.HasLeft since
      (attempts + if event.attempts guard client then 1 else 0) client := by
  obtain ⟨hsame, hnot⟩ | ⟨other, hrefund, hnot⟩ | ⟨other, hallow, hattempt⟩ :=
    limiter_step_cases guard s event
  · rw [hsame, hnot client]
    exact h
  · rw [hrefund, hnot client]
    exact h.refundFloat hsound other
  · rw [hallow, hattempt client]
    simp only [decide_eq_true_eq]
    exact h.allowFloat hsound other

/-- The number of attempts of a client. -/
def attemptsIn (guard : Guard) (client : String) (events : List ConsoleEvent) : Nat :=
  events.countP (·.attempts guard client)

/-- **A client has what time has given it, less its attempts**, however many others there are. -/
theorem hasLeft_run (h : s.limiter.HasLeft since attempts client) (hsound : s.limiter.Sound t)
    (hclock : (t :: events.map ConsoleEvent.now).Pairwise (· ≤ ·)) (hle : t ≤ now)
    (hend : ∀ event ∈ events, event.now ≤ now) (guard : Guard) :
    (events.foldl (stepFloat guard) s).limiter.Sound now ∧
      (events.foldl (stepFloat guard) s).limiter.HasLeft since
        (attempts + attemptsIn guard client events) client := by
  induction events generalizing s t attempts with
  | nil => exact ⟨hsound.later hle, h⟩
  | cons event events ih =>
    obtain ⟨hfirst, hrest⟩ := List.pairwise_cons.1 hclock
    obtain ⟨hlast, hend'⟩ := List.forall_mem_cons.1 hend
    have hnow := hsound.later (hfirst event.now (by simp))
    have hih := ih (hasLeft_step h hnow guard) (sound_stepFloat hnow guard) hrest hlast hend'
    rw [attemptsIn, List.countP_cons, Nat.add_comm (events.countP _), ← Nat.add_assoc]
    exact hih

theorem hasLeft_runFloat (guard : Guard) (client : String) (since : Int)
    (hclock : (events.map ConsoleEvent.now).Pairwise (· ≤ ·))
    (hend : ∀ event ∈ events, event.now ≤ now) :
    (runFloat guard events).limiter.Sound now ∧
      (runFloat guard events).limiter.HasLeft since (attemptsIn guard client events) client := by
  have hempty : start.limiter.HasLeft since 0 client := by
    intro bucket hb
    simp [start, LoginLimiter.new] at hb
  cases events with
  | nil => exact ⟨LoginLimiter.sound_new now, hempty⟩
  | cons event events =>
    have hfirst : (event.now :: (event :: events).map ConsoleEvent.now).Pairwise (· ≤ ·) := by
      refine List.pairwise_cons.2 ⟨?_, hclock⟩
      simpa using (List.pairwise_cons.1 hclock).1
    have hrun := hasLeft_run hempty (LoginLimiter.sound_new event.now) hfirst (hend event (by simp))
      hend guard
    rwa [Nat.zero_add] at hrun

/-- A run keeps the place of a client for half an hour. -/
theorem known_run (h : s.limiter.Known since client)
    (hclock : ∀ event ∈ events, since ≤ event.now ∧ event.now ≤ since + limiterSweepAfter)
    (guard : Guard) : (events.foldl (stepFloat guard) s).limiter.Known since client := by
  induction events generalizing s with
  | nil => exact h
  | cons event events ih =>
    obtain ⟨⟨hsince, hle⟩, hrest⟩ := List.forall_mem_cons.1 hclock
    refine ih ?_ hrest
    obtain ⟨hsame, -⟩ | ⟨other, hrefund, -⟩ | ⟨other, hallow, -⟩ := limiter_step_cases guard s event
    · rwa [hsame]
    · rw [hrefund]
      exact h.refundFloat other
    · rw [hallow]
      exact h.allowFloat hsince hle other

/-- What an attempt is answered with. -/
theorem exchanges_attempt {request : Request}
    (hattempt : (ConsoleEvent.request request now).attempts guard client = true) :
    (s.stepFloat guard (.request request now)).exchanges = s.exchanges ++ [.allowed request] ↔
      (s.limiter.allowFloat now client).1 = true := by
  simp only [ConsoleEvent.attempts, Bool.and_eq_true, Option.isNone_iff_eq_none,
    decide_eq_true_eq] at hattempt
  obtain ⟨hanswer, rfl⟩ := hattempt
  simp only [stepFloat, actFloat, hanswer]
  cases (s.limiter.allowFloat now (clientAddress request)).1 with
  | true => simp
  | false => simp

end

end Console

/-! ## The promise -/

section

variable {before window : List ConsoleEvent} {client : String} {t now : Int} {request : Request}

/-- It has a token left: either the bucket was full when it began, or it has been filled since. -/
theorem patient_hasLeft (guard : Guard)
    (hclock : ((before ++ window).map ConsoleEvent.now).Pairwise (· ≤ ·))
    (hend : ∀ event ∈ before ++ window, event.now ≤ now)
    (hbefore : ∀ event ∈ before, event.now ≤ t) (hwindow : ∀ event ∈ window, t ≤ event.now)
    (hfew : Console.attemptsIn guard client window < 8)
    (hwaited : Console.attemptsIn guard client before = 0 ∨
      t + (Console.attemptsIn guard client window + 1) * LoginLimiter.retryAfter < now) :
    ∃ since, since + (Console.attemptsIn guard client window + 1) * LoginLimiter.retryAfter < now ∧
      (Console.runFloat guard (before ++ window)).limiter.HasLeft since
        (Console.attemptsIn guard client window) client := by
  obtain hnone | hlong := hwaited
  · -- a bucket that nobody has used was full any time ago
    refine ⟨now - 9 * LoginLimiter.retryAfter, ?_, ?_⟩
    · simp only [LoginLimiter.retryAfter, defaultRefill]
      omega
    · have hrun := (Console.hasLeft_runFloat guard client
        (now - 9 * LoginLimiter.retryAfter) hclock hend).2
      have hcount : Console.attemptsIn guard client (before ++ window) =
          Console.attemptsIn guard client window := by
        rw [Console.attemptsIn, List.countP_append]
        rw [Console.attemptsIn] at hnone
        rw [hnone, Nat.zero_add, Console.attemptsIn]
      rwa [hcount] at hrun
  · refine ⟨t, hlong, ?_⟩
    rw [List.map_append, List.pairwise_append] at hclock
    obtain ⟨hbefore', hwindow', -⟩ := hclock
    have hsound := (Console.hasLeft_runFloat guard client t hbefore' hbefore).1
    have hle : t ≤ now := by
      simp only [LoginLimiter.retryAfter, defaultRefill] at hlong
      omega
    have hrun := (Console.hasLeft_run (hsound.hasLeft client) hsound
      (List.pairwise_cons.2 ⟨by simpa using hwindow, hwindow'⟩) hle
      (fun event hevent => hend event (List.mem_append_right _ hevent)) guard).2
    rw [Nat.zero_add] at hrun
    rwa [Console.runFloat, List.foldl_append]

/-- **A client that keeps to the rate is let through.**  With a clock that does not go back,
whatever other requests come in and however they are interleaved, and with the tokens rounded as
floats are: an attempt to log in is allowed if the table has a place for its client and the client
has either not tried before `t`, or waited since then for more than thirty seconds for this attempt
and for each one in between, eight attempts at most.  The table has a place for half an hour after
an attempt that met one. -/
theorem patient_client_allowed (guard : Guard)
    (hclock : ((before ++ window ++ [ConsoleEvent.request request now]).map
      ConsoleEvent.now).Pairwise (· ≤ ·))
    (hbefore : ∀ event ∈ before, event.now ≤ t) (hwindow : ∀ event ∈ window, t ≤ event.now)
    (hattempt : (ConsoleEvent.request request now).attempts guard client = true)
    (hfew : Console.attemptsIn guard client window < 8)
    (hwaited : Console.attemptsIn guard client before = 0 ∨
      t + (Console.attemptsIn guard client window + 1) * LoginLimiter.retryAfter < now) :
    (((Console.runFloat guard (before ++ window)).stepFloat guard
        (.request request now)).exchanges =
        (Console.runFloat guard (before ++ window)).exchanges ++ [.allowed request] ↔
      (Console.runFloat guard (before ++ window)).limiter.HasRoom now client) ∧
    ∀ (earlier between : List ConsoleEvent) (last : Request) (since : Int),
      before ++ window = earlier ++ .request last since :: between →
      (ConsoleEvent.request last since).attempts guard client = true →
      (Console.runFloat guard earlier).limiter.HasRoom since client →
      now ≤ since + limiterSweepAfter →
      (Console.runFloat guard (before ++ window)).limiter.HasRoom now client := by
  rw [List.map_append, List.pairwise_append] at hclock
  obtain ⟨hclock', -, hlast⟩ := hclock
  have hend : ∀ event ∈ before ++ window, event.now ≤ now := fun event hevent =>
    hlast _ (List.mem_map_of_mem hevent) now (by simp [ConsoleEvent.now])
  constructor
  · obtain ⟨since, hlong, hleft⟩ :=
      patient_hasLeft guard hclock' hend hbefore hwindow hfew hwaited
    have hsound := (Console.hasLeft_runFloat guard client since hclock' hend).1
    rw [Console.exchanges_attempt hattempt]
    exact hleft.allowed_iff hsound hfew hlong
  · intro earlier between last since hsplit hlastAttempt hroom hsoon
    simp only [ConsoleEvent.attempts, Bool.and_eq_true, Option.isNone_iff_eq_none,
      decide_eq_true_eq] at hlastAttempt
    obtain ⟨hanswer, hclient⟩ := hlastAttempt
    rw [hsplit] at hclock' hend
    rw [List.map_append, List.pairwise_append, List.map_cons, List.pairwise_cons] at hclock'
    have hknown : ((Console.runFloat guard earlier).stepFloat guard
        (.request last since)).limiter.Known since client := by
      rw [Console.step_attempt_limiter hanswer, hclient]
      exact LoginLimiter.known_allowFloat hroom
    have hrun : (between.foldl (Console.stepFloat guard)
        ((Console.runFloat guard earlier).stepFloat guard (.request last since))).limiter.Known
          since client :=
      Console.known_run hknown (fun event hevent => ⟨?_, ?_⟩) guard
    · have hfold : between.foldl (Console.stepFloat guard)
          ((Console.runFloat guard earlier).stepFloat guard (.request last since)) =
            Console.runFloat guard (before ++ window) := by
        rw [hsplit, Console.runFloat, Console.runFloat, List.foldl_append, List.foldl_cons]
      rw [hfold] at hrun
      exact hrun.hasRoom hsoon
    · exact hclock'.2.1.1 _ (List.mem_map_of_mem hevent)
    · exact (hend event (by simp [hevent])).trans hsoon

end

/-! ### Thirty seconds after nine guesses -/

theorem patient_client_allowed_tenth :
    Exchange.answered wrongLogin 1785000000000000000 16 Guard.throttled ∈
        (Console.runFloat operatorGuard (guessing 9)).exchanges ∧
      ((Console.runFloat operatorGuard (guessing 9)).stepFloat operatorGuard
        (.request wrongLogin 1785000030000000001)).exchanges =
          (Console.runFloat operatorGuard (guessing 9)).exchanges ++ [.allowed wrongLogin] := by
  have hroom : (Console.runFloat operatorGuard (guessing 9)).limiter.HasRoom 1785000030000000001
      "203.0.113.9" := by
    show (LimiterCall.allow _).saturated _ _ = false
    decide +kernel
  have hpatient := @patient_client_allowed (guessing 9) [] "203.0.113.9" 1785000000000000000
    1785000030000000001 wrongLogin operatorGuard (by decide) (by decide) (by simp)
    (by decide +kernel) (by decide) (.inr (by decide))
  rw [List.append_nil] at hpatient
  exact ⟨by decide +kernel, hpatient.1.2 hroom⟩

end NexusTier
