import NexusTier.Auth.Access

/-!
# How fast passwords can be guessed

A login spends a token of its client before its form is looked at.  One that succeeds gives it back;
one that fails does not.  So the guesses of a client, its logins on the way and the tokens left to
it add up to something that only time can raise (`Console.potential`), and no faster than the
limiter refills.  Sweeping does not matter, since it forgets full buckets only, and a refund to a
bucket that has been made anew meanwhile takes the place of a login on the way.

## What is here

* `Console.potential`: the count, with what each kind of event does to it.
* `Console.potential_step` and `Console.potential_run`: time alone raises it, and by no more than
  the refill.
* `guesses_bounded`: hence the guesses of a client in a window, and that buckets and their table
  keep within their bounds.

## What is left out

Guesses of one attacker from many addresses: the limiter counts by client, and so does this.  Tokens
are counted exactly; their rounding is in `Auth.Rounding`.
-/

set_option autoImplicit false

namespace NexusTier

open Encoding Http TokenBucket

/-- A login of the client that holds a token. -/
def Exchange.inFlight (client : String) : Exchange → Bool
  | allowed request => clientAddress request = client
  | accepted request _ => clientAddress request = client
  | answered _ _ _ _ => false

section

variable {client : String} {request : Request}

@[simp] theorem Exchange.inFlight_allowed :
    (Exchange.allowed request).inFlight client = decide (clientAddress request = client) := rfl

@[simp] theorem Exchange.inFlight_accepted {token : Bytes} :
    (Exchange.accepted request token).inFlight client = decide (clientAddress request = client) :=
  rfl

@[simp] theorem Exchange.inFlight_answered {time : Int} {step : Nat} {response : Response} :
    (Exchange.answered request time step response).inFlight client = false := rfl

end

namespace Console

/-- The logins of a client that hold a token. -/
def inFlight (s : Console) (client : String) : Nat := s.exchanges.countP (·.inFlight client)

/-- The guesses a client has made. -/
def guessesOf (s : Console) (client : String) : Nat := s.guesses.countP (·.client = client)

/-- The guesses of a client, those on the way, and those it could make now. -/
def potential (s : Console) (now : Int) (client : String) : ℚ :=
  s.guessesOf client + s.inFlight client + s.limiter.level now client

/-- What one request becomes changes the count by what it counts. -/
theorem countP_set {l : List Exchange} {i : Nat} {old : Exchange} (hi : l[i]? = some old)
    (new : Exchange) (p : Exchange → Bool) :
    (l.set i new).countP p + (if p old then 1 else 0) = l.countP p + (if p new then 1 else 0) := by
  obtain ⟨hlt, rfl⟩ := List.getElem?_eq_some_iff.1 hi
  have hset := List.countP_set (p := p) (l := l) (i := i) (a := new) hlt
  have hle : (if p l[i] then 1 else 0) ≤ l.countP p := by
    split
    · rename_i hp
      exact List.countP_pos_iff.2 ⟨l[i], List.getElem_mem hlt, hp⟩
    · exact Nat.zero_le _
  omega

section

variable {guard : Guard} {s : Console} {t now : Int} {client : String}

/-- A request is one guess at most, and one of its client. -/
theorem countP_guess_le (guard : Guard) (request : Request) (now : Int) (client : String) :
    (guess guard request now).countP (·.client = client) ≤
      if clientAddress request = client then 1 else 0 := by
  rw [guess]
  split
  · exact Nat.zero_le _
  · split
    · exact Nat.zero_le _
    · by_cases hclient : clientAddress request = client
      · simp [hclient]
      · simp [hclient]

/-- Where a token is issued, there is no guess. -/
theorem guess_of_submitted {request : Request} {nonce : Except String Bytes} {token : Bytes}
    (h : guard.submitted request now nonce = .ok token) : guess guard request now = [] := by
  rw [Guard.submitted] at h
  rw [guess]
  split at h
  · simp at h
  · rename_i form hform
    split at h
    · simp at h
    · rename_i haccepts
      simp [haccepts]

variable (guard client)

theorem potential_request (h : s.limiter.Sound now) (request : Request) :
    (s.step guard (.request request now)).limiter.Sound now ∧
      (s.step guard (.request request now)).potential now client = s.potential now client := by
  simp only [step, act]
  split
  · refine ⟨h, ?_⟩
    simp [potential, guessesOf, inFlight]
  · obtain ⟨hsound, hlevel, hothers⟩ := h.allow (clientAddress request)
    refine ⟨hsound, ?_⟩
    simp only [potential, guessesOf, inFlight, List.countP_append, List.countP_singleton]
    by_cases hclient : clientAddress request = client
    · subst hclient
      -- the token that is taken is on the way now
      cases hallowed : (s.limiter.allow now (clientAddress request)).1 with
      | true =>
        rw [hallowed] at hlevel
        simp only [Exchange.inFlight_allowed, decide_true, if_true] at hlevel ⊢
        push_cast
        linarith
      | false =>
        rw [hallowed] at hlevel
        simp only [Exchange.inFlight_answered, Bool.false_eq_true, if_false] at hlevel ⊢
        push_cast
        linarith
    · rw [hothers client (Ne.symm hclient)]
      have hnot : (if (s.limiter.allow now (clientAddress request)).1 then Exchange.allowed request
          else .answered request now s.steps Guard.throttled).inFlight client = false := by
        split
        · simp [hclient]
        · rfl
      simp [hnot]

theorem potential_submit (h : s.limiter.Sound now) (i : Nat) (nonce : Except String Bytes) :
    (s.step guard (.submit i now nonce)).limiter.Sound now ∧
      (s.step guard (.submit i now nonce)).potential now client ≤ s.potential now client := by
  simp only [step, act]
  split
  · rename_i request hi
    refine ⟨h, ?_⟩
    -- what was on the way becomes a session on the way, or a guess, or nothing
    have hmoved : (guess guard request now).countP (·.client = client) +
        (s.exchanges.set i (outcome guard s.steps request now nonce)).countP (·.inFlight client) ≤
          s.exchanges.countP (·.inFlight client) := by
      have hset := countP_set hi (outcome guard s.steps request now nonce) (·.inFlight client)
      cases hsubmitted : guard.submitted request now nonce with
      | ok token =>
        simp only [guess_of_submitted hsubmitted, outcome, hsubmitted, Exchange.inFlight_allowed,
          Exchange.inFlight_accepted, List.countP_nil, decide_eq_true_eq] at hset ⊢
        omega
      | error response =>
        have hguess := countP_guess_le guard request now client
        simp only [outcome, hsubmitted, Exchange.inFlight_allowed, Exchange.inFlight_answered,
          decide_eq_true_eq, Bool.false_eq_true, if_false] at hset ⊢
        omega
    have hcast : (((guess guard request now).countP (·.client = client) : ℕ) : ℚ) +
        (((s.exchanges.set i (outcome guard s.steps request now nonce)).countP
          (·.inFlight client) : ℕ) : ℚ) ≤ ((s.exchanges.countP (·.inFlight client) : ℕ) : ℚ) := by
      exact_mod_cast hmoved
    simp only [potential, guessesOf, inFlight, List.countP_append]
    push_cast
    linarith
  · exact ⟨h, le_refl _⟩

theorem potential_finish (h : s.limiter.Sound now) (i : Nat) :
    (s.step guard (.finish i now)).limiter.Sound now ∧
      (s.step guard (.finish i now)).potential now client ≤ s.potential now client := by
  simp only [step, act]
  split
  · rename_i request token hi
    obtain ⟨hsound, hlevel, hothers⟩ := h.refund (clientAddress request)
    refine ⟨hsound, ?_⟩
    have hset := countP_set hi (.answered request now s.steps (guard.loggedIn token))
      (·.inFlight client)
    simp only [Exchange.inFlight_accepted, Exchange.inFlight_answered, decide_eq_true_eq,
      Bool.false_eq_true, if_false, Nat.add_zero] at hset
    simp only [potential, guessesOf, inFlight]
    rw [← hset]
    by_cases hclient : clientAddress request = client
    · subst hclient
      rw [if_pos rfl]
      push_cast
      linarith
    · rw [if_neg hclient, hothers client (Ne.symm hclient), Nat.add_zero]
  · exact ⟨h, le_refl _⟩

theorem potential_later (s : Console) (hle : t ≤ now) :
    s.potential now client ≤ s.potential t client + gained defaultRefill now t := by
  have hlevel : s.limiter.level now client ≤
      s.limiter.level t client + gained defaultRefill now t :=
    level_later LoginLimiter.refill_pos hle _
  simp only [potential]
  linarith

/-- **A step raises the potential by no more than the refill.** -/
theorem potential_step (h : s.limiter.Sound t) (event : ConsoleEvent) (hle : t ≤ event.now) :
    (s.step guard event).limiter.Sound event.now ∧
      (s.step guard event).potential event.now client ≤
        s.potential t client + gained defaultRefill event.now t := by
  have hlater := potential_later client s hle
  have hnow := h.later hle
  cases event with
  | request request now =>
    obtain ⟨hsound, heq⟩ := potential_request guard client hnow request
    exact ⟨hsound, heq.le.trans hlater⟩
  | submit i now nonce =>
    obtain ⟨hsound, hle⟩ := potential_submit guard client hnow i nonce
    exact ⟨hsound, hle.trans hlater⟩
  | finish i now =>
    obtain ⟨hsound, hle⟩ := potential_finish guard client hnow i
    exact ⟨hsound, hle.trans hlater⟩

/-- **So does a run**, up to any time that it does not pass. -/
theorem potential_run {events : List ConsoleEvent} (h : s.limiter.Sound t)
    (hclock : (t :: events.map ConsoleEvent.now).Pairwise (· ≤ ·)) (hle : t ≤ now)
    (hend : ∀ event ∈ events, event.now ≤ now) :
    (events.foldl (step guard) s).limiter.Sound now ∧
      (events.foldl (step guard) s).potential now client ≤
        s.potential t client + gained defaultRefill now t := by
  induction events generalizing s t with
  | nil => exact ⟨h.later hle, potential_later client s hle⟩
  | cons event events ih =>
    obtain ⟨hfirst, hrest⟩ := List.pairwise_cons.1 hclock
    obtain ⟨hsound, hstep⟩ := potential_step guard client h event (hfirst _ (by simp))
    obtain ⟨hlast, hend'⟩ := List.forall_mem_cons.1 hend
    obtain ⟨hsound', hrun⟩ := ih hsound hrest hlast hend'
    refine ⟨hsound', hrun.trans ?_⟩
    rw [gained_add event.now now t]
    linarith

/-- In a run whose clock does not go back, the limiter is sound. -/
theorem sound_run {events : List ConsoleEvent}
    (hclock : (events.map ConsoleEvent.now).Pairwise (· ≤ ·))
    (hend : ∀ event ∈ events, event.now ≤ t) : (run guard events).limiter.Sound t := by
  cases events with
  | nil => exact LoginLimiter.sound_new t
  | cons event events =>
    have hstart : start.limiter.Sound event.now := LoginLimiter.sound_new event.now
    have hfirst : (event.now :: (event :: events).map ConsoleEvent.now).Pairwise (· ≤ ·) := by
      refine List.pairwise_cons.2 ⟨?_, hclock⟩
      simpa using (List.pairwise_cons.1 hclock).1
    exact (potential_run guard "" hstart hfirst (hend event (by simp)) hend).1

end

end Console

/-- A run ends some time. -/
theorem exists_end (events : List ConsoleEvent) : ∃ t, ∀ event ∈ events, event.now ≤ t := by
  induction events with
  | nil => exact ⟨0, by simp⟩
  | cons event events ih =>
    obtain ⟨t, ht⟩ := ih
    refine ⟨max event.now t, List.forall_mem_cons.2 ⟨le_max_left _ _, fun e he => ?_⟩⟩
    exact (ht e he).trans (le_max_right _ _)

/-! ## The bound -/

/-- What holds of the limiter in every state. -/
structure LoginLimiter.Bounded (limiter : LoginLimiter) : Prop where
  tokens : ∀ (client : String) (bucket : Bucket), limiter.buckets[client]? = some bucket →
    0 ≤ bucket.tokens ∧ bucket.tokens ≤ defaultBurst
  size : limiter.buckets.size ≤ 4096

/-- **Passwords are guessed no faster than the limiter refills.**  With a clock that does not go
back, whatever requests come in and however they are interleaved: in a window of length `W` at whose
start no login of a client is on the way, the client makes at most `8 + W / 30s` guesses.  And every
bucket holds between none and 8 tokens, and there are at most 4096. -/
theorem guesses_bounded (guard : Guard) :
    (∀ events : List ConsoleEvent, (events.map ConsoleEvent.now).Pairwise (· ≤ ·) →
      (Console.run guard events).limiter.Bounded) ∧
    ∀ (events window : List ConsoleEvent) (client : String) (t W : Int),
      ((events ++ window).map ConsoleEvent.now).Pairwise (· ≤ ·) → 0 ≤ W →
      (∀ event ∈ events, event.now ≤ t) →
      (∀ event ∈ window, t ≤ event.now ∧ event.now ≤ t + W) →
      (Console.run guard events).inFlight client = 0 →
      ((Console.run guard (events ++ window)).guessesOf client : ℚ) ≤
        (Console.run guard events).guessesOf client + (8 + seconds W / 30) := by
  refine ⟨fun events hclock => ?_, fun events window client t W hclock hW hbefore hwindow hidle => ?_⟩
  · obtain ⟨t, hend⟩ := exists_end events
    have hsound := Console.sound_run guard hclock hend
    exact ⟨fun client bucket hb =>
      ⟨(hsound.buckets client bucket hb).nonneg, (hsound.buckets client bucket hb).le_burst⟩,
      hsound.size⟩
  · rw [List.map_append] at hclock
    obtain ⟨hclock₁, hclock₂, -⟩ := List.pairwise_append.1 hclock
    have hsound := Console.sound_run guard hclock₁ hbefore
    have hstart : (t :: window.map ConsoleEvent.now).Pairwise (· ≤ ·) := by
      refine List.pairwise_cons.2 ⟨fun now hnow => ?_, hclock₂⟩
      obtain ⟨event, hevent, rfl⟩ := List.mem_map.1 hnow
      exact (hwindow event hevent).1
    obtain ⟨hsound', hrun⟩ := Console.potential_run guard client hsound hstart
      (Int.le_add_of_nonneg_right hW) fun event hevent => (hwindow event hevent).2
    have hfold : window.foldl (Console.step guard) (Console.run guard events) =
        Console.run guard (events ++ window) := (List.foldl_append).symm
    rw [hfold] at hsound' hrun
    have hnonneg := hsound'.level_nonneg client
    have hle := (Console.run guard events).limiter.level_le t client
    have hgained : gained defaultRefill (t + W) t = seconds W / 30 := by
      rw [gained, seconds, add_sub_cancel_left, div_div]
      norm_num [defaultRefill]
    simp only [Console.potential, hidle, hgained, defaultBurst] at hrun hle
    push_cast at hrun
    have hflight : (0 : ℚ) ≤ ((Console.run guard (events ++ window)).inFlight client : ℚ) :=
      Nat.cast_nonneg _
    linarith

/-! ### Nine guesses at once -/

/-- A login with a wrong password, from one address. -/
def wrongLogin : Request := loginRequest "203.0.113.9:50001" (ascii "wrong")

/-- It comes in, and its form is looked at, `n` times at one moment; the ninth is not allowed. -/
def guessing (n : Nat) : List ConsoleEvent :=
  (List.range n).flatMap fun i => [.request wrongLogin 1785000000000000000,
    .submit i 1785000000000000000 (.ok operatorNonce)]

theorem guesses_bounded_nine :
    (Console.run operatorGuard (guessing 9)).guessesOf "203.0.113.9" = 8 ∧
      ((Console.run operatorGuard (guessing 9)).guessesOf "203.0.113.9" : ℚ) ≤ 8 ∧
      (Console.run operatorGuard (guessing 9)).limiter.Bounded := by
  have hclock : ((guessing 9).map ConsoleEvent.now).Pairwise (· ≤ ·) := by decide
  refine ⟨by decide +kernel, ?_, (guesses_bounded operatorGuard).1 (guessing 9) hclock⟩
  have hbound := (guesses_bounded operatorGuard).2 [] (guessing 9) "203.0.113.9"
    1785000000000000000 0 hclock (by decide) (by simp) (by decide) rfl
  simpa [Console.run, Console.start, Console.guessesOf, seconds] using hbound

end NexusTier
