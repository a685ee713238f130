import NexusTier.Relational.Table
import NexusTier.Limits.TokenBucket
import NexusTier.Auth.Session

/-!
# The login limiter

`limiter.go`: a token bucket for each client, in a table that is swept and bounded.

## What is here

* `LoginLimiter.level`: what an operation does to a client is said by the level of its bucket.
* `LoginLimiter.Sound.level_sweepLocked`: sweeping does not change it, since a bucket is forgotten
  only when it is full.
* `LoginLimiter.Sound.allow` and `LoginLimiter.Sound.refund`: an attempt that is allowed takes a
  token from its client, a refund gives it at most one, and nobody else's level changes.

## What is left out

Tokens are rationals here and are counted exactly, where the source has floats; what their rounding
does is in `Auth.Rounding`.
-/

set_option autoImplicit false

namespace NexusTier

open Relational TokenBucket

def defaultBurst : ℚ := 8

def defaultRefill : Int := 30 * 10 ^ 9

def limiterSweepAfter : Int := 30 * 60 * 10 ^ 9

def maxTrackedClients : Nat := 4096

/-- `Time.Sub`: a duration has 64 bits, and is as far as it can be otherwise. -/
def timeSub (t u : Int) : Int := max (-2 ^ 63) (min (2 ^ 63 - 1) (t - u))

/-- `Duration.Seconds`. -/
def seconds (d : Int) : ℚ := d / 10 ^ 9

structure LoginLimiter where
  buckets : Table String Bucket

namespace LoginLimiter

/-- `NewLoginLimiter`. -/
def new : LoginLimiter := ⟨∅⟩

/-- `sweepLocked`. -/
def sweepLocked (limiter : LoginLimiter) (now : Int) : LoginLimiter :=
  ⟨limiter.buckets.deleteWhere fun _ entry => timeSub now entry.lastSeen > limiterSweepAfter⟩

/-- The bucket of a client, or a full one if there is room for it. -/
def entry (limiter : LoginLimiter) (now : Int) (client : String) : Option Bucket :=
  match limiter.buckets[client]? with
  | some entry => some entry
  | none => if limiter.buckets.size ≥ maxTrackedClients then none else some ⟨defaultBurst, now⟩

/-- `LoginLimiter.Allow`, at time `now`. -/
def allow (limiter : LoginLimiter) (now : Int) (client : String) : Bool × LoginLimiter :=
  let limiter := limiter.sweepLocked now
  match limiter.entry now client with
  | none => (false, limiter)
  | some entry =>
    let replenished := seconds (timeSub now entry.lastSeen) / seconds defaultRefill
    let tokens := min (entry.tokens + replenished) defaultBurst
    if tokens < 1 then (false, ⟨limiter.buckets.insert client ⟨tokens, now⟩⟩)
    else (true, ⟨limiter.buckets.insert client ⟨tokens - 1, now⟩⟩)

/-- `LoginLimiter.Refund`. -/
def refund (limiter : LoginLimiter) (client : String) : LoginLimiter :=
  match limiter.buckets[client]? with
  | some entry =>
    ⟨limiter.buckets.insert client { entry with tokens := min (entry.tokens + 1) defaultBurst }⟩
  | none => limiter

/-- `LoginLimiter.RetryAfter`. -/
def retryAfter : Int := defaultRefill

/-! ## The level of a client -/

/-- The tokens a client has at time `now`. -/
def level (limiter : LoginLimiter) (now : Int) (client : String) : ℚ :=
  TokenBucket.level defaultBurst defaultRefill now limiter.buckets[client]?

/-- A limiter as it may be at time `now`. -/
structure Sound (now : Int) (limiter : LoginLimiter) : Prop where
  buckets : ∀ (client : String) (bucket : Bucket), limiter.buckets[client]? = some bucket →
    bucket.Sound defaultBurst now
  size : limiter.buckets.size ≤ maxTrackedClients

variable {limiter : LoginLimiter} {now now' : Int} {client : String}

theorem refill_pos : (0 : ℚ) < defaultRefill := by norm_num [defaultRefill]

theorem sound_new (now : Int) : new.Sound now :=
  ⟨by simp [new], by simp [new, maxTrackedClients]⟩

theorem Sound.later (h : limiter.Sound now) (hle : now ≤ now') : limiter.Sound now' :=
  ⟨fun client bucket hb => (h.buckets client bucket hb).later hle, h.size⟩

theorem level_le (limiter : LoginLimiter) (now : Int) (client : String) :
    limiter.level now client ≤ defaultBurst :=
  level_le_burst _

theorem Sound.level_nonneg (h : limiter.Sound now) (client : String) :
    0 ≤ limiter.level now client :=
  TokenBucket.level_nonneg (by norm_num [defaultBurst]) refill_pos fun bucket hb =>
    h.buckets client bucket hb

theorem timeSub_gt {t u : Int} : timeSub t u > limiterSweepAfter ↔ t - u > limiterSweepAfter := by
  simp only [timeSub, limiterSweepAfter]
  omega

theorem getElem?_sweepLocked_eq_some {bucket : Bucket} :
    (limiter.sweepLocked now).buckets[client]? = some bucket ↔
      limiter.buckets[client]? = some bucket ∧ now - bucket.lastSeen ≤ limiterSweepAfter := by
  simp only [sweepLocked, Table.getElem?_deleteWhere, timeSub_gt, Option.filter_eq_some_iff]
  simp

theorem Sound.sweepLocked (h : limiter.Sound now) : (limiter.sweepLocked now).Sound now :=
  ⟨fun client bucket hb => h.buckets client bucket (getElem?_sweepLocked_eq_some.1 hb).1,
    Nat.le_trans Std.ExtTreeMap.size_filter_le_size h.size⟩

/-- **Only full buckets are swept.** -/
theorem Sound.level_sweepLocked (h : limiter.Sound now) (client : String) :
    (limiter.sweepLocked now).level now client = limiter.level now client := by
  cases hb : limiter.buckets[client]? with
  | none =>
    have hswept : (limiter.sweepLocked now).buckets[client]? = none := by
      refine Option.eq_none_iff_forall_ne_some.2 fun bucket hbucket => ?_
      rw [(getElem?_sweepLocked_eq_some.1 hbucket).1] at hb
      simp at hb
    rw [level, level, hb, hswept]
  | some bucket =>
    by_cases hkept : now - bucket.lastSeen ≤ limiterSweepAfter
    · rw [level, level, hb, getElem?_sweepLocked_eq_some.2 ⟨hb, hkept⟩]
    · have hswept : (limiter.sweepLocked now).buckets[client]? = none := by
        refine Option.eq_none_iff_forall_ne_some.2 fun bucket' hbucket => ?_
        obtain ⟨hb', hkept'⟩ := getElem?_sweepLocked_eq_some.1 hbucket
        obtain rfl : bucket = bucket' := Option.some.inj (hb.symm.trans hb')
        exact hkept hkept'
      have hidle : defaultBurst * defaultRefill ≤ ((now - bucket.lastSeen : ℤ) : ℚ) := by
        have hlong : (8 * (30 * 10 ^ 9) : ℤ) ≤ now - bucket.lastSeen := by
          simp only [limiterSweepAfter] at hkept
          omega
        have hburst : defaultBurst * defaultRefill = ((8 * (30 * 10 ^ 9) : ℤ) : ℚ) := by
          norm_num [defaultBurst, defaultRefill]
        rw [hburst]
        exact Int.cast_le.2 hlong
      rw [level, level, hb, hswept,
        level_idle refill_pos (h.buckets client bucket hb).nonneg hidle, TokenBucket.level]

/-- The bucket that `Allow` works on stands for the level of the client, and is not older than a
sweep leaves it. -/
theorem entry_eq_some (h : limiter.Sound now) {bucket : Bucket}
    (hentry : (limiter.sweepLocked now).entry now client = some bucket) :
    bucket.Sound defaultBurst now ∧ now - bucket.lastSeen ≤ limiterSweepAfter ∧
      TokenBucket.level defaultBurst defaultRefill now (some bucket) = limiter.level now client := by
  rw [← h.level_sweepLocked]
  rw [entry] at hentry
  split at hentry
  · rename_i entry hb
    obtain rfl := Option.some.inj hentry
    have hkept := (getElem?_sweepLocked_eq_some.1 hb).2
    exact ⟨h.sweepLocked.buckets client entry hb, hkept, by rw [level, hb]⟩
  · rename_i hb
    split at hentry
    · simp at hentry
    · obtain rfl := Option.some.inj hentry
      refine ⟨⟨by norm_num [defaultBurst], le_refl _, le_refl _⟩, ?_, ?_⟩
      · simp [limiterSweepAfter]
      · rw [level, hb, level_store (le_refl _), TokenBucket.level]

/-- Between two sweeps the time that has passed is a duration. -/
theorem timeSub_eq {bucket : Bucket} (hsound : bucket.Sound defaultBurst now)
    (hkept : now - bucket.lastSeen ≤ limiterSweepAfter) :
    timeSub now bucket.lastSeen = now - bucket.lastSeen := by
  have hle := hsound.lastSeen_le
  simp only [timeSub, limiterSweepAfter] at hkept ⊢
  omega

/-- And the tokens that are gained are counted exactly. -/
theorem replenished_eq {bucket : Bucket} (hsound : bucket.Sound defaultBurst now)
    (hkept : now - bucket.lastSeen ≤ limiterSweepAfter) :
    seconds (timeSub now bucket.lastSeen) / seconds defaultRefill =
      gained defaultRefill now bucket.lastSeen := by
  rw [timeSub_eq hsound hkept, seconds, seconds, gained, div_div_div_cancel_right₀ (by norm_num)]

/-- What storing a bucket does to the limiter, if there was one or there is room. -/
theorem Sound.insert (h : limiter.Sound now) {bucket bucket' : Bucket}
    (hentry : limiter.entry now client = some bucket) (hsound : bucket'.Sound defaultBurst now) :
    (⟨limiter.buckets.insert client bucket'⟩ : LoginLimiter).Sound now := by
  refine ⟨fun other b hb => ?_, ?_⟩
  · rw [Table.getElem?_insert] at hb
    split at hb
    · obtain rfl := Option.some.inj hb
      exact hsound
    · exact h.buckets other b hb
  · rw [Std.ExtTreeMap.size_insert]
    split
    · exact h.size
    · rename_i hnew
      have hnone : limiter.buckets[client]? = none := by simpa using hnew
      simp only [entry, hnone] at hentry
      split at hentry
      · simp at hentry
      · omega

theorem level_insert (bucket : Bucket) (other : String) :
    (⟨limiter.buckets.insert client bucket⟩ : LoginLimiter).level now other =
      if client = other then TokenBucket.level defaultBurst defaultRefill now (some bucket)
      else limiter.level now other := by
  rw [level, Table.getElem?_insert]
  split
  · rfl
  · rfl

/-- **What `Allow` does**: it takes a token from the client if it has one, and nobody else's level
changes. -/
theorem Sound.allow (h : limiter.Sound now) (client : String) :
    (limiter.allow now client).2.Sound now ∧
      (limiter.allow now client).2.level now client + (if (limiter.allow now client).1 then 1 else 0) =
        limiter.level now client ∧
      ∀ other, other ≠ client →
        (limiter.allow now client).2.level now other = limiter.level now other := by
  have hswept := h.sweepLocked
  cases hentry : (limiter.sweepLocked now).entry now client with
  | none =>
    simp only [LoginLimiter.allow, hentry]
    refine ⟨hswept, ?_, fun other _ => h.level_sweepLocked other⟩
    rw [h.level_sweepLocked]
    simp
  | some bucket =>
    obtain ⟨hsound, hkept, hlevel⟩ := entry_eq_some h hentry
    have hreplenished := replenished_eq hsound hkept
    have htokens : min (bucket.tokens + seconds (timeSub now bucket.lastSeen) /
        seconds defaultRefill) defaultBurst = limiter.level now client := by
      rw [hreplenished, ← hlevel]
      rfl
    have hnonneg := h.level_nonneg client
    have hle := limiter.level_le now client
    simp only [LoginLimiter.allow, hentry, htokens]
    split
    · refine ⟨hswept.insert hentry ⟨hnonneg, hle, le_refl _⟩, ?_, fun other hne => ?_⟩
      · rw [level_insert, if_pos rfl, level_store hle]
        simp
      · rw [level_insert, if_neg (Ne.symm hne), h.level_sweepLocked]
    · rename_i hone
      have hone' : 0 ≤ limiter.level now client - 1 := by linarith
      have hle' : limiter.level now client - 1 ≤ defaultBurst := by linarith
      refine ⟨hswept.insert hentry ⟨hone', hle', le_refl _⟩, ?_, fun other hne => ?_⟩
      · rw [level_insert, if_pos rfl, level_store hle']
        simp
      · rw [level_insert, if_neg (Ne.symm hne), h.level_sweepLocked]

/-- **What `Refund` does**: the client gains at most a token. -/
theorem Sound.refund (h : limiter.Sound now) (client : String) :
    (limiter.refund client).Sound now ∧
      (limiter.refund client).level now client ≤ limiter.level now client + 1 ∧
      ∀ other, other ≠ client → (limiter.refund client).level now other = limiter.level now other := by
  cases hb : limiter.buckets[client]? with
  | none =>
    simp only [LoginLimiter.refund, hb]
    exact ⟨h, by linarith, fun other _ => trivial⟩
  | some bucket =>
    have hsound := h.buckets client bucket hb
    have hentry : limiter.entry now client = some bucket := by simp [entry, hb]
    simp only [LoginLimiter.refund, hb]
    refine ⟨h.insert hentry ⟨?_, min_le_right _ _, hsound.lastSeen_le⟩, ?_, fun other hne => ?_⟩
    · exact le_min (by linarith [hsound.nonneg]) (by norm_num [defaultBurst])
    · rw [level_insert, if_pos rfl, level, hb]
      exact level_refund bucket
    · rw [level_insert, if_neg (Ne.symm hne)]

end LoginLimiter

end NexusTier
