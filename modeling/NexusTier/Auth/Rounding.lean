import NexusTier.Limits.Binary64
import NexusTier.Auth.Isolation

/-!
# The tokens of the limiter are floats

`LoginLimiter.allow` counts tokens exactly.  The source counts them in floats, so what time gives a
client is rounded when an attempt is made, and what the attempt leaves once more.  A client can be
short of a token by that much when its thirty seconds are over (`refused_at_sixty_seconds`).

## What is here

* `LoginLimiter.abs_replenished_sub_le`: the tokens that are gained are right up to the last bits.
* `LoginLimiter.HasLeft`: what a client has left of the tokens it has gained since a time, or of a
  full bucket, which is exact however often it is used.  An attempt costs a token and the rounding
  (`HasLeft.allowFloat`), and a refund nothing (`HasLeft.refundFloat`).

## What is left out

What the limiter does apart from its tokens is that of `LoginLimiter.allow`: sweeping, the room in
the table and the time a bucket was seen are not floats.
-/

set_option autoImplicit false

namespace NexusTier

open Relational TokenBucket Binary64

/-- `Duration.Seconds`; the whole seconds and the nanoseconds are floats as they are. -/
def secondsFloat (d : Int) : ℚ :=
  float64 ((d.tdiv (10 ^ 9) : ℤ) + float64 ((d.tmod (10 ^ 9) : ℤ) / 10 ^ 9))

/-- `replenished`, in `Allow`. -/
def replenishedFloat (now lastSeen : Int) : ℚ :=
  float64 (secondsFloat (timeSub now lastSeen) / secondsFloat defaultRefill)

namespace LoginLimiter

/-- The tokens that `Allow` finds in a bucket. -/
def tokensFloat (now : Int) (entry : Bucket) : ℚ :=
  min (float64 (entry.tokens + replenishedFloat now entry.lastSeen)) defaultBurst

/-- What it leaves there, and whether the attempt may proceed. -/
def spendFloat (now : Int) (entry : Bucket) : Bool × Bucket :=
  let tokens := tokensFloat now entry
  if tokens < 1 then (false, ⟨tokens, now⟩) else (true, ⟨float64 (tokens - 1), now⟩)

/-- `LoginLimiter.Allow`, at time `now`. -/
def allowFloat (limiter : LoginLimiter) (now : Int) (client : String) : Bool × LoginLimiter :=
  let limiter := limiter.sweepLocked now
  match limiter.entry now client with
  | none => (false, limiter)
  | some entry =>
    ((spendFloat now entry).1, ⟨limiter.buckets.insert client (spendFloat now entry).2⟩)

/-- `LoginLimiter.Refund`. -/
def refundFloat (limiter : LoginLimiter) (client : String) : LoginLimiter :=
  match limiter.buckets[client]? with
  | some entry =>
    ⟨limiter.buckets.insert client
      { entry with tokens := min (float64 (entry.tokens + 1)) defaultBurst }⟩
  | none => limiter

/-- What the rounding of one attempt can cost, in tokens. -/
def roundingError : ℚ := 1 / 2 ^ 41

variable {limiter : LoginLimiter} {now since : Int} {attempts : Nat} {client other : String}
  {entry : Bucket}

/-! ## Rounding -/

theorem secondsFloat_defaultRefill : secondsFloat defaultRefill = 30 := by
  have hrest : float64 0 = 0 := by exact_mod_cast @float64_natCast 0 (by norm_num)
  have hwhole : float64 30 = 30 := by exact_mod_cast @float64_natCast 30 (by norm_num)
  have hdiv : defaultRefill.tdiv (10 ^ 9) = 30 := by decide
  have hmod : defaultRefill.tmod (10 ^ 9) = 0 := by decide
  rw [secondsFloat, hdiv, hmod]
  simp [hrest, hwhole]

/-- A part is rounded, and then the sum. -/
theorem abs_float64_add_sub_le {whole part : ℚ} (hwhole : 0 ≤ whole) (hfew : whole ≤ 1800)
    (hpart : 0 ≤ part) (hlt : part < 1) : 0 ≤ float64 (whole + float64 part) ∧
      |float64 (whole + float64 part) - (whole + part)| ≤ 2 / 2 ^ 43 := by
  have hround := abs_float64_sub_le hpart (by linarith)
  have hnonneg := float64_nonneg hpart
  rw [abs_le] at hround
  have hsum := abs_float64_sub_le (add_nonneg hwhole hnonneg) (by linarith [hround.2])
  rw [abs_le] at hsum
  refine ⟨float64_nonneg (add_nonneg hwhole hnonneg), ?_⟩
  rw [abs_le]
  constructor
  · linarith [hround.1, hsum.1]
  · linarith [hround.2, hsum.2]

/-- Within half an hour the seconds are right up to two roundings. -/
theorem abs_secondsFloat_sub_le {d : Int} (hd : 0 ≤ d) (hle : d ≤ limiterSweepAfter) :
    0 ≤ secondsFloat d ∧ |secondsFloat d - seconds d| ≤ 2 / 2 ^ 43 := by
  have hwhole : (0 : ℚ) ≤ (d.tdiv (10 ^ 9) : ℤ) := by
    exact_mod_cast Int.tdiv_nonneg hd (by norm_num)
  have hfew : ((d.tdiv (10 ^ 9) : ℤ) : ℚ) ≤ 1800 := by
    have hdiv : d.tdiv (10 ^ 9) ≤ 1800 := by
      rw [Int.tdiv_eq_ediv_of_nonneg hd]
      simp only [limiterSweepAfter] at hle
      omega
    exact_mod_cast hdiv
  have hpart : (0 : ℚ) ≤ (d.tmod (10 ^ 9) : ℤ) / 10 ^ 9 :=
    div_nonneg (by exact_mod_cast Int.tmod_nonneg _ hd) (by norm_num)
  have hlt : ((d.tmod (10 ^ 9) : ℤ) : ℚ) / 10 ^ 9 < 1 := by
    rw [div_lt_one (by norm_num)]
    exact_mod_cast Int.tmod_lt_of_pos d (by norm_num)
  have hseconds : seconds d = (d.tdiv (10 ^ 9) : ℤ) + ((d.tmod (10 ^ 9) : ℤ) : ℚ) / 10 ^ 9 := by
    have hsplit : (d : ℚ) = ((10 ^ 9 * d.tdiv (10 ^ 9) + d.tmod (10 ^ 9) : ℤ) : ℚ) := by
      rw [Int.mul_tdiv_add_tmod]
    rw [seconds, hsplit]
    push_cast
    ring
  rw [hseconds]
  exact abs_float64_add_sub_le hwhole hfew hpart hlt

theorem abs_replenished_sub_le (hsound : entry.Sound defaultBurst now)
    (hkept : now - entry.lastSeen ≤ limiterSweepAfter) :
    0 ≤ replenishedFloat now entry.lastSeen ∧ replenishedFloat now entry.lastSeen ≤ 61 ∧
      |replenishedFloat now entry.lastSeen - gained defaultRefill now entry.lastSeen| ≤
        2 / 2 ^ 43 := by
  have hle := sub_nonneg.2 hsound.lastSeen_le
  obtain ⟨hnonneg, herror⟩ := abs_secondsFloat_sub_le hle hkept
  rw [abs_le] at herror
  have hgained : gained defaultRefill now entry.lastSeen = seconds (now - entry.lastSeen) / 30 := by
    have hrefill : ((defaultRefill : ℤ) : ℚ) = 10 ^ 9 * 30 := by norm_num [defaultRefill]
    rw [gained, seconds, hrefill, div_div]
  have hhour : seconds (now - entry.lastSeen) ≤ 1800 := by
    rw [seconds, div_le_iff₀ (by norm_num)]
    simp only [limiterSweepAfter] at hkept
    exact_mod_cast hkept.trans (by norm_num)
  rw [replenishedFloat, timeSub_eq hsound hkept, secondsFloat_defaultRefill, hgained]
  have hdiv : 0 ≤ secondsFloat (now - entry.lastSeen) / 30 := div_nonneg hnonneg (by norm_num)
  have hround := abs_float64_sub_le hdiv (by linarith [herror.2])
  rw [abs_le] at hround
  refine ⟨float64_nonneg hdiv, by linarith [hround.2, herror.2], ?_⟩
  rw [abs_le]
  constructor
  · linarith [hround.1, herror.1]
  · linarith [hround.2, herror.2]

theorem tokensFloat_nonneg (hsound : entry.Sound defaultBurst now)
    (hkept : now - entry.lastSeen ≤ limiterSweepAfter) : 0 ≤ tokensFloat now entry :=
  le_min (float64_nonneg (add_nonneg hsound.nonneg (abs_replenished_sub_le hsound hkept).1))
    (by norm_num [defaultBurst])

theorem tokensFloat_le : tokensFloat now entry ≤ defaultBurst := min_le_right _ _

/-- Whole tokens stay whole. -/
theorem whole_le_tokensFloat (hsound : entry.Sound defaultBurst now)
    (hkept : now - entry.lastSeen ≤ limiterSweepAfter)
    (h : defaultBurst - attempts ≤ entry.tokens) :
    defaultBurst - attempts ≤ tokensFloat now entry := by
  obtain hfew | hmany := Nat.le_total attempts 8
  · have hwhole : defaultBurst - attempts = ((8 - attempts : ℕ) : ℚ) := by
      rw [Nat.cast_sub hfew, defaultBurst]
      norm_num
    rw [hwhole] at h ⊢
    have hreplenished := (abs_replenished_sub_le hsound hkept).1
    refine le_min (natCast_le_float64 (by omega) (by linarith)) ?_
    rw [← hwhole]
    have hnonneg : (0 : ℚ) ≤ attempts := Nat.cast_nonneg attempts
    linarith
  · have hcast : (8 : ℚ) ≤ attempts := by exact_mod_cast hmany
    have hnonneg := tokensFloat_nonneg hsound hkept
    have hburst : defaultBurst = 8 := rfl
    linarith

/-- Up to the rounding, a bucket gains what time gives it. -/
theorem gained_le_tokensFloat (hsound : entry.Sound defaultBurst now)
    (hkept : now - entry.lastSeen ≤ limiterSweepAfter) :
    min (entry.tokens + gained defaultRefill now entry.lastSeen - 3 / 2 ^ 43) defaultBurst ≤
      tokensFloat now entry := by
  obtain ⟨hnonneg, hfew, herror⟩ := abs_replenished_sub_le hsound hkept
  rw [abs_le] at herror
  have hburst : entry.tokens ≤ 8 := hsound.le_burst
  have hround := abs_float64_sub_le (add_nonneg hsound.nonneg hnonneg) (by linarith)
  rw [abs_le] at hround
  exact min_le_min (by linarith [herror.1, hround.1]) (le_refl _)

/-! ## What a client has left -/

/-- What so many attempts leave of a full bucket, or of what time has given since. -/
def left (since : Int) (attempts : Nat) (now : Int) : ℚ :=
  min (defaultBurst - attempts)
    (gained defaultRefill now since - attempts * (1 + roundingError))

/-- The client has that left, if it has a bucket. -/
def HasLeft (since : Int) (attempts : Nat) (client : String) (limiter : LoginLimiter) : Prop :=
  ∀ bucket : Bucket, limiter.buckets[client]? = some bucket →
    left since attempts bucket.lastSeen ≤ bucket.tokens

/-- What the next attempt finds. -/
theorem left_le_tokensFloat (hsound : entry.Sound defaultBurst now)
    (hkept : now - entry.lastSeen ≤ limiterSweepAfter)
    (h : left since attempts entry.lastSeen ≤ entry.tokens) :
    min (defaultBurst - attempts)
        (gained defaultRefill now since - attempts * (1 + roundingError) - 3 / 2 ^ 43) ≤
      tokensFloat now entry := by
  rw [left, min_le_iff] at h
  obtain hwhole | hgained := h
  · exact (min_le_left _ _).trans (whole_le_tokensFloat hsound hkept hwhole)
  · have hattempts : (0 : ℚ) ≤ attempts := Nat.cast_nonneg attempts
    have hsince := @gained_add defaultRefill entry.lastSeen now since
    rw [min_comm]
    refine (min_le_min ?_ ?_).trans (gained_le_tokensFloat hsound hkept)
    · linarith
    · linarith

theorem left_le (since : Int) (attempts : Nat) (now : Int) :
    left since attempts now ≤ defaultBurst := by
  have hattempts : (0 : ℚ) ≤ attempts := Nat.cast_nonneg attempts
  refine (min_le_left _ _).trans ?_
  linarith

theorem left_succ_le (since : Int) (attempts : Nat) (now : Int) :
    left since (attempts + 1) now ≤ left since attempts now := by
  rw [left, left]
  push_cast
  refine min_le_min ?_ ?_
  · linarith
  · rw [roundingError]
    linarith

theorem spendFloat_allowed : (spendFloat now entry).1 = true ↔ 1 ≤ tokensFloat now entry := by
  rw [spendFloat]
  split
  · rename_i hless
    simpa using hless
  · rename_i hone
    simpa using hone

@[simp] theorem spendFloat_lastSeen : (spendFloat now entry).2.lastSeen = now := by
  rw [spendFloat]
  split
  · rfl
  · rfl

/-- A bucket stays between empty and full. -/
theorem spendFloat_sound (hsound : entry.Sound defaultBurst now)
    (hkept : now - entry.lastSeen ≤ limiterSweepAfter) :
    (spendFloat now entry).2.Sound defaultBurst now := by
  have hnonneg := tokensFloat_nonneg hsound hkept
  have hle : tokensFloat now entry ≤ 8 := tokensFloat_le
  rw [spendFloat]
  split
  · exact ⟨hnonneg, hle, le_refl now⟩
  · rename_i hone
    have hrest : 0 ≤ tokensFloat now entry - 1 := by linarith
    have hseven : float64 7 = 7 := by exact_mod_cast @float64_natCast 7 (by norm_num)
    refine ⟨float64_nonneg hrest, ?_, le_refl now⟩
    calc float64 (tokensFloat now entry - 1) ≤ float64 7 := float64_mono hrest (by linarith)
      _ ≤ 8 := by rw [hseven]; norm_num

/-- An attempt costs a token, and its rounding. -/
theorem left_le_spendFloat (hsound : entry.Sound defaultBurst now)
    (hkept : now - entry.lastSeen ≤ limiterSweepAfter)
    (h : left since attempts entry.lastSeen ≤ entry.tokens) :
    left since (attempts + 1) now ≤ (spendFloat now entry).2.tokens := by
  have hfound := left_le_tokensFloat hsound hkept h
  have hle : tokensFloat now entry ≤ 8 := tokensFloat_le
  rw [left]
  push_cast
  rw [spendFloat]
  split
  · refine le_trans (min_le_min ?_ ?_) hfound
    · linarith
    · rw [roundingError]
      linarith
  · rename_i hone
    have hrest : 0 ≤ tokensFloat now entry - 1 := by linarith
    have hround := abs_float64_sub_le hrest (by linarith)
    rw [abs_le] at hround
    rw [min_le_iff] at hfound ⊢
    obtain hwhole | hgained := hfound
    · -- a whole number of tokens less one is a float
      refine .inl ?_
      obtain hfew | hmany := Nat.le_total (attempts + 1) 8
      · have hcast : ((8 - (attempts + 1) : ℕ) : ℚ) = 8 - (attempts + 1) := by
          rw [Nat.cast_sub hfew]
          push_cast
          rfl
        rw [defaultBurst] at hwhole ⊢
        rw [← hcast]
        exact natCast_le_float64 (by omega) (by linarith)
      · have hcast : ((8 : ℕ) : ℚ) ≤ ((attempts + 1 : ℕ) : ℚ) := Nat.cast_le.2 hmany
        push_cast at hcast
        have hburst : defaultBurst = 8 := rfl
        linarith [float64_nonneg hrest]
    · refine .inr ?_
      rw [roundingError] at hgained ⊢
      linarith [hround.1]

/-! ## The table -/

theorem allowFloat_of_entry (hentry : (limiter.sweepLocked now).entry now client = some entry) :
    limiter.allowFloat now client = ((spendFloat now entry).1,
      ⟨(limiter.sweepLocked now).buckets.insert client (spendFloat now entry).2⟩) := by
  simp only [allowFloat, hentry]

theorem allowFloat_of_saturated (hentry : (limiter.sweepLocked now).entry now client = none) :
    limiter.allowFloat now client = (false, limiter.sweepLocked now) := by
  simp only [allowFloat, hentry]

theorem Sound.allowFloat (h : limiter.Sound now) (client : String) :
    (limiter.allowFloat now client).2.Sound now := by
  cases hentry : (limiter.sweepLocked now).entry now client with
  | none =>
    rw [allowFloat_of_saturated hentry]
    exact h.sweepLocked
  | some entry =>
    obtain ⟨hsound, hkept, -⟩ := entry_eq_some h hentry
    rw [allowFloat_of_entry hentry]
    exact h.sweepLocked.insert hentry (spendFloat_sound hsound hkept)

theorem Sound.refundFloat (h : limiter.Sound now) (client : String) :
    (limiter.refundFloat client).Sound now := by
  cases hb : limiter.buckets[client]? with
  | none =>
    simp only [LoginLimiter.refundFloat, hb]
    exact h
  | some bucket =>
    have hsound := h.buckets client bucket hb
    have hentry : limiter.entry now client = some bucket := by simp [entry, hb]
    simp only [LoginLimiter.refundFloat, hb]
    refine h.insert hentry ⟨le_min (float64_nonneg ?_) ?_, min_le_right _ _, hsound.lastSeen_le⟩
    · linarith [hsound.nonneg]
    · norm_num [defaultBurst]

/-- A client that has no bucket has a full one. -/
theorem HasLeft.of_entry (h : limiter.HasLeft since attempts client)
    (hentry : (limiter.sweepLocked now).entry now client = some entry) :
    left since attempts entry.lastSeen ≤ entry.tokens := by
  rw [LoginLimiter.entry] at hentry
  split at hentry
  · rename_i bucket hb
    obtain rfl := Option.some.inj hentry
    exact h bucket (getElem?_sweepLocked_eq_some.1 hb).1
  · split at hentry
    · simp at hentry
    · obtain rfl := Option.some.inj hentry
      exact left_le _ _ _

theorem HasLeft.sweepLocked (h : limiter.HasLeft since attempts client) :
    (limiter.sweepLocked now).HasLeft since attempts client := fun bucket hb =>
  h bucket (getElem?_sweepLocked_eq_some.1 hb).1

theorem HasLeft.succ (h : limiter.HasLeft since attempts client) :
    limiter.HasLeft since (attempts + 1) client := fun bucket hb =>
  (left_succ_le _ _ _).trans (h bucket hb)

/-- **An attempt of a client costs it a token and the rounding, and others nothing.** -/
theorem HasLeft.allowFloat (h : limiter.HasLeft since attempts client)
    (hsound : limiter.Sound now) (other : String) :
    (limiter.allowFloat now other).2.HasLeft since
      (attempts + if other = client then 1 else 0) client := by
  cases hentry : (limiter.sweepLocked now).entry now other with
  | none =>
    rw [allowFloat_of_saturated hentry]
    split
    · exact h.sweepLocked.succ
    · exact h.sweepLocked
  | some entry =>
    rw [allowFloat_of_entry hentry]
    intro bucket hb
    rw [Table.getElem?_insert] at hb
    split at hb
    · rename_i hclient
      subst hclient
      obtain rfl := Option.some.inj hb
      obtain ⟨hentrySound, hkept, -⟩ := entry_eq_some hsound hentry
      rw [spendFloat_lastSeen, if_pos rfl]
      exact left_le_spendFloat hentrySound hkept (h.of_entry hentry)
    · rename_i hclient
      rw [if_neg hclient]
      exact h.sweepLocked bucket hb

/-- **A refund costs nobody anything.** -/
theorem HasLeft.refundFloat (h : limiter.HasLeft since attempts client)
    (hsound : limiter.Sound now) (other : String) :
    (limiter.refundFloat other).HasLeft since attempts client := by
  cases hb : limiter.buckets[other]? with
  | none =>
    simp only [LoginLimiter.refundFloat, hb]
    exact h
  | some entry =>
    simp only [LoginLimiter.refundFloat, hb]
    intro bucket hbucket
    rw [Table.getElem?_insert] at hbucket
    split at hbucket
    · rename_i hclient
      subst hclient
      obtain rfl := Option.some.inj hbucket
      obtain ⟨hnonneg, hle, -⟩ := hsound.buckets other entry hb
      have hburst : entry.tokens ≤ 8 := hle
      have hround := abs_float64_sub_le (add_nonneg hnonneg zero_le_one) (by linarith)
      rw [abs_le] at hround
      refine le_min ((h entry hb).trans ?_) (left_le _ _ _)
      linarith [hround.1]
    · exact h bucket hbucket

/-! ### A token short by its last bit -/

/-- After a burst of eight, an attempt while the next two tokens are being refilled. -/
def afterBurst : List Int := List.replicate 8 0 ++ [33815000000]

/-- At the end of the sixty seconds floats refuse what exact counting allows. -/
theorem refused_at_sixty_seconds :
    ((afterBurst.foldl (fun limiter now => (limiter.allowFloat now "203.0.113.9").2) new).allowFloat
        60000000000 "203.0.113.9").1 = false ∧
      ((afterBurst.foldl (fun limiter now => (limiter.allow now "203.0.113.9").2) new).allow
        60000000000 "203.0.113.9").1 = true := by
  decide +kernel

end LoginLimiter

end NexusTier
