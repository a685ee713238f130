import Mathlib.Algebra.Order.Field.Rat
import Mathlib.Algebra.Order.Group.MinMax
import Mathlib.Tactic.Linarith
import Mathlib.Tactic.Ring

/-!
# Token buckets

A bucket holds at most `burst` tokens and gains one in every `refill` units of time.  What is stored
is how many it held at a time; `level` is how many it holds now.  Where nothing is stored the bucket
is full, so a bucket may be forgotten once it has filled up (`level_idle`).

The level is all that counts about a bucket.  Reading it does not change it (`level_store`), a token
that is taken lowers it by one, one that is given back raises it by at most one, and time raises it
by no more than the refill (`level_later`).

## What is here

* `Bucket` and `level`: what is stored, and what it stands for.
* `level_nonneg` and `level_le_burst`: the bounds.
* `level_store`, `level_refund`, `level_later` and `level_idle`: what the operations do to the
  level.

Nothing here names a system or a unit of time.  Tokens are rationals, so they are never rounded.
-/

set_option autoImplicit false

namespace TokenBucket

/-- So many tokens, at that time. -/
structure Bucket where
  tokens : ℚ
  lastSeen : ℤ
deriving DecidableEq

/-- The time that has passed since `earlier`, in tokens. -/
def gained (refill : ℚ) (now earlier : ℤ) : ℚ := ((now - earlier : ℤ) : ℚ) / refill

/-- The tokens in a bucket at time `now`. -/
def level (burst refill : ℚ) (now : ℤ) : Option Bucket → ℚ
  | none => burst
  | some bucket => min (bucket.tokens + gained refill now bucket.lastSeen) burst

/-- A bucket as it may be at time `now`. -/
structure Bucket.Sound (burst : ℚ) (now : ℤ) (bucket : Bucket) : Prop where
  nonneg : 0 ≤ bucket.tokens
  le_burst : bucket.tokens ≤ burst
  lastSeen_le : bucket.lastSeen ≤ now

variable {burst refill : ℚ} {now now' : ℤ} {bucket : Bucket}

theorem Bucket.Sound.later (h : bucket.Sound burst now) (hle : now ≤ now') :
    bucket.Sound burst now' :=
  ⟨h.nonneg, h.le_burst, h.lastSeen_le.trans hle⟩

theorem gained_nonneg (hrefill : 0 < refill) (hle : now ≤ now') : 0 ≤ gained refill now' now := by
  have hdiff : (0 : ℚ) ≤ ((now' - now : ℤ) : ℚ) := by exact_mod_cast sub_nonneg.2 hle
  exact div_nonneg hdiff hrefill.le

@[simp] theorem gained_self : gained refill now now = 0 := by simp [gained]

theorem gained_add (now now' earlier : ℤ) :
    gained refill now' earlier = gained refill now earlier + gained refill now' now := by
  rw [gained, gained, gained, ← add_div]
  congr 1
  push_cast
  ring

theorem level_le_burst (stored : Option Bucket) : level burst refill now stored ≤ burst := by
  cases stored with
  | none => exact le_refl burst
  | some bucket => exact min_le_right _ _

theorem level_nonneg (hburst : 0 ≤ burst) (hrefill : 0 < refill) {stored : Option Bucket}
    (h : ∀ bucket ∈ stored, bucket.Sound burst now) : 0 ≤ level burst refill now stored := by
  cases stored with
  | none => exact hburst
  | some bucket =>
    have hsound := h bucket rfl
    exact le_min (add_nonneg hsound.nonneg (gained_nonneg hrefill hsound.lastSeen_le)) hburst

/-- Time raises the level by no more than the refill. -/
theorem level_later (hrefill : 0 < refill) (hle : now ≤ now') (stored : Option Bucket) :
    level burst refill now' stored ≤ level burst refill now stored + gained refill now' now := by
  have hgain := gained_nonneg hrefill hle
  cases stored with
  | none => exact le_add_of_nonneg_right hgain
  | some bucket =>
    rw [level, level, gained_add now, ← add_assoc, min_add]
    exact min_le_min (le_refl _) (le_add_of_nonneg_right hgain)

/-- Storing the level, or less, as that of now. -/
theorem level_store {tokens : ℚ} (hle : tokens ≤ burst) :
    level burst refill now (some ⟨tokens, now⟩) = tokens := by
  simp [level, hle]

/-- A token that is given back raises the level by at most one. -/
theorem level_refund (bucket : Bucket) :
    level burst refill now (some { bucket with tokens := min (bucket.tokens + 1) burst }) ≤
      level burst refill now (some bucket) + 1 := by
  have hmin := min_le_left (bucket.tokens + 1) burst
  show min (min (bucket.tokens + 1) burst + gained refill now bucket.lastSeen) burst ≤
    min (bucket.tokens + gained refill now bucket.lastSeen) burst + 1
  have hadd := min_add_add_right (bucket.tokens + gained refill now bucket.lastSeen) burst 1
  rw [← hadd]
  refine min_le_min ?_ ?_
  · linarith
  · linarith

/-- A bucket that has not been seen for long enough is full. -/
theorem level_idle (hrefill : 0 < refill) (hnonneg : 0 ≤ bucket.tokens)
    (hidle : burst * refill ≤ ((now - bucket.lastSeen : ℤ) : ℚ)) :
    level burst refill now (some bucket) = burst := by
  have hgained : burst ≤ gained refill now bucket.lastSeen := (le_div_iff₀ hrefill).2 hidle
  exact min_eq_right (by linarith)

end TokenBucket
