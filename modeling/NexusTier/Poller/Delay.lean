import NexusTier.Config.Load

/-!
# The delay between two polls

`Worker.Run` waits for the interval, give or take the jitter.  The delay is computed in `int64`, with
a draw of `rand.Int64N` from the range `span`, twice the jitter; `Int64N` panics if that is not
positive.

`Load` sees to it that the jitter is less than the interval, and that is not enough: twice the jitter
may be too much for an `int64`, and so may the interval with the jitter.  What is needed is that the
longest delay fits (`forall_delaySafe_iff`).

## What is here

* `int64N`, `span` and `wait`: the computation, in the arithmetic of `int64`.
* `DelaySafe`: what is wanted of an interval and a jitter.
* `forall_delaySafe_iff`: for which of them it holds.
* `delaySafe_of_load_iff`: for which configurations that `Load` accepts.
* `poll_delay_panics`: one for which it does not.

## What is left out

The timer.  A delay that is negative or zero makes it fire at once, which is why it counts as
unsafe.
-/

set_option autoImplicit false

open Encoding

namespace NexusTier

namespace Poller

/-- `rand.Int64N`, with what is random as a natural number; `none` is its panic. -/
def int64N (n : Int64) (draw : Nat) : Option Int64 :=
  if n ≤ 0 then none else some (Int64.ofNat (draw % n.toNatClampNeg))

/-- `span := 2 * worker.jitter`. -/
def span (jitter : Int64) : Int64 := 2 * jitter

/-- The delay that `Worker.Run` computes. -/
def wait (interval jitter : Int64) (draw : Nat) : Option Int64 :=
  if 0 < jitter then (int64N (span jitter) draw).map fun r => interval - jitter + r
  else some interval

/-- The delay is the interval if there is no jitter.  If there is, `Int64N` does not panic, no step of
the computation overflows, and the delay is positive and no further from the interval than the
jitter. -/
def DelaySafe (interval jitter : Int64) (draw : Nat) : Prop :=
  if jitter = 0 then wait interval jitter draw = some interval ∧ 0 < interval.toInt
  else
    ∃ r w, int64N (span jitter) draw = some r ∧ wait interval jitter draw = some w ∧
      (span jitter).toInt = 2 * jitter.toInt ∧
      (interval - jitter).toInt = interval.toInt - jitter.toInt ∧
      w.toInt = (interval - jitter).toInt + r.toInt ∧
      interval.toInt - jitter.toInt ≤ w.toInt ∧ w.toInt < interval.toInt + jitter.toInt ∧
      0 < w.toInt

section Arithmetic

variable {interval jitter : Int64}

/-- What fits is what is computed. -/
theorem bmod_of_fits {n : Int} (hlo : -2 ^ 63 ≤ n) (hhi : n < 2 ^ 63) : n.bmod (2 ^ 64) = n := by
  rw [Int.bmod_eq_of_le (by omega) (by omega)]

theorem toInt_span (hjitter : 0 ≤ jitter.toInt) (h : 2 * jitter.toInt < 2 ^ 63) :
    (span jitter).toInt = 2 * jitter.toInt := by
  have htwo : (2 : Int64).toInt = 2 := rfl
  rw [span, Int64.toInt_mul, htwo]
  exact bmod_of_fits (by omega) h

theorem toInt_base (hjitter : 0 ≤ jitter.toInt) (hlt : jitter.toInt < interval.toInt) :
    (interval - jitter).toInt = interval.toInt - jitter.toInt := by
  have hhi := interval.toInt_lt
  rw [Int64.toInt_sub]
  exact bmod_of_fits (by omega) (by omega)

/-- A draw from a positive range is in the range, and each number of the range can be drawn. -/
theorem int64N_of_pos (draw : Nat) {n : Int64} (hn : 0 < n) :
    ∃ r, int64N n draw = some r ∧ r.toInt = draw % n.toInt := by
  have hpos := (Int64.toNatClampNeg_pos_iff n).2 hn
  have hlt := n.toNatClampNeg_lt
  have hmod := Nat.mod_lt draw hpos
  refine ⟨Int64.ofNat (draw % n.toNatClampNeg), if_neg (Int64.not_le.2 hn), ?_⟩
  rw [Int64.toInt_ofNat_of_lt (by omega), Int.natCast_emod,
    Int64.cast_toNatClampNeg n (Int64.le_of_lt hn)]

theorem delaySafe_zero (hinterval : 0 < interval.toInt) (draw : Nat) :
    DelaySafe interval 0 draw := by
  rw [DelaySafe, if_pos rfl]
  exact ⟨rfl, hinterval⟩

theorem span_pos (hjitter : 0 < jitter.toInt) (hspan : (span jitter).toInt = 2 * jitter.toInt) :
    0 < span jitter := by
  have hzero : (0 : Int64).toInt = 0 := rfl
  rw [Int64.lt_iff_toInt_lt, hspan, hzero]
  omega

/-- The greatest draw makes the longest delay, and a delay is an `int64`. -/
theorem fits_of_delaySafe (hjitter : 0 < jitter.toInt)
    (h : DelaySafe interval jitter (2 * jitter.toInt - 1).toNat) :
    interval.toInt + jitter.toInt ≤ 2 ^ 63 := by
  have hne : jitter ≠ 0 := by
    rintro rfl
    exact absurd hjitter (by decide)
  rw [DelaySafe, if_neg hne] at h
  obtain ⟨r, w, hr, -, hspan, hbase, hw, -⟩ := h
  obtain ⟨r', hr', hdraw⟩ := int64N_of_pos (2 * jitter.toInt - 1).toNat (span_pos hjitter hspan)
  obtain rfl : r = r' := Option.some.inj (hr.symm.trans hr')
  have hgreatest : r.toInt = 2 * jitter.toInt - 1 := by
    rw [hdraw, hspan, Int.toNat_of_nonneg (by omega)]
    exact Int.emod_eq_of_lt (by omega) (by omega)
  have hwhi := w.toInt_lt
  omega

theorem delaySafe_of_fits (hjitter : 0 < jitter.toInt) (hlt : jitter.toInt < interval.toInt)
    (hfits : interval.toInt + jitter.toInt ≤ 2 ^ 63) (draw : Nat) :
    DelaySafe interval jitter draw := by
  have hpos : 0 < jitter := Int64.lt_iff_toInt_lt.2 hjitter
  have hne : jitter ≠ 0 := by
    rintro rfl
    exact absurd hpos (by decide)
  have hspan := toInt_span (Int.le_of_lt hjitter) (by omega)
  have hbase := toInt_base (Int.le_of_lt hjitter) hlt
  obtain ⟨r, hr, hdraw⟩ := int64N_of_pos draw (span_pos hjitter hspan)
  have hrlo : 0 ≤ r.toInt := hdraw ▸ Int.emod_nonneg _ (by omega)
  have hrhi : r.toInt < 2 * jitter.toInt := by
    rw [hdraw, ← hspan]
    exact Int.emod_lt_of_pos _ (by omega)
  have hsum : (interval - jitter + r).toInt = (interval - jitter).toInt + r.toInt := by
    rw [Int64.toInt_add, hbase]
    exact bmod_of_fits (by omega) (by omega)
  have hwait : wait interval jitter draw = some (interval - jitter + r) := by
    rw [wait, if_pos hpos, hr]
    rfl
  rw [DelaySafe, if_neg hne]
  exact ⟨r, interval - jitter + r, hr, hwait, hspan, hbase, hsum, by omega, by omega, by omega⟩

/-- The delay is safe for every draw when the longest delay fits. -/
theorem forall_delaySafe_iff (hjitter : 0 ≤ jitter) (hlt : jitter < interval) :
    (∀ draw, DelaySafe interval jitter draw) ↔ interval.toInt + jitter.toInt ≤ 2 ^ 63 := by
  have hlt' := Int64.lt_iff_toInt_lt.1 hlt
  by_cases hj : jitter = 0
  · subst hj
    have hzero : (0 : Int64).toInt = 0 := rfl
    have hhi := interval.toInt_lt
    rw [hzero] at hlt' ⊢
    exact iff_of_true (delaySafe_zero hlt') (by omega)
  · have hpos : 0 < jitter.toInt :=
      Int64.lt_iff_toInt_lt.1 (Int64.lt_of_le_of_ne hjitter (Ne.symm hj))
    exact ⟨fun hsafe => fits_of_delaySafe hpos (hsafe _),
      fun hfits => delaySafe_of_fits hpos hlt' hfits⟩

end Arithmetic

/-- **When the delays of an accepted configuration are safe**: when the interval and the jitter
together are no more than `2 ^ 63`. -/
theorem delaySafe_of_load_iff {net : Net} {getenv : Environment} {config : Config}
    (h : load net getenv = .ok config) :
    (∀ draw, DelaySafe config.pollInterval config.pollJitter draw) ↔
      config.pollInterval.toInt + config.pollJitter.toInt ≤ 2 ^ 63 :=
  forall_delaySafe_iff (load_checked h).pollJitter (load_checked h).pollJitter_lt

/-! ### The longest intervals -/

/-- The addresses of a controller on its own host. -/
def localNet : Net where
  parseURL text :=
    if text = ascii "http://127.0.0.1:11211" then some (ascii "http", ascii "127.0.0.1:11211")
    else if text = ascii "postgres://localhost/nexustier" then
      some (ascii "postgres", ascii "localhost")
    else none
  splitHostPort text := if text = ascii "127.0.0.1:8080" then some (ascii "127.0.0.1") else none
  parseIP text := if text = ascii "127.0.0.1" then some true else none

/-- An environment with a database and, it may be, an interval and a jitter. -/
def pollEnvironment (interval jitter : String) : Environment := fun name =>
  if name = "NEXUSTIER_CONTROLLER_DATABASE_URL" then ascii "postgres://localhost/nexustier"
  else if name = "NEXUSTIER_CONTROLLER_POLL_INTERVAL" then ascii interval
  else if name = "NEXUSTIER_CONTROLLER_POLL_JITTER" then ascii jitter
  else []

/-- What is loaded then, but for the interval and the jitter. -/
def pollConfig (interval jitter : Int64) : Config where
  gatewayURL := ascii "http://127.0.0.1:11211"
  databaseURL := ascii "postgres://localhost/nexustier"
  listenAddress := ascii "127.0.0.1:8080"
  pollInterval := interval
  pollJitter := jitter
  requestTimeout := 20 * second
  shutdownTimeout := 10 * second
  metricRetention := 720 * hour
  cleanupInterval := 6 * hour
  cleanupBatchSize := 10000
  authMode := ascii "auto"
  authUsername := ascii "admin"
  authPasswordHash := []
  sessionKey := []
  sessionTTL := 12 * hour
  secureCookie := true

theorem delaySafe_defaults :
    load localNet (pollEnvironment "" "") = .ok (pollConfig (15 * second) (3 * second)) ∧
      ∀ draw, DelaySafe (15 * second) (3 * second) draw := by
  have hload : load localNet (pollEnvironment "" "") =
      .ok (pollConfig (15 * second) (3 * second)) := by
    decide +kernel
  have hfits : (15 * second).toInt + (3 * second).toInt ≤ 2 ^ 63 := by decide
  exact ⟨hload, (delaySafe_of_load_iff hload).2 hfits⟩

/-- With the longest interval in hours and half of it for the jitter, `Int64N` panics. -/
theorem poll_delay_panics :
    load localNet (pollEnvironment "2562047h" "1281024h") =
        .ok (pollConfig (2562047 * hour) (1281024 * hour)) ∧
      ∀ draw, wait (2562047 * hour) (1281024 * hour) draw = none := by
  refine ⟨by decide +kernel, fun draw => ?_⟩
  have hspan : span (1281024 * hour) ≤ 0 := by decide
  rw [wait, if_pos (by decide), int64N, if_pos hspan]
  rfl

end Poller

end NexusTier
