import NexusTier.Encoding.Text

/-!
# Durations as texts

A duration is a number of nanoseconds in 64 bits, and is written as a sum of numbers with units
(`1h15m30.5s`).  `parseDuration` reads it as Go's standard library does, in unsigned arithmetic of
64 bits; the fraction of a term goes through floating point.

A term takes a byte at least, so the length of the text is fuel enough (`terms_of_le`).

## What is here

* `leadingInt`, `leadingFraction` and `fraction`: the digits of a term.
* `amount`: what a term comes to in its unit; this is where the floats are.
* `parseDuration`: terms up to the end of the text, with or without a sign.
* `terms_of_le`: more fuel makes no difference.

## What is left out

The text that an error quotes.  That a duration is written back by `Duration.String` is not
modelled, since nothing here writes one.
-/

set_option autoImplicit false

namespace Encoding

inductive DurationError where
  | invalid
  | missingUnit
  | unknownUnit
deriving DecidableEq

def isDigit (c : UInt8) : Bool := 48 ≤ c && c ≤ 57

/-- `1<<63`: what a duration may amount to if it is negative. -/
def durationLimit : UInt64 := 9223372036854775808

/-- `[0-9]*` as a number. -/
def leadingInt : Bytes → UInt64 → Option (UInt64 × Bytes)
  | [], x => some (x, [])
  | c :: s, x =>
    if isDigit c then
      if durationLimit / 10 < x then none
      else
        let x := x * 10 + (c - 48).toUInt64
        if durationLimit < x then none else leadingInt s x
    else some (x, c :: s)

/-- `[0-9]*` as a numerator, and the power of ten that is its denominator.  Digits that are too many
are passed over. -/
def leadingFraction : Bytes → UInt64 → Float → Bool → UInt64 × Float × Bytes
  | [], x, scale, _ => (x, scale, [])
  | c :: s, x, scale, overflow =>
    if isDigit c then
      if overflow || (durationLimit - 1) / 10 < x then leadingFraction s x scale true
      else
        let y := x * 10 + (c - 48).toUInt64
        if durationLimit < y then leadingFraction s x scale true
        else leadingFraction s y (scale * 10) false
    else (x, scale, c :: s)

def unitMap : List (Bytes × UInt64) :=
  [(ascii "ns", 1), (ascii "us", 1000), (ascii "µs", 1000), (ascii "μs", 1000),
    (ascii "ms", 1000000), (ascii "s", 1000000000), (ascii "m", 60000000000),
    (ascii "h", 3600000000000)]

/-- `(\.[0-9]*)?`: the fraction, what is behind it, and whether it had digits. -/
def fraction : Bytes → UInt64 × Float × Bytes × Bool
  | [] => (0, 1, [], false)
  | c :: s =>
    if c = '.'.toUInt8 then
      let (f, scale, rest) := leadingFraction s 0 1 false
      (f, scale, rest, rest.length ≠ s.length)
    else (0, 1, c :: s, false)

/-- What a number with a fraction is in a unit, if that is not too much. -/
def amount (v f : UInt64) (scale : Float) (unit : UInt64) : Option UInt64 :=
  if durationLimit / unit < v then none
  else if 0 < f then
    let v := v * unit + (f.toFloat * (unit.toFloat / scale)).toUInt64
    if durationLimit < v then none else some v
  else some (v * unit)

/-- A number with its unit, and what is behind. -/
def term (s : Bytes) : Except DurationError (UInt64 × Bytes) :=
  if s.head?.any (fun c => c = '.'.toUInt8 || isDigit c) = false then .error .invalid
  else
    match leadingInt s 0 with
    | none => .error .invalid
    | some (v, afterInt) =>
      let (f, scale, afterFraction, post) := fraction afterInt
      if afterInt.length = s.length ∧ post = false then .error .invalid
      else
        let u := afterFraction.takeWhile fun c => !(c = '.'.toUInt8 || isDigit c)
        if u = [] then .error .missingUnit
        else
          match unitMap.lookup u with
          | none => .error .unknownUnit
          | some unit =>
            match amount v f scale unit with
            | none => .error .invalid
            | some v => .ok (v, afterFraction.drop u.length)

/-- Terms up to the end of the text. -/
def terms : Nat → Bytes → UInt64 → Except DurationError UInt64
  | _, [], d => .ok d
  | 0, _ :: _, _ => .error .invalid
  | fuel + 1, c :: s, d =>
    match term (c :: s) with
    | .error e => .error e
    | .ok (v, rest) =>
      if durationLimit < d + v then .error .invalid else terms fuel rest (d + v)

/-- `time.ParseDuration`. -/
def parseDuration (text : Bytes) : Except DurationError Int64 :=
  let neg := text.head? = some '-'.toUInt8
  let s := if neg ∨ text.head? = some '+'.toUInt8 then text.drop 1 else text
  if s = ascii "0" then .ok 0
  else if s = [] then .error .invalid
  else
    match terms s.length s 0 with
    | .error e => .error e
    | .ok d =>
      if neg then .ok (-d.toInt64)
      else if durationLimit - 1 < d then .error .invalid
      else .ok d.toInt64

/-! ## There is fuel enough -/

theorem length_leadingInt {s rest : Bytes} {x v : UInt64} (h : leadingInt s x = some (v, rest)) :
    rest.length ≤ s.length := by
  induction s generalizing x with
  | nil =>
    obtain ⟨-, rfl⟩ := Prod.mk.inj (Option.some.inj h)
    exact Nat.le_refl _
  | cons c s ih =>
    rw [leadingInt] at h
    split at h
    · split at h
      · cases h
      · dsimp only at h
        split at h
        · cases h
        · exact (ih h).trans (Nat.le_succ _)
    · obtain ⟨-, rfl⟩ := Prod.mk.inj (Option.some.inj h)
      exact Nat.le_refl _

theorem length_leadingFraction (s : Bytes) (x : UInt64) (scale : Float) (overflow : Bool) :
    (leadingFraction s x scale overflow).2.2.length ≤ s.length := by
  induction s generalizing x scale overflow with
  | nil => exact Nat.le_refl _
  | cons c s ih =>
    rw [leadingFraction]
    split
    · split
      · exact (ih _ _ _).trans (Nat.le_succ _)
      · dsimp only
        split
        · exact (ih _ _ _).trans (Nat.le_succ _)
        · exact (ih _ _ _).trans (Nat.le_succ _)
    · exact Nat.le_refl _

theorem length_fraction (s : Bytes) : (fraction s).2.2.1.length ≤ s.length := by
  cases s with
  | nil => exact Nat.le_refl _
  | cons c s =>
    rw [fraction]
    split
    · exact (length_leadingFraction s 0 1 false).trans (Nat.le_succ _)
    · exact Nat.le_refl _

/-- A term takes a byte at least: its unit. -/
theorem length_term {s rest : Bytes} {v : UInt64} (h : term s = .ok (v, rest)) :
    rest.length < s.length := by
  rw [term] at h
  split at h
  · cases h
  · split at h
    · cases h
    · next v' afterInt hint =>
      have hlen := (length_fraction afterInt).trans (length_leadingInt hint)
      generalize fraction afterInt = r at h hlen
      obtain ⟨f, scale, afterFraction, post⟩ := r
      dsimp only at h hlen
      split at h
      · cases h
      · split at h
        · cases h
        · next hunit =>
          split at h
          · cases h
          · split at h
            · cases h
            · obtain ⟨-, rfl⟩ := Prod.mk.inj (Except.ok.inj h)
              have hpos := List.length_pos_of_ne_nil hunit
              have hle := (List.takeWhile_prefix (l := afterFraction)
                fun c => !(c = '.'.toUInt8 || isDigit c)).length_le
              rw [List.length_drop]
              omega

/-- The length of the text is fuel enough: more of it changes nothing. -/
theorem terms_of_le {fuel fuel' : Nat} {s : Bytes} {d : UInt64} (h : s.length ≤ fuel)
    (h' : s.length ≤ fuel') : terms fuel s d = terms fuel' s d := by
  induction fuel generalizing fuel' s d with
  | zero =>
    obtain rfl := List.length_eq_zero_iff.1 (Nat.le_zero.1 h)
    cases fuel' <;> rfl
  | succ fuel ih =>
    cases s with
    | nil => cases fuel' <;> rfl
    | cons c s =>
      cases fuel' with
      | zero => simp at h'
      | succ fuel' =>
        rw [terms, terms]
        cases hterm : term (c :: s) with
        | error e => rfl
        | ok r =>
          have hlt := length_term hterm
          rw [List.length_cons] at h h' hlt
          simp only [@ih fuel' r.2 _ (by omega) (by omega)]

end Encoding
