import Mathlib.Data.Nat.Digits.Defs
import Mathlib.Data.List.Basic
import Mathlib.Data.List.Induction
import Mathlib.Tactic.Common

/-!
# Texts as bytes

What a program reads from outside is a list of bytes.  Two encodings into bytes that can be read
back, and that leave the separators of a larger text alone.  At the end, how digits of numbers in
base sixteen are read (`ofHex`), and what is blank (`isBlank`).

* Base64 without padding, with the alphabet of URLs (`encode64`, `decode64`) and with the standard
  one (`encodeStd64`, `decodeStd64`), as a lenient decoder reads it: line ends are skipped, and the
  bits left over at the end are not looked at.
* Whole numbers in decimal (`formatInt`, `parseInt`), read into 64 bits.

`decode64_encode64` and `parseInt_formatInt` are the round trips; `not_mem_encode64` and
`not_mem_formatInt` say which bytes do not occur.  `decodeStd64_isSome_iff` says which texts are
base64 at all.

## What is left out

Texts are lists of bytes throughout, so nothing here depends on whether they are valid UTF-8; only
`isBlank` looks at characters.
-/

set_option autoImplicit false

namespace Encoding

abbrev Bytes := List UInt8

/-- The bytes of a text. -/
def ascii (s : String) : Bytes := s.toByteArray.data.toList

/-! ## Base64 -/

/-- The digit for six bits. -/
def digit64 (n : Nat) : UInt8 :=
  if n < 26 then UInt8.ofNat (65 + n)
  else if n < 52 then UInt8.ofNat (71 + n)
  else if n < 62 then UInt8.ofNat (n - 4)
  else if n = 62 then '-'.toUInt8
  else '_'.toUInt8

/-- The six bits of a digit. -/
def value64 (c : UInt8) : Option Nat :=
  if 65 ≤ c ∧ c ≤ 90 then some (c.toNat - 65)
  else if 97 ≤ c ∧ c ≤ 122 then some (c.toNat - 71)
  else if 48 ≤ c ∧ c ≤ 57 then some (c.toNat + 4)
  else if c = '-'.toUInt8 then some 62
  else if c = '_'.toUInt8 then some 63
  else none

/-- Three bytes become four digits; one or two at the end become two or three. -/
def encode64 : Bytes → Bytes
  | a :: b :: c :: rest =>
    digit64 (a.toNat / 4) :: digit64 (a.toNat % 4 * 16 + b.toNat / 16) ::
      digit64 (b.toNat % 16 * 4 + c.toNat / 64) :: digit64 (c.toNat % 64) :: encode64 rest
  | [a, b] =>
    [digit64 (a.toNat / 4), digit64 (a.toNat % 4 * 16 + b.toNat / 16), digit64 (b.toNat % 16 * 4)]
  | [a] => [digit64 (a.toNat / 4), digit64 (a.toNat % 4 * 16)]
  | [] => []

/-- The bytes of digits, four at a time. -/
def decodeDigits : List Nat → Option Bytes
  | w :: x :: y :: z :: rest => (decodeDigits rest).map fun bytes =>
    UInt8.ofNat (w * 4 + x / 16) :: UInt8.ofNat (x % 16 * 16 + y / 4) ::
      UInt8.ofNat (y % 4 * 64 + z) :: bytes
  | [w, x, y] => some [UInt8.ofNat (w * 4 + x / 16), UInt8.ofNat (x % 16 * 16 + y / 4)]
  | [w, x] => some [UInt8.ofNat (w * 4 + x / 16)]
  | [_] => none
  | [] => some []

def decode64 (text : Bytes) : Option Bytes :=
  ((text.filter fun c => c ≠ 10 ∧ c ≠ 13).mapM value64).bind decodeDigits

theorem value64_digit64 {n : Nat} (h : n < 64) : value64 (digit64 n) = some n := by
  have hall : ∀ i : Fin 64, value64 (digit64 i) = some i.val := by decide
  exact hall ⟨n, h⟩

/-- The digits of an encoding. -/
def digits64 : Bytes → List Nat
  | a :: b :: c :: rest =>
    a.toNat / 4 :: (a.toNat % 4 * 16 + b.toNat / 16) :: (b.toNat % 16 * 4 + c.toNat / 64) ::
      c.toNat % 64 :: digits64 rest
  | [a, b] => [a.toNat / 4, a.toNat % 4 * 16 + b.toNat / 16, b.toNat % 16 * 4]
  | [a] => [a.toNat / 4, a.toNat % 4 * 16]
  | [] => []

theorem encode64_eq (bytes : Bytes) : encode64 bytes = (digits64 bytes).map digit64 := by
  fun_induction encode64 bytes with
  | case1 a b c rest ih => simp [digits64, ih]
  | case2 a b => rfl
  | case3 a => rfl
  | case4 => rfl

theorem digits64_lt (bytes : Bytes) : ∀ n ∈ digits64 bytes, n < 64 := by
  fun_induction digits64 bytes with
  | case1 a b c rest ih =>
    have ha := a.toNat_lt
    have hb := b.toNat_lt
    have hc := c.toNat_lt
    simp only [List.forall_mem_cons]
    exact ⟨by omega, by omega, by omega, by omega, ih⟩
  | case2 a b =>
    have ha := a.toNat_lt
    have hb := b.toNat_lt
    simp only [List.forall_mem_cons]
    exact ⟨by omega, by omega, by omega, by simp⟩
  | case3 a =>
    have ha := a.toNat_lt
    simp only [List.forall_mem_cons]
    exact ⟨by omega, by omega, by simp⟩
  | case4 => simp

theorem ofNat_toNat_eq {n : Nat} {a : UInt8} (h : n = a.toNat) : UInt8.ofNat n = a := by
  rw [h, UInt8.ofNat_toNat]

theorem decodeDigits_digits64 (bytes : Bytes) : decodeDigits (digits64 bytes) = some bytes := by
  fun_induction digits64 bytes with
  | case1 a b c rest ih =>
    have ha := a.toNat_lt
    have hb := b.toNat_lt
    have hc := c.toNat_lt
    rw [decodeDigits, ih, Option.map_some]
    rw [@ofNat_toNat_eq _ a (by omega), @ofNat_toNat_eq _ b (by omega),
      @ofNat_toNat_eq _ c (by omega)]
  | case2 a b =>
    have ha := a.toNat_lt
    have hb := b.toNat_lt
    rw [decodeDigits, @ofNat_toNat_eq _ a (by omega), @ofNat_toNat_eq _ b (by omega)]
  | case3 a =>
    have ha := a.toNat_lt
    rw [decodeDigits, @ofNat_toNat_eq _ a (by omega)]
  | case4 => rfl

/-- A byte that is no digit does not occur in an encoding. -/
theorem not_mem_encode64 {c : UInt8} (h : ∀ i : Fin 64, digit64 i ≠ c) (bytes : Bytes) :
    c ∉ encode64 bytes := by
  rw [encode64_eq]
  intro hmem
  obtain ⟨n, hn, heq⟩ := List.mem_map.1 hmem
  exact h ⟨n, digits64_lt bytes n hn⟩ heq

theorem mapM_map_of_forall {value : UInt8 → Option Nat} {digit : Nat → UInt8} {digits : List Nat}
    (h : ∀ n ∈ digits, value (digit n) = some n) : (digits.map digit).mapM value = some digits := by
  induction digits with
  | nil => rfl
  | cons n digits ih =>
    obtain ⟨hn, hrest⟩ := List.forall_mem_cons.1 h
    simp [hn, ih hrest]

/-- **What has been encoded is read back.** -/
theorem decode64_encode64 (bytes : Bytes) : decode64 (encode64 bytes) = some bytes := by
  have hkeep : (encode64 bytes).filter (fun c => c ≠ 10 ∧ c ≠ 13) = encode64 bytes := by
    refine List.filter_eq_self.2 fun c hc => ?_
    have h10 : c ≠ 10 := by
      rintro rfl
      exact not_mem_encode64 (by decide) bytes hc
    have h13 : c ≠ 13 := by
      rintro rfl
      exact not_mem_encode64 (by decide) bytes hc
    simp [h10, h13]
  rw [decode64, hkeep, encode64_eq,
    mapM_map_of_forall fun n hn => value64_digit64 (digits64_lt bytes n hn)]
  exact decodeDigits_digits64 bytes

/-! ### The standard alphabet -/

/-- The digit for six bits: `+` and `/` in the places of `-` and `_`. -/
def digitStd64 (n : Nat) : UInt8 :=
  if n = 62 then '+'.toUInt8 else if n = 63 then '/'.toUInt8 else digit64 n

def valueStd64 (c : UInt8) : Option Nat :=
  if c = '+'.toUInt8 then some 62
  else if c = '/'.toUInt8 then some 63
  else if c = '-'.toUInt8 ∨ c = '_'.toUInt8 then none
  else value64 c

def encodeStd64 (bytes : Bytes) : Bytes := (digits64 bytes).map digitStd64

/-- A text without its line ends. -/
def withoutLineEnds (text : Bytes) : Bytes := text.filter fun c => c ≠ 10 ∧ c ≠ 13

def decodeStd64 (text : Bytes) : Option Bytes :=
  ((withoutLineEnds text).mapM valueStd64).bind decodeDigits

theorem valueStd64_digitStd64 {n : Nat} (h : n < 64) : valueStd64 (digitStd64 n) = some n := by
  have hall : ∀ i : Fin 64, valueStd64 (digitStd64 i) = some i.val := by decide
  exact hall ⟨n, h⟩

theorem not_mem_encodeStd64 {c : UInt8} (h : ∀ i : Fin 64, digitStd64 i ≠ c) (bytes : Bytes) :
    c ∉ encodeStd64 bytes := by
  intro hmem
  obtain ⟨n, hn, heq⟩ := List.mem_map.1 hmem
  exact h ⟨n, digits64_lt bytes n hn⟩ heq

theorem withoutLineEnds_of_not_mem {text : Bytes} (h10 : 10 ∉ text) (h13 : 13 ∉ text) :
    withoutLineEnds text = text := by
  refine List.filter_eq_self.2 fun c hc => ?_
  have hne10 : c ≠ 10 := fun h => h10 (h ▸ hc)
  have hne13 : c ≠ 13 := fun h => h13 (h ▸ hc)
  simp [hne10, hne13]

theorem decodeStd64_encodeStd64 (bytes : Bytes) : decodeStd64 (encodeStd64 bytes) = some bytes := by
  rw [decodeStd64, withoutLineEnds_of_not_mem (not_mem_encodeStd64 (by decide) bytes)
    (not_mem_encodeStd64 (by decide) bytes), encodeStd64,
    mapM_map_of_forall fun n hn => valueStd64_digitStd64 (digits64_lt bytes n hn)]
  exact decodeDigits_digits64 bytes

theorem decodeDigits_isSome_iff (digits : List Nat) :
    (decodeDigits digits).isSome = true ↔ digits.length % 4 ≠ 1 := by
  fun_induction decodeDigits digits with
  | case1 w x y z rest ih =>
    rw [Option.isSome_map, ih]
    simp only [List.length_cons]
    omega
  | case2 => simp
  | case3 => simp
  | case4 => simp
  | case5 => simp

/-- Only no digits at all are no bytes. -/
theorem decodeDigits_eq_nil {digits : List Nat} (h : decodeDigits digits = some []) :
    digits = [] := by
  fun_induction decodeDigits digits with
  | case1 w x y z rest ih => simp at h
  | case2 => simp at h
  | case3 => simp at h
  | case4 => simp at h
  | case5 => rfl

theorem mapM_isSome_iff {value : UInt8 → Option Nat} {text : Bytes} :
    (text.mapM value).isSome = true ↔ ∀ c ∈ text, (value c).isSome = true := by
  induction text with
  | nil => simp
  | cons c text ih =>
    rw [List.forall_mem_cons, ← ih, List.mapM_cons]
    cases value c with
    | none => simp
    | some n => cases text.mapM value <;> simp

theorem length_of_mapM {value : UInt8 → Option Nat} {text : Bytes} {digits : List Nat}
    (h : text.mapM value = some digits) : digits.length = text.length := by
  induction text generalizing digits with
  | nil =>
    obtain rfl : [] = digits := by simpa using h
    rfl
  | cons c text ih =>
    rw [List.mapM_cons] at h
    obtain ⟨n, -, h⟩ := Option.bind_eq_some_iff.1 h
    obtain ⟨rest, hrest, h⟩ := Option.bind_eq_some_iff.1 h
    obtain rfl : n :: rest = digits := by simpa using h
    simp [ih hrest]

/-- **What is base64**: digits of the alphabet, in a number that is possible. -/
theorem decodeStd64_isSome_iff (text : Bytes) :
    (decodeStd64 text).isSome = true ↔
      (∀ c ∈ withoutLineEnds text, (valueStd64 c).isSome = true) ∧
        (withoutLineEnds text).length % 4 ≠ 1 := by
  rw [decodeStd64, ← mapM_isSome_iff]
  cases hdigits : (withoutLineEnds text).mapM valueStd64 with
  | none => simp
  | some digits => simp [decodeDigits_isSome_iff, length_of_mapM hdigits]

/-- Only a text without digits is base64 of nothing. -/
theorem decodeStd64_eq_nil {text : Bytes} (h : decodeStd64 text = some []) :
    withoutLineEnds text = [] := by
  obtain ⟨digits, hdigits, hdecode⟩ := Option.bind_eq_some_iff.1 h
  obtain rfl := decodeDigits_eq_nil hdecode
  exact List.length_eq_zero_iff.1 (length_of_mapM hdigits).symm

/-! ## Decimal numbers -/

def formatNat (n : Nat) : Bytes := (Nat.toDigits 10 n).map fun c => UInt8.ofNat c.toNat

def formatInt : Int → Bytes
  | .ofNat n => formatNat n
  | .negSucc n => '-'.toUInt8 :: formatNat (n + 1)

/-- Digits, of which there must be one. -/
def parseNat (text : Bytes) : Option Nat :=
  if text ≠ [] ∧ text.all fun c => 48 ≤ c && c ≤ 57 then
    some (text.foldl (fun n c => 10 * n + (c.toNat - 48)) 0)
  else none

/-- A number with or without a sign, if it fits into 64 bits. -/
def parseInt (text : Bytes) : Option Int :=
  let number : Option Int :=
    match text with
    | [] => none
    | c :: rest =>
      if c = '-'.toUInt8 then (parseNat rest).map fun n => -(n : Int)
      else if c = '+'.toUInt8 then (parseNat rest).map fun n => (n : Int)
      else (parseNat text).map fun n => (n : Int)
  number.filter fun n => -2 ^ 63 ≤ n ∧ n < 2 ^ 63

theorem digit_bounds {c : Char} (h : c.isDigit) : 48 ≤ c.toNat ∧ c.toNat ≤ 57 := by
  simp only [Char.isDigit, Bool.and_eq_true, decide_eq_true_eq] at h
  exact ⟨UInt32.le_iff_toNat_le.1 h.1, UInt32.le_iff_toNat_le.1 h.2⟩

theorem mem_formatNat {n : Nat} {b : UInt8} (h : b ∈ formatNat n) : 48 ≤ b ∧ b ≤ 57 := by
  obtain ⟨c, hc, rfl⟩ := List.mem_map.1 h
  obtain ⟨hlo, hhi⟩ := digit_bounds (Nat.isDigit_of_mem_toDigits (by omega) (by omega) hc)
  rw [UInt8.le_iff_toNat_le, UInt8.le_iff_toNat_le, UInt8.toNat_ofNat']
  have hmod : c.toNat % 2 ^ 8 = c.toNat := Nat.mod_eq_of_lt (by omega)
  rw [hmod]
  exact ⟨hlo, hhi⟩

theorem formatNat_ne_nil (n : Nat) : formatNat n ≠ [] := by
  simp [formatNat, Nat.toDigits_ne_nil]

/-- The value of digits does not depend on whether they are characters or bytes. -/
theorem foldl_digits {text : List Char} (h : ∀ c ∈ text, c.isDigit) (n : Nat) :
    (text.map fun c => UInt8.ofNat c.toNat).foldl (fun n c => 10 * n + (c.toNat - 48)) n =
      Nat.ofDigitChars 10 text n := by
  induction text generalizing n with
  | nil => rfl
  | cons c text ih =>
    obtain ⟨hc, hrest⟩ := List.forall_mem_cons.1 h
    obtain ⟨-, hhi⟩ := digit_bounds hc
    have hmod : c.toNat % 2 ^ 8 = c.toNat := Nat.mod_eq_of_lt (by omega)
    rw [List.map_cons, List.foldl_cons, ih hrest, UInt8.toNat_ofNat', hmod]
    rfl

theorem parseNat_formatNat (n : Nat) : parseNat (formatNat n) = some n := by
  have hdigits : ∀ c ∈ Nat.toDigits 10 n, c.isDigit := fun c hc =>
    Nat.isDigit_of_mem_toDigits (by omega) (by omega) hc
  have hall : (formatNat n).all (fun c => 48 ≤ c && c ≤ 57) = true :=
    List.all_eq_true.2 fun c hc => by simpa using mem_formatNat hc
  rw [parseNat, if_pos ⟨formatNat_ne_nil n, hall⟩, formatNat,
    foldl_digits hdigits, Nat.ofDigitChars_ten_toDigits]

/-- **A number that fits is read back.** -/
theorem parseInt_formatInt (n : Int) :
    parseInt (formatInt n) = if -2 ^ 63 ≤ n ∧ n < 2 ^ 63 then some n else none := by
  have hnumber : parseInt (formatInt n) =
      (some n).filter fun n => decide (-2 ^ 63 ≤ n ∧ n < 2 ^ 63) := by
    cases n with
    | ofNat n =>
      obtain ⟨c, rest, hcons⟩ := List.exists_cons_of_ne_nil (formatNat_ne_nil n)
      have hparse := parseNat_formatNat n
      have hmem : c ∈ formatNat n := by simp [hcons]
      obtain ⟨hlo, -⟩ := mem_formatNat hmem
      have hminus : c ≠ '-'.toUInt8 := by
        rintro rfl
        exact absurd hlo (by decide)
      have hplus : c ≠ '+'.toUInt8 := by
        rintro rfl
        exact absurd hlo (by decide)
      rw [hcons] at hparse
      simp only [formatInt, hcons, parseInt, hminus, hplus, if_false, hparse]
      rfl
    | negSucc n =>
      rw [formatInt, parseInt]
      simp only [if_true, parseNat_formatNat]
      rfl
  rw [hnumber]
  simp only [Option.filter, decide_eq_true_eq]

/-- A byte that is neither a digit nor the sign does not occur in a number. -/
theorem not_mem_formatInt {c : UInt8} (hdigit : ¬(48 ≤ c ∧ c ≤ 57)) (hsign : c ≠ '-'.toUInt8)
    (n : Int) : c ∉ formatInt n := by
  intro hmem
  cases n with
  | ofNat n => exact hdigit (mem_formatNat hmem)
  | negSucc n =>
    rcases List.mem_cons.1 hmem with heq | hrest
    · exact hsign heq
    · exact hdigit (mem_formatNat hrest)

/-! ## Hexadecimal numbers -/

def hexValue (c : Char) : Nat := if c.isDigit then c.toNat - 48 else c.toNat - 87

/-- The number that hexadecimal digits stand for. -/
def ofHex (text : List Char) : Nat := text.foldl (fun n c => 16 * n + hexValue c) 0

theorem hexValue_digitChar {n : Nat} (h : n < 16) : hexValue n.digitChar = n := by
  have hall : ∀ i : Fin 16, hexValue (Nat.digitChar i) = i.val := by decide
  exact hall ⟨n, h⟩

theorem ofHex_toDigits (n : Nat) : ofHex (Nat.toDigits 16 n) = n := by
  induction n using Nat.strongRecOn with
  | ind n ih =>
    rcases Nat.lt_or_ge n 16 with hlt | hge
    · simp [Nat.toDigits_of_lt_base hlt, ofHex, hexValue_digitChar hlt]
    · have hdigit := @hexValue_digitChar (n % 16) (by omega)
      have hrest := ih (n / 16) (by omega)
      rw [Nat.toDigits_of_base_le (by omega) hge, ofHex, List.foldl_append]
      rw [ofHex] at hrest
      simp only [hrest, List.foldl_cons, List.foldl_nil, hdigit]
      omega

/-- Leading zeros do not count. -/
theorem ofHex_zeros (n : Nat) (text : List Char) :
    ofHex (List.replicate n '0' ++ text) = ofHex text := by
  have hzero : hexValue '0' = 0 := by decide
  induction n with
  | zero => rfl
  | succ n ih =>
    rw [List.replicate_succ, List.cons_append, ← ih]
    simp [ofHex, hzero]

/-- A character that is no digit does not occur in a number. -/
theorem not_mem_toDigits {c : Char} (h : ∀ i : Fin 16, Nat.digitChar i ≠ c) (n : Nat) :
    c ∉ Nat.toDigits 16 n := by
  induction n using Nat.strongRecOn with
  | ind n ih =>
    rcases Nat.lt_or_ge n 16 with hlt | hge
    · simp [Nat.toDigits_of_lt_base hlt, (h ⟨n, hlt⟩).symm]
    · rw [Nat.toDigits_of_base_le (by omega) hge, List.mem_append, List.mem_singleton]
      rintro (hrest | hlast)
      · exact ih (n / 16) (by omega) hrest
      · exact h ⟨n % 16, by omega⟩ hlast.symm

/-! ## White space -/

/-- The characters of `unicode.IsSpace`. -/
def spaces : List Char :=
  [0x09, 0x0a, 0x0b, 0x0c, 0x0d, 0x20, 0x85, 0xa0, 0x1680, 0x2000, 0x2001, 0x2002, 0x2003, 0x2004,
    0x2005, 0x2006, 0x2007, 0x2008, 0x2009, 0x200a, 0x2028, 0x2029, 0x202f, 0x205f, 0x3000].map
      Char.ofNat

/-- Do the first `n` characters of a text in UTF-8 reach its end, all of them white space? -/
def blankWithin : Nat → Bytes → Bool
  | _, [] => true
  | 0, _ => false
  | n + 1, text =>
    match spaces.find? fun c => (String.utf8EncodeChar c).isPrefixOf text with
    | none => false
    | some c => blankWithin n (text.drop c.utf8Size)

/-- Is nothing left of the text without the white space around it? -/
def isBlank (text : Bytes) : Bool := blankWithin text.length text

example : isBlank (ascii " \t\u00a0") = true := by decide +kernel

end Encoding
