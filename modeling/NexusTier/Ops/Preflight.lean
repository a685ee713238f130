import NexusTier.Auth.Password

/-!
# The preflight check of the password hash

`assert_password_hash_shape` of `nexustier-ops.sh` looks at the hash in the environment file before
the controller is started.  It splits the value with `read` where `parseHash` splits it with
`strings.Split`, compares the iterations in the arithmetic of the shell, and looks for the digits of
base64 without decoding them.

So it accepts values that the controller refuses, of four kinds: separators behind the key that
`read` drops, iterations that the shell reads modulo `2 ^ 64`, texts of digits whose length no
base64 has, and whatever stands behind the first line.  `parseHash_of_assertPasswordHashShape` says
that these are all.

The script runs in the C locale here: a character is a byte.

## What is left out

Locales other than C, in which the classes of a pattern may have more characters.
-/

set_option autoImplicit false

open Encoding

namespace NexusTier

namespace Ops

/-! ## What the script does -/

/-- What `read` reads of a here-string. -/
def firstLine (value : Bytes) : Bytes := value.takeWhile (· ≠ newline)

/-- A word up to the next `$`, and what is behind it. -/
def takeWord (text : Bytes) : Bytes × Bytes :=
  (text.takeWhile (· ≠ dollar), (text.dropWhile (· ≠ dollar)).drop 1)

/-- The last name of a `read` gets all that is left, with the separators; but if that is one word,
without the separator behind it. -/
def lastWord (text : Bytes) : Bytes :=
  if (takeWord text).2 = [] then (takeWord text).1 else text

structure HashFields where
  scheme : Bytes
  iterations : Bytes
  salt : Bytes
  key : Bytes
  extra : Bytes

/-- `IFS='$' read -r scheme iterations salt key extra`. -/
def readFields (value : Bytes) : HashFields :=
  let (scheme, rest) := takeWord (firstLine value)
  let (iterations, rest) := takeWord rest
  let (salt, rest) := takeWord rest
  let (key, rest) := takeWord rest
  ⟨scheme, iterations, salt, key, lastWord rest⟩

/-- A match of `^[0-9]+$`. -/
def isNumber (text : Bytes) : Bool := text ≠ [] ∧ text.all fun c => 48 ≤ c && c ≤ 57

/-- The class `[A-Za-z0-9+/]`. -/
def isDigit64 (c : UInt8) : Bool :=
  (65 ≤ c && c ≤ 90) || (97 ≤ c && c ≤ 122) || (48 ≤ c && c ≤ 57) || c == '+'.toUInt8 ||
    c == '/'.toUInt8

/-- A match of `^[A-Za-z0-9+/]+$`. -/
def isBase64 (text : Bytes) : Bool := text ≠ [] ∧ text.all isDigit64

/-- The number that digits stand for in a base. -/
def ofDigits (base : Nat) (text : Bytes) : Nat :=
  text.foldl (fun n c => base * n + (c.toNat - 48)) 0

/-- A number in an arithmetic expression of the shell.  A zero in front makes it octal, where other
digits are an error, and what does not fit into 64 bits wraps around. -/
def shellNumber (text : Bytes) : Option Int64 :=
  if text.head? = some 48 then
    if text.all (· < 56) then some (Int64.ofNat (ofDigits 8 text)) else none
  else some (Int64.ofNat (ofDigits 10 text))

/-- `assert_password_hash_shape`: does it accept the value? -/
def assertPasswordHashShape (value : Bytes) : Bool :=
  let fields := readFields value
  fields.scheme = hashScheme ∧ isNumber fields.iterations ∧
    (shellNumber fields.iterations).any (fun n => 100000 ≤ n) ∧
    isBase64 fields.salt ∧ isBase64 fields.key ∧ fields.extra = []

/-! ## Words and parts -/

section Words

variable {word text value : Bytes}

/-- No part has the separator in it. -/
theorem not_mem_of_mem_splitOn {separator : UInt8} (h : word ∈ text.splitOn separator) :
    separator ∉ word := by
  induction text generalizing word with
  | nil =>
    obtain rfl : word = [] := by simpa [List.splitOn_nil] using h
    simp
  | cons c text ih =>
    obtain ⟨first, rest, hsplit⟩ := List.exists_cons_of_ne_nil (List.splitOn_ne_nil separator text)
    rw [List.splitOn_cons_eq_if_modifyHead, hsplit] at h
    rw [hsplit] at ih
    split at h
    · rcases List.mem_cons.1 h with rfl | h
      · simp
      · exact ih h
    · next hc =>
      rw [List.modifyHead_cons] at h
      rcases List.mem_cons.1 h with rfl | h
      · rw [List.mem_cons, not_or]
        exact ⟨fun heq => hc (by simp [heq]), ih List.mem_cons_self⟩
      · exact ih (List.mem_cons_of_mem first h)

theorem takeWord_of_not_mem (h : dollar ∉ text) : takeWord text = (text, []) := by
  have hall : ∀ c ∈ text, decide (c ≠ dollar) = true := fun c hc =>
    decide_eq_true fun heq => h (heq ▸ hc)
  rw [takeWord, List.takeWhile_eq_self_iff.2 hall, List.dropWhile_eq_nil_iff.2 hall]
  rfl

theorem takeWord_append (h : dollar ∉ word) : takeWord (word ++ dollar :: text) = (word, text) := by
  have hall : ∀ c ∈ word, decide (c ≠ dollar) = true := fun c hc =>
    decide_eq_true fun heq => h (heq ▸ hc)
  rw [takeWord, List.takeWhile_append_of_pos hall, List.dropWhile_append_of_pos hall]
  simp

theorem not_mem_firstLine {c : UInt8} (h : c ∉ text) : c ∉ firstLine text := fun hc =>
  h ((List.takeWhile_prefix _).subset hc)

/-- Where something is left behind a word of the first line, the word is a part of the value. -/
theorem takeWord_firstLine (text : Bytes) (hword : dollar ∉ word)
    (h : (takeWord (firstLine (word ++ dollar :: text))).2 ≠ []) :
    takeWord (firstLine (word ++ dollar :: text)) = (word, firstLine text) := by
  by_cases hline : newline ∈ word
  · have hcut : firstLine (word ++ dollar :: text) = firstLine word := by
      rw [firstLine, List.takeWhile_append, if_neg]
      · rfl
      · intro hlen
        have hall := List.takeWhile_eq_self_iff.1 ((List.takeWhile_prefix _).eq_of_length hlen)
        simpa using hall newline hline
    rw [hcut, takeWord_of_not_mem (not_mem_firstLine hword)] at h
    exact absurd rfl h
  · have hall : ∀ c ∈ word, decide (c ≠ newline) = true := fun c hc =>
      decide_eq_true fun heq => hline (heq ▸ hc)
    have hne : dollar ≠ newline := by decide
    rw [firstLine, List.takeWhile_append_of_pos hall, List.takeWhile_cons_of_pos (by simp [hne]),
      takeWord_append hword]
    rfl

/-- The fields of a value that has four parts, if none of the last three is empty. -/
theorem readFields_eq {scheme iterations salt key : Bytes}
    (hparts : value.splitOn dollar = [scheme, iterations, salt, key])
    (hiterations : (readFields value).iterations ≠ []) (hsalt : (readFields value).salt ≠ [])
    (hkey : (readFields value).key ≠ []) :
    readFields value = ⟨scheme, iterations, salt, firstLine key, []⟩ := by
  have hfree : ∀ part ∈ [scheme, iterations, salt, key], dollar ∉ part := by
    intro part hpart
    exact not_mem_of_mem_splitOn (hparts ▸ hpart)
  have hvalue : value =
      scheme ++ dollar :: (iterations ++ dollar :: (salt ++ dollar :: key)) := by
    have h : [dollar].intercalate (value.splitOn dollar) = value := List.intercalate_splitOn dollar
    rw [hparts] at h
    simpa [List.intercalate] using h.symm
  simp only [List.forall_mem_cons, List.not_mem_nil, false_implies, implies_true, and_true] at hfree
  obtain ⟨h1, h2, h3, h4⟩ := hfree
  -- nothing is left behind an empty rest, so each of the first three words ends at a separator
  have hnil : takeWord [] = ([], []) := rfl
  subst hvalue
  have hone := takeWord_firstLine (iterations ++ dollar :: (salt ++ dollar :: key)) h1
    fun h => hiterations (by simp only [readFields, h, hnil])
  have htwo := takeWord_firstLine (salt ++ dollar :: key) h2
    fun h => hsalt (by simp only [readFields, hone, h, hnil])
  have hthree := takeWord_firstLine key h3
    fun h => hkey (by simp only [readFields, hone, htwo, h, hnil])
  have hfour := takeWord_of_not_mem (not_mem_firstLine h4)
  simp only [readFields, hone, htwo, hthree, hfour]
  rfl

end Words

/-! ## Numbers -/

section Numbers

variable {text : Bytes}

theorem isNumber_iff :
    isNumber text = true ↔ text ≠ [] ∧ (text.all fun c => 48 ≤ c && c ≤ 57) = true := by
  simp [isNumber]

/-- What `strconv.Atoi` makes of digits. -/
theorem parseInt_of_isNumber (h : isNumber text = true) :
    parseInt text = if ofDigits 10 text < 2 ^ 63 then some (ofDigits 10 text : Int) else none := by
  obtain ⟨hne, hall⟩ := isNumber_iff.1 h
  have hparse : parseNat text = some (ofDigits 10 text) := by
    rw [parseNat, if_pos ⟨hne, hall⟩, ofDigits]
  obtain ⟨c, rest, rfl⟩ := List.exists_cons_of_ne_nil hne
  rw [List.all_cons, Bool.and_eq_true, Bool.and_eq_true, decide_eq_true_eq] at hall
  have hlo : 48 ≤ c := hall.1.1
  have hminus : c ≠ '-'.toUInt8 := by
    rintro rfl
    exact absurd hlo (by decide)
  have hplus : c ≠ '+'.toUInt8 := by
    rintro rfl
    exact absurd hlo (by decide)
  have hnumber : parseInt (c :: rest) =
      (some (ofDigits 10 (c :: rest) : Int)).filter
        fun n => decide (-2 ^ 63 ≤ n ∧ n < 2 ^ 63) := by
    simp only [parseInt, hminus, hplus, if_false, hparse]
    rfl
  rw [hnumber, Option.filter_some]
  by_cases hlt : ofDigits 10 (c :: rest) < 2 ^ 63
  · rw [if_pos hlt, if_pos (decide_eq_true ⟨by omega, by omega⟩)]
  · rw [if_neg hlt, if_neg (by rw [decide_eq_true_eq]; omega)]

/-- A number is not greater in the base eight than in the base ten. -/
theorem ofDigits_le : ofDigits 8 text ≤ ofDigits 10 text := by
  suffices ∀ a b : Nat, a ≤ b →
      text.foldl (fun n c => 8 * n + (c.toNat - 48)) a ≤
        text.foldl (fun n c => 10 * n + (c.toNat - 48)) b from this 0 0 (Nat.le_refl 0)
  induction text with
  | nil => exact fun a b hab => hab
  | cons c text ih =>
    intro a b hab
    refine ih _ _ ?_
    dsimp only
    omega

/-- What the shell takes for a hundred thousand or more is that, if it fits into 64 bits. -/
theorem le_ofDigits {n : Int64} (h : shellNumber text = some n) (hn : 100000 ≤ n)
    (hlt : ofDigits 10 text < 2 ^ 63) : 100000 ≤ ofDigits 10 text := by
  have hfits : ∀ m, m < 2 ^ 63 → (100000 : Int64) ≤ Int64.ofNat m → 100000 ≤ m := by
    intro m hm hle
    rw [Int64.le_iff_toInt_le, Int64.toInt_ofNat_of_lt hm] at hle
    exact Int.ofNat_le.1 hle
  rw [shellNumber] at h
  split at h
  · split at h
    · obtain rfl := Option.some.inj h
      exact (hfits _ (Nat.lt_of_le_of_lt ofDigits_le hlt) hn).trans ofDigits_le
    · cases h
  · obtain rfl := Option.some.inj h
    exact hfits _ hlt hn

end Numbers

/-! ## Base64 -/

section Base64

variable {text : Bytes}

theorem isDigit64_eq (c : UInt8) : isDigit64 c = (valueStd64 c).isSome := by
  have hall : ∀ i : Fin 256, isDigit64 (UInt8.ofNat i) = (valueStd64 (UInt8.ofNat i)).isSome := by
    decide +kernel
  simpa using hall ⟨c.toNat, c.toNat_lt⟩

theorem decodeNonEmpty_isSome_iff :
    (decodeNonEmpty text).isSome = true ↔ withoutLineEnds text ≠ [] ∧
      (withoutLineEnds text).all isDigit64 = true ∧ (withoutLineEnds text).length % 4 ≠ 1 := by
  have hsome := decodeStd64_isSome_iff text
  simp only [← isDigit64_eq] at hsome
  rw [List.all_eq_true, ← hsome, decodeNonEmpty]
  cases hd : decodeStd64 text with
  | none => simp
  | some bytes =>
    cases bytes with
    | nil => simp [decodeStd64_eq_nil hd]
    | cons b bytes =>
      have hne : withoutLineEnds text ≠ [] := by
        intro hnil
        rw [decodeStd64, hnil] at hd
        cases hd
      simp [Option.filter_some, hne]

/-- In what the script takes for base64 there is no end of a line. -/
theorem withoutLineEnds_of_isBase64 (h : isBase64 text = true) : withoutLineEnds text = text := by
  simp only [isBase64, decide_eq_true_eq, List.all_eq_true] at h
  refine withoutLineEnds_of_not_mem (fun hmem => ?_) fun hmem => ?_
  · exact absurd (h.2 10 hmem) (by decide)
  · exact absurd (h.2 13 hmem) (by decide)

end Base64

/-! ## What the controller can read of it -/

/-- A value with exactly three separators, iterations that fit into 64 bits, a salt and a key of
lengths that base64 has, and in the key nothing but its digits and ends of lines. -/
def Readable (value : Bytes) : Prop :=
  ∃ scheme iterations salt key, value.splitOn dollar = [scheme, iterations, salt, key] ∧
    ofDigits 10 iterations < 2 ^ 63 ∧ salt.length % 4 ≠ 1 ∧
    (withoutLineEnds key).all isDigit64 = true ∧ (withoutLineEnds key).length % 4 ≠ 1

section Reading

variable {value scheme iterations salt key : Bytes}

/-- What `parseHash` asks of the parts. -/
theorem parseHash_isSome_iff (hparts : value.splitOn dollar = [scheme, iterations, salt, key]) :
    (parseHash value).isSome = true ↔ scheme = hashScheme ∧
      ((parseInt iterations).filter fun n => (minIterations : Int) ≤ n).isSome = true ∧
      (decodeNonEmpty salt).isSome = true ∧ (decodeNonEmpty key).isSome = true := by
  by_cases hscheme : scheme = hashScheme
  · cases hn : (parseInt iterations).filter fun n => (minIterations : Int) ≤ n <;>
      cases hs : decodeNonEmpty salt <;> cases hk : decodeNonEmpty key <;>
      simp [parseHash, hparts, hscheme, hn, hs, hk]
  · simp [parseHash, hparts, hscheme]

/-- Iterations that the script accepts are enough for `parseHash` if they fit into 64 bits. -/
theorem filter_parseInt_isSome_iff (hnumber : isNumber iterations = true)
    (hshell : ∃ n, shellNumber iterations = some n ∧ (100000 : Int64) ≤ n) :
    ((parseInt iterations).filter fun n => (minIterations : Int) ≤ n).isSome = true ↔
      ofDigits 10 iterations < 2 ^ 63 := by
  obtain ⟨n, hn, hle⟩ := hshell
  rw [parseInt_of_isNumber hnumber]
  by_cases hlt : ofDigits 10 iterations < 2 ^ 63
  · have hmin : minIterations ≤ ofDigits 10 iterations := le_ofDigits hn hle hlt
    rw [if_pos hlt, Option.filter_some, if_pos (by simpa using hmin)]
    exact iff_of_true rfl hlt
  · rw [if_neg hlt]
    exact iff_of_false (by simp) hlt

/-- The salt that the script accepts is base64 if it has a possible length. -/
theorem decodeNonEmpty_isSome_of_isBase64 (h : isBase64 salt = true) :
    (decodeNonEmpty salt).isSome = true ↔ salt.length % 4 ≠ 1 := by
  rw [decodeNonEmpty_isSome_iff, withoutLineEnds_of_isBase64 h]
  simp only [isBase64, decide_eq_true_eq] at h
  exact ⟨fun hsome => hsome.2.2, fun hlen => ⟨h.1, h.2, hlen⟩⟩

/-- A key whose first line the script accepts is base64 if what is behind is, too. -/
theorem decodeNonEmpty_isSome_of_firstLine (h : isBase64 (firstLine key) = true) :
    (decodeNonEmpty key).isSome = true ↔
      (withoutLineEnds key).all isDigit64 = true ∧ (withoutLineEnds key).length % 4 ≠ 1 := by
  rw [decodeNonEmpty_isSome_iff]
  refine and_iff_right ?_
  have hline := withoutLineEnds_of_isBase64 h
  simp only [isBase64, decide_eq_true_eq] at h
  obtain ⟨c, hc⟩ := List.exists_mem_of_ne_nil _ h.1
  rw [← hline] at hc
  exact List.ne_nil_of_mem (((List.takeWhile_prefix _).sublist.filter _).subset hc)

/-- **When the preflight check keeps its word**: of what it accepts, the controller can read exactly
the values that are `Readable`. -/
theorem parseHash_of_assertPasswordHashShape (value : Bytes)
    (h : assertPasswordHashShape value = true) :
    (parseHash value).isSome = true ↔ Readable value := by
  simp only [assertPasswordHashShape, decide_eq_true_eq, Option.any_eq_true] at h
  obtain ⟨hscheme, hnumber, hshell, hsalt, hkey, -⟩ := h
  have hne : ∀ {text}, isBase64 text = true → text ≠ [] := fun ht => by
    simp only [isBase64, decide_eq_true_eq] at ht
    exact ht.1
  -- with four parts, they are the fields that the script has looked at
  have hiff : ∀ scheme iterations salt key,
      value.splitOn dollar = [scheme, iterations, salt, key] →
      ((parseHash value).isSome = true ↔ ofDigits 10 iterations < 2 ^ 63 ∧ salt.length % 4 ≠ 1 ∧
        (withoutLineEnds key).all isDigit64 = true ∧ (withoutLineEnds key).length % 4 ≠ 1) := by
    intro scheme iterations salt key hparts
    have hfields := readFields_eq hparts (isNumber_iff.1 hnumber).1 (hne hsalt) (hne hkey)
    rw [hfields] at hscheme hnumber hshell hsalt hkey
    rw [parseHash_isSome_iff hparts, filter_parseInt_isSome_iff hnumber hshell,
      decodeNonEmpty_isSome_of_isBase64 hsalt, decodeNonEmpty_isSome_of_firstLine hkey]
    exact and_iff_right hscheme
  constructor
  · intro hsome
    obtain ⟨scheme, iterations, salt, key, hparts⟩ :
        ∃ scheme iterations salt key, value.splitOn dollar = [scheme, iterations, salt, key] := by
      rw [parseHash] at hsome
      split at hsome
      · next scheme iterations salt key hparts => exact ⟨scheme, iterations, salt, key, hparts⟩
      · cases hsome
    exact ⟨scheme, iterations, salt, key, hparts,
      (hiff scheme iterations salt key hparts).1 hsome⟩
  · rintro ⟨scheme, iterations, salt, key, hparts, hreadable⟩
    exact (hiff scheme iterations salt key hparts).2 hreadable

end Reading

theorem parseHash_of_assertPasswordHashShape_saltsalt :
    (parseHash (ascii "pbkdf2-sha256$600000$c2FsdHNhbHQ$a2V5")).isSome = true ↔
      Readable (ascii "pbkdf2-sha256$600000$c2FsdHNhbHQ$a2V5") :=
  parseHash_of_assertPasswordHashShape (ascii "pbkdf2-sha256$600000$c2FsdHNhbHQ$a2V5")
    (by decide +kernel)

/-- A separator behind the key: `read` drops it, and `strings.Split` finds a fifth part. -/
theorem preflight_accepts_malformed_hash :
    assertPasswordHashShape (ascii "pbkdf2-sha256$600000$c2FsdHNhbHQ$a2V5$") = true ∧
      parseHash (ascii "pbkdf2-sha256$600000$c2FsdHNhbHQ$a2V5$") = none := by
  decide +kernel

end Ops

end NexusTier
