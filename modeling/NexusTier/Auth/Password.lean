import Mathlib.Data.List.DropRight
import NexusTier.Auth.Session

/-!
# The password of the operator

`nexustier-controller -hash-password` reads a password from its input and prints a hash, which the
operator puts into the environment of the controller.  `NewCredential` takes it apart again.

`parseHash_formatHash` is the round trip through the text.  What is hashed, however, is what
`printPasswordHash` has read, and it reads `readLimit` bytes: of a longer password it is a beginning
(`printPasswordHash_eq_ok`).  So the hash lets its own password in exactly as long as that beginning
cannot be told from the password (`logsIn_iff`).

## What is here

* `printPasswordHash` and `newCredential`: the two ends of the way that a password takes.
* `parseHash_formatHash`: what is printed is read back.
* `hashedPart`: what of a password is hashed.
* `printed_hash_logs_in_iff`: for every password, when its own hash lets it in.
* `long_password_locked_out`: a password that its hash does not let in.

## What is left out

PBKDF2 is a parameter, of which only the length of its result is assumed.  Errors of the input and
of the output are not modelled.
-/

set_option autoImplicit false

open Encoding

namespace NexusTier

/-! ## The hash as a text -/

def hashScheme : Bytes := ascii "pbkdf2-sha256"

def defaultIterations : Nat := 600000

def minIterations : Nat := 100000

def saltLength : Nat := 16

def keyLength : Nat := 32

def dollar : UInt8 := '$'.toUInt8

/-- The salt that `HashPassword` draws. -/
abbrev Salt := { salt : Bytes // salt.length = saltLength }

structure ParsedHash where
  iterations : Nat
  salt : Bytes
  key : Bytes
deriving DecidableEq

/-- The text of a hash: what `strings.Join` makes of its parts. -/
def formatHash (hash : ParsedHash) : Bytes :=
  [dollar].intercalate
    [hashScheme, formatInt hash.iterations, encodeStd64 hash.salt, encodeStd64 hash.key]

/-- Base64 of one byte or more. -/
def decodeNonEmpty (text : Bytes) : Option Bytes := (decodeStd64 text).filter fun bytes => bytes ≠ []

/-- `parseHash`: `none` is `ErrMalformedHash`. -/
def parseHash (encoded : Bytes) : Option ParsedHash :=
  match encoded.splitOn dollar with
  | [scheme, iterations, salt, key] =>
    if scheme = hashScheme then do
      let iterations ← (parseInt iterations).filter fun n => (minIterations : Int) ≤ n
      let salt ← decodeNonEmpty salt
      let key ← decodeNonEmpty key
      pure ⟨iterations.toNat, salt, key⟩
    else none
  | _ => none

inductive CredentialError where
  /-- "username must not be empty". -/
  | emptyUsername
  | malformedHash
deriving DecidableEq

/-- `NewCredential`. -/
def newCredential (username encodedHash : Bytes) : Except CredentialError Credential :=
  if isBlank username then .error .emptyUsername
  else
    match parseHash encodedHash with
    | none => .error .malformedHash
    | some hash => .ok ⟨username, hash.iterations, hash.salt, hash.key⟩

/-! ## Making a hash -/

inductive PasswordError where
  /-- "password must not be empty". -/
  | emptyPassword
  /-- "derive key: " and the error of `pbkdf2.Key`. -/
  | deriveKey
deriving DecidableEq

/-- `HashPassword`, with the salt that it draws. -/
def hashPassword (derive : KeyDerivation) (salt : Salt) (password : Bytes) :
    Except PasswordError Bytes :=
  if password = [] then .error .emptyPassword
  else
    match derive password salt.val defaultIterations keyLength with
    | none => .error .deriveKey
    | some key => .ok (formatHash ⟨defaultIterations, salt.val, key⟩)

def newline : UInt8 := 10

/-- What `io.LimitReader` lets through. -/
def readLimit : Nat := 1024

/-- `ReadString('\n')`: the line with its end, or all there is. -/
def readString (input : Bytes) : Bytes :=
  input.takeWhile (· ≠ newline) ++ (input.dropWhile (· ≠ newline)).take 1

/-- `strings.TrimRight(line, "\r\n")`. -/
def trimRight (line : Bytes) : Bytes := line.rdropWhile fun c => c = 13 ∨ c = newline

/-- `printPasswordHash`: what it prints. -/
def printPasswordHash (derive : KeyDerivation) (salt : Salt) (input : Bytes) :
    Except PasswordError Bytes :=
  let password := trimRight (readString (input.take readLimit))
  if password = [] then .error .emptyPassword
  else (hashPassword derive salt password).map fun hash => hash ++ [newline]

/-! ## The round trip -/

theorem dollar_not_mem_formatInt (n : Int) : dollar ∉ formatInt n :=
  not_mem_formatInt (by decide) (by decide) n

theorem dollar_not_mem_encodeStd64 (bytes : Bytes) : dollar ∉ encodeStd64 bytes :=
  not_mem_encodeStd64 (by decide) bytes

theorem splitOn_formatHash (hash : ParsedHash) :
    (formatHash hash).splitOn dollar =
      [hashScheme, formatInt hash.iterations, encodeStd64 hash.salt, encodeStd64 hash.key] := by
  refine List.splitOn_intercalate dollar ?_ (by simp)
  simp only [List.forall_mem_cons, List.not_mem_nil, false_implies, implies_true, and_true]
  exact ⟨by decide, dollar_not_mem_formatInt _, dollar_not_mem_encodeStd64 _,
    dollar_not_mem_encodeStd64 _⟩

theorem decodeNonEmpty_encodeStd64 {bytes : Bytes} (h : bytes ≠ []) :
    decodeNonEmpty (encodeStd64 bytes) = some bytes := by
  rw [decodeNonEmpty, decodeStd64_encodeStd64, Option.filter_some, if_pos (by simpa using h)]

/-- **A hash is read back**, if the iterations suffice and neither part of it is empty. -/
theorem parseHash_formatHash {hash : ParsedHash} (hmin : minIterations ≤ hash.iterations)
    (hmax : hash.iterations < 2 ^ 63) (hsalt : hash.salt ≠ []) (hkey : hash.key ≠ []) :
    parseHash (formatHash hash) = some hash := by
  have hint : parseInt (formatInt hash.iterations) = some (hash.iterations : Int) := by
    rw [parseInt_formatInt, if_pos ⟨by omega, by omega⟩]
  have hge : (minIterations : Int) ≤ hash.iterations := by omega
  simp only [parseHash, splitOn_formatHash, if_true, hint, decodeNonEmpty_encodeStd64 hsalt,
    decodeNonEmpty_encodeStd64 hkey, Option.filter_some]
  rw [if_pos (by simpa using hge)]
  rfl

/-! ## What is read of a password -/

/-- What of a password is hashed: the part within the limit, without the ends of lines behind it. -/
def hashedPart (p : Bytes) : Bytes := trimRight (p.take readLimit)

section Reading

variable {p rest : Bytes}

/-- A line that has its end within the limit is read, one that has not is cut off. -/
theorem readString_take (h : newline ∉ p) :
    readString ((p ++ newline :: rest).take readLimit) =
      if p.length < readLimit then p ++ [newline] else p.take readLimit := by
  have hp : ∀ c ∈ p, decide (c ≠ newline) = true := fun c hc =>
    decide_eq_true fun heq => h (heq ▸ hc)
  split
  · next hlt =>
    obtain ⟨n, hn⟩ := Nat.exists_eq_add_of_lt hlt
    rw [List.take_append, List.take_of_length_le (by omega), hn,
      show p.length + n + 1 - p.length = n + 1 by omega, List.take_succ_cons, readString,
      List.takeWhile_append_of_pos hp, List.dropWhile_append_of_pos hp]
    simp
  · next hge =>
    have hall : ∀ c ∈ p.take readLimit, decide (c ≠ newline) = true := fun c hc =>
      hp c (List.mem_of_mem_take hc)
    rw [List.take_append_of_le_length (by omega), readString, List.takeWhile_eq_self_iff.2 hall,
      List.dropWhile_eq_nil_iff.2 hall]
    simp

theorem trimRight_readString (h : newline ∉ p) :
    trimRight (readString ((p ++ newline :: rest).take readLimit)) = hashedPart p := by
  rw [readString_take h, hashedPart]
  split
  · next hlt =>
    rw [List.take_of_length_le (by omega), trimRight, trimRight]
    exact List.rdropWhile_concat_pos _ _ _ (by simp)
  · rfl

/-- A password that fits is hashed as it is. -/
theorem hashedPart_eq_self (hne : p ≠ []) (h : newline ∉ p) (hlast : p.getLast hne ≠ 13)
    (hlen : p.length ≤ readLimit) : hashedPart p = p := by
  rw [hashedPart, List.take_of_length_le hlen, trimRight, List.rdropWhile_eq_self_iff]
  intro hl
  have hend : p.getLast hl ≠ newline := fun heq => h (heq ▸ List.getLast_mem hl)
  simpa using ⟨hlast, hend⟩

end Reading

/-! ## Logging in with the printed hash -/

/-- `pbkdf2.Key` returns as many bytes as it is asked for. -/
def KeyDerivation.Sized (derive : KeyDerivation) : Prop :=
  ∀ password salt iterations length key,
    derive password salt iterations length = some key → key.length = length

/-- The key of a password under a salt. -/
def keyOf (derive : KeyDerivation) (salt : Salt) (password : Bytes) : Option Bytes :=
  derive password salt.val defaultIterations keyLength

/-- The hash that is printed for `p` makes a credential that lets in the user `u` with the passwords
that have the key of `p`, and nobody else. -/
def LogsIn (derive : KeyDerivation) (salt : Salt) (u p rest : Bytes) : Prop :=
  ∀ h, printPasswordHash derive salt (p ++ newline :: rest) = .ok (h ++ [newline]) →
    ∃ credential, newCredential u h = .ok credential ∧ credential.verify derive u p = true ∧
      ∀ u' p', credential.verify derive u' p' = true ↔
        u' = u ∧ ∃ key, keyOf derive salt p' = some key ∧ keyOf derive salt p = some key

section LoggingIn

variable {derive : KeyDerivation} {salt : Salt} {u p rest h : Bytes}

/-- What is printed is the hash of the part of the password that has been read. -/
theorem printPasswordHash_eq_ok (hline : newline ∉ p) :
    printPasswordHash derive salt (p ++ newline :: rest) = .ok (h ++ [newline]) ↔
      hashedPart p ≠ [] ∧ ∃ key, keyOf derive salt (hashedPart p) = some key ∧
        h = formatHash ⟨defaultIterations, salt.val, key⟩ := by
  rw [printPasswordHash, trimRight_readString hline]
  by_cases hempty : hashedPart p = []
  · simp [hempty]
  · simp only [if_neg hempty, hashPassword]
    cases hkey : derive (hashedPart p) salt.val defaultIterations keyLength with
    | none => simp [keyOf, hkey, Except.map]
    | some key => simp [keyOf, hkey, Except.map, hempty, eq_comm]

/-- The printed hash makes a credential, which compares with the key of the part that was read. -/
theorem newCredential_formatHash (hsized : derive.Sized) (hu : isBlank u = false) {key : Bytes}
    (hkey : keyOf derive salt p = some key) :
    newCredential u (formatHash ⟨defaultIterations, salt.val, key⟩) =
      .ok ⟨u, defaultIterations, salt.val, key⟩ := by
  have hlen : key.length = keyLength := hsized _ _ _ _ _ hkey
  have hkne : key ≠ [] := by
    rintro rfl
    cases hlen
  have hsne : salt.val ≠ [] := by
    intro heq
    have := salt.property
    rw [heq] at this
    cases this
  have hmin : minIterations ≤ defaultIterations := by decide
  have hmax : defaultIterations < 2 ^ 63 := by decide
  rw [newCredential, hu, parseHash_formatHash hmin hmax hsne hkne]
  rfl

theorem verify_eq_true (hsized : derive.Sized) {key : Bytes}
    (hkey : keyOf derive salt p = some key) (u' p' : Bytes) :
    Credential.verify derive ⟨u, defaultIterations, salt.val, key⟩ u' p' = true ↔
      u' = u ∧ keyOf derive salt p' = some key := by
  have hlen : key.length = keyLength := hsized _ _ _ _ _ hkey
  rw [Credential.verify, hlen]
  cases hk : derive p' salt.val defaultIterations keyLength with
  | none => simp [keyOf, hk]
  | some derived => simp [keyOf, hk, and_comm]

/-- A hash lets its password in when it is the hash of no other. -/
theorem logsIn_iff (hsized : derive.Sized) (hu : isBlank u = false) (hline : newline ∉ p) :
    LogsIn derive salt u p rest ↔
      hashedPart p = [] ∨ keyOf derive salt (hashedPart p) = none ∨
        keyOf derive salt (hashedPart p) = keyOf derive salt p := by
  constructor
  · intro hlogs
    by_contra! hcon
    obtain ⟨hempty, hsome, hne⟩ := hcon
    obtain ⟨key, hkey⟩ := Option.ne_none_iff_exists'.1 hsome
    obtain ⟨credential, hc, -, hverify⟩ := hlogs _
      ((printPasswordHash_eq_ok hline).2 ⟨hempty, key, hkey, rfl⟩)
    rw [newCredential_formatHash hsized hu hkey] at hc
    obtain rfl := Except.ok.inj hc
    obtain ⟨-, key', hkey', hp⟩ := (hverify u (hashedPart p)).1
      ((verify_eq_true hsized hkey u (hashedPart p)).2 ⟨rfl, hkey⟩)
    exact hne (hkey'.trans hp.symm)
  · intro hcase h hprint
    obtain ⟨hempty, key, hkey, rfl⟩ := (printPasswordHash_eq_ok hline).1 hprint
    have hp : keyOf derive salt p = some key := by
      rcases hcase with hnil | hnone | heq
      · exact absurd hnil hempty
      · rw [hnone] at hkey
        cases hkey
      · exact heq.symm.trans hkey
    refine ⟨_, newCredential_formatHash hsized hu hkey,
      (verify_eq_true hsized hkey u p).2 ⟨rfl, hp⟩, fun u' p' => ?_⟩
    rw [verify_eq_true hsized hkey]
    simp [hp]

end LoggingIn

/-- **When the hash of a password lets it in**: up to the limit always, and beyond it if the part
that is hashed cannot be told from the password. -/
theorem printed_hash_logs_in_iff {derive : KeyDerivation} (hsized : derive.Sized) (salt : Salt)
    {u p : Bytes} (hu : isBlank u = false) (hne : p ≠ []) (hline : newline ∉ p)
    (hlast : p.getLast hne ≠ 13) (rest : Bytes) :
    LogsIn derive salt u p rest ↔
      p.length ≤ readLimit ∨ hashedPart p = [] ∨ keyOf derive salt (hashedPart p) = none ∨
        keyOf derive salt (hashedPart p) = keyOf derive salt p := by
  rw [logsIn_iff hsized hu hline]
  constructor
  · exact .inr
  · rintro (hlen | hcase)
    · rw [hashedPart_eq_self hne hline hlast hlen]
      exact .inr (.inr rfl)
    · exact hcase

/-! ### A password of one byte too many -/

/-- As many letters as are read. -/
def fullPassword : Bytes := List.replicate readLimit 'a'.toUInt8

/-- One more. -/
def longPassword : Bytes := List.replicate (readLimit + 1) 'a'.toUInt8

def countingSalt : Salt := ⟨[0, 1, 2, 3, 4, 5, 6, 7, 8, 9, 10, 11, 12, 13, 14, 15], rfl⟩

/-- What `pbkdf2.Key` makes of the two, with this salt. -/
def longDerive : KeyDerivation := fun password _ _ length =>
  if length ≠ keyLength then some (List.replicate length 0)
  else if password = fullPassword then
    some [37, 47, 241, 162, 138, 144, 137, 88, 126, 54, 139, 45, 249, 74, 140, 9, 222, 113, 70, 195,
      33, 139, 240, 184, 69, 141, 95, 127, 237, 177, 45, 136]
  else
    some [140, 173, 160, 220, 87, 231, 208, 235, 64, 216, 63, 192, 186, 53, 253, 208, 234, 168, 44,
      222, 135, 181, 210, 231, 17, 61, 135, 147, 84, 220, 16, 204]

theorem longDerive_sized : longDerive.Sized := by
  intro password salt iterations length key h
  simp only [longDerive] at h
  split at h
  · obtain rfl := Option.some.inj h
    exact List.length_replicate
  · next hlen =>
    rw [not_not.1 hlen]
    split at h <;> obtain rfl := Option.some.inj h <;> rfl

theorem longPassword_ne_fullPassword : longPassword ≠ fullPassword := by
  intro h
  simpa [longPassword, fullPassword] using congrArg List.length h

theorem newline_not_mem_longPassword : newline ∉ longPassword := by
  rw [longPassword, List.mem_replicate]
  exact fun h => absurd h.2 (by decide)

theorem newline_not_mem_fullPassword : newline ∉ fullPassword := by
  rw [fullPassword, List.mem_replicate]
  exact fun h => absurd h.2 (by decide)

theorem fullPassword_ne_nil : fullPassword ≠ [] := by
  rw [fullPassword, ne_eq, List.replicate_eq_nil_iff]
  decide

theorem getLast_fullPassword : fullPassword.getLast fullPassword_ne_nil ≠ 13 := by
  have hne : 'a'.toUInt8 ≠ 13 := by decide
  simpa [fullPassword] using hne

theorem hashedPart_longPassword : hashedPart longPassword = fullPassword := by
  have htake : longPassword.take readLimit = fullPassword.take readLimit := by
    simp [longPassword, fullPassword]
  rw [hashedPart, htake]
  exact hashedPart_eq_self fullPassword_ne_nil newline_not_mem_fullPassword getLast_fullPassword
    (by simp [fullPassword])

theorem printed_hash_logs_in_fullPassword :
    LogsIn longDerive countingSalt (ascii "admin") fullPassword [] :=
  (printed_hash_logs_in_iff longDerive_sized countingSalt (by decide +kernel) fullPassword_ne_nil
    newline_not_mem_fullPassword getLast_fullPassword []).2 (.inl (by simp [fullPassword]))

/-- The hash that is printed for the long password does not let it in. -/
theorem long_password_locked_out :
    ∃ h credential,
      printPasswordHash longDerive countingSalt (longPassword ++ [newline]) = .ok (h ++ [newline]) ∧
      newCredential (ascii "admin") h = .ok credential ∧
      credential.verify longDerive (ascii "admin") longPassword = false := by
  have hkey : keyOf longDerive countingSalt fullPassword =
      some [37, 47, 241, 162, 138, 144, 137, 88, 126, 54, 139, 45, 249, 74, 140, 9, 222, 113, 70,
        195, 33, 139, 240, 184, 69, 141, 95, 127, 237, 177, 45, 136] := by
    rw [keyOf, longDerive, if_neg (by decide), if_pos rfl]
  refine ⟨_, _, (printPasswordHash_eq_ok newline_not_mem_longPassword).2
      ⟨hashedPart_longPassword ▸ fullPassword_ne_nil, _, hashedPart_longPassword ▸ hkey, rfl⟩,
    newCredential_formatHash longDerive_sized (by decide +kernel) hkey, ?_⟩
  rw [Bool.eq_false_iff, ne_eq, verify_eq_true longDerive_sized hkey]
  rintro ⟨-, hlong⟩
  rw [keyOf, longDerive, if_neg (by decide), if_neg longPassword_ne_fullPassword] at hlong
  exact absurd hlong (by decide)

end NexusTier
