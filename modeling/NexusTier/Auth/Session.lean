import NexusTier.Encoding.Text

/-!
# Credentials and session tokens

`credential.go` and `session.go`: who may log in, and the token that says who has.  A token is the
encoding of a subject, an expiry and a nonce, with a code of that text under the key of the signer.

Two functions of the standard library stand outside and are parameters: `pbkdf2.Key` and
HMAC-SHA256.  What is random, a nonce, is an argument.

`SessionSigner.verify_eq_some` is what a token that is accepted must look like, and
`verify_issued` what it says if it is the signer's own.

## What is here

* `SessionSigner.issue` and `SessionSigner.verify`, over any code.
* `SessionSigner.verify_eq_some`: the form of an accepted token.
* `SessionSigner.verify_issued`: an accepted token of the signer is one that has not expired.
* `session_codec`: both as one statement about tokens, for subjects of any bytes.

## What is left out

That codes and keys are compared in constant time: only the result of a comparison is modelled.
-/

set_option autoImplicit false

namespace NexusTier

open Encoding

/-- `Time.Unix`.  Times and durations are nanoseconds. -/
def unix (t : Int) : Int := t / 10 ^ 9

/-! ## Credentials -/

/-- `pbkdf2.Key` with SHA-256, of a password, a salt, the iterations and the length of the key. -/
abbrev KeyDerivation := Bytes → Bytes → Nat → Nat → Option Bytes

/-- The account of the operator, with the parsed hash of its password. -/
structure Credential where
  username : Bytes
  iterations : Nat
  salt : Bytes
  key : Bytes

/-- `Credential.Verify`.  The key is derived before the name is looked at. -/
def Credential.verify (derive : KeyDerivation) (credential : Credential)
    (username password : Bytes) : Bool :=
  match derive password credential.salt credential.iterations credential.key.length with
  | none => false
  | some derived => derived == credential.key && username == credential.username

/-! ## Tokens -/

/-- HMAC-SHA256, of a key and a text. -/
abbrev Mac := Bytes → Bytes → Bytes

structure SessionSigner where
  key : Bytes
  ttl : Int
  /-- The checks of `NewSessionSigner`. -/
  ttl_pos : 0 < ttl
  key_length : 32 ≤ key.length

def bar : UInt8 := '|'.toUInt8

def dot : UInt8 := '.'.toUInt8

/-- `strings.Cut`, at a separator of one byte. -/
def cut (separator : UInt8) (text : Bytes) : Option (Bytes × Bytes) :=
  match text.dropWhile (· ≠ separator) with
  | [] => none
  | _ :: after => some (text.takeWhile (· ≠ separator), after)

theorem cut_eq_some {separator : UInt8} {text before after : Bytes}
    (h : cut separator text = some (before, after)) : text = before ++ separator :: after := by
  rw [cut] at h
  split at h
  · simp at h
  · rename_i c rest hdrop
    obtain ⟨rfl, rfl⟩ : text.takeWhile (· ≠ separator) = before ∧ rest = after := by simpa using h
    have hsplit := List.takeWhile_append_dropWhile (p := (· ≠ separator)) (l := text)
    have hc : c = separator := by
      have hne : text.dropWhile (· ≠ separator) ≠ [] := by
        rw [hdrop]
        exact List.cons_ne_nil c rest
      have hhead := List.head_dropWhile_not (· ≠ separator) hne
      simp only [hdrop, List.head_cons] at hhead
      simpa using hhead
    rw [hdrop, hc] at hsplit
    exact hsplit.symm

/-- The first separator is where the text is cut. -/
theorem cut_append {separator : UInt8} {before : Bytes} (h : separator ∉ before) (after : Bytes) :
    cut separator (before ++ separator :: after) = some (before, after) := by
  have hkeep : ∀ c ∈ before, decide (c ≠ separator) = true := by
    rintro c hc
    exact decide_eq_true fun hsep => h (hsep ▸ hc)
  rw [cut, List.dropWhile_append_of_pos hkeep, List.takeWhile_append_of_pos hkeep]
  simp

namespace SessionSigner

variable (mac : Mac) (signer : SessionSigner)

def sign (encoded : Bytes) : Bytes := encode64 (mac signer.key encoded)

/-- What is encoded and signed. -/
def payload (subject : Bytes) (expiry : Int) (nonce : Bytes) : Bytes :=
  [bar].intercalate [encode64 subject, formatInt expiry, encode64 nonce]

/-- `now.Add(signer.ttl).Unix()`. -/
def expiry (now : Int) : Int := unix (now + signer.ttl)

/-- `SessionSigner.Issue`, with the nonce that `rand.Read` fills or its error. -/
def issue (subject : Bytes) (now : Int) (nonce : Except String Bytes) : Except String Bytes :=
  if subject = [] then .error "subject must not be empty"
  else
    match nonce with
    | .error e => .error ("generate nonce: " ++ e)
    | .ok nonce =>
      let encoded := encode64 (payload subject (signer.expiry now) nonce)
      .ok (encoded ++ dot :: signer.sign mac encoded)

/-- `SessionSigner.Verify`: the subject, or `ErrInvalidSession`. -/
def verify (token : Bytes) (now : Int) : Option Bytes :=
  match cut dot token with
  | none => none
  | some (encoded, signature) =>
    if signature ≠ signer.sign mac encoded then none
    else
      match decode64 encoded with
      | none => none
      | some raw =>
        match raw.splitOn bar with
        | [subject, expiry, _] =>
          match decode64 subject, parseInt expiry with
          | some subject, some expiry =>
            if subject = [] ∨ unix now ≥ expiry then none else some subject
          | _, _ => none
        | _ => none

variable {mac signer}

/-- What is accepted carries the right code and a subject, and has not expired. -/
theorem verify_eq_some {token subject : Bytes} {now : Int}
    (h : signer.verify mac token now = some subject) :
    ∃ encoded, cut dot token = some (encoded, signer.sign mac encoded) ∧
      ∃ raw a b c expiry, decode64 encoded = some raw ∧ raw.splitOn bar = [a, b, c] ∧
        decode64 a = some subject ∧ subject ≠ [] ∧ parseInt b = some expiry ∧
        unix now < expiry := by
  rw [verify] at h
  split at h
  · simp at h
  · rename_i encoded signature hcut
    split at h
    · simp at h
    · rename_i hsign
      obtain rfl := not_not.1 hsign
      refine ⟨encoded, hcut, ?_⟩
      split at h
      · simp at h
      · rename_i raw hraw
        split at h
        · rename_i a b c hsplit
          split at h
          · rename_i subject' expiry hsubject hexpiry
            split at h
            · simp at h
            · rename_i hlive
              obtain ⟨hne, hlt⟩ := not_or.1 hlive
              obtain rfl := Option.some.inj h
              exact ⟨raw, a, b, c, expiry, hraw, hsplit, hsubject, hne, hexpiry, not_le.1 hlt⟩
          · simp at h
        · simp at h

/-- The parts of a payload can be told apart. -/
theorem splitOn_payload (subject : Bytes) (expiry : Int) (nonce : Bytes) :
    (payload subject expiry nonce).splitOn bar =
      [encode64 subject, formatInt expiry, encode64 nonce] := by
  refine List.splitOn_intercalate bar ?_ (by simp)
  simp only [List.forall_mem_cons]
  exact ⟨not_mem_encode64 (by decide) subject, not_mem_formatInt (by decide) (by decide) expiry,
    not_mem_encode64 (by decide) nonce, by simp⟩

/-- **A token of the signer is accepted only before the expiry it was issued with.** -/
theorem verify_issued {token subject subject' nonce : Bytes} {expiry : Int} {now : Int}
    (h : signer.verify mac token now = some subject)
    (hcut : cut dot token = some (encode64 (payload subject' expiry nonce),
      signer.sign mac (encode64 (payload subject' expiry nonce)))) : unix now < expiry := by
  obtain ⟨encoded, hcut', raw, a, b, c, expiry', hraw, hsplit, -, -, hparse, hlt⟩ :=
    verify_eq_some h
  rw [hcut] at hcut'
  obtain ⟨rfl, -⟩ := Prod.mk.inj (Option.some.inj hcut')
  rw [decode64_encode64] at hraw
  obtain rfl := Option.some.inj hraw
  rw [splitOn_payload] at hsplit
  obtain ⟨-, rfl, -⟩ : encode64 subject' = a ∧ formatInt expiry = b ∧ encode64 nonce = c := by
    simpa using hsplit
  rw [parseInt_formatInt] at hparse
  split at hparse
  · obtain rfl := Option.some.inj hparse
    exact hlt
  · simp at hparse

/-! ## The codec -/

/-- A `time.Time` whose `Unix` is right: it returns 64 bits of seconds. -/
def Representable (t : Int) : Prop := -2 ^ 63 ≤ unix t ∧ unix t < 2 ^ 63

/-- A token that has been issued is read back until it expires. -/
theorem verify_issue {subject nonce token : Bytes} {now : Int}
    (hexpiry : Representable (now + signer.ttl))
    (h : signer.issue mac subject now (.ok nonce) = .ok token) (t : Int) :
    signer.verify mac token t = if unix t < unix (now + signer.ttl) then some subject else none := by
  rw [issue] at h
  split at h
  · simp at h
  · rename_i hsubject
    obtain rfl := Except.ok.inj h
    have hdot : dot ∉ encode64 (payload subject (signer.expiry now) nonce) :=
      not_mem_encode64 (by decide) _
    have hfits : -2 ^ 63 ≤ signer.expiry now ∧ signer.expiry now < 2 ^ 63 := hexpiry
    have hparse : parseInt (formatInt (signer.expiry now)) = some (signer.expiry now) := by
      rw [parseInt_formatInt, if_pos hfits]
    simp only [verify, cut_append hdot, ne_eq, not_true_eq_false, if_false, decode64_encode64,
      splitOn_payload, hparse, hsubject, false_or, ge_iff_le]
    show (if unix (now + signer.ttl) ≤ unix t then none else some subject) = _
    by_cases hlive : unix t < unix (now + signer.ttl)
    · rw [if_pos hlive, if_neg (not_le.2 hlive)]
    · rw [if_neg hlive, if_pos (not_lt.1 hlive)]

/-- **The session codec.**  A token that is issued for a subject gives back exactly this subject,
whatever bytes it has, until the second in which it expires, and nothing from then on.  And every
text that is accepted is a signed one, with three fields and an expiry that is still to come. -/
theorem session_codec (mac : Mac) (signer : SessionSigner) :
    (∀ (subject nonce : Bytes) (now t : Int), subject ≠ [] → Representable (now + signer.ttl) →
      ∃ token, signer.issue mac subject now (.ok nonce) = .ok token ∧
        signer.verify mac token t =
          if unix t < unix (now + signer.ttl) then some subject else none) ∧
    ∀ (token subject : Bytes) (t : Int), signer.verify mac token t = some subject →
      ∃ encoded raw a b c expiry, token = encoded ++ dot :: signer.sign mac encoded ∧
        decode64 encoded = some raw ∧ raw.splitOn bar = [a, b, c] ∧
        decode64 a = some subject ∧ subject ≠ [] ∧ parseInt b = some expiry ∧ unix t < expiry := by
  refine ⟨fun subject nonce now t hsubject hexpiry => ?_, fun token subject t h => ?_⟩
  · have hissue : signer.issue mac subject now (.ok nonce) =
        .ok (encode64 (payload subject (signer.expiry now) nonce) ++
          dot :: signer.sign mac (encode64 (payload subject (signer.expiry now) nonce))) := by
      rw [issue, if_neg hsubject]
    exact ⟨_, hissue, verify_issue hexpiry hissue t⟩
  · obtain ⟨encoded, hcut, raw, a, b, c, expiry, hrest⟩ := verify_eq_some h
    exact ⟨encoded, raw, a, b, c, expiry, cut_eq_some hcut, hrest⟩

/-- A signer for an hour, whose code is the key. -/
def hourSigner : SessionSigner := ⟨List.replicate 32 7, 3600 * 10 ^ 9, by decide, by decide⟩

theorem session_codec_separators :
    ∃ token, hourSigner.issue (fun key _ => key) (ascii "a|b.c") 1785000000000000000 (.ok [1, 2]) =
        .ok token ∧
      hourSigner.verify (fun key _ => key) token 1785003599000000000 = some (ascii "a|b.c") ∧
      ∃ encoded, token = encoded ++ dot :: hourSigner.sign (fun key _ => key) encoded := by
  obtain ⟨token, hissue, hverify⟩ := (session_codec (fun key _ => key) hourSigner).1 (ascii "a|b.c")
    [1, 2] 1785000000000000000 1785003599000000000 (by decide) (by unfold Representable; decide)
  rw [if_pos (by decide)] at hverify
  obtain ⟨encoded, _, _, _, _, _, htoken, -⟩ :=
    (session_codec (fun key _ => key) hourSigner).2 _ _ _ hverify
  exact ⟨token, hissue, hverify, encoded, htoken⟩

end SessionSigner

end NexusTier
