import NexusTier.Contract.Required

/-!
# The bytes of a response

`FetchTopology` again, on the body as it comes over the wire.  A `LimitReader` ends the body one byte
after the limit of 16 MiB, and ends it without an error.  The decoder takes one value from what there
is, and `ensureJSONEOF` has it look for another.

The byte more is meant to show that a body is too long.  It does only if it is looked at: where the
value has ended before, and white space follows, what comes next is beyond the limit, and neither
its length nor what it is matters any more.

What `encoding/json` does with bytes is a parameter (`JsonDecoder`).

## What is here

* `fetchTopologyBytes`: the whole of `FetchTopology`, from the status on.
* `fetchAnswer`: what it comes to on an answer of the gateway, which is one document; the two agree
  (`fetchTopologyBytes_eq_fetchAnswer`).
* `fetchTopologyBytes_eq_ok`: what is accepted is one document, with white space around it as far as
  the limit lets it be seen.
* `body_limit_iff`: exactly when a body over the limit is refused.
* `longBody_accepted`: one that is not.

## What is left out

Errors of the connection while the body is read, and the excerpt of the body in the error for
another status.
-/

set_option autoImplicit false

namespace NexusTier

open Relational

/-- What `Decode` finds at the front of its input. -/
inductive Scan where
  /-- The input ends after white space: `io.EOF`. -/
  | eof
  | syntaxError
  /-- A value, and what follows it. -/
  | value (document : Json) (rest : List UInt8)

/-- The decoder of `encoding/json`. -/
structure JsonDecoder where
  /-- The texts of a document. -/
  Text : Json → List UInt8 → Prop
  scan : List UInt8 → Scan

/-- White space. -/
def isSpace (b : UInt8) : Bool := b = 0x20 || b = 0x09 || b = 0x0a || b = 0x0d

/-- The bytes are a text of the document, with white space around it. -/
def JsonDecoder.Surrounded (D : JsonDecoder) (document : Json) (bytes : List UInt8) : Prop :=
  ∃ before text after, bytes = before ++ text ++ after ∧ before.all isSpace = true ∧
    after.all isSpace = true ∧ D.Text document text

/-- What is relied on: the decoder takes nothing but texts, it takes a text that nothing but white
space follows, and it knows when there is nothing left. -/
structure JsonDecoder.Exact (D : JsonDecoder) : Prop where
  sound : ∀ input document rest, D.scan input = .value document rest →
    ∃ before text, input = before ++ text ++ rest ∧ before.all isSpace = true ∧
      D.Text document text
  complete : ∀ before document text after, before.all isSpace = true → D.Text document text →
    after.all isSpace = true → D.scan (before ++ text ++ after) = .value document after
  eof_iff : ∀ input, D.scan input = .eof ↔ input.all isSpace = true

def maxTopologyResponseBytes : ℕ := 16 * 2 ^ 20

/-- The response of the gateway. -/
structure GatewayResponse where
  statusCode : ℕ
  body : List UInt8

/-- Why `FetchTopology` fails. -/
inductive BodyError where
  | status (code : ℕ)
  | eof
  | syntaxError
  | decode (error : DecodeError)
  | trailingValue
  | trailer
  | invalid (error : ValidationError)
deriving DecidableEq

section

variable (C : Codec) (D : JsonDecoder)

/-- `ensureJSONEOF`. -/
def ensureJSONEOF (rest : List UInt8) : Except BodyError Unit :=
  match D.scan rest with
  | .eof => .ok ()
  | .syntaxError => .error .trailer
  | .value _ _ => .error .trailingValue

/-- `FetchTopology`, on an answer of the gateway, which is the text of one document and nothing
else: if the limit cuts it off, the decoder finds the end of its input within a value. -/
def fetchAnswer (document : Json) : Except BodyError Snapshot :=
  if maxTopologyResponseBytes + 1 < C.size document then .error .syntaxError
  else do
    let snapshot ← ((Snapshot.decoder C).decode document).mapError .decode
    snapshot.validate.mapError .invalid
    return snapshot

/-- `FetchTopology`, on the bytes of the response. -/
def fetchTopologyBytes (response : GatewayResponse) : Except BodyError Snapshot :=
  if response.statusCode ≠ 200 then .error (.status response.statusCode)
  else
    -- `io.LimitReader`
    match D.scan (response.body.take (maxTopologyResponseBytes + 1)) with
    | .eof => .error .eof
    | .syntaxError => .error .syntaxError
    | .value document rest => do
      let snapshot ← ((Snapshot.decoder C).decode document).mapError .decode
      ensureJSONEOF D rest
      snapshot.validate.mapError .invalid
      return snapshot

end

/-! ## What is accepted -/

section

variable {C : Codec} {D : JsonDecoder} {response : GatewayResponse} {s : Snapshot}

theorem ensureJSONEOF_eq_ok (hD : D.Exact) {rest : List UInt8} {u : Unit} :
    ensureJSONEOF D rest = .ok u ↔ rest.all isSpace = true := by
  rw [ensureJSONEOF, ← hD.eof_iff]
  cases D.scan rest <;> simp

/-- **What is accepted is one document that can be accepted, as far as the limit lets it be seen.** -/
theorem fetchTopologyBytes_eq_ok (hD : D.Exact) :
    fetchTopologyBytes C D response = .ok s ↔ response.statusCode = 200 ∧ ∃ document,
      D.Surrounded document (response.body.take (maxTopologyResponseBytes + 1)) ∧
        (Snapshot.decoder C).decode document = .ok s ∧ s.Valid := by
  rw [fetchTopologyBytes]
  generalize response.body.take (maxTopologyResponseBytes + 1) = visible
  by_cases hstatus : response.statusCode = 200
  · rw [if_neg (not_not.2 hstatus)]
    constructor
    · intro h
      cases hscan : D.scan visible with
      | eof => simp [hscan] at h
      | syntaxError => simp [hscan] at h
      | value document rest =>
        simp only [hscan, bind_eq_ok, mapError_eq_ok, pure_eq_ok, ensureJSONEOF_eq_ok hD] at h
        obtain ⟨decoded, hdecode, _, hrest, _, hvalid, rfl⟩ := h
        obtain ⟨before, text, heq, hbefore, htext⟩ := hD.sound visible document rest hscan
        exact ⟨hstatus, document, ⟨before, text, rest, heq, hbefore, hrest, htext⟩, hdecode,
          Snapshot.validate_eq_ok.1 hvalid⟩
    · rintro ⟨-, document, ⟨before, text, after, rfl, hbefore, hafter, htext⟩, hdecode, hvalid⟩
      simp only [hD.complete before document text after hbefore htext hafter, bind_eq_ok,
        mapError_eq_ok, pure_eq_ok, ensureJSONEOF_eq_ok hD]
      exact ⟨s, hdecode, (), hafter, (), Snapshot.validate_eq_ok.2 hvalid, rfl⟩
  · simp [hstatus]

/-- A document that comes through as a whole is decoded and checked. -/
theorem fetchTopologyBytes_of_surrounded (hD : D.Exact) (C : Codec) {document : Json}
    {body : List UInt8} (hbody : D.Surrounded document body)
    (hlength : body.length ≤ maxTopologyResponseBytes + 1) :
    fetchTopologyBytes C D ⟨200, body⟩ = do
      let snapshot ← ((Snapshot.decoder C).decode document).mapError .decode
      snapshot.validate.mapError .invalid
      return snapshot := by
  obtain ⟨before, text, after, rfl, hbefore, hafter, htext⟩ := hbody
  have heof : ensureJSONEOF D after = .ok () := (ensureJSONEOF_eq_ok hD).2 hafter
  rw [fetchTopologyBytes, if_neg (not_not.2 rfl)]
  simp only [List.take_of_length_le hlength,
    hD.complete before document text after hbefore htext hafter, heof]
  rfl

/-- **An answer is fetched as its bytes are**, if no part of its text is a value, as no part of the
text of an object is. -/
theorem fetchTopologyBytes_eq_fetchAnswer (hD : D.Exact) {document : Json} {text : List UInt8}
    (htext : D.Text document text) (hsize : text.length = C.size document)
    (hpart : ∀ part, part <+: text → part ≠ [] → part.length < text.length →
      D.scan part = .syntaxError) :
    fetchTopologyBytes C D ⟨200, text⟩ = fetchAnswer C document := by
  rw [fetchAnswer]
  split
  next hlong =>
    have hcut : D.scan (text.take (maxTopologyResponseBytes + 1)) = .syntaxError := by
      refine hpart _ (List.take_prefix _ _) ?_ ?_
      · rw [ne_eq, ← List.length_eq_zero_iff, List.length_take]
        omega
      · rw [List.length_take]
        omega
    simp [fetchTopologyBytes, hcut]
  next hshort =>
    have hsurrounded : D.Surrounded document text := ⟨[], text, [], by simp, rfl, rfl, htext⟩
    exact fetchTopologyBytes_of_surrounded hD C hsurrounded (by omega)

theorem fetchAnswer_eq_ok {document : Json} : fetchAnswer C document = .ok s ↔
    C.size document ≤ maxTopologyResponseBytes + 1 ∧
      (Snapshot.decoder C).decode document = .ok s ∧ s.Valid := by
  rw [fetchAnswer]
  split
  next hlong => simp only [reduceCtorEq, false_iff, not_and_or, Nat.not_le, hlong, true_or]
  next hshort =>
    simp only [bind_eq_ok, mapError_eq_ok, pure_eq_ok, Nat.not_lt.1 hshort, true_and]
    constructor
    · rintro ⟨decoded, hdecode, _, hvalid, rfl⟩
      exact ⟨hdecode, Snapshot.validate_eq_ok.1 hvalid⟩
    · rintro ⟨hdecode, hvalid⟩
      exact ⟨s, hdecode, (), Snapshot.validate_eq_ok.2 hvalid, rfl⟩

/-- What the gateway has written is read back, unless it is invalid or too long. -/
theorem fetchAnswer_serialize (hC : C.Exact) {t : Telemetry.TopologySnapshot} :
    fetchAnswer C (t.serialize C) = .ok s ↔
      C.size (t.serialize C) ≤ maxTopologyResponseBytes + 1 ∧ t.received = s ∧ s.Valid := by
  rw [fetchAnswer_eq_ok, Snapshot.decode_serialize hC, Except.ok.injEq]

/-- The documents are those that are accepted as trees. -/
theorem fetchTopologyBytes_refines (hD : D.Exact)
    (h : fetchTopologyBytes C D response = .ok s) : ∃ document,
      D.Surrounded document (response.body.take (maxTopologyResponseBytes + 1)) ∧
        fetchTopology C ⟨200, [document]⟩ = .ok s := by
  obtain ⟨-, document, hvisible, hdecode, hvalid⟩ := (fetchTopologyBytes_eq_ok hD).1 h
  exact ⟨document, hvisible, fetchTopology_eq_ok.2 ⟨rfl, document, rfl, hdecode, hvalid⟩⟩

/-- **The limit holds unless the bytes up to it could be accepted by themselves.** -/
theorem body_limit_iff (hD : D.Exact) (C : Codec) (response : GatewayResponse) :
    (∀ s, fetchTopologyBytes C D response = .ok s →
        (∃ document, D.Surrounded document response.body) ∧
          response.body.length ≤ maxTopologyResponseBytes) ↔
      response.statusCode ≠ 200 ∨ response.body.length ≤ maxTopologyResponseBytes ∨
        ¬ ∃ document s,
          D.Surrounded document (response.body.take (maxTopologyResponseBytes + 1)) ∧
            (Snapshot.decoder C).decode document = .ok s ∧ s.Valid := by
  constructor
  · intro h
    by_contra hnot
    rw [not_or, not_or, not_not, not_not] at hnot
    obtain ⟨hstatus, hlong, document, s, hvisible, hdecode, hvalid⟩ := hnot
    have haccepted : fetchTopologyBytes C D response = .ok s :=
      (fetchTopologyBytes_eq_ok hD).2 ⟨hstatus, document, hvisible, hdecode, hvalid⟩
    exact hlong (h s haccepted).2
  · rintro h s haccepted
    obtain ⟨hstatus, document, hvisible, hdecode, hvalid⟩ :=
      (fetchTopologyBytes_eq_ok hD).1 haccepted
    have hshort : response.body.length ≤ maxTopologyResponseBytes :=
      (h.resolve_left (not_not.2 hstatus)).resolve_right
        (not_not.2 ⟨document, s, hvisible, hdecode, hvalid⟩)
    rw [List.take_of_length_le (Nat.le_succ_of_le hshort)] at hvisible
    exact ⟨⟨document, hvisible⟩, hshort⟩

end

/-! ### A body that is too long -/

/-- A decoder that knows one text. -/
def JsonDecoder.knowing (document : Json) (text : List UInt8) : JsonDecoder where
  Text document' text' := document' = document ∧ text' = text
  scan input :=
    let input := input.dropWhile isSpace
    if input = [] then .eof
    else if text <+: input then .value document (input.drop text.length)
    else .syntaxError

section

variable {document : Json} {text : List UInt8} {b : UInt8}

/-- White space in front of a text is skipped. -/
theorem dropWhile_space {before after : List UInt8} (hhead : text.head? = some b)
    (hb : isSpace b = false) (hbefore : before.all isSpace = true) :
    (before ++ text ++ after).dropWhile isSpace = text ++ after := by
  obtain ⟨rest, rfl⟩ := List.head?_eq_some_iff.1 hhead
  rw [List.append_assoc, List.dropWhile_append_of_pos (List.all_eq_true.1 hbefore),
    List.cons_append, List.dropWhile_cons_of_neg (by simp [hb])]

theorem JsonDecoder.exact_knowing (hhead : text.head? = some b) (hb : isSpace b = false) :
    (JsonDecoder.knowing document text).Exact := by
  have hnil : ∀ after, text ++ after ≠ [] := by
    rintro after h
    rw [(List.append_eq_nil_iff.1 h).1] at hhead
    cases hhead
  constructor
  · intro input document' rest hscan
    by_cases hempty : input.dropWhile isSpace = []
    · simp only [knowing, if_pos hempty, reduceCtorEq] at hscan
    · by_cases hprefix : text <+: input.dropWhile isSpace
      · obtain ⟨after, hafter⟩ := hprefix
        simp only [knowing, ← hafter, if_neg (hnil after), if_pos (List.prefix_append text after),
          List.drop_left, Scan.value.injEq] at hscan
        obtain ⟨rfl, rfl⟩ := hscan
        refine ⟨input.takeWhile isSpace, text, ?_, List.all_takeWhile, rfl, rfl⟩
        rw [List.append_assoc, hafter, List.takeWhile_append_dropWhile]
      · simp only [knowing, if_neg hempty, if_neg hprefix, reduceCtorEq] at hscan
  · rintro before _ _ after hbefore ⟨rfl, rfl⟩ hafter
    simp only [knowing, dropWhile_space hhead hb hbefore, if_neg (hnil after),
      if_pos (List.prefix_append _ after), List.drop_left]
  · intro input
    rw [List.all_eq_true, ← List.dropWhile_eq_nil_iff]
    by_cases hempty : input.dropWhile isSpace = []
    · simp only [knowing, hempty, reduceIte]
    · by_cases hprefix : text <+: input.dropWhile isSpace <;>
        simp only [knowing, hempty, hprefix, reduceIte, reduceCtorEq]

/-- Where a text has ended before the limit, and white space reaches up to it, that is all there
is. -/
theorem take_limit {n : ℕ} {rest : List UInt8} (hpos : 0 < text.length)
    (hlength : text.length ≤ n + 1) : (text ++ List.replicate n b ++ rest).take (n + 1) =
      text ++ List.replicate (n + 1 - text.length) b := by
  rw [List.take_append_of_le_length (by rw [List.length_append, List.length_replicate]; omega),
    List.take_append, List.take_of_length_le hlength, List.take_replicate, Nat.min_eq_left (by omega)]

end

/-- The text of `unlisted`. -/
def unlistedText : List UInt8 := (unlisted.render formatNumber).toUTF8.toList

def unlistedDecoder : JsonDecoder := .knowing unlisted unlistedText

theorem exact_unlistedDecoder : unlistedDecoder.Exact :=
  @JsonDecoder.exact_knowing unlisted unlistedText 0x7b (by decide +kernel) (by decide +kernel)

theorem decode_unlisted :
    (Snapshot.decoder plainCodec).decode unlisted = .ok unlistedSnapshot := by decide +kernel

theorem valid_unlistedSnapshot : unlistedSnapshot.Valid :=
  Snapshot.validate_eq_ok.1 (by decide +kernel)

theorem length_unlistedText : unlistedText.length = 164 := by decide +kernel

theorem body_limit_iff_newline :
    fetchTopologyBytes plainCodec unlistedDecoder ⟨200, unlistedText ++ [0x0a]⟩ =
        .ok unlistedSnapshot ∧
      (∃ document, unlistedDecoder.Surrounded document (unlistedText ++ [0x0a])) ∧
        (unlistedText ++ [0x0a]).length ≤ maxTopologyResponseBytes := by
  have hshort : (unlistedText ++ [0x0a]).length ≤ maxTopologyResponseBytes := by
    rw [List.length_append, length_unlistedText]
    decide
  have haccepted : fetchTopologyBytes plainCodec unlistedDecoder ⟨200, unlistedText ++ [0x0a]⟩ =
      .ok unlistedSnapshot := by
    refine (fetchTopologyBytes_eq_ok exact_unlistedDecoder).2
      ⟨rfl, unlisted, ?_, decode_unlisted, valid_unlistedSnapshot⟩
    rw [List.take_of_length_le (Nat.le_succ_of_le hshort)]
    exact ⟨[], unlistedText, [0x0a], rfl, rfl, rfl, rfl, rfl⟩
  exact ⟨haccepted,
    (body_limit_iff exact_unlistedDecoder plainCodec _).2 (.inr (.inl hshort)) _ haccepted⟩

/-- The text, white space up to the limit, and then something else. -/
def longBody : List UInt8 :=
  unlistedText ++ List.replicate maxTopologyResponseBytes 0x20 ++ [0x78]

/-- **A body may be too long, and end in something else.** -/
theorem longBody_accepted :
    maxTopologyResponseBytes < longBody.length ∧
      (¬ ∃ document, unlistedDecoder.Surrounded document longBody) ∧
      fetchTopologyBytes plainCodec unlistedDecoder ⟨200, longBody⟩ = .ok unlistedSnapshot := by
  refine ⟨?_, ?_, ?_⟩
  · rw [longBody, List.length_append, List.length_append, List.length_replicate, length_unlistedText]
    omega
  · rintro ⟨document, before, text, after, heq, -, hafter, -, rfl⟩
    have hlast : longBody.getLast? = some 0x78 := List.getLast?_concat
    rw [heq, List.getLast?_append, List.getLast?_append] at hlast
    have htext : unlistedText.getLast? = some 0x7d := by decide +kernel
    cases hend : after.getLast? with
    | none => simp [hend, htext] at hlast
    | some b =>
      have hb := List.all_eq_true.1 hafter b (List.mem_of_getLast? hend)
      obtain rfl : b = 0x78 := by simpa [hend] using hlast
      exact absurd hb (by decide)
  · refine (fetchTopologyBytes_eq_ok exact_unlistedDecoder).2
      ⟨rfl, unlisted, ?_, decode_unlisted, valid_unlistedSnapshot⟩
    have hpos : 0 < unlistedText.length := by
      rw [length_unlistedText]
      decide
    have hle : unlistedText.length ≤ maxTopologyResponseBytes + 1 := by
      rw [length_unlistedText]
      decide
    rw [longBody, take_limit hpos hle]
    exact ⟨[], unlistedText, _, rfl, rfl, by simp [isSpace], rfl, rfl⟩

end NexusTier
