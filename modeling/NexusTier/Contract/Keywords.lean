import NexusTier.Contract.Json
import NexusTier.Encoding.Text

/-!
# JSON Schema

The keywords that `contracts/topology-v1.schema.json` uses.  A schema is a condition on documents,
and a keyword says nothing about documents of a type that it is not for.  `$ref` is not needed: the
definitions of the file are definitions here.  The keyword `format` is taken as an assertion.

Nearly all objects of the file are closed: all properties are required, and there are no others.
`closed_obj` is the rule for them, and `nullable_ofOption` the one for what may be `null`.

## What is here

* `Schema` and the keywords: `type`, `const`, `enum`, `minimum`, `maximum`, `minLength`,
  `maxLength`, `format`, `items`, `properties`, `required`, `additionalProperties`, `maxProperties`,
  `propertyNames`, `not`, `oneOf`.
* `Schema.closed`: an object with these properties and no others, and `closed_fields`, its rule.
* `nullable_ofOption`: what may be missing is `null` or conforms.

## What is left out

Keywords that the file does not use, and annotations, which say nothing about documents.
-/

set_option autoImplicit false

namespace NexusTier

abbrev Schema := Json → Bool

namespace Schema

/-! ## Keywords -/

inductive JsonType where
  | null
  | boolean
  | integer
  | number
  | string
  | array
  | object
deriving DecidableEq

/-- An integer is a number whose value is one, however it is written. -/
def JsonType.has : JsonType → Json → Bool
  | null, .null => true
  | boolean, .bool _ => true
  | integer, .int _ => true
  | integer, .dec q => q.den = 1
  | number, .int _ => true
  | number, .dec _ => true
  | string, .str _ => true
  | array, .arr _ => true
  | object, .obj _ => true
  | _, _ => false

def type (types : List JsonType) : Schema := fun j => types.any fun t => t.has j

def const (text : String) : Schema
  | .str s => s = text
  | _ => false

def enum (texts : List String) : Schema
  | .str s => s ∈ texts
  | _ => false

def minimum (n : Int) : Schema
  | .int m => n ≤ m
  | .dec q => (n : ℚ) ≤ q
  | _ => true

def maximum (n : Int) : Schema
  | .int m => m ≤ n
  | .dec q => q ≤ (n : ℚ)
  | _ => true

def minLength (n : Nat) : Schema
  | .str s => n ≤ s.length
  | _ => true

def maxLength (n : Nat) : Schema
  | .str s => s.length ≤ n
  | _ => true

def isHexDigit (c : Char) : Bool :=
  (48 ≤ c.toNat && c.toNat ≤ 57) || (65 ≤ c.toNat && c.toNat ≤ 70) ||
    (97 ≤ c.toNat && c.toNat ≤ 102)

/-- Five groups of hexadecimal digits. -/
def isUuid (text : String) : Bool :=
  let groups := text.toList.splitOn '-'
  groups.map List.length = [8, 4, 4, 4, 12] && groups.all fun group => group.all isHexDigit

def formatUuid : Schema
  | .str s => isUuid s
  | _ => true

def items (s : Schema) : Schema
  | .arr l => l.all s
  | _ => true

def required (names : List String) : Schema
  | .obj l => names.all fun name => l.any fun e => e.1 = name
  | _ => true

def properties (props : List (String × Schema)) : Schema
  | .obj l => l.all fun e => ((props.lookup e.1).map fun s => s e.2).getD true
  | _ => true

/-- `additionalProperties`, beside `properties` with the names `known`. -/
def additionalProperties (known : List String) (s : Schema) : Schema
  | .obj l => l.all fun e => e.1 ∈ known || s e.2
  | _ => true

def maxProperties (n : Nat) : Schema
  | .obj l => l.length ≤ n
  | _ => true

def propertyNames (s : Schema) : Schema
  | .obj l => l.all fun e => s (.str e.1)
  | _ => true

def not (s : Schema) : Schema := fun j => !s j

def oneOf (schemas : List Schema) : Schema := fun j => (schemas.filter fun s => s j).length = 1

/-- The keywords of one schema. -/
def all (schemas : List Schema) : Schema := fun j => schemas.all fun s => s j

/-- The schema `false`. -/
def never : Schema := fun _ => false

/-- An object that has these properties and no others. -/
def closed (props : List (String × Schema)) : Schema :=
  all [type [.object], additionalProperties (props.map Prod.fst) never,
    required (props.map Prod.fst), properties props]

/-! ## Rules -/

section Rules

variable {α : Type} {f : α → Json} {s : Schema}

/-- What may be `null`, and is an object otherwise. -/
theorem nullable_ofOption {x : Option α} (hnull : s .null = false) (hobj : ∀ a, f a ≠ .null) :
    oneOf [s, type [.null]] (Json.ofOption f x) = true ↔ ∀ a ∈ x, s (f a) = true := by
  cases x with
  | none => simp [oneOf, Json.ofOption, hnull, type, JsonType.has]
  | some a =>
    have htype : type [.null] (f a) = false := by
      cases h : f a with
      | null => exact absurd h (hobj a)
      | _ => rfl
    cases hs : s (f a) <;> simp [oneOf, Json.ofOption, htype, hs]

theorem lookup_of_nodup {props : List (String × Schema)} (h : (props.map Prod.fst).Nodup)
    {p : String × Schema} (hp : p ∈ props) : props.lookup p.1 = some p.2 := by
  induction props with
  | nil => simp at hp
  | cons q props ih =>
    rw [List.map_cons, List.nodup_cons] at h
    rcases List.mem_cons.1 hp with rfl | hp
    · simp [List.lookup]
    · have hne : p.1 ≠ q.1 := fun heq => h.1 (heq ▸ List.mem_map_of_mem hp)
      rw [List.lookup_cons, beq_eq_false_iff_ne.2 hne]
      exact ih h.2 hp

/-- What a closed object has. -/
theorem closed_obj {props : List (String × Schema)} {l : List (String × Json)}
    (hnodup : (props.map Prod.fst).Nodup) : closed props (.obj l) = true ↔
      (∀ e ∈ l, ∃ s, (e.1, s) ∈ props ∧ s e.2 = true) ∧ ∀ p ∈ props, ∃ e ∈ l, e.1 = p.1 := by
  simp only [closed, all, List.all_cons, List.all_nil, Bool.and_true, Bool.and_eq_true, type,
    JsonType.has, List.any_cons, List.any_nil, Bool.or_false, true_and, additionalProperties, never,
    required, properties, List.all_eq_true, List.any_eq_true, decide_eq_true_eq,
    List.forall_mem_map]
  constructor
  · rintro ⟨hknown, hrequired, hvalues⟩
    refine ⟨fun e he => ?_, hrequired⟩
    obtain ⟨p, hp, hname⟩ := List.mem_map.1 (hknown e he)
    have hvalue := hvalues e he
    rw [← hname, lookup_of_nodup hnodup hp] at hvalue
    exact ⟨p.2, by rwa [← hname], hvalue⟩
  · rintro ⟨hvalues, hrequired⟩
    refine ⟨fun e he => ?_, hrequired, fun e he => ?_⟩
    · obtain ⟨s, hs, -⟩ := hvalues e he
      exact List.mem_map_of_mem (f := Prod.fst) hs
    · obtain ⟨s, hs, hvalue⟩ := hvalues e he
      rw [lookup_of_nodup hnodup hs]
      exact hvalue

/-- **The rule for closed objects.**  An object with the properties in their order conforms when
each value does. -/
theorem closed_fields {props : List (String × Schema)} {fields : List (String × Json)}
    (hnodup : (props.map Prod.fst).Nodup)
    (hnames : props.map Prod.fst = fields.map Prod.fst) :
    closed props (.obj fields) = true ↔
      List.Forall₂ (fun p e => p.2 e.2 = true) props fields := by
  have hlength : props.length = fields.length := by simpa using congrArg List.length hnames
  have hname : ∀ {i} (hi : i < props.length) (hi' : i < fields.length),
      props[i].1 = fields[i].1 := fun {i} hi hi' => by
    have hget := congrArg (fun l : List String => l[i]?) hnames
    simpa [hi, hi'] using hget
  rw [closed_obj hnodup, List.forall₂_iff_get]
  constructor
  · rintro ⟨hvalues, -⟩
    refine ⟨hlength, fun i hi hi' => ?_⟩
    obtain ⟨s, hs, hvalue⟩ := hvalues fields[i] (List.getElem_mem hi')
    have hlookup := lookup_of_nodup hnodup (List.getElem_mem hi)
    rw [hname hi hi', lookup_of_nodup hnodup hs] at hlookup
    simpa [← Option.some.inj hlookup] using hvalue
  · rintro ⟨-, hvalues⟩
    constructor
    · intro e he
      obtain ⟨i, hi', rfl⟩ := List.mem_iff_getElem.1 he
      have hi : i < props.length := hlength ▸ hi'
      exact ⟨props[i].2, by rw [← hname hi hi']; exact List.getElem_mem hi, hvalues i hi hi'⟩
    · intro p hp
      obtain ⟨i, hi, rfl⟩ := List.mem_iff_getElem.1 hp
      have hi' : i < fields.length := hlength ▸ hi
      exact ⟨fields[i], List.getElem_mem hi', (hname hi hi').symm⟩

end Rules

end Schema

end NexusTier
