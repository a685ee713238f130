import NexusTier.Relational.Table

/-!
# Working through a table in batches

`SELECT key … WHERE p ORDER BY r LIMIT limit` is a *batch* of a table.  A program deletes or marks
the rows of a batch, and does so again until a batch comes out short.

## What is here

* `Table.batch` — the batch, and what it leaves when its rows are dealt with
  (`length_selected_of_dealt`): `limit` rows fewer.
* `loopOn` — the loop.  What a pass finds is not for the loop to say, so the passes take it from a
  script.  `loopOn_rule` is the rule for what holds when the loop ends, `loopOn_isSome` and
  `loopOn_isSome_of_break` say when it does.

Rows, keys and the order of a batch are of any type; what it is to deal with a row is up to the
program.
-/

set_option autoImplicit false

namespace Relational

open Std (TransOrd LawfulEqOrd)

/-! ## A batch of rows -/

namespace Table

variable {K V : Type} [Ord K] [TransOrd K] {p : K × V → Bool} {r : K × V → K × V → Prop}
  [DecidableRel r] {limit : Nat} {t t' : Table K V} {e : K × V} {k : K}

/-- The rows a condition selects, in the order of `r`. -/
def selected (p : K × V → Bool) (r : K × V → K × V → Prop) [DecidableRel r] (t : Table K V) :
    List (K × V) :=
  (t.toList.filter p).insertionSort r

/-- The keys of the first `limit` of them. -/
def batch (p : K × V → Bool) (r : K × V → K × V → Prop) [DecidableRel r] (limit : Nat)
    (t : Table K V) : List K :=
  ((selected p r t).take limit).map Prod.fst

theorem length_selected : (selected p r t).length = (t.toList.filter p).length :=
  List.length_insertionSort ..

theorem length_batch : (batch p r limit t).length = min limit (selected p r t).length := by
  rw [batch, List.length_map, List.length_take]

theorem nodup_keys_selected : ((selected p r t).map Prod.fst).Nodup := by
  have hperm := (List.perm_insertionSort r (t.toList.filter p)).map Prod.fst
  exact hperm.nodup_iff.2 (nodup_keys_toList.sublist (List.filter_sublist.map _))

theorem nodup_selected : (selected p r t).Nodup := List.Nodup.of_map _ nodup_keys_selected

variable [LawfulEqOrd K]

theorem mem_selected : e ∈ selected p r t ↔ t[e.1]? = some e.2 ∧ p e = true := by
  rw [selected, List.mem_insertionSort, List.mem_filter, mem_toList]

theorem mem_take_selected :
    e ∈ (selected p r t).take limit ↔ t[e.1]? = some e.2 ∧ e.1 ∈ batch p r limit t := by
  constructor
  · intro h
    exact ⟨(mem_selected.1 (List.mem_of_mem_take h)).1, List.mem_map_of_mem h⟩
  · rintro ⟨ht, hb⟩
    obtain ⟨e', he', hkey⟩ := List.mem_map.1 hb
    have ht' := (mem_selected.1 (List.mem_of_mem_take he')).1
    have hval : e'.2 = e.2 := Option.some.inj (by rw [← ht, ← ht', hkey])
    rwa [Prod.ext hkey hval] at he'

/-- A row of the batch satisfies the condition. -/
theorem exists_of_mem_batch (h : k ∈ batch p r limit t) : ∃ v, t[k]? = some v ∧ p (k, v) = true := by
  obtain ⟨e, he, rfl⟩ := List.mem_map.1 h
  exact ⟨e.2, mem_selected.1 (List.mem_of_mem_take he)⟩

theorem mem_drop_selected :
    e ∈ (selected p r t).drop limit ↔
      (t[e.1]? = some e.2 ∧ p e = true) ∧ e.1 ∉ batch p r limit t := by
  have hsplit : (selected p r t).take limit ++ (selected p r t).drop limit = selected p r t :=
    List.take_append_drop limit _
  have hdisj := (List.nodup_append.1 (hsplit.symm ▸ nodup_selected (p := p) (r := r) (t := t))).2.2
  constructor
  · intro h
    refine ⟨mem_selected.1 (List.mem_of_mem_drop h), fun hb => ?_⟩
    have ht := (mem_selected.1 (List.mem_of_mem_drop h)).1
    exact hdisj e (mem_take_selected.2 ⟨ht, hb⟩) e h rfl
  · rintro ⟨h, hb⟩
    rcases List.mem_append.1 (hsplit.symm ▸ mem_selected.2 h) with hmem | hmem
    · exact absurd (List.mem_map_of_mem hmem) hb
    · exact hmem

/-- A row of the batch comes before a selected row that did not make it. -/
theorem rel_of_mem_batch [IsTrans (K × V) r] [Std.Total r] {k k' : K} {v v' : V}
    (ht : t[k]? = some v) (hb : k ∈ batch p r limit t) (ht' : t[k']? = some v')
    (hp' : p (k', v') = true) (hb' : k' ∉ batch p r limit t) : r (k, v) (k', v') := by
  have hsorted : ((selected p r t).take limit ++ (selected p r t).drop limit).Pairwise r := by
    rw [List.take_append_drop]
    exact List.pairwise_insertionSort r _
  exact (List.pairwise_append.1 hsorted).2.2 (k, v) (mem_take_selected.2 ⟨ht, hb⟩) (k', v')
    (mem_drop_selected.2 ⟨⟨ht', hp'⟩, hb'⟩)

/-- After the rows of a batch have been dealt with, the condition selects those behind it. -/
theorem length_selected_of_dealt
    (h : ∀ k v, p (k, v) = true → (t'[k]? = some v ↔ t[k]? = some v ∧ k ∉ batch p r limit t)) :
    (selected p r t').length = (selected p r t).length - limit := by
  have hperm : (t'.toList.filter p).Perm ((selected p r t).drop limit) := by
    refine perm_filter_toList (nodup_selected.sublist (List.drop_sublist ..)) fun e => ?_
    rw [mem_drop_selected]
    constructor
    · rintro ⟨⟨ht, hp⟩, hb⟩
      exact ⟨(h e.1 e.2 hp).2 ⟨ht, hb⟩, hp⟩
    · rintro ⟨ht, hp⟩
      exact ⟨⟨((h e.1 e.2 hp).1 ht).1, hp⟩, ((h e.1 e.2 hp).1 ht).2⟩
  rw [length_selected, hperm.length_eq, List.length_drop]

/-- As many rows have their key in the batch as the batch is long. -/
theorem length_filter_of_batch {q : K × V → Bool}
    (h : ∀ k v, t[k]? = some v → (q (k, v) = true ↔ k ∈ batch p r limit t)) :
    (t.toList.filter q).length = (batch p r limit t).length := by
  have hperm : (t.toList.filter q).Perm ((selected p r t).take limit) := by
    refine perm_filter_toList (nodup_selected.sublist (List.take_sublist ..)) fun e => ?_
    rw [mem_take_selected]
    exact and_congr_right fun ht => (h e.1 e.2 ht).symm
  rw [hperm.length_eq, batch, List.length_map]

end Table

/-! ## The loop -/

variable {α β σ : Type}

/-- A loop whose passes go on with a state or break with a result.  Each pass takes an entry of
the script, and the entries that are left come back with the result; `none` means that the script
ended before the loop did. -/
def loopOn (pass : α → σ → σ ⊕ β) : List α → σ → Option (β × List α)
  | [], _ => none
  | a :: script, s =>
    match pass a s with
    | .inl s' => loopOn pass script s'
    | .inr b => some (b, script)

variable {pass : α → σ → σ ⊕ β} {script rest : List α} {s : σ} {b : β}

/-- What the passes keep gives what the last one leaves.  `I` and `Q` may speak of the entries that
have been taken. -/
theorem loopOn_rule {I : List α → σ → Prop} {Q : List α → β → Prop}
    (goOn : ∀ taken a s s', I taken s → pass a s = .inl s' → I (taken ++ [a]) s')
    (stop : ∀ taken a s b, I taken s → pass a s = .inr b → Q (taken ++ [a]) b)
    (h0 : I [] s) (h : loopOn pass script s = some (b, rest)) :
    ∃ taken, script = taken ++ rest ∧ Q taken b := by
  suffices ∀ before, I before s → ∃ taken, script = taken ++ rest ∧ Q (before ++ taken) b by
    simpa using this [] h0
  clear h0
  induction script generalizing s with
  | nil => simp [loopOn] at h
  | cons a script ih =>
    intro before hI
    rw [loopOn] at h
    cases hp : pass a s with
    | inl s' =>
      rw [hp] at h
      obtain ⟨taken, rfl, hQ⟩ := ih h (before ++ [a]) (goOn before a s s' hI hp)
      exact ⟨a :: taken, rfl, by simpa using hQ⟩
    | inr b' =>
      rw [hp] at h
      obtain ⟨rfl, rfl⟩ := Prod.mk.inj (Option.some.inj h)
      exact ⟨[a], rfl, stop before a s b' hI hp⟩

/-- A loop ends when a pass that goes on comes closer to the end, and has not taken more entries
than that lets it. -/
theorem loopOn_isSome {I : σ → Prop} {m : σ → Nat}
    (h : ∀ a ∈ script, ∀ s s', I s → pass a s = .inl s' → I s' ∧ m s' < m s) (hI : I s)
    (hm : m s < script.length) :
    ∃ b rest, loopOn pass script s = some (b, rest) ∧ script.length ≤ rest.length + (m s + 1) := by
  induction script generalizing s with
  | nil => simp at hm
  | cons a script ih =>
    rw [List.length_cons] at hm ⊢
    rw [loopOn]
    cases hp : pass a s with
    | inl s' =>
      obtain ⟨hI', hlt⟩ := h a (by simp) s s' hI hp
      obtain ⟨b, rest, heq, hlen⟩ := ih (fun a' ha' => h a' (by simp [ha'])) hI' (by omega)
      exact ⟨b, rest, heq, by omega⟩
    | inr b => exact ⟨b, script, rfl, by omega⟩

/-- A loop ends at an entry that breaks it in every state, if not before. -/
theorem loopOn_isSome_of_break {a : α} (ha : a ∈ script) (h : ∀ s, ∃ b, pass a s = .inr b) :
    ∃ b rest, loopOn pass script s = some (b, rest) := by
  induction script generalizing s with
  | nil => simp at ha
  | cons a' script ih =>
    rw [loopOn]
    cases hp : pass a' s with
    | inl s' =>
      rcases List.mem_cons.1 ha with rfl | ha
      · obtain ⟨b, hb⟩ := h s
        rw [hb] at hp
        cases hp
      · exact ih ha
    | inr b => exact ⟨b, script, rfl⟩

end Relational
