import Mathlib

/-!
# Tables with a primary key, and the statements that write them

A table is a finite map from its primary key to a row.  It is `Std.ExtTreeMap`, so a scan lists
the rows in ascending key order and two tables with the same rows are equal.  Over it stand the
four statements a program that talks to a relational database needs.

## What is here

* `Table.upsert` — `INSERT … ON CONFLICT (key) DO UPDATE`;
* `Table.insertNew` — a plain `INSERT`, which a row with the same key refuses;
* `Table.updateWhere` — `UPDATE … WHERE`;
* `Table.deleteWhere` — `DELETE … WHERE`.

What each of them does is said once, as the row found at a key afterwards (`getElem?_upsert` and
its siblings, all `simp` lemmas).  A proof about a sequence of statements never looks at a tree:
it follows one key through the sequence.

## What is left out

What a statement costs, and the order in which it meets the rows: a statement here is one step, as
it is inside of a transaction that nobody else disturbs.
-/

set_option autoImplicit false

namespace Relational

open Std (TransOrd LawfulEqOrd ExtTreeMap)

/-- A table: rows of type `V` under a primary key of type `K`. -/
abbrev Table (K V : Type) [Ord K] := ExtTreeMap K V compare

/-- A two-column primary key is compared column by column. -/
def compareColumns {K A B : Type} [Ord A] [Ord B] (a : K → A) (b : K → B) :
    K → K → Ordering :=
  compareLex (compareOn a) (compareOn b)

theorem compareColumns_eq_iff {K A B : Type} [Ord A] [Ord B] [LawfulEqOrd A] [LawfulEqOrd B]
    {a : K → A} {b : K → B} {x y : K} :
    compareColumns a b x y = .eq ↔ a x = a y ∧ b x = b y := by
  simp [compareColumns, compareLex, compareOn]

namespace Table

variable {K V : Type} [Ord K]

/-- The row an upsert leaves: the proposed one where there was none, else what the conflict
clause makes of the old one. -/
def upsertRow (new : V) (onConflict : V → V) : Option V → V
  | none => new
  | some old => onConflict old

@[simp] theorem upsertRow_none (new : V) (f : V → V) : upsertRow new f none = new := rfl

@[simp] theorem upsertRow_some (new old : V) (f : V → V) :
    upsertRow new f (some old) = f old := rfl

/-- `INSERT … ON CONFLICT (key) DO UPDATE`.  A conflict clause with a `WHERE` returns the old row
unchanged when its condition fails. -/
def upsert [TransOrd K] (t : Table K V) (k : K) (new : V) (onConflict : V → V) : Table K V :=
  t.alter k fun old => some (upsertRow new onConflict old)

/-- A plain `INSERT`: `none` is the violation of the primary key. -/
def insertNew [TransOrd K] (t : Table K V) (k : K) (new : V) : Option (Table K V) :=
  if t.contains k then none else some (t.insert k new)

/-- `UPDATE … SET … WHERE`. -/
def updateWhere [TransOrd K] (t : Table K V) (p : K → V → Bool) (f : V → V) : Table K V :=
  t.map fun k v => if p k v then f v else v

/-- `DELETE … WHERE`. -/
def deleteWhere [TransOrd K] (t : Table K V) (p : K → V → Bool) : Table K V :=
  t.filter fun k v => !p k v

variable [TransOrd K] [LawfulEqOrd K] {t : Table K V} {k a : K} {new v : V} {f : V → V}
  {p : K → V → Bool}

@[simp] theorem getElem?_upsert [DecidableEq K] :
    (upsert t k new f)[a]? = if k = a then some (upsertRow new f t[a]?) else t[a]? := by
  rw [upsert, ExtTreeMap.getElem?_alter]
  by_cases h : k = a
  · subst h; simp
  · simp [h]

@[simp] theorem getElem?_updateWhere :
    (updateWhere t p f)[a]? = t[a]?.map fun v => if p a v then f v else v :=
  ExtTreeMap.getElem?_map

@[simp] theorem getElem?_deleteWhere :
    (deleteWhere t p)[a]? = t[a]?.filter fun v => !p a v := by
  simp only [deleteWhere, ExtTreeMap.getElem?_filter, ExtTreeMap.getKey_eq,
    Option.pfilter_eq_filter]

omit [LawfulEqOrd K] in
/-- A plain `INSERT` succeeds exactly on a new key. -/
theorem insertNew_eq_some {t' : Table K V} :
    insertNew t k new = some t' ↔ t[k]? = none ∧ t' = t.insert k new := by
  rw [insertNew]
  cases h : t[k]? with
  | none =>
    have hc : t.contains k = false := by simp [ExtTreeMap.contains_eq_isSome_getElem?, h]
    simp [hc, eq_comm]
  | some v =>
    have hc : t.contains k = true := by simp [ExtTreeMap.contains_eq_isSome_getElem?, h]
    simp [hc]

theorem getElem?_insert [DecidableEq K] :
    (t.insert k new)[a]? = if k = a then some new else t[a]? := by
  simp [ExtTreeMap.getElem?_insert]

omit [LawfulEqOrd K] in
theorem contains_eq_true : t.contains k = true ↔ ∃ v, t[k]? = some v := by
  rw [ExtTreeMap.contains_eq_isSome_getElem?, Option.isSome_iff_exists]

/-- Rows inserted one after the other leave the other keys alone. -/
theorem getElem?_insertAll_of_not_mem {ws : List (K × V)} (h : a ∉ ws.map Prod.fst) :
    (ws.foldl (fun t e => t.insert e.1 e.2) t)[a]? = t[a]? := by
  classical
  induction ws generalizing t with
  | nil => rfl
  | cons w ws ih =>
    rw [List.map_cons, List.mem_cons, not_or] at h
    rw [List.foldl_cons, ih h.2, getElem?_insert, if_neg fun he => h.1 he.symm]

/-- Rows inserted under different keys are all there. -/
theorem getElem?_insertAll_of_mem {ws : List (K × V)} (hnd : (ws.map Prod.fst).Nodup)
    (h : (a, v) ∈ ws) : (ws.foldl (fun t e => t.insert e.1 e.2) t)[a]? = some v := by
  induction ws generalizing t with
  | nil => simp at h
  | cons w ws ih =>
    rw [List.map_cons, List.nodup_cons] at hnd
    rw [List.foldl_cons]
    rcases List.mem_cons.1 h with rfl | h
    · rw [getElem?_insertAll_of_not_mem hnd.1]
      simp
    · exact ih hnd.2 h

/-- Of rows inserted under their keys, the last one with a key counts. -/
theorem getElem?_insertEach [DecidableEq K] {f : V → K} {rows : List V} :
    (rows.foldl (fun t row => t.insert (f row) row) t)[k]? =
      ((rows.filter fun row => f row = k).getLast?).or t[k]? := by
  induction rows generalizing t with
  | nil => simp
  | cons row rows ih =>
    rw [List.foldl_cons, ih, getElem?_insert]
    by_cases h : f row = k
    · rw [if_pos h, List.filter_cons_of_pos (by simpa using h), List.getLast?_cons]
      cases (rows.filter fun row => f row = k).getLast? <;> simp
    · rw [if_neg h, List.filter_cons_of_neg (by simpa using h)]

/-! ### Tables as a whole -/

/-- Every row satisfies `P`. -/
def All (P : K → V → Prop) (t : Table K V) : Prop := ∀ (k : K) v, t[k]? = some v → P k v

/-- Every row of `t` is still in `t'`, and is related to what it was. -/
def Grows (le : V → V → Prop) (t t' : Table K V) : Prop :=
  ∀ (k : K) v, t[k]? = some v → ∃ v', t'[k]? = some v' ∧ le v v'

omit [LawfulEqOrd K] in
theorem All.imp {P Q : K → V → Prop} (h : t.All P) (hPQ : ∀ k v, P k v → Q k v) : t.All Q :=
  fun k v hv => hPQ k v (h k v hv)

omit [LawfulEqOrd K] in
theorem all_empty {P : K → V → Prop} : (∅ : Table K V).All P := fun k v h => by simp at h

omit [LawfulEqOrd K] in
theorem Grows.refl {le : V → V → Prop} (hle : ∀ v, le v v) : t.Grows le t :=
  fun _ v hv => ⟨v, hv, hle v⟩

omit [LawfulEqOrd K] in
theorem Grows.trans {le : V → V → Prop} (hle : ∀ u v w, le u v → le v w → le u w)
    {t₁ t₂ t₃ : Table K V} (h₁ : t₁.Grows le t₂) (h₂ : t₂.Grows le t₃) : t₁.Grows le t₃ := by
  intro k v hv
  obtain ⟨v', hv', hle'⟩ := h₁ k v hv
  obtain ⟨v'', hv'', hle''⟩ := h₂ k v' hv'
  exact ⟨v'', hv'', hle _ _ _ hle' hle''⟩

/-- The scan of a table lists each row once, under its key. -/
theorem mem_toList : (k, v) ∈ t.toList ↔ t[k]? = some v :=
  ExtTreeMap.mem_toList_iff_getElem?_eq_some

omit [LawfulEqOrd K] in
/-- The scan lists no key twice. -/
theorem nodup_keys_toList : (t.toList.map Prod.fst).Nodup := by
  rw [List.Nodup, List.pairwise_map]
  refine ExtTreeMap.distinct_keys_toList.imp fun hne heq => hne ?_
  rw [heq]
  exact Std.ReflCmp.compare_self

/-- The rows that a filter selects are a list, up to order, if the list has them all, once. -/
theorem perm_filter_toList {p : K × V → Bool} {l : List (K × V)} (hnd : l.Nodup)
    (h : ∀ e, e ∈ l ↔ t[e.1]? = some e.2 ∧ p e = true) : (t.toList.filter p).Perm l := by
  have htoList : (t.toList.filter p).Nodup := (List.Nodup.of_map _ nodup_keys_toList).filter _
  rw [List.perm_ext_iff_of_nodup htoList hnd]
  intro e
  rw [List.mem_filter, h, ← mem_toList]

end Table

/-- A list that is, up to order, the image of another is the image of that one in some order. -/
theorem exists_perm_map {α β : Type} {g : α → β} {l : List β} {m : List α}
    (h : l.Perm (m.map g)) : ∃ m' : List α, m'.Perm m ∧ l = m'.map g := by
  have hall : List.Forall₂ (fun b a => b = g a) (m.map g) m := by
    rw [List.forall₂_map_left_iff]
    exact List.forall₂_same.2 fun _ _ => rfl
  obtain ⟨m', hm', hperm⟩ := List.perm_comp_forall₂ h hall
  refine ⟨m', hperm, ?_⟩
  rw [← List.forall₂_eq_eq_eq, List.forall₂_map_right_iff]
  exact hm'

end Relational
