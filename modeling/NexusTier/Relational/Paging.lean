import NexusTier.Relational.Table

/-!
# Reading a list page by page

**Keyset paging.**  A page is the first `limit` rows after a cursor, the key of the last row of the
page before.  One row more is fetched, to see whether there is a next page.  `readAll` follows the
cursors, and `readAll_eq` says that over a list in strictly ascending key order it returns every
row once, in order.

**A list that is shown from the start.**  A reader that holds the first `n` rows and asks for the
page after the last of them then holds `n + limit` (`page_of_leads`); with a page from elsewhere it
does not hold a start of the list any more (`eq_of_append_prefix`).

**A list that changes meanwhile.**  `readPages` reads each page from the list as it is by then.  The
pages ascend and hold no row twice (`Paged.ascending`), and what is in the list all the time is in
them (`Paged.complete`); where the keys cannot go up forever, the last page comes
(`exists_paged`).

**Assembling a tree.**  A program that reads parents and children with one query each puts the
children into their parents by position.  `modify_map` says that where keys are different, changing
the row at one position is changing the row with one key.

Rows and cursors are of any type, and so is what fetches a page.
-/

set_option autoImplicit false

namespace Relational

section Keyset

variable {α β K ε : Type} [LinearOrder K]

/-- The rows after the cursor. -/
def after (key : α → K) (cursor : Option K) (rows : List α) : List α :=
  rows.filter fun a => cursor.all fun k => decide (k < key a)

/-- The page after the cursor, and the cursor of the next one. -/
def page (key : α → K) (limit : Nat) (cursor : Option K) (rows : List α) : List α × Option K :=
  let fetched := (after key cursor rows).take (limit + 1)
  if limit < fetched.length then (fetched.take limit, fetched[limit - 1]?.map key)
  else (fetched, none)

/-- Follow the cursors, for at most so many pages: `none` if there are more. -/
def readAll (fetch : Option K → Except ε (List β × Option K)) :
    Nat → Option K → Except ε (Option (List β))
  | 0, _ => .ok none
  | fuel + 1, cursor => do
    let (rows, next) ← fetch cursor
    match next with
    | none => return some rows
    | some k =>
      let rest ← readAll fetch fuel (some k)
      return rest.map (rows ++ ·)

variable {key : α → K} {rows : List α} {limit : Nat} {cursor : Option K}

@[simp] theorem after_none : after key none rows = rows := by simp [after]

/-- A last page holds all that is left. -/
theorem page_of_length_le (h : (after key cursor rows).length ≤ limit) :
    page key limit cursor rows = (after key cursor rows, none) := by
  have htake : (after key cursor rows).take (limit + 1) = after key cursor rows :=
    List.take_of_length_le (Nat.le_succ_of_le h)
  rw [page, htake, if_neg (by omega)]

theorem page_sublist : (page key limit cursor rows).1.Sublist rows := by
  have hafter : ((after key cursor rows).take (limit + 1)).Sublist rows :=
    (List.take_sublist _ _).trans List.filter_sublist
  rw [page]
  split
  · exact (List.take_sublist _ _).trans hafter
  · exact hafter

/-- What comes after a later cursor comes after an earlier one. -/
theorem after_after {k : K} (h : cursor.all (fun c => decide (c < k)) = true) :
    after key (some k) (after key cursor rows) = after key (some k) rows := by
  rw [after, after, List.filter_filter]
  refine List.filter_congr fun a _ => ?_
  cases cursor with
  | none => simp
  | some c =>
    have hc : c < k := by simpa using h
    by_cases ha : k < key a
    · simp [ha, hc.trans ha]
    · simp [ha]

/-- After the key at position `n` come the rows after position `n`. -/
theorem after_getElem (hrows : rows.Pairwise fun a b => key a < key b) {n : Nat} {a : α}
    (ha : rows[n]? = some a) : after key (some (key a)) rows = rows.drop (n + 1) := by
  induction rows generalizing n with
  | nil => simp at ha
  | cons b rows ih =>
    rw [List.pairwise_cons] at hrows
    cases n with
    | zero =>
      obtain rfl : b = a := by simpa using ha
      have hall : rows.filter (fun c => decide (key b < key c)) = rows :=
        List.filter_eq_self.2 fun c hc => by simpa using hrows.1 c hc
      simp [after, hall]
    | succ n =>
      have ha' : rows[n]? = some a := by simpa using ha
      have hlt : key b < key a := hrows.1 a (List.mem_of_getElem? ha')
      have hskip : after key (some (key a)) (b :: rows) = after key (some (key a)) rows := by
        simp [after, hlt.le]
      rw [hskip, ih hrows.2 ha', List.drop_succ_cons]

/-- A page that is not the last is full, and its last key leads to the rest. -/
theorem page_of_length_gt (hpos : 0 < limit) (h : limit < (after key cursor rows).length)
    (hrows : rows.Pairwise fun a b => key a < key b) :
    ∃ k, page key limit cursor rows = ((after key cursor rows).take limit, some k) ∧
      after key (some k) rows = (after key cursor rows).drop limit := by
  obtain ⟨a, ha⟩ : ∃ a, (after key cursor rows)[limit - 1]? = some a :=
    ⟨_, List.getElem?_eq_getElem (by omega)⟩
  have hlen : limit < ((after key cursor rows).take (limit + 1)).length := by
    rw [List.length_take]
    omega
  refine ⟨key a, ?_, ?_⟩
  · rw [page, if_pos hlen, List.take_take, Nat.min_eq_left (Nat.le_succ limit),
      List.getElem?_take, if_pos (by omega), ha, Option.map_some]
  · have hk := (List.mem_filter.1 (List.mem_of_getElem? ha)).2
    have hsorted : (after key cursor rows).Pairwise fun a b => key a < key b :=
      hrows.sublist List.filter_sublist
    rw [← after_after hk, after_getElem hsorted ha]
    congr 1
    omega

/-- **Following the cursors returns every row once, in order.** -/
theorem readAll_eq {f : α → β} {fetch : Option K → Except ε (List β × Option K)}
    (hfetch : ∀ cursor, fetch cursor =
      .ok ((page key limit cursor rows).1.map f, (page key limit cursor rows).2))
    (hpos : 0 < limit) (hrows : rows.Pairwise fun a b => key a < key b) {fuel : Nat}
    (hfuel : (after key cursor rows).length < fuel) :
    readAll fetch fuel cursor = .ok (some ((after key cursor rows).map f)) := by
  induction fuel generalizing cursor with
  | zero => omega
  | succ fuel ih =>
    rcases Nat.lt_or_ge limit (after key cursor rows).length with hgt | hle
    · obtain ⟨k, hpage, hrest⟩ := page_of_length_gt hpos hgt hrows
      have hih := @ih (some k) (by rw [hrest, List.length_drop]; omega)
      simp only [readAll, hfetch, hpage, hih, hrest, bind, Except.bind, pure, Except.pure,
        Option.map_some]
      rw [← List.map_append, List.take_append_drop]
    · simp only [readAll, hfetch, page_of_length_le hle, bind, Except.bind, pure, Except.pure]

/-! ### A list that is shown from the start -/

/-- The cursor after the first `n` rows, if there are more. -/
def cursorAfter (key : α → K) (rows : List α) (n : Nat) : Option K :=
  if n < rows.length then (rows.take n).getLast?.map key else none

/-- The cursor leads to position `n`: to the first row, without a cursor, or to a later one. -/
structure Leads (key : α → K) (rows : List α) (cursor : Option K) (n : Nat) : Prop where
  cursor_eq : cursor = cursorAfter key rows n
  lt : n = 0 ∨ n < rows.length

omit [LinearOrder K] in
@[simp] theorem cursorAfter_zero : cursorAfter key rows 0 = none := by simp [cursorAfter]

omit [LinearOrder K] in
theorem leads_none : Leads key rows none 0 := ⟨cursorAfter_zero.symm, .inl rfl⟩

omit [LinearOrder K] in
/-- What is left leads to the rest. -/
theorem exists_leads (key : α → K) (rows : List α) (n : Nat) :
    ∃ m, Leads key rows (cursorAfter key rows n) m := by
  by_cases hlt : n < rows.length
  · exact ⟨n, rfl, .inr hlt⟩
  · exact ⟨0, by rw [cursorAfter, if_neg hlt, cursorAfter_zero], .inl rfl⟩

omit [LinearOrder K] in
theorem Leads.eq_none_iff {n : Nat} (h : Leads key rows cursor n) : cursor = none ↔ n = 0 := by
  rw [h.cursor_eq]
  constructor
  · intro hnone
    rcases h.lt with hzero | hlt
    · exact hzero
    · rw [cursorAfter, if_pos hlt, Option.map_eq_none_iff, List.getLast?_eq_none_iff,
        List.take_eq_nil_iff] at hnone
      rcases hnone with hzero | rfl
      · exact hzero
      · simp at hlt
  · rintro rfl
    exact cursorAfter_zero

theorem Leads.after_eq (hrows : rows.Pairwise fun a b => key a < key b) {n : Nat}
    (h : Leads key rows cursor n) : after key cursor rows = rows.drop n := by
  by_cases hpos : n = 0
  · rw [h.eq_none_iff.2 hpos, after_none, hpos, List.drop_zero]
  · have hlt : n < rows.length := h.lt.resolve_left hpos
    have hat : rows[n - 1]? = some rows[n - 1] := List.getElem?_eq_getElem (by omega)
    rw [h.cursor_eq, cursorAfter, if_pos hlt, List.getLast?_eq_getElem?, List.length_take,
      Nat.min_eq_left hlt.le, List.getElem?_take, if_pos (by omega), hat, Option.map_some,
      after_getElem hrows hat]
    congr 1
    omega

/-- A cursor leads to one position. -/
theorem Leads.unique (hrows : rows.Pairwise fun a b => key a < key b) {n m : Nat}
    (h : Leads key rows cursor n) (hm : cursor = cursorAfter key rows m) (hc : cursor ≠ none) :
    n = m := by
  have hn : n < rows.length := h.lt.resolve_left (mt h.eq_none_iff.2 hc)
  have hlt : m < rows.length := by
    by_contra hge
    exact hc (hm.trans (if_neg hge))
  have hdrop : rows.drop n = rows.drop m := by
    rw [← h.after_eq hrows, (Leads.mk hm (.inr hlt)).after_eq hrows]
  have hlen := congrArg List.length hdrop
  rw [List.length_drop, List.length_drop] at hlen
  omega

/-- The page to which a cursor leads, and the cursor after it. -/
theorem page_of_leads (hrows : rows.Pairwise fun a b => key a < key b) (hpos : 0 < limit) {n : Nat}
    (h : Leads key rows cursor n) :
    page key limit cursor rows = ((rows.drop n).take limit, cursorAfter key rows (n + limit)) := by
  rw [page, h.after_eq hrows, cursorAfter]
  by_cases hlt : n + limit < rows.length
  · have hlen : limit < ((rows.drop n).take (limit + 1)).length := by
      rw [List.length_take, List.length_drop]
      omega
    rw [if_pos hlen, if_pos hlt, List.take_take, Nat.min_eq_left (Nat.le_succ limit),
      List.getLast?_eq_getElem?, List.length_take, Nat.min_eq_left hlt.le, List.getElem?_take,
      List.getElem?_take, if_pos (by omega), if_pos (by omega), List.getElem?_drop]
    congr 3
    omega
  · have hlen : ¬ limit < ((rows.drop n).take (limit + 1)).length := by
      rw [List.length_take, List.length_drop]
      omega
    have hall : (rows.drop n).length ≤ limit := by
      rw [List.length_drop]
      omega
    rw [if_neg hlen, if_neg hlt, List.take_of_length_le (Nat.le_succ_of_le hall),
      List.take_of_length_le hall]

/-- Rows that follow the first `m` and come from position `n` on show a longer start of the list
only if they come from position `m` on. -/
theorem eq_of_append_prefix {l : List α} (hnd : l.Nodup) {m n : Nat} (hm : m ≤ l.length)
    (hn : n < l.length) (hpos : 0 < limit)
    (h : l.take m ++ (l.drop n).take limit <+: l) : m = n := by
  have hlen := h.length_le
  rw [List.length_append, List.length_take, List.length_take, List.length_drop] at hlen
  have hlt : m < l.length := by omega
  have hget : (l.take m ++ (l.drop n).take limit)[m]? = l[n]? := by
    rw [List.getElem?_append_right (by simp), List.length_take, Nat.min_eq_left hm, Nat.sub_self,
      List.getElem?_take, if_pos hpos, List.getElem?_drop, Nat.add_zero]
  obtain ⟨rest, hrest⟩ := h
  have hsame : l[m]? = l[n]? := by
    rw [← hget]
    conv_lhs => rw [← hrest]
    rw [List.getElem?_append_left]
    rw [List.length_append, List.length_take, List.length_take, List.length_drop]
    omega
  rw [List.getElem?_eq_getElem hlt, List.getElem?_eq_getElem hn] at hsame
  exact (List.Nodup.getElem_inj_iff hnd).1 (Option.some.inj hsame)

/-- A page of other rows, with the same keys. -/
theorem page_map {f : α → β} {key' : β → K} (hkey : ∀ a, key' (f a) = key a) :
    page key' limit cursor (rows.map f) =
      ((page key limit cursor rows).1.map f, (page key limit cursor rows).2) := by
  have hafter : after key' cursor (rows.map f) = (after key cursor rows).map f := by
    rw [after, List.filter_map, after]
    congr 2
    funext a
    simp [hkey]
  rw [page, page, hafter, ← List.map_take, List.length_map]
  split
  · rw [← List.map_take, List.getElem?_map, Option.map_map]
    refine Prod.ext rfl (congrArg (Option.map · _) ?_)
    funext a
    exact hkey a
  · rfl

/-! ### Pages of a list that changes -/

/-- Follow the cursors, where the `n`-th page is fetched by `fetch n`: the pages, or `none` if there
are more than so many. -/
def readPages (fetch : Nat → Option K → Except ε (List β × Option K)) :
    Nat → Nat → Option K → Except ε (Option (List (List β)))
  | 0, _, _ => .ok none
  | fuel + 1, n, cursor => do
    let (rows, next) ← fetch n cursor
    match next with
    | none => return some [rows]
    | some k =>
      let rest ← readPages fetch fuel (n + 1) (some k)
      return rest.map (rows :: ·)

/-- Pages, the first of them after the cursor and from `rows n`, each from the list as it is by
then. -/
inductive Paged (key : α → K) (limit : Nat) (rows : Nat → List α) :
    Nat → Option K → List (List α) → Prop
  | last {n : Nat} {cursor : Option K} {p : List α}
      (h : page key limit cursor (rows n) = (p, none)) : Paged key limit rows n cursor [p]
  | next {n : Nat} {cursor : Option K} {p : List α} {k : K} {rest : List (List α)}
      (h : page key limit cursor (rows n) = (p, some k))
      (hrest : Paged key limit rows (n + 1) (some k) rest) :
      Paged key limit rows n cursor (p :: rest)

theorem length_page_le : (page key limit cursor rows).1.length ≤ limit := by
  rw [page]
  split
  · exact List.length_take_le _ _
  · rename_i h
    exact Nat.not_lt.1 h

/-- The next cursor is the key of a row after the cursor. -/
theorem cursor_lt_next {k : K} (hk : (page key limit cursor rows).2 = some k) :
    ∀ c ∈ cursor, c < k := by
  intro c hc
  rw [page] at hk
  split at hk
  · obtain ⟨a, ha, rfl⟩ := Option.map_eq_some_iff.1 hk
    have hafter := List.mem_filter.1 (List.mem_of_mem_take (List.mem_of_getElem? ha))
    simpa [Option.mem_def.1 hc] using hafter.2
  · cases hk

/-- What is on a page comes after its cursor, and not after the next one. -/
theorem mem_page (hpos : 0 < limit) (hrows : rows.Pairwise fun a b => key a < key b) {a : α}
    (ha : a ∈ (page key limit cursor rows).1) :
    (∀ c ∈ cursor, c < key a) ∧ ∀ k ∈ (page key limit cursor rows).2, key a ≤ k := by
  rcases Nat.lt_or_ge limit (after key cursor rows).length with hgt | hle
  · obtain ⟨k, hpage, hrest⟩ := page_of_length_gt hpos hgt hrows
    rw [hpage] at ha ⊢
    have hafter := List.mem_filter.1 (List.mem_of_mem_take ha)
    refine ⟨fun c hc => by simpa [Option.mem_def.1 hc] using hafter.2, fun k' hk' => ?_⟩
    obtain rfl : k = k' := by simpa using hk'
    by_contra hlt
    -- a row after the next cursor stands beyond the page
    have hdrop : a ∈ (after key cursor rows).drop limit := by
      rw [← hrest]
      exact List.mem_filter.2 ⟨hafter.1, by simpa using hlt⟩
    have hsorted : (after key cursor rows).Pairwise fun a b => key a < key b :=
      hrows.sublist List.filter_sublist
    rw [← List.take_append_drop limit (after key cursor rows)] at hsorted
    exact lt_irrefl _ ((List.pairwise_append.1 hsorted).2.2 a ha a hdrop)
  · rw [page_of_length_le hle] at ha ⊢
    have hafter := List.mem_filter.1 ha
    exact ⟨fun c hc => by simpa [Option.mem_def.1 hc] using hafter.2, by simp⟩

/-- What comes after the cursor is on the page, or after the next cursor. -/
theorem mem_page_or (hpos : 0 < limit) (hrows : rows.Pairwise fun a b => key a < key b) {a : α}
    (ha : a ∈ rows) (hcursor : ∀ c ∈ cursor, c < key a) :
    a ∈ (page key limit cursor rows).1 ∨ ∃ k ∈ (page key limit cursor rows).2, k < key a := by
  have hafter : a ∈ after key cursor rows := by
    refine List.mem_filter.2 ⟨ha, ?_⟩
    cases cursor with
    | none => rfl
    | some c => simpa using hcursor c rfl
  rcases Nat.lt_or_ge limit (after key cursor rows).length with hgt | hle
  · obtain ⟨k, hpage, hrest⟩ := page_of_length_gt hpos hgt hrows
    rw [hpage]
    rw [← List.take_append_drop limit (after key cursor rows)] at hafter
    rcases List.mem_append.1 hafter with htake | hdrop
    · exact .inl htake
    · rw [← hrest] at hdrop
      exact .inr ⟨k, rfl, by simpa using (List.mem_filter.1 hdrop).2⟩
  · rw [page_of_length_le hle]
    exact .inl hafter

namespace Paged

variable {rows : Nat → List α} {n : Nat} {pages : List (List α)}

theorem length_le (h : Paged key limit rows n cursor pages) : ∀ p ∈ pages, p.length ≤ limit := by
  induction h with
  | @last n cursor p h =>
    have hp : (page key limit cursor (rows n)).1 = p := congrArg Prod.fst h
    simpa [← hp] using length_page_le
  | @next n cursor p k rest h _ ih =>
    have hp : (page key limit cursor (rows n)).1 = p := congrArg Prod.fst h
    exact List.forall_mem_cons.2 ⟨hp ▸ length_page_le, ih⟩

/-- Everything on the pages comes after the cursor. -/
theorem after_cursor (h : Paged key limit rows n cursor pages) (hpos : 0 < limit)
    (hrows : ∀ n, (rows n).Pairwise fun a b => key a < key b) :
    ∀ a ∈ pages.flatten, ∀ c ∈ cursor, c < key a := by
  induction h with
  | @last n cursor p h =>
    intro a ha c hc
    have ha' : a ∈ (page key limit cursor (rows n)).1 := by simpa [h] using ha
    exact (mem_page hpos (hrows n) ha').1 c hc
  | @next n cursor p k rest h _ ih =>
    intro a ha c hc
    rcases List.mem_append.1 (by simpa using ha : a ∈ p ++ rest.flatten) with hp | hrest
    · have ha' : a ∈ (page key limit cursor (rows n)).1 := by simpa [h] using hp
      exact (mem_page hpos (hrows n) ha').1 c hc
    · exact (cursor_lt_next (congrArg Prod.snd h) c hc).trans (ih a hrest k rfl)

/-- **The pages ascend.** -/
theorem ascending (h : Paged key limit rows n cursor pages) (hpos : 0 < limit)
    (hrows : ∀ n, (rows n).Pairwise fun a b => key a < key b) :
    pages.flatten.Pairwise fun a b => key a < key b := by
  induction h with
  | @last n cursor p h =>
    have hp : (page key limit cursor (rows n)).1 = p := congrArg Prod.fst h
    simpa [← hp] using (hrows n).sublist page_sublist
  | @next n cursor p k rest h hrest ih =>
    have hp : (page key limit cursor (rows n)).1 = p := congrArg Prod.fst h
    have hk : k ∈ (page key limit cursor (rows n)).2 := by simp [h]
    rw [List.flatten_cons, List.pairwise_append]
    refine ⟨hp ▸ (hrows n).sublist page_sublist, ih, fun a ha b hb => ?_⟩
    rw [← hp] at ha
    exact lt_of_le_of_lt ((mem_page hpos (hrows n) ha).2 k hk)
      (hrest.after_cursor hpos hrows b hb k rfl)

/-- **What is in the list all the time is on a page.** -/
theorem complete (h : Paged key limit rows n cursor pages) (hpos : 0 < limit)
    (hrows : ∀ n, (rows n).Pairwise fun a b => key a < key b) {k : K} (hcursor : ∀ c ∈ cursor, c < k)
    (hall : ∀ i < pages.length, ∃ a ∈ rows (n + i), key a = k) :
    ∃ a ∈ pages.flatten, key a = k := by
  induction h with
  | @last n cursor p h =>
    obtain ⟨a, ha, rfl⟩ := hall 0 (by simp)
    have hmem := mem_page_or hpos (hrows n) ha hcursor
    rw [h] at hmem
    obtain hp | ⟨k, hk, -⟩ := hmem
    · exact ⟨a, by simpa using hp, rfl⟩
    · simp at hk
  | @next n cursor p k' rest h hrest ih =>
    obtain ⟨a, ha, rfl⟩ := hall 0 (by simp)
    have hmem := mem_page_or hpos (hrows n) ha hcursor
    rw [h] at hmem
    obtain hp | ⟨c, hc, hlt⟩ := hmem
    · exact ⟨a, by simp [show a ∈ p from hp], rfl⟩
    · obtain rfl : k' = c := by simpa using hc
      obtain ⟨b, hb, heq⟩ := ih (by simpa using hlt) fun i hi => by
        simpa [Nat.add_assoc, Nat.add_comm 1 i] using hall (i + 1) (by simpa using hi)
      exact ⟨b, by simp [List.mem_flatten.1 hb], heq⟩

/-- The pages of a list that stays as it is are the list. -/
theorem flatten_eq (h : Paged key limit rows n cursor pages) (hpos : 0 < limit) {rs : List α}
    (hrows : rs.Pairwise fun a b => key a < key b) (hconst : ∀ n, rows n = rs) :
    pages.flatten = after key cursor rs := by
  induction h with
  | @last n cursor p h =>
    rw [hconst] at h
    rcases Nat.lt_or_ge limit (after key cursor rs).length with hgt | hle
    · obtain ⟨k, hpage, -⟩ := page_of_length_gt hpos hgt hrows
      simp [hpage] at h
    · rw [page_of_length_le hle] at h
      simpa using (congrArg Prod.fst h).symm
  | @next n cursor p k rest h hrest ih =>
    rw [hconst] at h
    rcases Nat.lt_or_ge limit (after key cursor rs).length with hgt | hle
    · obtain ⟨k', hpage, hdrop⟩ := page_of_length_gt hpos hgt hrows
      obtain ⟨rfl, rfl⟩ : (after key cursor rs).take limit = p ∧ k' = k := by
        simpa [hpage] using h
      rw [List.flatten_cons, ih, hdrop, List.take_append_drop]
    · simp [page_of_length_le hle] at h

/-- Enough fuel reads the pages. -/
theorem readPages_eq {f : Nat → α → β} {fetch : Nat → Option K → Except ε (List β × Option K)}
    (hfetch : ∀ n cursor, fetch n cursor =
      .ok ((page key limit cursor (rows n)).1.map (f n), (page key limit cursor (rows n)).2))
    (h : Paged key limit rows n cursor pages) {fuel : Nat} (hfuel : pages.length ≤ fuel) :
    readPages fetch fuel n cursor =
      .ok (some (pages.mapIdx fun i p => p.map (f (n + i)))) := by
  induction h generalizing fuel with
  | last h =>
    obtain ⟨fuel, rfl⟩ := Nat.exists_eq_add_of_le' hfuel
    simp [readPages, hfetch, h, bind, Except.bind, pure, Except.pure]
  | @next n cursor p k rest h _ ih =>
    obtain ⟨fuel, rfl⟩ := Nat.exists_eq_add_of_le' (Nat.one_le_of_lt hfuel)
    have hrest := @ih fuel (by simpa using hfuel)
    simp [readPages, hfetch, h, hrest, bind, Except.bind, pure, Except.pure, List.mapIdx_cons,
      Nat.add_assoc, Nat.add_comm 1]

end Paged

/-- Where the keys cannot go up forever, the last page comes. -/
theorem exists_paged [WellFoundedGT K] (key : α → K) (limit : Nat) (rows : Nat → List α) (n : Nat)
    (cursor : Option K) : ∃ pages, Paged key limit rows n cursor pages := by
  have hsome : ∀ k n, ∃ pages, Paged key limit rows n (some k) pages := by
    intro k
    induction k using WellFoundedGT.induction with
    | ind k ih =>
      intro n
      rcases hp : page key limit (some k) (rows n) with ⟨p, _ | k'⟩
      · exact ⟨[p], .last hp⟩
      · obtain ⟨rest, hrest⟩ := ih k' (cursor_lt_next (congrArg Prod.snd hp) k rfl) (n + 1)
        exact ⟨p :: rest, .next hp hrest⟩
  rcases hp : page key limit cursor (rows n) with ⟨p, _ | k⟩
  · exact ⟨[p], .last hp⟩
  · obtain ⟨rest, hrest⟩ := hsome k (n + 1)
    exact ⟨p :: rest, .next hp hrest⟩

end Keyset

section Assembly

variable {α β K : Type} [DecidableEq K]

/-- Where keys are different, changing the row at a position is changing the row with its key. -/
theorem modify_map {key : α → K} {l : List α} (hnd : (l.map key).Nodup) {n : Nat} {a : α}
    (ha : l[n]? = some a) (g : α → β) (f : β → β) :
    (l.map g).modify n f = l.map fun x => if key x = key a then f (g x) else g x := by
  induction l generalizing n with
  | nil => simp at ha
  | cons b l ih =>
    rw [List.map_cons, List.nodup_cons] at hnd
    cases n with
    | zero =>
      obtain rfl : b = a := by simpa using ha
      have hrest : (l.map fun x => if key x = key b then f (g x) else g x) = l.map g := by
        refine List.map_congr_left fun x hx => if_neg fun hk => hnd.1 ?_
        exact hk ▸ List.mem_map_of_mem hx
      simp [hrest]
    | succ n =>
      have ha' : l[n]? = some a := by simpa using ha
      have hne : key b ≠ key a := fun hk =>
        hnd.1 (hk ▸ List.mem_map_of_mem (List.mem_of_getElem? ha'))
      simp [hne, ih hnd.2 ha']

end Assembly

end Relational
