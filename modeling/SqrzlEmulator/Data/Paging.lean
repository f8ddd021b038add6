import Mathlib.Algebra.Order.Ring.Nat
import Mathlib.Data.List.Basic
import Mathlib.Data.List.TakeWhile
import Mathlib.Data.Nat.Find

/-!
# Walking through a list page by page

A client asks for pages of a list, each from a marker on that the page before has named, until a
page names none (`Walk`). What is left behind a marker is `cut`.

**If the marker of an entry leaves what comes after the entry, a walk shows every entry once**
(`walk_of_cut`): the pages come to an end, and put together they are what was left in the beginning.
The induction is on the number of entries that are left.

`walk_iff_of_cut` is about walks that may stop: at a marker that is not read again, or before all
entries have been shown.
-/

namespace Paging

variable {M R E α : Type} {query : M → Except E R} {next : R → Option M} {m : M}

/-- The pages from a marker on, until one has no next marker. -/
inductive Walk (query : M → Except E R) (next : R → Option M) : M → List R → Prop
  | last {m : M} {r : R} (hr : query m = .ok r) (hnext : next r = none) : Walk query next m [r]
  | more {m m' : M} {r : R} {pages : List R} (hr : query m = .ok r) (hnext : next r = some m')
      (hpages : Walk query next m' pages) : Walk query next m (r :: pages)

/-- **A walk is determined by its beginning.** -/
theorem Walk.unique {pages pages' : List R} (h : Walk query next m pages)
    (h' : Walk query next m pages') : pages = pages' := by
  induction h generalizing pages' with
  | last hr hnext =>
    cases h' with
    | last hr' hnext' => rw [Except.ok.inj (hr.symm.trans hr')]
    | more hr' hnext' _ =>
      rw [Except.ok.inj (hr'.symm.trans hr), hnext] at hnext'
      cases hnext'
  | more hr hnext _ ih =>
    cases h' with
    | last hr' hnext' =>
      rw [Except.ok.inj (hr'.symm.trans hr), hnext] at hnext'
      cases hnext'
    | more hr' hnext' hpages' =>
      rw [Except.ok.inj (hr'.symm.trans hr), hnext] at hnext'
      obtain rfl := Option.some.inj hnext'
      rw [Except.ok.inj (hr.symm.trans hr'), ih hpages']

/-- A walk comes to its end at a marker that is refused. -/
theorem Walk.exists_ok {pages : List R} (h : Walk query next m pages) : ∃ r, query m = .ok r := by
  cases h with
  | last hr _ => exact ⟨_, hr⟩
  | more hr _ _ => exact ⟨_, hr⟩

/-- A page that names a marker is followed by the walk from there. -/
theorem Walk.tail {pages : List R} {r : R} {m' : M} (h : Walk query next m pages)
    (hr : query m = .ok r) (hnext : next r = some m') :
    ∃ pages', pages = r :: pages' ∧ Walk query next m' pages' := by
  cases h with
  | last hr' hnext' =>
    obtain rfl := Except.ok.inj (hr.symm.trans hr')
    rw [hnext] at hnext'
    cases hnext'
  | more hr' hnext' hpages =>
    obtain rfl := Except.ok.inj (hr.symm.trans hr')
    rw [hnext] at hnext'
    obtain rfl := Option.some.inj hnext'
    exact ⟨_, rfl, hpages⟩

/-- The last entry of a page, in the whole list. -/
theorem exists_last_of_take {l rest : List α} {n : ℕ} (hn : 1 ≤ n) (hlength : 1 ≤ rest.length)
    (hl : rest <:+ l) : ∃ a x, (rest.take n).getLast? = some x ∧ l = a ++ x :: rest.drop n := by
  have htake : rest.take n ≠ [] := by
    refine List.ne_nil_of_length_pos ?_
    rw [List.length_take]
    omega
  obtain ⟨a, x, hax⟩ : ∃ a x, rest.take n = a ++ [x] :=
    ⟨_, _, (List.dropLast_append_getLast htake).symm⟩
  obtain ⟨before, rfl⟩ := hl
  refine ⟨before ++ a, x, ?_, ?_⟩
  · rw [hax]
    simp
  · calc before ++ rest = before ++ (rest.take n ++ rest.drop n) := by rw [List.take_append_drop]
      _ = (before ++ a) ++ x :: rest.drop n := by
        rw [hax, List.append_assoc, List.append_assoc]
        rfl

/-- The page of what is left: at most `n` entries, and a marker if there are more. -/
structure IsPage (shows : R → List α → Prop) (next : R → Option M) (mark : α → M) (n : ℕ)
    (rest : List α) (r : R) : Prop where
  shows : shows r (rest.take n)
  next_eq : next r = if n < rest.length then (rest.take n).getLast?.map mark else none

/-- **A walk shows every entry once.** -/
theorem walk_of_cut {shows : R → List α → Prop} {mark : α → M} {cut : M → List α} {good : M → Prop}
    {l : List α} {n : ℕ} (hn : 1 ≤ n) (hcut : ∀ a x b, l = a ++ x :: b → cut (mark x) = b)
    (hgood : ∀ x ∈ l, good (mark x))
    (hquery : ∀ m, good m → ∃ r, query m = .ok r ∧ IsPage shows next mark n (cut m) r)
    (hm : good m) (hl : cut m <:+ l) :
    ∃ pages chunks, Walk query next m pages ∧ chunks.flatten = cut m ∧
      List.Forall₂ shows pages chunks := by
  -- the induction is on the number of entries that are left
  induction hk : (cut m).length using Nat.strong_induction_on generalizing m with
  | _ k ih =>
    obtain ⟨r, hr, hshows, hnext⟩ := hquery m hm
    by_cases hmore : n < (cut m).length
    · obtain ⟨a, x, hlast, hsplit⟩ := exists_last_of_take hn (by omega) hl
      have hrest : cut (mark x) = (cut m).drop n := hcut _ _ _ hsplit
      have hx : x ∈ l := hsplit ▸ by simp
      have hsuffix : cut (mark x) <:+ l := by
        rw [hrest, hsplit]
        exact (List.suffix_cons _ _).trans (List.suffix_append _ _)
      have hshorter : (cut (mark x)).length < k := by
        rw [hrest, List.length_drop]
        omega
      obtain ⟨pages, chunks, hwalk, hflatten, hall⟩ := ih _ hshorter (hgood x hx) hsuffix rfl
      refine ⟨r :: pages, (cut m).take n :: chunks, .more hr ?_ hwalk, ?_, .cons hshows hall⟩
      · rw [hnext, if_pos hmore, hlast]
        rfl
      · rw [List.flatten_cons, hflatten, hrest, List.take_append_drop]
    · refine ⟨[r], [(cut m).take n], .last hr ?_, ?_, .cons hshows .nil⟩
      · rw [hnext, if_neg hmore]
      · rw [List.flatten_singleton, List.take_of_length_le (not_lt.1 hmore)]

/-! ### Pages that name the next entry -/

/-- The page of what is left, when it names the entry that comes after it. -/
structure IsPageTo (shows : R → List α → Prop) (next : R → Option M) (mark : α → M) (n : ℕ)
    (rest : List α) (r : R) : Prop where
  shows : shows r (rest.take n)
  next_eq : next r = (rest.drop n).head?.map mark

/-- **A walk that goes on with the entry it has not shown shows every entry once.** Nothing is
said about the marker of the first entry of all, which is never named. -/
theorem walk_of_next {shows : R → List α → Prop} {mark : α → M} {cut : M → List α} {l : List α}
    {n : ℕ} (hn : 1 ≤ n) (hcut : ∀ a x b, l = a ++ x :: b → a ≠ [] → cut (mark x) = x :: b)
    (hquery : ∀ m, ∃ r, query m = .ok r ∧ IsPageTo shows next mark n (cut m) r)
    (hl : cut m <:+ l) :
    ∃ pages chunks, Walk query next m pages ∧ chunks.flatten = cut m ∧
      List.Forall₂ shows pages chunks := by
  -- the induction is on the number of entries that are left
  induction hk : (cut m).length using Nat.strong_induction_on generalizing m with
  | _ k ih =>
    obtain ⟨r, hr, hshows, hnext⟩ := hquery m
    cases hrest : (cut m).drop n with
    | nil =>
      refine ⟨[r], [(cut m).take n], .last hr ?_, ?_, .cons hshows .nil⟩
      · rw [hnext, hrest]
        rfl
      · rw [List.flatten_singleton, List.take_of_length_le (List.drop_eq_nil_iff.1 hrest)]
    | cons x b =>
      have hlength : n + (b.length + 1) = (cut m).length := by
        have h := congrArg List.length hrest
        rw [List.length_drop, List.length_cons] at h
        omega
      have hparts : (cut m).take n ++ x :: b = cut m := by rw [← hrest, List.take_append_drop]
      have htake : (cut m).take n ≠ [] := by
        refine List.ne_nil_of_length_pos ?_
        rw [List.length_take]
        omega
      obtain ⟨before, hbefore⟩ := hl
      have hsplit : l = (before ++ (cut m).take n) ++ x :: b := by
        rw [List.append_assoc, hparts, hbefore]
      have hx : cut (mark x) = x :: b := hcut _ _ _ hsplit fun h ↦
        htake (List.append_eq_nil_iff.1 h).2
      have hshorter : (cut (mark x)).length < k := by
        rw [hx, List.length_cons]
        omega
      have hsuffix : cut (mark x) <:+ l := by
        rw [hx, hsplit]
        exact List.suffix_append _ _
      obtain ⟨pages, chunks, hwalk, hflatten, hall⟩ := ih _ hshorter hsuffix rfl
      refine ⟨r :: pages, (cut m).take n :: chunks, .more hr ?_ hwalk, ?_, .cons hshows hall⟩
      · rw [hnext, hrest]
        rfl
      · rw [List.flatten_cons, hflatten, hx, hparts]

/-! ### Walks that may stop early -/

/-- A page of what is left, when it depends on what is left whether there is another one: as long as
`goes` holds, the page has `n` entries and names a marker, and otherwise it is the last one and
shows `final`. -/
structure IsCut (shows : R → List α → Prop) (next : R → Option M) (mark : α → M) (n : ℕ)
    (goes : List α → Prop) (final : List α → List α) (rest : List α) (r : R) : Prop where
  more : goes rest → shows r (rest.take n) ∧ next r = (rest.take n).getLast?.map mark
  last : ¬ goes rest → shows r (final rest) ∧ next r = none

/-- **When a walk comes to its end, and what it shows.** The walk has `k` pages before its last one.
It exists exactly if the markers that these pages name are good, and then it shows their entries and
what the last page makes of the rest. -/
theorem walk_iff_of_cut {shows : R → List α → Prop} {mark : α → M} {cut : M → List α}
    {good : M → Prop} {goes : List α → Prop} {final : List α → List α} {l : List α} {n : ℕ}
    (hn : 1 ≤ n) (hgoes : ∀ rest, goes rest → n < rest.length)
    (hcut : ∀ a x b, l = a ++ x :: b → good (mark x) → cut (mark x) = b)
    (hquery : ∀ m, good m → ∃ r, query m = .ok r ∧ IsCut shows next mark n goes final (cut m) r)
    (hbad : ∀ m r, query m = .ok r → good m) (hm : good m) (hl : cut m <:+ l) {k : ℕ}
    (hmore : ∀ j < k, goes ((cut m).drop (j * n))) (hlast : ¬ goes ((cut m).drop (k * n))) :
    ((∃ pages, Walk query next m pages) ↔
      ∀ j < k, ∀ x ∈ (((cut m).drop (j * n)).take n).getLast?, good (mark x)) ∧
    ∀ pages, Walk query next m pages → ∃ chunks, List.Forall₂ shows pages chunks ∧
      chunks.flatten = (cut m).take (k * n) ++ final ((cut m).drop (k * n)) := by
  obtain ⟨r, hr, hpage⟩ := hquery m hm
  induction k generalizing m r with
  | zero =>
    rw [Nat.zero_mul, List.drop_zero] at hlast
    obtain ⟨hshows, hnext⟩ := hpage.last hlast
    have hwalk : Walk query next m [r] := .last hr hnext
    refine ⟨⟨fun _ j hj ↦ absurd hj (Nat.not_lt_zero j), fun _ ↦ ⟨_, hwalk⟩⟩, fun pages h ↦ ?_⟩
    obtain rfl := h.unique hwalk
    refine ⟨[final (cut m)], .cons hshows .nil, ?_⟩
    rw [Nat.zero_mul, List.take_zero, List.drop_zero, List.flatten_singleton, List.nil_append]
  | succ k ih =>
    have hgo : goes (cut m) := by
      have h := hmore 0 (Nat.succ_pos k)
      rwa [Nat.zero_mul, List.drop_zero] at h
    obtain ⟨hshows, hnext⟩ := hpage.more hgo
    have hlength := hgoes _ hgo
    obtain ⟨a, x, hgetLast, hsplit⟩ := exists_last_of_take hn (by omega) hl
    rw [hgetLast, Option.map_some] at hnext
    have hdrop : ∀ j, ((cut m).drop n).drop (j * n) = (cut m).drop ((j + 1) * n) := by
      intro j
      rw [List.drop_drop, Nat.succ_mul, Nat.add_comm]
    -- what follows the first page, if its marker is read again
    have hrest (hx : good (mark x)) : ((∃ pages, Walk query next (mark x) pages) ↔
          ∀ j < k, ∀ y ∈ ((((cut m).drop n).drop (j * n)).take n).getLast?, good (mark y)) ∧
        ∀ pages, Walk query next (mark x) pages → ∃ chunks, List.Forall₂ shows pages chunks ∧
          chunks.flatten = ((cut m).drop n).take (k * n) ++
            final (((cut m).drop n).drop (k * n)) := by
      have hcutx : cut (mark x) = (cut m).drop n := hcut _ _ _ hsplit hx
      obtain ⟨r', hr', hpage'⟩ := hquery (mark x) hx
      have hsuffix : cut (mark x) <:+ l := by
        rw [hcutx, hsplit]
        exact (List.suffix_cons _ _).trans (List.suffix_append _ _)
      have hnow := ih hx hsuffix (fun j hj ↦ ?_) ?_ r' hr' hpage'
      · rw [hcutx] at hnow
        exact hnow
      · rw [hcutx, hdrop]
        exact hmore (j + 1) (Nat.succ_lt_succ hj)
      · rw [hcutx, hdrop]
        exact hlast
    refine ⟨⟨fun hex ↦ ?_, fun h ↦ ?_⟩, fun pages h ↦ ?_⟩
    · obtain ⟨pages, h⟩ := hex
      obtain ⟨pages', -, hwalk⟩ := h.tail hr hnext
      obtain ⟨r', hr'⟩ := hwalk.exists_ok
      have hx := hbad _ _ hr'
      have hgood := (hrest hx).1.1 ⟨pages', hwalk⟩
      intro j hj y hy
      cases j with
      | zero =>
        rw [Nat.zero_mul, List.drop_zero, hgetLast] at hy
        obtain rfl := Option.some.inj hy
        exact hx
      | succ j =>
        rw [← hdrop] at hy
        exact hgood j (Nat.lt_of_succ_lt_succ hj) y hy
    · have hx : good (mark x) := by
        refine h 0 (Nat.succ_pos k) x ?_
        rw [Nat.zero_mul, List.drop_zero]
        exact hgetLast
      obtain ⟨pages', hwalk⟩ := (hrest hx).1.2 fun j hj y hy ↦ by
        rw [hdrop] at hy
        exact h (j + 1) (Nat.succ_lt_succ hj) y hy
      exact ⟨r :: pages', .more hr hnext hwalk⟩
    · obtain ⟨pages', rfl, hwalk⟩ := h.tail hr hnext
      obtain ⟨r', hr'⟩ := hwalk.exists_ok
      obtain ⟨chunks, hshows', hflatten⟩ := (hrest (hbad _ _ hr')).2 pages' hwalk
      refine ⟨(cut m).take n :: chunks, .cons hshows hshows', ?_⟩
      rw [List.flatten_cons, hflatten, hdrop, ← List.append_assoc]
      congr 1
      rw [Nat.succ_mul, Nat.add_comm, List.take_add]

/-- There is a last page. -/
theorem exists_last {goes : List α → Prop} {n : ℕ} (hgoes : ∀ rest, goes rest → n < rest.length)
    (hn : 1 ≤ n) (l : List α) :
    ∃ k, (∀ j < k, goes (l.drop (j * n))) ∧ ¬ goes (l.drop (k * n)) := by
  classical
  have hex : ∃ k, ¬ goes (l.drop (k * n)) := by
    refine ⟨l.length, fun h ↦ ?_⟩
    have hlt := hgoes _ h
    rw [List.length_drop] at hlt
    have hle : l.length ≤ l.length * n := Nat.le_mul_of_pos_right _ hn
    omega
  exact ⟨Nat.find hex, fun j hj ↦ not_not.1 (Nat.find_min hex hj), Nat.find_spec hex⟩

end Paging
