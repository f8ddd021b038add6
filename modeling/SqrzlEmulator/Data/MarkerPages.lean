import Mathlib.Data.List.Infix
import Mathlib.Data.List.Perm.Subperm
import Mathlib.Data.List.Sort
import Mathlib.Order.Defs.LinearOrder

/-!
# Pages of a list that shrinks

A client asks for the pages of a sorted list, each behind the name of the last entry it has got,
while entries are removed. The name is looked up in the list as it is then, and **a marker that is
not there counts as none** (`startOf`), so that a page can begin from the front again.

**Paging shows every entry that stays exactly once, and comes to an end, exactly if at every page
the last entry is still there, or nothing that sorts before it is** (`paging_iff`). What the client
has got is sorted then, and what it has not got comes behind (`Behind`); the step lemma `Behind.read`
says what one page adds. And a page that begins from the front when something of it was shown
already shows its first entry again (`Behind.read_twice`).
-/

namespace MarkerPages

variable {α ι κ : Type} [DecidableEq ι] [LinearOrder κ] (name : α → ι) (key : α → κ)

/-! ### Pages -/

/-- Where the page behind a marker begins. -/
def startOf (marker : Option ι) (l : List α) : ℕ :=
  (marker.bind fun m ↦ (l.findIdx? (name · = m)).map (· + 1)).getD 0

omit [LinearOrder κ] in
theorem startOf_eq (marker : Option ι) (l : List α) : startOf name marker l = match marker with
    | some m => ((l.findIdx? (name · == m)).map (· + 1)).getD 0
    | none => 0 := by
  cases marker with
  | none => rfl
  | some m =>
    unfold startOf
    simp only [beq_eq_decide]
    rfl

/-- The page behind a marker, of at most `limit` entries, and the marker of the next one. -/
def page (marker : Option ι) (limit : ℕ) (l : List α) : List α × Option ι :=
  if limit < (l.drop (startOf name marker l)).length then
    ((l.drop (startOf name marker l)).take limit,
      ((l.drop (startOf name marker l)).take limit).getLast?.map name)
  else (l.drop (startOf name marker l), none)

omit [LinearOrder κ] in
theorem page_subset {marker : Option ι} {limit : ℕ} {l : List α} {a : α}
    (h : a ∈ (page name marker limit l).1) : a ∈ l := by
  unfold page at h
  split_ifs at h
  · exact List.mem_of_mem_drop (List.mem_of_mem_take h)
  · exact List.mem_of_mem_drop h

/-- What a client has got so far. -/
structure Reader (α ι : Type) where
  returned : List α := []
  marker : Option ι := none
  finished : Bool := false

/-- The next page. -/
def Reader.read (r : Reader α ι) (page : List α × Option ι) : Reader α ι where
  returned := r.returned ++ page.1
  marker := page.2
  finished := page.2.isNone

/-- A client that asks for pages of a list that shrinks. The lists and the clients whenever a page
was asked for are kept. -/
inductive Run (l₀ : List α) : List (List α × Reader α ι) → List α → Reader α ι → Prop
  | start : Run l₀ [] l₀ {}
  | shrink {asked : List (List α × Reader α ι)} {l l' : List α} {r : Reader α ι}
      (h : Run l₀ asked l r) (hl : l' ⊆ l) (hsorted : l'.Pairwise (key · < key ·)) :
      Run l₀ asked l' r
  | read {asked : List (List α × Reader α ι)} {l : List α} {r : Reader α ι} {limit : ℕ}
      (h : Run l₀ asked l r) (hlimit : 1 ≤ limit) (hopen : r.finished = false) :
      Run l₀ (asked ++ [(l, r)]) l (r.read (page name r.marker limit l))

/-- **The last entry that was shown is still there, or nothing that sorts before it is.** -/
def Kept (l : List α) (r : Reader α ι) : Prop :=
  ∀ last ∈ r.returned.getLast?, last ∈ l ∨ ∀ a ∈ l, key last < key a

/-! ### What a page begins with -/

section Lists

variable {name key} {l l₀ : List α} {last : α} {marker : Option ι}

theorem startOf_eq_zero (h : ∀ m ∈ marker, ∀ a ∈ l, name a ≠ m) : startOf name marker l = 0 := by
  cases marker with
  | none => rfl
  | some m =>
    have hnone : l.findIdx? (name · = m) = none :=
      List.findIdx?_eq_none_iff.2 fun a ha ↦ decide_eq_false (h m rfl a ha)
    unfold startOf
    rw [Option.bind_some, hnone]
    rfl

theorem startOf_append_cons {a b : List α} (h : ∀ x ∈ a, name x ≠ name last) :
    startOf name (some (name last)) (a ++ last :: b) = a.length + 1 := by
  have hnone : a.findIdx? (name · = name last) = none :=
    List.findIdx?_eq_none_iff.2 fun x hx ↦ decide_eq_false (h x hx)
  unfold startOf
  rw [Option.bind_some, List.findIdx?_append, hnone, List.findIdx?_cons,
    if_pos (decide_eq_true rfl), Option.map_some, Option.none_or, Option.map_some, Nat.zero_add]
  rfl

theorem not_mem_left {a b : List α} (h : (a ++ last :: b).Pairwise (key · < key ·)) :
    (∀ x ∈ a, key x < key last) ∧ ∀ x ∈ b, key last < key x := by
  obtain ⟨-, hb, hab⟩ := List.pairwise_append.1 h
  exact ⟨fun x hx ↦ hab x hx last List.mem_cons_self, (List.pairwise_cons.1 hb).1⟩

end Lists

/-! ### What one page adds -/

section Steps

variable {name key} {l₀ l : List α} {r : Reader α ι} {asked : List (List α × Reader α ι)}

variable (name key) in
/-- **What was not shown comes behind what was.** -/
structure Behind (l₀ : List α) (asked : List (List α × Reader α ι)) (l : List α)
    (r : Reader α ι) : Prop where
  sub : l ⊆ l₀
  present : l.Pairwise (key · < key ·)
  sorted : r.returned.Pairwise (key · < key ·)
  mem : ∀ a ∈ r.returned, a ∈ l₀
  marker : r.finished = false → r.marker = r.returned.getLast?.map name
  behind : ∀ a ∈ l, a ∉ r.returned → ∀ b ∈ r.returned, key b < key a
  finished : r.finished = true → ∀ a ∈ l, a ∈ r.returned
  pages : asked.length ≤ r.returned.length + (if r.finished then 1 else 0)

/-- What is left, when the last entry is still there or everything is behind it. -/
theorem Behind.rest (h : Behind name key l₀ asked l r) (hopen : r.finished = false)
    (hname : ∀ a ∈ l₀, ∀ b ∈ l₀, name a = name b → a = b) (hkept : Kept key l r) :
    ∀ a, a ∈ l.drop (startOf name r.marker l) ↔ a ∈ l ∧ a ∉ r.returned := by
  have hl := h.present
  intro a
  rw [h.marker hopen]
  cases hlast : r.returned.getLast? with
  | none =>
    rw [List.getLast?_eq_none_iff.1 hlast, Option.map_none,
      startOf_eq_zero fun m hm ↦ absurd hm (Option.not_mem_none m)]
    exact ⟨fun ha ↦ ⟨ha, List.not_mem_nil⟩, fun ha ↦ ha.1⟩
  | some last =>
    have hmem : last ∈ r.returned := List.mem_of_getLast? hlast
    have hle : ∀ b ∈ r.returned, key b ≤ key last := by
      obtain ⟨before, hbefore⟩ := List.getLast?_eq_some_iff.1 hlast
      intro b hb
      rw [hbefore] at hb
      rcases List.mem_append.1 hb with hb | hb
      · exact ((List.pairwise_append.1 (hbefore ▸ h.sorted)).2.2 b hb last
          (List.mem_singleton_self _)).le
      · rw [List.mem_singleton.1 hb]
    rcases hkept last hlast with hin | hfront
    · obtain ⟨before, behind, rfl⟩ := List.append_of_mem hin
      obtain ⟨hbefore, hbehind⟩ := not_mem_left hl
      have hnames : ∀ x ∈ before, name x ≠ name last := by
        intro x hx heq
        have hxl := h.sub (List.mem_append_left _ hx)
        have hlast₀ := h.sub (List.mem_append_right _ List.mem_cons_self)
        have hlt := hbefore x hx
        rw [hname x hxl last hlast₀ heq] at hlt
        exact lt_irrefl _ hlt
      rw [Option.map_some, startOf_append_cons hnames]
      have hdrop : (before ++ last :: behind).drop (before.length + 1) = behind := by
        rw [List.drop_append, List.drop_of_length_le (by omega), Nat.add_sub_cancel_left]
        rfl
      rw [hdrop]
      constructor
      · intro ha
        refine ⟨List.mem_append_right _ (List.mem_cons_of_mem _ ha), fun hret ↦ ?_⟩
        exact absurd (hbehind a ha) (not_lt_of_ge (hle a hret))
      · rintro ⟨ha, hret⟩
        rcases List.mem_append.1 ha with ha | ha
        · have hlt := h.behind a (List.mem_append_left _ ha) hret last hmem
          exact absurd (hbefore a ha) (not_lt_of_gt hlt)
        · rcases List.mem_cons.1 ha with rfl | ha
          · exact absurd hmem hret
          · exact ha
    · have hnames : ∀ m ∈ some (name last), ∀ a ∈ l, name a ≠ m := by
        intro m hm a ha heq
        rw [← Option.some.inj hm] at heq
        have hlt := hfront a ha
        rw [hname a (h.sub ha) last (h.mem last hmem) heq] at hlt
        exact lt_irrefl _ hlt
      rw [Option.map_some, startOf_eq_zero hnames]
      exact ⟨fun ha ↦ ⟨ha, fun hret ↦ absurd (hfront a ha) (not_lt_of_ge (hle a hret))⟩,
        fun ha ↦ ha.1⟩

/-- **A page adds what comes next.** -/
theorem Behind.read (h : Behind name key l₀ asked l r) (hopen : r.finished = false)
    (hname : ∀ a ∈ l₀, ∀ b ∈ l₀, name a = name b → a = b) (hkept : Kept key l r) {limit : ℕ}
    (hlimit : 1 ≤ limit) :
    Behind name key l₀ (asked ++ [(l, r)]) l (r.read (page name r.marker limit l)) := by
  have hrest := h.rest hopen hname hkept
  have hl : (l.drop (startOf name r.marker l)).Pairwise (key · < key ·) :=
    h.present.sublist (List.drop_sublist _ _)
  have hpages := h.pages
  rw [hopen, if_neg Bool.false_ne_true] at hpages
  generalize hgen : l.drop (startOf name r.marker l) = rest at hrest hl
  have hnew : ∀ b ∈ rest, ∀ a ∈ r.returned, key a < key b := fun b hb ↦
    h.behind b ((hrest b).1 hb).1 ((hrest b).1 hb).2
  by_cases hmore : limit < rest.length
  · have hpage : page name r.marker limit l =
        (rest.take limit, (rest.take limit).getLast?.map name) := by
      rw [page, hgen, if_pos hmore]
    have hne : rest.take limit ≠ [] := by
      refine List.ne_nil_of_length_pos ?_
      rw [List.length_take]
      omega
    have hx := List.getLast?_eq_some_getLast hne
    rw [hpage]
    have hsplit := List.take_append_drop limit rest
    have hbetween := (List.pairwise_append.1 (hsplit.symm ▸ hl)).2.2
    refine ⟨h.sub, h.present, ?_, ?_, fun _ ↦ ?_, ?_, fun hfin ↦ ?_, ?_⟩
    · exact List.pairwise_append.2 ⟨h.sorted, hl.sublist (List.take_sublist _ _),
        fun a ha b hb ↦ hnew b (List.mem_of_mem_take hb) a ha⟩
    · intro a ha
      rcases List.mem_append.1 ha with ha | ha
      · exact h.mem a ha
      · exact h.sub ((hrest a).1 (List.mem_of_mem_take ha)).1
    · show (rest.take limit).getLast?.map name = (r.returned ++ rest.take limit).getLast?.map name
      rw [List.getLast?_append_of_ne_nil _ hne]
    · intro a ha hnot b hb
      have hnotret : a ∉ r.returned := fun ha ↦ hnot (List.mem_append_left _ ha)
      rcases List.mem_append.1 hb with hb | hb
      · exact h.behind a ha hnotret b hb
      · have hmem := (hrest a).2 ⟨ha, hnotret⟩
        rw [← hsplit] at hmem
        exact hbetween b hb a ((List.mem_append.1 hmem).resolve_left fun ha ↦
          hnot (List.mem_append_right _ ha))
    · change ((rest.take limit).getLast?.map name).isNone = true at hfin
      rw [hx] at hfin
      cases hfin
    · have hlen := List.length_pos_iff.2 hne
      show (asked ++ [(l, r)]).length ≤ (r.returned ++ rest.take limit).length + _
      rw [List.length_append, List.length_append, List.length_singleton]
      omega
  · have hpage : page name r.marker limit l = (rest, none) := by rw [page, hgen, if_neg hmore]
    rw [hpage]
    refine ⟨h.sub, h.present, ?_, ?_, fun hfin ↦ (by cases hfin), ?_, ?_, ?_⟩
    · exact List.pairwise_append.2 ⟨h.sorted, hl, fun a ha b hb ↦ hnew b hb a ha⟩
    · intro a ha
      rcases List.mem_append.1 ha with ha | ha
      · exact h.mem a ha
      · exact h.sub ((hrest a).1 ha).1
    · intro a ha hnot
      exact absurd (List.mem_append_right _ ((hrest a).2
        ⟨ha, fun ha ↦ hnot (List.mem_append_left _ ha)⟩)) hnot
    · intro _ a ha
      by_cases hret : a ∈ r.returned
      · exact List.mem_append_left _ hret
      · exact List.mem_append_right _ ((hrest a).2 ⟨ha, hret⟩)
    · show (asked ++ [(l, r)]).length ≤ (r.returned ++ rest).length + 1
      rw [List.length_append, List.length_append, List.length_singleton]
      omega

/-- **A page from the front shows an entry twice**, if something that was shown is still there. -/
theorem Behind.read_twice (h : Behind name key l₀ asked l r) (hopen : r.finished = false)
    (hname : ∀ a ∈ l₀, ∀ b ∈ l₀, name a = name b → a = b) (hkept : ¬ Kept key l r) {limit : ℕ}
    (hlimit : 1 ≤ limit) : ¬ (r.read (page name r.marker limit l)).returned.Nodup := by
  simp only [Kept, not_forall, not_or] at hkept
  obtain ⟨last, hlast, hgone, a, ha, hnot⟩ := hkept
  have hmem : last ∈ r.returned := List.mem_of_getLast? hlast
  have hnames : ∀ m ∈ some (name last), ∀ a ∈ l, name a ≠ m := by
    intro m hm b hb heq
    rw [← Option.some.inj hm] at heq
    exact hgone (hname b (h.sub hb) last (h.mem last hmem) heq ▸ hb)
  have hfront : startOf name r.marker l = 0 := by
    rw [h.marker hopen, show r.returned.getLast? = some last from hlast, Option.map_some,
      startOf_eq_zero hnames]
  obtain ⟨x, tail, rfl⟩ := List.exists_cons_of_ne_nil (List.ne_nil_of_mem ha)
  have hx : x ∈ r.returned := by
    by_contra hx
    have hlt := h.behind x List.mem_cons_self hx last hmem
    rcases List.mem_cons.1 ha with rfl | hatail
    · exact hnot hlt
    · have hxa := (List.pairwise_cons.1 h.present).1 a hatail
      exact hnot (hlt.trans hxa)
  have hpage : x ∈ (page name r.marker limit (x :: tail)).1 := by
    unfold page
    rw [hfront, List.drop_zero]
    split_ifs
    · obtain ⟨n, rfl⟩ := Nat.exists_eq_succ_of_ne_zero (show limit ≠ 0 by omega)
      exact List.mem_cons_self
    · exact List.mem_cons_self
  intro hnodup
  exact (List.nodup_append.1 hnodup).2.2 x hx x hpage rfl

/-! ### Runs -/

/-- A run whose pages all met the condition, or that has shown an entry twice. -/
theorem behind_or_twice (hsorted : l₀.Pairwise (key · < key ·))
    (hname : ∀ a ∈ l₀, ∀ b ∈ l₀, name a = name b → a = b) (h : Run name key l₀ asked l r) :
    ((∀ s ∈ asked, Kept key s.1 s.2) ∧ Behind name key l₀ asked l r) ∨
      (¬ ∀ s ∈ asked, Kept key s.1 s.2) ∧ ¬ r.returned.Nodup := by
  induction h with
  | start =>
    exact .inl ⟨fun s hs ↦ absurd hs List.not_mem_nil, List.Subset.refl _, hsorted, .nil,
      fun a ha ↦ absurd ha List.not_mem_nil, fun _ ↦ rfl,
      fun a _ _ b hb ↦ absurd hb List.not_mem_nil, fun h ↦ (by cases h), le_refl 0⟩
  | shrink _ hl hpresent ih =>
    refine ih.imp_left fun ⟨hkept, h⟩ ↦ ⟨hkept, fun a ha ↦ h.sub (hl ha), hpresent, h.sorted, h.mem,
      h.marker, fun a ha ↦ h.behind a (hl ha), fun hfin a ha ↦ h.finished hfin a (hl ha), h.pages⟩
  | read _ hlimit hopen ih =>
    rcases ih with ⟨hall, h⟩ | ⟨hall, htwice⟩
    · rename_i asked l r limit _
      by_cases hkept : Kept key l r
      · refine .inl ⟨fun s hs ↦ ?_, h.read hopen hname hkept hlimit⟩
        rcases List.mem_append.1 hs with hs | hs
        · exact hall s hs
        · rw [List.mem_singleton.1 hs]
          exact hkept
      · refine .inr ⟨fun hall ↦ hkept ?_, h.read_twice hopen hname hkept hlimit⟩
        exact hall (l, r) (List.mem_append_right _ (List.mem_singleton_self _))
    · exact .inr ⟨fun h ↦ hall fun s hs ↦ h s (List.mem_append_left _ hs),
        fun hnodup ↦ htwice (List.nodup_append.1 hnodup).1⟩

/-- **When paging survives removals.** -/
theorem paging_iff (hsorted : l₀.Pairwise (key · < key ·))
    (hname : ∀ a ∈ l₀, ∀ b ∈ l₀, name a = name b → a = b) (h : Run name key l₀ asked l r) :
    (r.returned.Nodup ∧ (r.finished = true → ∀ a ∈ l, a ∈ r.returned) ∧
        asked.length ≤ l₀.length + 1) ↔ ∀ s ∈ asked, Kept key s.1 s.2 := by
  rcases behind_or_twice hsorted hname h with ⟨hall, hbehind⟩ | ⟨hall, htwice⟩
  · have hnodup : r.returned.Nodup := by
      refine hbehind.sorted.imp ?_
      rintro a b hlt rfl
      exact lt_irrefl _ hlt
    have hlen : r.returned.length ≤ l₀.length :=
      (List.subperm_of_subset hnodup hbehind.mem).length_le
    have hpages := hbehind.pages
    refine iff_of_true ⟨hnodup, hbehind.finished, ?_⟩ hall
    split_ifs at hpages <;> omega
  · exact iff_of_false (fun h ↦ htwice h.1) hall

end Steps

/-! ### Sorting -/

omit [DecidableEq ι] in
/-- Entries with different names are strictly sorted. -/
theorem pairwise_insertionSort {rel : α → α → Prop} [DecidableRel rel]
    (hrel : ∀ a b, rel a b ↔ key a ≤ key b) (hkey : ∀ a b, key a = key b → name a = name b)
    {l : List α} (h : (l.map name).Nodup) : (l.insertionSort rel).Pairwise (key · < key ·) := by
  have : Std.Total rel := ⟨fun a b ↦ by
    rw [hrel, hrel]
    exact le_total _ _⟩
  have : IsTrans α rel := ⟨fun a b c hab hbc ↦ by
    rw [hrel] at hab hbc ⊢
    exact hab.trans hbc⟩
  have hnodup : ((l.insertionSort rel).map name).Nodup :=
    ((l.perm_insertionSort rel).map name).nodup_iff.2 h
  refine ((List.pairwise_insertionSort rel l).and (List.pairwise_map.1 hnodup)).imp ?_
  rintro a b ⟨hle, hne⟩
  exact lt_of_le_of_ne ((hrel a b).1 hle) fun heq ↦ hne (hkey a b heq)

/-! ### Clients of a system -/

section Clients

variable {σ : Type} (moves : σ → σ → Prop) (shows : σ → Option ι → ℕ → List α × Option ι → Prop)

/-- A client of a system that moves while pages are asked for. The states and the clients whenever a
page was asked for are kept. -/
inductive Client (s₀ : σ) : List (σ × Reader α ι) → σ → Reader α ι → Prop
  | start : Client s₀ [] s₀ {}
  | moved {asked : List (σ × Reader α ι)} {s t : σ} {r : Reader α ι} (h : Client s₀ asked s r)
      (hm : moves s t) : Client s₀ asked t r
  | asked {asked : List (σ × Reader α ι)} {s : σ} {r : Reader α ι} {limit : ℕ}
      {p : List α × Option ι} (h : Client s₀ asked s r) (hlimit : 1 ≤ limit)
      (hopen : r.finished = false) (hp : shows s r.marker limit p) :
      Client s₀ (asked ++ [(s, r)]) s (r.read p)

variable {moves shows} {name key} {I : σ → Prop} {found : σ → List α} {s₀ s : σ}
  {asked : List (σ × Reader α ι)} {r : Reader α ι}

/-- A client gets nothing but what was found at first, if moves only remove entries. -/
theorem Client.returned_subset (hI : I s₀)
    (hmoves : ∀ s t, I s → moves s t → I t ∧ found t ⊆ found s)
    (hshows : ∀ s marker limit p, I s → shows s marker limit p →
      p = page name marker limit (found s))
    (h : Client moves shows s₀ asked s r) : r.returned ⊆ found s₀ := by
  have hboth : (I s ∧ found s ⊆ found s₀) ∧ r.returned ⊆ found s₀ := by
    induction h with
    | start => exact ⟨⟨hI, List.Subset.refl _⟩, List.nil_subset _⟩
    | moved _ hm ih =>
      obtain ⟨ht, hsub⟩ := hmoves _ _ ih.1.1 hm
      exact ⟨⟨ht, List.Subset.trans hsub ih.1.2⟩, ih.2⟩
    | asked _ _ _ hp ih =>
      refine ⟨ih.1, List.append_subset.2 ⟨ih.2, fun a ha ↦ ih.1.2 ?_⟩⟩
      rw [hshows _ _ _ _ ih.1.1 hp] at ha
      exact page_subset name ha
  exact hboth.2

/-- **When paging through a system survives its moves**, if they only remove entries. -/
theorem client_iff (hI : I s₀) (hmoves : ∀ s t, I s → moves s t → I t ∧ found t ⊆ found s)
    (hsorted : ∀ s, I s → (found s).Pairwise (key · < key ·))
    (hshows : ∀ s marker limit p, I s → shows s marker limit p →
      p = page name marker limit (found s))
    (hname : ∀ a ∈ found s₀, ∀ b ∈ found s₀, name a = name b → a = b)
    (h : Client moves shows s₀ asked s r) :
    (r.returned.Nodup ∧ (r.finished = true → ∀ a ∈ found s, a ∈ r.returned) ∧
        asked.length ≤ (found s₀).length + 1) ↔
      ∀ x ∈ asked, Kept key (found x.1) x.2 := by
  have hrun : I s ∧
      Run name key (found s₀) (asked.map fun x ↦ (found x.1, x.2)) (found s) r := by
    induction h with
    | start => exact ⟨hI, .start⟩
    | moved _ hm ih =>
      obtain ⟨ht, hsub⟩ := hmoves _ _ ih.1 hm
      exact ⟨ht, ih.2.shrink hsub (hsorted _ ht)⟩
    | asked _ hlimit hopen hp ih =>
      refine ⟨ih.1, ?_⟩
      rw [List.map_append, hshows _ _ _ _ ih.1 hp]
      exact ih.2.read hlimit hopen
  have hiff := paging_iff (hsorted s₀ hI) hname hrun.2
  rw [List.length_map, List.forall_mem_map] at hiff
  exact hiff

end Clients

end MarkerPages
