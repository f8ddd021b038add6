import SqrzlEmulator.Auth.SigV4

/-!
# Hosts up to whitespace

A signature covers the value of a header only up to its whitespace: every run of it counts as one
space. The router takes a bucket from the host by looking for texts without any whitespace, so
**what it finds depends on the host only up to whitespace as well** (`bucketFromHost_squeeze`).

`squeeze` makes one space of every run. On a value without whitespace around it this is what the
canonical request holds (`normalizeHeaderValue_eq`).
-/

namespace Sqrzl.Auth

open Percent S3

variable {s t p : Text} {c : Char}

/-! ### Squeezing -/

/-- Put a character in front of a squeezed text. -/
def push (c : Char) (t : Text) : Text :=
  if c.isWhitespace then (if t.head? = some ' ' then t else ' ' :: t) else c :: t

/-- One space for every run of whitespace. -/
def squeeze (t : Text) : Text := t.foldr push []

@[simp] theorem squeeze_nil : squeeze [] = [] := rfl

@[simp] theorem squeeze_cons : squeeze (c :: t) = push c (squeeze t) := rfl

/-- There is no whitespace in the text. -/
def Plain (t : Text) : Prop := ∀ c ∈ t, c.isWhitespace = false

theorem push_of_plain (hc : c.isWhitespace = false) : push c t = c :: t := by
  rw [push, hc]
  rfl

theorem head?_push_of_space (hc : c.isWhitespace = true) : (push c t).head? = some ' ' := by
  rw [push, if_pos hc]
  split
  · next h => exact h
  · rfl

theorem head?_squeeze_iff : (squeeze t).head? = some ' ' ↔ t.head?.any Char.isWhitespace = true := by
  cases t with
  | nil => simp
  | cons c t =>
    rw [squeeze_cons, List.head?_cons, Option.any_some]
    by_cases hc : c.isWhitespace = true
    · simp [head?_push_of_space hc, hc]
    · rw [Bool.not_eq_true] at hc
      rw [push_of_plain hc, List.head?_cons, hc]
      refine ⟨fun h ↦ ?_, nofun⟩
      cases Option.some.inj h
      cases hc

theorem squeeze_eq_self (h : Plain t) : squeeze t = t := by
  induction t with
  | nil => rfl
  | cons c t ih =>
    rw [squeeze_cons, push_of_plain (h c (by simp)), ih fun x hx ↦ h x (by simp [hx])]

/-- Squeezing the parts of a text, when the second does not begin with whitespace. -/
theorem squeeze_append (h : t.head?.any Char.isWhitespace = false) :
    squeeze (s ++ t) = squeeze s ++ squeeze t := by
  have ht : (squeeze t).head? ≠ some ' ' := by
    rw [ne_eq, head?_squeeze_iff, h]
    exact Bool.false_ne_true
  induction s with
  | nil => rfl
  | cons c s ih =>
    rw [List.cons_append, squeeze_cons, ih, squeeze_cons]
    unfold push
    split
    · cases hs : squeeze s with
      | nil => rw [List.nil_append, if_neg ht]; rfl
      | cons d u =>
        rw [List.cons_append, List.head?_cons, List.head?_cons]
        split <;> rfl
    · rfl

/-- A text without whitespace is not squeezed from another. -/
theorem eq_of_squeeze_eq (hp : Plain p) (h : squeeze t = p) : t = p := by
  induction t generalizing p with
  | nil => exact h
  | cons c t ih =>
    rw [squeeze_cons] at h
    by_cases hc : c.isWhitespace = true
    · have hhead := @head?_push_of_space (squeeze t) c hc
      rw [h] at hhead
      have hspace := hp ' ' (List.mem_of_mem_head? hhead)
      cases hspace
    · rw [Bool.not_eq_true] at hc
      rw [push_of_plain hc] at h
      subst h
      rw [← ih (fun x hx ↦ hp x (by simp [hx])) rfl]

/-! ### Words -/

theorem splitWhitespace_cons_space (hc : c.isWhitespace = true) :
    splitWhitespace (c :: t) = splitWhitespace t := by
  rw [splitWhitespace, List.splitOnP_cons_eq_if_modifyHead, if_pos hc, List.filter_cons_of_neg (by simp)]
  rfl

/-- A character in front of a text joins the first word, unless whitespace separates them. -/
theorem splitWhitespace_cons_plain (hc : c.isWhitespace = false) :
    (t.head?.all Char.isWhitespace = true ∧ splitWhitespace (c :: t) = [c] :: splitWhitespace t) ∨
    t.head?.any Char.isWhitespace = false ∧ ∃ word words, splitWhitespace t = word :: words ∧
      splitWhitespace (c :: t) = (c :: word) :: words := by
  have hsplit : splitWhitespace (c :: t) =
      ((t.splitOnP Char.isWhitespace).modifyHead (c :: ·)).filter fun word ↦ !word.isEmpty := by
    rw [splitWhitespace, List.splitOnP_cons_eq_if_modifyHead, if_neg (by rw [hc]; exact nofun)]
  cases t with
  | nil => exact .inl ⟨rfl, by rw [hsplit]; rfl⟩
  | cons d u =>
    rw [List.splitOnP_cons_eq_if_modifyHead] at hsplit
    by_cases hd : d.isWhitespace = true
    · refine .inl ⟨by simpa using hd, ?_⟩
      rw [hsplit, if_pos hd, splitWhitespace_cons_space hd]
      rfl
    · refine .inr ⟨by simpa using hd, ?_⟩
      rw [if_neg hd] at hsplit
      rw [hsplit, splitWhitespace, List.splitOnP_cons_eq_if_modifyHead, if_neg hd]
      obtain ⟨word, words, hwords⟩ :=
        List.exists_cons_of_ne_nil (List.splitOnP_ne_nil Char.isWhitespace u)
      rw [hwords]
      exact ⟨d :: word, words.filter fun word ↦ !word.isEmpty, rfl, rfl⟩

/-- **A text that does not end with whitespace is squeezed into its words.** -/
theorem squeeze_words (h : t.getLast?.all (!·.isWhitespace) = true) :
    (t ≠ [] → splitWhitespace t ≠ []) ∧
    squeeze t = (if t.head?.any Char.isWhitespace then [' '] else []) ++ join ' ' (splitWhitespace t) := by
  induction t with
  | nil => exact ⟨fun h ↦ absurd rfl h, rfl⟩
  | cons c t ih =>
    have hlast : t.getLast?.all (!·.isWhitespace) = true := by
      cases t with
      | nil => rfl
      | cons d u => rwa [List.getLast?_cons_cons] at h
    obtain ⟨hne, ih⟩ := ih hlast
    rw [squeeze_cons, List.head?_cons, Option.any_some]
    by_cases hc : c.isWhitespace = true
    · have ht : t ≠ [] := by
        rintro rfl
        rw [List.getLast?_singleton, Option.all_some, hc] at h
        cases h
      rw [splitWhitespace_cons_space hc, push, if_pos hc, if_pos hc]
      refine ⟨fun _ ↦ hne ht, ?_⟩
      by_cases hhead : t.head?.any Char.isWhitespace = true
      · rw [if_pos (head?_squeeze_iff.2 hhead), ih, if_pos hhead]
      · rw [if_neg (mt head?_squeeze_iff.1 hhead), ih, if_neg hhead]
        rfl
    · rw [Bool.not_eq_true] at hc
      rw [push_of_plain hc, hc, ih]
      rcases splitWhitespace_cons_plain (t := t) hc with
        ⟨hspace, hwords⟩ | ⟨hplain, word, words, ht, hwords⟩
      · rw [hwords]
        refine ⟨fun _ ↦ List.cons_ne_nil _ _, ?_⟩
        cases t with
        | nil => rfl
        | cons d u =>
          rw [List.head?_cons, Option.all_some] at hspace
          rw [List.head?_cons, Option.any_some, if_pos hspace, join, join,
            List.intercalate_cons_of_ne_nil (hne (List.cons_ne_nil d u))]
          rfl
      · rw [hwords, ht, hplain]
        refine ⟨fun _ ↦ List.cons_ne_nil _ _, ?_⟩
        cases words with
        | nil => rfl
        | cons w words =>
          rw [join, join, List.intercalate_cons_cons, List.intercalate_cons_cons]
          rfl

/-- A delivered value is written into the canonical request squeezed. -/
theorem normalizeHeaderValue_eq (h : Trimmed t) : normalizeHeaderValue t = squeeze t := by
  have hhead : t.head?.any Char.isWhitespace = false := by
    have hfirst := h.1
    cases t with
    | nil => rfl
    | cons c t => simpa using hfirst
  rw [(squeeze_words h.2).2, hhead]
  rfl

/-! ### Looking for a text without whitespace -/

/-- Something to look for. -/
structure Pattern (p : Text) : Prop where
  plain : Plain p
  nonempty : p ≠ []

theorem Pattern.head? (hp : Pattern p) : (p ++ t).head?.any Char.isWhitespace = false := by
  obtain ⟨c, u, rfl⟩ := List.exists_cons_of_ne_nil hp.nonempty
  exact hp.plain c (by simp)

theorem isPrefix_squeeze (hp : Plain p) : p <+: squeeze t ↔ p <+: t := by
  induction p generalizing t with
  | nil => simp
  | cons c p ih =>
    have hc := hp c (by simp)
    have hne : c ≠ ' ' := by
      rintro rfl
      cases hc
    cases t with
    | nil => simp
    | cons d t =>
      by_cases hd : d.isWhitespace = true
      · have hcd : c ≠ d := by
          rintro rfl
          rw [hc] at hd
          cases hd
        obtain ⟨u, hu⟩ : ∃ u, squeeze (d :: t) = ' ' :: u := by
          have hhead := @head?_push_of_space (squeeze t) d hd
          rw [← squeeze_cons] at hhead
          exact List.head?_eq_some_iff.1 hhead
        rw [hu, List.cons_prefix_cons, List.cons_prefix_cons]
        exact ⟨fun h ↦ absurd h.1 hne, fun h ↦ absurd h.1 hcd⟩
      · rw [Bool.not_eq_true] at hd
        rw [squeeze_cons, push_of_plain hd, List.cons_prefix_cons, List.cons_prefix_cons,
          ih fun x hx ↦ hp x (by simp [hx])]

theorem isSuffix_squeeze (hp : Pattern p) : p <:+ squeeze t ↔ p <:+ t := by
  constructor
  · intro h
    induction t with
    | nil => exact h
    | cons c t ih =>
      by_cases hwhole : p = squeeze (c :: t)
      · rw [eq_of_squeeze_eq hp.plain hwhole.symm]
      · -- the pattern is in the rest
        have hrest : p <:+ squeeze t := by
          rw [squeeze_cons] at h hwhole
          unfold push at h hwhole
          split at h
          · next hc =>
            rw [if_pos hc] at hwhole
            split at h
            · exact h
            · next hhead =>
              rw [if_neg hhead] at hwhole
              exact (List.suffix_cons_iff.1 h).resolve_left hwhole
          · next hc =>
            rw [if_neg hc] at hwhole
            exact (List.suffix_cons_iff.1 h).resolve_left hwhole
        exact (ih hrest).trans (List.suffix_cons c t)
  · rintro ⟨s, rfl⟩
    rw [squeeze_append (by simpa using @Pattern.head? [] p hp), squeeze_eq_self hp.plain]
    exact List.suffix_append _ _

theorem squeeze_plain_append (hp : Plain p) : squeeze (p ++ t) = p ++ squeeze t := by
  induction p with
  | nil => rfl
  | cons c p ih =>
    rw [List.cons_append, squeeze_cons, ih fun x hx ↦ hp x (by simp [hx]),
      push_of_plain (hp c (by simp))]
    rfl

theorem eq_of_findText {found : Text × Text} (h : findText p t = some found) :
    t = found.1 ++ (p ++ found.2) := by
  induction t generalizing found with
  | nil =>
    rw [findText] at h
    split at h
    · next hp =>
      rw [List.isEmpty_iff] at hp
      cases h
      rw [hp]
      rfl
    · cases h
  | cons c t ih =>
    rw [findText] at h
    split at h
    · next hp =>
      cases h
      obtain ⟨u, hu⟩ := List.isPrefixOf_iff_prefix.1 hp
      rw [← hu, List.drop_left]
      rfl
    · obtain ⟨rest, hrest, rfl⟩ := Option.map_eq_some_iff.1 h
      rw [List.cons_append, ← ih hrest]

/-- What is found in a squeezed text. -/
theorem findText_squeeze (hp : Pattern p) : findText p (squeeze t) =
    (findText p t).map fun found ↦ (squeeze found.1, squeeze found.2) := by
  induction t with
  | nil =>
    rw [squeeze_nil, findText, if_neg (by simpa using hp.nonempty)]
    rfl
  | cons c t ih =>
    by_cases hc : c.isWhitespace = true
    · have hno : ∀ {d : Char} {u : Text}, d.isWhitespace = true → ¬ p.isPrefixOf (d :: u) := by
        intro d u hd hstart
        obtain ⟨v, hv⟩ := List.isPrefixOf_iff_prefix.1 hstart
        have hhead := @Pattern.head? v p hp
        rw [hv, List.head?_cons, Option.any_some, hd] at hhead
        cases hhead
      rw [findText, if_neg (hno hc), Option.map_map, squeeze_cons, push, if_pos hc]
      -- the text in front of the pattern begins as the whole text does
      have hhead : ∀ found ∈ findText p t,
          (squeeze found.1).head? = some ' ' ↔ (squeeze t).head? = some ' ' := by
        intro found hfound
        rw [head?_squeeze_iff, head?_squeeze_iff, eq_of_findText hfound]
        cases found.1 with
        | nil =>
          rw [List.nil_append, hp.head?]
          rfl
        | cons d u => rfl
      split
      · next hspace =>
        rw [ih]
        refine Option.map_congr fun found hfound ↦ ?_
        rw [Function.comp_apply, squeeze_cons, push, if_pos hc,
          if_pos ((hhead found hfound).2 hspace)]
      · next hspace =>
        rw [findText, if_neg (hno (by decide)), ih, Option.map_map]
        refine Option.map_congr fun found hfound ↦ ?_
        rw [Function.comp_apply, Function.comp_apply, squeeze_cons, push, if_pos hc,
          if_neg fun h ↦ hspace ((hhead found hfound).1 h)]
    · rw [Bool.not_eq_true] at hc
      have hstart := @isPrefix_squeeze (c :: t) p hp.plain
      rw [squeeze_cons, push_of_plain hc] at hstart
      rw [squeeze_cons, push_of_plain hc, findText, findText]
      by_cases hmatch : p <+: c :: t
      · rw [if_pos (List.isPrefixOf_iff_prefix.2 hmatch),
          if_pos (List.isPrefixOf_iff_prefix.2 (hstart.2 hmatch))]
        obtain ⟨u, hu⟩ := hmatch
        have hsqueezed : c :: squeeze t = p ++ squeeze u := by
          rw [← squeeze_plain_append hp.plain, hu, squeeze_cons, push_of_plain hc]
        rw [hsqueezed, ← hu, List.drop_left, List.drop_left]
        rfl
      · rw [if_neg (mt List.isPrefixOf_iff_prefix.1 hmatch),
          if_neg (mt List.isPrefixOf_iff_prefix.1 (mt hstart.1 hmatch)), ih, Option.map_map,
          Option.map_map]
        refine Option.map_congr fun found _ ↦ ?_
        rw [Function.comp_apply, Function.comp_apply, squeeze_cons, push_of_plain hc]

/-! ### Buckets -/

theorem takeWhile_squeeze {q : Char → Bool} (hq : ∀ c, c.isWhitespace = true → q c = true) :
    (squeeze t).takeWhile q = squeeze (t.takeWhile q) := by
  have hspace : q ' ' = true := hq ' ' (by decide)
  have hhead : ∀ u : Text, (u.takeWhile q).head? = some ' ' ↔ u.head? = some ' ' := by
    intro u
    cases u with
    | nil => rfl
    | cons d u =>
      rw [List.takeWhile_cons, List.head?_cons]
      split
      · rfl
      · next hd =>
        refine ⟨nofun, fun h ↦ ?_⟩
        cases Option.some.inj h
        exact absurd hspace hd
  induction t with
  | nil => rfl
  | cons c t ih =>
    rw [squeeze_cons, List.takeWhile_cons]
    by_cases hc : c.isWhitespace = true
    · rw [if_pos (hq c hc), squeeze_cons, push, push, if_pos hc, if_pos hc, ← ih]
      by_cases h : (squeeze t).head? = some ' '
      · rw [if_pos h, if_pos ((hhead _).2 h)]
      · rw [if_neg h, if_neg (mt (hhead _).1 h), List.takeWhile_cons, if_pos hspace]
    · rw [Bool.not_eq_true] at hc
      rw [push_of_plain hc, List.takeWhile_cons, ih]
      split
      · rw [squeeze_cons, push_of_plain hc]
      · rfl

theorem isWhitespace_of_letter (h : 65 ≤ c.val.toNat) : c.isWhitespace = false := by
  rw [Bool.eq_false_iff]
  intro hc
  simp only [Char.isWhitespace, Bool.or_eq_true, decide_eq_true_eq] at hc
  rcases hc with ((rfl | rfl) | rfl) | rfl <;> revert h <;> decide

/-- A letter, or its lower case, is no whitespace, and any other character is its own lower case. -/
theorem toLower_cases (c : Char) : c.toLower = c ∨
    c.isWhitespace = false ∧ c.toLower.isWhitespace = false := by
  by_cases h : c.val ≥ 'A'.val ∧ c.val ≤ 'Z'.val
  · have hlow : 65 ≤ c.val.toNat := UInt32.le_iff_toNat_le.1 h.1
    have hhigh : c.val.toNat ≤ 90 := UInt32.le_iff_toNat_le.1 h.2
    have hval : c.toLower.val = c.val + ('a'.val - 'A'.val) := by
      delta Char.toLower
      rw [dif_pos h]
    refine .inr ⟨isWhitespace_of_letter hlow, isWhitespace_of_letter ?_⟩
    rw [hval, UInt32.toNat_add]
    have hshift : ('a'.val - 'A'.val).toNat = 32 := rfl
    omega
  · left
    delta Char.toLower
    rw [dif_neg h]

theorem toLower_isWhitespace (c : Char) : c.toLower.isWhitespace = c.isWhitespace := by
  rcases toLower_cases c with h | ⟨h, h'⟩
  · rw [h]
  · rw [h, h']

theorem toLower_eq_space {c : Char} : c.toLower = ' ' ↔ c = ' ' := by
  constructor
  · intro h
    rcases toLower_cases c with hsame | ⟨-, hno⟩
    · rw [← hsame, h]
    · rw [h] at hno
      cases hno
  · rintro rfl
    rfl

theorem toLower_squeeze : toLower (squeeze t) = squeeze (toLower t) := by
  induction t with
  | nil => rfl
  | cons c t ih =>
    show toLower (push c (squeeze t)) = push c.toLower (squeeze (toLower t))
    rw [push, push, toLower_isWhitespace, ← ih]
    have hhead : (toLower (squeeze t)).head? = some ' ' ↔ (squeeze t).head? = some ' ' := by
      rw [toLower, List.head?_map]
      cases (squeeze t).head? with
      | none => simp
      | some d => simpa using toLower_eq_space
    split
    · rw [apply_ite toLower]
      by_cases h : (squeeze t).head? = some ' '
      · rw [if_pos h, if_pos (hhead.2 h)]
      · rw [if_neg h, if_neg (mt hhead.1 h)]
        rfl
    · rfl

theorem plain_iff : Plain t ↔ t.any Char.isWhitespace = false := by
  rw [List.any_eq_false]
  exact forall₂_congr fun c _ ↦ by rw [Bool.not_eq_true]

theorem plain_of_toLower (h : Plain (toLower t)) : Plain t := fun c hc ↦ by
  rw [← toLower_isWhitespace]
  exact h _ (List.mem_map_of_mem hc)

theorem squeeze_eq_nil : squeeze t = [] ↔ t = [] := by
  refine ⟨eq_of_squeeze_eq (fun _ h ↦ nomatch h), ?_⟩
  rintro rfl
  rfl

theorem isBucketEndpoint_squeeze : isBucketEndpoint (squeeze t) = isBucketEndpoint t := by
  have hplain : ∀ p : Text, p.any Char.isWhitespace = false → Plain p := fun p ↦ plain_iff.2
  have hequal : ∀ p : Text, p.any Char.isWhitespace = false → (squeeze t = p ↔ t = p) := by
    refine fun p hp ↦ ⟨eq_of_squeeze_eq (hplain p hp), ?_⟩
    rintro rfl
    exact squeeze_eq_self (hplain _ hp)
  have hstarts : ∀ p : Text, p.any Char.isWhitespace = false →
      p.isPrefixOf (squeeze t) = p.isPrefixOf t := by
    intro p hp
    rw [Bool.eq_iff_iff, List.isPrefixOf_iff_prefix, List.isPrefixOf_iff_prefix]
    exact isPrefix_squeeze (hplain p hp)
  have hends : ∀ p : Text, p.any Char.isWhitespace = false → p ≠ [] →
      p.isSuffixOf (squeeze t) = p.isSuffixOf t := by
    intro p hp hne
    rw [Bool.eq_iff_iff, List.isSuffixOf_iff_suffix, List.isSuffixOf_iff_suffix]
    exact isSuffix_squeeze ⟨hplain p hp, hne⟩
  unfold isBucketEndpoint
  simp only []
  rw [hends _ (by decide) (by decide), hends _ (by decide) (by decide), hstarts _ (by decide),
    hstarts _ (by decide), hstarts _ (by decide), hstarts _ (by decide), hstarts _ (by decide),
    hstarts _ (by decide), hstarts _ (by decide), decide_eq_decide.2 (hequal _ (by decide))]

/-- **The bucket of a host depends on the host up to whitespace.** -/
theorem bucketFromHost_squeeze (host : Text) :
    bucketFromHost (squeeze host) = (bucketFromHost host).map squeeze := by
  have hcolon : (squeeze host).takeWhile (· ≠ ':') = squeeze (host.takeWhile (· ≠ ':')) := by
    refine takeWhile_squeeze fun c hc ↦ ?_
    rw [decide_eq_true_eq]
    rintro rfl
    cases hc
  unfold bucketFromHost
  simp only [hcolon]
  generalize host.takeWhile (· ≠ ':') = h
  have hlocal : Pattern ".localhost".toList := ⟨plain_iff.2 (by decide), by decide⟩
  have hs3 : Pattern ".s3".toList := ⟨plain_iff.2 (by decide), by decide⟩
  rw [toLower_squeeze]
  by_cases hsuffix : ".localhost".toList <:+ toLower h
  · rw [if_pos (List.isSuffixOf_iff_suffix.2 hsuffix),
      if_pos (List.isSuffixOf_iff_suffix.2 ((isSuffix_squeeze hlocal).2 hsuffix))]
    obtain ⟨s', hs'⟩ := hsuffix
    obtain ⟨s, u, rfl, rfl, hu⟩ := List.map_eq_append_iff.1 hs'.symm
    have hlength : u.length = ".localhost".length := by
      rw [← List.length_map (f := Char.toLower), hu]
      rfl
    have hplain : Plain u := plain_of_toLower (t := u) (by rw [toLower, hu]; exact hlocal.plain)
    have hhead : u.head?.any Char.isWhitespace = false := by
      cases u with
      | nil => rfl
      | cons d u => exact hplain d (by simp)
    have htake : ∀ s : Text, (s ++ u).take ((s ++ u).length - ".localhost".length) = s := by
      intro s
      rw [← hlength, List.length_append, Nat.add_sub_cancel, List.take_left]
    rw [squeeze_append hhead, squeeze_eq_self hplain, htake, htake]
    cases s with
    | nil => rfl
    | cons c s =>
      have hne : (squeeze (c :: s)).isEmpty = false := by
        rw [Bool.eq_false_iff, ne_eq, List.isEmpty_iff, squeeze_eq_nil]
        exact List.cons_ne_nil c s
      rw [hne]
      rfl
  · rw [if_neg (mt List.isSuffixOf_iff_suffix.1 hsuffix),
      if_neg (mt List.isSuffixOf_iff_suffix.1 (mt (isSuffix_squeeze hlocal).1 hsuffix)),
      findText_squeeze hs3]
    cases hfound : findText ".s3".toList (toLower h) with
    | none => rfl
    | some found =>
      obtain ⟨before, after⟩ := found
      obtain ⟨s, u, rfl, rfl, hu⟩ := List.map_eq_append_iff.1 (eq_of_findText hfound)
      have hhead : u.head?.any Char.isWhitespace = false := by
        have hlower := @Pattern.head? after ".s3".toList hs3
        cases u with
        | nil => rfl
        | cons d u =>
          rw [← hu, List.map_cons, List.head?_cons, Option.any_some, toLower_isWhitespace] at hlower
          exact hlower
      have hempty : (squeeze (s.map Char.toLower)).isEmpty = (s.map Char.toLower).isEmpty := by
        rw [Bool.eq_iff_iff, List.isEmpty_iff, List.isEmpty_iff, squeeze_eq_nil]
      have hendpoint : isBucketEndpoint ("s3".toList ++ squeeze after) =
          isBucketEndpoint ("s3".toList ++ after) := by
        rw [← squeeze_plain_append (plain_iff.2 (by decide)), isBucketEndpoint_squeeze]
      have hlength : (squeeze (s.map Char.toLower)).length = (squeeze s).length := by
        show (squeeze (toLower s)).length = _
        rw [← toLower_squeeze, toLower, List.length_map]
      rw [Option.map_some]
      simp only [hempty, hendpoint, hlength, List.length_map]
      rw [squeeze_append hhead, List.take_left, List.take_left]
      split <;> rfl

end Sqrzl.Auth
