import SqrzlEmulator.Auth.SigV4
import Mathlib.Algebra.Order.BigOperators.Group.List
import Mathlib.Algebra.Order.Group.Nat

/-!
# What a canonical request determines

Two requests with the same canonical request have the same method, the same signed headers up to
whitespace, and the same payload hash. Their paths and their queries are the same up to what
`decodeOrRaw` makes of their parts: **a text that cannot be decoded counts as itself**. The handlers
see something else. A parameter that cannot be decoded is empty for them, and a key whose escapes
are malformed has no route.

## The argument

* The canonical request is a list of lines (`buildCanonicalRequest_eq`), none of which contains a
  line break, so the lines are determined (`lines_eq`).
* The line of the query is a sorted list of encoded pairs, and the encoding is injective
  (`canonicalQueryString_perm`); the line of the path is a list of encoded segments
  (`canonicalUri_segments`).
* Where everything can be decoded, the handlers decode the same query (`queryPairs_eq`).
-/

namespace Sqrzl.Auth

open Percent S3

variable {K : Crates} {req req' : HttpRequest} {names names' : List Text}

/-! ### Characters of encoded texts -/

/-- A separator does not occur in an encoded text. -/
theorem not_mem_uriEncode {c : Char} {t : Text}
    (hc : c = '/' ∨ c = '&' ∨ c = '=' ∨ c = '\n') : c ∉ uriEncode t true := by
  intro h
  have hkept := mem_percentEncode h
  rcases hc with rfl | rfl | rfl | rfl <;> revert hkept <;> decide

theorem uriEncode_injective : Function.Injective (uriEncode · true) :=
  percentEncode_injective (by decide)

/-! ### Paths -/

/-- The segments of a path. -/
def segments (path : Text) : List Text := (if path.isEmpty then ['/'] else path).splitOn '/'

theorem canonicalUri_segments {path path' : Text} (h : canonicalUri K path = canonicalUri K path') :
    (segments path).map (decodeOrRaw K) = (segments path').map (decodeOrRaw K) := by
  have hsplit : ∀ path : Text, (segments path).map (fun segment ↦
      uriEncode (decodeOrRaw K segment) true) =
        ((segments path).map (decodeOrRaw K)).map (uriEncode · true) := fun path ↦ by
    rw [List.map_map]
    rfl
  have hlist := @join_injective '/' _ _ ?_ ?_ ?_ ?_ h
  · exact List.map_injective_iff.2 uriEncode_injective (by rw [← hsplit, ← hsplit]; exact hlist)
  · intro t ht
    obtain ⟨segment, -, rfl⟩ := List.mem_map.1 ht
    exact not_mem_uriEncode (.inl rfl)
  · intro t ht
    obtain ⟨segment, -, rfl⟩ := List.mem_map.1 ht
    exact not_mem_uriEncode (.inl rfl)
  · simp
  · simp

theorem newline_not_mem_canonicalUri (K : Crates) (path : Text) : '\n' ∉ canonicalUri K path := by
  intro h
  rcases mem_join h with h | ⟨t, ht, hc⟩
  · cases h
  · obtain ⟨segment, -, rfl⟩ := List.mem_map.1 ht
    exact not_mem_uriEncode (.inr (.inr (.inr rfl))) hc

/-! ### Queries -/

/-- A pair with its sign. -/
def sign (pair : Text × Text) : Text := pair.1 ++ '=' :: pair.2

theorem sign_inj {p q : Text × Text} (hp : '=' ∉ p.1) (hq : '=' ∉ q.1) (h : sign p = sign q) :
    p = q := by
  obtain ⟨h₁, h₂⟩ := append_cons_inj hp hq h
  exact Prod.ext h₁ h₂

/-- Sorted parameters determine the parameters up to their order. -/
theorem joinParams_perm {l l' : List (Text × Text)}
    (hl : ∀ p ∈ l, '=' ∉ p.1 ∧ '&' ∉ p.1 ∧ '&' ∉ p.2)
    (hl' : ∀ p ∈ l', '=' ∉ p.1 ∧ '&' ∉ p.1 ∧ '&' ∉ p.2) (h : joinParams l = joinParams l') :
    l.Perm l' := by
  have hsorted : ∀ l : List (Text × Text), (l.insertionSort (pairLE · ·)).Perm l := fun l ↦
    List.perm_insertionSort _ l
  have hseparator : ∀ l : List (Text × Text), (∀ p ∈ l, '=' ∉ p.1 ∧ '&' ∉ p.1 ∧ '&' ∉ p.2) →
      ∀ t ∈ (l.insertionSort (pairLE · ·)).map sign, '&' ∉ t := by
    intro l hl t ht hc
    obtain ⟨p, hp, rfl⟩ := List.mem_map.1 ht
    obtain ⟨-, h₁, h₂⟩ := hl p ((hsorted l).mem_iff.1 hp)
    simp only [sign, List.mem_append, List.mem_cons] at hc
    rcases hc with hc | hc | hc
    · exact h₁ hc
    · cases hc
    · exact h₂ hc
  -- a list without parameters has no sign in its text
  have hnil : ∀ l : List (Text × Text), joinParams l = [] → l = [] := by
    intro l hl
    by_contra hne
    have hmem : (l.insertionSort (pairLE · ·)) ≠ [] := fun hs ↦ hne ((hsorted l).symm.trans (hs ▸ .nil)).eq_nil
    obtain ⟨p, s, hps⟩ := List.exists_cons_of_ne_nil hmem
    have hsign : '=' ∈ joinParams l := by
      rw [joinParams, hps, List.map_cons, join]
      cases s with
      | nil => simp
      | cons q s =>
        rw [List.map_cons, List.intercalate_cons_cons]
        simp
    rw [hl] at hsign
    cases hsign
  have hsorted_ne : ∀ l : List (Text × Text), l ≠ [] → (l.insertionSort (pairLE · ·)).map sign ≠ [] := by
    intro l hne hs
    rw [List.map_eq_nil_iff] at hs
    exact hne ((hsorted l).symm.trans (hs ▸ .nil)).eq_nil
  have hjoin : joinParams [] = [] := rfl
  by_cases hempty : l = []
  · rw [hempty, hnil l' (by rw [← h, hempty, hjoin])]
  · have hempty' : l' ≠ [] := by
      rintro rfl
      exact hempty (hnil l (h.trans hjoin))
    have hmap : (l.insertionSort (pairLE · ·)).map sign = (l'.insertionSort (pairLE · ·)).map sign :=
      join_injective (hseparator l hl) (hseparator l' hl') (hsorted_ne l hempty)
        (hsorted_ne l' hempty') h
    have hsame : l.insertionSort (pairLE · ·) = l'.insertionSort (pairLE · ·) :=
      map_inj_on (fun p hp q hq ↦ sign_inj (hl p ((hsorted l).mem_iff.1 hp)).1
        (hl' q ((hsorted l').mem_iff.1 hq)).1) hmap
    exact (hsorted l).symm.trans (hsame ▸ hsorted l')

/-- The pairs of a query, where what cannot be decoded counts as itself. -/
def rawPairs (K : Crates) (query : Option Text) : List (Text × Text) :=
  (queryParts query).map fun part ↦
    (decodeOrRaw K (nameAndValue part).1, decodeOrRaw K (nameAndValue part).2)

/-- An encoded pair. -/
def encodePair (pair : Text × Text) : Text × Text := (uriEncode pair.1 true, uriEncode pair.2 true)

theorem encodePair_injective : Function.Injective encodePair := fun _ _ h ↦
  Prod.ext (uriEncode_injective (congrArg Prod.fst h)) (uriEncode_injective (congrArg Prod.snd h))

theorem canonicalQueryString_eq (K : Crates) (query : Option Text) :
    canonicalQueryString K query = joinParams ((rawPairs K query).map encodePair) := by
  rw [rawPairs, List.map_map]
  rfl

/-- **A canonical query determines the pairs.** -/
theorem canonicalQueryString_perm {query query' : Option Text}
    (h : canonicalQueryString K query = canonicalQueryString K query') :
    (rawPairs K query).Perm (rawPairs K query') := by
  have hsep : ∀ l : List (Text × Text), ∀ p ∈ l.map encodePair, '=' ∉ p.1 ∧ '&' ∉ p.1 ∧ '&' ∉ p.2 := by
    intro l p hp
    obtain ⟨q, -, rfl⟩ := List.mem_map.1 hp
    exact ⟨not_mem_uriEncode (.inr (.inr (.inl rfl))), not_mem_uriEncode (.inr (.inl rfl)),
      not_mem_uriEncode (.inr (.inl rfl))⟩
  rw [canonicalQueryString_eq, canonicalQueryString_eq] at h
  exact (List.map_perm_map_iff encodePair_injective).1 (joinParams_perm (hsep _) (hsep _) h)

theorem newline_not_mem_canonicalQueryString (K : Crates) (query : Option Text) :
    '\n' ∉ canonicalQueryString K query := by
  rw [canonicalQueryString_eq]
  intro h
  rcases mem_join h with h | ⟨t, ht, hc⟩
  · cases h
  · obtain ⟨p, hp, rfl⟩ := List.mem_map.1 ht
    obtain ⟨q, -, rfl⟩ := List.mem_map.1 ((List.perm_insertionSort _ _).mem_iff.1 hp)
    have hnot := fun t : Text ↦ @not_mem_uriEncode '\n' t (.inr (.inr (.inr rfl)))
    simp only [encodePair, List.mem_append, List.mem_cons] at hc
    rcases hc with hc | hc | hc
    · exact hnot _ hc
    · cases hc
    · exact hnot _ hc

/-! ### Lines -/

/-- The line of a signed header. -/
def headerLine (req : HttpRequest) (name : Text) : Text :=
  name ++ ':' :: normalizeHeaderValue ((req.header name).getD [])

/-- The lines of a canonical request. -/
def lines (K : Crates) (req : HttpRequest) (names : List Text) : List Text :=
  [req.method, canonicalUri K req.path, canonicalQueryString K req.query] ++
    (sortNames names).map (headerLine req) ++ [[], join ';' (sortNames names), payloadHash K req]

theorem sortNames_perm (names : List Text) : (sortNames names).Perm names :=
  List.perm_insertionSort _ _

theorem sortNames_ne_nil (h : names ≠ []) : sortNames names ≠ [] := fun hs ↦
  h ((sortNames_perm names).symm.trans (hs ▸ .nil)).eq_nil

theorem buildCanonicalRequest_eq (h : names ≠ []) :
    buildCanonicalRequest K req names = join '\n' (lines K req names) :=
  @join_join _ _ [req.method, canonicalUri K req.path, canonicalQueryString K req.query] _
    (by simpa using sortNames_ne_nil h)

theorem header_mem {name value : Text} (h : req.header name = some value) :
    (name, some value) ∈ req.headers := by
  obtain ⟨⟨name', value'⟩, hfind, hvalue⟩ := Option.bind_eq_some_iff.1 h
  have hname : name' = name := by simpa using List.find?_some hfind
  have hmem := List.mem_of_find?_eq_some hfind
  cases hvalue
  exact hname ▸ hmem

theorem newline_not_mem_payloadHash (K : Crates) (req : HttpRequest) : '\n' ∉ payloadHash K req := by
  unfold payloadHash
  split
  · next value hvalue =>
    exact (req.headers_values _ _ (header_mem (Option.filter_eq_some_iff.1 hvalue).1)).1
  · cases hhint : req.contentSha256Hint with
    | none => exact K.sha256Hex_plain _
    | some hint => exact req.hint_plain hint hhint

theorem newline_not_mem_normalizeHeaderValue (value : Text) :
    '\n' ∉ normalizeHeaderValue value := by
  intro h
  rcases mem_join h with h | ⟨word, hword, hc⟩
  · cases h
  · have hspace := not_of_mem_splitOnP (List.mem_filter.1 hword).1 hc
    cases hspace

/-- No line contains a line break. -/
theorem newline_not_mem_lines (hvalid : validSignedHeaderNames K names = true) :
    ∀ line ∈ lines K req names, '\n' ∉ line := by
  obtain ⟨-, hnames, -⟩ := validSignedHeaderNames_iff.1 hvalid
  have htoken : ∀ name ∈ sortNames names, '\n' ∉ name := fun name hname ↦
    (K.isHeaderName_token name (hnames name ((sortNames_perm names).mem_iff.1 hname)).2.2).2.2
  intro line hline
  simp only [lines, List.mem_append, List.mem_cons, List.not_mem_nil, or_false, List.mem_map] at hline
  rcases hline with ((rfl | rfl | rfl) | ⟨name, hname, rfl⟩) | rfl | rfl | rfl
  · exact req.method_token
  · exact newline_not_mem_canonicalUri K req.path
  · exact newline_not_mem_canonicalQueryString K req.query
  · simp only [headerLine, List.mem_append, List.mem_cons, not_or]
    exact ⟨htoken name hname, by decide, newline_not_mem_normalizeHeaderValue _⟩
  · simp
  · intro h
    rcases mem_join h with h | ⟨name, hname, hc⟩
    · cases h
    · exact htoken name hname hc
  · exact newline_not_mem_payloadHash K req

/-- Names in their order are not moved. -/
theorem sortNames_of_valid (hvalid : validSignedHeaderNames K names = true) :
    sortNames names = names := by
  obtain ⟨-, -, hchain⟩ := validSignedHeaderNames_iff.1 hvalid
  have : IsTrans Text fun l r ↦ compare l r = .lt := ⟨fun _ _ _ ↦ Std.TransCmp.lt_trans⟩
  refine List.Pairwise.insertionSort_eq (hchain.pairwise.imp fun h ↦ ?_)
  rw [h]
  rfl

/-- **The lines of a canonical request are determined.** -/
theorem lines_eq (hvalid : validSignedHeaderNames K names = true)
    (hvalid' : validSignedHeaderNames K names' = true)
    (h : buildCanonicalRequest K req names = buildCanonicalRequest K req' names') :
    lines K req names = lines K req' names' := by
  rw [buildCanonicalRequest_eq (validSignedHeaderNames_iff.1 hvalid).1,
    buildCanonicalRequest_eq (validSignedHeaderNames_iff.1 hvalid').1] at h
  exact join_injective (newline_not_mem_lines hvalid) (newline_not_mem_lines hvalid') (by simp [lines])
    (by simp [lines]) h

/-- What the lines say. -/
structure SameLines (K : Crates) (req req' : HttpRequest) (names names' : List Text) : Prop where
  method : req.method = req'.method
  segments : (segments req.path).map (decodeOrRaw K) = (segments req'.path).map (decodeOrRaw K)
  query : (rawPairs K req.query).Perm (rawPairs K req'.query)
  signed : names = names'
  values : ∀ name ∈ names, normalizeHeaderValue ((req.header name).getD []) =
    normalizeHeaderValue ((req'.header name).getD [])
  payload : payloadHash K req = payloadHash K req'

theorem sameLines (hvalid : validSignedHeaderNames K names = true)
    (hvalid' : validSignedHeaderNames K names' = true)
    (h : buildCanonicalRequest K req names = buildCanonicalRequest K req' names') :
    SameLines K req req' names names' := by
  have hlines := lines_eq hvalid hvalid' h
  rw [lines, lines, sortNames_of_valid hvalid, sortNames_of_valid hvalid'] at hlines
  obtain ⟨hfront, hback⟩ := List.append_inj' hlines rfl
  obtain ⟨hstart, hheaders⟩ := List.append_inj hfront rfl
  simp only [List.cons.injEq, and_true, true_and] at hstart hback
  obtain ⟨hmethod, huri, hquery⟩ := hstart
  obtain ⟨hnames, hpayload⟩ := hback
  obtain ⟨hne, htokens, -⟩ := validSignedHeaderNames_iff.1 hvalid
  obtain ⟨hne', htokens', -⟩ := validSignedHeaderNames_iff.1 hvalid'
  have hsame : names = names' := join_injective
    (fun name hname ↦ (K.isHeaderName_token name (htokens name hname).2.2).2.1)
    (fun name hname ↦ (K.isHeaderName_token name (htokens' name hname).2.2).2.1) hne hne' hnames
  subst hsame
  refine ⟨hmethod, canonicalUri_segments huri, canonicalQueryString_perm hquery, rfl, ?_, hpayload⟩
  intro name hname
  have hline := List.map_inj_left.1 hheaders name hname
  have hcolon := (K.isHeaderName_token name (htokens name hname).2.2).1
  exact (append_cons_inj hcolon hcolon hline).2

/-! ### Queries as the handlers see them -/

/-- Every name and every value of the query can be decoded. -/
def QueryDecodes (K : Crates) (query : Option Text) : Prop :=
  ∀ part ∈ queryParts query, (K.decode (nameAndValue part).1).isSome ∧
    (K.decode (nameAndValue part).2).isSome

instance (K : Crates) (query : Option Text) : Decidable (QueryDecodes K query) :=
  inferInstanceAs (Decidable (∀ part ∈ queryParts query, _ ∧ _))

theorem queryPairs_eq {query : Option Text} (h : QueryDecodes K query) :
    queryPairs K query = rawPairs K query := by
  refine List.map_inj_left.2 fun part hpart ↦ ?_
  obtain ⟨hname, hvalue⟩ := h part hpart
  obtain ⟨name, hname⟩ := Option.isSome_iff_exists.1 hname
  obtain ⟨value, hvalue⟩ := Option.isSome_iff_exists.1 hvalue
  rw [decodeOrRaw, decodeOrRaw, hname, hvalue]
  rfl

/-- The characters of a pair. -/
def pairLength (pair : Text × Text) : ℕ := pair.1.length + pair.2.length

/-- The pairs that the handlers see of a part, and what the part counts as. -/
theorem pairLength_le (K : Crates) (name value : Text) :
    pairLength ((K.decode name).getD [], (K.decode value).getD []) ≤
      pairLength (decodeOrRaw K name, decodeOrRaw K value) ∧
    (¬ ((K.decode name).isSome ∧ (K.decode value).isSome) →
      pairLength ((K.decode name).getD [], (K.decode value).getD []) <
        pairLength (decodeOrRaw K name, decodeOrRaw K value)) := by
  have hlength : ∀ t : Text, ((K.decode t).getD []).length ≤ (decodeOrRaw K t).length ∧
      (K.decode t = none → ((K.decode t).getD []).length < (decodeOrRaw K t).length) := by
    intro t
    rw [decodeOrRaw]
    cases hdecode : K.decode t with
    | some t' => exact ⟨le_rfl, nofun⟩
    | none =>
      have hne : t ≠ [] := by
        rintro rfl
        rw [K.decode_plain [] (by simp)] at hdecode
        cases hdecode
      exact ⟨Nat.zero_le _, fun _ ↦ List.length_pos_iff.2 hne⟩
  obtain ⟨hname, hname'⟩ := hlength name
  obtain ⟨hvalue, hvalue'⟩ := hlength value
  refine ⟨Nat.add_le_add hname hvalue, fun hnot ↦ ?_⟩
  by_cases hsome : (K.decode name).isSome
  · have hnone := Option.not_isSome_iff_eq_none.1 fun h ↦ hnot ⟨hsome, h⟩
    exact Nat.add_lt_add_of_le_of_lt hname (hvalue' hnone)
  · exact Nat.add_lt_add_of_lt_of_le (hname' (Option.not_isSome_iff_eq_none.1 hsome)) hvalue

/-- **The handlers see the same pairs only if they can decode all of them.** -/
theorem queryDecodes_of_perm {query query' : Option Text} (h : QueryDecodes K query)
    (hraw : (rawPairs K query).Perm (rawPairs K query'))
    (hpairs : (queryPairs K query).Perm (queryPairs K query')) : QueryDecodes K query' := by
  intro part hpart
  by_contra hnot
  have hlt : ((queryPairs K query').map pairLength).sum < ((rawPairs K query').map pairLength).sum := by
    rw [queryPairs, rawPairs, List.map_map, List.map_map]
    exact List.sum_lt_sum _ _ (fun part _ ↦ (pairLength_le K _ _).1) ⟨part, hpart,
      (pairLength_le K _ _).2 hnot⟩
  rw [← (hpairs.map pairLength).sum_eq, ← (hraw.map pairLength).sum_eq, queryPairs_eq h] at hlt
  exact absurd hlt (lt_irrefl _)

end Sqrzl.Auth
