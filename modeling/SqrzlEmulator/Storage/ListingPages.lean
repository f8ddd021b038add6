import SqrzlEmulator.Storage.Listing

/-!
# Listing page by page

Both walks of the index return a piece of one sorted list (`Listing.lean`). **A page is what comes
after its marker in that list**, cut off after `max_keys` entries, and the marker of the next page
is the last path of this one (`listObjects_eq`). A marker may be a common prefix; that it skips
exactly the entries that were returned before is the general fact about sorted lists
`after_of_append`, and the induction over the pages is on the number of entries that are left.

What the list must contain is said without the code: `Expected` speaks of the ways in which a key
splits at the delimiter.
-/

namespace Sqrzl

open Collapse

/-! ### Pages -/

section Pages

variable {ix : BucketIndex} {metadataExists : Text → Bool}
  {getObjectMetadata : Text → Except Error Object} {pre delimiter marker : Option Text} {n : ℕ}

theorem readObjects_eq {keys : List Text}
    (h : ∀ key ∈ keys, ∃ o, getObjectMetadata key = .ok o ∧ o.key = key) :
    ∃ objects, readObjects getObjectMetadata keys = .ok objects ∧ objects.map (·.key) = keys := by
  induction keys with
  | nil => exact ⟨[], rfl, rfl⟩
  | cons key keys ih =>
    obtain ⟨objects, hread, hkeys⟩ := ih fun k hk ↦ h k (List.mem_cons_of_mem _ hk)
    obtain ⟨o, hget, ho⟩ := h key (List.mem_cons_self ..)
    refine ⟨o :: objects, ?_, by simp [ho, hkeys]⟩
    simp [readObjects, hget, hread, bind, Except.bind]

/-- `r` shows the entries of a page. -/
structure Shows (r : ListObjectsResult) (page : List DirectoryEntry) : Prop where
  commonPrefixes : r.commonPrefixes = pathsOf .commonPrefix page
  objects : r.objects.map (·.key) = pathsOf .object page

/-- `r` is a page of at most `n` entries out of those that are left. -/
structure IsPage (n : ℕ) (rest : List DirectoryEntry) (r : ListObjectsResult) : Prop where
  shows : Shows r (rest.take n)
  isTruncated : r.isTruncated = decide (n < rest.length)
  nextMarker : r.nextMarker = if n < rest.length then (rest.take n).getLast?.map (·.path) else none

theorem pairwise_listing (ix : BucketIndex) (pre delimiter : Option Text) :
    (listing ix pre delimiter).Pairwise fun x y ↦ x.path < y.path := by
  unfold listing
  split
  · exact pairwise_collapsed (pairwise_keysBelow ix _) (fun _ ↦ isPrefix_of_mem_keysBelow) .nil
      (by simp)
  · exact (pairwise_keysBelow ix pre).map _ fun _ _ h ↦ h

/-- The objects of a listing are keys of the index. -/
theorem mem_objects_of_listing {e : DirectoryEntry} (he : e ∈ listing ix pre delimiter)
    (hk : e.kind = .object) : ix.objects[e.path]?.isSome := by
  unfold listing at he
  split at he
  · rw [mem_collapsed (fun _ ↦ isPrefix_of_mem_keysBelow) (by simp)] at he
    rcases he with he | ⟨key, hkey, rfl, -⟩
    · simp at he
    · rw [← key_of_object hk]
      exact (mem_keysBelow.1 hkey).1
  · obtain ⟨key, hkey, rfl⟩ := List.mem_map.1 he
    exact (mem_keysBelow.1 hkey).1

/-- **A page is what comes after its marker in the listing**, cut off after `n` entries. -/
theorem listObjects_eq (hix : ix.Consistent) (hn : 1 ≤ n)
    (hmeta : ∀ key, ix.objects[key]?.isSome → metadataExists key = true)
    (hget : ∀ key, ix.objects[key]?.isSome →
      ∃ o, getObjectMetadata key = .ok o ∧ o.key = key) :
    ∃ r, listObjects ix metadataExists getObjectMetadata pre delimiter marker (some n) = .ok r ∧
      IsPage n (after (·.path) marker (listing ix pre delimiter)) r := by
  generalize hrest : after (·.path) marker (listing ix pre delimiter) = rest
  have hmem : ∀ e ∈ rest, e ∈ listing ix pre delimiter := fun e he ↦ by
    rw [← hrest] at he
    exact (mem_after.1 he).1
  have hread : ∃ objects, readObjects getObjectMetadata (pathsOf .object (rest.take n)) =
      .ok objects ∧ objects.map (·.key) = pathsOf .object (rest.take n) := by
    refine readObjects_eq fun key hkey ↦ ?_
    obtain ⟨e, he, rfl⟩ := List.mem_map.1 hkey
    obtain ⟨he, hkind⟩ := List.mem_filter.1 he
    exact hget _ (mem_objects_of_listing (hmem e (List.mem_of_mem_take he)) (by simpa using hkind))
  obtain ⟨objects, hread, hobjects⟩ := hread
  have hlt : n < (rest.take (n + 1)).length ↔ n < rest.length := by
    rw [List.length_take]
    omega
  have htake : (rest.take (n + 1)).take n = rest.take n := by
    rw [List.take_take, Nat.min_eq_left (by omega)]
  have hn0 : n ≠ 0 := by omega
  unfold listObjects
  simp only [Option.getD_some]
  cases hd : delimiter.filter (!·.isEmpty) with
  | some d =>
    have hentries : (if d = ['/'] && ((pre.getD []).isEmpty || (pre.getD []).getLast? = some '/') then
          ix.listChildEntries (pre.getD []) marker (some (n + 1))
        else scanDelimitedEntries ix metadataExists (pre.getD []) d marker (n + 1)) =
        rest.take (n + 1) := by
      rw [← hrest]
      simp only [listing, hd]
      split
      · next hfast =>
        simp only [Bool.and_eq_true, decide_eq_true_eq, Bool.or_eq_true, List.isEmpty_iff] at hfast
        obtain ⟨rfl, hdir⟩ := hfast
        rw [listChildEntries_eq hix (hdir.imp_right fun h ↦ List.getLast?_eq_some_iff.1 h),
          Nat.max_eq_left (by omega)]
      · exact scanDelimitedEntries_eq hmeta (by omega)
    simp only [listObjectsWithDelimiter, hentries, htake, hread, hlt, hn0, if_false]
    exact ⟨_, rfl, ⟨rfl, hobjects⟩, rfl, by simp⟩
  | none =>
    have hkeys : ∃ keys, after id marker (keysBelow ix pre) = keys ∧
        rest = keys.map fun key ↦ { path := key, kind := .object } := by
      refine ⟨_, rfl, ?_⟩
      rw [← hrest]
      simp only [listing, hd, after, List.filter_map]
      rfl
    obtain ⟨keys, hafter, rfl⟩ := hkeys
    have hpaths : ∀ l : List Text, pathsOf .object (l.map fun key ↦
        { path := key, kind := .object }) = l := fun l ↦ by
      simp [pathsOf, List.filter_map, Function.comp_def]
    have hprefixes : ∀ l : List Text, pathsOf .commonPrefix (l.map fun key ↦
        { path := key, kind := .object }) = [] := fun l ↦ by
      simp [pathsOf, List.filter_map, Function.comp_def]
    have hlen : n < (keys.take (n + 1)).length ↔ n < keys.length := by
      rw [List.length_take]
      omega
    rw [← List.map_take, hpaths] at hread hobjects
    simp only [listPrefixMarker_eq, hafter, Nat.max_eq_left (show 1 ≤ n + 1 by omega),
      List.take_take, Nat.min_eq_left (Nat.le_succ n), hread, hlen, hn0, if_false]
    refine ⟨_, rfl, ⟨?_, ?_⟩, by simp, ?_⟩
    · rw [← List.map_take, hprefixes]
    · rw [← List.map_take, hpaths]
      exact hobjects
    · simp [← List.map_take, Function.comp_def]

/-- The pages from a marker on, until one has no next marker. -/
inductive Pages (query : Option Text → Except Error ListObjectsResult) :
    Option Text → List ListObjectsResult → Prop
  | last {marker : Option Text} {r : ListObjectsResult} (hr : query marker = .ok r)
      (hnext : r.nextMarker = none) : Pages query marker [r]
  | more {marker : Option Text} {r : ListObjectsResult} {next : Text}
      {pages : List ListObjectsResult} (hr : query marker = .ok r)
      (hnext : r.nextMarker = some next) (hpages : Pages query (some next) pages) :
      Pages query marker (r :: pages)

/-- Only the last page is not truncated. -/
def TruncatedButLast (pages : List ListObjectsResult) : Prop :=
  ∃ init last, pages = init ++ [last] ∧ (∀ r ∈ init, r.isTruncated = true) ∧
    last.isTruncated = false

/-- Walking in pages: each page is cut from what its marker leaves. -/
theorem pages_of_after {query : Option Text → Except Error ListObjectsResult}
    {l : List DirectoryEntry} (hl : l.Pairwise fun x y ↦ x.path < y.path) (hn : 1 ≤ n)
    (hquery : ∀ marker, ∃ r, query marker = .ok r ∧ IsPage n (after (·.path) marker l) r)
    (marker : Option Text) :
    ∃ pages chunks, Pages query marker pages ∧ chunks.flatten = after (·.path) marker l ∧
      List.Forall₂ Shows pages chunks ∧ TruncatedButLast pages := by
  -- The induction is on the number of entries that are left.
  induction hk : (after (·.path) marker l).length using Nat.strong_induction_on
    generalizing marker with
  | _ k ih =>
    obtain ⟨r, hr, hpage⟩ := hquery marker
    by_cases hmore : n < (after (·.path) marker l).length
    · have htake : (after (·.path) marker l).take n ≠ [] := by
        intro h
        have := congrArg List.length h
        simp only [List.length_take, List.length_nil] at this
        omega
      obtain ⟨a, x, hax⟩ : ∃ a x, (after (·.path) marker l).take n = a ++ [x] :=
        ⟨_, _, (List.dropLast_append_getLast htake).symm⟩
      have hnext : after (·.path) (some x.path) l = (after (·.path) marker l).drop n := by
        refine after_of_append (a := a) hl marker ?_
        calc after (·.path) marker l
            = (after (·.path) marker l).take n ++ (after (·.path) marker l).drop n :=
              (List.take_append_drop ..).symm
          _ = a ++ x :: (after (·.path) marker l).drop n := by rw [hax, List.append_assoc]; rfl
      have hmarker : r.nextMarker = some x.path := by
        rw [hpage.nextMarker, if_pos hmore, hax]
        simp
      obtain ⟨pages, chunks, hpages, hflat, hshow, init, last, rfl, hinit, hlast⟩ :=
        ih _ (by rw [← hk, hnext, List.length_drop]; omega) (some x.path) rfl
      refine ⟨r :: (init ++ [last]), (after (·.path) marker l).take n :: chunks,
        .more hr hmarker hpages, ?_, .cons hpage.shows hshow, r :: init, last, rfl, ?_, hlast⟩
      · rw [List.flatten_cons, hflat, hnext, List.take_append_drop]
      · intro r' hr'
        rcases List.mem_cons.1 hr' with rfl | hr'
        · rw [hpage.isTruncated]
          exact decide_eq_true hmore
        · exact hinit r' hr'
    · refine ⟨[r], [(after (·.path) marker l).take n], .last hr ?_, ?_, .cons hpage.shows .nil,
        [], r, rfl, by simp, ?_⟩
      · rw [hpage.nextMarker, if_neg hmore]
      · simp [List.take_of_length_le (not_lt.1 hmore)]
      · rw [hpage.isTruncated]
        exact decide_eq_false hmore

/-- The entries that a listing must have: each key below the prefix without a delimiter after it,
and each prefix up to and including the first delimiter after it. -/
inductive Expected (keys : Text → Prop) (pre : Text) (delimiter : Option Text) :
    DirectoryEntry → Prop
  | object {key : Text} (hkey : keys key) (hpre : pre <+: key)
      (hno : ∀ d, delimiter = some d → d ≠ [] → ∀ u v, key ≠ pre ++ u ++ d ++ v) :
      Expected keys pre delimiter ⟨key, .object⟩
  | commonPrefix {u d v : Text} (hkey : keys (pre ++ u ++ d ++ v)) (hd : delimiter = some d)
      (hne : d ≠ []) (hfirst : ∀ u' v', pre ++ u ++ d ++ v = pre ++ u' ++ d ++ v' →
        u.length ≤ u'.length) :
      Expected keys pre delimiter ⟨pre ++ u ++ d, .commonPrefix⟩

/-- The entry of a key, read off its splits at the delimiter. -/
theorem expected_entryOf {keys : Text → Prop} {pre d key : Text} (hd : d ≠ []) (hkey : keys key)
    (hpre : pre <+: key) : Expected keys pre (some d) (entryOf pre d key) := by
  obtain ⟨t, rfl⟩ := hpre
  simp only [entryOf, List.drop_left]
  cases hf : findSub d t with
  | none =>
    refine .object hkey (List.prefix_append _ _) ?_
    rintro _ ⟨⟩ - u v heq
    exact findSub_eq_none_iff.1 hf u v (by simpa using heq)
  | some i =>
    obtain ⟨u, v, rfl, rfl, hmin⟩ := findSub_eq_some_iff.1 hf
    have hpath : (pre ++ (u ++ d ++ v)).take (pre.length + u.length + d.length) = pre ++ u ++ d := by
      rw [show pre ++ (u ++ d ++ v) = (pre ++ u ++ d) ++ v by simp,
        List.take_left' (by simp [Nat.add_assoc])]
    dsimp only
    rw [hpath]
    refine .commonPrefix (v := v) (by simpa using hkey) rfl hd fun u' v' heq ↦ ?_
    exact hmin u' v' (by simpa using heq)

theorem entryOf_of_expected {keys : Text → Prop} {pre d : Text} {e : DirectoryEntry} (hd : d ≠ [])
    (h : Expected keys pre (some d) e) : ∃ key, keys key ∧ pre <+: key ∧ entryOf pre d key = e := by
  cases h with
  | @object key hkey hpre hno =>
    refine ⟨key, hkey, hpre, ?_⟩
    obtain ⟨t, rfl⟩ := hpre
    have hf : findSub d t = none := findSub_eq_none_iff.2 fun u v heq ↦
      hno d rfl hd u v (by simp [heq])
    simp [entryOf, hf]
  | @commonPrefix u d' v hkey hd' hne hfirst =>
    obtain rfl : d = d' := Option.some.inj hd'
    refine ⟨pre ++ u ++ d ++ v, hkey, ⟨u ++ d ++ v, by simp⟩, ?_⟩
    have hf : findSub d (u ++ d ++ v) = some u.length := findSub_eq_some_iff.2
      ⟨u, v, rfl, rfl, fun u' v' heq ↦ hfirst u' v' (by simpa using heq)⟩
    have hdrop : (pre ++ u ++ d ++ v).drop pre.length = u ++ d ++ v := by simp
    simp only [entryOf, hdrop, hf]
    rw [List.take_left' (by simp [Nat.add_assoc])]

theorem mem_listing_iff {e : DirectoryEntry} : e ∈ listing ix pre delimiter ↔
    Expected (fun key ↦ ix.objects[key]?.isSome) (pre.getD []) delimiter e := by
  have hpre : ∀ key, pre.all (·.isPrefixOf key) = true ↔ pre.getD [] <+: key := by
    intro key
    cases pre <;> simp
  unfold listing
  cases hd : delimiter.filter (!·.isEmpty) with
  | some d =>
    obtain ⟨rfl, hne⟩ : delimiter = some d ∧ d ≠ [] := by
      simpa [Option.filter_eq_some_iff] using hd
    simp only [mem_collapsed (fun _ ↦ isPrefix_of_mem_keysBelow) (show ∀ x ∈ [], _ by simp),
      List.not_mem_nil, false_or, mem_keysBelow, Option.all_some, List.isPrefixOf_iff_prefix]
    constructor
    · rintro ⟨key, ⟨hkey, hp⟩, rfl, -⟩
      exact expected_entryOf hne hkey hp
    · intro h
      obtain ⟨key, hkey, hp, rfl⟩ := entryOf_of_expected hne h
      exact ⟨key, ⟨hkey, hp⟩, rfl, by simp⟩
  | none =>
    have hnone : ∀ d, delimiter = some d → d = [] := by
      rintro d rfl
      simpa [Option.filter_eq_none_iff] using hd
    simp only [List.mem_map, mem_keysBelow, hpre]
    constructor
    · rintro ⟨key, ⟨hkey, hp⟩, rfl⟩
      exact .object hkey hp fun d h hne ↦ absurd (hnone d h) hne
    · intro h
      cases h with
      | object hkey hp _ => exact ⟨_, ⟨hkey, hp⟩, rfl⟩
      | commonPrefix _ h hne _ => exact absurd (hnone _ h) hne

end Pages

/-- **Listing page by page shows every entry once.** From no marker on, the pages come to an end;
put together they are strictly increasing in their paths; they hold the keys below the prefix
without a delimiter after it, the common prefixes of the others, and nothing else; and only the last
page is not truncated. -/
theorem list_objects_complete (ops : List IndexOp) (bucket : String) (metadataExists : Text → Bool)
    (getObjectMetadata : Text → Except Error Object)
    (hmeta : ∀ key, ((LockFreeIndex.run ops).bucketIndex bucket).objects[key]?.isSome →
      metadataExists key = true ∧ ∃ o, getObjectMetadata key = .ok o ∧ o.key = key)
    (pre delimiter : Option Text) (maxKeys : ℕ) (hmax : 1 ≤ maxKeys) :
    ∃ pages chunks, Pages (fun marker ↦ listObjects ((LockFreeIndex.run ops).bucketIndex bucket)
        metadataExists getObjectMetadata pre delimiter marker (some maxKeys)) none pages ∧
      List.Forall₂ Shows pages chunks ∧
      chunks.flatten.Pairwise (fun x y ↦ x.path < y.path) ∧
      (∀ e, e ∈ chunks.flatten ↔ Expected (fun key ↦
        ((LockFreeIndex.run ops).bucketIndex bucket).objects[key]?.isSome) (pre.getD [])
        delimiter e) ∧
      TruncatedButLast pages := by
  obtain ⟨pages, chunks, hpages, hflat, hshow, hlast⟩ := pages_of_after
    (pairwise_listing ((LockFreeIndex.run ops).bucketIndex bucket) pre delimiter) hmax
    (fun marker ↦ listObjects_eq (LockFreeIndex.consistent_bucketIndex ops bucket) hmax
      (fun key hkey ↦ (hmeta key hkey).1) (fun key hkey ↦ (hmeta key hkey).2)) none
  rw [after_none] at hflat
  refine ⟨pages, chunks, hpages, hshow, ?_, fun e ↦ ?_, hlast⟩
  · rw [hflat]
    exact pairwise_listing _ _ _
  · rw [hflat]
    exact mem_listing_iff

theorem list_objects_complete_nested : ∃ pages, Pages (fun marker ↦ listObjects
      ((LockFreeIndex.run [.insert "b" "a/b".toList, .insert "b" "a/c".toList,
        .insert "b" "d".toList]).bucketIndex "b") (fun _ ↦ true)
      (fun key ↦ .ok (.newWithMetadataAndEtag 0 key [] "" ∅ "")) none (some ['/']) marker (some 1))
      none pages ∧ TruncatedButLast pages := by
  obtain ⟨pages, -, hpages, -, -, -, hlast⟩ := list_objects_complete
    [.insert "b" "a/b".toList, .insert "b" "a/c".toList, .insert "b" "d".toList] "b" (fun _ ↦ true)
    (fun key ↦ .ok (.newWithMetadataAndEtag 0 key [] "" ∅ "")) (fun _ _ ↦ ⟨rfl, _, rfl, rfl⟩)
    none (some ['/']) 1 le_rfl
  exact ⟨pages, hpages, hlast⟩

end Sqrzl
