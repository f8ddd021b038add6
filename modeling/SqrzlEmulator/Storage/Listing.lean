import SqrzlEmulator.Storage.LockFreeIndex

/-!
# Listing the objects of a bucket

`scan_delimited_entries`, `list_objects_with_delimiter` and `list_objects` of
`storage/filesystem.rs`. A listing with the delimiter `/` below a directory is answered from the
children tree of the index; every other delimited listing scans the keys in batches and collapses
them as it goes.

Both walks return a piece of one and the same list, the entries of the keys below the prefix, sorted
by their paths, each once (`listing`): what comes after the marker, cut off after the limit
(`scanDelimitedEntries_eq`, `listChildEntries_eq`). The batches of the scan end anywhere, also in
the middle of a common prefix; that its duplicates are adjacent, and so found by looking at the last
entry only, is the monotony of collapsing.

A page is asked for one entry more than it may have; the sum saturates in the source, which no
bucket is large enough to observe, and is a sum of natural numbers here.
-/

namespace Sqrzl

open Collapse

/-- The answer to a listing. -/
structure ListObjectsResult where
  commonPrefixes : List Text
  objects : List Object
  isTruncated : Bool
  nextMarker : Option Text

/-! ### The programs -/

section Programs

variable (ix : BucketIndex) (metadataExists : Text → Bool)
  (getObjectMetadata : Text → Except Error Object)

/-- The loop of `scan_delimited_entries` over the keys of a batch. -/
def scanKeys (pre delimiter : Text) (marker : Option Text) (desiredEntryCount : ℕ)
    (entries : List DirectoryEntry) : List Text → List DirectoryEntry
  | [] => entries
  | key :: keys =>
    let entry := entryOf pre delimiter key
    if marker.any (!· < entry.path) || entries.getLast?.any (·.path = entry.path) then
      scanKeys pre delimiter marker desiredEntryCount entries keys
    else if entry.kind = .object && !metadataExists entry.path then
      scanKeys pre delimiter marker desiredEntryCount entries keys
    else if desiredEntryCount ≤ (entries ++ [entry]).length then
      entries ++ [entry]
    else
      scanKeys pre delimiter marker desiredEntryCount (entries ++ [entry]) keys

/-- The loop of `scan_delimited_entries` over the batches. Each round but the last one passes at
least one key, so that as many rounds as there are keys, and one more, are enough. -/
def scanBatches (pre delimiter : Text) (marker : Option Text) (desiredEntryCount batchSize : ℕ) :
    ℕ → (scanMarker : Option Text) → List DirectoryEntry → List DirectoryEntry
  | 0, _, entries => entries
  | rounds + 1, scanMarker, entries =>
    let keys := ix.listPrefixMarker (some pre) scanMarker (some batchSize)
    if keys.isEmpty then
      entries
    else
      let entries := scanKeys metadataExists pre delimiter marker desiredEntryCount entries keys
      if desiredEntryCount ≤ entries.length || keys.length < batchSize then
        entries
      else
        scanBatches pre delimiter marker desiredEntryCount batchSize rounds keys.getLast? entries

/-- `scan_delimited_entries` -/
def scanDelimitedEntries (pre delimiter : Text) (marker : Option Text) (desiredEntryCount : ℕ) :
    List DirectoryEntry :=
  scanBatches ix metadataExists pre delimiter marker desiredEntryCount
    (max 1 (min desiredEntryCount 1024)) (ix.objects.size + 1) marker []

/-- Read the metadata of the keys of a page; a key without any is left out. -/
def readObjects : List Text → Except Error (List Object)
  | [] => .ok []
  | key :: keys => do
    match getObjectMetadata key with
    | .ok object => .ok (object :: (← readObjects keys))
    | .error .keyNotFound => readObjects keys
    | .error e => .error e

/-- The paths of the entries of a kind. -/
def pathsOf (kind : DirectoryEntryKind) (entries : List DirectoryEntry) : List Text :=
  (entries.filter (·.kind = kind)).map (·.path)

/-- `list_objects_with_delimiter` -/
def listObjectsWithDelimiter (pre delimiter : Text) (marker : Option Text) (maxKeys : ℕ) :
    Except Error ListObjectsResult := do
  let entryLimit := maxKeys + 1
  let entries :=
    if delimiter = ['/'] && (pre.isEmpty || pre.getLast? = some '/') then
      ix.listChildEntries pre marker (some entryLimit)
    else
      scanDelimitedEntries ix metadataExists pre delimiter marker entryLimit
  let isTruncated := maxKeys < entries.length
  let pageEntries := entries.take maxKeys
  let nextMarker :=
    if isTruncated then
      if maxKeys = 0 then entries.head?.map (·.path) else pageEntries.getLast?.map (·.path)
    else
      none
  let objects ← readObjects getObjectMetadata (pathsOf .object pageEntries)
  return {
    commonPrefixes := pathsOf .commonPrefix pageEntries
    objects := objects
    isTruncated := isTruncated
    nextMarker := nextMarker }

/-- `list_objects`, in a bucket that exists. -/
def listObjects (pre delimiter marker : Option Text) (maxKeys : Option ℕ) :
    Except Error ListObjectsResult := do
  let maxKeys := maxKeys.getD 1000
  match delimiter.filter (!·.isEmpty) with
  | some delimiter =>
    listObjectsWithDelimiter ix metadataExists getObjectMetadata (pre.getD []) delimiter marker
      maxKeys
  | none =>
    let keys := ix.listPrefixMarker pre marker (some (maxKeys + 1))
    let pageKeys := keys.take maxKeys
    let objects ← readObjects getObjectMetadata pageKeys
    let isTruncated := maxKeys < keys.length
    let nextMarker :=
      if isTruncated then
        if maxKeys = 0 then keys.head? else pageKeys.getLast?
      else
        none
    return {
      commonPrefixes := []
      objects := objects
      isTruncated := isTruncated
      nextMarker := nextMarker }

end Programs

/-! ### The walks of the index -/

theorem collect_eq {α : Type} {wanted : α → Bool} {n : ℕ} {result l : List α}
    (h : result.length < max n 1) : BucketIndex.collect wanted (some n) result l =
      result ++ (l.takeWhile wanted).take (max n 1 - result.length) := by
  induction l generalizing result with
  | nil => simp [BucketIndex.collect]
  | cons x l ih =>
    simp only [BucketIndex.collect, List.takeWhile_cons]
    cases hx : wanted x with
    | false => simp
    | true =>
      have hpos : max n 1 - result.length = (max n 1 - (result ++ [x]).length) + 1 := by
        simp only [List.length_append, List.length_cons, List.length_nil]
        omega
      simp only [if_true, Option.any_some, decide_eq_true_eq]
      split
      · next hn =>
        have hz : max n 1 - (result ++ [x]).length = 0 := by
          simp only [List.length_append, List.length_cons, List.length_nil] at hn ⊢
          omega
        rw [hpos, hz]
        simp
      · next hn =>
        rw [ih (by omega), hpos, List.take_succ_cons, List.append_assoc]
        rfl

/-- The keys below a prefix, sorted. -/
def keysBelow (ix : BucketIndex) (pre : Option Text) : List Text :=
  ix.objects.keys.filter fun key ↦ pre.all (·.isPrefixOf key)

theorem pairwise_keysBelow (ix : BucketIndex) (pre : Option Text) :
    (keysBelow ix pre).Pairwise (· < ·) :=
  (pairwise_keys _).filter _

/-- From the first key after a bound that is not before the prefix, the keys below the prefix come
first. -/
theorem takeWhile_filter_eq {keys : List Text} (hkeys : keys.Pairwise (· < ·)) {pre : Text}
    {q : Text → Bool} (hq : ∀ k, q k = true → pre ≤ k) :
    (keys.filter q).takeWhile (pre.isPrefixOf ·) = keys.filter fun k ↦ pre.isPrefixOf k && q k := by
  rw [takeWhile_eq_filter, List.filter_filter]
  rw [List.pairwise_filter]
  refine hkeys.imp fun {a b} hab ha _ hp ↦ ?_
  rw [List.isPrefixOf_iff_prefix] at hp ⊢
  exact isPrefix_of_le_of_le (hq a ha) hab.le hp

theorem listPrefixMarker_eq (ix : BucketIndex) (pre marker : Option Text) (n : ℕ) :
    ix.listPrefixMarker pre marker (some n) =
      (after id marker (keysBelow ix pre)).take (max n 1) := by
  have hsorted := pairwise_keys ix.objects
  have hall : ∀ l : List Text, l.takeWhile (fun _ ↦ true) = l := fun l ↦ by
    rw [takeWhile_eq_filter (List.pairwise_of_forall fun _ _ _ ↦ rfl), List.filter_true]
  have hlt : ∀ p : Text, ix.objects.keys.dropWhile (· < p) =
      ix.objects.keys.filter fun k ↦ !decide (k < p) := fun p ↦
    dropWhile_eq_filter (hsorted.imp fun hab h ↦ by simpa using hab.trans (by simpa using h))
  have hle : ∀ m : Text, ix.objects.keys.dropWhile (fun k ↦ !decide (m < k)) =
      ix.objects.keys.filter fun k ↦ decide (m < k) := fun m ↦ by
    rw [dropWhile_eq_filter (hsorted.imp fun hab h ↦ ?_)]
    · simp
    · simp only [Bool.not_eq_true', decide_eq_false_iff_not, not_lt] at h ⊢
      exact hab.le.trans h
  unfold BucketIndex.listPrefixMarker
  rw [collect_eq (by simp)]
  simp only [List.nil_append, List.length_nil, Nat.sub_zero]
  congr 1
  unfold after keysBelow
  rw [List.filter_filter]
  cases pre with
  | none =>
    cases marker with
    | none => simp [hall]
    | some m =>
      simp only [hle, Option.all_none, hall]
      exact List.filter_congr fun k _ ↦ Bool.eq_iff_iff.2 (by simp)
  | some p =>
    cases marker with
    | none =>
      simp only [Option.all_some, hlt]
      rw [takeWhile_filter_eq hsorted (by simp)]
      refine List.filter_congr fun k _ ↦ ?_
      cases hp : p.isPrefixOf k with
      | false => simp
      | true => simpa using le_of_isPrefix (List.isPrefixOf_iff_prefix.1 hp)
    | some m =>
      simp only [Option.all_some]
      split
      · next hm =>
        rw [hlt, takeWhile_filter_eq hsorted (by simp)]
        refine List.filter_congr fun k _ ↦ ?_
        cases hp : p.isPrefixOf k with
        | false => simp
        | true =>
          have hpk := le_of_isPrefix (List.isPrefixOf_iff_prefix.1 hp)
          simp [hpk, hm.trans_le hpk]
      · next hm =>
        rw [hle, takeWhile_filter_eq hsorted]
        · exact List.filter_congr fun k _ ↦ Bool.eq_iff_iff.2 (by simp [and_comm])
        · intro k hk
          exact (not_lt.1 hm).trans (le_of_lt (by simpa using hk))

/-! ### The scan -/

section Scan

variable {metadataExists : Text → Bool} {pre d : Text} {marker : Option Text}

/-- The entries that a scan without a limit collects. -/
def collapsed (pre d : Text) (marker : Option Text) (entries : List DirectoryEntry) :
    List Text → List DirectoryEntry
  | [] => entries
  | key :: keys =>
    if marker.any (!· < (entryOf pre d key).path) ||
        entries.getLast?.any (·.path = (entryOf pre d key).path) then
      collapsed pre d marker entries keys
    else
      collapsed pre d marker (entries ++ [entryOf pre d key]) keys

theorem isPrefix_collapsed (pre d : Text) (marker : Option Text) (entries : List DirectoryEntry)
    (keys : List Text) :
    entries <+: collapsed pre d marker entries keys := by
  induction keys generalizing entries with
  | nil => exact List.prefix_refl _
  | cons key keys ih =>
    simp only [collapsed]
    split
    · exact ih entries
    · exact (List.prefix_append _ _).trans (ih _)

theorem collapsed_append (entries : List DirectoryEntry) (a b : List Text) :
    collapsed pre d marker entries (a ++ b) =
      collapsed pre d marker (collapsed pre d marker entries a) b := by
  induction a generalizing entries with
  | nil => rfl
  | cons key a ih =>
    simp only [List.cons_append, collapsed]
    split <;> exact ih _

theorem take_of_isPrefix {α : Type} {a l : List α} {n : ℕ} (h : a <+: l) (hn : a.length = n) :
    l.take n = a := by
  obtain ⟨t, rfl⟩ := h
  exact List.take_left' hn

/-- The limit of a scan cuts off what it collects. -/
theorem scanKeys_eq {n : ℕ} {entries : List DirectoryEntry} {keys : List Text}
    (hmeta : ∀ key ∈ keys, metadataExists key = true) (hn : entries.length < n) :
    scanKeys metadataExists pre d marker n entries keys =
      (collapsed pre d marker entries keys).take n := by
  induction keys generalizing entries with
  | nil => simp [scanKeys, collapsed, List.take_of_length_le hn.le]
  | cons key keys ih =>
    have hrest : ∀ k ∈ keys, metadataExists k = true := fun k hk ↦
      hmeta k (List.mem_cons_of_mem _ hk)
    have hexists : ((entryOf pre d key).kind = .object && !metadataExists (entryOf pre d key).path)
        = false := by
      cases hk : (entryOf pre d key).kind with
      | commonPrefix => simp
      | object => simp [← key_of_object hk, hmeta key (List.mem_cons_self ..)]
    simp only [scanKeys, collapsed, hexists]
    split
    · exact ih hrest hn
    · simp only [Bool.false_eq_true, if_false]
      split
      · next hfull =>
        refine (take_of_isPrefix (isPrefix_collapsed ..) ?_).symm
        simp only [List.length_append, List.length_cons, List.length_nil] at hfull ⊢
        omega
      · next hmore => exact ih hrest (by omega)

theorem scanBatches_eq {ix : BucketIndex} {n batch rounds : ℕ} {scanMarker : Option Text}
    {entries : List DirectoryEntry}
    (hmeta : ∀ key, ix.objects[key]?.isSome → metadataExists key = true) (hbatch : 1 ≤ batch)
    (hrounds : (after id scanMarker (keysBelow ix (some pre))).length < rounds)
    (hn : entries.length < n) :
    scanBatches ix metadataExists pre d marker n batch rounds scanMarker entries =
      (collapsed pre d marker entries (after id scanMarker (keysBelow ix (some pre)))).take n := by
  induction rounds generalizing scanMarker entries with
  | zero => omega
  | succ rounds ih =>
    generalize hrem : after id scanMarker (keysBelow ix (some pre)) = rem at hrounds
    have hkeys : ix.listPrefixMarker (some pre) scanMarker (some batch) = rem.take batch := by
      rw [listPrefixMarker_eq, hrem, Nat.max_eq_left hbatch]
    have hmem : ∀ key ∈ rem.take batch, metadataExists key = true := by
      intro key hkey
      have hk := List.mem_of_mem_take hkey
      rw [← hrem] at hk
      have hk' := (List.mem_filter.1 (List.mem_filter.1 hk).1).1
      exact hmeta key (Table.mem_keys.1 hk')
    simp only [scanBatches, hkeys]
    by_cases hempty : rem = []
    · simp [hempty, collapsed, List.take_of_length_le hn.le]
    have htake : (rem.take batch).isEmpty = false := by
      cases rem with
      | nil => exact absurd rfl hempty
      | cons a l =>
        obtain ⟨b, rfl⟩ : ∃ b, batch = b + 1 := ⟨batch - 1, by omega⟩
        rfl
    have hsplit : collapsed pre d marker entries rem =
        collapsed pre d marker (collapsed pre d marker entries (rem.take batch))
          (rem.drop batch) := by
      rw [← collapsed_append, List.take_append_drop]
    rw [scanKeys_eq hmem hn, htake]
    simp only [Bool.false_eq_true, if_false, List.length_take, Bool.or_eq_true, decide_eq_true_eq]
    split
    · next hstop =>
      rw [hsplit]
      obtain ⟨t, ht⟩ := isPrefix_collapsed pre d marker
        (collapsed pre d marker entries (rem.take batch)) (rem.drop batch)
      rcases hstop with hfull | hend
      · rw [← ht, List.take_append_of_le_length (by omega)]
      · rw [List.drop_of_length_le (by omega)]
        rfl
    · next hgo =>
      push Not at hgo
      have hall : (collapsed pre d marker entries (rem.take batch)).take n =
          collapsed pre d marker entries (rem.take batch) := List.take_of_length_le (by omega)
      have hlen : rem.length ≠ 0 := by simpa using hempty
      -- The last key of the batch is the marker of the next one.
      obtain ⟨a, x, hax⟩ : ∃ a x, rem.take batch = a ++ [x] :=
        ⟨_, _, (List.dropLast_append_getLast (by simpa using htake)).symm⟩
      have hnext : after id (some x) (keysBelow ix (some pre)) = rem.drop batch := by
        refine after_of_append (a := a) (pairwise_keysBelow ix _) scanMarker ?_
        calc after id scanMarker (keysBelow ix (some pre)) = rem := hrem
          _ = rem.take batch ++ rem.drop batch := (List.take_append_drop batch rem).symm
          _ = a ++ x :: rem.drop batch := by rw [hax, List.append_assoc]; rfl
      have hlast : (rem.take batch).getLast? = some x := by simp [hax]
      rw [hall, hlast, ih (by rw [hnext, List.length_drop]; omega) (by omega), hnext, hsplit]

/-- What a scan collects is sorted, because collapsing is monotone. -/
theorem pairwise_collapsed {entries : List DirectoryEntry} {keys : List Text}
    (hkeys : keys.Pairwise (· < ·)) (hpre : ∀ key ∈ keys, pre <+: key)
    (hentries : entries.Pairwise fun x y ↦ x.path < y.path)
    (hle : ∀ x ∈ entries, ∀ key ∈ keys, x.path ≤ (entryOf pre d key).path) :
    (collapsed pre d marker entries keys).Pairwise fun x y ↦ x.path < y.path := by
  induction keys generalizing entries with
  | nil => exact hentries
  | cons key keys ih =>
    rw [List.pairwise_cons] at hkeys
    have hpre' : ∀ k ∈ keys, pre <+: k := fun k hk ↦ hpre k (List.mem_cons_of_mem _ hk)
    have hle' : ∀ x ∈ entries, ∀ k ∈ keys, x.path ≤ (entryOf pre d k).path := fun x hx k hk ↦
      hle x hx k (List.mem_cons_of_mem _ hk)
    simp only [collapsed]
    split
    · exact ih hkeys.2 hpre' hentries hle'
    · next hnew =>
      simp only [Bool.or_eq_true, not_or] at hnew
      -- The last entry differs from the new one, and all others are before the last one.
      have hlt : ∀ x ∈ entries, x.path < (entryOf pre d key).path := by
        intro x hx
        refine lt_of_le_of_ne (hle x hx key (List.mem_cons_self ..)) fun heq ↦ hnew.2 ?_
        obtain ⟨init, last, rfl⟩ : ∃ init last, entries = init ++ [last] :=
          ⟨_, _, (List.dropLast_append_getLast (List.ne_nil_of_mem hx)).symm⟩
        have hlast := hle last (by simp) key (List.mem_cons_self ..)
        rcases List.mem_append.1 hx with hxi | hxl
        · have hxlast := (List.pairwise_append.1 hentries).2.2 x hxi last (by simp)
          exact absurd (heq ▸ hxlast) (not_lt.2 hlast)
        · obtain rfl : x = last := by simpa using hxl
          simpa using heq
      refine ih hkeys.2 hpre' ?_ ?_
      · rw [List.pairwise_append]
        exact ⟨hentries, List.pairwise_singleton _ _, fun x hx y hy ↦ by
          rw [List.mem_singleton.1 hy]; exact hlt x hx⟩
      · intro x hx k hk
        rcases List.mem_append.1 hx with hx | hx
        · exact hle' x hx k hk
        · rw [List.mem_singleton.1 hx, path_entryOf, path_entryOf]
          exact collapse_le_collapse (hpre' k hk) (hkeys.1 k hk).le

theorem mem_collapsed {entries : List DirectoryEntry} {keys : List Text}
    (hpre : ∀ key ∈ keys, pre <+: key)
    (hentries : ∀ x ∈ entries, ∃ key, pre <+: key ∧ entryOf pre d key = x) {e : DirectoryEntry} :
    e ∈ collapsed pre d marker entries keys ↔
      e ∈ entries ∨ ∃ key ∈ keys, entryOf pre d key = e ∧ ∀ m ∈ marker, m < e.path := by
  induction keys generalizing entries with
  | nil => simp [collapsed]
  | cons key keys ih =>
    have hkey := hpre key (List.mem_cons_self ..)
    have hpre' : ∀ k ∈ keys, pre <+: k := fun k hk ↦ hpre k (List.mem_cons_of_mem _ hk)
    simp only [collapsed]
    split
    · next hskip =>
      rw [ih hpre' hentries]
      simp only [List.mem_cons, exists_eq_or_imp]
      -- A skipped entry is not after the marker, or it is there already.
      have hold : entryOf pre d key = e ∧ (∀ m ∈ marker, m < e.path) → e ∈ entries := by
        rintro ⟨rfl, hm⟩
        rcases Bool.or_eq_true_iff.1 hskip with h | h
        · cases marker with
          | none => simp at h
          | some m =>
            have h1 : ¬ m < (entryOf pre d key).path := by simpa using h
            exact absurd (hm m rfl) h1
        · cases hlast : entries.getLast? with
          | none => simp [hlast] at h
          | some x =>
            have hx := List.mem_of_getLast? hlast
            obtain ⟨k, hk, rfl⟩ := hentries x hx
            rwa [entryOf_eq hk hkey (by simpa [hlast] using h)] at hx
      constructor
      · rintro (h | h)
        · exact .inl h
        · exact .inr (.inr h)
      · rintro (h | h | h)
        · exact .inl h
        · exact .inl (hold h)
        · exact .inr h
    · next hnew =>
      simp only [Bool.or_eq_true, not_or] at hnew
      have hmarker : ∀ m ∈ marker, m < (entryOf pre d key).path := by
        rintro m ⟨⟩
        simpa using hnew.1
      rw [ih hpre']
      · simp only [List.mem_append, List.mem_cons, List.not_mem_nil, or_false, exists_eq_or_imp]
        constructor
        · rintro ((h | rfl) | h)
          · exact .inl h
          · exact .inr (.inl ⟨rfl, hmarker⟩)
          · exact .inr (.inr h)
        · rintro (h | ⟨rfl, -⟩ | h)
          · exact .inl (.inl h)
          · exact .inl (.inr rfl)
          · exact .inr h
      · intro x hx
        rcases List.mem_append.1 hx with hx | hx
        · exact hentries x hx
        · exact ⟨key, hkey, (List.mem_singleton.1 hx).symm⟩

end Scan

/-! ### Both walks return a piece of the listing -/

/-- The entries of the keys below a prefix, sorted by their paths, each once. -/
def listing (ix : BucketIndex) (pre : Option Text) (delimiter : Option Text) :
    List DirectoryEntry :=
  match delimiter.filter (!·.isEmpty) with
  | some delimiter => collapsed (pre.getD []) delimiter none [] (keysBelow ix (some (pre.getD [])))
  | none => (keysBelow ix pre).map fun key ↦ { path := key, kind := .object }

section Listing

variable {ix : BucketIndex} {metadataExists : Text → Bool} {pre d : Text} {marker : Option Text}

theorem isPrefix_of_mem_keysBelow {key : Text} (h : key ∈ keysBelow ix (some pre)) : pre <+: key := by
  have := (List.mem_filter.1 h).2
  simpa using this

theorem mem_keysBelow {key : Text} {pre : Option Text} :
    key ∈ keysBelow ix pre ↔ ix.objects[key]?.isSome ∧ pre.all (·.isPrefixOf key) := by
  rw [keysBelow, List.mem_filter, Table.mem_keys]

/-- What a scan that begins at a marker collects is what a scan of all keys collects after it. -/
theorem collapsed_after (ix : BucketIndex) (pre d : Text) (marker : Option Text) :
    collapsed pre d marker [] (after id marker (keysBelow ix (some pre))) =
      after (·.path) marker (collapsed pre d none [] (keysBelow ix (some pre))) := by
  have hsub : ∀ key ∈ after id marker (keysBelow ix (some pre)), pre <+: key := fun key hkey ↦
    isPrefix_of_mem_keysBelow (List.mem_filter.1 hkey).1
  have hall : ∀ key ∈ keysBelow ix (some pre), pre <+: key := fun _ ↦ isPrefix_of_mem_keysBelow
  refine eq_of_mem_iff
    (pairwise_collapsed (pairwise_after (pairwise_keysBelow ix _)) hsub .nil (by simp))
    (pairwise_after (pairwise_collapsed (pairwise_keysBelow ix _) hall .nil (by simp))) fun e ↦ ?_
  rw [mem_collapsed hsub (by simp), mem_after, mem_collapsed hall (by simp)]
  simp only [List.not_mem_nil, false_or, mem_after, id]
  constructor
  · rintro ⟨key, ⟨hkey, -⟩, he, hm⟩
    exact ⟨⟨key, hkey, he, by simp⟩, hm⟩
  · rintro ⟨⟨key, hkey, rfl, -⟩, hm⟩
    -- A key is not before the entry that it collapses to.
    exact ⟨key, ⟨hkey, fun m hmem ↦
      (hm m hmem).trans_le (le_of_isPrefix path_entryOf_isPrefix)⟩, rfl, hm⟩

theorem scanDelimitedEntries_eq {n : ℕ}
    (hmeta : ∀ key, ix.objects[key]?.isSome → metadataExists key = true) (hn : 1 ≤ n) :
    scanDelimitedEntries ix metadataExists pre d marker n =
      (after (·.path) marker (collapsed pre d none [] (keysBelow ix (some pre)))).take n := by
  rw [scanDelimitedEntries, scanBatches_eq hmeta (le_max_left ..) _ hn, collapsed_after]
  calc (after id marker (keysBelow ix (some pre))).length
      ≤ (keysBelow ix (some pre)).length := List.length_filter_le _ _
    _ ≤ ix.objects.keys.length := List.length_filter_le _ _
    _ < ix.objects.size + 1 := by rw [Std.ExtTreeMap.length_keys]; omega

theorem listChildEntries_eq {n : ℕ} (hix : ix.Consistent) (hdir : IsDir pre) :
    ix.listChildEntries pre marker (some n) =
      (after (·.path) marker (collapsed pre ['/'] none [] (keysBelow ix (some pre)))).take
        (max n 1) := by
  have hall : ∀ key ∈ keysBelow ix (some pre), pre <+: key := fun _ ↦ isPrefix_of_mem_keysBelow
  -- The children of the directory are the entries of the listing.
  have hlist : ((ix.children[pre]?.getD ∅).toList.map fun x ↦
      ({ path := x.1, kind := x.2 } : DirectoryEntry)) =
      collapsed pre ['/'] none [] (keysBelow ix (some pre)) := by
    refine eq_of_mem_iff ?_
      (pairwise_collapsed (pairwise_keysBelow ix _) hall .nil (by simp)) fun e ↦ ?_
    · exact (pairwise_toList _).map _ fun _ _ h ↦ h
    · rw [mem_collapsed hall (by simp)]
      simp only [List.mem_map, Prod.exists, Std.ExtTreeMap.mem_toList_iff_getElem?_eq_some,
        hix pre hdir, List.not_mem_nil, false_or, mem_keysBelow, Option.all_some,
        List.isPrefixOf_iff_prefix]
      constructor
      · rintro ⟨path, kind, ⟨key, hkey, hp, he⟩, rfl⟩
        exact ⟨key, ⟨hkey, hp⟩, he, by simp⟩
      · rintro ⟨key, ⟨hkey, hp⟩, rfl, -⟩
        exact ⟨_, _, ⟨key, hkey, hp, rfl⟩, rfl⟩
  have hsorted : (collapsed pre ['/'] none [] (keysBelow ix (some pre))).Pairwise
      fun x y ↦ x.path < y.path :=
    pairwise_collapsed (pairwise_keysBelow ix (some pre)) hall .nil (by simp)
  rw [← hlist] at hsorted ⊢
  unfold BucketIndex.listChildEntries
  cases hc : ix.children[pre]? with
  | none => simp [after]
  | some children =>
    rw [hc] at hsorted
    simp only [Option.getD_some] at hsorted ⊢
    rw [collect_eq (by simp), takeWhile_eq_filter (List.pairwise_of_forall fun _ _ _ ↦ rfl),
      List.filter_true]
    simp only [List.nil_append, List.length_nil, Nat.sub_zero]
    congr 1
    cases marker with
    | none => simp
    | some m =>
      dsimp only
      rw [dropWhile_eq_filter (hsorted.imp fun hab h ↦ ?_), after]
      · exact List.filter_congr fun e _ ↦ Bool.eq_iff_iff.2 (by simp)
      · simp only [Bool.not_eq_true', decide_eq_false_iff_not, not_lt] at h ⊢
        exact hab.le.trans h

end Listing

/-- **The children tree answers as the scan does**, whatever was inserted and removed before. -/
theorem list_child_entries_eq_scan (ops : List IndexOp) (bucket : String) (pre : Text)
    (hpre : pre = [] ∨ pre.getLast? = some '/') (marker : Option Text) (limit : ℕ)
    (hlimit : 1 ≤ limit) (metadataExists : Text → Bool)
    (hmeta : ∀ key, ((LockFreeIndex.run ops).bucketIndex bucket).objects[key]?.isSome →
      metadataExists key = true) :
    ((LockFreeIndex.run ops).bucketIndex bucket).listChildEntries pre marker (some limit) =
      scanDelimitedEntries ((LockFreeIndex.run ops).bucketIndex bucket) metadataExists pre ['/']
        marker limit := by
  have hdir : IsDir pre := by
    refine hpre.imp_right fun h ↦ ?_
    obtain ⟨q, hq⟩ := List.getLast?_eq_some_iff.1 h
    exact ⟨q, hq⟩
  rw [scanDelimitedEntries_eq hmeta hlimit,
    listChildEntries_eq (LockFreeIndex.consistent_bucketIndex ops bucket) hdir,
    Nat.max_eq_left hlimit]

theorem list_child_entries_eq_scan_nested :
    ((LockFreeIndex.run [.insert "b" "a/b".toList, .insert "b" "c".toList]).bucketIndex
      "b").listChildEntries [] none (some 1) =
    scanDelimitedEntries ((LockFreeIndex.run [.insert "b" "a/b".toList,
      .insert "b" "c".toList]).bucketIndex "b") (fun _ ↦ true) [] ['/'] none 1 :=
  list_child_entries_eq_scan _ "b" [] (.inl rfl) none 1 le_rfl _ fun _ _ ↦ rfl

/-- Asked for no entries at all, the children tree still returns one after the marker, while the
scan gives up after a first batch that collapses into the marker. -/
theorem limit_zero_differs : ¬ ∀ (ops : List IndexOp) (bucket : String) (pre : Text)
    (marker : Option Text) (limit : ℕ), (pre = [] ∨ pre.getLast? = some '/') →
    ((LockFreeIndex.run ops).bucketIndex bucket).listChildEntries pre marker (some limit) =
      scanDelimitedEntries ((LockFreeIndex.run ops).bucketIndex bucket) (fun _ ↦ true) pre ['/']
        marker limit := by
  intro h
  have hcase := h [.insert "b" "a/b".toList, .insert "b" "c".toList] "b" [] (some "a/".toList) 0
    (.inl rfl)
  revert hcase
  decide

end Sqrzl
