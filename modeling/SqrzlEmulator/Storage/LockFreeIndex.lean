import Mathlib.Data.Char
import SqrzlEmulator.Data.Collapse
import SqrzlEmulator.Storage.Model

/-!
# The index of the objects

`storage/lockfree_index.rs`: for each bucket the sorted keys of its objects, and a tree of the
children of every directory, that is of every prefix of a key that ends in `/`. A skip map is a
table; walking it from a lower bound is walking its sorted keys.

## The children tree is never rebuilt

`insert` and `remove` update it along the path of one key. `BucketIndex.Consistent` says what it has
to be: **the children of a directory are the entries of the keys below it**, each key collapsed
behind the first `/` after the directory. A key has exactly one entry in each of its parent
directories, so both updates touch one child of each of them; removal also drops the
directories that became empty, and what it drops there has no keys left.
-/

namespace Sqrzl

open Collapse

/-! ### Entries -/

/-- `DirectoryEntryKind` -/
inductive DirectoryEntryKind where
  | object
  | commonPrefix
  deriving DecidableEq

/-- `DirectoryEntry` -/
structure DirectoryEntry where
  path : Text
  kind : DirectoryEntryKind
  deriving DecidableEq

/-- The entry of a key below a prefix. -/
def entryOf (pre delimiter key : Text) : DirectoryEntry :=
  match findSub delimiter (key.drop pre.length) with
  | none => { path := key, kind := .object }
  | some index =>
    { path := key.take (pre.length + index + delimiter.length), kind := .commonPrefix }

/-! ### The index of a bucket -/

/-- `BucketIndex` -/
structure BucketIndex where
  objects : Table Text Unit
  children : Table Text (Table Text DirectoryEntryKind)

namespace BucketIndex

/-- `BucketIndex::new` -/
def new : BucketIndex where
  objects := ∅
  children := (∅ : Table Text (Table Text DirectoryEntryKind)).set [] (some ∅)

/-- The prefixes of `before ++ key` that end in a `/` of `key`. -/
def parentPrefixesFrom (before : Text) : Text → List Text
  | [] => []
  | c :: key =>
    if c = '/' then
      (before ++ ['/']) :: parentPrefixesFrom (before ++ ['/']) key
    else
      parentPrefixesFrom (before ++ [c]) key

/-- `parent_prefixes` -/
def parentPrefixes (key : Text) : List Text := parentPrefixesFrom [] key

/-- `insert_child` -/
def insertChild (children : Table Text (Table Text DirectoryEntryKind)) (parent path : Text)
    (kind : DirectoryEntryKind) : Table Text (Table Text DirectoryEntryKind) :=
  children.set parent (some ((children[parent]?.getD ∅).set path (some kind)))

/-- `remove_child` -/
def removeChild (children : Table Text (Table Text DirectoryEntryKind)) (parent path : Text) :
    Table Text (Table Text DirectoryEntryKind) :=
  children.set parent (children[parent]?.map (·.set path none))

/-- The loop of `insert_directory_children`. -/
def insertChildren (key : Text) (children : Table Text (Table Text DirectoryEntryKind)) :
    (parent : Text) → List Text → Table Text (Table Text DirectoryEntryKind)
  | parent, [] => insertChild children parent key .object
  | parent, pre :: prefixes =>
    insertChildren key (insertChild children parent pre .commonPrefix) pre prefixes

/-- `insert_directory_children` -/
def insertDirectoryChildren (ix : BucketIndex) (key : Text) : BucketIndex :=
  { ix with children := insertChildren key ix.children [] (parentPrefixes key) }

/-- `has_object_with_prefix` -/
def hasObjectWithPrefix (objects : Table Text Unit) (pre : Text) : Bool :=
  ((objects.keys.dropWhile (· < pre)).head?).any (pre.isPrefixOf ·)

/-- Each prefix with the one before it. -/
def prefixPairs : (parent : Text) → List Text → List (Text × Text)
  | _, [] => []
  | parent, pre :: prefixes => (parent, pre) :: prefixPairs pre prefixes

/-- `remove_directory_children` -/
def removeDirectoryChildren (ix : BucketIndex) (key : Text) : BucketIndex :=
  let prefixes := parentPrefixes key
  let children := removeChild ix.children (prefixes.getLastD []) key
  { ix with
    children := (prefixPairs [] prefixes).reverse.foldl (fun children pair ↦
      if hasObjectWithPrefix ix.objects pair.2 then
        children
      else
        (removeChild children pair.1 pair.2).set pair.2 none) children }

/-- The index with one more key. -/
def insert (ix : BucketIndex) (key : Text) : BucketIndex :=
  { ix with objects := ix.objects.set key (some ()) }.insertDirectoryChildren key

/-- The index without a key. -/
def remove (ix : BucketIndex) (key : Text) : BucketIndex :=
  if ix.objects[key]?.isSome then
    { ix with objects := ix.objects.set key none }.removeDirectoryChildren key
  else
    ix

/-! ### The walks -/

/-- The loops of the walks: collect what comes, up to the first entry that is not wanted, and up to
a number of entries that is looked at after each of them. -/
def collect {α : Type} (wanted : α → Bool) (max : Option ℕ) (result : List α) : List α → List α
  | [] => result
  | x :: xs =>
    if wanted x then
      if max.any (· ≤ (result ++ [x]).length) then
        result ++ [x]
      else
        collect wanted max (result ++ [x]) xs
    else
      result

/-- `list_prefix_marker` -/
def listPrefixMarker (ix : BucketIndex) (pre marker : Option Text) (maxKeys : Option ℕ) :
    List Text :=
  let current := match pre, marker with
    | some pre, some marker =>
      if marker < pre then
        ix.objects.keys.dropWhile (· < pre)
      else
        ix.objects.keys.dropWhile (!marker < ·)
    | some pre, none => ix.objects.keys.dropWhile (· < pre)
    | none, some marker => ix.objects.keys.dropWhile (!marker < ·)
    | none, none => ix.objects.keys
  collect (fun key ↦ pre.all (·.isPrefixOf key)) maxKeys [] current

/-- `list_child_entries` -/
def listChildEntries (ix : BucketIndex) (parentPrefix : Text) (marker : Option Text)
    (maxEntries : Option ℕ) : List DirectoryEntry :=
  match ix.children[parentPrefix]? with
  | none => []
  | some children =>
    let entries := children.toList.map fun x ↦ ({ path := x.1, kind := x.2 } : DirectoryEntry)
    let current := match marker with
      | some marker => entries.dropWhile (!marker < ·.path)
      | none => entries
    collect (fun _ ↦ true) maxEntries [] current

end BucketIndex

/-! ### The index of all buckets -/

/-- The indexes, by the names of their buckets. -/
abbrev LockFreeIndex : Type := Table String BucketIndex

namespace LockFreeIndex

/-- `get_or_create_bucket` -/
def getOrCreateBucket (ix : LockFreeIndex) (bucket : String) : LockFreeIndex :=
  if ix[bucket]?.isNone then ix.set bucket (some .new) else ix

/-- `LockFreeIndex::insert` -/
def insert (ix : LockFreeIndex) (bucket : String) (key : Text) : LockFreeIndex :=
  let ix := ix.getOrCreateBucket bucket
  ix.set bucket (ix[bucket]?.map (·.insert key))

/-- `LockFreeIndex::remove` -/
def remove (ix : LockFreeIndex) (bucket : String) (key : Text) : LockFreeIndex :=
  ix.set bucket (ix[bucket]?.map (·.remove key))

/-- `clear_bucket` -/
def clearBucket (ix : LockFreeIndex) (bucket : String) : LockFreeIndex :=
  ix.set bucket none

/-- `rebuild` -/
def rebuild (ix : LockFreeIndex) (entries : List (String × List Text)) : LockFreeIndex :=
  entries.foldl (fun ix entry ↦ ix.set entry.1 (some (entry.2.foldl (·.insert ·) .new))) ix

/-- What a bucket holds, also when it has no index yet. -/
def bucketIndex (ix : LockFreeIndex) (bucket : String) : BucketIndex := ix[bucket]?.getD .new

end LockFreeIndex

/-! ### Sorted keys -/

theorem compare_eq_lt_iff (a b : Text) : compare a b = .lt ↔ a < b := by
  rw [List.compare_eq_compareLex]
  induction a generalizing b with
  | nil => cases b <;> simp [List.compareLex_nil_nil, List.compareLex_nil_cons]
  | cons c a ih =>
    cases b with
    | nil => simp [List.compareLex_cons_nil]
    | cons d b =>
      rw [List.compareLex_cons_cons, Ordering.then_eq_lt, compare_lt_iff_lt, compare_eq_iff_eq, ih,
        List.cons_lt_cons_iff]

theorem pairwise_keys {α : Type} (m : Table Text α) : m.keys.Pairwise (· < ·) :=
  (Std.ExtTreeMap.ordered_keys (t := m)).imp (compare_eq_lt_iff _ _).1

theorem pairwise_toList {α : Type} (m : Table Text α) :
    m.toList.Pairwise fun x y ↦ x.1 < y.1 :=
  (Std.ExtTreeMap.ordered_keys_toList (t := m)).imp (compare_eq_lt_iff _ _).1

/-! ### Entries -/

variable {pre d k k' : Text}

theorem path_entryOf : (entryOf pre d k).path = collapse pre d k := by
  unfold entryOf collapse
  cases findSub d (k.drop pre.length) <;> rfl

theorem kind_entryOf : (entryOf pre d k).kind = .commonPrefix ↔ Collapses pre d k := by
  unfold entryOf Collapses
  cases findSub d (k.drop pre.length) <;> simp

/-- The path of an entry tells its kind. -/
theorem entryOf_eq (hk : pre <+: k) (hk' : pre <+: k')
    (h : (entryOf pre d k).path = (entryOf pre d k').path) : entryOf pre d k = entryOf pre d k' := by
  rw [path_entryOf, path_entryOf] at h
  have hiff : Collapses pre d k ↔ Collapses pre d k' :=
    ⟨collapses_of_collapse_eq hk h, collapses_of_collapse_eq hk' h.symm⟩
  rw [← kind_entryOf, ← kind_entryOf] at hiff
  have hkind : (entryOf pre d k).kind = (entryOf pre d k').kind := by
    cases h1 : (entryOf pre d k).kind <;> cases h2 : (entryOf pre d k').kind <;> simp_all
  rw [← path_entryOf, ← path_entryOf] at h
  cases h1 : entryOf pre d k
  cases h2 : entryOf pre d k'
  simp_all

/-- An object stands for itself. -/
theorem key_of_object (h : (entryOf pre d k).kind = .object) : k = (entryOf pre d k).path := by
  have hnot : ¬ Collapses pre d k := by
    rw [← kind_entryOf, h]
    simp
  rw [path_entryOf, collapse_of_not hnot]

theorem isPrefix_path_entryOf (hk : pre <+: k) : pre <+: (entryOf pre d k).path := by
  rw [path_entryOf]
  unfold collapse
  split
  · exact hk
  · refine List.prefix_of_prefix_length_le hk (List.take_prefix _ _) ?_
    have := hk.length_le
    simp only [List.length_take]
    omega

/-- The keys of a common prefix are the keys that begin with it. -/
theorem entryOf_of_isPrefix (hk : pre <+: k) (h : (entryOf pre d k).kind = .commonPrefix)
    (hp : (entryOf pre d k).path <+: k') : entryOf pre d k' = entryOf pre d k := by
  have hk' : pre <+: k' := (isPrefix_path_entryOf hk).trans hp
  refine entryOf_eq hk' hk ?_
  rw [path_entryOf] at hp ⊢
  rw [path_entryOf, (collapse_of_isPrefix hk (kind_entryOf.1 h) hp).1]

theorem path_entryOf_isPrefix : (entryOf pre d k).path <+: k := by
  rw [path_entryOf]
  exact collapse_isPrefix

/-! ### The parents of a key -/

/-- A prefix under which the index keeps children. -/
def IsDir (dir : Text) : Prop := dir = [] ∨ ∃ q, dir = q ++ ['/']

namespace BucketIndex

theorem mem_parentPrefixesFrom {before key dir : Text} :
    dir ∈ parentPrefixesFrom before key ↔ ∃ u v, key = u ++ '/' :: v ∧ dir = before ++ u ++ ['/'] := by
  induction key generalizing before with
  | nil => simp [parentPrefixesFrom]
  | cons c key ih =>
    simp only [parentPrefixesFrom]
    split
    · next hc =>
      subst hc
      rw [List.mem_cons, ih]
      constructor
      · rintro (rfl | ⟨u, v, rfl, rfl⟩)
        · exact ⟨[], key, rfl, by simp⟩
        · exact ⟨'/' :: u, v, rfl, by simp⟩
      · rintro ⟨u, v, h, rfl⟩
        cases u with
        | nil => simp
        | cons c u =>
          obtain ⟨rfl, rfl⟩ : '/' = c ∧ key = u ++ '/' :: v := by simpa using h
          exact .inr ⟨u, v, rfl, by simp⟩
    · next hc =>
      rw [ih]
      constructor
      · rintro ⟨u, v, rfl, rfl⟩
        exact ⟨c :: u, v, rfl, by simp⟩
      · rintro ⟨u, v, h, rfl⟩
        cases u with
        | nil => exact absurd (by simpa using h : c = '/' ∧ _).1 hc
        | cons c' u =>
          obtain ⟨rfl, rfl⟩ : c = c' ∧ key = u ++ '/' :: v := by simpa using h
          exact ⟨u, v, rfl, by simp⟩

/-- The parents of a key are the directories that it lies in. -/
theorem mem_parents {key dir : Text} : dir ∈ [] :: parentPrefixes key ↔ IsDir dir ∧ dir <+: key := by
  rw [List.mem_cons, parentPrefixes, mem_parentPrefixesFrom]
  constructor
  · rintro (rfl | ⟨u, v, rfl, rfl⟩)
    · exact ⟨.inl rfl, List.nil_prefix⟩
    · exact ⟨.inr ⟨u, by simp⟩, ⟨v, by simp⟩⟩
  · rintro ⟨rfl | ⟨q, rfl⟩, ⟨v, rfl⟩⟩
    · exact .inl rfl
    · exact .inr ⟨q, v, by simp, by simp⟩

theorem length_lt_of_mem {before key dir : Text} (h : dir ∈ parentPrefixesFrom before key) :
    before.length < dir.length := by
  obtain ⟨u, v, -, rfl⟩ := mem_parentPrefixesFrom.1 h
  simp only [List.length_append, List.length_cons, List.length_nil]
  omega

theorem findSub_slash_of_notMem {seg : Text} (h : '/' ∉ seg) : findSub ['/'] seg = none := by
  induction seg with
  | nil => simp [findSub]
  | cons c seg ih =>
    simp only [List.mem_cons, not_or] at h
    simp [findSub, List.cons_prefix_cons, h.1, ih h.2]

theorem findSub_slash_append {seg rest : Text} (h : '/' ∉ seg) :
    findSub ['/'] (seg ++ '/' :: rest) = some seg.length := by
  induction seg with
  | nil => simp [findSub]
  | cons c seg ih =>
    simp only [List.mem_cons, not_or] at h
    simp [findSub, List.cons_prefix_cons, h.1, ih h.2]

/-- The entry of a key in its last parent. -/
theorem entryOf_last {parent seg : Text} (h : '/' ∉ seg) :
    entryOf parent ['/'] (parent ++ seg) = ⟨parent ++ seg, .object⟩ := by
  simp [entryOf, findSub_slash_of_notMem h]

/-- The entry of a key in a parent is the next parent. -/
theorem entryOf_next {parent seg rest : Text} (h : '/' ∉ seg) :
    entryOf parent ['/'] (parent ++ seg ++ '/' :: rest) =
      ⟨parent ++ seg ++ ['/'], .commonPrefix⟩ := by
  simp only [entryOf, List.append_assoc, List.drop_left, findSub_slash_append h]
  congr 1
  rw [Nat.add_assoc, List.take_length_add_append,
    show seg ++ '/' :: rest = (seg ++ ['/']) ++ rest by simp, List.take_left' (by simp)]

/-! ### Inserting a key -/

/-- A key has one entry in each of its parents, and that is what is inserted there. -/
theorem getElem?_insertChildren {key rest : Text} (before parent seg : Text)
    (children : Table Text (Table Text DirectoryEntryKind)) (hkey : key = before ++ rest)
    (hbefore : before = parent ++ seg) (hseg : '/' ∉ seg) (dir : Text) :
    (insertChildren key children parent (parentPrefixesFrom before rest))[dir]? =
      if dir = parent ∨ dir ∈ parentPrefixesFrom before rest then
        some ((children[dir]?.getD ∅).set (entryOf dir ['/'] key).path
          (some (entryOf dir ['/'] key).kind))
      else children[dir]? := by
  induction rest generalizing before parent seg children with
  | nil =>
    have hentry : entryOf parent ['/'] key = ⟨key, .object⟩ := by
      rw [hkey, List.append_nil, hbefore, entryOf_last hseg]
    simp only [parentPrefixesFrom, insertChildren, insertChild, Table.getElem?_set,
      List.not_mem_nil, or_false]
    split
    · next h => rw [h, hentry]
    · rfl
  | cons c rest ih =>
    by_cases hc : c = '/'
    · subst hc
      have hentry : entryOf parent ['/'] key = ⟨before ++ ['/'], .commonPrefix⟩ := by
        rw [hkey, hbefore, entryOf_next hseg]
      simp only [parentPrefixesFrom, if_true, insertChildren]
      rw [ih (before ++ ['/']) (before ++ ['/']) [] _ (by simp [hkey]) (by simp) (by simp)]
      simp only [List.mem_cons]
      by_cases hdir : dir = parent
      · subst hdir
        have hne : ¬ (dir = before ++ ['/'] ∨ dir ∈ parentPrefixesFrom (before ++ ['/']) rest) := by
          rintro (h | h)
          · have := congrArg List.length h
            simp [hbefore] at this
          · have hlt := length_lt_of_mem h
            rw [hbefore, List.length_append, List.length_append] at hlt
            omega
        simp [hne, insertChild, hentry]
      · simp [insertChild, hdir]
    · simp only [parentPrefixesFrom, hc, if_false]
      exact ih (before ++ [c]) parent (seg ++ [c]) children (by simp [hkey]) (by simp [hbefore])
        (by simp [hseg, Ne.symm hc])

theorem getElem?_insert_children (ix : BucketIndex) (key dir : Text) :
    (ix.insert key).children[dir]? =
      if dir ∈ [] :: parentPrefixes key then
        some ((ix.children[dir]?.getD ∅).set (entryOf dir ['/'] key).path
          (some (entryOf dir ['/'] key).kind))
      else ix.children[dir]? := by
  simp only [List.mem_cons]
  exact getElem?_insertChildren [] [] [] ix.children rfl rfl (by simp) dir

/-! ### Removing a key -/

/-- Walking from a lower bound, and looking only at the first key, is enough. -/
theorem hasObjectWithPrefix_iff {objects : Table Text Unit} {pre : Text} :
    hasObjectWithPrefix objects pre = true ↔ ∃ key, objects[key]?.isSome ∧ pre <+: key := by
  have hsorted := pairwise_keys objects
  have hdrop : objects.keys.dropWhile (· < pre) = objects.keys.filter fun k ↦ !decide (k < pre) :=
    dropWhile_eq_filter (hsorted.imp fun hab h ↦ by simpa using hab.trans (by simpa using h))
  have hpair := hsorted.filter fun k ↦ !decide (k < pre)
  unfold hasObjectWithPrefix
  rw [← hdrop] at hpair
  have hmem : ∀ k, k ∈ objects.keys.dropWhile (· < pre) ↔ objects[k]?.isSome ∧ pre ≤ k := by
    intro k
    rw [hdrop, List.mem_filter, Table.mem_keys]
    simp
  cases hl : objects.keys.dropWhile (· < pre) with
  | nil =>
    simp only [List.head?_nil, Option.any_none, Bool.false_eq_true, false_iff, not_exists, not_and]
    intro k hk hp
    have := (hmem k).2 ⟨hk, le_of_isPrefix hp⟩
    simp [hl] at this
  | cons x l =>
    have hx := (hmem x).1 (by simp [hl])
    simp only [List.head?_cons, Option.any_some, List.isPrefixOf_iff_prefix]
    constructor
    · exact fun h ↦ ⟨x, hx.1, h⟩
    · rintro ⟨k, hk, hp⟩
      have hkl := (hmem k).2 ⟨hk, le_of_isPrefix hp⟩
      rw [hl] at hkl hpair
      rcases List.mem_cons.1 hkl with rfl | hkl
      · exact hp
      · exact isPrefix_of_le_of_le hx.2 ((List.pairwise_cons.1 hpair).1 k hkl).le hp

/-- The loops of `remove_directory_children`, from the last parent up. -/
def removeChildren (objects : Table Text Unit) (key : Text)
    (children : Table Text (Table Text DirectoryEntryKind)) :
    (parent : Text) → List Text → Table Text (Table Text DirectoryEntryKind)
  | parent, [] => removeChild children parent key
  | parent, pre :: prefixes =>
    let children := removeChildren objects key children pre prefixes
    if hasObjectWithPrefix objects pre then
      children
    else
      (removeChild children parent pre).set pre none

theorem removeDirectoryChildren_eq (ix : BucketIndex) (key : Text) :
    (ix.removeDirectoryChildren key).children =
      removeChildren ix.objects key ix.children [] (parentPrefixes key) := by
  have hloop : ∀ (parent : Text) (prefixes : List Text),
      (prefixPairs parent prefixes).reverse.foldl (fun children pair ↦
        if hasObjectWithPrefix ix.objects pair.2 then children
        else (removeChild children pair.1 pair.2).set pair.2 none)
        (removeChild ix.children (prefixes.getLastD parent) key) =
      removeChildren ix.objects key ix.children parent prefixes := by
    intro parent prefixes
    induction prefixes generalizing parent with
    | nil => rfl
    | cons pre prefixes ih =>
      have hlast : (pre :: prefixes).getLastD parent = prefixes.getLastD pre := by
        cases prefixes <;> rfl
      simp only [prefixPairs, List.reverse_cons, List.foldl_append, List.foldl_cons, List.foldl_nil,
        hlast, ih, removeChildren]
  exact hloop [] (parentPrefixes key)

/-- What is removed from a parent, and which parents are dropped. -/
theorem getElem?_removeChildren {key rest : Text} (before parent seg : Text)
    (objects : Table Text Unit) (children : Table Text (Table Text DirectoryEntryKind))
    (hkey : key = before ++ rest) (hbefore : before = parent ++ seg) (hseg : '/' ∉ seg) (dir : Text) :
    (removeChildren objects key children parent (parentPrefixesFrom before rest))[dir]? =
      if dir ∈ parentPrefixesFrom before rest ∧ hasObjectWithPrefix objects dir = false then none
      else if dir = parent ∨ dir ∈ parentPrefixesFrom before rest then
        if (entryOf dir ['/'] key).kind = .commonPrefix ∧
            hasObjectWithPrefix objects (entryOf dir ['/'] key).path = true then children[dir]?
        else children[dir]?.map (·.set (entryOf dir ['/'] key).path none)
      else children[dir]? := by
  induction rest generalizing before parent seg with
  | nil =>
    have hentry : entryOf parent ['/'] key = ⟨key, .object⟩ := by
      rw [hkey, List.append_nil, hbefore, entryOf_last hseg]
    simp only [parentPrefixesFrom, removeChildren, removeChild, Table.getElem?_set,
      List.not_mem_nil, or_false, false_and, if_false]
    split
    · next h => simp [h, hentry]
    · rfl
  | cons c rest ih =>
    by_cases hc : c = '/'
    · subst hc
      have hentry : entryOf parent ['/'] key = ⟨before ++ ['/'], .commonPrefix⟩ := by
        rw [hkey, hbefore, entryOf_next hseg]
      have hih := ih (before ++ ['/']) (before ++ ['/']) [] (by simp [hkey]) (by simp) (by simp)
      have hparent : parent ≠ before ++ ['/'] ∧
          parent ∉ parentPrefixesFrom (before ++ ['/']) rest := by
        constructor
        · intro h
          have := congrArg List.length h
          simp [hbefore] at this
        · intro h
          have hlt := length_lt_of_mem h
          rw [hbefore, List.length_append, List.length_append] at hlt
          omega
      simp only [parentPrefixesFrom, if_true, removeChildren, List.mem_cons]
      by_cases hdir : dir = parent
      · subst hdir
        cases hh : hasObjectWithPrefix objects (before ++ ['/']) <;>
          simp [hih, hh, hparent, hentry, removeChild]
      · by_cases hd : dir = before ++ ['/']
        · subst hd
          have hself : before ++ ['/'] ∉ parentPrefixesFrom (before ++ ['/']) rest :=
            fun h ↦ lt_irrefl _ (length_lt_of_mem h)
          cases hh : hasObjectWithPrefix objects (before ++ ['/'])
          · simp
          · simp [hih, hh]
        · cases hh : hasObjectWithPrefix objects (before ++ ['/']) <;>
            simp [hih, hd, hdir, removeChild]
    · simp only [parentPrefixesFrom, hc, if_false]
      exact ih (before ++ [c]) parent (seg ++ [c]) (by simp [hkey]) (by simp [hbefore])
        (by simp [hseg, Ne.symm hc])

/-! ### Consistency -/

/-- **The children of a directory are the entries of the keys below it.** -/
def Consistent (ix : BucketIndex) : Prop :=
  ∀ dir, IsDir dir → ∀ path kind, (ix.children[dir]?.getD ∅)[path]? = some kind ↔
    ∃ key, ix.objects[key]?.isSome ∧ dir <+: key ∧ entryOf dir ['/'] key = ⟨path, kind⟩

theorem consistent_new : new.Consistent := by
  intro dir _ path kind
  have hempty : (new.children[dir]?.getD ∅)[path]? = none := by
    simp only [new, Table.getElem?_set]
    split <;> simp
  rw [hempty]
  simp [new]

theorem Consistent.insert {ix : BucketIndex} (h : ix.Consistent) (key : Text) :
    (ix.insert key).Consistent := by
  intro dir hdir path kind
  have hobjects : ∀ k, ((ix.insert key).objects[k]?).isSome ↔ k = key ∨ ix.objects[k]?.isSome := by
    intro k
    by_cases hk : k = key <;> simp [BucketIndex.insert, insertDirectoryChildren, hk]
  rw [getElem?_insert_children]
  simp only [hobjects]
  split
  · next hmem =>
    obtain ⟨-, hpre⟩ := mem_parents.1 hmem
    simp only [Option.getD_some, Table.getElem?_set]
    split
    · next hpath =>
      constructor
      · rintro ⟨⟩
        exact ⟨key, .inl rfl, hpre, by rw [hpath]⟩
      · rintro ⟨k, -, hk, heq⟩
        have hsame := entryOf_eq hk hpre (by rw [heq, hpath])
        rw [← hsame, heq]
    · next hpath =>
      rw [h dir hdir]
      constructor
      · rintro ⟨k, hk, hk'⟩
        exact ⟨k, .inr hk, hk'⟩
      · rintro ⟨k, rfl | hk, hk'⟩
        · exact absurd (by rw [hk'.2]) hpath
        · exact ⟨k, hk, hk'⟩
  · next hmem =>
    rw [h dir hdir]
    constructor
    · rintro ⟨k, hk, hk'⟩
      exact ⟨k, .inr hk, hk'⟩
    · rintro ⟨k, rfl | hk, hk'⟩
      · exact absurd (mem_parents.2 ⟨hdir, hk'.1⟩) hmem
      · exact ⟨k, hk, hk'⟩

theorem Consistent.remove {ix : BucketIndex} (h : ix.Consistent) (key : Text) :
    (ix.remove key).Consistent := by
  unfold BucketIndex.remove
  split
  swap
  · exact h
  intro dir hdir path kind
  generalize hobj : ix.objects.set key none = objects
  have hobjects : ∀ k, objects[k]?.isSome ↔ k ≠ key ∧ ix.objects[k]?.isSome := by
    intro k
    by_cases hk : k = key <;> simp [← hobj, hk]
  have hchildren := getElem?_removeChildren [] [] [] objects ix.children
    (List.nil_append key).symm rfl (by simp) dir
  rw [← parentPrefixes] at hchildren
  rw [removeDirectoryChildren_eq, hchildren]
  simp only [← List.mem_cons]
  show _ ↔ ∃ k, objects[k]?.isSome ∧ dir <+: k ∧ entryOf dir ['/'] k = ⟨path, kind⟩
  -- A key with another entry in the directory is another key.
  have hother : (∀ k, dir <+: k → entryOf dir ['/'] k = ⟨path, kind⟩ → k ≠ key) →
      ((∃ k, ix.objects[k]?.isSome ∧ dir <+: k ∧ entryOf dir ['/'] k = ⟨path, kind⟩) ↔
        ∃ k, objects[k]?.isSome ∧ dir <+: k ∧ entryOf dir ['/'] k = ⟨path, kind⟩) := by
    intro hne
    constructor
    · rintro ⟨k, hk, hp, he⟩
      exact ⟨k, (hobjects k).2 ⟨hne k hp he, hk⟩, hp, he⟩
    · rintro ⟨k, hk, hp, he⟩
      exact ⟨k, ((hobjects k).1 hk).2, hp, he⟩
  split
  · next hgone =>
    have hnone : ¬ ∃ k, objects[k]?.isSome ∧ dir <+: k := by
      rw [← hasObjectWithPrefix_iff, hgone.2]
      simp
    constructor
    · intro hf
      simp at hf
    · rintro ⟨k, hk, hp, -⟩
      exact absurd ⟨k, hk, hp⟩ hnone
  · split
    · next hmem =>
      obtain ⟨-, hpre⟩ := mem_parents.1 hmem
      split
      · next hkept =>
        rw [h dir hdir]
        constructor
        · rintro ⟨k, hk, hp, he⟩
          by_cases hkey : k = key
          · -- The key goes, but its common prefix has other keys.
            subst hkey
            obtain ⟨k', hk', hp'⟩ := hasObjectWithPrefix_iff.1 hkept.2
            exact ⟨k', hk', (isPrefix_path_entryOf hpre).trans hp',
              (entryOf_of_isPrefix hpre hkept.1 hp').trans he⟩
          · exact ⟨k, (hobjects k).2 ⟨hkey, hk⟩, hp, he⟩
        · rintro ⟨k, hk, hp, he⟩
          exact ⟨k, ((hobjects k).1 hk).2, hp, he⟩
      · next hlast =>
        by_cases hpath : path = (entryOf dir ['/'] key).path
        · have hnone : ¬ ∃ k, objects[k]?.isSome ∧ dir <+: k ∧
              entryOf dir ['/'] k = ⟨path, kind⟩ := by
            rintro ⟨k, hk, hp, he⟩
            have hsame : entryOf dir ['/'] k = entryOf dir ['/'] key :=
              entryOf_eq hp hpre (by rw [he, hpath])
            cases hkind : (entryOf dir ['/'] key).kind with
            | object =>
              have h1 := key_of_object hkind
              have h2 := key_of_object (hsame ▸ hkind)
              exact ((hobjects k).1 hk).1 (by rw [h2, hsame, ← h1])
            | commonPrefix =>
              refine hlast ⟨hkind, hasObjectWithPrefix_iff.2 ⟨k, hk, ?_⟩⟩
              rw [← hsame]
              exact path_entryOf_isPrefix
          cases hc : ix.children[dir]? <;> simp [hpath] <;> simpa [hpath] using hnone
        · have hget : ((ix.children[dir]?.map (·.set (entryOf dir ['/'] key).path none)).getD
              ∅)[path]? = (ix.children[dir]?.getD ∅)[path]? := by
            cases ix.children[dir]? <;> simp [hpath]
          rw [hget, h dir hdir]
          exact hother fun k _ he hk ↦ hpath (by rw [← hk, he])
    · next hmem =>
      rw [h dir hdir]
      exact hother fun k hp _ hk ↦ hmem (mem_parents.2 ⟨hdir, hk ▸ hp⟩)

end BucketIndex

/-! ### Reachable indexes -/

/-- The operations on an index. -/
inductive IndexOp where
  | insert (bucket : String) (key : Text)
  | remove (bucket : String) (key : Text)
  | getOrCreateBucket (bucket : String)
  | clearBucket (bucket : String)
  | rebuild (entries : List (String × List Text))

namespace LockFreeIndex

/-- Run an operation. -/
def apply (ix : LockFreeIndex) : IndexOp → LockFreeIndex
  | .insert bucket key => ix.insert bucket key
  | .remove bucket key => ix.remove bucket key
  | .getOrCreateBucket bucket => ix.getOrCreateBucket bucket
  | .clearBucket bucket => ix.clearBucket bucket
  | .rebuild entries => ix.rebuild entries

/-- The index after some operations. -/
def run (ops : List IndexOp) : LockFreeIndex := ops.foldl apply ∅

/-- The children trees of all buckets are consistent. -/
def Consistent (ix : LockFreeIndex) : Prop :=
  ∀ (bucket : String) (b : BucketIndex), ix[bucket]? = some b → b.Consistent

variable {ix : LockFreeIndex}

theorem Consistent.set (h : ix.Consistent) {bucket : String} {b : Option BucketIndex}
    (hb : ∀ x, b = some x → x.Consistent) : Consistent (Table.set ix bucket b) := by
  intro bucket' x hx
  rw [Table.getElem?_set] at hx
  split at hx
  · exact hb x hx
  · exact h bucket' x hx

theorem Consistent.getOrCreateBucket (h : ix.Consistent) (bucket : String) :
    (ix.getOrCreateBucket bucket).Consistent := by
  unfold LockFreeIndex.getOrCreateBucket
  split
  · exact h.set (by rintro _ ⟨⟩; exact BucketIndex.consistent_new)
  · exact h

theorem consistent_foldl_insert (keys : List Text) {b : BucketIndex} (hb : b.Consistent) :
    (keys.foldl (·.insert ·) b).Consistent := by
  induction keys generalizing b with
  | nil => exact hb
  | cons key keys ih => exact ih (hb.insert key)

theorem Consistent.rebuild (h : ix.Consistent) (entries : List (String × List Text)) :
    (ix.rebuild entries).Consistent := by
  unfold LockFreeIndex.rebuild
  induction entries generalizing ix with
  | nil => exact h
  | cons entry entries ih =>
    refine ih (h.set ?_)
    rintro _ ⟨⟩
    exact consistent_foldl_insert entry.2 BucketIndex.consistent_new

theorem Consistent.apply (h : ix.Consistent) (op : IndexOp) : (ix.apply op).Consistent := by
  cases op with
  | insert bucket key =>
    have h' := h.getOrCreateBucket bucket
    refine h'.set fun x hx ↦ ?_
    obtain ⟨b, hb, rfl⟩ := Option.map_eq_some_iff.1 hx
    exact (h' _ _ hb).insert key
  | remove bucket key =>
    refine h.set fun x hx ↦ ?_
    obtain ⟨b, hb, rfl⟩ := Option.map_eq_some_iff.1 hx
    exact (h _ _ hb).remove key
  | getOrCreateBucket bucket => exact h.getOrCreateBucket bucket
  | clearBucket bucket => exact h.set (by simp)
  | rebuild entries => exact h.rebuild entries

/-- **The children trees are consistent after every sequence of operations.** -/
theorem consistent_run (ops : List IndexOp) : (run ops).Consistent := by
  have hrun : ∀ ix : LockFreeIndex, ix.Consistent → (ops.foldl apply ix).Consistent := by
    induction ops with
    | nil => exact fun _ h ↦ h
    | cons op ops ih => exact fun ix h ↦ ih _ (h.apply op)
  exact hrun ∅ (by intro bucket b hb; simp at hb)

theorem consistent_bucketIndex (ops : List IndexOp) (bucket : String) :
    ((run ops).bucketIndex bucket).Consistent := by
  unfold bucketIndex
  cases hb : (run ops)[bucket]? with
  | none => exact BucketIndex.consistent_new
  | some b => exact consistent_run ops bucket b hb

end LockFreeIndex

end Sqrzl
