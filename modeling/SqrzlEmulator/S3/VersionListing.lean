import SqrzlEmulator.Lifecycle.Versions
import SqrzlEmulator.S3.ObjectListing
import SqrzlEmulator.S3.Ranges
import Mathlib.Data.String.Basic

/-!
# Listing versions

`list_object_versions` of `server/handlers/bucket/get.rs`. The versions below the prefix are sorted
by their keys, the latest first, and versions of one time by their ids (`listRank`); the first of
each key is marked as the latest one (`markLatest`), and a page is cut out behind the version that
the markers name.

**Every version is shown once** (`exists_walk`): ids are different below a key, so that the markers
name one place in the list.

**What is marked is not always what is current.** The object that a key holds is the one written
last, and among delete markers `current_delete_marker` takes the largest id of the latest time,
while the listing begins with the smallest. So the two agree exactly if no version of a key disputes
its place to the current one (`Undisputed`, `list_object_versions_complete_iff`).
-/

namespace Sqrzl

open Collapse Paging

/-! ### The versions of a bucket -/

/-- What is found in the directory of an object, of keys below a prefix. -/
def KeyRecord.scanned (pre : Text) (e : KeyRecord) : List Object :=
  (e.metadata.filter fun o ↦ pre.isPrefixOf o.key && o.versionId.isSome).toList ++
    e.versions.toList.filterMap fun version ↦
      if pre.isPrefixOf version.2.2.key then some version.2.2 else none

/-- `list_object_versions` of the storage, in a bucket that exists. -/
def Bucket.listObjectVersions (pre : Option Text) (B : Bucket) : List Object :=
  let versions := B.objects.toList.flatMap fun entry ↦ entry.2.scanned (pre.getD [])
  let sorted := versions.mergeSort fun a b ↦
    if a.key = b.key then (compare a.versionId b.versionId).isLE else decide (a.key ≤ b.key)
  sorted.destutter fun left right ↦ ¬ (left.key = right.key ∧ left.versionId = right.versionId)

/-- A version of a bucket, of a key below a prefix. -/
def Bucket.HasVersion (pre : Text) (o : Object) (B : Bucket) : Prop :=
  ∃ key id data, pre <+: key ∧ (B.record key).entry id = some (data, o)

variable {B : Bucket} {pre key : Text} {e : KeyRecord} {o : Object}

/-- The directory of an object has the versions of its key. -/
theorem KeyRecord.Keyed.scanned_eq (h : e.Keyed key) :
    e.scanned pre = if pre <+: key then e.listed key else [] := by
  have hcurrent : e.metadata.filter (fun o ↦ pre.isPrefixOf o.key && o.versionId.isSome) =
      if pre <+: key then e.metadata.filter fun o ↦ o.key = key && o.versionId.isSome
      else none := by
    cases hc : e.current with
    | none => simp [KeyRecord.metadata, hc]
    | some st =>
      obtain ⟨hkey, -⟩ := h.current st.1 st.2 hc
      by_cases hpre : pre <+: key
      · simp [KeyRecord.metadata, hc, hkey, hpre, Option.filter]
      · simp [KeyRecord.metadata, hc, hkey, hpre, Option.filter]
  have hkept : (e.versions.toList.filterMap fun version ↦
      if pre.isPrefixOf version.2.2.key then some version.2.2 else none) =
        if pre <+: key then e.versions.toList.filterMap fun version ↦
          if version.2.2.key = key then some version.2.2 else none else [] := by
    have hkey : ∀ version ∈ e.versions.toList, version.2.2.key = key := by
      intro version hversion
      exact (h.version version.1 version.2.1 version.2.2
        (Std.ExtTreeMap.mem_toList_iff_getElem?_eq_some.1 hversion)).1
    by_cases hpre : pre <+: key
    · rw [if_pos hpre]
      refine List.filterMap_congr fun version hversion ↦ ?_
      rw [hkey version hversion, if_pos rfl, if_pos (List.isPrefixOf_iff_prefix.2 hpre)]
    · rw [if_neg hpre]
      refine List.filterMap_eq_nil_iff.2 fun version hversion ↦ ?_
      rw [hkey version hversion, if_neg fun hp ↦ hpre (List.isPrefixOf_iff_prefix.1 hp)]
  rw [KeyRecord.scanned, KeyRecord.listed, hcurrent, hkept]
  split <;> rfl

theorem KeyRecord.Keyed.mem_scanned (h : e.Keyed key) :
    o ∈ e.scanned pre ↔ pre <+: key ∧ o ∈ e.list key := by
  rw [h.scanned_eq, h.list_eq, List.mem_mergeSort]
  split
  · next hpre => rw [and_iff_right hpre]
  · next hpre => exact iff_of_false List.not_mem_nil fun hboth ↦ hpre hboth.1

theorem KeyRecord.Keyed.key_of_mem_list (h : e.Keyed key) (ho : o ∈ e.list key) : o.key = key := by
  obtain ⟨id, data, hentry⟩ := h.mem_list.1 ho
  exact (h.versionId_of_entry hentry).2.1

theorem KeyRecord.Keyed.eq_of_versionId {o' : Object} (h : e.Keyed key) (ho : o ∈ e.list key)
    (ho' : o' ∈ e.list key) (hid : o.versionId = o'.versionId) : o = o' := by
  obtain ⟨id, data, hentry⟩ := h.mem_list.1 ho
  obtain ⟨id', data', hentry'⟩ := h.mem_list.1 ho'
  have heq : some id = some id' :=
    (h.versionId_of_entry hentry).1.symm.trans (hid.trans (h.versionId_of_entry hentry').1)
  rw [Option.some.inj heq, hentry'] at hentry
  exact (congrArg Prod.snd (Option.some.inj hentry)).symm

variable (hkeyed : ∀ key, (B.record key).Keyed key)

include hkeyed

theorem keyed_of_mem {entry : Text × KeyRecord} (hentry : entry ∈ B.objects.toList) :
    B.record entry.1 = entry.2 ∧ entry.2.Keyed entry.1 := by
  have hrecord : B.record entry.1 = entry.2 := by
    rw [Bucket.record, Std.ExtTreeMap.mem_toList_iff_getElem?_eq_some.1 hentry]
    rfl
  exact ⟨hrecord, hrecord ▸ hkeyed entry.1⟩

/-- Two versions that are found differ in their keys or in their ids. -/
theorem pairwise_scanned : (B.objects.toList.flatMap fun entry ↦ entry.2.scanned pre).Pairwise
    fun l r ↦ ¬ (l.key = r.key ∧ l.versionId = r.versionId) := by
  refine List.pairwise_flatMap.2 ⟨fun entry hentry ↦ ?_, ?_⟩
  · rw [(keyed_of_mem hkeyed hentry).2.scanned_eq]
    split
    · exact (keyed_of_mem hkeyed hentry).2.pairwise_listed.imp fun hne hboth ↦ hne hboth.2
    · exact .nil
  · refine B.objects.distinct_keys_toList.imp_of_mem ?_
    intro entry entry' hentry hentry' hne o ho o' ho' hboth
    have hkey := (keyed_of_mem hkeyed hentry).2.key_of_mem_list
      ((keyed_of_mem hkeyed hentry).2.mem_scanned.1 ho).2
    have hkey' := (keyed_of_mem hkeyed hentry').2.key_of_mem_list
      ((keyed_of_mem hkeyed hentry').2.mem_scanned.1 ho').2
    rw [← hkey, ← hkey', hboth.1] at hne
    exact hne Std.ReflCmp.compare_self

theorem listObjectVersions_eq {pre : Option Text} : B.listObjectVersions pre =
    (B.objects.toList.flatMap fun entry ↦ entry.2.scanned (pre.getD [])).mergeSort fun a b ↦
      if a.key = b.key then (compare a.versionId b.versionId).isLE else decide (a.key ≤ b.key) := by
  refine List.destutter_of_isChain _ _ (List.Pairwise.isChain ?_)
  refine ((List.mergeSort_perm _ _).pairwise_iff fun hne hboth ↦ hne ?_).2 (pairwise_scanned hkeyed)
  exact ⟨hboth.1.symm, hboth.2.symm⟩

/-- **What is listed are the versions of the bucket**, each once. -/
theorem mem_listObjectVersions {pre : Option Text} :
    o ∈ B.listObjectVersions pre ↔ B.HasVersion (pre.getD []) o := by
  rw [listObjectVersions_eq hkeyed, List.mem_mergeSort, List.mem_flatMap]
  constructor
  · rintro ⟨entry, hentry, ho⟩
    obtain ⟨hrecord, hkeyed'⟩ := keyed_of_mem hkeyed hentry
    obtain ⟨hpre, hlist⟩ := hkeyed'.mem_scanned.1 ho
    obtain ⟨id, data, hversion⟩ := hkeyed'.mem_list.1 hlist
    exact ⟨entry.1, id, data, hpre, hrecord ▸ hversion⟩
  · rintro ⟨key, id, data, hpre, hversion⟩
    have hmem : (key, B.record key) ∈ B.objects.toList := by
      rw [Std.ExtTreeMap.mem_toList_iff_getElem?_eq_some]
      cases hobject : B.objects[key]? with
      | none =>
        rw [Bucket.record, hobject] at hversion
        simp [KeyRecord.entry] at hversion
      | some e =>
        rw [Bucket.record, hobject]
        rfl
    exact ⟨_, hmem, (hkeyed key).mem_scanned.2 ⟨hpre, (hkeyed key).mem_list.2 ⟨id, data, hversion⟩⟩⟩

omit hkeyed

/-! ### The handler -/

/-- What versions are sorted by: the key, the time, with the latest one first, and the id. -/
def Object.listRank (o : Object) : Text ×ₗ (ℕᵒᵈ ×ₗ WithBot String) :=
  toLex (o.key, toLex (OrderDual.toDual o.lastModified, match o.versionId with
    | some id => (id : WithBot String)
    | none => ⊥))

/-- The metadata of the provider say whether a version is the latest one. -/
def Object.withLatest (isLatest : Bool) (o : Object) : Object :=
  { o with
    providerMetadata := o.providerMetadata.set "s3_is_latest" (some (toString isLatest)) }

/-- What `list_versions_xml` shows as `IsLatest`. -/
def Object.isLatest (o : Object) : Bool := o.providerMetadata["s3_is_latest"]? = some "true"

namespace S3

/-- The loop that marks the first version of each key. -/
def markLatest : (latestKey : Option Text) → List Object → List Object
  | _, [] => []
  | latestKey, version :: versions =>
    if latestKey ≠ some version.key then
      version.withLatest true :: markLatest (some version.key) versions
    else
      version.withLatest false :: markLatest latestKey versions

/-- What `list_versions_xml` is given. -/
structure ListVersionsXml where
  bucket : String
  versions : List Object
  pre : String
  keyMarker : Option String
  versionIdMarker : Option String
  maxKeys : ℕ
  truncated : Bool
  nextKeyMarker : Option Text
  nextVersionIdMarker : Option String

/-- The place of the first version of a page. -/
def startIndex (versions : List Object) (keyMarker versionIdMarker : Option String) :
    Except Refusal ℕ :=
  let behindKey (key : String) := (versions.takeWhile (·.key ≤ key.toList)).length
  match keyMarker, versionIdMarker with
  | none, some _ =>
    .error ⟨400, "InvalidArgument", "A version-id-marker cannot be specified without a key-marker."⟩
  | some key, some version =>
    match versions.findIdx? fun item ↦ item.key = key.toList && item.versionId = some version with
    | some index => .ok (index + 1)
    | none => .ok (behindKey key)
  | some key, none => .ok (behindKey key)
  | none, none => .ok 0

/-- `list_object_versions` -/
def listObjectVersions (C : Codec) (now : Time) (V : Vault) (bucket : String) (req : Request) :
    Except Refusal ListVersionsXml :=
  if foreignHistoryConflict C now bucket V then .error foreignHistoryConflictResponse
  else
    let pre := req.queryParam "prefix"
    let keyMarker := req.queryParam "key-marker"
    let versionIdMarker := req.queryParam "version-id-marker"
    match maxKeysOrError req with
    | .error refusal => .error refusal
    | .ok maxKeys =>
      match V.buckets[bucket]? with
      | none => .error ⟨404, "NoSuchBucket", "Bucket not found"⟩
      | some B =>
        let versions := markLatest none
          ((B.listObjectVersions (pre.map String.toList)).insertionSort (·.listRank ≤ ·.listRank))
        match startIndex versions keyMarker versionIdMarker with
        | .error refusal => .error refusal
        | .ok startIndex =>
          let versions := versions.drop (min startIndex versions.length)
          let truncated := maxKeys < versions.length
          let page := if truncated then versions.take maxKeys else versions
          .ok {
            bucket := bucket
            versions := page
            pre := pre.getD ""
            keyMarker := keyMarker
            versionIdMarker := versionIdMarker
            maxKeys := maxKeys
            truncated := truncated
            nextKeyMarker := if truncated then page.getLast?.map (·.key) else none
            nextVersionIdMarker := if truncated then page.getLast?.bind (·.versionId) else none }

/-! ### The client -/

/-- The markers that a page names, a key and perhaps an id. -/
abbrev VersionMarker : Type := Option (Text × Option String)

/-- The request of the page behind the markers. -/
def atVersionMarker (req : Request) (marker : VersionMarker) : Request :=
  { req with
    query := (req.query.set "key-marker" (marker.map fun m ↦ String.ofList m.1)).set
      "version-id-marker" (marker.bind Prod.snd) }

/-- The markers of the next page. -/
def nextVersionMarker (page : ListVersionsXml) : Option VersionMarker :=
  page.nextKeyMarker.map fun key ↦ some (key, page.nextVersionIdMarker)

/-- The markers behind a version. -/
def versionMark (o : Object) : VersionMarker := some (o.key, o.versionId)

/-! ### The order of a listing -/

/-- The versions of a listing in their order. -/
def sortedVersions (pre : Option Text) (B : Bucket) : List Object :=
  (B.listObjectVersions pre).insertionSort (·.listRank ≤ ·.listRank)

variable {p : Option Text} {o o' : Object} {versions : List Object} {latestKey : Option Text}

/-- Ids are compared as `Option` values of Rust are, with none before all others. -/
theorem compare_versionId : compare o.versionId o'.versionId = .lt ↔
    (match o.versionId with | some id => (id : WithBot String) | none => ⊥) <
      (match o'.versionId with | some id => (id : WithBot String) | none => ⊥) := by
  cases o.versionId with
  | none =>
    cases o'.versionId with
    | none => exact iff_of_false (by decide) (lt_irrefl _)
    | some id' => exact iff_of_true rfl (WithBot.bot_lt_coe id')
  | some id =>
    cases o'.versionId with
    | none => exact iff_of_false (fun hgt ↦ by cases hgt) not_lt_bot
    | some id' =>
      exact (compare_lt_iff_lt (a := id) (b := id')).trans (WithBot.coe_lt_coe (α := String)).symm

theorem listRank_lt_iff : o.listRank < o'.listRank ↔ o.key < o'.key ∨ o.key = o'.key ∧
    (o'.lastModified < o.lastModified ∨ o.lastModified = o'.lastModified ∧
      compare o.versionId o'.versionId = .lt) := by
  rw [compare_versionId]
  exact Prod.Lex.toLex_lt_toLex.trans (or_congr_right (and_congr_right' Prod.Lex.toLex_lt_toLex))

/-- Versions of one rank have one key and one id. -/
theorem eq_of_listRank_eq (h : o.listRank = o'.listRank) :
    o.key = o'.key ∧ o.versionId = o'.versionId := by
  obtain ⟨hkey, hrest⟩ := Prod.mk.inj (toLex.injective h)
  obtain ⟨-, hid⟩ := Prod.mk.inj (toLex.injective hrest)
  refine ⟨hkey, ?_⟩
  cases ho : o.versionId with
  | none =>
    cases ho' : o'.versionId with
    | none => rfl
    | some id' =>
      rw [ho, ho'] at hid
      cases hid
  | some id =>
    cases ho' : o'.versionId with
    | none =>
      rw [ho, ho'] at hid
      cases hid
    | some id' =>
      rw [ho, ho'] at hid
      exact congrArg some (WithBot.coe_inj.1 hid)

theorem mem_sortedVersions (hkeyed : ∀ key, (B.record key).Keyed key) :
    o ∈ sortedVersions p B ↔ B.HasVersion (p.getD []) o :=
  (List.mem_insertionSort _).trans (mem_listObjectVersions hkeyed)

/-- Two versions of a listing differ in their keys or in their ids. -/
theorem distinct_sortedVersions (hkeyed : ∀ key, (B.record key).Keyed key) :
    (sortedVersions p B).Pairwise fun x y ↦ ¬ (x.key = y.key ∧ x.versionId = y.versionId) := by
  have hsymm : ∀ {x y : Object}, ¬ (x.key = y.key ∧ x.versionId = y.versionId) →
      ¬ (y.key = x.key ∧ y.versionId = x.versionId) :=
    fun hne hboth ↦ hne ⟨hboth.1.symm, hboth.2.symm⟩
  rw [sortedVersions, (List.perm_insertionSort _ _).pairwise_iff hsymm,
    listObjectVersions_eq hkeyed, (List.mergeSort_perm _ _).pairwise_iff hsymm]
  exact pairwise_scanned hkeyed

/-- **The versions are in strictly increasing order.** -/
theorem pairwise_sortedVersions (hkeyed : ∀ key, (B.record key).Keyed key) :
    (sortedVersions p B).Pairwise fun x y ↦ x.listRank < y.listRank := by
  have htotal : Std.Total fun x y : Object ↦ x.listRank ≤ y.listRank :=
    ⟨fun x y ↦ le_total x.listRank y.listRank⟩
  have htrans : IsTrans Object fun x y ↦ x.listRank ≤ y.listRank := ⟨fun _ _ _ ↦ le_trans⟩
  have hsorted := List.pairwise_insertionSort (fun x y : Object ↦ x.listRank ≤ y.listRank)
    (B.listObjectVersions p)
  exact (hsorted.and (distinct_sortedVersions hkeyed)).imp fun hboth ↦
    lt_of_le_of_ne hboth.1 fun heq ↦ hboth.2 (eq_of_listRank_eq heq)

/-! ### The marks -/

@[simp] theorem key_withLatest {isLatest : Bool} : (o.withLatest isLatest).key = o.key := rfl

@[simp] theorem versionId_withLatest {isLatest : Bool} :
    (o.withLatest isLatest).versionId = o.versionId := rfl

theorem versionId_eq_of_withLatest {a b : Bool} (h : o.withLatest a = o'.withLatest b) :
    o.versionId = o'.versionId := by
  rw [← versionId_withLatest (o := o), h]
  rfl

@[simp] theorem isLatest_withLatest {isLatest : Bool} :
    (o.withLatest isLatest).isLatest = isLatest := by
  rw [Object.isLatest, Object.withLatest]
  dsimp only
  rw [Table.getElem?_set, if_pos rfl]
  cases isLatest <;> decide

/-- Marks leave the keys and the ids. -/
theorem map_markLatest (latestKey : Option Text) (versions : List Object) :
    (markLatest latestKey versions).map (fun o ↦ (o.key, o.versionId)) =
      versions.map fun o ↦ (o.key, o.versionId) := by
  induction versions generalizing latestKey with
  | nil => rfl
  | cons version versions ih =>
    rw [markLatest]
    split
    · rw [List.map_cons, ih]
      rfl
    · rw [List.map_cons, ih]
      rfl

theorem pairwise_markLatest (R : Text × Option String → Text × Option String → Prop)
    (h : versions.Pairwise fun x y ↦ R (x.key, x.versionId) (y.key, y.versionId)) :
    (markLatest latestKey versions).Pairwise
      fun x y ↦ R (x.key, x.versionId) (y.key, y.versionId) := by
  rw [← List.pairwise_map (f := fun o : Object ↦ (o.key, o.versionId)), map_markLatest,
    List.pairwise_map]
  exact h

theorem exists_of_mem_markLatest (ho : o ∈ markLatest latestKey versions) :
    ∃ version ∈ versions, ∃ isLatest, o = version.withLatest isLatest := by
  induction versions generalizing latestKey with
  | nil => cases ho
  | cons version versions ih =>
    have hcases : (∃ isLatest, o = version.withLatest isLatest) ∨
        ∃ latestKey, o ∈ markLatest latestKey versions := by
      rw [markLatest] at ho
      split at ho
      · exact (List.mem_cons.1 ho).imp (⟨true, ·⟩) (⟨_, ·⟩)
      · exact (List.mem_cons.1 ho).imp (⟨false, ·⟩) (⟨_, ·⟩)
    rcases hcases with hmark | ⟨latestKey', hrest⟩
    · exact ⟨version, List.mem_cons_self, hmark⟩
    · obtain ⟨version', hmem, hmark⟩ := ih hrest
      exact ⟨version', List.mem_cons_of_mem _ hmem, hmark⟩

theorem exists_mem_markLatest (ho : o ∈ versions) :
    ∃ isLatest, o.withLatest isLatest ∈ markLatest latestKey versions := by
  induction versions generalizing latestKey with
  | nil => cases ho
  | cons version versions ih =>
    rcases List.mem_cons.1 ho with rfl | ho
    · rw [markLatest]
      split
      · exact ⟨true, List.mem_cons_self⟩
      · exact ⟨false, List.mem_cons_self⟩
    · rw [markLatest]
      split
      · exact (ih ho).imp fun _ hmem ↦ List.mem_cons_of_mem _ hmem
      · exact (ih ho).imp fun _ hmem ↦ List.mem_cons_of_mem _ hmem

/-- **The first version of a key is marked, and no other one.** -/
theorem filter_markLatest (hsorted : versions.Pairwise fun x y ↦ x.key ≤ y.key)
    (hlatest : ∀ x ∈ versions, ∀ k ∈ latestKey, k ≤ x.key) (key : Text) :
    (markLatest latestKey versions).filter (fun o ↦ o.key = key && o.isLatest) =
      if latestKey = some key then []
      else ((versions.find? (·.key = key)).map (·.withLatest true)).toList := by
  induction versions generalizing latestKey with
  | nil => simp [markLatest]
  | cons version versions ih =>
    obtain ⟨hfirst, hsorted⟩ := List.pairwise_cons.1 hsorted
    have hrest : ∀ x ∈ versions, ∀ k ∈ some version.key, k ≤ x.key := by
      intro x hx k hk
      rw [← Option.some.inj hk]
      exact hfirst x hx
    rw [markLatest]
    by_cases hkey : version.key = key
    · subst hkey
      by_cases hlast : latestKey = some version.key
      · rw [if_neg (not_not.2 hlast), List.filter_cons_of_neg (by simp), hlast, ih hsorted hrest,
          if_pos rfl, if_pos rfl]
      · rw [if_pos hlast, List.filter_cons_of_pos (by simp), ih hsorted hrest, if_pos rfl,
          if_neg hlast, List.find?_cons_of_pos (by simp)]
        rfl
    · have hother : some version.key ≠ some key := fun heq ↦ hkey (Option.some.inj heq)
      have hfind : (version :: versions).find? (·.key = key) = versions.find? (·.key = key) :=
        List.find?_cons_of_neg (by simpa using hkey)
      by_cases hlast : latestKey = some version.key
      · rw [if_neg (not_not.2 hlast), List.filter_cons_of_neg (by simp [hkey]), hlast,
          ih hsorted hrest, hfind]
      · rw [if_pos hlast, List.filter_cons_of_neg (by simp [hkey]), ih hsorted hrest, if_neg hother,
          hfind]
        split
        · next heq =>
          -- the key was passed, and all that follow are beyond it
          have hlt : key < version.key :=
            lt_of_le_of_ne (hlatest version List.mem_cons_self key heq) fun h ↦ hkey h.symm
          rw [List.find?_eq_none.2 fun x hx ↦ ?_]
          · rfl
          · simpa using fun hxkey : x.key = key ↦
              absurd (hlt.trans_le (hfirst x hx)) (hxkey ▸ lt_irrefl _)
        · rfl

/-- The first version of a key is the one with the smallest rank. -/
theorem find?_key_eq_some_iff (hsorted : versions.Pairwise fun x y ↦ x.listRank < y.listRank) :
    versions.find? (·.key = key) = some o ↔ o ∈ versions ∧ o.key = key ∧
      ∀ x ∈ versions, x.key = key → x ≠ o → o.listRank < x.listRank := by
  rw [List.find?_eq_some_iff_append]
  constructor
  · rintro ⟨hkey, before, behind, rfl, hbefore⟩
    refine ⟨by simp, of_decide_eq_true hkey, fun x hx hxkey hne ↦ ?_⟩
    rcases List.mem_append.1 hx with hx | hx
    · exact absurd (decide_eq_true hxkey) (by simpa using hbefore x hx)
    · have hx' := (List.mem_cons.1 hx).resolve_left hne
      exact (List.pairwise_cons.1 (List.pairwise_append.1 hsorted).2.1).1 x hx'
  · rintro ⟨hmem, hkey, hleast⟩
    obtain ⟨before, behind, rfl⟩ := List.append_of_mem hmem
    refine ⟨decide_eq_true hkey, before, behind, rfl, fun x hx ↦ ?_⟩
    have hlt : x.listRank < o.listRank :=
      (List.pairwise_append.1 hsorted).2.2 x hx o List.mem_cons_self
    have hxkey : x.key ≠ key := fun hxkey ↦ lt_asymm hlt <|
      hleast x (List.mem_append_left _ hx) hxkey fun heq ↦ lt_irrefl _ (heq ▸ hlt)
    simpa using hxkey

/-! ### What is current -/

/-- What the storage treats as current: the object that a key holds, or else the delete marker that
`current_delete_marker` selects. -/
def currentVersion (V : Vault) (bucket : String) (key : Text) : Option Object :=
  (V.record bucket key).metadata.or (currentDeleteMarker bucket key V)

/-- **No version disputes its place to the current one.** The object that the key holds has an id,
and each of its other versions is older than it, or as old and with a larger id; or the key holds no
object, and a delete marker is younger than each of the other versions. -/
def Undisputed (key : Text) (e : KeyRecord) : Prop :=
  match e.metadata with
  | some current => current.versionId.isSome ∧ ∀ o ∈ e.list key, o ≠ current →
      o.lastModified < current.lastModified ∨
        o.lastModified = current.lastModified ∧ compare current.versionId o.versionId = .lt
  | none => ∃ marker ∈ e.list key, marker.isDeleteMarker = true ∧
      ∀ o ∈ e.list key, o ≠ marker → o.lastModified < marker.lastModified

/-- **What a client must see**: each version of the bucket once, the versions of a key together, and
for each key exactly one version that is marked as the latest one, which is the current one. -/
structure ShowsEveryVersion (V : Vault) (bucket : String) (B : Bucket) (pre : Text)
    (shown : List Object) : Prop where
  sound : ∀ o ∈ shown, ∃ version isLatest, B.HasVersion pre version ∧
    o = version.withLatest isLatest
  complete : ∀ version, B.HasVersion pre version → ∃ isLatest, version.withLatest isLatest ∈ shown
  once : shown.Pairwise fun x y ↦ ¬ (x.key = y.key ∧ x.versionId = y.versionId)
  grouped : shown.Pairwise fun x y ↦ x.key ≤ y.key
  latest : ∀ key, (∃ o ∈ shown, o.key = key) → ∃ current,
    currentVersion V bucket key = some current ∧
      shown.filter (fun o ↦ o.key = key && o.isLatest) = [current.withLatest true]

variable {V : Vault} {bucket : String}

/-- A version of a key has a smaller rank if it is younger, or as young and with a smaller id. -/
theorem listRank_lt_of_later {x : Object} (hkey : o.key = x.key)
    (h : x.lastModified < o.lastModified ∨
      x.lastModified = o.lastModified ∧ compare o.versionId x.versionId = .lt) :
    o.listRank < x.listRank :=
  listRank_lt_iff.2 (.inr ⟨hkey, h.imp_right fun hboth ↦ ⟨hboth.1.symm, hboth.2⟩⟩)

theorem later_of_listRank_lt {x : Object} (hkey : o.key = x.key) (h : o.listRank < x.listRank) :
    x.lastModified < o.lastModified ∨
      x.lastModified = o.lastModified ∧ compare o.versionId x.versionId = .lt := by
  rcases listRank_lt_iff.1 h with hlt | ⟨-, hlater⟩
  · exact absurd hlt (hkey ▸ lt_irrefl _)
  · exact hlater.imp_right fun hboth ↦ ⟨hboth.1.symm, hboth.2⟩

section Record

variable (hk : e.Keyed key) {first : Object} (hfirst : first ∈ e.list key)
  (hleast : ∀ x ∈ e.list key, x ≠ first → first.listRank < x.listRank)

include hfirst hleast

/-- Whatever has the smallest rank stands first. -/
theorem first_eq (ho : o ∈ e.list key) (h : ∀ x ∈ e.list key, x ≠ o → o.listRank < x.listRank) :
    first = o := by
  by_contra hne
  exact lt_asymm (h first hfirst hne) (hleast o ho fun heq ↦ hne heq.symm)

include hk

/-- **The object of a key stands first** exactly if nothing disputes it. -/
theorem first_eq_object_iff {data : Bytes} (hcurrent : e.current = some (data, o)) :
    first.withLatest true = o.withLatest true ↔ Undisputed key e := by
  have hmetadata : e.metadata = some o := by rw [KeyRecord.metadata, hcurrent]; rfl
  have hlisted : o.versionId.isSome → o ∈ e.list key := by
    intro hid
    obtain ⟨id, hid⟩ := Option.isSome_iff_exists.1 hid
    exact hk.mem_list.2 ⟨id, data, hk.entry_eq_some.2 (.inr ⟨hcurrent, hid⟩)⟩
  rw [Undisputed, hmetadata]
  constructor
  · intro heq
    have hid : first.versionId = o.versionId := versionId_eq_of_withLatest heq
    have hsome : o.versionId.isSome := by
      obtain ⟨id, data', hentry⟩ := hk.mem_list.1 hfirst
      rw [← hid, show first.versionId = some id from (hk.versionId_of_entry hentry).1]
      rfl
    obtain rfl := hk.eq_of_versionId hfirst (hlisted hsome) hid
    refine ⟨hsome, fun x hx hne ↦ later_of_listRank_lt ?_ (hleast x hx hne)⟩
    rw [hk.key_of_mem_list hfirst, hk.key_of_mem_list hx]
  · rintro ⟨hsome, hlater⟩
    rw [first_eq hfirst hleast (hlisted hsome) fun x hx hne ↦
      listRank_lt_of_later ?_ (hlater x hx hne)]
    rw [hk.key_of_mem_list (hlisted hsome), hk.key_of_mem_list hx]

/-- **The delete marker of a key stands first** exactly if nothing disputes it. -/
theorem first_eq_marker_iff (hnone : e.metadata = none) :
    (∃ marker, (latestVersion (e.list key)).filter Object.isDeleteMarker = some marker ∧
      first.withLatest true = marker.withLatest true) ↔ Undisputed key e := by
  rw [Undisputed, hnone]
  constructor
  · rintro ⟨marker, hfound, heq⟩
    obtain ⟨hlatest, hmarker⟩ := Option.filter_eq_some_iff.1 hfound
    obtain ⟨hmem, hmax⟩ := KeyRecord.latestVersion_spec hlatest
    obtain rfl := hk.eq_of_versionId hfirst hmem (versionId_eq_of_withLatest heq)
    refine ⟨first, hfirst, hmarker, fun x hx hne ↦ ?_⟩
    have hkey : first.key = x.key := by
      rw [hk.key_of_mem_list hfirst, hk.key_of_mem_list hx]
    rcases later_of_listRank_lt hkey (hleast x hx hne) with hlt | ⟨htime, hid⟩
    · exact hlt
    · -- the listing takes the smaller id, and the marker is sought with the larger one
      have hgt : compare x.versionId first.versionId = .gt := by
        rw [Std.OrientedOrd.eq_swap, hid]
        rfl
      have hle : ((compare x.lastModified first.lastModified).then
        (compare x.versionId first.versionId)).isLE = true := hmax x hx
      rw [Nat.compare_eq_eq.2 htime, hgt] at hle
      cases hle
  · rintro ⟨marker, hmem, hmarker, hlater⟩
    have hlatest : latestVersion (e.list key) = some marker := by
      refine (KeyRecord.latestVersion_eq_some_iff fun x hx y hy ↦ hk.eq_of_versionId hx hy).2
        ⟨hmem, fun x hx ↦ ?_⟩
      by_cases hne : x = marker
      · rw [hne, KeyRecord.byTime_self]
        rfl
      · exact KeyRecord.isLE_of_lastModified_lt (hlater x hx hne)
    refine ⟨marker, ?_, ?_⟩
    · rw [hlatest]
      exact Option.filter_some_pos hmarker
    · rw [first_eq hfirst hleast hmem fun x hx hne ↦
        listRank_lt_of_later ?_ (.inl (hlater x hx hne))]
      rw [hk.key_of_mem_list hmem, hk.key_of_mem_list hx]

end Record

/-- **The first version in the order of a listing is the current one exactly if nothing disputes
it.** -/
theorem first_eq_current_iff (hB : V.buckets[bucket]? = some B)
    (hkeyed : ∀ key, (B.record key).Keyed key) {first : Object}
    (hfirst : first ∈ (B.record key).list key)
    (hleast : ∀ x ∈ (B.record key).list key, x ≠ first → first.listRank < x.listRank) :
    (∃ current, currentVersion V bucket key = some current ∧
      first.withLatest true = current.withLatest true) ↔ Undisputed key (B.record key) := by
  have hrecord : V.record bucket key = B.record key := by
    rw [Vault.record, hB]
    rfl
  cases hcurrent : (B.record key).current with
  | some st =>
    have hmetadata : currentVersion V bucket key = some st.2 := by
      rw [currentVersion, hrecord, KeyRecord.metadata, hcurrent]
      rfl
    rw [← first_eq_object_iff (hkeyed key) hfirst hleast hcurrent, hmetadata]
    simp
  | none =>
    have hmetadata : (B.record key).metadata = none := by
      rw [KeyRecord.metadata, hcurrent]
      rfl
    rw [← first_eq_marker_iff (hkeyed key) hfirst hleast hmetadata, currentVersion,
      currentDeleteMarker, hrecord, hmetadata, Option.none_or]

/-- The versions of a key, among those of the listing. -/
theorem mem_sortedVersions_of_key (hkeyed : ∀ key, (B.record key).Keyed key)
    (hpre : p.getD [] <+: key) :
    o ∈ sortedVersions p B ∧ o.key = key ↔ o ∈ (B.record key).list key := by
  rw [mem_sortedVersions hkeyed, (hkeyed key).mem_list]
  constructor
  · rintro ⟨⟨key', id, data, -, hentry⟩, rfl⟩
    obtain ⟨-, hkey, -⟩ := (hkeyed key').versionId_of_entry hentry
    exact ⟨id, data, (show o.key = key' from hkey) ▸ hentry⟩
  · rintro ⟨id, data, hentry⟩
    exact ⟨⟨key, id, data, hpre, hentry⟩, ((hkeyed key).versionId_of_entry hentry).2.1⟩

/-- **A listing shows every version as it must exactly if nothing disputes what is current.** -/
theorem showsEveryVersion_iff (hB : V.buckets[bucket]? = some B)
    (hkeyed : ∀ key, (B.record key).Keyed key) :
    ShowsEveryVersion V bucket B (p.getD []) (markLatest none (sortedVersions p B)) ↔
      ∀ key, p.getD [] <+: key → (B.record key).list key ≠ [] → Undisputed key (B.record key) := by
  have hsorted := pairwise_sortedVersions (p := p) hkeyed
  have hgrouped : (sortedVersions p B).Pairwise fun x y ↦ x.key ≤ y.key :=
    hsorted.imp fun hlt ↦ (listRank_lt_iff.1 hlt).elim le_of_lt fun hboth ↦ le_of_eq hboth.1
  have hfirst : ∀ key, p.getD [] <+: key → (B.record key).list key ≠ [] →
      ∃ first, (markLatest none (sortedVersions p B)).filter (fun o ↦ o.key = key && o.isLatest) =
        [first.withLatest true] ∧ first ∈ (B.record key).list key ∧
        ∀ x ∈ (B.record key).list key, x ≠ first → first.listRank < x.listRank := by
    intro key hpre hne
    obtain ⟨o, ho⟩ := List.exists_mem_of_ne_nil _ hne
    obtain ⟨hmem, hkey⟩ := (mem_sortedVersions_of_key hkeyed hpre).2 ho
    have hsome : ((sortedVersions p B).find? (·.key = key)).isSome = true :=
      List.find?_isSome.2 ⟨o, hmem, decide_eq_true hkey⟩
    obtain ⟨first, hfind⟩ := Option.isSome_iff_exists.1 hsome
    obtain ⟨hfmem, hfkey, hleast⟩ := (find?_key_eq_some_iff hsorted).1 hfind
    refine ⟨first, ?_, (mem_sortedVersions_of_key hkeyed hpre).1 ⟨hfmem, hfkey⟩, fun x hx hxne ↦ ?_⟩
    · rw [filter_markLatest hgrouped (fun x _ k hk ↦ by cases hk), if_neg (by simp), hfind]
      rfl
    · obtain ⟨hxmem, hxkey⟩ := (mem_sortedVersions_of_key hkeyed hpre).2 hx
      exact hleast x hxmem hxkey hxne
  constructor
  · intro hshows key hpre hne
    obtain ⟨first, hfilter, hfmem, hleast⟩ := hfirst key hpre hne
    rw [← first_eq_current_iff hB hkeyed hfmem hleast]
    have hshown : ∃ o ∈ markLatest none (sortedVersions p B), o.key = key := by
      have hmem := hfilter ▸ List.mem_singleton_self (first.withLatest true)
      obtain ⟨hmem, hboth⟩ := List.mem_filter.1 hmem
      exact ⟨_, hmem, of_decide_eq_true (Bool.and_eq_true_iff.1 hboth).1⟩
    obtain ⟨current, hcurrent, hfilter'⟩ := hshows.latest key hshown
    exact ⟨current, hcurrent, List.singleton_inj.1 (hfilter.symm.trans hfilter')⟩
  · intro hundisputed
    refine ⟨fun o ho ↦ ?_, fun version hversion ↦ ?_, ?_, ?_, fun key ⟨o, ho, hkey⟩ ↦ ?_⟩
    · obtain ⟨version, hmem, isLatest, rfl⟩ := exists_of_mem_markLatest ho
      exact ⟨version, isLatest, (mem_sortedVersions hkeyed).1 hmem, rfl⟩
    · exact exists_mem_markLatest ((mem_sortedVersions hkeyed).2 hversion)
    · exact pairwise_markLatest (fun id id' ↦ ¬ (id.1 = id'.1 ∧ id.2 = id'.2))
        (distinct_sortedVersions hkeyed)
    · exact pairwise_markLatest (fun id id' ↦ id.1 ≤ id'.1) hgrouped
    · obtain ⟨version, hmem, isLatest, rfl⟩ := exists_of_mem_markLatest ho
      have hpre : p.getD [] <+: key := by
        obtain ⟨key', id, data, hpre, hentry⟩ := (mem_sortedVersions hkeyed).1 hmem
        obtain ⟨-, hkey', -⟩ := (hkeyed key').versionId_of_entry hentry
        rwa [← hkey, key_withLatest, show version.key = key' from hkey']
      have hne : (B.record key).list key ≠ [] :=
        List.ne_nil_of_mem ((mem_sortedVersions_of_key hkeyed hpre).1 ⟨hmem, hkey⟩)
      obtain ⟨first, hfilter, hfmem, hleast⟩ := hfirst key hpre hne
      obtain ⟨current, hcurrent, heq⟩ :=
        (first_eq_current_iff hB hkeyed hfmem hleast).2 (hundisputed key hpre hne)
      exact ⟨current, hcurrent, hfilter.trans (congrArg (fun o ↦ [o]) heq)⟩

/-! ### Pages -/

variable {req : Request} {C : Codec} {now : Time} {n : ℕ} {marker : VersionMarker}

/-- A page shows the versions of a chunk. -/
def ShowsVersions (page : ListVersionsXml) (chunk : List Object) : Prop := page.versions = chunk

/-- What is left behind the markers. -/
def versionsBehind (versions : List Object) : VersionMarker → List Object
  | none => versions
  | some (key, id) =>
    match versions.findIdx? fun item ↦ item.key = key && item.versionId = id with
    | some index => versions.drop (index + 1)
    | none => []

/-- The markers name a version of the list. -/
def NamesVersion (versions : List Object) (marker : VersionMarker) : Prop :=
  ∀ m ∈ marker, ∃ o ∈ versions, o.key = m.1 ∧ o.versionId = m.2 ∧ o.versionId.isSome = true

/-- **The markers of a version leave what comes after it.** -/
theorem versionsBehind_versionMark {a b : List Object}
    (h : (a ++ o :: b).Pairwise fun x y ↦ ¬ (x.key = y.key ∧ x.versionId = y.versionId)) :
    versionsBehind (a ++ o :: b) (versionMark o) = b := by
  have hbefore : a.findIdx?
      (fun item ↦ item.key = o.key && item.versionId = o.versionId) = none := by
    refine List.findIdx?_eq_none_iff.2 fun x hx ↦ ?_
    have hne := (List.pairwise_append.1 h).2.2 x hx o List.mem_cons_self
    rw [← Bool.decide_and]
    exact decide_eq_false hne
  have hfound : (a ++ o :: b).findIdx?
      (fun item ↦ item.key = o.key && item.versionId = o.versionId) = some a.length := by
    rw [List.findIdx?_append, hbefore, List.findIdx?_cons]
    simp
  rw [versionMark, versionsBehind, hfound]
  simp

theorem queryParam_atVersionMarker {name : String} (hkey : name ≠ "key-marker")
    (hid : name ≠ "version-id-marker") :
    (atVersionMarker req marker).queryParam name = req.queryParam name := by
  show ((req.query.set "key-marker" _).set "version-id-marker" _)[name]? = req.query[name]?
  rw [Table.getElem?_set, if_neg hid, Table.getElem?_set, if_neg hkey]

theorem keyMarker_atVersionMarker :
    (atVersionMarker req marker).queryParam "key-marker" =
      marker.map fun m ↦ String.ofList m.1 := by
  show ((req.query.set "key-marker" _).set "version-id-marker" _)["key-marker"]? = _
  rw [Table.getElem?_set, if_neg (by decide), Table.getElem?_set, if_pos rfl]

theorem versionIdMarker_atVersionMarker :
    (atVersionMarker req marker).queryParam "version-id-marker" = marker.bind Prod.snd := by
  show ((req.query.set "key-marker" _).set "version-id-marker" _)["version-id-marker"]? = _
  rw [Table.getElem?_set, if_pos rfl]

/-- The place behind the markers of a version. -/
theorem startIndex_of_namesVersion {versions : List Object} (h : NamesVersion versions marker) :
    ∃ index, startIndex versions (marker.map fun m ↦ String.ofList m.1) (marker.bind Prod.snd) =
      .ok index ∧ versions.drop (min index versions.length) = versionsBehind versions marker := by
  cases marker with
  | none => exact ⟨0, rfl, by rw [Nat.zero_min]; rfl⟩
  | some m =>
    obtain ⟨key, id⟩ := m
    obtain ⟨o, ho, hkey, hid, hsome⟩ := h _ rfl
    obtain ⟨version, rfl⟩ : ∃ version, id = some version :=
      Option.isSome_iff_exists.1 (by rwa [← show o.versionId = id from hid])
    have hfound : (versions.findIdx? fun item ↦
        item.key = key && item.versionId = some version).isSome = true := by
      rw [List.findIdx?_isSome, List.any_eq_true]
      exact ⟨o, ho, Bool.and_eq_true_iff.2 ⟨decide_eq_true hkey, decide_eq_true hid⟩⟩
    obtain ⟨index, hindex⟩ := Option.isSome_iff_exists.1 hfound
    have hlt : index < versions.length := (List.findIdx?_eq_some_iff_getElem.1 hindex).1
    refine ⟨index + 1, ?_, ?_⟩
    · simp only [startIndex, Option.map_some, Option.bind_some, String.toList_ofList, hindex]
    · rw [Nat.min_eq_left hlt, versionsBehind, hindex]

/-- **A page is what is left behind its markers**, cut off after `n` versions. -/
theorem listObjectVersions_isPage (hB : V.buckets[bucket]? = some B)
    (hconflict : ¬ foreignHistoryConflict C now bucket V) (hmax : maxKeysOrError req = .ok n)
    (hmarker : NamesVersion (markLatest none
      (sortedVersions ((req.queryParam "prefix").map String.toList) B)) marker) :
    ∃ page, listObjectVersions C now V bucket (atVersionMarker req marker) = .ok page ∧
      Paging.IsPage ShowsVersions nextVersionMarker versionMark n (versionsBehind (markLatest none
        (sortedVersions ((req.queryParam "prefix").map String.toList) B)) marker) page := by
  obtain ⟨index, hindex, hrest⟩ := startIndex_of_namesVersion hmarker
  rw [sortedVersions] at hindex hrest
  have hmax' : maxKeysOrError (atVersionMarker req marker) = .ok n := by
    rw [maxKeysOrError, queryParam_atVersionMarker (by decide) (by decide)]
    exact hmax
  rw [listObjectVersions, if_neg hconflict]
  simp only [hmax', hB, queryParam_atVersionMarker (show "prefix" ≠ "key-marker" by decide)
    (by decide), keyMarker_atVersionMarker, versionIdMarker_atVersionMarker, hindex]
  refine ⟨_, rfl, ?_, ?_⟩
  · show (if _ then _ else _) = _
    rw [hrest, sortedVersions]
    split
    · rfl
    · next hall => exact (List.take_of_length_le (not_lt.1 hall)).symm
  · rw [nextVersionMarker]
    dsimp only
    rw [hrest, sortedVersions]
    split
    · cases (List.take n _).getLast? <;> rfl
    · rfl

/-- **Following the pages shows every version once**, whatever is marked. -/
theorem exists_walk (hB : V.buckets[bucket]? = some B)
    (hkeyed : ∀ key, (B.record key).Keyed key)
    (hconflict : ¬ foreignHistoryConflict C now bucket V) (hmax : maxKeysOrError req = .ok n)
    (hn : 1 ≤ n) :
    ∃ pages, Walk (fun m ↦ listObjectVersions C now V bucket (atVersionMarker req m))
        nextVersionMarker none pages ∧
      pages.flatMap (·.versions) =
        markLatest none (sortedVersions ((req.queryParam "prefix").map String.toList) B) := by
  have hdistinct : (markLatest none (sortedVersions ((req.queryParam "prefix").map String.toList)
      B)).Pairwise fun x y ↦ ¬ (x.key = y.key ∧ x.versionId = y.versionId) :=
    pairwise_markLatest (fun id id' ↦ ¬ (id.1 = id'.1 ∧ id.2 = id'.2))
      (distinct_sortedVersions hkeyed)
  have hnames : ∀ x ∈ markLatest none (sortedVersions ((req.queryParam "prefix").map String.toList)
      B), NamesVersion (markLatest none (sortedVersions ((req.queryParam "prefix").map
        String.toList) B)) (versionMark x) := by
    intro x hx m hm
    obtain rfl := Option.some.inj hm
    obtain ⟨version, hversion, isLatest, rfl⟩ := exists_of_mem_markLatest hx
    obtain ⟨key, id, data, -, hentry⟩ := (mem_sortedVersions hkeyed).1 hversion
    have hid : version.versionId = some id := ((hkeyed key).versionId_of_entry hentry).1
    refine ⟨_, hx, rfl, rfl, ?_⟩
    rw [versionId_withLatest, hid]
    rfl
  have hnone : NamesVersion (markLatest none
      (sortedVersions ((req.queryParam "prefix").map String.toList) B)) none := by
    intro m hm
    cases hm
  obtain ⟨pages, chunks, hwalk, hflatten, hshows⟩ := walk_of_cut hn
    (fun a x b hsplit ↦ by rw [hsplit]; exact versionsBehind_versionMark (hsplit ▸ hdistinct))
    hnames (fun m hm ↦ listObjectVersions_isPage hB hconflict hmax hm) hnone List.suffix_rfl
  refine ⟨pages, hwalk, ?_⟩
  have hmap : pages.map (·.versions) = chunks := by
    clear hwalk hflatten
    induction hshows with
    | nil => rfl
    | cons hpage _ ih => rw [List.map_cons, ih, show ListVersionsXml.versions _ = _ from hpage]
  rw [List.flatMap_def, hmap, hflatten]
  rfl

/-- **When following the pages shows every version as it must**: exactly if the bucket is not under
the protection of another provider and, for each key below the prefix that has versions, none
disputes its place to the current one. -/
theorem list_object_versions_complete_iff (C : Codec) (now : Time) {V : Vault} {bucket : String}
    {B : Bucket} (hB : V.buckets[bucket]? = some B) (hkeyed : ∀ key, (B.record key).Keyed key)
    {req : Request} {n : ℕ} (hmax : maxKeysOrError req = .ok n) (hn : 1 ≤ n) :
    (∃ pages, Walk (fun m ↦ listObjectVersions C now V bucket (atVersionMarker req m))
        nextVersionMarker none pages ∧
      ShowsEveryVersion V bucket B (prefixParam req) (pages.flatMap (·.versions))) ↔
      ¬ foreignHistoryConflict C now bucket V ∧ ∀ key, prefixParam req <+: key →
        (B.record key).list key ≠ [] → Undisputed key (B.record key) := by
  have hpre : ((req.queryParam "prefix").map String.toList).getD [] = prefixParam req := by
    rw [prefixParam]
    cases req.queryParam "prefix" <;> rfl
  rw [← hpre]
  constructor
  · rintro ⟨pages, hwalk, hshows⟩
    have hconflict : ¬ foreignHistoryConflict C now bucket V := by
      intro hconflict
      obtain ⟨page, hpage⟩ := hwalk.exists_ok
      rw [listObjectVersions, if_pos hconflict] at hpage
      cases hpage
    obtain ⟨pages', hwalk', hall⟩ := exists_walk hB hkeyed hconflict hmax hn
    rw [hwalk.unique hwalk', hall] at hshows
    exact ⟨hconflict, (showsEveryVersion_iff hB hkeyed).1 hshows⟩
  · rintro ⟨hconflict, hundisputed⟩
    obtain ⟨pages, hwalk, hall⟩ := exists_walk hB hkeyed hconflict hmax hn
    exact ⟨pages, hwalk, hall ▸ (showsEveryVersion_iff hB hkeyed).2 hundisputed⟩

/-! ### Two versions -/

/-- An empty object, written at a time. -/
def writtenAt (t : Time) : Object := .newWithMetadataAndEtag t ['k'] [] "" ∅ ""

/-- A key that was written twice. -/
def writtenTwice (t t' : Time) : KeyRecord :=
  (KeyRecord.put (some .enabled) (some "a") [] (writtenAt t) {}).put (some .enabled) (some "b") []
    (writtenAt t')

/-- A bucket with the key. -/
def twoVersions (t t' : Time) : Bucket where
  versioning := some .enabled
  objects := (∅ : Table Text KeyRecord).set ['k'] (some (writtenTwice t t'))

/-- A vault with the bucket. -/
def boxVault (B : Bucket) : Vault where
  buckets := (∅ : Table String Bucket).set "box" (some B)

theorem record_twoVersions (t t' : Time) (key : Text) :
    (twoVersions t t').record key = if key = ['k'] then writtenTwice t t' else {} := by
  rw [Bucket.record, twoVersions, Table.getElem?_set]
  split
  · rfl
  · simp

theorem versions_writtenTwice (t t' : Time) :
    (writtenTwice t t').versions = (∅ : Table String Stored).set "a"
      (some ([], ((writtenAt t).withVersionId (some "a")).serialized)) := by
  rfl

theorem keyed_writtenTwice (t t' : Time) : (writtenTwice t t').Keyed ['k'] := by
  refine ⟨fun data o hcurrent ↦ ?_, fun id data o hversion ↦ ?_⟩
  · obtain ⟨-, rfl⟩ := Prod.mk.inj (Option.some.inj hcurrent)
    refine ⟨rfl, fun id hid ↦ ?_⟩
    obtain rfl : "b" = id := Option.some.inj hid
    refine ⟨by decide, ?_⟩
    rw [versions_writtenTwice, Table.getElem?_set, if_neg (by decide)]
    rfl
  · rw [versions_writtenTwice, Table.getElem?_set] at hversion
    split at hversion
    · next heq =>
      subst heq
      obtain ⟨-, rfl⟩ := Prod.mk.inj (Option.some.inj hversion)
      exact ⟨rfl, rfl, by decide⟩
    · simp at hversion

theorem keyed_twoVersions (t t' : Time) (key : Text) :
    ((twoVersions t t').record key).Keyed key := by
  rw [record_twoVersions]
  split
  · next heq => exact heq ▸ keyed_writtenTwice t t'
  · refine ⟨fun data o hcurrent ↦ ?_, fun id data o hversion ↦ ?_⟩
    · cases hcurrent
    · simp at hversion

theorem first_mem_list (t t' : Time) : ((writtenAt t).withVersionId (some "a")).serialized ∈
    (writtenTwice t t').list ['k'] := by
  have hk := keyed_writtenTwice t t'
  refine hk.mem_list.2 ⟨"a", [], hk.entry_eq_some.2 (.inl ?_)⟩
  rw [versions_writtenTwice, Table.getElem?_set, if_pos rfl]

/-- The second version is undisputed if it is younger than the first one. -/
theorem undisputed_writtenTwice (t t' : Time) :
    Undisputed ['k'] (writtenTwice t t') ↔ t < t' := by
  have hk := keyed_writtenTwice t t'
  have hlist : ∀ o, o ∈ (writtenTwice t t').list ['k'] →
      o = ((writtenAt t').withVersionId (some "b")).serialized ∨
        o = ((writtenAt t).withVersionId (some "a")).serialized := by
    intro o ho
    obtain ⟨id, data, hentry⟩ := hk.mem_list.1 ho
    rcases hk.entry_eq_some.1 hentry with hversion | ⟨hcurrent, -⟩
    · rw [versions_writtenTwice, Table.getElem?_set] at hversion
      split at hversion
      · exact .inr (Prod.mk.inj (Option.some.inj hversion)).2.symm
      · simp at hversion
    · exact .inl (Prod.mk.inj (Option.some.inj hcurrent)).2.symm
  constructor
  · rintro ⟨-, hlater⟩
    have hne : ((writtenAt t).withVersionId (some "a")).serialized ≠
        ((writtenAt t').withVersionId (some "b")).serialized := by
      intro heq
      have hid : some "a" = some "b" := congrArg Object.versionId heq
      exact absurd hid (by decide)
    rcases hlater _ (first_mem_list t t') hne with hlt | ⟨-, hid⟩
    · exact hlt
    · have hless : compare (some "b") (some "a") = .lt := hid
      exact absurd hless (by decide)
  · refine fun hlt ↦ ⟨rfl, fun o ho hne ↦ ?_⟩
    rcases hlist o ho with rfl | rfl
    · exact absurd rfl hne
    · exact .inl hlt

/-- A request for pages of a single version. -/
def versionByVersion : Request where
  route := .bucketGet "box".toList
  query := (∅ : Table String String).set "max-keys" (some "1")

/-- A key that was written at two times shows its versions as it must. -/
theorem written_at_two_times : ∃ pages, Walk (fun m ↦ listObjectVersions plainCodec 2
      (boxVault (twoVersions 0 1)) "box" (atVersionMarker versionByVersion m)) nextVersionMarker
      none pages ∧
    ShowsEveryVersion (boxVault (twoVersions 0 1)) "box" (twoVersions 0 1) []
      (pages.flatMap (·.versions)) := by
  have hbox : (boxVault (twoVersions 0 1)).buckets["box"]? = some (twoVersions 0 1) := rfl
  have hmax : maxKeysOrError versionByVersion = .ok 1 := by decide
  refine (list_object_versions_complete_iff plainCodec 2 hbox (keyed_twoVersions 0 1) hmax
    le_rfl).2 ⟨by decide, fun key _ hne ↦ ?_⟩
  rw [record_twoVersions] at hne ⊢
  split
  · next heq => exact heq ▸ (undisputed_writtenTwice 0 1).2 Nat.zero_lt_one
  · next hother =>
    rw [if_neg hother] at hne
    obtain ⟨o, ho⟩ := List.exists_mem_of_ne_nil _ hne
    rcases KeyRecord.mem_list_cases ho with ⟨data, hcurrent, -⟩ | ⟨id, data, hversion⟩
    · cases hcurrent
    · simp at hversion

/-- **Two versions of one time**: the second one is current, and the first one, which has the
smaller id, is marked. -/
theorem written_at_one_time :
    ¬ ∃ pages, Walk (fun m ↦ listObjectVersions plainCodec 2 (boxVault (twoVersions 0 0)) "box"
        (atVersionMarker versionByVersion m)) nextVersionMarker none pages ∧
      ShowsEveryVersion (boxVault (twoVersions 0 0)) "box" (twoVersions 0 0) []
        (pages.flatMap (·.versions)) := by
  rintro ⟨pages, hwalk, hshows⟩
  have hbox : (boxVault (twoVersions 0 0)).buckets["box"]? = some (twoVersions 0 0) := rfl
  have hconflict : ¬ foreignHistoryConflict plainCodec 2 "box" (boxVault (twoVersions 0 0)) := by
    decide
  have hmax : maxKeysOrError versionByVersion = .ok 1 := by decide
  obtain ⟨pages', hwalk', hall⟩ := exists_walk hbox (keyed_twoVersions 0 0) hconflict hmax le_rfl
  have hpre : versionByVersion.queryParam "prefix" = none := by decide
  rw [hwalk.unique hwalk', hall, hpre] at hshows
  have hundisputed := (showsEveryVersion_iff (p := none) hbox (keyed_twoVersions 0 0)).1 hshows
    ['k'] List.nil_prefix (by
      rw [record_twoVersions]
      exact List.ne_nil_of_mem (first_mem_list 0 0))
  rw [record_twoVersions, if_pos rfl] at hundisputed
  exact Nat.lt_irrefl 0 ((undisputed_writtenTwice 0 0).1 hundisputed)

end S3

end Sqrzl
