import SqrzlEmulator.Oci.Par
import SqrzlEmulator.S3.ObjectListing

/-!
# Listing objects with a name to start with

`list_objects` of `providers/oci.rs`. The handler reads all objects below the prefix from the store,
page by page (`collectObjects`), keeps those of the range, groups them by their common prefixes, and
sorts what it has by names (`listEntries`). **The next page starts with the first entry that is not
returned**, which may be a common prefix; its name is compared with keys, before they are grouped.

## What a name to start with leaves

A common prefix is before all keys of its group, and a key is not before the entry that stands for
it. As collapsing is monotone, a key is behind a name that is listed exactly if its entry is
(`le_path_iff`). So a page that starts with the name of an entry shows that entry and all behind it
(`listEntries_of_append`), whole groups included.

The first entry of all is different: its group may begin before the range, and its name too. But it
is on the first page, and no page starts with it (`list_objects_goes_on`).
-/

namespace Sqrzl.Oci.Listing

open Collapse Paging Percent S3

/-! ### The handler -/

/-- What the listing reads of a request. -/
structure ListRequest where
  isGet : Bool := true
  query : Table String String := ∅

/-- `query_param` -/
def ListRequest.queryParam (req : ListRequest) (name : String) : Option Text :=
  req.query[name]?.map String.toList

/-- `OciListEntry` -/
inductive OciListEntry where
  | object (object : Object)
  | commonPrefix (path : Text)

namespace OciListEntry

/-- `OciListEntry::name` -/
def name : OciListEntry → Text
  | object o => o.key
  | commonPrefix path => path

/-- The entry of the store. -/
def entry : OciListEntry → DirectoryEntry
  | object o => ⟨o.key, .object⟩
  | commonPrefix path => ⟨path, .commonPrefix⟩

/-- The object of an entry. -/
def object? : OciListEntry → Option Object
  | object o => some o
  | commonPrefix _ => none

/-- The common prefix of an entry. -/
def commonPrefix? : OciListEntry → Option Text
  | object _ => none
  | commonPrefix path => some path

end OciListEntry

/-- A page, with the fields that are selected for its objects. -/
structure ListPage where
  objects : List Object
  prefixes : List Text
  nextStartWith : Option Text
  fields : List Text

/-- `OCI_VALID_LIST_FIELDS` -/
def validListFields : List Text :=
  ["name", "size", "etag", "md5", "timecreated", "timemodified", "storagetier",
    "archivalstate"].map String.toList

/-- The answer to a parameter that is not understood. -/
def badParameter (message : String) : Failure := .answered ⟨400, "InvalidParameter", message⟩

/-- The limit of a request. -/
def listLimit (req : ListRequest) : Except Failure ℕ :=
  match req.query["limit"]? with
  | none => .ok 1000
  | some value =>
    match (parseU64 value).filter fun n ↦ decide (1 ≤ n) && decide (n ≤ 1000) with
    | some value => .ok value
    | none => .error (badParameter "The limit must be between 1 and 1000.")

/-- The fields of a request. -/
def listFields (req : ListRequest) : List Text :=
  ((req.queryParam "fields").map fun fields ↦
    (fields.splitOn ',').map fun field ↦ (trim field).map Char.toLower).getD []

/-- The loop that reads the objects, for so many rounds. The text of a storage error is not
modelled. -/
def collectObjects (store : ListStore) (pre : Text) :
    ℕ → Option Text → List Text → Except (Option Failure) (List Object)
  | 0, _, _ => .error none
  | rounds + 1, backendMarker, seenMarkers =>
    match store (some pre) none backendMarker (some 1000) with
    | .error .bucketNotFound =>
      .error (some (.answered ⟨404, "BucketNotFound", "The bucket does not exist."⟩))
    | .error _ => .error (some (.failed "storage error"))
    | .ok result =>
      match result.nextMarker with
      | none => .ok result.objects
      | some nextMarker =>
        if nextMarker ∈ seenMarkers then
          .error (some (.answered ⟨500, "InternalError",
            "Object listing returned a repeated continuation marker."⟩))
        else
          (collectObjects store pre rounds (some nextMarker) (nextMarker :: seenMarkers)).map
            (result.objects ++ ·)

/-- The common prefix that a key is grouped to. -/
def groupedPrefix (pre : Text) (delimiter : Option Text) (key : Text) : Option Text :=
  delimiter.bind fun delimiter ↦ (stripPrefix pre key).bind fun suffix ↦
    (findSub delimiter suffix).map fun position ↦
      key.take (pre.length + position + delimiter.length)

/-- The entries of objects, in the order of their names. -/
def listEntries (pre : Text) (delimiter : Option Text) (objects : List Object) :
    List OciListEntry :=
  let commonPrefixes := (objects.filterMap fun object ↦
    groupedPrefix pre delimiter object.key).dedup.insertionSort (· ≤ ·)
  let entries := (objects.filter fun object ↦
    (groupedPrefix pre delimiter object.key).isNone).map OciListEntry.object
  (entries ++ commonPrefixes.map OciListEntry.commonPrefix).insertionSort
    fun left right ↦ left.name ≤ right.name

/-- The key is in the range of the request. -/
def inRange (req : ListRequest) (key : Text) : Bool :=
  (req.queryParam "start").all (fun start ↦ decide (start ≤ key)) &&
    (req.queryParam "startAfter").all (fun startAfter ↦ decide (startAfter < key)) &&
      (req.queryParam "end").all fun endKey ↦ decide (key < endKey)

/-- The delimiter of a request. -/
def delimiterParam (req : ListRequest) : Option Text :=
  (req.queryParam "delimiter").filter (!·.isEmpty)

/-- The prefix of a request. -/
def prefixParam (req : ListRequest) : Text := (req.queryParam "prefix").getD []

/-- `list_objects`. The error `none` stands for a loop that goes on after so many rounds. -/
def listObjects (store : ListStore) (rounds : ℕ) (req : ListRequest) :
    Except (Option Failure) ListPage := do
  if !req.isGet then
    throw (some (.answered ⟨405, "MethodNotAllowed", "Unsupported OCI object list operation"⟩))
  let limit ← (listLimit req).mapError some
  if (req.queryParam "start").isSome && (req.queryParam "startAfter").isSome then
    throw (some (badParameter "The start and startAfter parameters cannot be combined."))
  let objects ← collectObjects store (prefixParam req) rounds none []
  let entries := listEntries (prefixParam req) (delimiterParam req)
    (objects.filter fun object ↦ inRange req object.key)
  let nextStartWith := entries[limit]?.map (·.name)
  let page := entries.take limit
  if (listFields req).any fun field ↦ !validListFields.contains field then
    throw (some (badParameter "The fields parameter contains an unsupported field."))
  return {
    objects := page.filterMap (·.object?)
    prefixes := page.filterMap (·.commonPrefix?)
    nextStartWith := nextStartWith
    fields := listFields req }

/-! ### Entries -/

/-- The entry that stands for a key. -/
def entryAt (pre : Text) (delimiter : Option Text) (key : Text) : DirectoryEntry :=
  match groupedPrefix pre delimiter key with
  | none => ⟨key, .object⟩
  | some path => ⟨path, .commonPrefix⟩

section Entries

variable {pre key key' : Text} {delimiter : Option Text} {objects : List Object}
  {e x : DirectoryEntry}

theorem groupedPrefix_some {d : Text} (hpre : pre <+: key) : groupedPrefix pre (some d) key =
    (findSub d (key.drop pre.length)).map fun position ↦
      key.take (pre.length + position + d.length) := by
  rw [groupedPrefix, Option.bind_some, stripPrefix, if_pos (List.isPrefixOf_iff_prefix.2 hpre),
    Option.bind_some]

/-- With a delimiter, the entry is the one that the store has for the key. -/
theorem entryAt_some {d : Text} (hpre : pre <+: key) :
    entryAt pre (some d) key = entryOf pre d key := by
  rw [entryAt, groupedPrefix_some hpre, entryOf]
  cases findSub d (key.drop pre.length) with
  | none => rfl
  | some position => rfl

/-- The name of an entry is the beginning of its keys. -/
theorem path_isPrefix (hpre : pre <+: key) : (entryAt pre delimiter key).path <+: key := by
  cases delimiter with
  | none => exact List.prefix_rfl
  | some d =>
    rw [entryAt_some hpre]
    exact path_entryOf_isPrefix

/-- **A key is behind a name that is listed exactly if its entry is.** -/
theorem le_path_iff (hpre : pre <+: key) (hpre' : pre <+: key') :
    (entryAt pre delimiter key).path ≤ key' ↔
      (entryAt pre delimiter key).path ≤ (entryAt pre delimiter key').path := by
  refine ⟨fun h ↦ ?_, fun h ↦ h.trans (le_of_isPrefix (path_isPrefix hpre'))⟩
  cases delimiter with
  | none => exact h
  | some d =>
    rw [entryAt_some hpre, path_entryOf] at h ⊢
    rw [entryAt_some hpre', path_entryOf]
    have hagain : collapse pre d (collapse pre d key) = collapse pre d key := by
      by_cases hcollapses : Collapses pre d key
      · exact (collapse_of_isPrefix hpre hcollapses List.prefix_rfl).1
      · rw [collapse_of_not hcollapses, collapse_of_not hcollapses]
    calc collapse pre d key = collapse pre d (collapse pre d key) := hagain.symm
      _ ≤ collapse pre d key' := collapse_le_collapse hpre' h

/-- Entries with the same name are the same. -/
theorem entryAt_eq_of_path (hpre : pre <+: key) (hpre' : pre <+: key')
    (h : (entryAt pre delimiter key).path = (entryAt pre delimiter key').path) :
    entryAt pre delimiter key = entryAt pre delimiter key' := by
  cases delimiter with
  | none =>
    have hkey : key = key' := h
    rw [hkey]
  | some d =>
    rw [entryAt_some hpre, entryAt_some hpre'] at h ⊢
    exact entryOf_eq hpre hpre' h

/-- The entries are those of the keys. -/
theorem mem_listEntries : e ∈ (listEntries pre delimiter objects).map (·.entry) ↔
    ∃ object ∈ objects, entryAt pre delimiter object.key = e := by
  rw [listEntries, ((List.perm_insertionSort (fun left right : OciListEntry ↦
    left.name ≤ right.name) _).map OciListEntry.entry).mem_iff, List.map_append, List.map_map,
    List.map_map, List.mem_append, List.mem_map, List.mem_map]
  constructor
  · intro h
    rcases h with ⟨object, hobject, rfl⟩ | ⟨path, hpath, rfl⟩
    · obtain ⟨hmem, hnone⟩ := List.mem_filter.1 hobject
      refine ⟨object, hmem, ?_⟩
      rw [entryAt, Option.isNone_iff_eq_none.1 hnone]
      rfl
    · rw [(List.perm_insertionSort _ _).mem_iff, List.mem_dedup, List.mem_filterMap] at hpath
      obtain ⟨object, hmem, hsome⟩ := hpath
      refine ⟨object, hmem, ?_⟩
      rw [entryAt, hsome]
      rfl
  · intro h
    obtain ⟨object, hmem, rfl⟩ := h
    cases hgroup : groupedPrefix pre delimiter object.key with
    | none =>
      refine .inl ⟨object, List.mem_filter.2 ⟨hmem, by rw [hgroup]; rfl⟩, ?_⟩
      rw [entryAt, hgroup]
      rfl
    | some path =>
      refine .inr ⟨path, ?_, ?_⟩
      · rw [(List.perm_insertionSort _ _).mem_iff, List.mem_dedup, List.mem_filterMap]
        exact ⟨object, hmem, hgroup⟩
      · rw [entryAt, hgroup]
        rfl

/-- The name of an entry is that of the entry of the store. -/
theorem OciListEntry.path_entry (entry : OciListEntry) : entry.entry.path = entry.name := by
  cases entry with
  | object o => rfl
  | commonPrefix path => rfl

/-- **The entries of sorted keys are sorted by their names**, each once. -/
theorem pairwise_listEntries (hkeys : (objects.map (·.key)).Pairwise (· < ·))
    (hpre : ∀ object ∈ objects, pre <+: object.key) :
    ((listEntries pre delimiter objects).map (·.entry)).Pairwise fun x y ↦ x.path < y.path := by
  have htotal : Std.Total fun left right : OciListEntry ↦ left.name ≤ right.name :=
    ⟨fun left right ↦ le_total left.name right.name⟩
  have htrans : IsTrans OciListEntry fun left right ↦ left.name ≤ right.name :=
    ⟨fun _ _ _ ↦ le_trans⟩
  have hle : ((listEntries pre delimiter objects).map (·.entry)).Pairwise
      fun x y ↦ x.path ≤ y.path := by
    refine (List.pairwise_insertionSort (fun left right : OciListEntry ↦
      left.name ≤ right.name) _).map _ fun left right h ↦ ?_
    rwa [left.path_entry, right.path_entry]
  have hnodup : ((listEntries pre delimiter objects).map (·.entry)).Nodup := by
    rw [listEntries, ((List.perm_insertionSort (fun left right : OciListEntry ↦
      left.name ≤ right.name) _).map OciListEntry.entry).nodup_iff, List.map_append, List.map_map,
      List.map_map, List.nodup_append]
    refine ⟨?_, ?_, ?_⟩
    · have hsorted : (objects.filter fun object ↦
          (groupedPrefix pre delimiter object.key).isNone).Pairwise fun a b ↦ a.key < b.key :=
        (List.pairwise_map.1 hkeys).filter _
      exact hsorted.map _ fun a b hlt heq ↦ hlt.ne (congrArg DirectoryEntry.path heq)
    · refine List.Nodup.map (fun a b heq ↦ congrArg DirectoryEntry.path heq) ?_
      exact (List.perm_insertionSort _ _).nodup_iff.2 (List.nodup_dedup _)
    · intro a ha b hb heq
      obtain ⟨object, -, rfl⟩ := List.mem_map.1 ha
      obtain ⟨path, -, rfl⟩ := List.mem_map.1 hb
      have hkind : DirectoryEntryKind.object = .commonPrefix := congrArg DirectoryEntry.kind heq
      cases hkind
  refine (hle.and hnodup).imp_of_mem fun {x y} hx hy h ↦ lt_of_le_of_ne h.1 fun heq ↦ h.2 ?_
  obtain ⟨a, ha, rfl⟩ := mem_listEntries.1 hx
  obtain ⟨b, hb, rfl⟩ := mem_listEntries.1 hy
  exact entryAt_eq_of_path (hpre a ha) (hpre b hb) heq

/-- **What a name to start with leaves.** When a page starts with the name of an entry that is not
the first one of a range, it shows that entry and all that are behind it. -/
theorem listEntries_of_append {lower upper : Text → Bool} {a b : List DirectoryEntry}
    (hkeys : (objects.map (·.key)).Pairwise (· < ·))
    (hpre : ∀ object ∈ objects, pre <+: object.key)
    (hlower : ∀ key key', lower key = true → key ≤ key' → lower key' = true)
    (hsplit : (listEntries pre delimiter (objects.filter fun object ↦
      lower object.key && upper object.key)).map (·.entry) = a ++ x :: b) (ha : a ≠ []) :
    (listEntries pre delimiter (objects.filter fun object ↦
      decide (x.path ≤ object.key) && upper object.key)).map (·.entry) = x :: b := by
  have hpart (q : Object → Bool) : (listEntries pre delimiter (objects.filter q)).map (·.entry)
      |>.Pairwise fun x y ↦ x.path < y.path := by
    refine pairwise_listEntries ?_ fun object hobject ↦ hpre _ (List.mem_filter.1 hobject).1
    exact List.pairwise_map.2 ((List.pairwise_map.1 hkeys).filter _)
  have hsorted := hpart fun object ↦ lower object.key && upper object.key
  rw [hsplit, List.pairwise_append] at hsorted
  obtain ⟨-, hrest, hbefore⟩ := hsorted
  have hmem : ∀ e, e ∈ a ++ x :: b ↔ ∃ object ∈ objects,
      (lower object.key = true ∧ upper object.key = true) ∧
        entryAt pre delimiter object.key = e := by
    intro e
    rw [← hsplit, mem_listEntries]
    simp only [List.mem_filter, Bool.and_eq_true, and_assoc]
  obtain ⟨kx, hkx, -, hx⟩ := (hmem x).1 (List.mem_append_right _ (List.mem_cons_self ..))
  have hbehind : ∀ object ∈ objects, x.path ≤ object.key ↔
      x.path ≤ (entryAt pre delimiter object.key).path := by
    intro object hobject
    rw [← hx]
    exact le_path_iff (hpre kx hkx) (hpre object hobject)
  refine eq_of_mem_iff (hpart _) hrest fun e ↦ ?_
  rw [mem_listEntries]
  constructor
  · intro h
    obtain ⟨object, hobject, rfl⟩ := h
    obtain ⟨hobject, hrange⟩ := List.mem_filter.1 hobject
    obtain ⟨hle, hupper⟩ := Bool.and_eq_true_iff.1 hrange
    have hle := of_decide_eq_true hle
    -- the range reaches down to the entries of `a`, and so to the name of `x`
    obtain ⟨y, hy⟩ := List.exists_mem_of_ne_nil a ha
    obtain ⟨ky, hky, ⟨hlowery, -⟩, rfl⟩ := (hmem y).1 (List.mem_append_left _ hy)
    have hlt := hbefore _ hy x (List.mem_cons_self ..)
    have hkylt : ky.key < x.path := not_le.1 fun hnot ↦
      absurd ((hbehind ky hky).1 hnot) (not_le.2 hlt)
    have hin := (hmem _).2 ⟨object, hobject,
      ⟨hlower _ _ hlowery (hkylt.le.trans hle), hupper⟩, rfl⟩
    refine (List.mem_append.1 hin).resolve_left fun hin ↦ ?_
    exact absurd ((hbehind object hobject).1 hle)
      (not_le.2 (hbefore _ hin x (List.mem_cons_self ..)))
  · intro h
    obtain ⟨object, hobject, ⟨-, hupper⟩, rfl⟩ := (hmem e).1 (List.mem_append_right _ h)
    refine ⟨object, List.mem_filter.2 ⟨hobject, Bool.and_eq_true_iff.2
      ⟨decide_eq_true ((hbehind object hobject).2 ?_), hupper⟩⟩, rfl⟩
    rcases List.mem_cons.1 h with heq | hmemb
    · exact (congrArg DirectoryEntry.path heq).ge
    · exact ((List.pairwise_cons.1 hrest).1 _ hmemb).le

end Entries

/-! ### The loop over the store -/

section Loop

variable {ix : BucketIndex} {metadataExists : Text → Bool}
  {getObjectMetadata : Text → Except Error Object} {pre : Text} {marker : Option Text}

theorem pathsOf_objects (keys : List Text) :
    pathsOf .object (keys.map fun key ↦ { path := key, kind := .object }) = keys := by
  have hall : ∀ e ∈ keys.map fun key ↦ ({ path := key, kind := .object } : DirectoryEntry),
      decide (e.kind = .object) = true := by
    intro e he
    obtain ⟨key, -, rfl⟩ := List.mem_map.1 he
    rfl
  rw [pathsOf, List.filter_eq_self.2 hall, List.map_map]
  exact List.map_id _

/-- **The loop comes to its end with all objects behind the marker.** The markers increase, so that
none is seen again, and a round passes at least one key. -/
theorem collectObjects_eq (hix : ix.Consistent)
    (hmeta : ∀ key, ix.objects[key]?.isSome → metadataExists key = true)
    (hget : ∀ key, ix.objects[key]?.isSome → ∃ o, getObjectMetadata key = .ok o ∧ o.key = key)
    {rounds : ℕ} {seenMarkers : List Text}
    (hrounds : (after id marker (keysBelow ix (some pre))).length < rounds)
    (hseen : ∀ seen ∈ seenMarkers, ∃ m ∈ marker, seen ≤ m) :
    ∃ objects, collectObjects (Sqrzl.listObjects ix metadataExists getObjectMetadata) pre rounds
        marker seenMarkers = .ok objects ∧
      objects.map (·.key) = after id marker (keysBelow ix (some pre)) := by
  induction rounds generalizing marker seenMarkers with
  | zero => exact absurd hrounds (Nat.not_lt_zero _)
  | succ rounds ih =>
    obtain ⟨result, hresult, hpage⟩ := @Sqrzl.listObjects_eq ix metadataExists getObjectMetadata
      (some pre) none marker 1000 hix (by omega) hmeta hget
    have hrest : after (·.path) marker (listing ix (some pre) none) =
        (after id marker (keysBelow ix (some pre))).map fun key ↦
          { path := key, kind := .object } := by
      show after _ marker ((keysBelow ix (some pre)).map _) = _
      rw [after, after, List.filter_map]
      rfl
    rw [hrest] at hpage
    have hkeys : result.objects.map (·.key) =
        (after id marker (keysBelow ix (some pre))).take 1000 := by
      rw [hpage.shows.objects, ← List.map_take, pathsOf_objects]
    have hnext : result.nextMarker = if 1000 < (after id marker (keysBelow ix (some pre))).length
        then ((after id marker (keysBelow ix (some pre))).take 1000).getLast? else none := by
      rw [hpage.nextMarker, List.length_map, ← List.map_take, List.getLast?_map, Option.map_map]
      split
      · exact congrFun Option.map_id _
      · rfl
    rw [collectObjects, hresult]
    by_cases hmore : 1000 < (after id marker (keysBelow ix (some pre))).length
    · obtain ⟨a, x, hax⟩ : ∃ a x, (after id marker (keysBelow ix (some pre))).take 1000 =
          a ++ [x] := by
        have htake : (after id marker (keysBelow ix (some pre))).take 1000 ≠ [] := by
          refine List.ne_nil_of_length_pos ?_
          rw [List.length_take]
          omega
        exact ⟨_, _, (List.dropLast_append_getLast htake).symm⟩
      rw [if_pos hmore, hax, List.getLast?_concat] at hnext
      have hsplit : after id marker (keysBelow ix (some pre)) =
          a ++ x :: (after id marker (keysBelow ix (some pre))).drop 1000 := by
        calc after id marker (keysBelow ix (some pre))
            = (after id marker (keysBelow ix (some pre))).take 1000 ++
                (after id marker (keysBelow ix (some pre))).drop 1000 :=
              (List.take_append_drop ..).symm
          _ = a ++ x :: (after id marker (keysBelow ix (some pre))).drop 1000 := by
              rw [hax, List.append_assoc]
              rfl
      have hleft : after id (some x) (keysBelow ix (some pre)) =
          (after id marker (keysBelow ix (some pre))).drop 1000 :=
        after_of_append (pairwise_keysBelow ix (some pre)) marker hsplit
      have hx : ∀ m ∈ marker, m < x :=
        (mem_after.1 (hsplit ▸ List.mem_append_right _ (List.mem_cons_self ..))).2
      have hnew : x ∉ seenMarkers := by
        intro hmem
        obtain ⟨m, hm, hle⟩ := hseen x hmem
        exact absurd (hx m hm) (not_lt.2 hle)
      have hfewer : (after id (some x) (keysBelow ix (some pre))).length < rounds := by
        rw [hleft, List.length_drop]
        omega
      have hseenx : ∀ seen ∈ x :: seenMarkers, ∃ m ∈ some x, seen ≤ m := by
        intro seen hmem
        rcases List.mem_cons.1 hmem with rfl | hmem
        · exact ⟨seen, rfl, le_rfl⟩
        · obtain ⟨m, hm, hle⟩ := hseen seen hmem
          exact ⟨x, rfl, hle.trans (hx m hm).le⟩
      obtain ⟨objects, hobjects, hafter⟩ := ih hfewer hseenx
      refine ⟨result.objects ++ objects, ?_, ?_⟩
      · dsimp only
        rw [hnext]
        dsimp only
        rw [if_neg hnew, hobjects]
        rfl
      · rw [List.map_append, hkeys, hafter, hleft, List.take_append_drop]
    · rw [if_neg hmore] at hnext
      refine ⟨result.objects, ?_, ?_⟩
      · dsimp only
        rw [hnext]
      · rw [hkeys, List.take_of_length_le (not_lt.1 hmore)]

end Loop

/-! ### The client -/

/-- The request for the page that starts with a name, or for the first page. -/
def ListRequest.goOn (req : ListRequest) : Option Text → ListRequest
  | none => req
  | some start =>
    { req with query := (req.query.set "start" (some (String.ofList start))).set "startAfter" none }

/-- A page shows the entries of a chunk: the objects of the chunk and its common prefixes, both in
its order. -/
def ShowsChunk (page : ListPage) (chunk : List DirectoryEntry) : Prop :=
  page.objects.map (·.key) = pathsOf .object chunk ∧ page.prefixes = pathsOf .commonPrefix chunk

/-- The request is one that the handler answers with a page of so many entries. -/
structure Answered (req : ListRequest) (limit : ℕ) : Prop where
  isGet : req.isGet = true
  limit : listLimit req = .ok limit
  start : req.queryParam "start" = none ∨ req.queryParam "startAfter" = none
  fields : ∀ field ∈ listFields req, field ∈ validListFields

section Client

variable {req : ListRequest} {limit : ℕ} {start : Option Text}

theorem queryParam_goOn {name : String} (hstart : name ≠ "start") (hafter : name ≠ "startAfter") :
    (req.goOn start).query[name]? = req.query[name]? := by
  cases start with
  | none => rfl
  | some start =>
    show ((req.query.set "start" _).set "startAfter" none)[name]? = _
    rw [Table.getElem?_set, if_neg hafter, Table.getElem?_set, if_neg hstart]

theorem start_goOn (name : Text) : (req.goOn (some name)).queryParam "start" = some name ∧
    (req.goOn (some name)).queryParam "startAfter" = none := by
  constructor
  · show (((req.query.set "start" _).set "startAfter" none)["start"]?).map String.toList = _
    rw [Table.getElem?_set, if_neg (by decide), Table.getElem?_set, if_pos rfl, Option.map_some,
      String.toList_ofList]
  · show (((req.query.set "start" _).set "startAfter" none)["startAfter"]?).map String.toList = _
    rw [Table.getElem?_set, if_pos rfl]
    rfl

/-- A request that is answered is answered when it goes on. -/
theorem Answered.goOn (h : Answered req limit) (start : Option Text) :
    Answered (req.goOn start) limit := by
  have hfields : listFields (req.goOn start) = listFields req := by
    rw [listFields, ListRequest.queryParam, queryParam_goOn (by decide) (by decide)]
    rfl
  refine ⟨?_, ?_, ?_, ?_⟩
  · cases start with
    | none => exact h.isGet
    | some start => exact h.isGet
  · rw [listLimit, queryParam_goOn (by decide) (by decide)]
    exact h.limit
  · cases start with
    | none => exact h.start
    | some start => exact .inr (start_goOn start).2
  · rw [hfields]
    exact h.fields

theorem one_le_of_answered (h : Answered req limit) : 1 ≤ limit := by
  have hlimit := h.limit
  rw [listLimit] at hlimit
  split at hlimit
  · obtain rfl := Except.ok.inj hlimit
    omega
  · split at hlimit
    · next value hvalue =>
      obtain rfl := Except.ok.inj hlimit
      obtain ⟨-, hrange⟩ := Option.filter_eq_some_iff.1 hvalue
      exact of_decide_eq_true (Bool.and_eq_true_iff.1 hrange).1
    · cases hlimit

variable {store : ListStore} {rounds : ℕ} {objects : List Object}

/-- The page of a request, made from all objects below the prefix. -/
theorem listObjects_eq (h : Answered req limit)
    (hobjects : collectObjects store (prefixParam req) rounds none [] = .ok objects) :
    ∃ page, listObjects store rounds req = .ok page ∧
      IsPageTo ShowsChunk (fun page ↦ page.nextStartWith.map some) (fun e ↦ some e.path) limit
        ((listEntries (prefixParam req) (delimiterParam req)
          (objects.filter fun object ↦ inRange req object.key)).map (·.entry)) page := by
  have hstart : ((req.queryParam "start").isSome && (req.queryParam "startAfter").isSome) =
      false := by
    rcases h.start with hnone | hnone
    · rw [hnone]
      rfl
    · rw [hnone]
      exact Bool.and_false _
  have hfields : (listFields req).any (fun field ↦ !validListFields.contains field) = false := by
    rw [List.any_eq_false]
    intro field hfield
    have hcontains := List.contains_iff_mem.2 (h.fields field hfield)
    rw [hcontains]
    decide
  have hkind : ∀ entries : List OciListEntry,
      (entries.filterMap (·.object?)).map (·.key) = pathsOf .object (entries.map (·.entry)) ∧
        entries.filterMap (·.commonPrefix?) =
          pathsOf .commonPrefix (entries.map (·.entry)) := by
    intro entries
    induction entries with
    | nil => exact ⟨rfl, rfl⟩
    | cons entry entries ih =>
      cases entry with
      | object o => exact ⟨congrArg (o.key :: ·) ih.1, ih.2⟩
      | commonPrefix path => exact ⟨ih.1, congrArg (path :: ·) ih.2⟩
  rw [listObjects, h.isGet, h.limit, hstart]
  simp only [Bool.not_true, Bool.false_eq_true, if_false, pure, bind, Except.pure, Except.bind,
    Except.mapError, hobjects, hfields]
  refine ⟨_, rfl, ?_, ?_⟩
  · rw [← List.map_take]
    exact hkind _
  · dsimp only
    rw [← List.map_drop, List.head?_map, List.head?_drop, Option.map_map, Option.map_map]
    refine congrArg (Option.map · _) (funext fun entry ↦ ?_)
    exact congrArg some entry.path_entry.symm

end Client

/-- The key is in the range of the request. -/
def InRange (req : ListRequest) (key : Text) : Prop :=
  (∀ start ∈ req.queryParam "start", start ≤ key) ∧
    (∀ startAfter ∈ req.queryParam "startAfter", startAfter < key) ∧
      ∀ endKey ∈ req.queryParam "end", key < endKey

theorem inRange_iff {req : ListRequest} {key : Text} :
    inRange req key = true ↔ InRange req key := by
  rw [inRange, InRange, Bool.and_eq_true, Bool.and_eq_true, Option.all_eq_true, Option.all_eq_true,
    Option.all_eq_true]
  simp only [decide_eq_true_eq, and_assoc, Option.mem_def]

/-- The entries that a listing must have are the entries of its keys. -/
theorem expected_iff {keys : Text → Prop} {pre : Text} {delimiter : Option Text}
    {e : DirectoryEntry} (hdelimiter : delimiter ≠ some []) : Expected keys pre delimiter e ↔
      ∃ key, keys key ∧ pre <+: key ∧ entryAt pre delimiter key = e := by
  cases delimiter with
  | none =>
    constructor
    · intro h
      cases h with
      | object hkey hpre _ => exact ⟨_, hkey, hpre, rfl⟩
      | commonPrefix _ hd _ _ => cases hd
    · intro h
      obtain ⟨key, hkey, hpre, rfl⟩ := h
      exact .object hkey hpre fun d hd ↦ by cases hd
  | some d =>
    have hne : d ≠ [] := fun hd ↦ hdelimiter (congrArg some hd)
    constructor
    · intro h
      obtain ⟨key, hkey, hpre, rfl⟩ := entryOf_of_expected hne h
      exact ⟨key, hkey, hpre, entryAt_some hpre⟩
    · intro h
      obtain ⟨key, hkey, hpre, rfl⟩ := h
      rw [entryAt_some hpre]
      exact expected_entryOf hne hkey hpre

/-- **Completeness of OCI listings.** Whatever the bucket has, whatever the prefix, the delimiter,
the range and the limit are: the first page and those that start with what the page before has named
come to an end; together they show, in strictly increasing order of names, the objects of the range
without a delimiter after the prefix and the common prefixes of the keys of the range, each once,
and nothing else. The loop over the store ends within as many rounds as there are keys, and one
more. -/
theorem list_objects_goes_on (ops : List IndexOp) (bucket : String) (metadataExists : Text → Bool)
    (getObjectMetadata : Text → Except Error Object)
    (hmeta : ∀ key, ((LockFreeIndex.run ops).bucketIndex bucket).objects[key]?.isSome →
      metadataExists key = true ∧ ∃ o, getObjectMetadata key = .ok o ∧ o.key = key)
    (req : ListRequest) (limit : ℕ) (hreq : Answered req limit) (rounds : ℕ)
    (hrounds : ((LockFreeIndex.run ops).bucketIndex bucket).objects.size < rounds) :
    let ix := (LockFreeIndex.run ops).bucketIndex bucket
    let store := Sqrzl.listObjects ix metadataExists getObjectMetadata
    ∃ pages chunks, Walk (fun start ↦ listObjects store rounds (req.goOn start))
        (fun page ↦ page.nextStartWith.map some) none pages ∧
      List.Forall₂ ShowsChunk pages chunks ∧
      chunks.flatten.Pairwise (fun x y ↦ x.path < y.path) ∧
      ∀ e, e ∈ chunks.flatten ↔ Expected
        (fun key ↦ ix.objects[key]?.isSome ∧ InRange req key) (prefixParam req)
        (delimiterParam req) e := by
  intro ix store
  have hlength : (after id none (keysBelow ix (some (prefixParam req)))).length < rounds := by
    refine lt_of_le_of_lt ?_ hrounds
    rw [after_none]
    calc (keysBelow ix (some (prefixParam req))).length
        ≤ ix.objects.keys.length := List.length_filter_le _ _
      _ = ix.objects.size := Std.ExtTreeMap.length_keys
  obtain ⟨objects, hobjects, hkeys⟩ := @collectObjects_eq ix metadataExists getObjectMetadata
    (prefixParam req) none (LockFreeIndex.consistent_bucketIndex ops bucket)
    (fun key hkey ↦ (hmeta key hkey).1) (fun key hkey ↦ (hmeta key hkey).2) rounds [] hlength
    (fun seen hseen ↦ by cases hseen)
  rw [after_none] at hkeys
  have hmem : ∀ object ∈ objects, object.key ∈ keysBelow ix (some (prefixParam req)) := by
    intro object hobject
    rw [← hkeys]
    exact List.mem_map_of_mem hobject
  have hsorted : (objects.map (·.key)).Pairwise (· < ·) := by
    rw [hkeys]
    exact pairwise_keysBelow ix _
  have hpre : ∀ object ∈ objects, prefixParam req <+: object.key := fun object hobject ↦
    isPrefix_of_mem_keysBelow (hmem object hobject)
  have hprefixParam (start : Option Text) : prefixParam (req.goOn start) = prefixParam req := by
    rw [prefixParam, ListRequest.queryParam, queryParam_goOn (by decide) (by decide)]
    rfl
  have hdelimiterParam (start : Option Text) :
      delimiterParam (req.goOn start) = delimiterParam req := by
    rw [delimiterParam, ListRequest.queryParam, queryParam_goOn (by decide) (by decide)]
    rfl
  -- what a page is cut from
  let cut (start : Option Text) : List DirectoryEntry :=
    (listEntries (prefixParam req) (delimiterParam req)
      (objects.filter fun object ↦ inRange (req.goOn start) object.key)).map (·.entry)
  have hquery (start : Option Text) : ∃ page, listObjects store rounds (req.goOn start) = .ok page ∧
      IsPageTo ShowsChunk (fun page ↦ page.nextStartWith.map some) (fun e ↦ some e.path) limit
        (cut start) page := by
    have h := @listObjects_eq _ limit store rounds objects (hreq.goOn start)
      (by rw [hprefixParam]; exact hobjects)
    rw [hprefixParam, hdelimiterParam] at h
    exact h
  have hcut : ∀ a x b, cut none = a ++ x :: b → a ≠ [] → cut (some x.path) = x :: b := by
    intro a x b hsplit ha
    have hrange : ∀ key, inRange (req.goOn (some x.path)) key =
        (decide (x.path ≤ key) &&
          (req.queryParam "end").all fun endKey ↦ decide (key < endKey)) := by
      intro key
      rw [inRange, (start_goOn x.path).1, (start_goOn x.path).2, ListRequest.queryParam,
        queryParam_goOn (by decide) (by decide), Option.all_some, Option.all_none, Bool.and_true]
      rfl
    have hrest := @listEntries_of_append (prefixParam req) (delimiterParam req) objects x
      (fun key ↦ (req.queryParam "start").all (fun start ↦ decide (start ≤ key)) &&
        (req.queryParam "startAfter").all fun startAfter ↦ decide (startAfter < key))
      (fun key ↦ (req.queryParam "end").all fun endKey ↦ decide (key < endKey)) a b hsorted hpre
      (fun key key' hkey hle ↦ ?_) ?_ ha
    · simp only [← hrange] at hrest
      exact hrest
    · simp only [Bool.and_eq_true, Option.all_eq_true, decide_eq_true_eq] at hkey ⊢
      exact ⟨fun start hstart ↦ (hkey.1 start hstart).trans hle,
        fun startAfter hafter ↦ (hkey.2 startAfter hafter).trans_le hle⟩
    · exact hsplit
  obtain ⟨pages, chunks, hwalk, hflatten, hshows⟩ := walk_of_next (one_le_of_answered hreq) hcut
    hquery (List.suffix_rfl : cut none <:+ cut none)
  have hdelimiter : delimiterParam req ≠ some [] := by
    intro hnil
    obtain ⟨-, hne⟩ := Option.filter_eq_some_iff.1 hnil
    cases hne
  refine ⟨pages, chunks, hwalk, hshows, ?_, fun e ↦ ?_⟩
  · rw [hflatten]
    refine pairwise_listEntries ?_ fun object hobject ↦ hpre _ (List.mem_filter.1 hobject).1
    exact List.pairwise_map.2 ((List.pairwise_map.1 hsorted).filter _)
  · rw [hflatten, expected_iff hdelimiter, mem_listEntries]
    constructor
    · intro h
      obtain ⟨object, hobject, rfl⟩ := h
      obtain ⟨hobject, hrange⟩ := List.mem_filter.1 hobject
      exact ⟨object.key, ⟨(mem_keysBelow.1 (hmem object hobject)).1, inRange_iff.1 hrange⟩,
        hpre object hobject, rfl⟩
    · intro h
      obtain ⟨key, ⟨hkey, hrange⟩, hprefix, rfl⟩ := h
      have hbelow : key ∈ objects.map (·.key) := by
        rw [hkeys, mem_keysBelow]
        exact ⟨hkey, List.isPrefixOf_iff_prefix.2 hprefix⟩
      obtain ⟨object, hobject, rfl⟩ := List.mem_map.1 hbelow
      exact ⟨object, List.mem_filter.2 ⟨hobject, inRange_iff.2 hrange⟩, rfl⟩

/-- A listing from a key on, in pages of one entry. -/
def fromKey (start : String) : ListRequest where
  query := (((∅ : Table String String).set "limit" (some "1")).set "delimiter" (some "/")).set
    "start" (some start)

/-- The range begins within the first group, whose name is before the range. -/
theorem from_within_group : ∃ pages, Walk (fun start ↦ listObjects
      (Sqrzl.listObjects ((LockFreeIndex.run [.insert "b" "a/b".toList, .insert "b" "a/d".toList,
        .insert "b" "e".toList]).bucketIndex "b") (fun _ ↦ true) emptyObject) 4
      ((fromKey "a/c").goOn start)) (fun page ↦ page.nextStartWith.map some) none pages := by
  have hreq : Answered (fromKey "a/c") 1 := by
    refine ⟨rfl, by decide, .inr (by decide), fun field hfield ↦ ?_⟩
    rw [show listFields (fromKey "a/c") = [] by decide] at hfield
    cases hfield
  obtain ⟨pages, -, hpages, -⟩ := list_objects_goes_on [.insert "b" "a/b".toList,
    .insert "b" "a/d".toList, .insert "b" "e".toList] "b" (fun _ ↦ true) emptyObject
    (fun _ _ ↦ ⟨rfl, _, rfl, rfl⟩) (fromKey "a/c") 1 hreq 4 (by decide)
  exact ⟨pages, hpages⟩

end Sqrzl.Oci.Listing
