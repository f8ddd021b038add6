import SqrzlEmulator.Data.Paging
import SqrzlEmulator.S3.Copy
import SqrzlEmulator.Storage.ListingPages
import Mathlib.Data.Prod.Lex
import Mathlib.Order.WithBot

/-!
# Listing multipart uploads

`list_multipart_uploads` of `server/handlers/bucket/get.rs`. The uploads below the prefix and their
common prefixes are sorted by their keys and, below a key, by the ids of the uploads (`rank`); a
page is cut out behind a marker, which has a key and, if the last entry is an upload, its id.

**One filter serves both kinds of markers.** Behind a common prefix the marker has no id and passes
over everything with its key, which is the common prefix alone: an upload that is listed under its
own key has no delimiter in it, and a common prefix ends with one (`key_ne_of_commonPrefix`). So a
walk shows every upload and every common prefix once, in increasing order
(`list_multipart_uploads_complete`), in whatever order the store returns the uploads.

An empty marker is no marker, and **a page that ends with an upload of the empty key cannot be
continued** (`empty_key_ends_the_walk`).
-/

namespace Sqrzl.S3

open Collapse Paging

/-! ### The handler -/

/-- `MultipartUploadListingEntry` -/
inductive MultipartUploadListingEntry where
  | upload (upload : MultipartUpload)
  | commonPrefix (path : Text)

namespace MultipartUploadListingEntry

/-- `MultipartUploadListingEntry::key` -/
def key : MultipartUploadListingEntry → Text
  | upload u => u.key
  | commonPrefix path => path

/-- `MultipartUploadListingEntry::upload_id` -/
def uploadId : MultipartUploadListingEntry → Option String
  | upload u => some u.uploadId
  | commonPrefix _ => none

/-- The upload of an entry. -/
def upload? : MultipartUploadListingEntry → Option MultipartUpload
  | upload u => some u
  | commonPrefix _ => none

/-- The common prefix of an entry. -/
def commonPrefix? : MultipartUploadListingEntry → Option Text
  | upload _ => none
  | commonPrefix path => some path

/-- What the entries are sorted by: the key, and then the id, with none before all others. -/
def rank (entry : MultipartUploadListingEntry) : Text ×ₗ WithBot Text :=
  toLex (entry.key, match entry.uploadId with
    | some id => (id.toList : WithBot Text)
    | none => ⊥)

end MultipartUploadListingEntry

/-- `ListMultipartUploadsXml`, what the response shows. -/
structure ListMultipartUploadsXml where
  uploads : List MultipartUpload
  commonPrefixes : List Text
  bucket : Text
  keyMarker : Option Text
  uploadIdMarker : Option String
  nextKeyMarker : Option Text
  nextUploadIdMarker : Option String
  pre : Text
  delimiter : Option Text
  encodingType : Option String
  maxUploads : ℕ
  isTruncated : Bool

/-- The entry of an upload below the prefix. -/
def listingEntry (pre : Text) (delimiter : Option Text) (upload : MultipartUpload) :
    MultipartUploadListingEntry :=
  match delimiter.bind fun delimiter ↦ (findSub delimiter (upload.key.drop pre.length)).map
      (pre.length + · + delimiter.length) with
  | none => .upload upload
  | some length => .commonPrefix (upload.key.take length)

/-- The entries in the order of the uploads, each common prefix where it is seen first. -/
def listingEntries (pre : Text) (delimiter : Option Text) :
    (seenPrefixes : List Text) → List MultipartUpload → List MultipartUploadListingEntry
  | _, [] => []
  | seenPrefixes, upload :: uploads =>
    if pre.isPrefixOf upload.key then
      match listingEntry pre delimiter upload with
      | .upload upload => .upload upload :: listingEntries pre delimiter seenPrefixes uploads
      | .commonPrefix path =>
        if seenPrefixes.contains path then listingEntries pre delimiter seenPrefixes uploads
        else .commonPrefix path :: listingEntries pre delimiter (path :: seenPrefixes) uploads
    else listingEntries pre delimiter seenPrefixes uploads

/-- Whether an entry is kept behind the markers. -/
def keptBehind (keyMarker : Option Text) (uploadIdMarker : Option String)
    (entry : MultipartUploadListingEntry) : Bool :=
  match keyMarker with
  | none => true
  | some marker =>
    if marker < entry.key then true
    else if entry.key = marker then
      uploadIdMarker.any fun id ↦ entry.uploadId.any fun entryId ↦ id.toList < entryId.toList
    else false

/-- The number of entries that a page may have. -/
def maxUploads (req : Request) : Except Refusal ℕ :=
  match req.queryParam "max-uploads" with
  | some value =>
    match parseU32 value with
    | some value => .ok (min value 1000)
    | none => .error ⟨400, "InvalidArgument", "max-uploads must be a non-negative integer."⟩
  | none => .ok 1000

/-- The texts of parameters that are not empty. -/
def nonEmptyParam (req : Request) (name : String) : Option String :=
  (req.queryParam name).filter (!·.isEmpty)

/-- The response about the entries that are kept. -/
def uploadsPage (bucket : Text) (keyMarker : Option Text) (uploadIdMarker : Option String)
    (pre : Text) (delimiter : Option Text) (encodingType : Option String) (maxUploads : ℕ)
    (entries : List MultipartUploadListingEntry) : ListMultipartUploadsXml where
  uploads := (entries.take maxUploads).filterMap (·.upload?)
  commonPrefixes := (entries.take maxUploads).filterMap (·.commonPrefix?)
  bucket := bucket
  keyMarker := keyMarker
  uploadIdMarker := uploadIdMarker
  nextKeyMarker :=
    if maxUploads < entries.length then (entries.take maxUploads).getLast?.map (·.key) else none
  nextUploadIdMarker :=
    if maxUploads < entries.length then (entries.take maxUploads).getLast?.bind (·.uploadId) else none
  pre := pre
  delimiter := delimiter
  encodingType := encodingType
  maxUploads := maxUploads
  isTruncated := maxUploads < entries.length

/-- `list_multipart_uploads`, of what the store answers. -/
def listMultipartUploads (bucket : Text) (answer : Except Error (List MultipartUpload))
    (req : Request) : Except Refusal ListMultipartUploadsXml :=
  let pre := ((req.queryParam "prefix").getD "").toList
  let delimiter := (nonEmptyParam req "delimiter").map String.toList
  let keyMarker := (nonEmptyParam req "key-marker").map String.toList
  let uploadIdMarker := nonEmptyParam req "upload-id-marker"
  if uploadIdMarker.isSome && keyMarker.isNone then
    .error ⟨400, "InvalidArgument", "upload-id-marker requires key-marker."⟩
  else
    match maxUploads req with
    | .error refusal => .error refusal
    | .ok maxUploads =>
      let encodingType := req.queryParam "encoding-type"
      if encodingType.any fun value ↦ !eqIgnoreCase value "url" then
        .error ⟨400, "InvalidArgument", "encoding-type must be url when provided."⟩
      else
        match answer with
        | .ok uploads =>
          let entries := ((listingEntries pre delimiter [] uploads).insertionSort
            (·.rank ≤ ·.rank)).filter (keptBehind keyMarker uploadIdMarker)
          .ok (uploadsPage bucket keyMarker uploadIdMarker pre delimiter encodingType maxUploads entries)
        | .error .bucketNotFound => .error ⟨404, "NoSuchBucket", "Bucket not found"⟩
        | .error .noSuchUpload => .error ⟨404, "NoSuchUpload", "Upload not found"⟩
        | .error error => .error ⟨500, "InternalError", (storageErrorResponse error).message⟩

/-! ### The client -/

/-- The markers that a page names, a key and perhaps an id. -/
abbrev UploadMarker : Type := Option (Text × Option String)

/-- The request of the page behind the markers. -/
def atMarker (req : Request) (marker : UploadMarker) : Request :=
  { req with
    query := (req.query.set "key-marker" (marker.map fun m ↦ String.ofList m.1)).set
      "upload-id-marker" (marker.bind Prod.snd) }

/-- The markers of the next page. -/
def nextUploadMarker (page : ListMultipartUploadsXml) : Option UploadMarker :=
  page.nextKeyMarker.map fun key ↦ some (key, page.nextUploadIdMarker)

/-- The markers behind an entry. -/
def markOf (entry : MultipartUploadListingEntry) : UploadMarker := some (entry.key, entry.uploadId)

/-! ### The entries of a listing -/

variable {pre : Text} {delimiter : Option Text} {uploads uploads' : List MultipartUpload}
  {seen : List Text} {entry : MultipartUploadListingEntry}

/-- The length of the common prefix of an upload. -/
theorem listingEntry_cases (pre : Text) (delimiter : Option Text) (upload : MultipartUpload) :
    (listingEntry pre delimiter upload = .upload upload ∧
      ∀ d ∈ delimiter, findSub d (upload.key.drop pre.length) = none) ∨
    ∃ d i, delimiter = some d ∧ findSub d (upload.key.drop pre.length) = some i ∧
      listingEntry pre delimiter upload = .commonPrefix (upload.key.take (pre.length + i + d.length)) := by
  rw [listingEntry]
  cases delimiter with
  | none => exact .inl ⟨rfl, fun d hd ↦ absurd hd (by simp)⟩
  | some d =>
    cases hfind : findSub d (upload.key.drop pre.length) with
    | none => exact .inl ⟨by simp [hfind], fun d' hd ↦ by rwa [← Option.some.inj hd]⟩
    | some i => exact .inr ⟨d, i, rfl, hfind, by simp [hfind]⟩

/-- **What is listed**: the entries of the uploads below the prefix. -/
theorem mem_listingEntries : entry ∈ listingEntries pre delimiter seen uploads ↔
    (∃ upload ∈ uploads, pre <+: upload.key ∧ listingEntry pre delimiter upload = entry) ∧
      ∀ path ∈ seen, entry ≠ .commonPrefix path := by
  induction uploads generalizing seen with
  | nil => simp [listingEntries]
  | cons upload uploads ih =>
    rw [listingEntries]
    split
    · next hpre =>
      rw [List.isPrefixOf_iff_prefix] at hpre
      rcases listingEntry_cases pre delimiter upload with ⟨hentry, -⟩ | ⟨d, i, -, -, hentry⟩
      · rw [hentry]
        dsimp only
        rw [List.mem_cons, ih]
        constructor
        · rintro (rfl | ⟨⟨u, hu, hentry'⟩, hseen⟩)
          · exact ⟨⟨upload, List.mem_cons_self, hpre, hentry⟩, fun path _ h ↦ by cases h⟩
          · exact ⟨⟨u, List.mem_cons_of_mem _ hu, hentry'⟩, hseen⟩
        · rintro ⟨⟨u, hu, hupre, rfl⟩, hseen⟩
          rcases List.mem_cons.1 hu with rfl | hu
          · exact .inl hentry
          · exact .inr ⟨⟨u, hu, hupre, rfl⟩, hseen⟩
      · rw [hentry]
        dsimp only
        split
        · next hin =>
          rw [List.contains_iff_mem] at hin
          rw [ih]
          refine and_congr_left fun hseen ↦ ?_
          constructor
          · rintro ⟨u, hu, hentry'⟩
            exact ⟨u, List.mem_cons_of_mem _ hu, hentry'⟩
          · rintro ⟨u, hu, hupre, rfl⟩
            rcases List.mem_cons.1 hu with rfl | hu
            · exact absurd hentry (hseen _ hin)
            · exact ⟨u, hu, hupre, rfl⟩
        · next hnew =>
          rw [List.contains_iff_mem] at hnew
          rw [List.mem_cons, ih]
          constructor
          · rintro (rfl | ⟨⟨u, hu, hentry'⟩, hseen⟩)
            · refine ⟨⟨upload, List.mem_cons_self, hpre, hentry⟩, fun path hpath h ↦ ?_⟩
              cases h
              exact hnew hpath
            · exact ⟨⟨u, List.mem_cons_of_mem _ hu, hentry'⟩,
                fun path hpath ↦ hseen path (List.mem_cons_of_mem _ hpath)⟩
          · rintro ⟨⟨u, hu, hupre, rfl⟩, hseen⟩
            by_cases hsame : listingEntry pre delimiter u =
                .commonPrefix (upload.key.take (pre.length + i + d.length))
            · exact .inl hsame
            · rcases List.mem_cons.1 hu with rfl | hu
              · exact absurd hentry hsame
              · refine .inr ⟨⟨u, hu, hupre, rfl⟩, fun path hpath ↦ ?_⟩
                rcases List.mem_cons.1 hpath with rfl | hpath
                · exact hsame
                · exact hseen path hpath
    · next hpre =>
      rw [ih]
      refine and_congr_left fun _ ↦ ?_
      constructor
      · rintro ⟨u, hu, hentry⟩
        exact ⟨u, List.mem_cons_of_mem _ hu, hentry⟩
      · rintro ⟨u, hu, hupre, hentry⟩
        rcases List.mem_cons.1 hu with rfl | hu
        · exact absurd (List.isPrefixOf_iff_prefix.2 hupre) hpre
        · exact ⟨u, hu, hupre, hentry⟩

/-- An entry with the upload it is the entry of. -/
theorem eq_of_listingEntry_eq_upload {upload upload' : MultipartUpload}
    (h : listingEntry pre delimiter upload = .upload upload') : upload = upload' ∧
      ∀ d ∈ delimiter, findSub d (upload.key.drop pre.length) = none := by
  rcases listingEntry_cases pre delimiter upload with ⟨hentry, hnone⟩ | ⟨d, i, -, -, hentry⟩
  · rw [hentry] at h
    exact ⟨MultipartUploadListingEntry.upload.inj h, hnone⟩
  · rw [hentry] at h
    cases h

/-- **A common prefix is not the key of an upload that is listed under its own key.** -/
theorem key_ne_of_commonPrefix {upload upload' : MultipartUpload} {path : Text}
    (h : listingEntry pre delimiter upload = .commonPrefix path)
    (h' : listingEntry pre delimiter upload' = .upload upload') : upload'.key ≠ path := by
  rcases listingEntry_cases pre delimiter upload with ⟨hentry, -⟩ | ⟨d, i, rfl, hfind, hentry⟩
  · rw [hentry] at h
    cases h
  · rw [hentry] at h
    obtain rfl := MultipartUploadListingEntry.commonPrefix.inj h
    intro heq
    have hnone := (eq_of_listingEntry_eq_upload h').2 d rfl
    have htake : (upload.key.drop pre.length).take (i + d.length) =
        upload'.key.drop pre.length := by
      rw [heq, List.drop_take, Nat.add_assoc, Nat.add_sub_cancel_left]
    rw [findSub_of_take_isPrefix hfind (htake ▸ List.prefix_rfl)] at hnone
    cases hnone

theorem rank_eq_iff {entry entry' : MultipartUploadListingEntry} :
    entry.rank = entry'.rank ↔ entry.key = entry'.key ∧ entry.uploadId = entry'.uploadId := by
  rw [MultipartUploadListingEntry.rank, MultipartUploadListingEntry.rank, toLex_inj, Prod.mk.injEq]
  refine and_congr_right fun _ ↦ ?_
  cases entry.uploadId with
  | none => cases entry'.uploadId <;> simp
  | some id =>
    cases entry'.uploadId with
    | none => simp
    | some id' => simp [String.toList_inj]

/-- Distinct ids make distinct entries. -/
theorem nodup_listingEntries (h : (uploads.map (·.uploadId)).Nodup) :
    ((listingEntries pre delimiter seen uploads).map (·.rank)).Nodup := by
  induction uploads generalizing seen with
  | nil => exact List.nodup_nil
  | cons upload uploads ih =>
    rw [List.map_cons, List.nodup_cons] at h
    have hother : ∀ u ∈ uploads, u.uploadId ≠ upload.uploadId := fun u hu heq ↦
      h.1 (List.mem_map.2 ⟨u, hu, heq⟩)
    rw [listingEntries]
    split
    · rcases listingEntry_cases pre delimiter upload with ⟨hentry, -⟩ | ⟨d, i, -, -, hentry⟩
      · rw [hentry]
        dsimp only
        rw [List.map_cons, List.nodup_cons]
        refine ⟨fun hmem ↦ ?_, ih h.2⟩
        obtain ⟨entry, hin, hrank⟩ := List.mem_map.1 hmem
        obtain ⟨⟨u, hu, -, rfl⟩, -⟩ := mem_listingEntries.1 hin
        have hid := (rank_eq_iff.1 hrank).2
        rcases listingEntry_cases pre delimiter u with ⟨hu', -⟩ | ⟨d', i', -, -, hu'⟩
        · rw [hu'] at hid
          exact hother u hu (Option.some.inj hid)
        · rw [hu'] at hid
          cases hid
      · rw [hentry]
        dsimp only
        split
        · exact ih h.2
        · rw [List.map_cons, List.nodup_cons]
          refine ⟨fun hmem ↦ ?_, ih h.2⟩
          obtain ⟨entry, hin, hrank⟩ := List.mem_map.1 hmem
          obtain ⟨⟨u, -, -, rfl⟩, hseen⟩ := mem_listingEntries.1 hin
          obtain ⟨hkey, hid⟩ := rank_eq_iff.1 hrank
          rcases listingEntry_cases pre delimiter u with ⟨hu', -⟩ | ⟨d', i', -, -, hu'⟩
          · rw [hu'] at hid
            cases hid
          · refine hseen _ List.mem_cons_self (hu'.trans ?_)
            rw [hu'] at hkey
            exact congrArg _ hkey
    · exact ih h.2

/-- The sorted entries of a listing. -/
def sortedEntries (pre : Text) (delimiter : Option Text) (uploads : List MultipartUpload) :
    List MultipartUploadListingEntry :=
  (listingEntries pre delimiter [] uploads).insertionSort (·.rank ≤ ·.rank)

theorem mem_sortedEntries : entry ∈ sortedEntries pre delimiter uploads ↔
    ∃ upload ∈ uploads, pre <+: upload.key ∧ listingEntry pre delimiter upload = entry := by
  rw [sortedEntries, List.mem_insertionSort, mem_listingEntries]
  exact and_iff_left fun path hpath ↦ absurd hpath List.not_mem_nil

/-- **The entries are in increasing order**, each once. -/
theorem pairwise_sortedEntries (h : (uploads.map (·.uploadId)).Nodup) :
    (sortedEntries pre delimiter uploads).Pairwise fun x y ↦ x.rank < y.rank := by
  have htotal : Std.Total fun x y : MultipartUploadListingEntry ↦ x.rank ≤ y.rank :=
    ⟨fun x y ↦ le_total x.rank y.rank⟩
  have htrans : IsTrans MultipartUploadListingEntry fun x y ↦ x.rank ≤ y.rank :=
    ⟨fun _ _ _ ↦ le_trans⟩
  have hsorted := List.pairwise_insertionSort (fun x y : MultipartUploadListingEntry ↦
    x.rank ≤ y.rank) (listingEntries pre delimiter [] uploads)
  have hnodup : ((sortedEntries pre delimiter uploads).map (·.rank)).Nodup :=
    ((List.perm_insertionSort _ _).map _).nodup_iff.2 (nodup_listingEntries h)
  exact (hsorted.and (List.pairwise_map.1 hnodup)).imp fun hboth ↦ lt_of_le_of_ne hboth.1 hboth.2

/-- **The order in which the store returns the uploads makes no difference.** -/
theorem sortedEntries_perm (h : (uploads.map (·.uploadId)).Nodup) (hperm : uploads'.Perm uploads) :
    sortedEntries pre delimiter uploads' = sortedEntries pre delimiter uploads := by
  refine @Collapse.eq_of_mem_iff _ _ _ MultipartUploadListingEntry.rank _ _
    (pairwise_sortedEntries ((hperm.map _).nodup_iff.2 h)) (pairwise_sortedEntries h) fun entry ↦ ?_
  rw [mem_sortedEntries, mem_sortedEntries]
  exact exists_congr fun upload ↦ and_congr_left fun _ ↦ hperm.mem_iff

/-! ### Behind a marker -/

theorem keptBehind_iff {marker : Text} {id : Option String} :
    keptBehind (some marker) id entry = true ↔ marker < entry.key ∨
      marker = entry.key ∧ ∃ i ∈ id, ∃ j ∈ entry.uploadId, i.toList < j.toList := by
  rw [keptBehind]
  split
  · next hlt => exact iff_of_true rfl (.inl hlt)
  · next hlt =>
    split
    · next heq => simp [heq, Option.any_eq_true]
    · next hne => exact iff_of_false (by simp) fun h ↦ h.elim hlt fun h ↦ hne h.1.symm

theorem rank_lt_iff {x y : MultipartUploadListingEntry} : x.rank < y.rank ↔ x.key < y.key ∨
    x.key = y.key ∧ ∃ j ∈ y.uploadId, ∀ i ∈ x.uploadId, i.toList < j.toList := by
  rw [MultipartUploadListingEntry.rank, MultipartUploadListingEntry.rank, Prod.Lex.toLex_lt_toLex]
  refine or_congr_right (and_congr_right fun _ ↦ ?_)
  cases x.uploadId with
  | none => cases y.uploadId <;> simp
  | some id => cases y.uploadId <;> simp

/-- **The markers of an entry leave what comes after it.** -/
theorem filter_keptBehind_markOf (h : (uploads.map (·.uploadId)).Nodup)
    {a b : List MultipartUploadListingEntry} {x : MultipartUploadListingEntry}
    (hsplit : sortedEntries pre delimiter uploads = a ++ x :: b) :
    (sortedEntries pre delimiter uploads).filter (keptBehind (some x.key) x.uploadId) = b := by
  have hafter : after (·.rank) (some x.rank) (sortedEntries pre delimiter uploads) = b := by
    refine after_of_append (a := a) (pairwise_sortedEntries h) none ?_
    rw [after_none, hsplit]
  rw [← hafter, after]
  refine List.filter_congr fun y hy ↦ ?_
  have hx : x ∈ sortedEntries pre delimiter uploads := hsplit ▸ by simp
  obtain ⟨u, -, -, hu⟩ := mem_sortedEntries.1 hx
  obtain ⟨v, -, -, hvy⟩ := mem_sortedEntries.1 hy
  rw [Bool.eq_iff_iff, Option.all_some, decide_eq_true_eq, keptBehind_iff, rank_lt_iff]
  refine or_congr_right (and_congr_right fun hkey ↦ ?_)
  cases x with
  | upload upload =>
    show (∃ i ∈ some upload.uploadId, ∃ j ∈ y.uploadId, i.toList < j.toList) ↔
      ∃ j ∈ y.uploadId, ∀ i ∈ some upload.uploadId, i.toList < j.toList
    simp
  | commonPrefix path =>
    -- an upload that is listed under its own key does not have the key of a common prefix
    cases y with
    | commonPrefix path' =>
      refine iff_of_false (fun h ↦ ?_) fun h ↦ ?_
      · obtain ⟨_, h, _⟩ := h
        cases h
      · obtain ⟨_, h, _⟩ := h
        cases h
    | upload upload =>
      obtain ⟨rfl, -⟩ := eq_of_listingEntry_eq_upload hvy
      exact absurd hkey.symm (key_ne_of_commonPrefix hu hvy)

/-! ### Pages -/

/-- A page shows the entries of a chunk. -/
structure ShowsUploads (page : ListMultipartUploadsXml) (chunk : List MultipartUploadListingEntry) :
    Prop where
  uploads : page.uploads = chunk.filterMap (·.upload?)
  commonPrefixes : page.commonPrefixes = chunk.filterMap (·.commonPrefix?)

/-- What is left behind the markers. -/
def entriesBehind (pre : Text) (delimiter : Option Text) (uploads : List MultipartUpload)
    (marker : UploadMarker) : List MultipartUploadListingEntry :=
  (sortedEntries pre delimiter uploads).filter
    (keptBehind (marker.map Prod.fst) (marker.bind Prod.snd))

/-- Neither of the markers is empty. -/
def NonEmptyMarker (marker : UploadMarker) : Prop :=
  ∀ m ∈ marker, m.1 ≠ [] ∧ ∀ id ∈ m.2, id ≠ ""

variable {bucket : Text} {req : Request} {marker : UploadMarker} {n : ℕ}

/-- The prefix of a request. -/
def prefixParam (req : Request) : Text := ((req.queryParam "prefix").getD "").toList

/-- The delimiter of a request, if it has one that is not empty. -/
def delimiterParam (req : Request) : Option Text :=
  (nonEmptyParam req "delimiter").map String.toList

theorem queryParam_atMarker {name : String} (hkey : name ≠ "key-marker")
    (hid : name ≠ "upload-id-marker") :
    (atMarker req marker).queryParam name = req.queryParam name := by
  show ((req.query.set "key-marker" _).set "upload-id-marker" _)[name]? = req.query[name]?
  rw [Table.getElem?_set, if_neg hid, Table.getElem?_set, if_neg hkey]

theorem keyMarker_atMarker (h : NonEmptyMarker marker) :
    (nonEmptyParam (atMarker req marker) "key-marker").map String.toList =
      marker.map Prod.fst := by
  have hread : (atMarker req marker).queryParam "key-marker" =
      marker.map fun m ↦ String.ofList m.1 := by
    show ((req.query.set "key-marker" _).set "upload-id-marker" _)["key-marker"]? = _
    rw [Table.getElem?_set, if_neg (by decide), Table.getElem?_set, if_pos rfl]
  rw [nonEmptyParam, hread]
  cases marker with
  | none => rfl
  | some m =>
    have hne : (String.ofList m.1).isEmpty = false := by
      rw [Bool.eq_false_iff]
      intro hempty
      have hlist := congrArg String.toList (String.isEmpty_iff.1 hempty)
      rw [String.toList_ofList] at hlist
      exact (h m rfl).1 hlist
    rw [Option.map_some, Option.filter_some_pos (by rw [hne]; rfl), Option.map_some,
      Option.map_some, String.toList_ofList]

theorem uploadIdMarker_atMarker (h : NonEmptyMarker marker) :
    nonEmptyParam (atMarker req marker) "upload-id-marker" = marker.bind Prod.snd := by
  have hread : (atMarker req marker).queryParam "upload-id-marker" = marker.bind Prod.snd := by
    show ((req.query.set "key-marker" _).set "upload-id-marker" _)["upload-id-marker"]? = _
    rw [Table.getElem?_set, if_pos rfl]
  rw [nonEmptyParam, hread]
  cases hmarker : marker.bind Prod.snd with
  | none => rfl
  | some id =>
    obtain ⟨m, hm, hid⟩ := Option.bind_eq_some_iff.1 hmarker
    have hne : id.isEmpty = false := by
      rw [Bool.eq_false_iff]
      exact fun hempty ↦ (h m hm).2 id hid (String.isEmpty_iff.1 hempty)
    exact Option.filter_some_pos (by rw [hne]; rfl)

theorem isPage_uploadsPage {keyMarker encodingType : Option String} {keyText : Option Text}
    {entries : List MultipartUploadListingEntry} :
    Paging.IsPage ShowsUploads nextUploadMarker markOf n entries
      (uploadsPage bucket keyText keyMarker pre delimiter encodingType n entries) := by
  refine ⟨⟨rfl, rfl⟩, ?_⟩
  rw [nextUploadMarker, uploadsPage]
  by_cases hmore : n < entries.length
  · simp only [hmore, if_true]
    cases (entries.take n).getLast? <;> rfl
  · simp only [hmore, if_false]
    rfl

/-- **A page is what is left behind its markers**, cut off after `n` entries. -/
theorem listMultipartUploads_eq (hid : (uploads.map (·.uploadId)).Nodup)
    (hmax : maxUploads req = .ok n)
    (hencoding : ∀ value ∈ req.queryParam "encoding-type", eqIgnoreCase value "url" = true)
    (hmarker : NonEmptyMarker marker) (hperm : uploads'.Perm uploads) :
    ∃ page, listMultipartUploads bucket (.ok uploads') (atMarker req marker) = .ok page ∧
      Paging.IsPage ShowsUploads nextUploadMarker markOf n
        (entriesBehind (prefixParam req) (delimiterParam req) uploads marker) page := by
  have hmarkers : ((marker.bind Prod.snd).isSome && (marker.map Prod.fst).isNone) = false := by
    cases marker with
    | none => rfl
    | some m => exact Bool.and_false _
  have hurl : ((req.queryParam "encoding-type").any fun value ↦ !eqIgnoreCase value "url") = false := by
    rw [Option.any_eq_false]
    intro value hvalue
    rw [hencoding value hvalue]
    rfl
  have hmax' : maxUploads (atMarker req marker) = .ok n := by
    rw [maxUploads, queryParam_atMarker (by decide) (by decide)]
    exact hmax
  have hdelimiter : nonEmptyParam (atMarker req marker) "delimiter" = nonEmptyParam req "delimiter" := by
    rw [nonEmptyParam, queryParam_atMarker (by decide) (by decide)]
    rfl
  have hsorted : (listingEntries (prefixParam req) (delimiterParam req) [] uploads').insertionSort
      (·.rank ≤ ·.rank) = sortedEntries (prefixParam req) (delimiterParam req) uploads :=
    sortedEntries_perm hid hperm
  rw [listMultipartUploads]
  simp only [queryParam_atMarker (show "prefix" ≠ "key-marker" by decide) (by decide),
    queryParam_atMarker (show "encoding-type" ≠ "key-marker" by decide) (by decide), hdelimiter,
    keyMarker_atMarker hmarker, uploadIdMarker_atMarker hmarker, hmarkers, hmax', hurl]
  refine ⟨_, rfl, ?_⟩
  rw [entriesBehind, ← hsorted]
  exact isPage_uploadsPage

/-- What a listing of uploads must have, told from the keys: an upload below the prefix without a
delimiter after it. -/
def ListedUpload (pre : Text) (delimiter : Option Text) (upload : MultipartUpload) : Prop :=
  pre <+: upload.key ∧ ∀ d ∈ delimiter, ∀ u v, upload.key ≠ pre ++ u ++ d ++ v

theorem upload_mem_sortedEntries {upload : MultipartUpload} :
    .upload upload ∈ sortedEntries pre delimiter uploads ↔
      upload ∈ uploads ∧ ListedUpload pre delimiter upload := by
  have hnone : pre <+: upload.key → ((∀ d ∈ delimiter, findSub d (upload.key.drop pre.length) = none) ↔
      ∀ d ∈ delimiter, ∀ u v, upload.key ≠ pre ++ u ++ d ++ v) := by
    rintro ⟨t, ht⟩
    refine forall₂_congr fun d _ ↦ ?_
    rw [← ht, List.drop_left, findSub_eq_none_iff]
    refine forall₂_congr fun u v ↦ not_congr ?_
    rw [List.append_assoc pre, List.append_assoc pre, List.append_cancel_left_eq]
  rw [mem_sortedEntries]
  constructor
  · rintro ⟨u, hu, hpre, hentry⟩
    obtain ⟨rfl, hfind⟩ := eq_of_listingEntry_eq_upload hentry
    exact ⟨hu, hpre, (hnone hpre).1 hfind⟩
  · rintro ⟨hu, hpre, hno⟩
    refine ⟨upload, hu, hpre, ?_⟩
    rcases listingEntry_cases pre delimiter upload with ⟨hentry, -⟩ | ⟨d, i, hd, hfind, -⟩
    · exact hentry
    · rw [(hnone hpre).2 hno d hd] at hfind
      cases hfind

/-- The entry of an upload, as the entry of its key. -/
theorem listingEntry_eq_commonPrefix_iff {d path : Text} {upload : MultipartUpload} :
    listingEntry pre (some d) upload = .commonPrefix path ↔
      entryOf pre d upload.key = ⟨path, .commonPrefix⟩ := by
  rw [listingEntry, entryOf, Option.bind_some]
  cases findSub d (upload.key.drop pre.length) with
  | none => simp
  | some i => simp

theorem commonPrefix_mem_sortedEntries {path : Text} (hne : ∀ d ∈ delimiter, d ≠ []) :
    .commonPrefix path ∈ sortedEntries pre delimiter uploads ↔
      Expected (fun key ↦ ∃ upload ∈ uploads, upload.key = key) pre delimiter
        ⟨path, .commonPrefix⟩ := by
  rw [mem_sortedEntries]
  cases delimiter with
  | none =>
    refine iff_of_false (fun ⟨u, _, _, h⟩ ↦ ?_) fun h ↦ ?_
    · cases h
    · obtain ⟨⟩ | ⟨-, hd, -, -⟩ := h
      cases hd
  | some d =>
    constructor
    · rintro ⟨upload, hu, hpre, hentry⟩
      rw [← listingEntry_eq_commonPrefix_iff.1 hentry]
      exact expected_entryOf (hne d rfl) ⟨upload, hu, rfl⟩ hpre
    · intro h
      obtain ⟨key, ⟨upload, hu, rfl⟩, hpre, hentry⟩ := entryOf_of_expected (hne d rfl) h
      exact ⟨upload, hu, hpre, listingEntry_eq_commonPrefix_iff.2 hentry⟩

theorem delimiterParam_ne_nil : ∀ d ∈ delimiterParam req, d ≠ [] := by
  intro d hd
  obtain ⟨text, htext, rfl⟩ := Option.map_eq_some_iff.1 hd
  have hne := (Option.filter_eq_some_iff.1 htext).2
  intro hnil
  rw [String.isEmpty_iff.2 (String.toList_eq_nil_iff.1 hnil)] at hne
  cases hne

/-- **Following the pages shows every upload once.** Whatever the order in which the store returns
the uploads for each page, the pages from no marker on come to an end; put together, their entries
are in strictly increasing order; they hold the uploads below the prefix without a delimiter after
it, the common prefixes of the others, and nothing else. -/
theorem list_multipart_uploads_complete (bucket : Text) {uploads : List MultipartUpload}
    {req : Request} {n : ℕ} (hid : (uploads.map (·.uploadId)).Nodup)
    (hids : ∀ upload ∈ uploads, upload.uploadId ≠ "")
    (hkeys : ∀ upload ∈ uploads, prefixParam req <+: upload.key → upload.key ≠ [])
    (hmax : maxUploads req = .ok n) (hn : 1 ≤ n)
    (hencoding : ∀ value ∈ req.queryParam "encoding-type", eqIgnoreCase value "url" = true)
    {order : UploadMarker → List MultipartUpload} (horder : ∀ m, (order m).Perm uploads) :
    ∃ pages chunks, Walk (fun m ↦ listMultipartUploads bucket (.ok (order m)) (atMarker req m))
        nextUploadMarker none pages ∧
      List.Forall₂ ShowsUploads pages chunks ∧
      chunks.flatten.Pairwise (fun x y ↦ x.rank < y.rank) ∧
      (∀ upload, .upload upload ∈ chunks.flatten ↔
        upload ∈ uploads ∧ ListedUpload (prefixParam req) (delimiterParam req) upload) ∧
      ∀ path, .commonPrefix path ∈ chunks.flatten ↔
        Expected (fun key ↦ ∃ upload ∈ uploads, upload.key = key) (prefixParam req)
          (delimiterParam req) ⟨path, .commonPrefix⟩ := by
  have hall : entriesBehind (prefixParam req) (delimiterParam req) uploads none =
      sortedEntries (prefixParam req) (delimiterParam req) uploads :=
    List.filter_eq_self.2 fun _ _ ↦ rfl
  have hmark : ∀ x ∈ sortedEntries (prefixParam req) (delimiterParam req) uploads,
      NonEmptyMarker (markOf x) := by
    intro x hx m hm
    obtain rfl := Option.some.inj hm
    obtain ⟨upload, hu, hpre, rfl⟩ := mem_sortedEntries.1 hx
    rcases listingEntry_cases (prefixParam req) (delimiterParam req) upload with
      ⟨hentry, -⟩ | ⟨d, i, hd, hfind, hentry⟩
    · rw [hentry]
      refine ⟨hkeys upload hu hpre, fun id hid ↦ ?_⟩
      obtain rfl := Option.some.inj hid
      exact hids upload hu
    · rw [hentry]
      refine ⟨fun hnil ↦ ?_, fun id hid ↦ by cases hid⟩
      have hlength := congrArg List.length (show upload.key.take _ = [] from hnil)
      have hdelimiter := List.length_pos_iff.2 (delimiterParam_ne_nil d hd)
      have hfound := add_length_le_of_findSub hfind
      rw [List.length_take, List.length_nil] at hlength
      rw [List.length_drop] at hfound
      omega
  obtain ⟨pages, chunks, hwalk, hflatten, hshows⟩ := walk_of_cut
    (l := sortedEntries (prefixParam req) (delimiterParam req) uploads) (m := (none : UploadMarker)) hn
    (fun a x b hsplit ↦ filter_keptBehind_markOf hid hsplit) hmark
    (fun m hm ↦ @listMultipartUploads_eq _ _ bucket _ _ _ hid hmax hencoding hm (horder m))
    (fun m hm ↦ by cases hm) (hall ▸ List.suffix_rfl)
  rw [hall] at hflatten
  refine ⟨pages, chunks, hwalk, hshows, ?_, fun upload ↦ ?_, fun path ↦ ?_⟩
  · rw [hflatten]
    exact pairwise_sortedEntries hid
  · rw [hflatten]
    exact upload_mem_sortedEntries
  · rw [hflatten]
    exact commonPrefix_mem_sortedEntries delimiterParam_ne_nil

/-- An upload that has just begun. -/
def begun (id key : String) : MultipartUpload := ⟨id, key.toList, 0, none, ∅, ∅, []⟩

/-- A request for pages of a single entry. -/
def oneByOne : Request where
  route := .bucketGet "bucket".toList
  query := ((∅ : Table String String).set "max-uploads" (some "1")).set "delimiter" (some "/")

/-- Two uploads of one key, and one below a common prefix. -/
theorem two_uploads_of_one_key : ∃ pages, Walk (fun m ↦ listMultipartUploads "bucket".toList
      (.ok [begun "2" "b", begun "3" "a/c", begun "1" "b"]) (atMarker oneByOne m))
    nextUploadMarker none pages := by
  have hplain : oneByOne.queryParam "encoding-type" = none := by decide
  obtain ⟨pages, -, hwalk, -⟩ := @list_multipart_uploads_complete "bucket".toList _ oneByOne 1
    (show ([begun "2" "b", begun "3" "a/c", begun "1" "b"].map (·.uploadId)).Nodup by decide)
    (by decide) (by decide) (by decide) le_rfl
    (fun value hvalue ↦ by rw [hplain] at hvalue; cases hvalue) _ fun _ ↦ .rfl
  exact ⟨pages, hwalk⟩

/-- An id without a key is refused. -/
theorem listMultipartUploads_of_empty_key {answer : Except Error (List MultipartUpload)} {id : String}
    (hid : id ≠ "") : listMultipartUploads bucket answer (atMarker req (some ([], some id))) =
      .error ⟨400, "InvalidArgument", "upload-id-marker requires key-marker."⟩ := by
  have hkey : nonEmptyParam (atMarker req (some ([], some id))) "key-marker" = none := by
    have hread : (atMarker req (some ([], some id))).queryParam "key-marker" = some "" := by
      show ((req.query.set "key-marker" _).set "upload-id-marker" _)["key-marker"]? = _
      rw [Table.getElem?_set, if_neg (by decide), Table.getElem?_set, if_pos rfl]
      rfl
    rw [nonEmptyParam, hread]
    rfl
  have hmarker : nonEmptyParam (atMarker req (some ([], some id))) "upload-id-marker" = some id := by
    have hread : (atMarker req (some ([], some id))).queryParam "upload-id-marker" = some id := by
      show ((req.query.set "key-marker" _).set "upload-id-marker" _)["upload-id-marker"]? = _
      rw [Table.getElem?_set, if_pos rfl]
      rfl
    have hne : id.isEmpty = false := by
      rw [Bool.eq_false_iff]
      exact fun hempty ↦ hid (String.isEmpty_iff.1 hempty)
    rw [nonEmptyParam, hread]
    exact Option.filter_some_pos (by rw [hne]; rfl)
  rw [listMultipartUploads]
  simp only [hkey, hmarker]
  rfl

/-- **A page that ends with an empty key cannot be continued.** -/
theorem empty_key_ends_the_walk : ¬ ∃ pages, Walk (fun m ↦ listMultipartUploads "bucket".toList
      (.ok [begun "1" "", begun "2" "b"]) (atMarker oneByOne m)) nextUploadMarker none pages := by
  rintro ⟨pages, hwalk⟩
  have hfirst : ((listMultipartUploads "bucket".toList (.ok [begun "1" "", begun "2" "b"])
      (atMarker oneByOne none)).toOption.map nextUploadMarker) = some (some (some ([], some "1"))) := by
    decide
  obtain ⟨hr, hnext⟩ | ⟨hr, hnext, hpages⟩ := hwalk
  · rw [hr] at hfirst
    rw [Except.toOption, Option.map_some, hnext] at hfirst
    cases hfirst
  · rw [hr] at hfirst
    rw [Except.toOption, Option.map_some, hnext] at hfirst
    obtain rfl := Option.some.inj (Option.some.inj hfirst)
    obtain ⟨r, hr⟩ := hpages.exists_ok
    rw [listMultipartUploads_of_empty_key (by decide)] at hr
    cases hr

end Sqrzl.S3
