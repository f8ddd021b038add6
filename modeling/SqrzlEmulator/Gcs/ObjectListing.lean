import SqrzlEmulator.Gcs.Model
import SqrzlEmulator.S3.ObjectListing

/-!
# Listing objects page by page

The object listings of `providers/gcs.rs`: `list_json_objects` of the JSON API, and the two versions
of `list_xml_bucket`. They differ in how they find out that there is another page.

* The JSON API takes the answer of the store, objects and common prefixes, with its marker.
* The XML API asks the store for one entry more than the page may have, **through `list_blobs`,
  which drops the common prefixes**, and takes the number of objects that are left.

A page token is the marker with its kind and a digest, separated by NULs (`encodePageToken`), and
is read by splitting at every NUL. **A marker with a NUL is not read again**
(`decode_encodePageToken`).

`list_eq` says what a page is in terms of the sorted listing: with the JSON API a piece of it, and
with the XML API the objects among `n + 1` entries. **If a common prefix is among these, the page is
the last one**, whatever comes behind it. `listing_pages_complete_iff` says exactly when a client
sees all objects.
-/

namespace Sqrzl.Gcs.Listing

open Collapse Paging Percent S3

/-! ### Tokens -/

/-- What the digest of a token is taken of, in hexadecimal digits. -/
def pageDigest (C : Codec) (kind marker : Text) : Text :=
  C.hexEncode (C.digest .sha256 (utf8 ("sqrzl-gcs-".toList ++ kind ++ ':' :: marker)))

/-- `encode_page_token` -/
def encodePageToken (C : Codec) (kind marker : Text) : Text :=
  C.urlSafeEncode (utf8 (kind ++ '\x00' :: (marker ++ '\x00' :: pageDigest C kind marker)))

/-- `decode_page_token` -/
def decodePageToken (C : Codec) (kind token : Text) : Option Text :=
  match ((C.urlSafeDecode token).bind fromUtf8).map (·.splitOn '\x00') with
  | some [suppliedKind, marker, suppliedDigest] =>
    if suppliedKind = kind && suppliedDigest = pageDigest C kind marker then some marker else none
  | _ => none

/-! ### The handlers -/

/-- The items and prefixes of a page, and what it names for the next one: `nextPageToken`,
`NextMarker` or `NextContinuationToken`. An XML page is truncated exactly if it names something. -/
structure ListPage where
  items : List Object
  prefixes : List Text := []
  next : Option Text

/-- `json_max_results` -/
def jsonMaxResults (req : Request) : Except Response ℕ :=
  match req.queryParam "maxResults" with
  | none => .ok 1000
  | some raw =>
    match parseU32 raw with
    | some value => .ok (min value 1000)
    | none => .error (.jsonError 400 "invalidParameter" "Invalid value for maxResults")

/-- `xml_max_keys` -/
def xmlMaxKeys (req : Request) : Except Response ℕ :=
  match req.queryParam "max-keys" with
  | none => .ok 1000
  | some raw =>
    match (parseU32 raw).filter (0 < ·) with
    | some value => .ok value
    | none => .error (.xmlError 400 "InvalidArgument" "max-keys must be a positive integer.")

/-- A parameter that is a key or part of one. -/
def textParam (req : Request) (name : String) : Option Text :=
  (req.queryParam name).map String.toList

/-- The text of a storage error is not modelled. -/
def listingError (json : Bool) (bucket : String) : Error → Response
  | .bucketNotFound =>
    if json then jsonUploadError 404 s!"The specified bucket {bucket} does not exist."
    else .xmlError 404 "NoSuchBucket" s!"The specified bucket {bucket} does not exist."
  | _ =>
    if json then jsonUploadError 500 "internal error"
    else .xmlError 500 "InternalError" "internal error"

section Handlers

variable (C : Codec) (store : ListStore) (bucket : String)

/-- `list_json_objects` -/
def listJsonObjects (req : Request) : Except Response ListPage := do
  let marker ← match textParam req "pageToken" with
    | some token =>
      match decodePageToken C "objects".toList token with
      | some marker => pure (some marker)
      | none => throw (.jsonError 400 "invalidParameter" "Invalid pageToken")
    | none => pure none
  let maxResults ← jsonMaxResults req
  match store (textParam req "prefix") (textParam req "delimiter") marker
      (some (max maxResults 1)) with
  | .error error => throw (listingError true bucket error)
  | .ok result =>
    let zeroPageHasEntries :=
      maxResults = 0 && (!result.commonPrefixes.isEmpty || !result.objects.isEmpty)
    return {
      items := if maxResults = 0 then [] else result.objects
      prefixes := if maxResults = 0 then [] else result.commonPrefixes
      next :=
        if zeroPageHasEntries then some (encodePageToken C "objects".toList [])
        else if result.isTruncated then
          result.nextMarker.map (encodePageToken C "objects".toList)
        else none }

/-- `list_blobs` -/
def listBlobs (pre delimiter marker : Option Text) (maxKeys : Option ℕ) :
    Except Error (List Object) :=
  (store pre delimiter marker maxKeys).map (·.objects)

/-- `list_xml_bucket_v2` -/
def listXmlBucketV2 (req : Request) (maxResults : ℕ) : Except Response ListPage := do
  let continuationMarker ← match textParam req "continuation-token" with
    | some token =>
      match decodePageToken C "xml-objects".toList token with
      | some marker => pure (some marker)
      | none =>
        throw (.xmlError 400 "InvalidArgument" "The continuation token provided is incorrect.")
    | none => pure none
  let marker := continuationMarker.or (textParam req "start-after")
  match listBlobs store (textParam req "prefix") (textParam req "delimiter") marker
      (some (maxResults + 1)) with
  | .error error => throw (listingError false bucket error)
  | .ok blobs =>
    return {
      items := blobs.take maxResults
      next :=
        if maxResults < blobs.length then
          some (encodePageToken C "xml-objects".toList
            (((blobs.take maxResults).getLast?.map (·.key)).getD []))
        else none }

/-- `list_xml_bucket` -/
def listXmlBucket (req : Request) : Except Response ListPage := do
  if (req.queryParam "versions").isSome then
    throw (.xmlError 501 "NotImplemented"
      "GCS XML object version listings are not supported by this emulator surface.")
  let maxResults ← xmlMaxKeys req
  match req.queryParam "list-type" with
  | some "2" => listXmlBucketV2 C store bucket req maxResults
  | none | some "1" =>
    match listBlobs store (textParam req "prefix") (textParam req "delimiter")
        (textParam req "marker") (some (maxResults + 1)) with
    | .error error => throw (listingError false bucket error)
    | .ok blobs =>
      return {
        items := blobs.take maxResults
        next :=
          if maxResults < blobs.length then
            some (((blobs.take maxResults).getLast?.map (·.key)).getD [])
          else none }
  | some _ => throw (.xmlError 400 "InvalidArgument" "list-type must be 1 or 2.")

end Handlers

/-! ### Tokens that are read again -/

section Tokens

variable {C : Codec} {kind marker token : Text}

/-- **A token is read again exactly if its marker has no NUL.** -/
theorem decode_encodePageToken (hkind : '\x00' ∉ kind) :
    decodePageToken C kind (encodePageToken C kind marker) =
      if '\x00' ∈ marker then none else some marker := by
  have hbytes : (C.urlSafeDecode (encodePageToken C kind marker)).bind fromUtf8 =
      some (kind ++ '\x00' :: (marker ++ '\x00' :: pageDigest C kind marker)) := by
    rw [encodePageToken, C.urlSafeDecode_encode, Option.bind_some]
    exact fromUtf8_eq_some_iff.2 rfl
  have hsplit : (kind ++ '\x00' :: (marker ++ '\x00' :: pageDigest C kind marker)).splitOn '\x00' =
      kind :: (marker.splitOn '\x00' ++ [pageDigest C kind marker]) := by
    have hdigest : '\x00' ∉ pageDigest C kind marker := C.nul_notMem_hexEncode _
    rw [List.splitOn_append_cons_self, List.splitOn_append_cons_self,
      List.splitOn_eq_singleton hkind, List.splitOn_eq_singleton hdigest]
    rfl
  rw [decodePageToken, hbytes, Option.map_some, hsplit]
  split_ifs with hmarker
  · obtain ⟨a, b, rfl⟩ := List.append_of_mem hmarker
    rw [List.splitOn_append_cons_self]
    obtain ⟨x, xs, hx⟩ := List.exists_cons_of_ne_nil (List.splitOn_ne_nil '\x00' a)
    obtain ⟨y, ys, hy⟩ := List.exists_cons_of_ne_nil (List.splitOn_ne_nil '\x00' b)
    rw [hx, hy]
    cases xs with
    | nil => cases ys <;> rfl
    | cons x' xs => cases xs <;> rfl
  · rw [List.splitOn_eq_singleton hmarker]
    simp

end Tokens

/-! ### The three protocols -/

/-- The three listings of the front door. -/
inductive Protocol where
  | json
  | xmlV1
  | xmlV2
  deriving DecidableEq

namespace Protocol

/-- The parameter that the marker of a page comes back in. -/
def tokenParam : Protocol → String
  | json => "pageToken"
  | xmlV1 => "marker"
  | xmlV2 => "continuation-token"

/-- The handler. -/
def list (C : Codec) (store : ListStore) (bucket : String) : Protocol → Request →
    Except Response ListPage
  | json => listJsonObjects C store bucket
  | _ => listXmlBucket C store bucket

/-- How many entries a page may have. -/
def pageSize : Protocol → Request → Except Response ℕ
  | json => jsonMaxResults
  | _ => xmlMaxKeys

/-- The request is one for object pages of the protocol, and does not say where to start. -/
def Chosen (req : Request) : Protocol → Prop
  | json => True
  | xmlV1 => req.queryParam "versions" = none ∧
      (req.queryParam "list-type" = none ∨ req.queryParam "list-type" = some "1")
  | xmlV2 => req.queryParam "versions" = none ∧ req.queryParam "list-type" = some "2" ∧
      req.queryParam "start-after" = none

/-- The token of a path. -/
def tokenOf (C : Codec) (path : Text) : Protocol → Text
  | json => encodePageToken C "objects".toList path
  | xmlV1 => path
  | xmlV2 => encodePageToken C "xml-objects".toList path

/-- What a token is read as. -/
def read (C : Codec) (token : Text) : Protocol → Option Text
  | json => decodePageToken C "objects".toList token
  | xmlV1 => some token
  | xmlV2 => decodePageToken C "xml-objects".toList token

/-- The token of the path is read again. -/
def Readable (path : Text) : Protocol → Prop
  | xmlV1 => True
  | _ => '\x00' ∉ path

theorem read_tokenOf (C : Codec) (path : Text) (protocol : Protocol) :
    (protocol.Readable path → protocol.read C (protocol.tokenOf C path) = some path) ∧
      (¬ protocol.Readable path → protocol.read C (protocol.tokenOf C path) = none) := by
  have hobjects : '\x00' ∉ "objects".toList := by decide
  have hxml : '\x00' ∉ "xml-objects".toList := by decide
  cases protocol with
  | json =>
    have hread := @decode_encodePageToken C _ path hobjects
    exact ⟨fun h ↦ hread.trans (if_neg h), fun h ↦ hread.trans (if_pos (not_not.1 h))⟩
  | xmlV1 => exact ⟨fun _ ↦ rfl, fun h ↦ absurd trivial h⟩
  | xmlV2 =>
    have hread := @decode_encodePageToken C _ path hxml
    exact ⟨fun h ↦ hread.trans (if_neg h), fun h ↦ hread.trans (if_pos (not_not.1 h))⟩

/-- The request for the page of a token, or for the first page. -/
def withToken (protocol : Protocol) (req : Request) (token : Option Text) : Request :=
  { req with query := req.query.set protocol.tokenParam (token.map String.ofList) }

/-- The pages that a client gets that follows the tokens. -/
def Lists (protocol : Protocol) (C : Codec) (store : ListStore) (bucket : String) (req : Request)
    (pages : List ListPage) : Prop :=
  Walk (fun token ↦ protocol.list C store bucket (protocol.withToken req token))
    (fun page ↦ page.next.map some) none pages

end Protocol

/-! ### What a client should get -/

/-- Everything that is asked for is there once, and nothing else. -/
def ShowsOnce (shown : List Text) (asked : Text → Prop) : Prop :=
  shown.Nodup ∧ ∀ path, path ∈ shown ↔ asked path

/-- **The pages come to an end and show every object below the prefix once** that has no delimiter
behind it; the JSON pages also show every common prefix once. -/
def Complete (protocol : Protocol) (C : Codec) (store : ListStore) (bucket : String)
    (keys : Text → Prop) (req : Request) : Prop :=
  ∃ pages, protocol.Lists C store bucket req pages ∧
    ShowsOnce (pages.flatMap fun page ↦ page.items.map (·.key)) (fun path ↦
      Expected keys ((textParam req "prefix").getD []) (textParam req "delimiter")
        ⟨path, .object⟩) ∧
    (protocol = .json → ShowsOnce (pages.flatMap (·.prefixes)) fun path ↦
      Expected keys ((textParam req "prefix").getD []) (textParam req "delimiter")
        ⟨path, .commonPrefix⟩)

/-! ### When there is another page -/

/-- Another page is found: there are more than `n` entries, and for the XML API **the next `n + 1`
of them are objects**. -/
def Goes (n : ℕ) (rest : List DirectoryEntry) : Protocol → Prop
  | .json => n < rest.length
  | _ => n < rest.length ∧ ∀ e ∈ rest.take (n + 1), e.kind = .object

/-- The entries that the last page looks at. -/
def lastWindow (n : ℕ) (rest : List DirectoryEntry) : Protocol → List DirectoryEntry
  | .json => rest
  | _ => rest.take (n + 1)

/-- **The pages are complete**: on all pages but the last one there is another page to be found, and
its token is read again; and behind the window of the last page there is no object. -/
def PagesSuffice (protocol : Protocol) (n : ℕ) (entries : List DirectoryEntry) : Prop :=
  ∃ k, (∀ j < k, Goes n (entries.drop (j * n)) protocol ∧
      ∀ e ∈ ((entries.drop (j * n)).take n).getLast?, protocol.Readable e.path) ∧
    ¬ Goes n (entries.drop (k * n)) protocol ∧
    ∀ e ∈ (entries.drop (k * n)).drop (lastWindow n (entries.drop (k * n)) protocol).length,
      e.kind ≠ .object

/-! ### Pages -/

section Pages

variable {C : Codec} {ix : BucketIndex} {metadataExists : Text → Bool}
  {getObjectMetadata : Text → Except Error Object} {bucket : String} {req : Request}
  {token : Option Text} {protocol : Protocol} {n : ℕ}

/-- A page shows the objects of a chunk, and a JSON page its common prefixes. -/
def ShowsChunk (protocol : Protocol) (page : ListPage) (chunk : List DirectoryEntry) : Prop :=
  page.items.map (·.key) = pathsOf .object chunk ∧
    (protocol = .json → page.prefixes = pathsOf .commonPrefix chunk)

/-- The marker that a token stands for. -/
def markerOf (protocol : Protocol) (C : Codec) (token : Option Text) : Option Text :=
  token.bind fun t ↦ protocol.read C t

/-- A token that is not read as a marker is not sent. -/
def GoodToken (protocol : Protocol) (C : Codec) (token : Option Text) : Prop :=
  ∀ t ∈ token, (protocol.read C t).isSome

theorem queryParam_withToken {name : String} (hname : name ≠ protocol.tokenParam) :
    (protocol.withToken req token).queryParam name = req.queryParam name := by
  show (req.query.set protocol.tokenParam _)[name]? = req.query[name]?
  rw [Table.getElem?_set, if_neg hname]

theorem textParam_withToken {name : String} (hname : name ≠ protocol.tokenParam) :
    textParam (protocol.withToken req token) name = textParam req name := by
  rw [textParam, queryParam_withToken hname, textParam]

theorem textParam_tokenParam :
    textParam (protocol.withToken req token) protocol.tokenParam = token := by
  have hread : (protocol.withToken req token).queryParam protocol.tokenParam =
      token.map String.ofList := by
    show (req.query.set protocol.tokenParam _)[protocol.tokenParam]? = _
    rw [Table.getElem?_set, if_pos rfl]
  rw [textParam, hread]
  cases token with
  | none => rfl
  | some t => rw [Option.map_some, Option.map_some, String.toList_ofList]

/-- The JSON page of a marker is the page of the store. -/
theorem listJsonObjects_eq {result : ListObjectsResult} {store : ListStore}
    (hmax : jsonMaxResults req = .ok n) (hn : 1 ≤ n) (htoken : GoodToken .json C token)
    (hstore : store (textParam req "prefix") (textParam req "delimiter") (markerOf .json C token)
      (some n) = .ok result) :
    listJsonObjects C store bucket (Protocol.json.withToken req token) = .ok {
      items := result.objects
      prefixes := result.commonPrefixes
      next := if result.isTruncated then
        result.nextMarker.map (encodePageToken C "objects".toList) else none } := by
  have hmax' : jsonMaxResults (Protocol.json.withToken req token) = .ok n := by
    rw [jsonMaxResults, queryParam_withToken (by decide)]
    exact hmax
  have hpre : textParam (Protocol.json.withToken req token) "prefix" = textParam req "prefix" :=
    textParam_withToken (by decide)
  have hdelimiter : textParam (Protocol.json.withToken req token) "delimiter" =
      textParam req "delimiter" := textParam_withToken (by decide)
  have hpage : textParam (Protocol.json.withToken req token) "pageToken" = token :=
    textParam_tokenParam
  have hne : n ≠ 0 := by omega
  have hone : max n 1 = n := Nat.max_eq_left hn
  rw [listJsonObjects, hpage, hmax', hpre, hdelimiter]
  generalize encodePageToken C "objects".toList = encode
  cases token with
  | none =>
    rw [show markerOf .json C none = none from rfl] at hstore
    simp only [pure, bind, Except.pure, Except.bind, hone, hstore, hne, if_false, decide_false,
      Bool.false_and, Bool.false_eq_true]
  | some t =>
    obtain ⟨marker, hmarker⟩ := Option.isSome_iff_exists.1 (htoken t rfl)
    have hdecode : decodePageToken C "objects".toList t = some marker := hmarker
    rw [show markerOf .json C (some t) = some marker from hmarker] at hstore
    simp only [pure, bind, Except.pure, Except.bind, hdecode, hone, hstore, hne, if_false,
      decide_false, Bool.false_and, Bool.false_eq_true]

/-- An XML page is the objects among `n + 1` entries of the store, and there is another page exactly
if all of them are objects. -/
theorem listXml_eq {result : ListObjectsResult} {store : ListStore} (hprotocol : protocol ≠ .json)
    (hchosen : protocol.Chosen req) (hmax : xmlMaxKeys req = .ok n)
    (htoken : GoodToken protocol C token)
    (hstore : store (textParam req "prefix") (textParam req "delimiter")
      (markerOf protocol C token) (some (n + 1)) = .ok result) :
    protocol.list C store bucket (protocol.withToken req token) = .ok {
      items := result.objects.take n
      next := if n < result.objects.length then
        some (protocol.tokenOf C (((result.objects.take n).getLast?.map (·.key)).getD [])) else
          none } := by
  have hmax' : xmlMaxKeys (protocol.withToken req token) = .ok n := by
    rw [xmlMaxKeys, queryParam_withToken (by cases protocol <;> decide)]
    exact hmax
  have hpre : textParam (protocol.withToken req token) "prefix" = textParam req "prefix" :=
    textParam_withToken (by cases protocol <;> decide)
  have hdelimiter : textParam (protocol.withToken req token) "delimiter" =
      textParam req "delimiter" := textParam_withToken (by cases protocol <;> decide)
  cases protocol with
  | json => exact absurd rfl hprotocol
  | xmlV1 =>
    obtain ⟨hversions, htype⟩ := hchosen
    have hversions' : (Protocol.xmlV1.withToken req token).queryParam "versions" = none :=
      (queryParam_withToken (by decide)).trans hversions
    have htype' : (Protocol.xmlV1.withToken req token).queryParam "list-type" =
        req.queryParam "list-type" := queryParam_withToken (by decide)
    have hmarker : textParam (Protocol.xmlV1.withToken req token) "marker" =
        markerOf .xmlV1 C token := by
      rw [show "marker" = Protocol.xmlV1.tokenParam from rfl, textParam_tokenParam]
      cases token <;> rfl
    show listXmlBucket C store bucket (Protocol.xmlV1.withToken req token) = _
    rw [listXmlBucket, hversions', hmax', hpre, hdelimiter, hmarker, htype']
    rcases htype with htype | htype
    · rw [htype]
      simp only [Option.isSome_none, Bool.false_eq_true, if_false, pure, bind, Except.pure,
        Except.bind, listBlobs, hstore, Except.map]
      rfl
    · rw [htype]
      simp only [Option.isSome_none, Bool.false_eq_true, if_false, pure, bind, Except.pure,
        Except.bind, listBlobs, hstore, Except.map]
      rfl
  | xmlV2 =>
    obtain ⟨hversions, htype, hstart⟩ := hchosen
    have hversions' : (Protocol.xmlV2.withToken req token).queryParam "versions" = none :=
      (queryParam_withToken (by decide)).trans hversions
    have htype' : (Protocol.xmlV2.withToken req token).queryParam "list-type" = some "2" :=
      (queryParam_withToken (by decide)).trans htype
    have hstart' : textParam (Protocol.xmlV2.withToken req token) "start-after" = none := by
      rw [textParam_withToken (by decide), textParam, hstart]
      rfl
    have hpage : textParam (Protocol.xmlV2.withToken req token) "continuation-token" = token :=
      textParam_tokenParam
    show listXmlBucket C store bucket (Protocol.xmlV2.withToken req token) = _
    rw [listXmlBucket, hversions', hmax', htype']
    show listXmlBucketV2 C store bucket (Protocol.xmlV2.withToken req token) n = _
    rw [listXmlBucketV2, hpage, hpre, hdelimiter, hstart']
    cases token with
    | none =>
      rw [show markerOf .xmlV2 C none = none from rfl] at hstore
      simp only [pure, bind, Except.pure, Except.bind, listBlobs, Option.or_none, hstore,
        Except.map]
      rfl
    | some t =>
      obtain ⟨marker, hmarker⟩ := Option.isSome_iff_exists.1 (htoken t rfl)
      have hdecode : decodePageToken C "xml-objects".toList t = some marker := hmarker
      rw [show markerOf .xmlV2 C (some t) = some marker from hmarker] at hstore
      simp only [pure, bind, Except.pure, Except.bind, listBlobs, Option.or_none, hdecode, hstore,
        Except.map]
      rfl

/-- A token that is not read as a marker gets no page. -/
theorem goodToken_of_ok {store : ListStore} {page : ListPage} (hchosen : protocol.Chosen req)
    (h : protocol.list C store bucket (protocol.withToken req token) = .ok page) :
    GoodToken protocol C token := by
  intro t ht
  obtain rfl : token = some t := ht
  by_contra hbad
  have hnone : protocol.read C t = none := Option.not_isSome_iff_eq_none.1 hbad
  cases protocol with
  | json =>
    have hdecode : decodePageToken C "objects".toList t = none := hnone
    have hpage : textParam (Protocol.json.withToken req (some t)) "pageToken" = some t :=
      textParam_tokenParam
    have hlist : listJsonObjects C store bucket (Protocol.json.withToken req (some t)) =
        .ok page := h
    rw [listJsonObjects, hpage] at hlist
    simp only [hdecode, bind, Except.bind, throw, throwThe, MonadExceptOf.throw] at hlist
    cases hlist
  | xmlV1 => cases hnone
  | xmlV2 =>
    obtain ⟨hversions, htype, hstart⟩ := hchosen
    have hdecode : decodePageToken C "xml-objects".toList t = none := hnone
    have hpage : textParam (Protocol.xmlV2.withToken req (some t)) "continuation-token" = some t :=
      textParam_tokenParam
    have hversions' : (Protocol.xmlV2.withToken req (some t)).queryParam "versions" = none :=
      (queryParam_withToken (by decide)).trans hversions
    have htype' : (Protocol.xmlV2.withToken req (some t)).queryParam "list-type" = some "2" :=
      (queryParam_withToken (by decide)).trans htype
    have hlist : listXmlBucket C store bucket (Protocol.xmlV2.withToken req (some t)) =
        .ok page := h
    rw [listXmlBucket, hversions', htype'] at hlist
    obtain ⟨size, -, hlist⟩ := Prog.ok_of_bind hlist
    have hv2 : listXmlBucketV2 C store bucket (Protocol.xmlV2.withToken req (some t)) size =
        .ok page := hlist
    rw [listXmlBucketV2, hpage] at hv2
    simp only [hdecode, bind, Except.bind, throw, throwThe, MonadExceptOf.throw] at hv2
    cases hv2

theorem pathsOf_of_forall {kind : DirectoryEntryKind} {l : List DirectoryEntry}
    (h : ∀ e ∈ l, e.kind = kind) : pathsOf kind l = l.map (·.path) := by
  rw [pathsOf, List.filter_eq_self.2 fun e he ↦ decide_eq_true (h e he)]

/-- `n + 1` entries of a window are objects exactly if `n + 1` objects are found there. -/
theorem goes_iff {rest : List DirectoryEntry} (hprotocol : protocol ≠ .json) :
    Goes n rest protocol ↔ n < (pathsOf .object (rest.take (n + 1))).length := by
  have hgoes : Goes n rest protocol ↔
      n < rest.length ∧ ∀ e ∈ rest.take (n + 1), e.kind = .object := by
    cases protocol with
    | json => exact absurd rfl hprotocol
    | xmlV1 => exact Iff.rfl
    | xmlV2 => exact Iff.rfl
  rw [hgoes, pathsOf, List.length_map]
  constructor
  · intro h
    rw [List.filter_eq_self.2 fun e he ↦ decide_eq_true (h.2 e he), List.length_take]
    omega
  · intro h
    have hfilter := List.length_filter_le (fun e ↦ decide (e.kind = .object)) (rest.take (n + 1))
    have htake : (rest.take (n + 1)).length = min (n + 1) rest.length := List.length_take
    refine ⟨by omega, fun e he ↦ ?_⟩
    have hall : (rest.take (n + 1)).filter (fun e ↦ decide (e.kind = .object)) =
        rest.take (n + 1) := List.filter_sublist.eq_of_length (by omega)
    rw [← hall] at he
    exact of_decide_eq_true (List.mem_filter.1 he).2

theorem lastWindow_of_ne {rest : List DirectoryEntry} (hprotocol : protocol ≠ .json) :
    lastWindow n rest protocol = rest.take (n + 1) := by
  cases protocol with
  | json => exact absurd rfl hprotocol
  | xmlV1 => rfl
  | xmlV2 => rfl

/-- **A page is what comes after its marker in the listing**, cut off by the rules of its protocol.
The objects that the XML pages show are counted without the common prefixes between them. -/
theorem list_eq (hix : ix.Consistent)
    (hmeta : ∀ key, ix.objects[key]?.isSome → metadataExists key = true)
    (hget : ∀ key, ix.objects[key]?.isSome → ∃ o, getObjectMetadata key = .ok o ∧ o.key = key)
    (hsize : protocol.pageSize req = .ok n) (hn : 1 ≤ n) (hchosen : protocol.Chosen req)
    (htoken : GoodToken protocol C token) :
    ∃ page, protocol.list C (listObjects ix metadataExists getObjectMetadata) bucket
        (protocol.withToken req token) = .ok page ∧
      IsCut (ShowsChunk protocol) (fun page ↦ page.next.map some)
        (fun e ↦ some (protocol.tokenOf C e.path)) n (Goes n · protocol)
        (lastWindow n · protocol)
        (after (·.path) (markerOf protocol C token)
          (listing ix (textParam req "prefix") (textParam req "delimiter"))) page := by
  generalize hrest : after (·.path) (markerOf protocol C token)
    (listing ix (textParam req "prefix") (textParam req "delimiter")) = rest
  by_cases hprotocol : protocol = .json
  · subst hprotocol
    obtain ⟨result, hresult, hpage⟩ := @listObjects_eq ix metadataExists getObjectMetadata
      (textParam req "prefix") (textParam req "delimiter") (markerOf .json C token) n hix hn hmeta
      hget
    rw [hrest] at hpage
    refine ⟨_, listJsonObjects_eq hsize hn htoken hresult, fun hgo ↦ ⟨⟨hpage.shows.objects,
      fun _ ↦ hpage.shows.commonPrefixes⟩, ?_⟩, fun hgo ↦ ⟨?_, ?_⟩⟩
    · have hlt : n < rest.length := hgo
      dsimp only
      rw [hpage.isTruncated, hpage.nextMarker, if_pos (decide_eq_true hlt), if_pos hlt,
        Option.map_map, Option.map_map]
      rfl
    · have hlt : ¬ n < rest.length := hgo
      have hall : rest.take n = rest := List.take_of_length_le (not_lt.1 hlt)
      have hshows := hpage.shows
      rw [hall] at hshows
      exact ⟨hshows.objects, fun _ ↦ hshows.commonPrefixes⟩
    · have hlt : ¬ n < rest.length := hgo
      dsimp only
      rw [hpage.isTruncated, if_neg (mt of_decide_eq_true hlt)]
      rfl
  · obtain ⟨result, hresult, hpage⟩ := @listObjects_eq ix metadataExists getObjectMetadata
      (textParam req "prefix") (textParam req "delimiter") (markerOf protocol C token) (n + 1) hix
      (Nat.succ_pos n) hmeta hget
    rw [hrest] at hpage
    have hmax : xmlMaxKeys req = .ok n := by
      cases protocol with
      | json => exact absurd rfl hprotocol
      | xmlV1 => exact hsize
      | xmlV2 => exact hsize
    have hlength : result.objects.length = (pathsOf .object (rest.take (n + 1))).length := by
      rw [← hpage.shows.objects, List.length_map]
    have hkeys : (result.objects.take n).map (·.key) =
        (pathsOf .object (rest.take (n + 1))).take n := by
      rw [← hpage.shows.objects, List.map_take]
    refine ⟨_, listXml_eq hprotocol hchosen hmax htoken hresult, fun hgo ↦ ?_, fun hgo ↦ ⟨⟨?_,
      fun h ↦ absurd h hprotocol⟩, ?_⟩⟩
    · have hlt := (goes_iff hprotocol).1 hgo
      have hobjects : ∀ e ∈ rest.take (n + 1), e.kind = .object := by
        cases protocol with
        | json => exact absurd rfl hprotocol
        | xmlV1 => exact hgo.2
        | xmlV2 => exact hgo.2
      have htake : (rest.take (n + 1)).take n = rest.take n := by
        rw [List.take_take, Nat.min_eq_left (by omega)]
      rw [pathsOf_of_forall hobjects, ← List.map_take, htake] at hkeys
      have hchunk : ∀ e ∈ rest.take n, e.kind = .object := fun e he ↦
        hobjects e ((List.take_sublist_take_left (Nat.le_succ n)).subset he)
      refine ⟨⟨?_, fun h ↦ absurd h hprotocol⟩, ?_⟩
      · rw [pathsOf_of_forall hchunk]
        exact hkeys
      · have hlast : (result.objects.take n).getLast?.map (·.key) =
            (rest.take n).getLast?.map (·.path) := by
          rw [← List.getLast?_map, hkeys, List.getLast?_map]
        have hne : rest.take n ≠ [] := by
          refine List.ne_nil_of_length_pos ?_
          have hle : (pathsOf .object (rest.take (n + 1))).length ≤ (rest.take (n + 1)).length := by
            rw [pathsOf, List.length_map]
            exact List.length_filter_le _ _
          rw [List.length_take] at hle ⊢
          omega
        dsimp only
        rw [hlength, if_pos hlt, hlast, List.getLast?_eq_some_getLast hne]
        rfl
    · rw [lastWindow_of_ne hprotocol]
      have hle := not_lt.1 (mt (goes_iff hprotocol).2 hgo)
      dsimp only
      rw [hkeys, List.take_of_length_le hle]
    · dsimp only
      rw [hlength, if_neg (mt (goes_iff hprotocol).2 hgo)]
      rfl

/-! ### Walks -/

/-- The token of a path is a good one exactly if it is read again. -/
theorem goodToken_iff {path : Text} :
    GoodToken protocol C (some (protocol.tokenOf C path)) ↔ protocol.Readable path := by
  obtain ⟨hread, hunread⟩ := protocol.read_tokenOf C path
  constructor
  · intro h
    by_contra hnot
    have hsome := h _ rfl
    rw [hunread hnot] at hsome
    cases hsome
  · intro h t ht
    obtain rfl : protocol.tokenOf C path = t := Option.some.inj ht
    rw [hread h]
    rfl

theorem mem_pathsOf_iff {kind : DirectoryEntryKind} {l : List DirectoryEntry} {path : Text} :
    path ∈ pathsOf kind l ↔ ⟨path, kind⟩ ∈ l := by
  rw [pathsOf, List.mem_map]
  constructor
  · intro h
    obtain ⟨e, he, rfl⟩ := h
    obtain ⟨hmem, hkind⟩ := List.mem_filter.1 he
    obtain rfl : e.kind = kind := of_decide_eq_true hkind
    exact hmem
  · exact fun h ↦ ⟨_, List.mem_filter.2 ⟨h, decide_eq_true rfl⟩, rfl⟩

/-- What pages show together. -/
theorem shows_flatten {pages : List ListPage} {chunks : List (List DirectoryEntry)}
    (h : List.Forall₂ (ShowsChunk protocol) pages chunks) :
    (pages.flatMap fun page ↦ page.items.map (·.key)) = pathsOf .object chunks.flatten ∧
      (protocol = .json → pages.flatMap (·.prefixes) = pathsOf .commonPrefix chunks.flatten) := by
  induction h with
  | nil => exact ⟨rfl, fun _ ↦ rfl⟩
  | cons hpage _ ih =>
    refine ⟨?_, fun hjson ↦ ?_⟩
    · rw [List.flatMap_cons, List.flatten_cons, ih.1, hpage.1, pathsOf, pathsOf, pathsOf,
        List.filter_append, List.map_append]
    · rw [List.flatMap_cons, List.flatten_cons, ih.2 hjson, hpage.2 hjson, pathsOf, pathsOf,
        pathsOf, List.filter_append, List.map_append]

/-- **The beginning of a listing shows everything of a kind exactly if there is nothing of the kind
behind it.** -/
theorem showsOnce_iff {kind : DirectoryEntryKind} {shown behind : List DirectoryEntry}
    (hsorted : (shown ++ behind).Pairwise fun x y ↦ x.path < y.path) :
    ShowsOnce (pathsOf kind shown) (fun path ↦ ⟨path, kind⟩ ∈ shown ++ behind) ↔
      ∀ e ∈ behind, e.kind ≠ kind := by
  obtain ⟨hshown, -, hbehind⟩ := List.pairwise_append.1 hsorted
  constructor
  · intro h e he hkind
    subst hkind
    have hmem := mem_pathsOf_iff.1 ((h.2 e.path).2 (List.mem_append_right _ he))
    exact lt_irrefl _ (hbehind _ hmem _ he)
  · intro h
    refine ⟨?_, fun path ↦ ?_⟩
    · exact (hshown.filter _).map _ fun x y hlt ↦ ne_of_lt hlt
    · show path ∈ pathsOf kind shown ↔ ⟨path, kind⟩ ∈ shown ++ behind
      rw [mem_pathsOf_iff, List.mem_append]
      exact ⟨Or.inl, fun hmem ↦ hmem.resolve_right fun hrest ↦ h _ hrest rfl⟩

/-- The last page is the first one that finds no other. -/
theorem last_unique {goes : ℕ → Prop} {k k' : ℕ} (h : ∀ j < k, goes j) (hlast : ¬ goes k)
    (h' : ∀ j < k', goes j) (hlast' : ¬ goes k') : k = k' := by
  rcases Nat.lt_trichotomy k k' with hlt | heq | hlt
  · exact absurd (h' k hlt) hlast
  · exact heq
  · exact absurd (h k' hlt) hlast'

theorem goes_length {rest : List DirectoryEntry} (h : Goes n rest protocol) : n < rest.length := by
  cases protocol with
  | json => exact h
  | xmlV1 => exact h.1
  | xmlV2 => exact h.1

theorem lastWindow_append {rest : List DirectoryEntry} :
    lastWindow n rest protocol ++ rest.drop (lastWindow n rest protocol).length = rest := by
  have hprefix : lastWindow n rest protocol <+: rest := by
    cases protocol with
    | json => exact List.prefix_rfl
    | xmlV1 => exact List.take_prefix _ _
    | xmlV2 => exact List.take_prefix _ _
  obtain ⟨behind, hbehind⟩ := hprefix
  generalize lastWindow n rest protocol = window at *
  rw [← hbehind, List.drop_left]

/-- **When listing page by page is complete.** -/
theorem complete_iff (hix : ix.Consistent)
    (hmeta : ∀ key, ix.objects[key]?.isSome → metadataExists key = true)
    (hget : ∀ key, ix.objects[key]?.isSome → ∃ o, getObjectMetadata key = .ok o ∧ o.key = key)
    (hsize : protocol.pageSize req = .ok n) (hn : 1 ≤ n) (hchosen : protocol.Chosen req) :
    Complete protocol C (listObjects ix metadataExists getObjectMetadata) bucket
        (fun key ↦ ix.objects[key]?.isSome) req ↔
      PagesSuffice protocol n
        (listing ix (textParam req "prefix") (textParam req "delimiter")) := by
  have hsorted := pairwise_listing ix (textParam req "prefix") (textParam req "delimiter")
  have hlisting : ∀ e, e ∈ listing ix (textParam req "prefix") (textParam req "delimiter") ↔
      Expected (fun key ↦ ix.objects[key]?.isSome) ((textParam req "prefix").getD [])
        (textParam req "delimiter") e := fun e ↦ mem_listing_iff
  have hquery (token : Option Text) (htoken : GoodToken protocol C token) :=
    @list_eq C ix metadataExists getObjectMetadata bucket req token protocol n hix hmeta hget hsize
      hn hchosen htoken
  generalize listing ix (textParam req "prefix") (textParam req "delimiter") = entries at *
  have hfirst : after (·.path) (markerOf protocol C none) entries = entries := after_none
  have hcut : ∀ a x b, entries = a ++ x :: b →
      GoodToken protocol C (some (protocol.tokenOf C x.path)) →
      after (·.path) (markerOf protocol C (some (protocol.tokenOf C x.path))) entries = b := by
    intro a x b hsplit hgood
    have hread := (protocol.read_tokenOf C x.path).1 (goodToken_iff.1 hgood)
    rw [markerOf, Option.bind_some, hread]
    exact after_of_append hsorted none (by rw [after_none]; exact hsplit)
  obtain ⟨k, hmore, hlast⟩ := @exists_last _ (Goes n · protocol) n
    (fun _ ↦ goes_length) hn entries
  have hwalk := walk_iff_of_cut (m := none) (l := entries) (k := k) hn (fun _ ↦ goes_length) hcut
    hquery (fun token page ↦ goodToken_of_ok hchosen) (fun t ht ↦ by cases ht)
    (by rw [hfirst]) (by rw [hfirst]; exact hmore) (by rw [hfirst]; exact hlast)
  rw [hfirst] at hwalk
  obtain ⟨hexists, hshown⟩ := hwalk
  have hreadable : (∀ j < k, ∀ x ∈ ((entries.drop (j * n)).take n).getLast?,
      GoodToken protocol C (some (protocol.tokenOf C x.path))) ↔
      ∀ j < k, ∀ x ∈ ((entries.drop (j * n)).take n).getLast?, protocol.Readable x.path :=
    forall₄_congr fun j _ x _ ↦ goodToken_iff
  have hparts : entries = (entries.take (k * n) ++ lastWindow n (entries.drop (k * n)) protocol) ++
      (entries.drop (k * n)).drop (lastWindow n (entries.drop (k * n)) protocol).length := by
    rw [List.append_assoc, lastWindow_append, List.take_append_drop]
  generalize hwindow : entries.take (k * n) ++ lastWindow n (entries.drop (k * n)) protocol =
    shown at *
  generalize hleft : (entries.drop (k * n)).drop
    (lastWindow n (entries.drop (k * n)) protocol).length = behind at *
  have hobjects : ShowsOnce (pathsOf .object shown) (fun path ↦
      Expected (fun key ↦ ix.objects[key]?.isSome) ((textParam req "prefix").getD [])
        (textParam req "delimiter") ⟨path, .object⟩) ↔ ∀ e ∈ behind, e.kind ≠ .object := by
    rw [← showsOnce_iff (hparts ▸ hsorted), ← hparts]
    simp only [hlisting]
  constructor
  · intro h
    obtain ⟨pages, hlists, honce, -⟩ := h
    obtain ⟨chunks, hchunks, hflatten⟩ := hshown pages hlists
    rw [(shows_flatten hchunks).1, hflatten] at honce
    refine ⟨k, fun j hj ↦ ⟨hmore j hj, hreadable.1 (hexists.1 ⟨pages, hlists⟩) j hj⟩, hlast, ?_⟩
    rw [hleft]
    exact hobjects.1 honce
  · intro h
    obtain ⟨k', hpages, hlast', hbehind⟩ := h
    obtain rfl := last_unique hmore hlast (fun j hj ↦ (hpages j hj).1) hlast'
    rw [hleft] at hbehind
    obtain ⟨pages, hlists⟩ := hexists.2 (hreadable.2 fun j hj ↦ (hpages j hj).2)
    obtain ⟨chunks, hchunks, hflatten⟩ := hshown pages hlists
    refine ⟨pages, hlists, ?_, fun hjson ↦ ?_⟩
    · rw [(shows_flatten hchunks).1, hflatten]
      exact hobjects.2 hbehind
    · -- nothing is left behind the last page of the JSON API
      have hnil : behind = [] := by
        rw [← hleft, hjson]
        exact List.drop_length
      have hprefixes : ShowsOnce (pathsOf .commonPrefix shown) fun path ↦
          ⟨path, .commonPrefix⟩ ∈ shown ++ behind :=
        (showsOnce_iff (hparts ▸ hsorted)).2 fun e he ↦ by rw [hnil] at he; cases he
      rw [← hparts] at hprefixes
      simp only [hlisting] at hprefixes
      rw [(shows_flatten hchunks).2 hjson, hflatten]
      exact hprefixes

end Pages

/-- **Completeness of listings.** For each of the three protocols, whatever the bucket has, a client
that starts without a token and follows what the pages name comes to an end and has seen every
object once (and, with the JSON API, every common prefix) exactly if there is another page to be
found on all pages but the last one, the tokens in between are read again, and no object is behind
what the last page looks at. And a token is read as the marker it was made from exactly if the
marker has no NUL. -/
theorem listing_pages_complete_iff (C : Codec) (ops : List IndexOp) (bucket : String)
    (metadataExists : Text → Bool) (getObjectMetadata : Text → Except Error Object)
    (hmeta : ∀ key, ((LockFreeIndex.run ops).bucketIndex bucket).objects[key]?.isSome →
      metadataExists key = true ∧ ∃ o, getObjectMetadata key = .ok o ∧ o.key = key)
    (protocol : Protocol) (req : Request) (n : ℕ) (hsize : protocol.pageSize req = .ok n)
    (hn : 1 ≤ n) (hchosen : protocol.Chosen req) :
    let ix := (LockFreeIndex.run ops).bucketIndex bucket
    (Complete protocol C (listObjects ix metadataExists getObjectMetadata) bucket
        (fun key ↦ ix.objects[key]?.isSome) req ↔
      PagesSuffice protocol n
        (listing ix (textParam req "prefix") (textParam req "delimiter"))) ∧
    ∀ kind ∈ ["objects".toList, "xml-objects".toList], ∀ marker,
      decodePageToken C kind (encodePageToken C kind marker) = some marker ↔ '\x00' ∉ marker := by
  intro ix
  refine ⟨complete_iff (LockFreeIndex.consistent_bucketIndex ops bucket)
    (fun key hkey ↦ (hmeta key hkey).1) (fun key hkey ↦ (hmeta key hkey).2) hsize hn hchosen,
    fun kind hkind marker ↦ ?_⟩
  have hnul : '\x00' ∉ kind := by
    rcases List.mem_cons.1 hkind with rfl | hkind
    · decide
    · obtain rfl := List.mem_singleton.1 hkind
      decide
  rw [decode_encodePageToken hnul]
  split
  · next hmem => exact iff_of_false (fun h ↦ by cases h) fun hnot ↦ hnot hmem
  · next hmem => exact iff_of_true rfl hmem

/-- An object listing of at most so many entries, by the first version of the XML API. -/
def atMost (maxKeys : String) : Request where
  method := .get
  query := ((∅ : Table String String).set "max-keys" (some maxKeys)).set "delimiter" (some "/")

/-- Two objects in pages of one. -/
theorem two_objects : Complete .xmlV1 plainCodec
    (listObjects ((LockFreeIndex.run [.insert "b" "b".toList, .insert "b" "c".toList]).bucketIndex
      "b") (fun _ ↦ true) emptyObject) "b"
    (fun key ↦ (((LockFreeIndex.run [.insert "b" "b".toList, .insert "b" "c".toList]).bucketIndex
      "b").objects[key]?).isSome) (atMost "1") := by
  refine (listing_pages_complete_iff plainCodec
    [.insert "b" "b".toList, .insert "b" "c".toList] "b" (fun _ ↦ true) emptyObject
    (fun _ _ ↦ ⟨rfl, _, rfl, rfl⟩) .xmlV1 (atMost "1") 1 (by decide) le_rfl
    ⟨by decide, .inl (by decide)⟩).1.2 ?_
  have hlisting : listing ((LockFreeIndex.run
      [.insert "b" "b".toList, .insert "b" "c".toList]).bucketIndex "b")
      (textParam (atMost "1") "prefix") (textParam (atMost "1") "delimiter") =
      [⟨"b".toList, .object⟩, ⟨"c".toList, .object⟩] := by decide
  rw [hlisting]
  refine ⟨1, fun j hj ↦ ?_, fun h ↦ ?_, by decide⟩
  · obtain rfl := Nat.lt_one_iff.1 hj
    exact ⟨⟨by decide, by decide⟩, fun e he ↦ trivial⟩
  · exact absurd h.1 (by decide)

/-- **The object behind a common prefix is lost**: the first page of `a/x`, `b` and `c` looks at the
prefix `a/` and at `b`, and finds one object where it looks for two. And the token of a NUL is not
read again. -/
theorem lost_behind_prefix :
    ¬ Complete .xmlV1 plainCodec
      (listObjects ((LockFreeIndex.run [.insert "b" "a/x".toList, .insert "b" "b".toList,
        .insert "b" "c".toList]).bucketIndex "b") (fun _ ↦ true) emptyObject) "b"
      (fun key ↦ (((LockFreeIndex.run [.insert "b" "a/x".toList, .insert "b" "b".toList,
        .insert "b" "c".toList]).bucketIndex "b").objects[key]?).isSome) (atMost "1") ∧
    decodePageToken plainCodec "objects".toList
      (encodePageToken plainCodec "objects".toList ['\x00']) = none := by
  refine ⟨fun h ↦ ?_, ?_⟩
  · have hchosen : Protocol.xmlV1.Chosen (atMost "1") :=
      ⟨by decide, .inl (by decide)⟩
    have hpages := (complete_iff (n := 1) (LockFreeIndex.consistent_bucketIndex _ "b")
      (fun _ _ ↦ rfl) (fun _ _ ↦ ⟨_, rfl, rfl⟩) (by decide) le_rfl hchosen).1 h
    have hlisting : listing ((LockFreeIndex.run [.insert "b" "a/x".toList,
        .insert "b" "b".toList, .insert "b" "c".toList]).bucketIndex "b")
        (textParam (atMost "1") "prefix") (textParam (atMost "1") "delimiter") =
        [⟨"a/".toList, .commonPrefix⟩, ⟨"b".toList, .object⟩, ⟨"c".toList, .object⟩] := by
      decide
    rw [hlisting] at hpages
    obtain ⟨k, hmore, -, hbehind⟩ := hpages
    cases k with
    | zero => exact hbehind ⟨"c".toList, .object⟩ (by decide) rfl
    | succ k =>
      have hgo := (hmore 0 (Nat.succ_pos k)).1.2 ⟨"a/".toList, .commonPrefix⟩ (by decide)
      cases hgo
  · rw [decode_encodePageToken (by decide)]
    rfl

end Sqrzl.Gcs.Listing
