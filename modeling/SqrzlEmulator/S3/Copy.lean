import SqrzlEmulator.S3.Put

/-!
# Copying objects through the S3 front door

The two requests that read one object on behalf of a write to another one: `CopyObject` and
`UploadPartCopy`, both of them a `PUT` with the header `x-amz-copy-source`
(`server/handlers/object.rs` and `object/bounded.rs`).

`object_put` asks `check_authorization` about the **destination** before it looks at anything else,
and nothing asks it about the source. `CopyAdmitted` collects all that is checked, and
`handleObjectPut_copy_ok` says that a copy succeeds exactly when these checks pass.
-/

namespace Sqrzl.S3

open Prog

/-! ### Errors of the store -/

/-- `Error::status_code`, `Error::error_code` and the text of an error. -/
def storageErrorResponse : Error → Refusal
  | .bucketAlreadyExists => ⟨409, "BucketAlreadyExists", "Bucket already exists"⟩
  | .bucketNotFound => ⟨404, "NoSuchBucket", "Bucket not found"⟩
  | .bucketNotEmpty => ⟨409, "BucketNotEmpty", "Bucket not empty"⟩
  | .keyNotFound => ⟨404, "NoSuchKey", "Key not found"⟩
  | .invalidRequest _ => ⟨400, "InvalidRequest", "Invalid request"⟩
  | .noSuchUpload => ⟨404, "NoSuchUpload", "No such upload"⟩
  | .invalidPartNumber => ⟨400, "InvalidPartNumber", "Invalid part number"⟩
  | .invalidPartOrder => ⟨400, "InvalidPartOrder", "Invalid part order"⟩
  | .entityTooSmall =>
    ⟨400, "EntityTooSmall", "Your proposed upload is smaller than the minimum allowed object size"⟩
  | .entityTooLarge =>
    ⟨400, "EntityTooLarge", "Your proposed upload exceeds the maximum allowed object size"⟩
  | .incompleteMultipartUpload =>
    ⟨400, "IncompleteMultipartUpload", "Incomplete multipart upload"⟩
  | .badDigest => ⟨400, "BadDigest", "The checksum does not match the uploaded bytes"⟩
  | .preconditionFailed => ⟨412, "PreconditionFailed", "The publication precondition failed"⟩
  | .noSuchVersion => ⟨404, "NoSuchVersion", "No such version"⟩
  | .messageNotFound => ⟨404, "MessageNotFound", "Message not found"⟩
  | .captureTooLarge =>
    ⟨413, "RequestEntityTooLarge", "Projected materialized capture exceeds the local 64 MiB " ++
      "aggregate limit"⟩
  | .internalError _ => ⟨500, "InternalError", "Internal server error"⟩

/-! ### Bounded reads -/

/-- `MATERIALIZATION_LIMIT` -/
def materializationLimit : ℕ := 64 * 1024 * 1024

/-- `extent_response` -/
def extentResponse : Refusal :=
  ⟨501, "NotImplemented", "This emulator materializes at most 64 MiB per S3 GET or copy. " ++
    "Use a smaller byte range; streamed PUT remains supported."⟩

/-- `bounded::invalid_range` -/
def invalidRange : Refusal := ⟨416, "InvalidRange", "The requested range is not satisfiable."⟩

/-- The first byte of a range, and perhaps its last one. -/
abbrev Range : Type := ℕ × Option ℕ

/-- `parse_range` -/
def parseRange (header : String) : Option Range := do
  guard (startsWith "bytes=" header)
  let (start, last) ← splitOnce '-' (header.toList.drop "bytes=".length)
  let start ← parseU64 (String.ofList start)
  let last := if last.head? = some ' ' then last.drop 1 else last
  return (start, parseU64 (String.ofList last))

/-- `selected_len` -/
def selectedLen (size : ℕ) : Option Range → Option ℕ
  | none => some size
  | some (start, last) =>
    if start < size then
      let last := min (last.getD (size - 1)) (size - 1)
      if start ≤ last then some (last - start + 1) else none
    else
      none

/-- `bounded::payload`, of what is stored. Nothing is replaced between the look at the metadata and
the read. -/
def payload (st : Stored) (range : Option Range) : Except Refusal Object :=
  if st.2.isDeleteMarker then
    .ok st.2
  else
    match selectedLen st.2.size range with
    | none => .error invalidRange
    | some len =>
      if len > materializationLimit then
        .error extentResponse
      else if len = 0 then
        .ok st.2
      else
        let (start, last) := range.getD (0, none)
        let capped := min (start + (materializationLimit - 1)) (2 ^ 64 - 1)
        match readRange st start (some ((last.map (min · capped)).getD capped)) with
        | .error (.invalidRequest _) => .error invalidRange
        | .error e => .error (storageErrorResponse e)
        | .ok data =>
          if data.length ≠ len then .error extentResponse else .ok { st.2 with data := data }

/-! ### Sources of copies -/

/-- The source that a header names. -/
structure CopySource where
  bucket : Text
  key : Text
  versionId : Option String
  deriving DecidableEq

/-- Every `%` is followed by two hexadecimal digits. -/
def validEscapes : Text → Bool
  | [] => true
  | '%' :: a :: b :: rest => isHexDigit a && isHexDigit b && validEscapes rest
  | '%' :: _ => false
  | _ :: rest => validEscapes rest
where
  /-- `u8::is_ascii_hexdigit` -/
  isHexDigit (c : Char) : Bool :=
    c.isDigit || ('a' ≤ c && c ≤ 'f') || ('A' ≤ c && c ≤ 'F')

/-- `decode_uri_path` -/
def decodeUriPath (C : Codec) (value : Text) : Option Text :=
  if validEscapes value then (C.percentDecode (String.ofList value)).map String.toList else none

/-- The version that the query of a copy source names. -/
def copySourceVersion (query : Text) : Option Text :=
  (query.splitOn '&').findSome? fun parameter ↦
    (splitOnce '=' parameter).bind fun (name, value) ↦
      if name = "versionId".toList then some value else none

/-- `parse_copy_source_header` -/
def parseCopySource (C : Codec) (header : String) : Except Refusal CopySource :=
  match splitOnce '/' (header.toList.dropWhile (· = '/')) with
  | none => .error ⟨400, "InvalidArgument", "Invalid copy source format"⟩
  | some (bucket, rest) =>
    let (key, version) := match splitOnce '?' rest with
      | none => (rest, none)
      | some (key, query) => (key, copySourceVersion query)
    let decoded : Option CopySource := do
      let bucket ← decodeUriPath C bucket
      let key ← decodeUriPath C key
      match version with
      | none => return ⟨bucket, key, none⟩
      | some version => return ⟨bucket, key, some (String.ofList (← decodeUriPath C version))⟩
    match decoded with
    | some source => .ok source
    | none => .error ⟨400, "InvalidArgument",
        "The x-amz-copy-source header contains invalid percent encoding."⟩

/-- `check_copy_conditionals` -/
def checkCopyConditionals (C : Codec) (req : Request) (source : Object) : Except Refusal Unit := do
  let matched := (req.header "x-amz-copy-source-if-match").any fun value ↦
    strongEtagListMatches value source.etag
  if (req.header "x-amz-copy-source-if-match").isSome && !matched then
    throw preconditionFailedResponse
  if (req.header "x-amz-copy-source-if-none-match").any fun value ↦
      weakEtagListMatches value source.etag then
    throw preconditionFailedResponse
  if ((req.header "x-amz-copy-source-if-modified-since").bind C.parseRfc2822).any
      (source.lastModified ≤ ·) then
    throw preconditionFailedResponse
  if !matched && ((req.header "x-amz-copy-source-if-unmodified-since").bind C.parseRfc2822).any
      (source.lastModified > ·) then
    throw preconditionFailedResponse

/-! ### The new object -/

/-- `validate_copy_request_contract` -/
def validateCopyContract (req : Request) : Except Refusal Unit := do
  if (req.header "if-none-match").any fun value ↦ trim value ≠ "*" then
    throw ⟨400, "InvalidArgument", "If-None-Match for CopyObject only supports the '*' value."⟩
  if (req.header "x-amz-copy-source-range").isSome then
    throw ⟨400, "InvalidRequest", "x-amz-copy-source-range is valid only for UploadPartCopy."⟩
  ["x-amz-metadata-directive", "x-amz-tagging-directive"].forM fun header ↦ do
    if (req.header header).any fun value ↦
        !eqIgnoreCase value "COPY" && !eqIgnoreCase value "REPLACE" then
      throw ⟨400, "InvalidArgument", header ++ " must be COPY or REPLACE."⟩

/-- `copy_object_replaces_metadata` -/
def copyReplacesMetadata (req : Request) : Bool :=
  eqIgnoreCase ((req.header "x-amz-metadata-directive").getD "COPY") "REPLACE"

/-- `copy_object_tags` -/
def copyTags (C : Codec) (req : Request) (source : Object) :
    Except Refusal (Table String String) :=
  let directive := (req.header "x-amz-tagging-directive").getD "COPY"
  match req.header "x-amz-tagging" with
  | some header =>
    if eqIgnoreCase directive "REPLACE" then
      (parseTagPairs C (header.toList.splitOn '&') ∅).mapError fun e ↦
        { e with message := "Invalid tags: " ++ e.message }
    else
      .error ⟨400, "InvalidTag", "x-amz-tagging requires x-amz-tagging-directive: REPLACE"⟩
  | none => if eqIgnoreCase directive "COPY" then .ok source.tags else .ok ∅

section Handlers

variable (E : Env) (C : Codec) (now : Time)

/-- The object that `copy_loaded_object` stores, from what it has parsed. -/
def copiedObject (key : Text) (req : Request) (source : Object) (tags : Table String String)
    (contracts : List Edit) : Object :=
  let replaces := copyReplacesMetadata req
  let object := Object.newWithMetadataAndEtag now key source.data
    (if replaces then (req.header "content-type").getD "application/octet-stream"
      else source.contentType)
    (if replaces then extractMetadata req else source.metadata)
    (E.md5 source.data)
  let provider := applyEdits clearObjectLock source.providerMetadata
  let provider := if replaces then applyEdits (contentEdits req) provider else provider
  { object with
    providerMetadata := applyEdits contracts provider
    tags := tags }

/-- `store_copied_object` -/
def storeCopiedObject (bucket : String) (key : Text) (req : Request) (object : Object) :
    Handler Unit :=
  match mutationCondition req with
  | some condition => do
    let written ← .mapError internalErrorResponse
      (Vault.putObjectIf E bucket key object object.data condition)
    .refuseIf (!written) preconditionFailedResponse
  | none => .mapError internalErrorResponse (Vault.putObject E bucket key object object.data)

/-- Both copies read their source in this way. What is checked of the metadata first is checked
again of the object that has been read. -/
def readSource (source : CopySource) (range : Option Range) (req : Request) : Handler Object := do
  let found ← .view fun V : Vault ↦
    V.stored (String.ofList source.bucket) source.key source.versionId
  let st ← .ofExcept (found.mapError storageErrorResponse)
  .ofExcept (checkCopyConditionals C req st.2)
  let object ← .ofExcept (payload st range)
  .refuseIf object.isDeleteMarker
    ⟨400, "InvalidRequest", "The source of a copy request may not refer to a delete marker."⟩
  .ofExcept (checkCopyConditionals C req object)
  return object

/-- `copy_object` -/
def copyObject (bucket key : Text) (header : String) (req : Request) : Handler Unit := do
  let source ← .ofExcept (parseCopySource C header)
  let conflict ← .view (foreignHistoryConflict C now (String.ofList source.bucket))
  .refuseIf conflict foreignHistoryConflictResponse
  let object ← readSource C source none req
  .ofExcept (validateCopyContract req)
  let tags ← .ofExcept (copyTags C req object)
  let contracts ← .ofExcept (contractEdits C req)
  storeCopiedObject E (String.ofList bucket) key req (copiedObject E now key req object tags contracts)

/-- `parse_range`, of a header that may be absent. -/
def copySourceRange (req : Request) : Except Refusal (Option Range) :=
  match req.header "x-amz-copy-source-range" with
  | none => .ok none
  | some value =>
    match parseRange value with
    | some range => .ok (some range)
    | none => .error ⟨400, "InvalidArgument", "Invalid x-amz-copy-source-range value."⟩

/-- The number of the part that a request is for. -/
def requestPartNumber (req : Request) : ℕ := ((req.queryParam "partNumber").bind parseU32).getD 0

/-- `upload_part_copy` -/
def uploadPartCopy (bucket key : Text) (header : String) (req : Request) : Handler Unit := do
  let u := (req.queryParam "uploadId").getD ""
  let upload ← .mapError storageErrorResponse (Vault.getUpload (String.ofList bucket) u)
  .refuseIf (upload.record.key ≠ key)
    ⟨400, "InvalidRequest", "The upload ID is not valid for the specified object"⟩
  .refuseIf upload.record.usesCrc32c checksumUnsupported
  let source ← .ofExcept (parseCopySource C header)
  let conflict ← .view (foreignHistoryConflict C now (String.ofList source.bucket))
  .refuseIf conflict foreignHistoryConflictResponse
  let range ← .ofExcept (copySourceRange req)
  let object ← readSource C source range req
  let _ ← .mapError storageErrorResponse
    (Vault.uploadPart E now (String.ofList bucket) u (requestPartNumber req) object.data)
  return ()

/-- The operations of `object_put` that copy. The rest of them stay a parameter. -/
def copies (rest : Operation → Handler Unit) (bucket key : Text) (req : Request) :
    Operation → Handler Unit
  | .copyObject _ => copyObject E C now bucket key ((req.header "x-amz-copy-source").getD "") req
  | .uploadPartCopy _ =>
    uploadPartCopy E C now bucket key ((req.header "x-amz-copy-source").getD "") req
  | operation => rest operation

end Handlers

/-! ### When a copy succeeds -/

section Success

variable {E : Env} {C : Codec} {now : Time} {G : Gate} {bucket key : Text} {req : Request}
  {V V' : Vault} {source : CopySource} {range : Option Range} {object : Object}

/-- All that `object_put` checks before it dispatches a request. -/
structure DestinationAdmitted (C : Codec) (now : Time) (G : Gate) (bucket key : Text) (req : Request)
    (V : Vault) : Prop where
  authorised : G.authorize bucket ⟨"s3:PutObject", some key⟩ = none
  presigned : G.presigned = none
  bucketExists : ¬ V.buckets[String.ofList bucket]?.isNone
  noObjectLockSubresource : ¬ unsupportedObjectLock req
  noVersionTagging : ¬ versionTagging req
  noConflict : ¬ foreignHistoryConflict C now (String.ofList bucket) V
  noChecksum : ¬ (checksumRequested req && (req.header "x-amz-copy-source").isSome)
  document : validateDocument C req = .ok ()
  objectLock : validateObjectLockPut C now V.buckets[String.ofList bucket]? req = .ok ()
  unlocked : ¬ (V.record (String.ofList bucket) key).metadata.any fun existing ↦
    objectIsLocked C now existing &&
      !preservesCurrentVersion V.buckets[String.ofList bucket]? existing
  conditionals : checkPutConditionals C req (V.record (String.ofList bucket) key).metadata = .ok ()

/-- All that a copy checks of its source. Who is copying plays no part in it. -/
structure SourceAdmitted (C : Codec) (now : Time) (req : Request) (range : Option Range) (V : Vault)
    (source : CopySource) (object : Object) : Prop where
  noConflict : ¬ foreignHistoryConflict C now (String.ofList source.bucket) V
  found : ∃ st, V.stored (String.ofList source.bucket) source.key source.versionId = .ok st ∧
    checkCopyConditionals C req st.2 = .ok () ∧ payload st range = .ok object
  notMarker : ¬ object.isDeleteMarker
  conditionals : checkCopyConditionals C req object = .ok ()

/-- All that `copy_object` checks besides. -/
structure ObjectCopyAdmitted (C : Codec) (bucket key : Text) (req : Request) (V : Vault)
    (object : Object) : Prop where
  contract : validateCopyContract req = .ok ()
  tags : ∃ tags, copyTags C req object = .ok tags
  contracts : ∃ contracts, contractEdits C req = .ok contracts
  condition : (mutationCondition req).all fun condition ↦
    condition.holds (V.record (String.ofList bucket) key).metadata

/-- All that `upload_part_copy` checks besides. -/
structure PartCopyAdmitted (bucket key : Text) (req : Request) (V : Vault) (range : Option Range)
    (object : Object) : Prop where
  upload : ∃ B upload, V.buckets[String.ofList bucket]? = some B ∧
    B.uploads[(req.queryParam "uploadId").getD ""]? = some upload ∧
    upload.record.key = key ∧ ¬ upload.record.usesCrc32c ∧
    ¬ (upload.record.limit "__sqrzl_multipart_max_part_size").any (· < object.data.length)
  range : copySourceRange req = .ok range
  partNumber : 1 ≤ requestPartNumber req ∧ requestPartNumber req ≤ 10000

/-- The checks of a copy, for the two kinds of it. -/
def CopyAdmitted (C : Codec) (now : Time) (G : Gate) (bucket key : Text) (req : Request) (V : Vault)
    (source : CopySource) : Prop :=
  DestinationAdmitted C now G bucket key req V ∧
    if req.has "uploadId" && (req.queryParam "partNumber").isSome then
      ∃ range object, SourceAdmitted C now req range V source object ∧
        PartCopyAdmitted bucket key req V range object
    else
      ∃ object, SourceAdmitted C now req none V source object ∧
        ObjectCopyAdmitted C bucket key req V object

/-- The request is for one of the two copies, of what the header says. -/
def IsCopy (req : Request) (header : String) : Prop :=
  ¬ req.has "tagging" ∧ ¬ req.has "acl" ∧ req.header "x-amz-copy-source" = some header

theorem admitObjectPut_ok_iff {existing : Option Object} :
    admitObjectPut C now G bucket key req V = (.ok existing, V') ↔
      DestinationAdmitted C now G bucket key req V ∧
        existing = (V.record (String.ofList bucket) key).metadata ∧ V' = V := by
  simp only [admitObjectPut, refuse_bind_ok, Atomic.view_bind, Atomic.refuseIf_bind_ok,
    Atomic.ofExcept_bind_ok, Atomic.pure_ok]
  constructor
  · rintro ⟨h₁, h₂, h₃, h₄, h₅, h₆, h₇, _, h₈, _, h₉, h₁₀, _, h₁₁, rfl, rfl⟩
    exact ⟨⟨h₁, h₂, h₃, h₄, h₅, h₆, h₇, h₈, h₉, h₁₀, h₁₁⟩, rfl, rfl⟩
  · rintro ⟨⟨h₁, h₂, h₃, h₄, h₅, h₆, h₇, h₈, h₉, h₁₀, h₁₁⟩, rfl, rfl⟩
    exact ⟨h₁, h₂, h₃, h₄, h₅, h₆, h₇, _, h₈, _, h₉, h₁₀, _, h₁₁, rfl, rfl⟩

/-- Reading a source leaves the store as it is. -/
theorem readSource_ok :
    readSource C source range req V = (.ok object, V') ↔
      (∃ st, V.stored (String.ofList source.bucket) source.key source.versionId = .ok st ∧
        checkCopyConditionals C req st.2 = .ok () ∧ payload st range = .ok object) ∧
      ¬ object.isDeleteMarker ∧ checkCopyConditionals C req object = .ok () ∧ V' = V := by
  simp only [readSource, Atomic.view_bind, Atomic.ofExcept_bind_ok, Atomic.refuseIf_bind_ok,
    Atomic.pure_ok]
  constructor
  · rintro ⟨st, hst, _, hconditionals, o, hpayload, hmarker, _, hagain, rfl, rfl⟩
    refine ⟨⟨st, ?_, hconditionals, hpayload⟩, hmarker, hagain, rfl⟩
    cases hfound : V.stored (String.ofList source.bucket) source.key source.versionId with
    | error e =>
      rw [hfound] at hst
      cases hst
    | ok found =>
      rw [hfound] at hst
      cases hst
      rfl
  · rintro ⟨⟨st, hst, hconditionals, hpayload⟩, hmarker, hagain, rfl⟩
    exact ⟨st, by rw [hst]; rfl, (), hconditionals, object, hpayload, hmarker, (), hagain, rfl, rfl⟩

theorem exists_storeCopiedObject_ok {b : String} {B : Bucket} {o : Object}
    (hB : V.buckets[b]? = some B) (hsize : o.data.length = o.size) :
    (∃ V', storeCopiedObject E b key req o V = (.ok (), V')) ↔
      (mutationCondition req).all fun condition ↦ condition.holds (V.record b key).metadata := by
  obtain ⟨W, hput⟩ := Vault.exists_putObject_ok E key hB hsize
  unfold storeCopiedObject
  cases mutationCondition req with
  | none => exact ⟨fun _ ↦ rfl, fun _ ↦ ⟨W, Atomic.mapError_ok.2 hput⟩⟩
  | some condition =>
    rw [Option.all_some]
    constructor
    · rintro ⟨V', h⟩
      obtain ⟨written, t, hput, hwritten⟩ := Atomic.bind_ok.1 h
      obtain ⟨htrue, rfl⟩ := Atomic.refuseIf_ok.1 hwritten
      obtain rfl : written = true := by simpa using htrue
      exact (Vault.mutateIf_ok (Atomic.mapError_ok.1 hput)).1
    · intro hc
      refine ⟨W, Atomic.bind_ok.2 ⟨true, W, Atomic.mapError_ok.2 ?_, rfl⟩⟩
      exact Vault.mutateIf_of_holds hc hput

theorem exists_copyObject_ok {header : String} (hB : ¬ V.buckets[String.ofList bucket]?.isNone) :
    (∃ V', copyObject E C now bucket key header req V = (.ok (), V')) ↔
      ∃ source, parseCopySource C header = .ok source ∧
        ∃ object, SourceAdmitted C now req none V source object ∧
          ObjectCopyAdmitted C bucket key req V object := by
  obtain ⟨B, hB⟩ : ∃ B, V.buckets[String.ofList bucket]? = some B :=
    Option.isSome_iff_exists.1 (by simpa using hB)
  simp only [copyObject, Atomic.view_bind, Atomic.ofExcept_bind_ok, Atomic.refuseIf_bind_ok]
  constructor
  · rintro ⟨V', source, hsource, hconflict, h⟩
    obtain ⟨object, t, hread, hrest⟩ := Atomic.bind_ok.1 h
    obtain ⟨hfound, hmarker, hagain, rfl⟩ := readSource_ok.1 hread
    simp only [Atomic.ofExcept_bind_ok] at hrest
    obtain ⟨_, hcontract, tags, htags, contracts, hcontracts, hstore⟩ := hrest
    refine ⟨source, hsource, object, ⟨hconflict, hfound, hmarker, hagain⟩, hcontract, ⟨tags, htags⟩,
      ⟨contracts, hcontracts⟩, ?_⟩
    exact (exists_storeCopiedObject_ok hB rfl).1 ⟨V', hstore⟩
  · rintro ⟨source, hsource, object, hadmitted, hcontract, ⟨tags, htags⟩, ⟨contracts, hcontracts⟩,
      hcondition⟩
    obtain ⟨V', hstore⟩ := (exists_storeCopiedObject_ok (E := E)
      (o := copiedObject E now key req object tags contracts) hB rfl).2 hcondition
    refine ⟨V', source, hsource, hadmitted.noConflict, Atomic.bind_ok.2 ⟨object, V, ?_, ?_⟩⟩
    · exact readSource_ok.2 ⟨hadmitted.found, hadmitted.notMarker, hadmitted.conditionals, rfl⟩
    · simp only [Atomic.ofExcept_bind_ok]
      exact ⟨(), hcontract, tags, htags, contracts, hcontracts, hstore⟩

theorem exists_uploadPartCopy_ok {header : String} :
    (∃ V', uploadPartCopy E C now bucket key header req V = (.ok (), V')) ↔
      ∃ source, parseCopySource C header = .ok source ∧
        ∃ range object, SourceAdmitted C now req range V source object ∧
          PartCopyAdmitted bucket key req V range object := by
  constructor
  · rintro ⟨V', h⟩
    obtain ⟨upload, t, hupload, hchecks⟩ := Atomic.bind_ok.1 h
    obtain ⟨⟨B, hB, hfound⟩, rfl⟩ := Vault.getUpload_ok.1 (Atomic.mapError_ok.1 hupload)
    simp only [Atomic.view_bind, Atomic.ofExcept_bind_ok, Atomic.refuseIf_bind_ok] at hchecks
    obtain ⟨hkey, hcrc, source, hsource, hconflict, range, hrange, hrest⟩ := hchecks
    obtain ⟨object, t', hread, hwrite⟩ := Atomic.bind_ok.1 hrest
    obtain ⟨hst, hmarker, hagain, rfl⟩ := readSource_ok.1 hread
    obtain ⟨etag, t, hpart, -⟩ := Atomic.bind_ok.1 hwrite
    obtain ⟨B', upload', hB', hfound', hone, hmany, hlimit, -, -⟩ :=
      (Vault.uploadPart_ok now).1 (Atomic.mapError_ok.1 hpart)
    obtain rfl : B' = B := Option.some.inj (hB'.symm.trans hB)
    obtain rfl : upload' = upload := Option.some.inj (hfound'.symm.trans hfound)
    exact ⟨source, hsource, range, object, ⟨hconflict, hst, hmarker, hagain⟩,
      ⟨B', upload', hB, hfound, not_not.1 hkey, hcrc, hlimit⟩, hrange, hone, hmany⟩
  · rintro ⟨source, hsource, range, object, hadmitted,
      ⟨B, upload, hB, hfound, hkey, hcrc, hlimit⟩, hrange, hone, hmany⟩
    obtain ⟨etag, V', hpart⟩ : ∃ etag V', Vault.uploadPart E now (String.ofList bucket)
        ((req.queryParam "uploadId").getD "") (requestPartNumber req) object.data V =
          (.ok etag, V') :=
      ⟨_, _, (Vault.uploadPart_ok now).2 ⟨B, upload, hB, hfound, hone, hmany, hlimit, rfl, rfl⟩⟩
    refine ⟨V', Atomic.bind_ok.2 ⟨upload, V, Atomic.mapError_ok.2 ?_, ?_⟩⟩
    · exact Vault.getUpload_ok.2 ⟨⟨B, hB, hfound⟩, rfl⟩
    · simp only [Atomic.view_bind, Atomic.ofExcept_bind_ok, Atomic.refuseIf_bind_ok]
      refine ⟨not_not.2 hkey, hcrc, source, hsource, hadmitted.noConflict, range, hrange,
        Atomic.bind_ok.2 ⟨object, V, ?_, Atomic.bind_ok.2 ⟨etag, V', ?_, rfl⟩⟩⟩
      · exact readSource_ok.2 ⟨hadmitted.found, hadmitted.notMarker, hadmitted.conditionals, rfl⟩
      · exact Atomic.mapError_ok.2 hpart

/-- **A copy succeeds exactly when its checks pass.** -/
theorem handleObjectPut_copy_ok {rest : Operation → Handler Unit} {header : String}
    (hreq : IsCopy req header) :
    (∃ V', handleObjectPut E C now (copies E C now rest bucket key req) G bucket key req V =
        (.ok (), V')) ↔
      ∃ source, parseCopySource C header = .ok source ∧
        CopyAdmitted C now G bucket key req V source := by
  obtain ⟨htagging, hacl, hheader⟩ := hreq
  have hsome : (req.header "x-amz-copy-source").isSome = true := by rw [hheader]; rfl
  have hgiven : (req.header "x-amz-copy-source").getD "" = header := by rw [hheader]; rfl
  have hdispatch : (∃ V', handleObjectPut E C now (copies E C now rest bucket key req) G bucket key
      req V = (.ok (), V')) ↔ DestinationAdmitted C now G bucket key req V ∧
        ∃ V', (if req.has "uploadId" && (req.queryParam "partNumber").isSome then
          uploadPartCopy E C now bucket key header req
        else
          copyObject E C now bucket key header req) V = (.ok (), V') := by
    simp only [handleObjectPut, if_neg htagging, if_neg hacl, if_pos hsome, copies, hgiven]
    constructor
    · rintro ⟨V', h⟩
      obtain ⟨existing, t, hpassed, hcopy⟩ := Atomic.bind_ok.1 h
      obtain ⟨hadmitted, -, rfl⟩ := admitObjectPut_ok_iff.1 hpassed
      exact ⟨hadmitted, V', hcopy⟩
    · rintro ⟨hadmitted, V', h⟩
      exact ⟨V', Atomic.bind_ok.2 ⟨_, V, admitObjectPut_ok_iff.2 ⟨hadmitted, rfl, rfl⟩, h⟩⟩
  rw [hdispatch]
  unfold CopyAdmitted
  by_cases hpart : (req.has "uploadId" && (req.queryParam "partNumber").isSome) = true
  · simp only [if_pos hpart, exists_uploadPartCopy_ok]
    exact ⟨fun ⟨hd, source, hsource, h⟩ ↦ ⟨source, hsource, hd, h⟩,
      fun ⟨source, hsource, hd, h⟩ ↦ ⟨hd, source, hsource, h⟩⟩
  · simp only [if_neg hpart]
    constructor
    · rintro ⟨hd, h⟩
      obtain ⟨source, hsource, h⟩ := (exists_copyObject_ok hd.bucketExists).1 h
      exact ⟨source, hsource, hd, h⟩
    · rintro ⟨source, hsource, hd, h⟩
      exact ⟨hd, (exists_copyObject_ok hd.bucketExists).2 ⟨source, hsource, h⟩⟩

end Success

end Sqrzl.S3
