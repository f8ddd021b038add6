import SqrzlEmulator.Gcs.MultipartUpload
import SqrzlEmulator.Gcs.Store

/-!
# Handlers for objects

The routes of `providers/gcs.rs` that read, write and delete objects: the XML API, the JSON API, and
the uploads of the JSON API in one request. Resumable uploads are in the next module.

All writes build their object in the same way (`objectFor`) and differ in what they ask before: an
upload of the JSON API asks about retention twice, a write of the XML API once.
-/

namespace Sqrzl.Gcs

open Prog S3

/-! ### Checksums -/

section Checksums

variable (C : Crates)

/-- One token of an `x-goog-hash` header, after the tokens before it. -/
def checkHashToken (expected : Option UInt32) (token : String) :
    Except UploadMetadataError (Option UInt32) :=
  match splitOnce '=' (trim token).toList with
  | none => .error (.invalid "X-Goog-Hash checksum tokens must use algorithm=value syntax")
  | some (algorithm, encoded) =>
    if !eqIgnoreCase (String.ofList algorithm) "crc32c" then
      .error (.unsupported ("X-Goog-Hash algorithm " ++ String.ofList algorithm ++
        " is not supported by this emulator surface"))
    else
      match C.base64Decode (String.ofList encoded) with
      | none => .error (.invalid "X-Goog-Hash crc32c must be base64-encoded big-endian bytes")
      | some bytes =>
        match fromBeBytes bytes with
        | none => .error (.invalid "X-Goog-Hash crc32c must decode to exactly four bytes")
        | some parsed =>
          if expected.any (· ≠ parsed) then
            .error (.invalid "X-Goog-Hash contains conflicting CRC32C values")
          else
            .ok (some parsed)

/-- `request_crc32c` -/
def requestCrc32c (req : Request) : Except UploadMetadataError (Option UInt32) :=
  match req.header "x-goog-hash" with
  | none => .ok none
  | some value =>
    if trim value = "" then .error (.invalid "X-Goog-Hash must contain a checksum token")
    else (splitCommas value).foldlM (checkHashToken C) none

/-- `combined_crc32c` -/
def combinedCrc32c (metadata header : Option UInt32) : Except UploadMetadataError (Option UInt32) :=
  match metadata, header with
  | some metadata, some header =>
    if metadata ≠ header then
      .error (.invalid
        "Object metadata and X-Goog-Hash contain conflicting CRC32C values")
    else .ok (some metadata)
  | some expected, none => .ok (some expected)
  | none, header => .ok header

/-- The digests that the headers of an XML upload announce. -/
structure Digests where
  md5 : Option Bytes := none
  crc32c : Option Bytes := none

/-- Keep a digest, unless another one was announced. -/
def agree (old : Option Bytes) (new : Bytes) : Option (Option Bytes) :=
  if old.any (· ≠ new) then none else some (some new)

/-- One token of an `x-goog-hash` header of an XML upload. -/
def checkXmlHashToken (digests : Digests) (token : String) : Except Response Digests :=
  let invalid (message : String) : Except Response Digests := .error (.xmlError 400 "InvalidHash" message)
  let keep (old : Option Bytes) (length : ℕ) (encoded : Text) (set : Option Bytes → Digests) :
      Except Response Digests :=
    match (C.base64Decode (String.ofList encoded)).filter fun bytes ↦ bytes.length = length with
    | none => invalid "X-Goog-Hash contains an invalid checksum digest."
    | some bytes =>
      match agree old bytes with
      | none => invalid "Supplied checksums for one algorithm must agree."
      | some kept => .ok (set kept)
  match splitOnce '=' (trim token).toList with
  | none => invalid "X-Goog-Hash must use algorithm=value tokens."
  | some (algorithm, encoded) =>
    if eqIgnoreCase (String.ofList algorithm) "md5" then
      keep digests.md5 16 encoded fun kept ↦ { digests with md5 := kept }
    else if eqIgnoreCase (String.ofList algorithm) "crc32c" then
      keep digests.crc32c 4 encoded fun kept ↦ { digests with crc32c := kept }
    else
      invalid "X-Goog-Hash accepts only MD5 and CRC32C."

/-- The digest of a `content-md5` header. -/
def contentMd5 (req : Request) : Except Response Digests :=
  match req.header "content-md5" with
  | none => .ok {}
  | some value =>
    match (C.base64Decode value).filter fun bytes ↦ bytes.length = 16 with
    | none => .error (.xmlError 400 "InvalidDigest" "Content-MD5 must encode a 16-byte MD5 digest.")
    | some bytes => .ok { md5 := some bytes }

/-- The digests of an `x-goog-hash` header, next to those before it. -/
def googHash (req : Request) (digests : Digests) : Except Response Digests :=
  match req.header "x-goog-hash" with
  | none => .ok digests
  | some value => (splitCommas value).foldlM (checkXmlHashToken C) digests

/-- `validate_xml_upload_checksums` -/
def validateXmlUploadChecksums (E : Env) (req : Request) : Except Response Unit := do
  let digests ← contentMd5 C req
  let digests ← googHash C req digests
  refuseWhen (digests.md5.any (· ≠ C.digest .md5 req.body) ||
      digests.crc32c.any fun bytes ↦ fromBeBytes bytes ≠ some (E.crc32cAppend 0 req.body))
    (.xmlError 400 "BadDigest" "The supplied checksum does not match the uploaded data.")

end Checksums

/-! ### Refusals -/

/-- `GCS_MAX_OBJECT_SIZE` -/
def maxObjectSize : ℕ := 5 * 1024 * 1024 * 1024 * 1024

/-- `object_too_large_response` -/
def objectTooLargeResponse (jsonApi : Bool) : Response :=
  let message := "The uploaded object exceeds the 5 TiB Cloud Storage limit."
  if jsonApi then jsonUploadError 400 message else .xmlError 400 "EntityTooLarge" message

/-- `upload_metadata_error_response` -/
def uploadMetadataErrorResponse : UploadMetadataError → Response
  | .invalid message => jsonUploadError 400 message
  | .checksumMismatch message => .jsonError 400 "invalid" message
  | .unsupported message => jsonUploadError 501 message

/-- The message of a checksum that does not match. -/
def checksumMismatch (E : Env) (provided calculated : UInt32) : UploadMetadataError :=
  .checksumMismatch ("Provided CRC32C \"" ++ E.base64 provided ++
    "\" does not match calculated CRC32C \"" ++ E.base64 calculated ++ "\"")

/-- `retention_policy_not_met_response` -/
def retentionPolicyNotMetResponse : Response :=
  .jsonError 403 "retentionPolicyNotMet" "Object is subject to an active retention policy"

/-- The same in the XML API. -/
def xmlRetentionPolicyNotMetResponse : Response :=
  .xmlError 403 "RetentionPolicyNotMet" "Object is subject to an active retention policy"

/-- `json_not_found` -/
def jsonNotFound (key : Text) : Response :=
  .jsonError 404 "notFound" ("No such object: " ++ String.ofList key)

/-- `json_bucket_not_found` -/
def jsonBucketNotFound (b : String) : Response :=
  jsonUploadError 404 ("The specified bucket " ++ b ++ " does not exist.")

/-- `xml_bucket_not_found` -/
def xmlBucketNotFound (b : String) : Response :=
  .xmlError 404 "NoSuchBucket" ("The specified bucket " ++ b ++ " does not exist.")

/-- `foreign_data_protection_json_response` -/
def foreignDataProtectionJsonResponse : Response :=
  .jsonError 409 "conflict" ("GCS object history and data protection are unavailable while another " ++
    "provider owns this bucket's retention or versioning mode")

/-- `foreign_data_protection_xml_response` -/
def foreignDataProtectionXmlResponse : Response :=
  .xmlError 409 "InvalidBucketState" ("GCS object history is unavailable while another provider owns " ++
    "this bucket's retention or versioning mode")

/-- An error of the store in the XML API. -/
def xmlStorageError (b : String) : Error → Response
  | .bucketNotFound => xmlBucketNotFound b
  | .keyNotFound => .xmlError 404 "NoSuchKey" "The specified key does not exist."
  | _ => .xmlError 500 "InternalError" "internal error"

/-- An error of the store in the JSON API. -/
def jsonStorageError (b : String) (key : Text) : Error → Response
  | .keyNotFound => jsonNotFound key
  | .bucketNotFound => jsonBucketNotFound b
  | _ => jsonUploadError 500 "internal error"

section Handlers

variable (E : Env) (C : Crates) (now : Time)

/-! ### What is asked before a change -/

/-- `object_is_retained` -/
def objectIsRetained (b : String) (o : Object) : Handler Bool :=
  (getBucket .retention b).attempt.bind fun
    | .ok B => ret (retainedIn now B o)
    | .error _ => ret false

/-- `existing_object_is_retained` -/
def existingObjectIsRetained (b : String) (key : Text) : Handler Bool :=
  (getObjectMetadata .retention b key).attempt.bind fun
    | .ok o => objectIsRetained now b o
    | .error _ => ret false

/-- `foreign_data_protection_active` -/
def foreignDataProtectionActive (b : String) : Handler Bool :=
  let modes : Handler Bool := (getBucket .other b).attempt.bind fun
    | .ok B => ret (foreignMode B)
    | .error _ => ret false
  (getBucket .other b).attempt.bind fun
    | .ok B => if B.current.any (hasActiveAzureProtection C.toCodec now) then ret true else modes
    | .error .bucketNotFound => modes
    | .error _ => ret true

/-! ### Writes -/

/-- The object that a write stores over `existing`. -/
def objectFor (existing : Option Object) (key : Text) (data : Bytes) (contentType : String)
    (metadata : Table String String) (etag : String) (crc32c : UInt32) : Object :=
  { Object.newWithMetadataAndEtag now key data contentType
      (metadataWithGcsState C now metadata (nextGeneration now existing) "1" none) etag with
    providerMetadata := (∅ : Table String String).set "__sqrzl_gcs_crc32c" (some (E.base64 crc32c)) }

/-- `put_object`, `put_object_if` and their variants for bytes in a file. -/
def storeObject (b : String) (key : Text) (o : Object) (data : Bytes)
    (condition : Option ObjectCondition) (session : Option String) : Handler Bool :=
  change (fun written ↦ if written then [.stored b key (generation o) session] else [])
    (match condition with
    | some condition => Vault.putObjectIf E b key o data condition
    | none => do
      Vault.putObject E b key o data
      return true)

/-- `BlobWrite` -/
structure BlobWrite where
  data : Bytes
  contentType : String
  metadata : Table String String
  preconditions : GenerationPreconditions
  /-- The ETag of what was staged; anything else has its digest. -/
  etag : Option String := none

/-- `BlobWriteOutcome` -/
inductive BlobWriteOutcome where
  | stored (o : Object)
  | preconditionFailed
  | retentionPolicyNotMet

/-- `put_blob_with_generation_match`, behind the lookup of the object that exists. -/
def putBlobOver (existing : Option Object) (b : String) (key : Text) (write : BlobWrite) :
    Handler BlobWriteOutcome :=
  let o := objectFor E C now existing key write.data write.contentType write.metadata
    (write.etag.getD (E.md5 write.data)) (E.crc32cAppend 0 write.data)
  match uploadCondition existing.isSome write.preconditions with
  | none => ret .preconditionFailed
  | some condition =>
    (storeObject E b key o write.data condition none).bind fun written ↦
      if written then (getObjectMetadata .other b key).bind fun o ↦ ret (.stored o)
      else ret .preconditionFailed

/-- `put_blob_with_generation_match`, `put_spooled_blob_with_generation_match` and
`put_staged_blob_with_generation_match` -/
def putBlobWithGenerationMatch (b : String) (key : Text) (write : BlobWrite) :
    Handler BlobWriteOutcome :=
  (getObjectMetadata .retention b key).attempt.bind fun
    | .error _ => putBlobOver E C now none b key write
    | .ok o => (objectIsRetained now b o).bind fun retained ↦
        if retained then ret .retentionPolicyNotMet else putBlobOver E C now (some o) b key write

/-- The preconditions in the query of an upload. -/
def queryPreconditions (req : Request) : GenerationPreconditions :=
  ⟨req.queryParam "ifGenerationMatch", req.queryParam "ifGenerationNotMatch"⟩

/-- The answer to an upload. -/
def uploadResponse (req : Request) (b : String) : BlobWriteOutcome → Response
  | .stored o => .document 200 (jsonBlobRecordMetadata C b o)
  | .preconditionFailed => uploadPreconditionFailed (queryPreconditions req)
  | .retentionPolicyNotMet => retentionPolicyNotMetResponse

/-- The part of the upload handlers that asks about retention and writes. -/
def uploadBlob (req : Request) (b : String) (key : Text) (write : BlobWrite) : Handler Response :=
  (existingObjectIsRetained now b key).bind fun retained ↦
    if retained then ret retentionPolicyNotMetResponse
    else (putBlobWithGenerationMatch E C now b key write).bind fun outcome ↦
      ret (uploadResponse C req b outcome)

/-- The checks that the uploads of the JSON API have in common. -/
def checkJsonUpload (req : Request) : Except Response Unit :=
  match invalidJsonMutationHeaders req with
  | some response => .error response
  | none =>
    match invalidUploadPreconditions req with
    | some response => .error response
    | none => .ok ()

/-- Refuse bytes that do not have the checksum that was announced. -/
def refuseChecksum (expected : Option UInt32) (data : Bytes) : Except Response Unit :=
  match expected with
  | none => .ok ()
  | some expected => refuseWhen (expected ≠ E.crc32cAppend 0 data)
      (uploadMetadataErrorResponse (checksumMismatch E expected (E.crc32cAppend 0 data)))

/-- The name of the object that an upload is for. -/
def requireName : Option String → Except Response Text
  | none => .error (jsonUploadError 400 "Required parameter: name")
  | some name => .ok name.toList

/-- What `handle_media_upload` asks of the request itself. -/
def admitMediaUpload (req : Request) : Except Response (Text × BlobWrite) := do
  refuseWhen (req.body.length > maxObjectSize) (objectTooLargeResponse true)
  checkJsonUpload req
  let expected ← (requestCrc32c C req).mapError uploadMetadataErrorResponse
  refuseChecksum E expected req.body
  let key ← requireName (req.queryParam "name")
  return (key, {
    data := req.body
    contentType := (req.header "content-type").getD "application/octet-stream"
    metadata := metadataFromHeaders req
    preconditions := queryPreconditions req })

/-- Upload what was admitted. -/
def uploadAdmitted (req : Request) (b : String) : Except Response (Text × BlobWrite) → Handler Response
  | .error response => ret response
  | .ok (key, write) => uploadBlob E C now req b key write

/-- `handle_media_upload` -/
def handleMediaUpload (req : Request) (b : String) : Handler Response :=
  uploadAdmitted E C now req b (admitMediaUpload E C req)

/-- What is read of a multipart upload, in memory or from its file: the metadata, the content type
and the bytes of the object. -/
def readMultipartUpload (req : Request) :
    Except UploadMetadataError (ParsedUploadMetadata × String × Bytes) :=
  let contentType := ((req.header "content-type").getD "multipart/related").toList
  match req.spooled with
  | none => Related.parseMultipartUpload C contentType req.body
  | some _ => (Related.parseSpooledMultipartUpload E C contentType req.body).map fun upload ↦
      (upload.metadata, upload.contentType, upload.media req.body)

/-- What `handle_multipart_upload` asks of the request itself. -/
def admitMultipartUpload (req : Request) : Except Response (Text × BlobWrite) := do
  checkJsonUpload req
  refuseWhen (req.header "x-goog-hash").isSome (uploadMetadataErrorResponse (.unsupported
    "Multipart uploads accept CRC32C in the JSON object metadata, not X-Goog-Hash"))
  let (metadata, contentType, data) ←
    (readMultipartUpload E C req).mapError uploadMetadataErrorResponse
  refuseWhen (data.length > maxObjectSize) (objectTooLargeResponse true)
  refuseChecksum E metadata.crc32c data
  let key ← requireName ((req.queryParam "name").or metadata.name)
  return (key, {
    data := data
    contentType := contentType
    metadata := metadata.metadata
    preconditions := queryPreconditions req
    etag := req.spooled })

/-- `handle_multipart_upload` -/
def handleMultipartUpload (req : Request) (b : String) : Handler Response :=
  uploadAdmitted E C now req b (admitMultipartUpload E C req)

/-! ### The XML API -/

/-- What `put_xml_object` asks of the request before it looks at the store. -/
def admitXmlPut (req : Request) : Except Response Unit :=
  if req.body.length > maxObjectSize then .error (objectTooLargeResponse false)
  else validateXmlUploadChecksums C E req

/-- `put_xml_object`, behind its checks. -/
def writeXmlObject (req : Request) (b : String) (key : Text) (condition : Option ObjectCondition) :
    Handler Response :=
  (getObjectMetadata .other b key).attempt.bind fun existing ↦
    let o := objectFor E C now existing.toOption key req.body
      ((req.header "content-type").getD "application/octet-stream") (metadataFromHeaders req)
      (E.md5 req.body) (E.crc32cAppend 0 req.body)
    (storeObject E b key o req.body condition none).attempt.bind fun
      | .error e => ret (xmlStorageError b e)
      | .ok false => ret xmlPreconditionFailedResponse
      | .ok true => (getObjectMetadata .other b key).attempt.bind fun
        | .error e => ret (xmlStorageError b e)
        | .ok o => ret (.written ("\"" ++ o.etag ++ "\"") (generationFromMetadata o.metadata)
            (metagenerationFromMetadata o.metadata) none)

/-- `put_xml_object` -/
def putXmlObject (req : Request) (b : String) (key : Text) : Handler Response :=
  match admitXmlPut E C req with
  | .error response => ret response
  | .ok () => (existingObjectIsRetained now b key).bind fun retained ↦
      if retained then ret xmlRetentionPolicyNotMetResponse
      else
        match xmlMutationCondition req true with
        | .error response => ret response
        | .ok condition => writeXmlObject E C now req b key condition

/-- `delete_object` and `delete_object_if` -/
def removeObject (b : String) (key : Text) (condition : Option ObjectCondition) : Handler Bool :=
  change (fun _ ↦ [])
    (match condition with
    | some condition => Vault.deleteObjectIf E now b key condition
    | none => do
      Vault.deleteObject E now b key
      return true)

/-- The deletion of an object in `handle_xml_object_request`. -/
def deleteXmlObject (req : Request) (b : String) (key : Text) : Handler Response :=
  (existingObjectIsRetained now b key).bind fun retained ↦
    if retained then ret xmlRetentionPolicyNotMetResponse
    else
      match xmlMutationCondition req false with
      | .error response => ret response
      | .ok condition => (removeObject E now b key condition).attempt.bind fun
        | .ok true => ret (.empty 204)
        | .ok false => ret xmlPreconditionFailedResponse
        | .error e => ret (xmlStorageError b e)

/-- `object_head_response` -/
def objectHeadResponse (b : String) (key : Text) : Handler Response :=
  (getObjectMetadata .other b key).attempt.bind fun
    | .error .keyNotFound => ret (.empty 404)
    | .error .bucketNotFound => ret (.empty 404)
    | .error e => ret (xmlStorageError b e)
    | .ok o => ret (.object 200 (objectHeaders o o.size none) [])

/-- `parse_byte_range` -/
def parseByteRange (value : String) : Option (ℕ × Option ℕ) := do
  guard (startsWith "bytes=" value)
  let (start, last) ← splitOnce '-' (value.toList.drop 6)
  let start ← parseU64 (String.ofList start)
  if last.isEmpty then
    return (start, none)
  let last ← parseU64 (String.ofList last)
  guard (start ≤ last)
  return (start, some last)

/-- `selected_len` -/
def selectedLen (size : ℕ) : Option (ℕ × Option ℕ) → Option ℕ
  | none => some size
  | some (start, last) =>
    let last := min (last.getD (size - 1)) (size - 1)
    if start < size && start ≤ last then some (last - start + 1) else none

/-- `MATERIALIZATION_LIMIT` -/
def materializationLimit : ℕ := 64 * 1024 * 1024

/-- `invalid_range` -/
def invalidRange (json : Bool) : Response :=
  if json then .jsonError 416 "requestedRangeNotSatisfiable" "The requested range is not satisfiable"
  else .xmlError 416 "InvalidRange" "The requested range is not satisfiable"

/-- `extent_response` -/
def extentResponse (json : Bool) : Response :=
  let message := "This emulator materializes at most 64 MiB per GCS media request. Use a smaller " ++
    "byte range; streamed uploads remain supported."
  if json then .jsonError 501 "notImplemented" message else .xmlError 501 "NotImplemented" message

/-- `checked_json_blob` -/
def checkedJsonBlob (req : Request) (b : String) (key : Text) : Handler (Except Response Object) :=
  (getObjectMetadata .other b key).attempt.bind fun
    | .error e => ret (.error (jsonStorageError b key e))
    | .ok o =>
      match checkCurrentGenerationSelector req o with
      | .error response => ret (.error response)
      | .ok () =>
        match checkGcsPreconditions req o with
        | .error response => ret (.error response)
        | .ok () => ret (.ok o)

/-- `bounded_media_response`, of an object that was looked up. A request runs alone, so that the
object is the same when its bytes are read. -/
def mediaOf (req : Request) (b : String) (key : Text) (json : Bool) (o : Object) : Handler Response :=
  match (req.header "range").map parseByteRange with
  | some none => ret (invalidRange json)
  | range =>
    let range := range.join
    match selectedLen o.size range with
    | none => ret (invalidRange json)
    | some length =>
      if length > materializationLimit then ret (extentResponse json)
      else if length = 0 then ret (.object 200 (objectHeaders o 0 none) [])
      else
        let start := (range.map Prod.fst).getD 0
        (query .other (Vault.getObject b key)).attempt.bind fun
          | .error e => ret (if json then jsonStorageError b key e else xmlStorageError b e)
          | .ok o =>
            let data := (o.data.drop start).take length
            if data.length ≠ length then ret (extentResponse json)
            else ret (.object (if range.isSome then 206 else 200)
              (objectHeaders o length (range.map fun _ ↦ (start, start + length - 1, o.size))) data)

/-- `object_media_response` -/
def objectMediaResponse (req : Request) (b : String) (key : Text) : Handler Response :=
  (getObjectMetadata .other b key).attempt.bind fun
    | .error e => ret (xmlStorageError b e)
    | .ok o => mediaOf req b key false o

/-- The subresources of an object that are refused. -/
def objectSubresources : List String :=
  ["acl", "compose", "encryption", "legal-hold", "object-lock", "partNumber",
    "response-content-disposition", "response-content-type", "retention", "tagging", "uploadId",
    "uploads"]

/-- What `handle_xml_object_request` asks of the request. -/
def refuseXmlObject (req : Request) : Option Response :=
  match objectSubresources.find? req.query.contains with
  | some parameter => some (.xmlError 501 "NotImplemented" ("The GCS XML " ++ parameter ++
      " subresource is not supported by this emulator surface."))
  | none =>
    if (req.method = .get || req.method = .patch || req.method = .delete) &&
        req.query.contains "generation" then
      some (.xmlError 501 "NotImplemented" ("Generation-scoped GCS XML object operations are not " ++
        "supported by this emulator surface."))
    else none

/-- `handle_xml_object_request`, except for the start of a resumable upload. -/
def xmlObjectMethod (req : Request) (b : String) (key : Text) : Handler Response :=
  match req.method with
  | .put => putXmlObject E C now req b key
  | .get => objectMediaResponse req b key
  | .head => objectHeadResponse b key
  | .delete => deleteXmlObject E now req b key
  | _ => ret (.xmlError 405 "UnsupportedHttpVerb" "Unsupported GCS operation")

/-! ### The JSON API -/

/-- `list_json_objects`, for a page of objects. -/
def listJsonObjects (b : String) (page : List Object) : Response :=
  .documents (page.map (jsonBlobRecordMetadata C b))

/-- `list_xml_bucket`, for a page of objects. -/
def listXmlBucket (page : List Object) : Response := .entries (page.map xmlBucketItem)

/-- `get_json_object` -/
def getJsonObject (req : Request) (b : String) (key : Text) : Handler Response :=
  (checkedJsonBlob req b key).bind fun
    | .error response => ret response
    | .ok o =>
      if req.queryParam "alt" = some "media" then mediaOf req b key true o
      else ret (.document 200 (jsonObjectMetadata E C b o))

/-- `current_precondition_failure` -/
def currentPreconditionFailure (req : Request) (b : String) (key : Text) : Handler Response :=
  (getObjectMetadata .other b key).attempt.bind fun
    | .error _ => ret (jsonNotFound key)
    | .ok o =>
      match checkGcsPreconditions req o with
      | .error response => ret response
      | .ok () => ret generationPreconditionFailed

/-- `delete_json_object` -/
def deleteJsonObject (req : Request) (b : String) (key : Text) : Handler Response :=
  (checkedJsonBlob req b key).bind fun
    | .error response => ret response
    | .ok o => (objectIsRetained now b o).bind fun retained ↦
        if retained then ret retentionPolicyNotMetResponse
        else (removeObject E now b key (some (jsonMutationCondition req o))).bind fun
          | true => ret (.empty 204)
          | false => currentPreconditionFailure req b key

/-- The metadata of an object after the `metadata` of a patch. -/
def patchMetadata (metadata : Table String String) : Option Json → Except String (Table String String)
  | none => .ok metadata
  | some .null => .ok ∅
  | some (.object values) => values.foldlM (fun metadata value ↦
      match value.2 with
      | .string text => .ok (metadata.set value.1 (some text))
      | .null => .ok (metadata.set value.1 none)
      | _ => .error ("Object metadata value " ++ value.1 ++ " must be a string or null")) metadata
  | some _ => .error "Object metadata must be a JSON object or null"

/-- `metadata_patch_with_gcs_state` -/
def metadataPatchWithGcsState (payload : Json) (o : Object) : Except String (Table String String) := do
  let metadata ← patchMetadata (publicMetadata o.metadata) (payload.get "metadata")
  return metadataWithGcsState C now metadata (generation o)
    (toString (saturatingSucc ((o.metadata["__sqrzl_gcs_metageneration"]?.bind parseU64).getD 1)))
    (some (gcsUpdated C o.metadata o.lastModified))

/-- The object that a patch makes of `o`. -/
def patched (req : Request) (o : Object) : Except Response Object :=
  match C.parseJson req.body with
  | none => .error (jsonUploadError 400 "Invalid object metadata JSON")
  | some (.object fields) =>
    match fields.find? fun field ↦ field.1 ≠ "metadata" && field.1 ≠ "contentType" with
    | some field => .error (jsonUploadError 501 ("Object metadata patch field " ++ field.1 ++
        " is not supported by this emulator surface"))
    | none =>
      match metadataPatchWithGcsState C now (.object fields) o with
      | .error message => .error (jsonUploadError 400 message)
      | .ok metadata =>
        match (Json.object fields).get "contentType" with
        | none => .ok { o with metadata := metadata }
        | some .null => .ok { o with metadata := metadata, contentType := "application/octet-stream" }
        | some (.string value) =>
          if value = "" then
            .error (jsonUploadError 400 "contentType must be a non-empty string or null")
          else .ok { o with metadata := metadata, contentType := value }
        | some _ => .error (jsonUploadError 400 "contentType must be a non-empty string or null")
  | some _ => .error (jsonUploadError 400 "Object metadata patch must be a JSON object")

/-- `patch_json_object` -/
def patchJsonObject (req : Request) (b : String) (key : Text) : Handler Response :=
  (checkedJsonBlob req b key).bind fun
    | .error response => ret response
    | .ok o =>
      match patched C now req o with
      | .error response => ret response
      | .ok updated =>
        (change (fun _ ↦ []) (Vault.replaceObjectMetadataIfUnchanged b key o updated)).bind fun
          | false => currentPreconditionFailure req b key
          | true => (getObjectMetadata .other b key).bind fun o ↦
              ret (.document 200 (jsonBlobRecordMetadata C b o))

/-- `handle_json_object_item` -/
def handleJsonObjectItem (req : Request) (b : String) (key : Text) : Handler Response :=
  let invalid := if req.method = .patch || req.method = .delete then invalidJsonMutationHeaders req
    else none
  match invalid with
  | some response => ret response
  | none =>
    match req.method with
    | .get => getJsonObject E C req b key
    | .patch => patchJsonObject C now req b key
    | .delete => deleteJsonObject E now req b key
    | _ => ret (.jsonError 405 "methodNotAllowed" "The HTTP verb in the request is not supported.")

/-- `handle_json_object_api`, for one object. -/
def handleJsonObject (req : Request) (b : String) (key : Text) : Handler Response :=
  (foreignDataProtectionActive C now b).bind fun foreign ↦
    if foreign then ret foreignDataProtectionJsonResponse
    else handleJsonObjectItem E C now req b key

end Handlers

end Sqrzl.Gcs
