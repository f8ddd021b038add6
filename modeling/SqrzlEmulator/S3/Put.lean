import SqrzlEmulator.Data.Base64
import SqrzlEmulator.S3.Actions
import SqrzlEmulator.Storage.Vault

/-!
# Writing objects through the S3 front door

The part of `server/handlers/object.rs` and its helpers that `PutObject` goes through: the checks of
`object_put`, and `put_object_body`, which builds the new object and stores it.

The provider metadata of the new object (encryption markers, object lock, checksums, content
properties, and whatever other front doors keep there) is **not built from the request**: it starts
as a copy of what the overwritten object had, and the request edits it. `Edit` is one such edit, and
`Replaces` says which entries a request edits. The rest of the overwritten object's metadata stays.
-/

namespace Sqrzl.S3

open Prog

/-! ### Refusals -/

/-- An error response: its status, and the code and the message of its XML document. -/
structure Refusal where
  status : ℕ
  code : String
  message : String
  deriving DecidableEq

/-- `internal_error_response` -/
def internalErrorResponse (_ : Error) : Refusal := ⟨500, "InternalError", "Internal server error"⟩

/-- `precondition_failed_response` -/
def preconditionFailedResponse : Refusal :=
  ⟨412, "PreconditionFailed", "At least one of the pre-conditions you specified did not hold"⟩

/-- A handler, as a function of the store. -/
abbrev Handler (α : Type) : Type := Atomic Refusal Vault α

/-! ### External functions -/

/-- The algorithms of `checksums::ALGORITHMS`. -/
inductive ChecksumAlgorithm where
  | crc32
  | crc32c
  | crc64nvme
  | sha1
  | sha256
  | md5
  deriving DecidableEq

/-- What the handlers take from the `chrono`, `base64`, `urlencoding` and digest crates. -/
structure Codec where
  parseRfc3339 : String → Option Time
  parseRfc2822 : String → Option Time
  digest : ChecksumAlgorithm → Bytes → Bytes
  base64Encode : Bytes → String
  base64Decode : String → Option Bytes
  percentDecode : String → Option String
  /-- `URL_SAFE_NO_PAD.encode` -/
  urlSafeEncode : Bytes → Text
  /-- `URL_SAFE_NO_PAD.decode` -/
  urlSafeDecode : Text → Option Bytes
  /-- Without padding, and with no bits left over, a text is that of its bytes. -/
  urlSafeDecode_eq_some_iff : ∀ text bytes,
    urlSafeDecode text = some bytes ↔ urlSafeEncode bytes = text
  /-- Four characters stand for three bytes. -/
  length_le_urlSafeEncode : ∀ bytes, bytes.length ≤ (urlSafeEncode bytes).length
  /-- `hex::encode` -/
  hexEncode : Bytes → Text
  /-- Hexadecimal digits have no NUL. -/
  nul_notMem_hexEncode : ∀ bytes, '\x00' ∉ hexEncode bytes

theorem Codec.urlSafeDecode_encode (C : Codec) (bytes : Bytes) :
    C.urlSafeDecode (C.urlSafeEncode bytes) = some bytes :=
  (C.urlSafeDecode_eq_some_iff _ _).2 rfl

theorem Codec.urlSafeEncode_injective (C : Codec) : Function.Injective C.urlSafeEncode := by
  intro bytes bytes' h
  have hdecode := congrArg C.urlSafeDecode h
  rw [C.urlSafeDecode_encode, C.urlSafeDecode_encode] at hdecode
  exact Option.some.inj hdecode

/-! ### Preconditions -/

/-- `normalize_strong_etag` -/
def normalizeStrongEtag (value : String) : Option String :=
  if startsWith "W/" (trim value) then none else some (trimQuotes (trim value))

/-- `normalize_weak_etag` -/
def normalizeWeakEtag (value : String) : String :=
  let value := trim value
  trimQuotes (if startsWith "W/" value then String.ofList (value.toList.drop 2) else value)

/-- `strong_etag_list_matches` -/
def strongEtagListMatches (header etag : String) : Bool :=
  match normalizeStrongEtag etag with
  | none => false
  | some etag => (splitCommas header).any fun candidate ↦
      trim candidate = "*" || normalizeStrongEtag candidate = some etag

/-- `weak_etag_list_matches` -/
def weakEtagListMatches (header etag : String) : Bool :=
  (splitCommas header).any fun candidate ↦
    normalizeWeakEtag candidate = "*" || normalizeWeakEtag candidate = normalizeWeakEtag etag

/-- `mutation_condition` -/
def mutationCondition (req : Request) : Option ObjectCondition :=
  match req.header "if-match" with
  | some value =>
    if trim value = "*" then some (.etagNotIn [])
    else some (.etagIn ((splitCommas value).filterMap normalizeStrongEtag))
  | none =>
    (req.header "if-none-match").map fun value ↦
      if trim value = "*" then .missing
      else .missingOrEtagNotIn ((splitCommas value).map normalizeWeakEtag)

/-- `check_put_conditionals` -/
def checkPutConditionals (C : Codec) (req : Request) (existing : Option Object) :
    Except Refusal Unit :=
  match existing with
  | some existing => do
    if (req.header "if-match").any fun value ↦ !strongEtagListMatches value existing.etag then
      throw preconditionFailedResponse
    if ((req.header "if-unmodified-since").bind C.parseRfc2822).any (existing.lastModified > ·) then
      throw preconditionFailedResponse
    if (req.header "if-none-match").any fun value ↦ weakEtagListMatches value existing.etag then
      throw preconditionFailedResponse
  | none => do
    if (req.header "if-match").isSome then
      throw ⟨404, "NoSuchKey", "The specified key does not exist."⟩

/-! ### Provider metadata -/

/-- An entry is set, or removed. -/
abbrev Edit : Type := String × Option String

/-- Carry out edits one after the other. -/
def applyEdits (edits : List Edit) (table : Table String String) : Table String String :=
  edits.foldl (fun table edit ↦ table.set edit.1 edit.2) table

/-- `replace_content_properties` -/
def contentEdits (req : Request) : List Edit :=
  [("s3_cache_control", req.header "cache-control"),
    ("s3_content_encoding", req.header "content-encoding"),
    ("s3_content_language", req.header "content-language"),
    ("s3_content_disposition", req.header "content-disposition")]

/-- `clear_object_lock_metadata` -/
def clearObjectLock : List Edit :=
  [("s3_object_lock_mode", none), ("s3_object_lock_until", none),
    ("s3_object_lock_legal_hold", none)]

/-- `checksums::ALGORITHMS` -/
def algorithms : List (String × ChecksumAlgorithm × String) :=
  [("CRC32", .crc32, "crc32"), ("CRC32C", .crc32c, "crc32c"), ("CRC64NVME", .crc64nvme, "crc64nvme"),
    ("SHA1", .sha1, "sha1"), ("SHA256", .sha256, "sha256"), ("MD5", .md5, "md5")]

/-- The second half of `checksums::replace_identity`. -/
def identityEdits (C : Codec) (req : Request) : List Edit :=
  algorithms.flatMap fun (_, algorithm, suffix) ↦
    if (req.header ("x-amz-checksum-" ++ suffix)).isSome then
      [("s3_checksum_" ++ suffix, some (C.base64Encode (C.digest algorithm req.body))),
        ("s3_checksum_type", some "FULL_OBJECT")]
    else
      []

/-- `checksums::replace_identity` -/
def replaceIdentity (C : Codec) (req : Request) (table : Table String String) :
    Table String String :=
  applyEdits (identityEdits C req) (table.filter fun key _ ↦ !startsWith "s3_checksum_" key)

/-- `parse_lock_timestamp` -/
def parseLockTimestamp (C : Codec) (value : String) : Option Time :=
  C.parseRfc3339 value <|> C.parseRfc2822 value

/-- The part of `apply_s3_request_contracts` about keys of the service. -/
def serverSideEdits (req : Request) : Except Refusal (List Edit) :=
  match req.header "x-amz-server-side-encryption" with
  | none => .ok []
  | some mode =>
    if mode = "aws:kms" then
      .ok (("s3_sse_mode", some mode) ::
        ((req.header "x-amz-server-side-encryption-aws-kms-key-id").map fun id ↦
          ("s3_sse_kms_key_id", some id)).toList)
    else if mode = "AES256" then
      .ok [("s3_sse_mode", some mode), ("s3_sse_kms_key_id", none)]
    else
      .error ⟨400, "InvalidArgument", "Unsupported server-side encryption mode"⟩

/-- The part of `apply_s3_request_contracts` about keys of the customer. -/
def customerKeyEdits (req : Request) : Except Refusal (List Edit) :=
  match req.header "x-amz-server-side-encryption-customer-algorithm",
    req.header "x-amz-server-side-encryption-customer-key",
    req.header "x-amz-server-side-encryption-customer-key-md5" with
  | none, none, none => .ok []
  | some algorithm, some _, some md5 =>
    .ok [("s3_sse_c_algorithm", some algorithm), ("s3_sse_c_key_md5", some md5),
      ("s3_sse_mode", none), ("s3_sse_kms_key_id", none)]
  | _, _, _ =>
    .error ⟨400, "InvalidRequest", "SSE-C requests must include algorithm, key, and key MD5 headers"⟩

/-- The part of `apply_s3_request_contracts` about object lock. -/
def objectLockEdits (C : Codec) (req : Request) : Except Refusal (List Edit) := do
  if (req.header "x-amz-object-lock-mode").any fun mode ↦
      mode ≠ "GOVERNANCE" && mode ≠ "COMPLIANCE" then
    throw ⟨400, "InvalidRequest", "Unsupported object lock mode"⟩
  if (req.header "x-amz-object-lock-retain-until-date").any fun until_ ↦
      (parseLockTimestamp C until_).isNone then
    throw ⟨400, "InvalidRequest", "Invalid object lock retain-until date"⟩
  if (req.header "x-amz-object-lock-legal-hold").any fun hold ↦
      !eqIgnoreCase hold "ON" && !eqIgnoreCase hold "OFF" then
    throw ⟨400, "InvalidRequest", "Invalid object lock legal hold value"⟩
  return ((req.header "x-amz-object-lock-mode").map fun mode ↦
      ("s3_object_lock_mode", some mode)).toList ++
    ((req.header "x-amz-object-lock-retain-until-date").map fun until_ ↦
      ("s3_object_lock_until", some until_)).toList ++
    ((req.header "x-amz-object-lock-legal-hold").map fun hold ↦
      ("s3_object_lock_legal_hold", some hold.toUpper)).toList

/-- `apply_s3_request_contracts` -/
def contractEdits (C : Codec) (req : Request) : Except Refusal (List Edit) := do
  let serverSide ← serverSideEdits req
  let customerKey ← customerKeyEdits req
  let objectLock ← objectLockEdits C req
  return serverSide ++ customerKey ++ objectLock

/-- `s3_mutation_preserves_current_version` -/
def preservesCurrentVersion (bucket : Option Bucket) (current : Object) : Bool :=
  bucket.any fun B ↦ B.versioningEnabled ||
    (B.metadata["s3_versioning_status"]? = some "Suspended" && current.versionId ≠ some "null")

/-- The provider metadata that `put_object_body` starts from. -/
def inherited (bucket : Option Bucket) (existing : Option Object) : Table String String :=
  match existing with
  | none => ∅
  | some existing =>
    if preservesCurrentVersion bucket existing then
      applyEdits clearObjectLock existing.providerMetadata
    else
      existing.providerMetadata

/-! ### Checksums of requests -/

/-- Some part of a content encoding is `aws-chunked`. -/
def chunked (req : Request) : Bool :=
  (req.header "content-encoding").any fun value ↦
    (splitCommas value).any fun part ↦ eqIgnoreCase (trim part) "aws-chunked"

/-- `checksums::unsupported` -/
def checksumUnsupported : Refusal :=
  ⟨501, "NotImplemented", "This S3 checksum algorithm, multipart, copy, or trailer variant is not " ++
    "supported by this emulator subset."⟩

/-- `checksums::requested` -/
def checksumRequested (req : Request) : Bool :=
  req.headers.keys.any (startsWith "x-amz-checksum-") ||
    (req.header "x-amz-sdk-checksum-algorithm").isSome || (req.header "x-amz-trailer").isSome ||
    chunked req || (req.header "x-amz-content-sha256").any (startsWith "STREAMING-")

/-- The checksums that a request supplies. -/
def suppliedChecksums (req : Request) : List (String × ChecksumAlgorithm × String) :=
  algorithms.filterMap fun (name, algorithm, suffix) ↦
    (req.header ("x-amz-checksum-" ++ suffix)).map fun value ↦ (name, algorithm, value)

/-- `checksums::validate_put` -/
def validatePut (C : Codec) (req : Request) : Except Refusal Unit := do
  if (req.header "x-amz-trailer").isSome || chunked req ||
      (req.header "x-amz-content-sha256").any (startsWith "STREAMING-") ||
      req.headers.keys.any (fun name ↦ startsWith "x-amz-checksum-" name &&
        !algorithms.any fun (_, _, suffix) ↦ name = "x-amz-checksum-" ++ suffix) then
    throw checksumUnsupported
  let declared := req.header "x-amz-sdk-checksum-algorithm"
  if declared.any fun declared ↦ !algorithms.any fun (name, _, _) ↦ name = declared then
    throw checksumUnsupported
  let supplied := suppliedChecksums req
  if supplied.length > 1 then
    throw ⟨400, "InvalidRequest", "Only one additional checksum algorithm may be supplied."⟩
  if declared.isSome && supplied.isEmpty then
    throw ⟨400, "InvalidRequest",
      "The SDK checksum algorithm requires its corresponding checksum header."⟩
  if declared.isSome && supplied.head?.map Prod.fst ≠ declared then
    throw ⟨400, "BadDigest", "The checksum header does not match the SDK checksum algorithm."⟩
  supplied.forM fun (_, algorithm, value) ↦ do
    let expected := C.digest algorithm req.body
    match C.base64Decode value with
    | none => throw ⟨400, "InvalidDigest",
        "The checksum is not a valid Base64 digest for the selected algorithm."⟩
    | some decoded =>
      if decoded.length ≠ expected.length then
        throw ⟨400, "InvalidDigest",
          "The checksum is not a valid Base64 digest for the selected algorithm."⟩
      if decoded ≠ expected then
        throw ⟨400, "BadDigest", "The checksum does not match the request payload."⟩

/-- `validate_content_md5` -/
def validateContentMd5 (C : Codec) (req : Request) : Except Refusal Unit :=
  match req.header "content-md5" with
  | none => .ok ()
  | some supplied => do
    match C.base64Decode supplied with
    | none => throw ⟨400, "InvalidDigest", "The Content-MD5 value is not valid base64."⟩
    | some decoded =>
      if decoded.length ≠ 16 then
        throw ⟨400, "InvalidDigest", "The Content-MD5 value is not a valid MD5 digest."⟩
      if decoded ≠ C.digest .md5 req.body then
        throw ⟨400, "BadDigest", "The Content-MD5 value does not match the request body."⟩

/-- What `object_put` checks of the documents that tags and ACLs are sent as. -/
def validateDocument (C : Codec) (req : Request) : Except Refusal Unit :=
  if req.has "tagging" || req.has "acl" then do
    validatePut C req
    validateContentMd5 C req
  else
    .ok ()

/-! ### `put_object_body` -/

/-- `extract_metadata_from_http_headers` -/
def extractMetadata (req : Request) : Table String String :=
  req.headers.toList.foldl (fun metadata (name, value) ↦
    if startsWith "x-amz-meta-" name then
      metadata.set (String.ofList (name.toList.drop "x-amz-meta-".length)) (some value)
    else
      metadata) ∅

/-- The loop of `parse_tagging_header`. -/
def parseTagPairs (C : Codec) : List Text → Table String String →
    Except Refusal (Table String String)
  | [], tags => .ok tags
  | pair :: pairs, tags =>
    if pair.isEmpty then
      parseTagPairs C pairs tags
    else if '=' ∉ pair then
      .error ⟨400, "InvalidTag", "Invalid tagging format"⟩
    else
      match C.percentDecode (String.ofList (pair.takeWhile (· ≠ '='))),
        C.percentDecode (String.ofList ((pair.dropWhile (· ≠ '=')).drop 1)) with
      | some key, some value => parseTagPairs C pairs (tags.set key (some value))
      | _, _ => .error ⟨400, "InvalidTag", "invalid utf-8 sequence"⟩

/-- `parse_optional_tagging_header` -/
def parseOptionalTagging (C : Codec) (req : Request) : Except Refusal (Option (Table String String)) :=
  match req.header "x-amz-tagging" with
  | none => .ok none
  | some header => do return some (← parseTagPairs C (header.toList.splitOn '&') ∅)

/-- `validate_put_target`, without the reasons. -/
def validatePutTarget (bucket key : Text) : Except Refusal Unit := do
  if !validBucketName bucket then
    throw ⟨400, "InvalidBucketName", ""⟩
  if (String.ofList key).utf8ByteSize = 0 || (String.ofList key).utf8ByteSize > 1024 then
    throw ⟨400, "InvalidKey", ""⟩

section Handlers

variable (E : Env) (C : Codec) (now : Time)

/-- The object that `put_object_body` stores. -/
def objectToPut (bucket : Option Bucket) (key : Text) (req : Request) (existing : Option Object) :
    Except Refusal Object := do
  let tags ← parseOptionalTagging C req
  let contracts ← contractEdits C req
  let object := Object.newWithMetadataAndEtag now key req.body
    ((req.header "content-type").getD "application/octet-stream") (extractMetadata req)
    (E.md5 req.body)
  let provider := replaceIdentity C req (applyEdits (contentEdits req) (inherited bucket existing))
  return { object with
    providerMetadata := applyEdits contracts provider
    tags := tags.getD ∅ }

/-- `store_put_object` -/
def storePutObject (bucket : String) (key : Text) (req : Request) (object : Object) :
    Handler Unit := do
  .refuseIf ((req.header "if-none-match").any fun value ↦ trim value ≠ "*")
    ⟨400, "InvalidArgument", "If-None-Match for PutObject only supports the '*' value."⟩
  let current ← .view fun V : Vault ↦ (V.record bucket key).metadata
  .refuseIf ((req.header "if-match").isSome && current.isNone)
    ⟨404, "NoSuchKey", "The specified key does not exist."⟩
  match mutationCondition req with
  | some condition =>
    let written ← .mapError internalErrorResponse
      (Vault.putObjectIf E bucket key object object.data condition)
    .refuseIf (!written) preconditionFailedResponse
  | none => .mapError internalErrorResponse (Vault.putObject E bucket key object object.data)

/-- `put_object_body` -/
def putObjectBody (bucket key : Text) (req : Request) (existing : Option Object) : Handler Unit := do
  .ofExcept (validatePut C req)
  .ofExcept (validateContentMd5 C req)
  .ofExcept (validatePutTarget bucket key)
  let B ← .view fun V : Vault ↦ V.buckets[String.ofList bucket]?
  let object ← .ofExcept (objectToPut E C now B key req existing)
  storePutObject E (String.ofList bucket) key req object

/-! ### `object_put` -/

/-- `object_has_active_azure_protection` -/
def hasActiveAzureProtection (o : Object) : Bool :=
  let get (name : String) := o.providerMetadata[name]?
  (get "azure_legal_hold").any (fun value ↦ !eqIgnoreCase value "false") ||
    (get "azure_immutability_until").any (fun value ↦
      (parseLockTimestamp C value).all fun until_ ↦ until_ > now) ||
    ((get "azure_immutability_mode").isSome && (get "azure_immutability_until").isNone) ||
    (get "azure_lease_status").any (· ≠ "unlocked")

/-- A number of seconds or days that is not zero. -/
def positive (value : Option String) : Bool := (value.bind parseU64).any (· > 0)

/-- `bucket_has_foreign_data_protection` -/
def hasForeignDataProtection (B : Bucket) : Bool :=
  positive B.metadata["gcs_soft_delete_seconds"]? || positive B.metadata["gcs_retention_seconds"]? ||
    B.metadata["azure_versioning_enabled"]? = some "true" ||
    positive B.metadata["azure_soft_delete_days"]?

/-- `s3_foreign_history_conflict` -/
def foreignHistoryConflict (bucket : String) (V : Vault) : Bool :=
  V.buckets[bucket]?.any fun B ↦
    B.objects.toList.any (fun (_, r) ↦ r.metadata.any (hasActiveAzureProtection C now)) ||
      hasForeignDataProtection B

/-- `s3_foreign_history_conflict_response` -/
def foreignHistoryConflictResponse : Refusal :=
  ⟨409, "InvalidBucketState", "S3 versioning and object mutations are unavailable while a " ++
    "foreign-provider data-protection mode is active."⟩

/-- `object_is_locked` -/
def objectIsLocked (o : Object) : Bool :=
  (o.providerMetadata["s3_object_lock_legal_hold"]?.any fun value ↦ eqIgnoreCase value "ON") ||
    ((o.providerMetadata["s3_object_lock_until"]?.bind (parseLockTimestamp C)).any (· > now))

/-- `locked_object_response` -/
def lockedObjectResponse : Refusal :=
  ⟨403, "AccessDenied", "Object is protected by an active retention policy or legal hold"⟩

/-- `validate_object_lock_put_request` -/
def validateObjectLockPut (bucket : Option Bucket) (req : Request) : Except Refusal Unit := do
  let mode := req.header "x-amz-object-lock-mode"
  let retainUntil := req.header "x-amz-object-lock-retain-until-date"
  if mode.isSome || retainUntil.isSome || (req.header "x-amz-object-lock-legal-hold").isSome then
    if bucket.all fun B ↦ B.metadata["s3_object_lock_enabled"]? ≠ some "true" then
      throw ⟨400, "InvalidRequest", "Bucket is missing an Object Lock configuration."⟩
    if mode.isSome ≠ retainUntil.isSome then
      throw ⟨400, "InvalidRequest",
        "Object Lock mode and retain-until date must be supplied together."⟩
    if mode.any fun mode ↦ mode ≠ "GOVERNANCE" && mode ≠ "COMPLIANCE" then
      throw ⟨400, "InvalidRequest", "Unsupported object lock mode"⟩
    if mode.isSome && !((retainUntil.bind (parseLockTimestamp C)).any (· > now)) then
      throw ⟨400, "InvalidRequest",
        "Object Lock retain-until date must be a valid future timestamp."⟩
    if (req.header "x-amz-copy-source").isNone && (req.header "content-md5").isNone then
      if (req.header "x-amz-sdk-checksum-algorithm").isSome then
        throw ⟨501, "NotImplemented",
          "SDK checksum algorithms for Object Lock PUT are not supported by this emulator subset."⟩
      else
        throw ⟨400, "InvalidRequest",
          "Content-MD5 is required when Object Lock parameters are supplied."⟩

/-- What stands between a request and its handler: the answers of `check_authorization`, by bucket,
and that of `verify_presigned_url`. -/
structure Gate where
  authorize : Text → Check → Option Refusal
  presigned : Option Refusal

/-- Refuse with a given response. -/
def refuse (response : Option Refusal) : Handler Unit :=
  match response with
  | some response => .fail response
  | none => pure ()

/-- The checks of `object_put`, up to its dispatch. They return what the key holds. -/
def admitObjectPut (G : Gate) (bucket key : Text) (req : Request) : Handler (Option Object) := do
  refuse (G.authorize bucket ⟨"s3:PutObject", some key⟩)
  refuse G.presigned
  let B ← .view fun V : Vault ↦ V.buckets[String.ofList bucket]?
  .refuseIf B.isNone ⟨404, "NoSuchBucket", "The specified bucket does not exist."⟩
  .refuseIf (unsupportedObjectLock req)
    ⟨501, "NotImplemented", "The S3 object " ++
      (if req.has "retention" then "retention" else "legal-hold") ++
      " subresource is not supported by this emulator."⟩
  .refuseIf (versionTagging req)
    ⟨501, "NotImplemented", "Version-scoped object tagging is not supported by this emulator subset."⟩
  let conflict ← .view (foreignHistoryConflict C now (String.ofList bucket))
  .refuseIf conflict foreignHistoryConflictResponse
  .refuseIf (checksumRequested req && (req.header "x-amz-copy-source").isSome) checksumUnsupported
  .ofExcept (validateDocument C req)
  .ofExcept (validateObjectLockPut C now B req)
  let existing ← .view fun V : Vault ↦ (V.record (String.ofList bucket) key).metadata
  .refuseIf (existing.any fun existing ↦
    objectIsLocked C now existing && !preservesCurrentVersion B existing) lockedObjectResponse
  .ofExcept (checkPutConditionals C req existing)
  return existing

/-- `object_put`. What the other operations do is a parameter here. -/
def handleObjectPut (others : Operation → Handler Unit) (G : Gate) (bucket key : Text) (req : Request) :
    Handler Unit := do
  let existing ← admitObjectPut C now G bucket key req
  if req.has "tagging" then
    others (.putObjectTagging key)
  else if req.has "acl" then
    others (.putObjectAcl key)
  else if req.has "uploadId" && (req.queryParam "partNumber").isSome then
    if (req.header "x-amz-copy-source").isSome then
      others (.uploadPartCopy key)
    else
      others (.uploadPart key)
  else if (req.header "x-amz-copy-source").isSome then
    others (.copyObject key)
  else
    putObjectBody E C now bucket key req existing

end Handlers

/-! ### What has happened when a write has succeeded -/

section Success

variable {E : Env} {C : Codec} {now : Time} {G : Gate} {bucket key : Text} {req : Request}
  {existing : Option Object} {V V' : Vault}

theorem refuse_bind_ok {α : Type} {response : Option Refusal} {k : Unit → Handler α} {a : α} :
    (refuse response >>= k) V = (.ok a, V') ↔ response = none ∧ k () V = (.ok a, V') := by
  cases response with
  | none => exact ⟨fun h ↦ ⟨rfl, h⟩, fun h ↦ h.2⟩
  | some response => exact ⟨nofun, nofun⟩

/-- The checks leave the store as it is, and find what the key holds. -/
theorem admitObjectPut_ok (h : admitObjectPut C now G bucket key req V = (.ok existing, V')) :
    V' = V ∧ existing = (V.record (String.ofList bucket) key).metadata := by
  simp only [admitObjectPut, refuse_bind_ok, Atomic.view_bind, Atomic.refuseIf_bind_ok,
    Atomic.ofExcept_bind_ok, Atomic.pure_ok] at h
  obtain ⟨-, -, -, -, -, -, -, -, -, -, -, -, -, -, hexisting, hV⟩ := h
  exact ⟨hV.symm, hexisting.symm⟩

theorem storePutObject_ok {b : String} {object : Object} {u : Unit}
    (h : storePutObject E b key req object V = (.ok u, V')) :
    Vault.putObject E b key object object.data V = (.ok (), V') := by
  simp only [storePutObject, Atomic.view_bind, Atomic.refuseIf_bind_ok] at h
  obtain ⟨-, -, h⟩ := h
  cases hcondition : mutationCondition req with
  | some condition =>
    rw [hcondition] at h
    obtain ⟨written, t, hput, hwritten⟩ := Atomic.bind_ok.1 h
    obtain ⟨htrue, rfl⟩ := Atomic.refuseIf_ok.1 hwritten
    obtain rfl : written = true := by simpa using htrue
    exact (Vault.mutateIf_ok (Atomic.mapError_ok.1 hput)).2
  | none =>
    rw [hcondition] at h
    exact Atomic.mapError_ok.1 h

/-- The bytes and the attributes of the current object of a key, apart from its identity and its
time. -/
def shown (V : Vault) (b : String) (key : Text) :
    Option (Bytes × String × Table String String × Table String String × String ×
      Table String String) :=
  (V.record b key).current.map fun (data, o) ↦
    (data, o.contentType, o.metadata, o.providerMetadata, o.storageClass, o.tags)

/-- **What is shown after a write that has succeeded** is the object that was built for it. -/
theorem putObjectBody_ok {u : Unit} (h : putObjectBody E C now bucket key req existing V = (.ok u, V')) :
    ∃ o, objectToPut E C now V.buckets[String.ofList bucket]? key req existing = .ok o ∧
      shown V' (String.ofList bucket) key =
        some (o.data, o.contentType, o.metadata, o.providerMetadata, o.storageClass, o.tags) := by
  simp only [putObjectBody, Atomic.view_bind, Atomic.ofExcept_bind_ok] at h
  obtain ⟨-, -, -, -, -, -, o, ho, hstore⟩ := h
  obtain ⟨B, hB, -, rfl⟩ := Vault.putObject_ok (storePutObject_ok hstore)
  refine ⟨o, ho, ?_⟩
  rw [shown, Vault.record_draw, Vault.record_setRecord hB, if_pos ⟨rfl, rfl⟩]
  rfl

/-! ### What is left of the overwritten object -/

/-- A request replaces an entry of the provider metadata, or removes it. -/
def Replaces (C : Codec) (req : Request) (name : String) : Prop :=
  name ∈ (contentEdits req).map Prod.fst ∨ startsWith "s3_checksum_" name ∨
    ∃ edits, contractEdits C req = .ok edits ∧ name ∈ edits.map Prod.fst

theorem applyEdits_cons {edit : Edit} {edits : List Edit} {table : Table String String} :
    applyEdits (edit :: edits) table = applyEdits edits (table.set edit.1 edit.2) := rfl

theorem getElem?_applyEdits_of_notMem {edits : List Edit} {table : Table String String}
    {name : String} (h : name ∉ edits.map Prod.fst) : (applyEdits edits table)[name]? = table[name]? := by
  induction edits generalizing table with
  | nil => rfl
  | cons edit edits ih =>
    rw [List.map_cons, List.mem_cons, not_or] at h
    rw [applyEdits_cons, ih h.2, Table.getElem?_set, if_neg h.1]

/-- What is edited does not depend on what was there. -/
theorem getElem?_applyEdits_of_mem {edits : List Edit} {table table' : Table String String}
    {name : String} (h : name ∈ edits.map Prod.fst) :
    (applyEdits edits table)[name]? = (applyEdits edits table')[name]? := by
  induction edits generalizing table table' with
  | nil => cases h
  | cons edit edits ih =>
    rw [applyEdits_cons, applyEdits_cons]
    by_cases hmem : name ∈ edits.map Prod.fst
    · exact ih hmem
    · obtain rfl : name = edit.1 := (List.mem_cons.1 h).resolve_right hmem
      rw [getElem?_applyEdits_of_notMem hmem, getElem?_applyEdits_of_notMem hmem, Table.getElem?_set,
        Table.getElem?_set, if_pos rfl, if_pos rfl]

theorem getElem?_applyEdits_congr {edits : List Edit} {table table' : Table String String}
    {name : String} (h : table[name]? = table'[name]?) :
    (applyEdits edits table)[name]? = (applyEdits edits table')[name]? := by
  by_cases hmem : name ∈ edits.map Prod.fst
  · exact getElem?_applyEdits_of_mem hmem
  · rw [getElem?_applyEdits_of_notMem hmem, getElem?_applyEdits_of_notMem hmem, h]

/-- Only entries of checksums are edited for a checksum. -/
theorem startsWith_of_mem_identityEdits {name : String}
    (h : name ∈ (identityEdits C req).map Prod.fst) : startsWith "s3_checksum_" name = true := by
  obtain ⟨edit, hedit, rfl⟩ := List.mem_map.1 h
  obtain ⟨⟨algorithm, kind, suffix⟩, -, hmem⟩ := List.mem_flatMap.1 hedit
  have hstart : ∀ rest : String, startsWith "s3_checksum_" ("s3_checksum_" ++ rest) = true := by
    intro rest
    rw [startsWith, String.toList_append]
    exact List.isPrefixOf_iff_prefix.2 (List.prefix_append _ _)
  dsimp only at hmem
  split at hmem
  · rcases List.mem_cons.1 hmem with rfl | hmem
    · exact hstart suffix
    · rw [List.mem_singleton.1 hmem]
      exact hstart "type"
  · cases hmem

theorem getElem?_replaceIdentity {table : Table String String} {name : String}
    (h : startsWith "s3_checksum_" name = false) : (replaceIdentity C req table)[name]? = table[name]? := by
  have hmem : name ∉ (identityEdits C req).map Prod.fst := by
    intro hmem
    rw [startsWith_of_mem_identityEdits hmem] at h
    cases h
  rw [replaceIdentity, getElem?_applyEdits_of_notMem hmem, Std.ExtTreeMap.getElem?_filter', h]
  cases table[name]? <;> rfl

/-- Checksums do not depend on what was there. -/
theorem getElem?_replaceIdentity_of_startsWith {table table' : Table String String} {name : String}
    (h : startsWith "s3_checksum_" name = true) :
    (replaceIdentity C req table)[name]? = (replaceIdentity C req table')[name]? := by
  refine getElem?_applyEdits_congr ?_
  rw [Std.ExtTreeMap.getElem?_filter', Std.ExtTreeMap.getElem?_filter', h]
  simp

/-- The provider metadata of a new object, from the entries that it starts with. -/
def replaceProvider (C : Codec) (req : Request) (contracts : List Edit)
    (table : Table String String) : Table String String :=
  applyEdits contracts (replaceIdentity C req (applyEdits (contentEdits req) table))

/-- **Two tables lead to the same provider metadata exactly when they agree on the entries that the
request does not replace.** -/
theorem replaceProvider_eq_iff {edits : List Edit} (hedits : contractEdits C req = .ok edits)
    {table table' : Table String String} :
    replaceProvider C req edits table = replaceProvider C req edits table' ↔
      ∀ name, ¬ Replaces C req name → table[name]? = table'[name]? := by
  have hkept : ∀ (table : Table String String) (name : String), ¬ Replaces C req name →
      (replaceProvider C req edits table)[name]? = table[name]? := by
    intro table name hname
    obtain ⟨hcontent, hchecksum, hcontract⟩ : _ ∧ _ ∧ _ := by
      simpa only [Replaces, not_or] using hname
    rw [replaceProvider, getElem?_applyEdits_of_notMem fun h ↦ hcontract ⟨edits, hedits, h⟩,
      getElem?_replaceIdentity (Bool.not_eq_true _ ▸ hchecksum),
      getElem?_applyEdits_of_notMem hcontent]
  constructor
  · intro h name hname
    rw [← hkept table name hname, h, hkept table' name hname]
  · intro h
    refine Std.ExtTreeMap.ext_getElem? fun name ↦ ?_
    by_cases hname : Replaces C req name
    · rcases hname with hcontent | hchecksum | ⟨edits', hedits', hmem⟩
      · refine getElem?_applyEdits_congr ?_
        cases hstart : startsWith "s3_checksum_" name with
        | true => exact getElem?_replaceIdentity_of_startsWith hstart
        | false =>
          rw [getElem?_replaceIdentity hstart, getElem?_replaceIdentity hstart]
          exact getElem?_applyEdits_of_mem hcontent
      · exact getElem?_applyEdits_congr (getElem?_replaceIdentity_of_startsWith hchecksum)
      · obtain rfl : edits = edits' := Except.ok.inj (hedits.symm.trans hedits')
        exact getElem?_applyEdits_of_mem hmem
    · rw [hkept table name hname, hkept table' name hname, h name hname]

/-- The object that is stored: all of it comes from the request but for the provider metadata. -/
theorem objectToPut_ok {B : Option Bucket} {o : Object}
    (h : objectToPut E C now B key req existing = .ok o) :
    ∃ tags contracts, parseOptionalTagging C req = .ok tags ∧ contractEdits C req = .ok contracts ∧
      o = { Object.newWithMetadataAndEtag now key req.body
        ((req.header "content-type").getD "application/octet-stream") (extractMetadata req)
        (E.md5 req.body) with
        providerMetadata := replaceProvider C req contracts (inherited B existing)
        tags := tags.getD ∅ } := by
  unfold objectToPut at h
  cases htags : parseOptionalTagging C req with
  | error e =>
    rw [htags] at h
    cases h
  | ok tags =>
    cases hcontracts : contractEdits C req with
    | error e =>
      rw [htags, hcontracts] at h
      cases h
    | ok contracts =>
      rw [htags, hcontracts] at h
      cases h
      exact ⟨tags, contracts, rfl, rfl, rfl⟩

/-- The request is for `put_object_body`. -/
def IsPutObject (req : Request) : Prop :=
  ¬ req.has "tagging" ∧ ¬ req.has "acl" ∧
    ¬ (req.has "uploadId" && (req.queryParam "partNumber").isSome) ∧
    (req.header "x-amz-copy-source").isNone

theorem handleObjectPut_ok {others : Operation → Handler Unit} {u : Unit} (hreq : IsPutObject req)
    (h : handleObjectPut E C now others G bucket key req V = (.ok u, V')) :
    putObjectBody E C now bucket key req (V.record (String.ofList bucket) key).metadata V =
      (.ok u, V') := by
  obtain ⟨htagging, hacl, hpart, hcopy⟩ := hreq
  have hsome : ¬ (req.header "x-amz-copy-source").isSome = true := by
    rw [Option.isNone_iff_eq_none.1 hcopy]
    exact Bool.false_ne_true
  obtain ⟨existing, t, hadmitted, hrest⟩ := Atomic.bind_ok.1 h
  obtain ⟨rfl, rfl⟩ := admitObjectPut_ok hadmitted
  rw [if_neg htagging, if_neg hacl, if_neg hpart, if_neg hsome] at hrest
  exact hrest

end Success

/-- **A `PutObject` replaces the object exactly when what it overwrites does not show.** Run on two
stores that agree on the settings of the bucket, a request that succeeds on both leaves objects with
the same bytes, content type, metadata, provider metadata, storage class and tags if and only if the
overwritten objects agree on the provider metadata that the request does not replace. -/
theorem put_object_replaces_iff (E : Env) (C : Codec) (now₁ now₂ : Time)
    (others : Operation → Handler Unit) (G : Gate) (bucket key : Text) (req : Request)
    (V₁ V₂ V₁' V₂' : Vault) (B₁ B₂ : Bucket) (hreq : IsPutObject req)
    (hB₁ : V₁.buckets[String.ofList bucket]? = some B₁)
    (hB₂ : V₂.buckets[String.ofList bucket]? = some B₂)
    (h₁ : handleObjectPut E C now₁ others G bucket key req V₁ = (.ok (), V₁'))
    (h₂ : handleObjectPut E C now₂ others G bucket key req V₂ = (.ok (), V₂')) :
    shown V₁' (String.ofList bucket) key = shown V₂' (String.ofList bucket) key ↔
      ∀ name, ¬ Replaces C req name →
        (inherited (some B₁) (B₁.record key).metadata)[name]? =
          (inherited (some B₂) (B₂.record key).metadata)[name]? := by
  obtain ⟨o₁, ho₁, hshown₁⟩ := putObjectBody_ok (handleObjectPut_ok hreq h₁)
  obtain ⟨o₂, ho₂, hshown₂⟩ := putObjectBody_ok (handleObjectPut_ok hreq h₂)
  rw [hB₁, Vault.record_eq hB₁] at ho₁
  rw [hB₂, Vault.record_eq hB₂] at ho₂
  obtain ⟨tags, contracts, htags, hcontracts, rfl⟩ := objectToPut_ok ho₁
  obtain ⟨tags', contracts', htags', hcontracts', rfl⟩ := objectToPut_ok ho₂
  obtain rfl : tags = tags' := Except.ok.inj (htags.symm.trans htags')
  obtain rfl : contracts = contracts' := Except.ok.inj (hcontracts.symm.trans hcontracts')
  rw [hshown₁, hshown₂, ← replaceProvider_eq_iff hcontracts]
  simp [Object.newWithMetadataAndEtag]

/-! ### Two stores -/

/-- External functions that are simple enough to evaluate handlers with. -/
def Codec.simple : Codec where
  parseRfc3339 _ := none
  parseRfc2822 _ := none
  digest _ data := data
  base64Encode data := String.ofList (data.map fun x ↦ Char.ofNat x.toNat)
  base64Decode s := some (s.toList.map fun c ↦ UInt8.ofNat c.toNat)
  percentDecode s := some s
  urlSafeEncode := Base64.encode
  urlSafeDecode := Base64.decode
  urlSafeDecode_eq_some_iff _ _ := Base64.decode_eq_some_iff
  length_le_urlSafeEncode := Base64.length_le_encode
  hexEncode := Base64.hexEncode
  nul_notMem_hexEncode := Base64.nul_notMem_hexEncode

/-- A gate that is open. -/
def Gate.opened : Gate := ⟨fun _ _ ↦ none, none⟩

/-- A store with one bucket, and perhaps an object under the key `k`. -/
def oneBucket (o : Option Object) : Vault where
  buckets := (∅ : Table String Bucket).set "bucket" <| some
    { objects := (∅ : Table Text KeyRecord).set ['k'] (o.map fun o ↦ { current := some ([0], o) }) }

/-- An object of one byte. -/
def plainObject : Object := .new .simple 0 ['k'] [0] "text/plain"

/-- The same object, encrypted with a key of the customer. -/
def encryptedObject : Object :=
  { plainObject with
    providerMetadata := ((∅ : Table String String).set "s3_sse_c_algorithm" (some "AES256")).set
      "s3_sse_c_key_md5" (some "md5") }

/-- A `PutObject` of one byte without any header. -/
def putOneByte : Request where
  route := .objectPut "bucket".toList ['k']
  body := [1]

/-- The write on a store. -/
def putOneByteOn (V : Vault) : Except Refusal Unit × Vault :=
  handleObjectPut .simple .simple 0 (fun _ ↦ pure ()) .opened "bucket".toList ['k'] putOneByte V

theorem putOneByteOn_ok {V : Vault} (h : (putOneByteOn V).1 = .ok ()) :
    handleObjectPut .simple .simple 0 (fun _ ↦ pure ()) .opened "bucket".toList ['k'] putOneByte V =
      (.ok (), (putOneByteOn V).2) :=
  Prod.ext h rfl

/-- A plain object does not show in what replaces it. -/
theorem put_object_replaces_plain :
    shown (putOneByteOn (oneBucket none)).2 "bucket" ['k'] =
      shown (putOneByteOn (oneBucket (some plainObject))).2 "bucket" ['k'] := by
  have hreq : IsPutObject putOneByte := by
    unfold IsPutObject
    decide
  refine (put_object_replaces_iff .simple .simple 0 0 _ .opened "bucket".toList ['k'] putOneByte _ _ _
    _ _ _ hreq rfl rfl (putOneByteOn_ok (by decide)) (putOneByteOn_ok (by decide))).2
    fun name _ ↦ ?_
  rfl

/-- **The encryption marker of the overwritten object stays**: two stores that agree on the bucket
lead to different objects. -/
theorem marker_of_overwritten_object_stays :
    (putOneByteOn (oneBucket none)).1 = .ok () ∧
    (putOneByteOn (oneBucket (some encryptedObject))).1 = .ok () ∧
    shown (putOneByteOn (oneBucket none)).2 "bucket" ['k'] ≠
      shown (putOneByteOn (oneBucket (some encryptedObject))).2 "bucket" ['k'] := by
  refine ⟨by decide, by decide, fun h ↦ ?_⟩
  have hmarker := congrArg (Option.map fun o ↦ o.2.2.2.1["s3_sse_c_algorithm"]?) h
  revert hmarker
  decide +kernel

end Sqrzl.S3
