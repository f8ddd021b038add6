import SqrzlEmulator.Auth.Authenticator
import SqrzlEmulator.Lifecycle.Rules

/-!
# Objects of the GCS front door

`providers/gcs.rs`, up to the storage calls: requests and responses, the generation and the
metageneration of an object, and the preconditions of a request.

An object that was written through this front door carries its generation in its metadata. One that
was written through another door does not, and then **each reader has its own default**:
`generation` takes the time of the last modification, `generationFromMetadata` takes `1`. Conditions
that the store evaluates (`ObjectCondition`) compare the text of the stored generation, and have no
default at all.
-/

namespace Sqrzl.Gcs

open S3

/-! ### Requests and responses -/

/-- The methods that are told apart. -/
inductive Method where
  | get
  | head
  | put
  | post
  | patch
  | delete
  deriving DecidableEq

/-- A request as the handlers see it. Parameters are decoded, headers are looked up by their
lower-case names. -/
structure Request where
  method : Method
  query : Table String String := ∅
  headers : Table String String := ∅
  body : Bytes := []
  /-- The fresh identity that becomes the ETag of a multipart upload whose body was spooled. -/
  spooled : Option String := none

namespace Request

/-- `query_param` -/
def queryParam (req : Request) (name : String) : Option String := req.query[name]?

/-- `header` -/
def header (req : Request) (name : String) : Option String := req.headers[name]?

end Request

/-- The JSON document of an object, `storage#object`. -/
structure Document where
  name : Text
  bucket : String
  size : ℕ
  crc32c : Option String
  etag : String
  generation : String
  metageneration : String
  updated : String
  contentType : String
  metadata : Table String String
  deriving DecidableEq

/-- An entry of an XML listing. -/
structure Entry where
  key : Text
  size : ℕ
  etag : String
  generation : String
  deriving DecidableEq

/-- The headers of a response about an object in the XML API, `object_response`. -/
structure ObjectHeaders where
  contentLength : ℕ
  contentType : String
  etag : String
  generation : String
  metageneration : String
  metadata : Table String String
  contentRange : Option (ℕ × ℕ × ℕ)
  deriving DecidableEq

/-- Responses, with the data that handlers put into them. -/
inductive Response where
  | empty (status : ℕ)
  /-- `json_error` -/
  | jsonError (status : ℕ) (reason message : String)
  /-- `error_response` -/
  | xmlError (status : ℕ) (code message : String)
  | document (status : ℕ) (document : Document)
  | documents (items : List Document)
  | entries (items : List Entry)
  | object (status : ℕ) (headers : ObjectHeaders) (body : Bytes)
  /-- The answer to a write of the XML API. -/
  | written (etag generation metageneration : String) (hash : Option String)
  /-- `resume_incomplete_response` -/
  | incomplete (received : ℕ)
  /-- The document of a bucket: its soft-delete period and its retention period. -/
  | bucket (name : String) (softDelete retention : Option String)
  | buckets (names : List String)
  /-- The answer to the start of a resumable upload, with its session in the location. -/
  | started (status : ℕ) (session : String)
  deriving DecidableEq

/-- The status of a response. -/
def Response.status : Response → ℕ
  | .empty status => status
  | .jsonError status _ _ => status
  | .xmlError status _ _ => status
  | .document status _ => status
  | .documents _ => 200
  | .entries _ => 200
  | .object status _ _ => status
  | .written _ _ _ _ => 200
  | .incomplete _ => 308
  | .bucket _ _ _ => 200
  | .buckets _ => 200
  | .started status _ => status

/-- `default_json_error_reason` -/
def defaultJsonErrorReason (status : ℕ) (message : String) : String :=
  let contains (part : String) : Bool := part.toList <:+: message.toList
  match status with
  | 400 =>
    if startsWith "Required parameter" message then "required"
    else if contains "JSON" then "parseError"
    else if contains "parameter" then "invalidParameter"
    else "invalidArgument"
  | 401 => "authError"
  | 403 => "forbidden"
  | 404 => "notFound"
  | 405 => "methodNotAllowed"
  | 409 => "conflict"
  | 412 => "conditionNotMet"
  | 413 => "uploadTooLarge"
  | 429 => "rateLimitExceeded"
  | 500 => "internalError"
  | 503 => "backendError"
  | 501 => "notImplemented"
  | _ => "unknown"

/-- `json_upload_error` -/
def jsonUploadError (status : ℕ) (message : String) : Response :=
  .jsonError status (defaultJsonErrorReason status message) message

/-- Refuse a request. -/
def refuseWhen (c : Prop) [Decidable c] (response : Response) : Except Response Unit :=
  if c then .error response else .ok ()

/-! ### What is taken from crates -/

/-- `UploadMetadataError` -/
inductive UploadMetadataError where
  | invalid (message : String)
  | checksumMismatch (message : String)
  | unsupported (message : String)

/-- `ParsedUploadMetadata` -/
structure ParsedUploadMetadata where
  name : Option String := none
  contentType : Option String := none
  metadata : Table String String := ∅
  crc32c : Option UInt32 := none

/-- `serde_json::Value`. A number is known by what `as_u64` makes of it. -/
inductive Json where
  | null
  | bool (value : Bool)
  | number (value : Option ℕ)
  | string (value : String)
  | array (items : List Json)
  | object (fields : List (String × Json))

/-- `Value::get`, with a name. -/
def Json.get : Json → String → Option Json
  | .object fields, name => (fields.find? (·.1 = name)).map Prod.snd
  | _, _ => none

/-- `json_unsigned_integer` -/
def Json.unsignedInteger : Json → Option ℕ
  | .number value => value
  | .string value => parseU64 value
  | _ => none

/-- `u32::from_be_bytes` -/
def fromBeBytes : Bytes → Option UInt32
  | [a, b, c, d] =>
    some (UInt32.ofNat (((a.toNat * 256 + b.toNat) * 256 + c.toNat) * 256 + d.toNat))
  | _ => none

/-- The crates of this front door. -/
structure Crates extends Codec where
  /-- `serde_json::from_slice` -/
  parseJson : Bytes → Option Json
  /-- `to_rfc3339_opts` with milliseconds -/
  formatRfc3339 : Time → String

/-- Crates that are simple enough to evaluate handlers with. -/
def Crates.simple : Crates where
  toCodec := .simple
  parseJson _ := none
  formatRfc3339 t := toString t

/-! ### Generations -/

/-- `timestamp_millis`, of a time in nanoseconds. -/
def timestampMillis (t : Time) : ℕ := t / 1000000

/-- `generation` -/
def generation (o : Object) : String :=
  o.metadata["__sqrzl_gcs_generation"]?.getD (toString (max (timestampMillis o.lastModified) 1))

/-- `metageneration` -/
def metageneration (o : Object) : String := o.metadata["__sqrzl_gcs_metageneration"]?.getD "1"

/-- `generation_from_metadata` -/
def generationFromMetadata (metadata : Table String String) : String :=
  metadata["__sqrzl_gcs_generation"]?.getD "1"

/-- `metageneration_from_metadata` -/
def metagenerationFromMetadata (metadata : Table String String) : String :=
  metadata["__sqrzl_gcs_metageneration"]?.getD "1"

/-- The keys that belong to the front door. -/
def isStateKey (key : String) : Bool :=
  key = "__sqrzl_gcs_generation" || key = "__sqrzl_gcs_metageneration" || key = "__sqrzl_gcs_updated"

/-- `public_metadata` -/
def publicMetadata (metadata : Table String String) : Table String String :=
  metadata.filter fun key _ ↦ !isStateKey key

/-- `saturating_add(1)` -/
def saturatingSucc (n : ℕ) : ℕ := min (n + 1) (2 ^ 64 - 1)

/-- `next_generation`, at the time `now`. -/
def nextGeneration (now : Time) (existing : Option Object) : String :=
  let current := ((existing.map generation).bind parseU64).getD 0
  toString (max (saturatingSucc current) (max (timestampMillis now) 1))

section Updated

variable (C : Crates) (now : Time)

/-- `next_gcs_updated` -/
def nextGcsUpdated (previous : Option String) : String :=
  C.formatRfc3339 (match previous.bind C.parseRfc3339 with
    | none => now
    | some previous => if now ≤ previous then previous + 1000000 else now)

/-- `metadata_with_gcs_state` -/
def metadataWithGcsState (metadata : Table String String) (generation metageneration : String)
    (previousUpdated : Option String) : Table String String :=
  (((publicMetadata metadata).set "__sqrzl_gcs_generation" (some generation)).set
    "__sqrzl_gcs_metageneration" (some metageneration)).set
    "__sqrzl_gcs_updated" (some (nextGcsUpdated C now previousUpdated))

/-- `gcs_updated` -/
def gcsUpdated (metadata : Table String String) (fallback : Time) : String :=
  metadata["__sqrzl_gcs_updated"]?.getD (C.formatRfc3339 fallback)

/-- `json_etag` -/
def jsonEtag (metadata : Table String String) (fallback : String) : String :=
  match metadata["__sqrzl_gcs_generation"]?, metadata["__sqrzl_gcs_metageneration"]? with
  | some generation, some metageneration =>
    C.base64Encode (C.digest .md5 (generation ++ ":" ++ metageneration).toUTF8.data.toList)
  | _, _ => fallback

end Updated

/-! ### What is reported of an object -/

section Reports

variable (E : Env) (C : Crates)

/-- `json_object_metadata` -/
def jsonObjectMetadata (bucket : String) (o : Object) : Document where
  name := o.key
  bucket := bucket
  size := o.size
  crc32c := some (o.providerMetadata["__sqrzl_gcs_crc32c"]?.getD (E.base64 (E.crc32cAppend 0 o.data)))
  etag := jsonEtag C o.metadata o.etag
  generation := generation o
  metageneration := metageneration o
  updated := gcsUpdated C o.metadata o.lastModified
  contentType := o.contentType
  metadata := publicMetadata o.metadata

/-- `json_blob_record_metadata` and the document of `gcs_object_json_response`. -/
def jsonBlobRecordMetadata (bucket : String) (o : Object) : Document where
  name := o.key
  bucket := bucket
  size := o.size
  crc32c := o.providerMetadata["__sqrzl_gcs_crc32c"]?
  etag := jsonEtag C o.metadata o.etag
  generation := generationFromMetadata o.metadata
  metageneration := metagenerationFromMetadata o.metadata
  updated := gcsUpdated C o.metadata o.lastModified
  contentType := o.contentType
  metadata := publicMetadata o.metadata

/-- `append_xml_bucket_item` -/
def xmlBucketItem (o : Object) : Entry where
  key := o.key
  size := o.size
  etag := "\"" ++ trimQuotes o.etag ++ "\""
  generation := o.metadata["__sqrzl_gcs_generation"]?.getD
    (toString (max (timestampMillis o.lastModified) 1))

/-- `object_response` -/
def objectHeaders (o : Object) (length : ℕ) (range : Option (ℕ × ℕ × ℕ)) : ObjectHeaders where
  contentLength := length
  contentType := o.contentType
  etag := "\"" ++ o.etag ++ "\""
  generation := generation o
  metageneration := metageneration o
  metadata := publicMetadata o.metadata
  contentRange := range

end Reports

/-! ### Preconditions -/

/-- `GenerationPreconditions` -/
structure GenerationPreconditions where
  expected : Option String := none
  rejected : Option String := none

/-- The condition of an upload. There is none when it can be refused at once. -/
def uploadCondition (existing : Bool) :
    GenerationPreconditions → Option (Option ObjectCondition)
  | ⟨some expected, none⟩ =>
    if expected = "0" then some (some .missing)
    else some (some (.metadata "__sqrzl_gcs_generation" expected))
  | ⟨none, some rejected⟩ =>
    if existing then some (some (.metadataNot "__sqrzl_gcs_generation" rejected)) else none
  | ⟨some _, some _⟩ => none
  | ⟨none, none⟩ => some none

/-- `generation_precondition_failed` -/
def generationPreconditionFailed : Response :=
  .jsonError 412 "conditionNotMet" "At least one of the pre-conditions you specified did not hold."

/-- `generation_not_match_precondition_failed` -/
def generationNotMatchPreconditionFailed : Response := .empty 304

/-- `upload_precondition_failed` -/
def uploadPreconditionFailed (preconditions : GenerationPreconditions) : Response :=
  if preconditions.rejected.isSome then generationNotMatchPreconditionFailed
  else generationPreconditionFailed

/-- `invalid_preconditions` -/
def invalidPreconditions (req : Request) : Option Response :=
  let number (name : String) : Bool := (req.queryParam name).any fun value ↦ (parseU64 value).isNone
  if ((req.queryParam "ifGenerationMatch").isSome && (req.queryParam "ifGenerationNotMatch").isSome) ||
      ((req.queryParam "ifMetagenerationMatch").isSome &&
        (req.queryParam "ifMetagenerationNotMatch").isSome) ||
      number "ifGenerationMatch" || number "ifGenerationNotMatch" ||
      number "ifMetagenerationMatch" || number "ifMetagenerationNotMatch" then
    some (.jsonError 400 "invalidParameter"
      ("Generation preconditions must be unsigned integers and match/not-match " ++
        "cannot be combined"))
  else
    none

/-- `invalid_upload_preconditions` -/
def invalidUploadPreconditions (req : Request) : Option Response :=
  invalidPreconditions req <|>
    if (req.queryParam "ifMetagenerationMatch").isSome ||
        (req.queryParam "ifMetagenerationNotMatch").isSome then
      some (.jsonError 400 "invalidParameter"
        "Object uploads do not support metageneration preconditions")
    else
      none

/-- `xml_mutation_condition` -/
def xmlMutationCondition (req : Request) (requireGenerationForMetageneration : Bool) :
    Except Response (Option ObjectCondition) :=
  let generation := req.header "x-goog-if-generation-match"
  let metageneration := req.header "x-goog-if-metageneration-match"
  if requireGenerationForMetageneration && metageneration.isSome && generation.isNone then
    .error (.xmlError 400 "InvalidArgument"
      "x-goog-if-metageneration-match requires x-goog-if-generation-match")
  else if (generation.any fun value ↦ (parseU64 value).isNone) ||
      (metageneration.any fun value ↦ (parseU64 value).all (· = 0)) then
    .error (.xmlError 400 "InvalidArgument"
      ("Generation preconditions must be unsigned integers and metageneration must be " ++
        "positive"))
  else
    let conditions :=
      (generation.map fun value ↦
        if value = "0" then ObjectCondition.missing
        else .metadata "__sqrzl_gcs_generation" value).toList ++
      (metageneration.map (ObjectCondition.metadata "__sqrzl_gcs_metageneration")).toList
    match conditions with
    | [] => .ok none
    | [condition] => .ok (some condition)
    | conditions => .ok (some (.all conditions))

/-- `xml_precondition_failed_response` -/
def xmlPreconditionFailedResponse : Response :=
  .xmlError 412 "PreconditionFailed" "At least one of the preconditions you specified did not hold"

/-- `invalid_json_mutation_headers` -/
def invalidJsonMutationHeaders (req : Request) : Option Response :=
  if (req.header "if-match").isSome || (req.header "if-none-match").isSome then
    some (.jsonError 400 "invalidParameter"
      ("GCS JSON mutations require generation query preconditions; ETag mutation headers are " ++
        "unsupported"))
  else
    none

/-- `check_gcs_preconditions` -/
def checkGcsPreconditions (req : Request) (o : Object) : Except Response Unit :=
  match invalidPreconditions req with
  | some response => .error response
  | none => do
    refuseWhen ((req.queryParam "ifGenerationMatch").any (generation o ≠ ·))
      (.jsonError 412 "conditionNotMet" "Generation precondition failed")
    refuseWhen ((req.queryParam "ifGenerationNotMatch").any (generation o = ·)) (.empty 304)
    refuseWhen ((req.queryParam "ifMetagenerationMatch").any (metageneration o ≠ ·))
      (.jsonError 412 "conditionNotMet" "Metageneration precondition failed")
    refuseWhen ((req.queryParam "ifMetagenerationNotMatch").any (metageneration o = ·)) (.empty 304)

/-- `json_mutation_condition` -/
def jsonMutationCondition (req : Request) (o : Object) : ObjectCondition :=
  let conditions :=
    ((req.queryParam "ifGenerationMatch").map
      (ObjectCondition.metadata "__sqrzl_gcs_generation")).toList ++
    ((req.queryParam "ifGenerationNotMatch").map
      (ObjectCondition.metadataNot "__sqrzl_gcs_generation")).toList ++
    ((req.queryParam "ifMetagenerationMatch").map
      (ObjectCondition.metadata "__sqrzl_gcs_metageneration")).toList ++
    ((req.queryParam "ifMetagenerationNotMatch").map
      (ObjectCondition.metadataNot "__sqrzl_gcs_metageneration")).toList
  .all (if conditions.isEmpty then
    [.metadata "__sqrzl_gcs_generation" (generation o),
      .metadata "__sqrzl_gcs_metageneration" (metageneration o)]
  else conditions)

/-- `check_current_generation_selector` -/
def checkCurrentGenerationSelector (req : Request) (o : Object) : Except Response Unit :=
  match req.queryParam "generation" with
  | none => .ok ()
  | some selected =>
    if (parseU64 selected).isNone then
      .error (.jsonError 400 "invalidParameter" "Generation selectors must be unsigned integers")
    else if selected ≠ generation o then
      .error (.jsonError 501 "notImplemented" ("Historical GCS JSON object generations are not " ++
        "supported by this emulator surface"))
    else
      .ok ()

/-- `metadata_from_headers` -/
def metadataFromHeaders (req : Request) : Table String String :=
  req.headers.toList.foldl (fun table header ↦
    if startsWith "x-goog-meta-" header.1 then
      table.set (String.ofList (header.1.toList.drop 12)) (some header.2)
    else table) ∅

/-! ### Retention -/

/-- The part of `object_is_retained` behind the lookup of the bucket. -/
def retainedIn (now : Time) (B : Bucket) (o : Object) : Bool :=
  (B.metadata["gcs_retention_seconds"]?.bind fun value ↦ Auth.parseI64 value.toList).any
    fun seconds ↦ ((now : ℤ) - o.lastModified).tdiv 1000000000 < seconds

/-- The part of `foreign_data_protection_active` about the modes of a bucket. -/
def foreignMode (B : Bucket) : Bool :=
  let s3Mode := (B.metadata["s3_versioning_status"]?.any fun status ↦
      status = "Enabled" || status = "Suspended") ||
    B.metadata["s3_object_lock_enabled"]? = some "true"
  let azureMode := B.metadata["azure_versioning_enabled"]? = some "true" ||
    positive B.metadata["azure_soft_delete_days"]?
  let gcsOwnsSharedHistory := positive B.metadata["gcs_soft_delete_seconds"]?
  s3Mode || azureMode || (B.versioningEnabled && !gcsOwnsSharedHistory)

end Sqrzl.Gcs
