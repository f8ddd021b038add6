import SqrzlEmulator.Gcs.Resumable

/-!
# Buckets and routes

The handlers for buckets, with the retention and soft-delete policies that a bucket can be given,
and the route from a target to its handler. Authorization comes before all of this.

A policy is validated as an unsigned number and written to the metadata of the bucket as a decimal.
-/

namespace Sqrzl.Gcs

open Prog S3

/-! ### Policies -/

/-- `invalid_data_protection_response` -/
def invalidDataProtectionResponse (message : String) : Response :=
  .jsonError 400 "invalidArgument" message

/-- `unimplemented_data_protection_response` -/
def unimplementedDataProtectionResponse (message : String) : Response :=
  .jsonError 501 "notImplemented" message

/-- The fields of a bucket that are known, and cannot be written. -/
def unwritableBucketFields : List String :=
  ["name", "versioning", "encryption", "lifecycle", "defaultEventBasedHold", "iamConfiguration", "acl",
    "defaultObjectAcl", "labels", "website", "cors", "billing", "logging", "autoclass",
    "hierarchicalNamespace", "location", "storageClass", "rpo", "customPlacementConfig", "ipFilter",
    "objectRetention", "kind", "id", "selfLink", "projectNumber", "generation", "metageneration",
    "etag", "timeCreated", "updated", "softDeleteTime", "hardDeleteTime", "owner", "locationType"]

/-- A field of a bucket in `validate_bucket_fields`. -/
def validateBucketField (post : Bool) (field : String) : Except Response Unit :=
  if (field = "name" && post) || field = "retentionPolicy" || field = "softDeletePolicy" then .ok ()
  else if unwritableBucketFields.contains field then
    .error (unimplementedDataProtectionResponse
      ("Bucket field " ++ field ++ " is not writable on this emulator surface"))
  else .error (invalidDataProtectionResponse ("Unknown bucket field: " ++ field))

/-- The fields of a policy in `validate_bucket_fields`. -/
def validatePolicyFields (payload : Json) (policy allowed : String) : Except Response Unit :=
  match payload.get policy with
  | none => .ok ()
  | some .null => .ok ()
  | some (.object fields) =>
    match fields.find? fun field ↦ field.1 ≠ allowed && field.1 ≠ "effectiveTime" &&
        !(policy = "retentionPolicy" && field.1 = "isLocked") with
    | none => .ok ()
    | some field =>
      .error (invalidDataProtectionResponse ("Unknown " ++ policy ++ " field: " ++ field.1))
  | some _ => .error (invalidDataProtectionResponse (policy ++ " must be a JSON object"))

/-- `validate_bucket_fields` -/
def validateBucketFields (req : Request) (payload : Json) : Except Response Unit :=
  match payload with
  | .object fields => do
    fields.forM fun field ↦ validateBucketField (req.method = .post) field.1
    validatePolicyFields payload "retentionPolicy" "retentionPeriod"
    validatePolicyFields payload "softDeletePolicy" "retentionDurationSeconds"
    if (req.queryParam "predefinedAcl").isSome ||
        (req.queryParam "predefinedDefaultObjectAcl").isSome then
      .error (unimplementedDataProtectionResponse
        "Predefined bucket and default object ACLs are not supported")
  | _ => .error (invalidDataProtectionResponse "Bucket metadata must be a JSON object")

/-- `pointer`, with two names -/
def Json.pointer (payload : Json) (policy field : String) : Option Json :=
  (payload.get policy).bind (·.get field)

/-- The part of `validate_bucket_data_protection` about the retention policy. -/
def validateRetentionPolicy (payload : Json) : Except Response Unit :=
  if (payload.pointer "retentionPolicy" "isLocked").isSome ||
      (payload.pointer "retentionPolicy" "effectiveTime").isSome then
    .error (unimplementedDataProtectionResponse
      "Bucket retention-policy lock and server-owned fields are not writable")
  else
    match payload.get "retentionPolicy" with
    | none => .ok ()
    | some .null => .ok ()
    | some policy =>
      match (policy.get "retentionPeriod").bind Json.unsignedInteger with
      | none => .error (invalidDataProtectionResponse
          "retentionPolicy.retentionPeriod must be an unsigned integer")
      | some period =>
        if period = 0 || period ≥ 3155760000 then
          .error (invalidDataProtectionResponse ("retentionPolicy.retentionPeriod must be greater " ++
            "than 0 and less than 3155760000 seconds"))
        else .ok ()

/-- The part of `validate_bucket_data_protection` about the soft-delete policy. -/
def validateSoftDeletePolicy (payload : Json) : Except Response Unit :=
  if (payload.pointer "softDeletePolicy" "effectiveTime").isSome then
    .error (unimplementedDataProtectionResponse
      "softDeletePolicy.effectiveTime is server-owned and is not writable")
  else
    match payload.get "softDeletePolicy" with
    | none => .ok ()
    | some policy =>
      match (policy.get "retentionDurationSeconds").bind Json.unsignedInteger with
      | none => .error (invalidDataProtectionResponse
          "softDeletePolicy.retentionDurationSeconds must be an unsigned integer")
      | some duration =>
        if duration = 0 then
          .error (unimplementedDataProtectionResponse ("Disabling an enabled soft-delete policy is " ++
            "not supported by this emulator surface"))
        else if !(604800 ≤ duration && duration < 7776000) then
          .error (invalidDataProtectionResponse ("softDeletePolicy.retentionDurationSeconds must be " ++
            "at least 604800 and less than 7776000 seconds"))
        else .ok ()

/-- `validate_bucket_data_protection` -/
def validateBucketDataProtection (req : Request) (payload : Json) : Except Response Unit := do
  validateBucketFields req payload
  if (req.queryParam "enableObjectRetention").isSome || (payload.get "objectRetention").isSome then
    .error (unimplementedDataProtectionResponse
      "Per-object retention configuration is not supported by this emulator surface")
  validateRetentionPolicy payload
  validateSoftDeletePolicy payload

/-- The soft-delete period that a payload sets, as it is written. -/
def softDeleteSeconds (payload : Json) : Option String :=
  match payload.pointer "softDeletePolicy" "retentionDurationSeconds" with
  | some (.string text) => some text
  | some (.number (some n)) => some (toString n)
  | _ => none

/-- The metadata of a bucket with the retention policy of a payload. -/
def withRetentionPolicy (payload : Json) (metadata : Table String String) : Table String String :=
  match payload.get "retentionPolicy" with
  | none => metadata
  | some .null => metadata.set "gcs_retention_seconds" none
  | some policy =>
    match (policy.get "retentionPeriod").bind Json.unsignedInteger with
    | none => metadata
    | some seconds => metadata.set "gcs_retention_seconds" (some (toString seconds))

/-- `bucket_data_protection_requested` -/
def bucketDataProtectionRequested (payload : Json) : Bool :=
  (payload.get "softDeletePolicy").isSome ||
    (payload.get "retentionPolicy").any fun policy ↦
      match policy with
      | .null => false
      | _ => true

/-- `valid_bucket_name` -/
def validBucketName (name : String) : Bool :=
  let bytes := name.toList
  let components := bytes.splitOn '.'
  3 ≤ bytes.length && bytes.length ≤ (if '.' ∈ bytes then 222 else 63) &&
    bytes.head?.any Char.isAlphanum && bytes.getLast?.any Char.isAlphanum &&
    bytes.all (fun c ↦ c.isLower || c.isDigit || c = '-' || c = '_' || c = '.') &&
    components.all (fun component ↦ !component.isEmpty && component.length ≤ 63) &&
    !(components.length = 4 && components.all isOctet) &&
    !startsWith "goog" name && !("google".toList <:+: bytes) && !("g00gle".toList <:+: bytes)

section Handlers

variable (E : Env) (C : Crates) (now : Time)

/-! ### Buckets -/

/-- A call that changes the vault, and that nothing is logged of. -/
def changeVault {α : Type} (m : VaultOp α) : Handler α := change (fun _ ↦ []) m

/-- `apply_bucket_data_protection` -/
def applyBucketDataProtection (b : String) (payload : Json) : Handler Unit :=
  (getBucketFor .other .policy b).bind fun B ↦
    match softDeleteSeconds payload with
    | none => changeVault (Vault.updateBucketMetadata now b (withRetentionPolicy payload B.metadata))
    | some seconds => (changeVault (Vault.setVersioning now b .enabled)).bind fun _ ↦
        changeVault (Vault.updateBucketMetadata now b (withRetentionPolicy payload
          (B.metadata.set "gcs_soft_delete_seconds" (some seconds))))

/-- `json_bucket_response` -/
def jsonBucketResponse (b : String) (B : Bucket) : Response :=
  .bucket b B.metadata["gcs_soft_delete_seconds"]? B.metadata["gcs_retention_seconds"]?

/-- The answer to an error of the store. -/
def internalJsonError : Response := jsonUploadError 500 "internal error"

/-- What `create_json_bucket` does with a bucket that it could not finish. -/
def rollBackBucket (b : String) : Handler Response :=
  (changeVault (Vault.deleteBucket b)).attempt.bind fun _ ↦ ret internalJsonError

/-- `create_json_bucket` -/
def createJsonBucket (req : Request) : Handler Response :=
  match C.parseJson req.body with
  | none => ret (jsonUploadError 400 "Invalid bucket metadata JSON")
  | some payload =>
    match validateBucketDataProtection req payload, payload.get "name" with
    | .error response, _ => ret response
    | .ok (), some (.string b) =>
      if !validBucketName b then ret (.jsonError 400 "invalidParameter" "Invalid bucket name")
      else (changeVault (Vault.createBucket now b)).attempt.bind fun
        | .error .bucketAlreadyExists =>
          ret (.jsonError 409 "conflict" "The requested bucket already exists")
        | .error _ => ret internalJsonError
        | .ok () => (applyBucketDataProtection now b payload).attempt.bind fun
          | .error _ => rollBackBucket b
          | .ok () => (getBucket .other b).attempt.bind fun
            | .error _ => rollBackBucket b
            | .ok B => ret (jsonBucketResponse b B)
    | .ok (), _ => ret (jsonUploadError 400 "Required parameter: name")

/-- The deletion of a bucket in the JSON API. -/
def deleteJsonBucket (b : String) : Handler Response :=
  (foreignDataProtectionActive C now b).bind fun foreign ↦
    if foreign then ret foreignDataProtectionJsonResponse
    else (changeVault (Vault.deleteBucket b)).attempt.bind fun
      | .ok () => ret (.empty 204)
      | .error .bucketNotEmpty => ret (.jsonError 409 "conflict" "The bucket is not empty")
      | .error .bucketNotFound => ret (jsonBucketNotFound b)
      | .error _ => ret internalJsonError

/-- The update of a bucket, once its payload was read. -/
def patchBucketWith (b : String) (payload : Json) : Handler Response :=
  (applyBucketDataProtection now b payload).attempt.bind fun
    | .error _ => ret internalJsonError
    | .ok () => (getBucket .other b).attempt.bind fun
      | .ok B => ret (jsonBucketResponse b B)
      | .error .bucketNotFound => ret (jsonBucketNotFound b)
      | .error _ => ret internalJsonError

/-- The update of a bucket in the JSON API. -/
def patchJsonBucket (req : Request) (b : String) : Handler Response :=
  (getBucket .other b).attempt.bind fun
    | .error .bucketNotFound => ret (jsonBucketNotFound b)
    | _ =>
      match C.parseJson req.body with
      | none => ret (jsonUploadError 400 "Invalid bucket metadata JSON")
      | some payload =>
        match validateBucketDataProtection req payload with
        | .error response => ret response
        | .ok () =>
          if bucketDataProtectionRequested payload then
            (foreignDataProtectionActive C now b).bind fun foreign ↦
              if foreign then ret foreignDataProtectionJsonResponse
              else patchBucketWith now b payload
          else patchBucketWith now b payload

/-- `handle_json_bucket_item` -/
def handleJsonBucketItem (req : Request) (b : String) : Handler Response :=
  match req.method with
  | .get => (getBucket .other b).attempt.bind fun
    | .ok B => ret (jsonBucketResponse b B)
    | .error .bucketNotFound => ret (jsonBucketNotFound b)
    | .error _ => ret internalJsonError
  | .delete => deleteJsonBucket C now b
  | .patch => patchJsonBucket C now req b
  | _ => ret (jsonUploadError 405 "Unsupported GCS JSON API bucket operation")

/-- The creation of a bucket in the XML API. -/
def createXmlBucket (req : Request) (b : String) : Handler Response :=
  if !req.body.isEmpty || ["x-goog-acl", "x-goog-bucket-object-lock-enabled",
      "x-goog-bucket-retention-period"].any fun name ↦ (req.header name).isSome then
    ret (.xmlError 501 "NotImplemented" ("GCS XML bucket configuration bodies, ACLs, and retention " ++
      "headers are not supported; use the supported JSON data-protection fields instead."))
  else if !validBucketName b then
    ret (.xmlError 400 "InvalidBucketName" "The specified bucket name is not valid.")
  else (changeVault (Vault.createBucket now b)).attempt.bind fun
    | .ok () => ret (.empty 200)
    | .error .bucketAlreadyExists => ret (.xmlError 409 "BucketAlreadyOwnedByYou"
        "Your previous request to create the named bucket succeeded")
    | .error e => ret (xmlStorageError b e)

/-- The deletion of a bucket in the XML API. -/
def deleteXmlBucket (b : String) : Handler Response :=
  (foreignDataProtectionActive C now b).bind fun foreign ↦
    if foreign then ret foreignDataProtectionXmlResponse
    else (changeVault (Vault.deleteBucket b)).attempt.bind fun
      | .ok () => ret (.empty 204)
      | .error .bucketNotEmpty => ret (.xmlError 409 "BucketNotEmpty"
          "The bucket you tried to delete is not empty")
      | .error e => ret (xmlStorageError b e)

/-- `list_xml_bucket`, for a request without parameters. -/
def handleXmlListing (b : String) : Handler Response :=
  (foreignDataProtectionActive C now b).bind fun foreign ↦
    if foreign then ret foreignDataProtectionXmlResponse
    else (getBucket .other b).attempt.bind fun
      | .ok B => ret (listXmlBucket (B.current.take 1000))
      | .error e => ret (xmlStorageError b e)

/-- `list_json_objects`, for a request without parameters. -/
def handleJsonListing (b : String) : Handler Response :=
  (foreignDataProtectionActive C now b).bind fun foreign ↦
    if foreign then ret foreignDataProtectionJsonResponse
    else (getBucket .other b).attempt.bind fun
      | .ok B => ret (listJsonObjects C b (B.current.take 1000))
      | .error .bucketNotFound => ret (jsonBucketNotFound b)
      | .error _ => ret internalJsonError

/-- `list_json_buckets`, for a request without parameters. -/
def listJsonBuckets : Handler Response :=
  (lookup fun S ↦ S.vault.buckets.keys).bind fun names ↦ ret (.buckets (names.take 1000))

/-! ### Routes -/

/-- What a request is for. -/
inductive Target where
  | xmlBucket (b : String)
  | xmlObject (b : String) (key : Text)
  | jsonBuckets
  | jsonBucket (b : String)
  | jsonObjects (b : String)
  | jsonObject (b : String) (key : Text)
  | jsonUpload (b : String)
  | resumable (id : String)

/-- `handle_xml_object_request` -/
def handleXmlObject (req : Request) (b : String) (key : Text) : Handler Response :=
  (foreignDataProtectionActive C now b).bind fun foreign ↦
    if foreign then ret foreignDataProtectionXmlResponse
    else (getBucket .other b).attempt.bind fun
      | .error e =>
        ret (if e = .bucketNotFound && req.method = .head then .empty 404 else xmlStorageError b e)
      | .ok _ =>
        match refuseXmlObject req with
        | some response => ret response
        | none =>
          if req.method = .post && req.header "x-goog-resumable" = some "start" then
            createXmlResumableSession E now req b key
          else xmlObjectMethod E C now req b key

/-- `handle_resumable_start` -/
def handleJsonUpload (req : Request) (b : String) : Handler Response :=
  if req.method ≠ .post then ret (jsonUploadError 405 "GCS JSON uploads require POST.")
  else (getBucket .other b).attempt.bind fun
    | .error .bucketNotFound => ret (jsonUploadError 404 "The specified bucket does not exist.")
    | .error e => fail e
    | .ok _ => (foreignDataProtectionActive C now b).bind fun foreign ↦
        if foreign then ret foreignDataProtectionJsonResponse
        else
          match req.queryParam "uploadType" with
          | none => ret (jsonUploadError 400 "Required parameter: uploadType")
          | some type =>
            if type = "media" then handleMediaUpload E C now req b
            else if type = "multipart" then handleMultipartUpload E C now req b
            else if type = "resumable" then createResumableSession E C now req b
            else ret (jsonUploadError 400 ("Unsupported uploadType: " ++ type))

/-- `handle_request`. The parameters of a listing are left out. -/
def handleRequest (combine : UInt32 → UInt32 → ℕ → UInt32) (target : Target) (req : Request) :
    Handler Response :=
  match target with
  | .xmlBucket b =>
    match req.method with
    | .put => createXmlBucket now req b
    | .delete => deleteXmlBucket C now b
    | .get => handleXmlListing C now b
    | _ => ret (.xmlError 405 "UnsupportedHttpVerb" "Unsupported GCS operation")
  | .xmlObject b key => handleXmlObject E C now req b key
  | .jsonBuckets =>
    if (req.queryParam "project").isNone then
      ret (.jsonError 400 "required" "Required parameter: project")
    else
      match req.method with
      | .get => listJsonBuckets
      | .post => createJsonBucket C now req
      | _ => ret (jsonUploadError 405 "Unsupported GCS JSON API bucket collection operation")
  | .jsonBucket b => handleJsonBucketItem C now req b
  | .jsonObjects b => handleJsonListing C now b
  | .jsonObject b key => handleJsonObject E C now req b key
  | .jsonUpload b => handleJsonUpload E C now req b
  | .resumable id =>
    if (req.queryParam "upload_id").any (· ≠ id) then
      ret (jsonUploadError 400 "The resumable upload identity is ambiguous.")
    else completeResumableUpload E C now combine req id

end Handlers

end Sqrzl.Gcs
