import SqrzlEmulator.Oci.Par

/-!
# Storage tiers

The paths of `providers/oci.rs` that publish objects: `put_object`, and the multipart uploads that
`handle_multipart_collection` and `commit_multipart_upload` begin and end, each also behind a
pre-authenticated request (PAR). A bucket has a storage tier, and **an Archive bucket must have only
Archive objects**; the rule is in `resolve_object_storage_tier`.

The tier of an upload is resolved when the upload is created, and is kept in its record as
`storage_class` until it is published. A PAR that creates an upload does not resolve anything: its
record says `Standard` (`parCreateMultipart`), whatever the bucket is and whatever is asked for.

`State` adds to the store the tiers that uploads have been asked for and what has been published.
In runs where PARs create uploads only in Standard buckets, and ask for no other tier, **everything
that is published has the tier that its bucket and its request call for** (`published_in_tier`).
-/

namespace Sqrzl

open Prog

namespace Vault

/-! ### Multipart uploads of the store -/

variable (E : Env)

/-- `create_multipart_upload_with_metadata`, at the time `now`. -/
def createMultipartUploadWithMetadata (now : Time) (b : String) (key : Text)
    (contentType : Option String) (metadata providerMetadata : Table String String) :
    VaultOp MultipartUpload := do
  let _ ← getBucket b
  let n ← .view fun V : Vault ↦ V.drawn
  let upload : MultipartUpload :=
    { uploadId := E.uuid n
      key := key
      initiated := now
      contentType := contentType
      metadata := metadata
      providerMetadata := providerMetadata
      parts := [] }
  .update fun V ↦ (V.setUpload b (E.uuid n) (some { record := upload })).draw (n + 1)
  return upload

/-- `abort_multipart_upload` -/
def abortMultipartUpload (b u : String) : VaultOp Unit := do
  let _ ← getUpload b u
  .update (setUpload b u none)

/-- The bytes of the parts, put together, unless one is not what its record says. -/
def assembleParts (upload : Upload) : List Part → Except Error Bytes
  | [] => .ok []
  | part :: parts => do
    let data ← orError (.internalError "Failed to open part") upload.bodies[part.partNumber]?
    if data.length ≠ part.size || part.crc32c.any (· ≠ E.crc32cAppend 0 data) then
      throw .badDigest
    let rest ← assembleParts upload parts
    return data ++ rest

/-- `complete_multipart_upload`, at the time `now`. -/
def completeMultipartUpload (now : Time) (b u : String) : VaultOp String := do
  let upload ← getUpload b u
  let (parts, total) ← .ofExcept (checkManifest upload.record
    (upload.record.parts.map fun part ↦ (part.partNumber, part.etag)) ⟨none, none, none, false⟩)
  let etag ← .ofExcept (finalEtag E parts)
  let data ← .ofExcept (assembleParts E upload parts)
  putObject E b upload.record.key
    (completedObject E now upload.record etag total (E.crc32cAppend 0 data)) data
  .update (setUpload b u none)
  return etag

end Vault

namespace Oci.Tiers

open S3

/-! ### Requests -/

/-- What a request that writes an object says. The checks of its headers that do not read the store
are given by what they return: `put_provider_metadata` and `put_condition`. -/
structure PutRequest where
  /-- The header `storage-tier`. -/
  storageTier : Option String := none
  contentType : Option String := none
  metadata : Table String String := ∅
  providerMetadata : Except Failure (Table String String) := .ok ∅
  condition : Except Failure (Option ObjectCondition) := .ok none
  body : Bytes := []

/-- The document that creates an upload. -/
structure MultipartDocument where
  object : Text
  storageTier : Option String := none
  contentType : Option String := none
  metadata : Table String String := ∅
  cacheControl : Option String := none
  contentDisposition : Option String := none
  contentEncoding : Option String := none
  contentLanguage : Option String := none

/-- A part, with what `put_provider_metadata` says of its headers. -/
structure PartRequest where
  providerMetadata : Except Failure (Table String String) := .ok ∅
  uploadPartNum : Option String
  body : Bytes

/-- A commit: whether it has conditions, and what `validate_parts_to_commit` says of an upload, if
the body is a document. -/
structure CommitRequest where
  conditional : Bool := false
  validate : Except Failure (MultipartUpload → Except Failure Unit)

/-- The requests that write to a bucket. A PAR that lets a request through adds nothing to it but
the bucket and, if it names one, the object. -/
inductive TierRequest where
  | putObject (object : Text) (put : PutRequest)
  | createMultipart (document : Except Failure MultipartDocument)
  | uploadPart (uploadId : String) (part : PartRequest)
  | commit (object : Text) (uploadId : String) (commit : CommitRequest)
  | abort (uploadId : String)
  | parPutObject (object : Text) (put : PutRequest)
  | parCreateMultipart (object : Text) (put : PutRequest)
  | parUploadPart (uploadId : String) (part : PartRequest)
  | parCommit (uploadId : String) (commit : CommitRequest)
  | parAbort (uploadId : String)

/-! ### Handlers -/

/-- Handlers. -/
abbrev Handler (α : Type) : Type := Atomic Failure Vault α

/-- `bucket_not_found` -/
def bucketNotFound : Failure := .answered ⟨404, "BucketNotFound", "The bucket does not exist."⟩

/-- `incorrect_state` -/
def incorrectState : Failure := .answered ⟨409, "IncorrectState",
  "The bucket data-protection mode is not compatible with this OCI operation."⟩

/-- `multipart_upload_not_found` -/
def multipartUploadNotFound : Failure :=
  .answered ⟨404, "MultipartUploadNotFound", "The multipart upload does not exist."⟩

/-- An error of the store, whose text is not modelled. -/
def storageError : Error → Failure
  | .bucketNotFound => bucketNotFound
  | _ => .failed "storage error"

/-- An error of the store about an upload. -/
def uploadError : Error → Failure
  | .bucketNotFound => bucketNotFound
  | .noSuchUpload => multipartUploadNotFound
  | .invalidPartNumber =>
    invalidParameter "The uploadPartNum query parameter must be between 1 and 10000."
  | _ => .failed "storage error"

/-- An error of the store about the upload of a PAR. -/
def parUploadError : Error → Failure
  | .noSuchUpload => multipartUploadNotFound
  | _ => .failed "storage error"

/-- An error of the store about a commit. -/
def commitError : Error → Failure
  | .bucketNotFound => bucketNotFound
  | .noSuchUpload => multipartUploadNotFound
  | .invalidPartNumber | .invalidPartOrder | .incompleteMultipartUpload | .entityTooSmall =>
    .answered ⟨400, "InvalidPart", "The multipart upload parts are invalid."⟩
  | _ => .failed "storage error"

/-- `valid_bucket_storage_tier` -/
def validBucketStorageTier (value : String) : Bool := value = "Standard" || value = "Archive"

/-- `valid_object_storage_tier` -/
def validObjectStorageTier (value : String) : Bool :=
  value = "Standard" || value = "InfrequentAccess" || value = "Archive"

/-- `foreign_protection_active` -/
def foreignProtectionActive (C : Codec) (now : Time) (b : String) (V : Vault) : Bool :=
  V.buckets[b]?.any fun B ↦ B.current.any (hasActiveAzureProtection C now) ||
    (B.metadata["s3_versioning_status"]?.any fun status ↦
      status = "Enabled" || status = "Suspended") ||
    B.metadata["s3_object_lock_enabled"]? = some "true" || hasForeignDataProtection B

section Handlers

variable (E : Env) (C : Codec) (now : Time) (b : String)

/-- `create_bucket`, with what is added to the metadata of the bucket. -/
def createBucket (storageTier : String) (compartmentId userMetadata : Option String) :
    VaultOp Unit := do
  Vault.createBucket now b
  Vault.updateBucketMetadata now b
    ((((∅ : Table String String).set "oci-storage-tier" (some storageTier)).set
      "oci-compartment-id" compartmentId).set "oci-bucket-user-metadata" userMetadata)

/-- `bucket_storage_tier` -/
def bucketStorageTier : Handler String := do
  let B ← .mapError (fun
    | .bucketNotFound => bucketNotFound
    | _ => .answered ⟨500, "InternalError", "internal error"⟩) (Vault.getBucket b)
  return B.metadata["oci-storage-tier"]?.getD "Standard"

/-- `resolve_object_storage_tier` -/
def resolveObjectStorageTier (requested : Option String) : Handler String := do
  let bucketTier ← bucketStorageTier b
  let storageTier := requested.getD bucketTier
  .refuseIf (!validObjectStorageTier storageTier)
    (invalidParameter "The storage-tier value must be Standard, InfrequentAccess, or Archive.")
  .refuseIf (bucketTier = "Archive" && storageTier ≠ "Archive")
    (invalidParameter "Objects in an Archive tier bucket must use the Archive storage tier.")
  return storageTier

/-- The largest body. -/
def maxBody : ℕ := 50 * 1024 * 1024 * 1024

/-- `payload_too_large_response` -/
def payloadTooLargeResponse : Failure := .answered ⟨413, "PayloadTooLarge",
  "Request body exceeds SQRZL_MAX_REQUEST_BYTES (53687091200 bytes)"⟩

/-- `precondition_failed` -/
def preconditionFailed : Failure := .answered ⟨412, "NoEtagMatch",
  "The specified entity tag does not match the current entity tag."⟩

/-- The object of a request that writes one. -/
def objectToPut (object : Text) (put : PutRequest) (providerMetadata : Table String String)
    (storageTier : String) : Object :=
  { Object.newWithMetadataAndEtag now object put.body
      (put.contentType.getD "application/octet-stream") put.metadata (E.md5 put.body) with
    providerMetadata := providerMetadata
    storageClass := storageTier }

/-- The part of `put_object` that writes. -/
def writeObject (value : Object) (body : Bytes) : Option ObjectCondition → Handler Unit
  | some condition => do
    let written ← .mapError storageError (Vault.putObjectIf E b value.key value body condition)
    .refuseIf (!written) preconditionFailed
  | none => .mapError storageError (Vault.putObject E b value.key value body)

/-- `put_object`, up to the headers of its response. -/
def putObject (object : Text) (put : PutRequest) : Handler Unit := do
  .refuseIf (← .view (foreignProtectionActive C now b)) incorrectState
  let storageTier ← resolveObjectStorageTier b put.storageTier
  let providerMetadata ← .ofExcept put.providerMetadata
  .refuseIf (maxBody < put.body.length) payloadTooLargeResponse
  let condition ← .ofExcept put.condition
  writeObject E b (objectToPut E now object put providerMetadata storageTier) put.body condition

/-- `multipart_provider_metadata` -/
def multipartProviderMetadata (storageTier : String) : Table String String :=
  ((((((∅ : Table String String).set "storage_tier" (some storageTier)).set "storage_class"
    (some storageTier)).set "__sqrzl_multipart_max_object_size" (some "10995116277760")).set
      "__sqrzl_multipart_max_part_size" (some "53687091200")).set
        "__sqrzl_multipart_min_non_final_part_size" (some "10485760"))

/-- Set a value, if there is one. -/
def setSome (name : String) (value : Option String) (table : Table String String) :
    Table String String :=
  match value with
  | some value => table.set name (some value)
  | none => table

/-- `create_multipart_session` -/
def createMultipartSession (document : MultipartDocument) (storageTier : String) :
    VaultOp MultipartUpload :=
  Vault.createMultipartUploadWithMetadata E now b document.object document.contentType
    document.metadata
    (setSome "oci-content-language" document.contentLanguage
      (setSome "oci-content-encoding" document.contentEncoding
        (setSome "oci-content-disposition" document.contentDisposition
          (setSome "oci-cache-control" document.cacheControl
            (multipartProviderMetadata storageTier)))))

/-- `handle_multipart_collection` -/
def createMultipart (document : Except Failure MultipartDocument) : Handler MultipartUpload := do
  let document ← .ofExcept document
  let storageTier ← resolveObjectStorageTier b document.storageTier
  .mapError storageError (createMultipartSession E now b document storageTier)

/-- The part of `handle_par_request` that creates an upload. **It does not look at the bucket.** -/
def parCreateMultipart (object : Text) (put : PutRequest) : Handler MultipartUpload :=
  .mapError (fun _ ↦ .failed "storage error")
    (Vault.createMultipartUploadWithMetadata E now b object put.contentType put.metadata
      (multipartProviderMetadata "Standard"))

/-- `upload_multipart_part` -/
def uploadMultipartPart (uploadId : String) (part : PartRequest) : Handler String := do
  .refuseIf (maxBody < part.body.length) payloadTooLargeResponse
  let _ ← .ofExcept part.providerMetadata
  let raw ← .ofExcept (match part.uploadPartNum with
    | some raw => .ok raw
    | none => .error (invalidParameter "The uploadPartNum query parameter is required."))
  match (parseU32 raw).filter fun n ↦ decide (1 ≤ n) && decide (n ≤ 10000) with
  | none =>
    .fail (invalidParameter "The uploadPartNum query parameter must be between 1 and 10000.")
  | some n => .mapError uploadError (Vault.uploadPart E now b uploadId n part.body)

/-- `commit_multipart_upload` -/
def commitMultipartUpload (object : Text) (uploadId : String) (commit : CommitRequest) :
    Handler String := do
  .refuseIf commit.conditional (.answered ⟨501, "NotImplemented",
    "Conditional OCI multipart completion is not implemented."⟩)
  .refuseIf (← .view (foreignProtectionActive C now b)) incorrectState
  let validate ← .ofExcept commit.validate
  let upload ← .mapError uploadError (Vault.getUpload b uploadId)
  .refuseIf (upload.record.key ≠ object)
    (invalidParameter "Multipart upload object did not match upload session")
  .ofExcept (validate upload.record)
  .mapError commitError (Vault.completeMultipartUpload E now b uploadId)

/-- `abort_multipart_upload` -/
def abortMultipartUpload (uploadId : String) : Handler Unit :=
  .mapError uploadError (Vault.abortMultipartUpload b uploadId)

/-- A part of the upload of a PAR. -/
def parUploadPart (uploadId : String) (part : PartRequest) : Handler String := do
  let _ ← .mapError parUploadError (Vault.getUpload b uploadId)
  uploadMultipartPart E now b uploadId part

/-- The end of the upload of a PAR. The key that it is published under is the one of the upload. -/
def parCommit (uploadId : String) (commit : CommitRequest) : Handler Text := do
  let upload ← .mapError parUploadError (Vault.getUpload b uploadId)
  let _ ← commitMultipartUpload E C now b upload.record.key uploadId commit
  return upload.record.key

/-- The abort of a PAR. -/
def parAbort (uploadId : String) : Handler Unit := do
  let _ ← .mapError parUploadError (Vault.getUpload b uploadId)
  .mapError (fun _ ↦ .failed "storage error") (Vault.abortMultipartUpload b uploadId)

end Handlers

/-! ### Runs -/

/-- An object that has been published: its key, the storage class that is read of it after that, and
the tier that has been asked for. -/
structure Publication where
  key : Text
  storageClass : Option String
  requested : Option String
  deriving DecidableEq

/-- The store, the tiers that its uploads have been asked for, and what has been published. -/
structure State where
  vault : Vault
  asked : Table String (Option String) := ∅
  published : List Publication := []

namespace State

/-- The state after a request that publishes an object, if it has done so. -/
def publish {α : Type} (b : String) (key : Text) (requested : Option String) (S : State) :
    Except Failure α × Vault → State
  | (.ok _, V) => { S with
      vault := V
      published := ⟨key, (V.record b key).metadata.map (·.storageClass), requested⟩ :: S.published }
  | (.error _, V) => { S with vault := V }

/-- The state after a request that creates an upload, if it has done so. -/
def create (requested : Option String) (S : State) : Except Failure MultipartUpload × Vault → State
  | (.ok upload, V) =>
    { S with vault := V, asked := S.asked.set upload.uploadId (some requested) }
  | (.error _, V) => { S with vault := V }

/-- The key of an upload. -/
def keyOf (b u : String) (S : State) : Text :=
  ((S.vault.buckets[b]?.bind (·.uploads[u]?)).map (·.record.key)).getD []

end State

section Runs

variable (E : Env) (C : Codec) (b : String)

/-- What a request makes of the state, at the time `now`. -/
def step (now : Time) (S : State) : TierRequest → State
  | .putObject object put | .parPutObject object put =>
    S.publish b object put.storageTier (putObject E C now b object put S.vault)
  | .createMultipart document =>
    S.create (document.toOption.bind (·.storageTier)) (createMultipart E now b document S.vault)
  | .parCreateMultipart object put =>
    S.create put.storageTier (parCreateMultipart E now b object put S.vault)
  | .uploadPart u part => { S with vault := (uploadMultipartPart E now b u part S.vault).2 }
  | .parUploadPart u part => { S with vault := (parUploadPart E now b u part S.vault).2 }
  | .commit object u commit =>
    S.publish b object S.asked[u]?.join (commitMultipartUpload E C now b object u commit S.vault)
  | .parCommit u commit =>
    S.publish b (S.keyOf b u) S.asked[u]?.join (parCommit E C now b u commit S.vault)
  | .abort u => { S with vault := (abortMultipartUpload b u S.vault).2 }
  | .parAbort u => { S with vault := (parAbort b u S.vault).2 }

/-- The state after requests at their times. -/
def run (S : State) (requests : List (Time × TierRequest)) : State :=
  requests.foldl (fun S request ↦ step E C b request.1 S request.2) S

end Runs

/-- The storage class is the one that the tier of the bucket and the request call for. -/
def InTier (tier storageClass : String) (requested : Option String) : Prop :=
  if tier = "Archive" then storageClass = "Archive"
  else storageClass = requested.getD "Standard" ∧ validObjectStorageTier storageClass = true

/-- A PAR creates an upload only in a Standard bucket, and asks for no other tier. -/
def TierRequest.Kept (tier : String) : TierRequest → Prop
  | .parCreateMultipart _ put =>
    tier = "Standard" ∧ (put.storageTier = none ∨ put.storageTier = some "Standard")
  | _ => True

/-! ### What is kept, and what is written -/

section Steps

variable {E : Env} {C : Codec} {now : Time} {b : String} {tier : String} {V V' : Vault}

/-- The storage class of the current object of a key. -/
def classOf (B : Bucket) (key : Text) : Option String :=
  (B.record key).metadata.map (·.storageClass)

/-- The settings of the bucket and its uploads are kept, and the storage classes of its objects are
changed. -/
def Wrote (b : String) (change : (Text → Option String) → Text → Option String) (V V' : Vault) :
    Prop :=
  ∀ B, V.buckets[b]? = some B → ∃ B', V'.buckets[b]? = some B' ∧ B'.metadata = B.metadata ∧
    B'.uploads = B.uploads ∧ classOf B' = change (classOf B)

/-- An object is stored under a key. -/
def stored (key : Text) (storageClass : String) (classes : Text → Option String) :
    Text → Option String :=
  Function.update classes key (some storageClass)

theorem Wrote.refl : Wrote b id V V := fun B hB ↦ ⟨B, hB, rfl, rfl, rfl⟩

theorem metadata_snapshot (v : Option VersioningState) (e : KeyRecord) :
    (e.snapshot v).metadata = e.metadata := by
  unfold KeyRecord.snapshot
  split
  · split
    · rfl
    · rfl
  · rfl

theorem classOf_setRecord (B : Bucket) (key : Text) (e : KeyRecord) :
    classOf (B.setRecord key e) =
      Function.update (classOf B) key (e.metadata.map (·.storageClass)) := by
  funext key'
  rw [classOf, Bucket.record_setRecord, Function.update_apply]
  split
  · rfl
  · rfl

/-- A record is replaced. -/
theorem wrote_setRecord {key : Text} {e : KeyRecord} {n : ℕ}
    {change : (Text → Option String) → Text → Option String}
    (h : ∀ B, V.buckets[b]? = some B →
      Function.update (classOf B) key (e.metadata.map (·.storageClass)) = change (classOf B)) :
    Wrote b change V ((V.setRecord b key e).draw n) := by
  intro B hB
  refine ⟨B.setRecord key e, ?_, rfl, rfl, (classOf_setRecord B key e).trans (h B hB)⟩
  show (V.buckets.set b (V.buckets[b]?.map (·.setRecord key e)))[b]? = _
  rw [Table.getElem?_set, if_pos rfl, hB]
  rfl

/-- A write stores its object, or it fails and keeps the one before it. -/
theorem putObject_wrote (E : Env) (b : String) (key : Text) (o : Object) (data : Bytes)
    (V : Vault) :
    (∃ V', Vault.putObject E b key o data V = (.ok (), V') ∧
      Wrote b (stored key o.storageClass) V V') ∨
    ∃ e V', Vault.putObject E b key o data V = (.error e, V') ∧ Wrote b id V V' := by
  rw [Vault.putObject]
  cases hB : V.buckets[b]? with
  | none => exact .inr ⟨_, V, rfl, .refl⟩
  | some B =>
    dsimp only
    split
    · refine .inr ⟨_, _, rfl, wrote_setRecord fun B' hB' ↦ ?_⟩
      obtain rfl : B = B' := Option.some.inj (hB.symm.trans hB')
      rw [metadata_snapshot]
      exact Function.update_eq_self key (classOf B)
    · exact .inl ⟨_, rfl, wrote_setRecord fun B' hB' ↦ rfl⟩

/-- A conditional write does so too; what has not been written is kept. -/
theorem putObjectIf_wrote (E : Env) (b : String) (key : Text) (o : Object) (data : Bytes)
    (condition : ObjectCondition) (V : Vault) :
    (∃ V', Vault.putObjectIf E b key o data condition V = (.ok true, V') ∧
      Wrote b (stored key o.storageClass) V V') ∨
    ∃ r V', Vault.putObjectIf E b key o data condition V = (r, V') ∧ r ≠ .ok true ∧
      Wrote b id V V' := by
  rw [Vault.putObjectIf, Vault.mutateIf, Atomic.view_bind]
  split
  · rcases putObject_wrote E b key o data V with ⟨V', hput, hwrote⟩ | ⟨e, V', hput, hwrote⟩
    · exact .inl ⟨V', Atomic.bind_of_ok hput, hwrote⟩
    · exact .inr ⟨.error e, V', Atomic.bind_of_error hput, (by simp), hwrote⟩
  · exact .inr ⟨.ok false, V, rfl, (by simp), .refl⟩

/-- The write of a request stores its object, or it fails and keeps the one before it. -/
theorem writeObject_wrote (E : Env) (b : String) (o : Object) (body : Bytes)
    (condition : Option ObjectCondition) (V : Vault) :
    (∃ V', writeObject E b o body condition V = (.ok (), V') ∧
      Wrote b (stored o.key o.storageClass) V V') ∨
    ∃ e V', writeObject E b o body condition V = (.error e, V') ∧ Wrote b id V V' := by
  cases condition with
  | some condition =>
    rcases putObjectIf_wrote E b o.key o body condition V with
      ⟨V', hput, hwrote⟩ | ⟨r, V', hput, hr, hkept⟩
    · exact .inl ⟨V', Atomic.bind_ok.2 ⟨true, V', Atomic.mapError_ok.2 hput, rfl⟩, hwrote⟩
    · have hmapped : Atomic.mapError storageError (Vault.putObjectIf E b o.key o body condition) V =
          (r.mapError storageError, V') := by
        rw [Atomic.mapError, hput]
      cases r with
      | error e => exact .inr ⟨storageError e, V', Atomic.bind_of_error hmapped, hkept⟩
      | ok written =>
        have hfalse : written = false := by
          cases written with
          | false => rfl
          | true => exact absurd rfl hr
        subst hfalse
        exact .inr ⟨preconditionFailed, V', Atomic.bind_of_ok hmapped, hkept⟩
  | none =>
    rcases putObject_wrote E b o.key o body V with ⟨V', hput, hwrote⟩ | ⟨e, V', hput, hkept⟩
    · exact .inl ⟨V', Atomic.mapError_ok.2 hput, hwrote⟩
    · refine .inr ⟨storageError e, V', ?_, hkept⟩
      rw [writeObject, Atomic.mapError, hput]
      rfl

/-! ### Tiers that are resolved -/

theorem readOnly_mapError {α : Type} {m : VaultOp α} {h : Error → Failure}
    (hm : Atomic.ReadOnly m) : Atomic.ReadOnly (Atomic.mapError h m) := hm

theorem readOnly_resolve {requested : Option String} :
    Atomic.ReadOnly (resolveObjectStorageTier b requested) := by
  refine .bind (.bind (readOnly_mapError .find) fun _ ↦ .pure) fun _ ↦ ?_
  exact .bind .refuseIf fun _ ↦ .bind .refuseIf fun _ ↦ .pure

/-- **What is resolved is in the tier of the bucket.** -/
theorem inTier_of_resolve {requested : Option String} {B : Bucket} {storageTier : String}
    (hB : V.buckets[b]? = some B) (hmetadata : B.metadata["oci-storage-tier"]? = some tier)
    (htier : validBucketStorageTier tier = true)
    (h : resolveObjectStorageTier b requested V = (.ok storageTier, V')) :
    InTier tier storageTier requested := by
  obtain ⟨bucketTier, V₁, hbucket, h⟩ := Atomic.bind_ok.1 h
  obtain ⟨B', V₂, hget, hpure⟩ := Atomic.bind_ok.1 hbucket
  obtain ⟨hB', rfl⟩ := Atomic.find_ok.1 (Atomic.mapError_ok.1 hget)
  obtain rfl : B = B' := Option.some.inj (hB.symm.trans hB')
  obtain ⟨hbucketTier, rfl⟩ := Atomic.pure_ok.1 hpure
  rw [hmetadata, Option.getD_some] at hbucketTier
  subst hbucketTier
  obtain ⟨hvalid, h⟩ := Atomic.refuseIf_bind_ok.1 h
  obtain ⟨harchive, h⟩ := Atomic.refuseIf_bind_ok.1 h
  obtain ⟨rfl, -⟩ := Atomic.pure_ok.1 h
  rw [InTier]
  split
  · next heq =>
    by_contra hne
    exact harchive (by rw [heq]; simpa [heq] using hne)
  · next hne =>
    have hstandard : tier = "Standard" := by
      rcases Bool.or_eq_true_iff.1 htier with h | h
      · exact of_decide_eq_true h
      · exact absurd (of_decide_eq_true h) hne
    rw [hstandard] at hvalid ⊢
    exact ⟨rfl, by simpa using hvalid⟩

/-! ### The invariant -/

/-- **The uploads of the bucket carry a class that is in its tier**, and so has what has been
published; and an Archive bucket has only Archive objects. -/
structure Tiered (b tier : String) (S : State) : Prop where
  bucket : ∃ B, S.vault.buckets[b]? = some B ∧ B.metadata["oci-storage-tier"]? = some tier ∧
    (∀ (u : String) (upload : Upload), B.uploads[u]? = some upload →
      ∃ storageClass requested,
        upload.record.providerMetadata["storage_class"]? = some storageClass ∧
        S.asked[u]? = some requested ∧ InTier tier storageClass requested) ∧
    (tier = "Archive" → ∀ key storageClass, classOf B key = some storageClass →
      storageClass = "Archive")
  published : ∀ p ∈ S.published, ∃ storageClass, p.storageClass = some storageClass ∧
    InTier tier storageClass p.requested

variable {S : State}

theorem InTier.archive {storageClass : String} {requested : Option String}
    (h : InTier tier storageClass requested) (htier : tier = "Archive") :
    storageClass = "Archive" := by
  rw [InTier, if_pos htier] at h
  exact h

theorem Tiered.keep (h : Tiered b tier S) (hkept : Wrote b id S.vault V) :
    Tiered b tier { S with vault := V } := by
  obtain ⟨B, hB, htier, huploads, hclasses⟩ := h.bucket
  obtain ⟨B', hB', hmetadata, huploads', hclasses'⟩ := hkept B hB
  refine ⟨⟨B', hB', by rw [hmetadata]; exact htier, ?_, ?_⟩, h.published⟩
  · rw [huploads']
    exact huploads
  · rw [hclasses']
    exact hclasses

/-- A publication in the tier. -/
theorem Tiered.publish {α : Type} {key : Text} {storageClass : String} {requested : Option String}
    (h : Tiered b tier S) (a : α) (hwrote : Wrote b (stored key storageClass) S.vault V)
    (hin : InTier tier storageClass requested) :
    Tiered b tier (S.publish b key requested (.ok a, V)) := by
  obtain ⟨B, hB, htier, huploads, hclasses⟩ := h.bucket
  obtain ⟨B', hB', hmetadata, huploads', hclasses'⟩ := hwrote B hB
  refine ⟨⟨B', hB', by rw [hmetadata]; exact htier, ?_,
    fun harchive key' storageClass' hclass ↦ ?_⟩, fun p hp ↦ ?_⟩
  · rw [huploads']
    exact huploads
  · rw [hclasses', stored, Function.update_apply] at hclass
    split at hclass
    · obtain rfl := Option.some.inj hclass
      exact hin.archive harchive
    · exact hclasses harchive key' storageClass' hclass
  · rcases List.mem_cons.1 hp with rfl | hp
    · refine ⟨storageClass, ?_, hin⟩
      show (V.record b key).metadata.map _ = _
      rw [Vault.record_eq hB']
      show classOf B' key = _
      rw [hclasses', stored, Function.update_self]
    · exact h.published p hp

/-- An upload is set or removed. -/
theorem Tiered.setUpload {u : String} {upload : Option Upload}
    {asked : Table String (Option String)} {n : ℕ} (h : Tiered b tier S)
    (hupload : ∀ new, upload = some new → ∃ storageClass requested,
      new.record.providerMetadata["storage_class"]? = some storageClass ∧
        asked[u]? = some requested ∧ InTier tier storageClass requested)
    (hasked : ∀ u', u' ≠ u → asked[u']? = S.asked[u']?) :
    Tiered b tier { S with vault := (S.vault.setUpload b u upload).draw n, asked := asked } := by
  obtain ⟨B, hB, htier, huploads, hclasses⟩ := h.bucket
  refine ⟨⟨{ B with uploads := B.uploads.set u upload }, ?_, htier, fun u' upload' hfound ↦ ?_,
    hclasses⟩, h.published⟩
  · show (S.vault.buckets.set b _)[b]? = _
    rw [Table.getElem?_set, if_pos rfl, hB]
    rfl
  · replace hfound : (B.uploads.set u upload)[u']? = some upload' := hfound
    rw [Table.getElem?_set] at hfound
    split at hfound
    · next heq =>
      rw [heq]
      exact hupload upload' hfound
    · next hne =>
      obtain ⟨storageClass, requested, hclass, hrequested, hin⟩ := huploads u' upload' hfound
      exact ⟨storageClass, requested, hclass, (hasked u' hne).trans hrequested, hin⟩

/-- Uploads are not part of what is read of a key. -/
theorem record_setUpload {u : String} {upload : Option Upload} {key : Text} :
    (V.setUpload b u upload).record b key = V.record b key := by
  show (((V.buckets.set b _)[b]?).map (·.record key)).getD {} = _
  rw [Table.getElem?_set, if_pos rfl, Vault.record, Option.map_map]
  rfl

/-! ### The handlers keep it -/

section Publish

variable {α β : Type} {m : Handler α} {f : α → Handler β} {key : Text} {requested : Option String}

/-- A handler that begins by looking publishes nothing, or what it does with what it has seen. -/
theorem Tiered.publish_bind (h : Tiered b tier S) (hm : Atomic.ReadOnly m)
    (hgo : ∀ a, m S.vault = (.ok a, S.vault) →
      Tiered b tier (S.publish b key requested (f a S.vault))) :
    Tiered b tier (S.publish b key requested ((m >>= f) S.vault)) := by
  rcases hm.bind_eq_cases (f := f) (s := S.vault) with ⟨e, he⟩ | ⟨a, ha, hf⟩
  · rw [he]
    exact h.keep .refl
  · rw [hf]
    exact hgo a ha

/-- A handler that begins by looking creates nothing, or what it creates with what it has seen. -/
theorem Tiered.create_bind {f : α → Handler MultipartUpload} (h : Tiered b tier S)
    (hm : Atomic.ReadOnly m)
    (hgo : ∀ a, m S.vault = (.ok a, S.vault) → Tiered b tier (S.create requested (f a S.vault))) :
    Tiered b tier (S.create requested ((m >>= f) S.vault)) := by
  rcases hm.bind_eq_cases (f := f) (s := S.vault) with ⟨e, he⟩ | ⟨a, ha, hf⟩
  · rw [he]
    exact h.keep .refl
  · rw [hf]
    exact hgo a ha

/-- A program that begins by looking leaves what it leaves with what it has seen. -/
theorem Tiered.then {ε : Type} {m : Atomic ε Vault α} {f : α → Atomic ε Vault β}
    (h : Tiered b tier S) (hm : Atomic.ReadOnly m)
    (hgo : ∀ a, m S.vault = (.ok a, S.vault) → Tiered b tier { S with vault := (f a S.vault).2 }) :
    Tiered b tier { S with vault := ((m >>= f) S.vault).2 } := by
  rcases hm.bind_eq_cases (f := f) (s := S.vault) with ⟨e, he⟩ | ⟨a, ha, hf⟩
  · rw [he]
    exact h
  · rw [hf]
    exact hgo a ha

end Publish

/-- **`put_object` publishes in the tier of the bucket**, or it publishes nothing. -/
theorem Tiered.putObject (h : Tiered b tier S) (htier : validBucketStorageTier tier = true)
    (object : Text) (put : PutRequest) :
    Tiered b tier (S.publish b object put.storageTier
      (Tiers.putObject E C now b object put S.vault)) := by
  obtain ⟨B, hB, hmetadata, -⟩ := h.bucket
  refine h.publish_bind .view fun _ _ ↦ h.publish_bind .refuseIf fun _ _ ↦
    h.publish_bind readOnly_resolve fun storageTier hresolve ↦
    h.publish_bind .ofExcept fun providerMetadata _ ↦ h.publish_bind .refuseIf fun _ _ ↦
    h.publish_bind .ofExcept fun condition _ ↦ ?_
  have hin := inTier_of_resolve hB hmetadata htier hresolve
  rcases writeObject_wrote E b (objectToPut E now object put providerMetadata storageTier) put.body
    condition S.vault with ⟨V, hwrite, hwrote⟩ | ⟨e, V, hwrite, hkept⟩
  · rw [hwrite]
    exact h.publish () hwrote hin
  · rw [hwrite]
    exact h.keep hkept

/-- An upload that is created carries its class. -/
theorem Tiered.createUpload (h : Tiered b tier S) {key : Text} {contentType : Option String}
    {metadata providerMetadata : Table String String} {rename : Error → Failure}
    {storageClass : String} {requested : Option String}
    (hclass : providerMetadata["storage_class"]? = some storageClass)
    (hin : InTier tier storageClass requested) :
    Tiered b tier (S.create requested (Atomic.mapError rename
      (Vault.createMultipartUploadWithMetadata E now b key contentType metadata providerMetadata)
        S.vault)) := by
  obtain ⟨B, hB, -⟩ := h.bucket
  let upload : MultipartUpload :=
    { uploadId := E.uuid S.vault.drawn
      key := key
      initiated := now
      contentType := contentType
      metadata := metadata
      providerMetadata := providerMetadata
      parts := [] }
  have hrun : Vault.createMultipartUploadWithMetadata E now b key contentType metadata
      providerMetadata S.vault = (.ok upload, (S.vault.setUpload b upload.uploadId
        (some { record := upload })).draw (S.vault.drawn + 1)) :=
    Atomic.find_bind_of_some hB
  rw [Atomic.mapError, hrun]
  refine h.setUpload (fun new hnew ↦ ?_) fun u' hne ↦ ?_
  · obtain rfl := Option.some.inj hnew
    exact ⟨storageClass, requested, hclass, (Table.getElem?_set ..).trans (if_pos rfl), hin⟩
  · exact (Table.getElem?_set ..).trans (if_neg hne)

theorem storageClass_multipart (storageTier : String) :
    (multipartProviderMetadata storageTier)["storage_class"]? = some storageTier := by
  rw [multipartProviderMetadata, Table.getElem?_set, if_neg (by decide), Table.getElem?_set,
    if_neg (by decide), Table.getElem?_set, if_neg (by decide), Table.getElem?_set, if_pos rfl]

theorem getElem?_setSome {name name' : String} {value : Option String}
    {table : Table String String} (hne : name' ≠ name) :
    (setSome name value table)[name']? = table[name']? := by
  cases value with
  | none => rfl
  | some value =>
    rw [setSome, Table.getElem?_set, if_neg hne]

/-- **An upload that is asked for is created in the tier of the bucket.** -/
theorem Tiered.createMultipart (h : Tiered b tier S) (htier : validBucketStorageTier tier = true)
    (document : Except Failure MultipartDocument) :
    Tiered b tier (S.create (document.toOption.bind (·.storageTier))
      (Tiers.createMultipart E now b document S.vault)) := by
  obtain ⟨B, hB, hmetadata, -⟩ := h.bucket
  refine h.create_bind .ofExcept fun document' hdocument ↦
    h.create_bind readOnly_resolve fun storageTier hresolve ↦ ?_
  obtain ⟨rfl, -⟩ := Atomic.ofExcept_ok.1 hdocument
  refine h.createUpload ?_ (inTier_of_resolve hB hmetadata htier hresolve)
  rw [getElem?_setSome (by decide), getElem?_setSome (by decide), getElem?_setSome (by decide),
    getElem?_setSome (by decide), storageClass_multipart]

/-- The upload of a PAR is in the tier of the bucket if nothing else is called for. -/
theorem Tiered.parCreateMultipart (h : Tiered b tier S) (object : Text) (put : PutRequest)
    (hkept : (TierRequest.parCreateMultipart object put).Kept tier) :
    Tiered b tier (S.create put.storageTier
      (Tiers.parCreateMultipart E now b object put S.vault)) := by
  obtain ⟨htier, hrequested⟩ := hkept
  refine h.createUpload (storageClass_multipart "Standard") ?_
  rw [InTier, if_neg (by rw [htier]; decide)]
  rcases hrequested with hrequested | hrequested
  · rw [hrequested]
    exact ⟨rfl, by decide⟩
  · rw [hrequested]
    exact ⟨rfl, by decide⟩

theorem readOnly_getUpload {u : String} : Atomic.ReadOnly (Vault.getUpload b u) :=
  .bind .find fun _ ↦ .ofExcept

/-- An upload that is found carries a class in the tier. -/
theorem Tiered.upload (h : Tiered b tier S) {u : String} {upload : Upload}
    (hupload : Vault.getUpload b u S.vault = (.ok upload, V)) :
    ∃ storageClass requested, upload.record.providerMetadata["storage_class"]? =
      some storageClass ∧ S.asked[u]? = some requested ∧ InTier tier storageClass requested := by
  obtain ⟨B, hB, -, huploads, -⟩ := h.bucket
  obtain ⟨⟨B', hB', hfound⟩, -⟩ := Vault.getUpload_ok.1 hupload
  obtain rfl : B = B' := Option.some.inj (hB.symm.trans hB')
  exact huploads u upload hfound

/-- A part leaves the class of its upload. -/
theorem Tiered.uploadPart (h : Tiered b tier S) (u : String) (part : PartRequest) :
    Tiered b tier { S with vault := (uploadMultipartPart E now b u part S.vault).2 } := by
  refine h.then .refuseIf fun _ _ ↦ h.then .ofExcept fun _ _ ↦ h.then .ofExcept fun raw _ ↦ ?_
  cases (parseU32 raw).filter fun n ↦ decide (1 ≤ n) && decide (n ≤ 10000) with
  | none => exact h
  | some n =>
    show Tiered b tier { S with vault := (Vault.uploadPart E now b u n part.body S.vault).2 }
    refine h.then .find fun _ _ ↦ h.then .refuseIf fun _ _ ↦
      h.then readOnly_getUpload fun upload hupload ↦ h.then .refuseIf fun _ _ ↦ ?_
    obtain ⟨storageClass, requested, hclass, hasked, hin⟩ := h.upload hupload
    refine h.setUpload (n := S.vault.drawn) (fun new hnew ↦ ?_) fun _ _ ↦ rfl
    obtain rfl := Option.some.inj hnew
    exact ⟨storageClass, requested, hclass, hasked, hin⟩

/-- An upload that is aborted is gone. -/
theorem Tiered.abort (h : Tiered b tier S) (u : String) {rename : Error → Failure} :
    Tiered b tier { S with
      vault := (Atomic.mapError rename (Vault.abortMultipartUpload b u) S.vault).2 } := by
  show Tiered b tier { S with vault := (Vault.abortMultipartUpload b u S.vault).2 }
  exact h.then readOnly_getUpload fun _ _ ↦
    h.setUpload (n := S.vault.drawn) (fun new hnew ↦ by cases hnew) fun _ _ ↦ rfl

/-- A completion publishes the object of its upload and forgets the upload, or it has failed and
keeps what is there. -/
theorem complete_cases (E : Env) (now : Time) (b u : String) (V : Vault) :
    (∃ e V', Vault.completeMultipartUpload E now b u V = (.error e, V') ∧ Wrote b id V V') ∨
    ∃ etag upload V', Vault.getUpload b u V = (.ok upload, V) ∧
      Vault.completeMultipartUpload E now b u V = (.ok etag, V'.setUpload b u none) ∧
      Wrote b (stored upload.record.key
        (upload.record.providerMetadata["storage_class"]?.getD "STANDARD")) V V' := by
  rw [Vault.completeMultipartUpload]
  rcases readOnly_getUpload.bind_eq_cases with ⟨e, he⟩ | ⟨upload, hupload, hgo⟩
  · exact .inl ⟨e, V, he, .refl⟩
  rw [hgo]
  rcases Atomic.ReadOnly.ofExcept.bind_eq_cases with ⟨e, he⟩ | ⟨selected, -, hgo⟩
  · exact .inl ⟨e, V, he, .refl⟩
  rw [hgo]
  obtain ⟨parts, total⟩ := selected
  dsimp only
  rcases Atomic.ReadOnly.ofExcept.bind_eq_cases with ⟨e, he⟩ | ⟨etag, -, hgo⟩
  · exact .inl ⟨e, V, he, .refl⟩
  rw [hgo]
  rcases Atomic.ReadOnly.ofExcept.bind_eq_cases with ⟨e, he⟩ | ⟨data, -, hgo⟩
  · exact .inl ⟨e, V, he, .refl⟩
  rw [hgo]
  rcases putObject_wrote E b upload.record.key
    (completedObject E now upload.record etag total (E.crc32cAppend 0 data)) data V with
    ⟨V', hput, hwrote⟩ | ⟨e, V', hput, hkept⟩
  · exact .inr ⟨etag, upload, V', hupload, Atomic.bind_of_ok hput, hwrote⟩
  · exact .inl ⟨e, V', Atomic.bind_of_error hput, hkept⟩

/-- **What is completed has the class of its upload.** -/
theorem Tiered.complete (h : Tiered b tier S) {u : String} {rename : Error → Failure} {key : Text}
    (hkey : ∀ upload, Vault.getUpload b u S.vault = (.ok upload, S.vault) →
      upload.record.key = key) :
    Tiered b tier (S.publish b key S.asked[u]?.join
      (Atomic.mapError rename (Vault.completeMultipartUpload E now b u) S.vault)) := by
  rcases complete_cases E now b u S.vault with
    ⟨e, V, hcomplete, hkept⟩ | ⟨etag, upload, V, hupload, hcomplete, hwrote⟩
  · rw [Atomic.mapError, hcomplete]
    exact h.keep hkept
  · obtain ⟨storageClass, requested, hclass, hasked, hin⟩ := h.upload hupload
    obtain rfl := hkey upload hupload
    rw [hclass, Option.getD_some] at hwrote
    have hpublished := h.publish etag hwrote hin
    rw [Atomic.mapError, hcomplete, hasked, Option.join_some]
    have hforgotten : Tiered b tier { (S.publish b upload.record.key requested
        ((.ok etag, V) : Except Failure String × Vault)) with
          vault := (V.setUpload b u none).draw V.drawn } :=
      hpublished.setUpload (fun new hnew ↦ by cases hnew) fun _ _ ↦ rfl
    refine ⟨hforgotten.bucket, fun p hp ↦ ?_⟩
    rcases List.mem_cons.1 hp with rfl | hp
    · rw [record_setUpload]
      exact hpublished.published _ (List.mem_cons_self ..)
    · exact h.published p hp

/-- A commit publishes in the tier of the bucket, or it publishes nothing. -/
theorem Tiered.commit (h : Tiered b tier S) (object : Text) (u : String) (commit : CommitRequest) :
    Tiered b tier (S.publish b object S.asked[u]?.join
      (commitMultipartUpload E C now b object u commit S.vault)) := by
  refine h.publish_bind .refuseIf fun _ _ ↦ h.publish_bind .view fun _ _ ↦
    h.publish_bind .refuseIf fun _ _ ↦ h.publish_bind .ofExcept fun validate _ ↦
    h.publish_bind (readOnly_mapError readOnly_getUpload) fun upload hupload ↦
    h.publish_bind .refuseIf fun _ hkey ↦ h.publish_bind .ofExcept fun _ _ ↦ ?_
  refine h.complete fun upload' hupload' ↦ ?_
  obtain ⟨hsame, -⟩ := Prod.mk.inj (hupload'.symm.trans (Atomic.mapError_ok.1 hupload))
  obtain rfl := Except.ok.inj hsame
  exact not_not.1 (Atomic.refuseIf_ok.1 hkey).1

/-- The commit of a PAR does so too. -/
theorem Tiered.parCommit (h : Tiered b tier S) (u : String) (commit : CommitRequest) :
    Tiered b tier (S.publish b (S.keyOf b u) S.asked[u]?.join
      (Tiers.parCommit E C now b u commit S.vault)) := by
  refine h.publish_bind (readOnly_mapError readOnly_getUpload) fun upload hupload ↦ ?_
  obtain ⟨⟨B, hB, hfound⟩, -⟩ := Vault.getUpload_ok.1 (Atomic.mapError_ok.1 hupload)
  have hkey : S.keyOf b u = upload.record.key := by
    rw [State.keyOf, hB, Option.bind_some, hfound]
    rfl
  have hcommit : Tiered b tier (S.publish b upload.record.key S.asked[u]?.join
      (commitMultipartUpload E C now b upload.record.key u commit S.vault)) :=
    h.commit upload.record.key u commit
  rw [hkey, Atomic.bind_eq, Atomic.bind]
  cases hrun : commitMultipartUpload E C now b upload.record.key u commit S.vault with
  | mk r V =>
    rw [hrun] at hcommit
    cases r with
    | error e => exact hcommit
    | ok etag => exact hcommit

/-! ### Runs -/

/-- **One step.** -/
theorem Tiered.step (h : Tiered b tier S) (htier : validBucketStorageTier tier = true)
    {request : TierRequest} (hkept : request.Kept tier) :
    Tiered b tier (Tiers.step E C b now S request) := by
  cases request with
  | putObject object put => exact h.putObject htier object put
  | createMultipart document => exact h.createMultipart htier document
  | uploadPart u part => exact h.uploadPart u part
  | commit object u commit => exact h.commit object u commit
  | abort u => exact h.abort u
  | parPutObject object put => exact h.putObject htier object put
  | parCreateMultipart object put => exact h.parCreateMultipart object put hkept
  | parUploadPart u part =>
    exact h.then (readOnly_mapError readOnly_getUpload) fun _ _ ↦ h.uploadPart u part
  | parCommit u commit => exact h.parCommit u commit
  | parAbort u => exact h.then (readOnly_mapError readOnly_getUpload) fun _ _ ↦ h.abort u

/-- **A run.** -/
theorem Tiered.run (h : Tiered b tier S) (htier : validBucketStorageTier tier = true)
    {requests : List (Time × TierRequest)} (hkept : ∀ request ∈ requests, request.2.Kept tier) :
    Tiered b tier (Tiers.run E C b S requests) := by
  induction requests generalizing S with
  | nil => exact h
  | cons request requests ih =>
    exact ih (h.step htier (hkept request (List.mem_cons_self ..)))
      fun r hr ↦ hkept r (List.mem_cons_of_mem _ hr)

theorem tiered_of_create {compartmentId userMetadata : Option String} {V₀ : Vault}
    (h : createBucket now b tier compartmentId userMetadata V₀ = (.ok (), V)) :
    Tiered b tier { vault := V } := by
  obtain ⟨_, V₁, hcreate, hupdate⟩ := Atomic.bind_ok.1 h
  obtain ⟨_, _, hview, hcreate⟩ := Atomic.bind_ok.1 hcreate
  obtain ⟨-, hupdated⟩ := Atomic.refuseIf_bind_ok.1 hcreate
  obtain ⟨-, rfl⟩ := Prod.mk.inj hview
  obtain ⟨-, rfl⟩ := Prod.mk.inj hupdated
  have hB : (V₀.buckets.set b (some { createdAt := now, modifiedAt := now }))[b]? =
      some { createdAt := now, modifiedAt := now } := by
    rw [Table.getElem?_set, if_pos rfl]
  obtain ⟨B, hfound, hset⟩ := Atomic.find_bind_ok.1 hupdate
  obtain rfl := Option.some.inj (hB.symm.trans hfound)
  obtain ⟨-, rfl⟩ := Prod.mk.inj hset
  refine ⟨⟨_, (Table.getElem?_set ..).trans (if_pos rfl), ?_, fun u upload hupload ↦ ?_,
    fun _ key storageClass hclass ↦ ?_⟩, fun p hp ↦ by cases hp⟩
  · rw [Table.getElem?_set, if_neg (by decide), Table.getElem?_set, if_neg (by decide),
      Table.getElem?_set, if_pos rfl]
  · cases hupload
  · cases hclass

end Steps

/-- **Tiers are kept.** In every run on a bucket that has been created with a tier, in which PARs
create uploads only in Standard buckets and ask for no other tier, every object that is published
has the storage class that is called for: `Archive` in an Archive bucket, and in a Standard bucket
the tier that was asked for, or else `Standard`. An Archive bucket has only Archive objects. -/
theorem published_in_tier (E : Env) (C : Codec) (now : Time) (b tier : String)
    (htier : validBucketStorageTier tier = true) (compartmentId userMetadata : Option String)
    (V₀ V : Vault) (hcreate : createBucket now b tier compartmentId userMetadata V₀ = (.ok (), V))
    (requests : List (Time × TierRequest)) (hkept : ∀ request ∈ requests, request.2.Kept tier) :
    (∀ p ∈ (run E C b { vault := V } requests).published,
      ∃ storageClass, p.storageClass = some storageClass ∧ InTier tier storageClass p.requested) ∧
    (tier = "Archive" → ∀ key o,
      ((run E C b { vault := V } requests).vault.record b key).metadata = some o →
        o.storageClass = "Archive") := by
  have h : Tiered b tier (run E C b { vault := V } requests) :=
    (tiered_of_create hcreate).run htier hkept
  refine ⟨h.published, fun harchive key o ho ↦ ?_⟩
  obtain ⟨B, hB, -, -, hclasses⟩ := h.bucket
  refine hclasses harchive key o.storageClass ?_
  rw [Vault.record_eq hB] at ho
  rw [classOf, ho]
  rfl

/-- A store with an empty bucket of a tier. -/
def created (tier : String) : Vault := (createBucket 0 "b" tier none none {}).2

/-- An upload of one part, created with the request or with the PAR. -/
def uploadOf (create : TierRequest) : List (Time × TierRequest) :=
  [(1, create), (2, .uploadPart "u" { uploadPartNum := some "1", body := [7] }),
    (3, .parCommit "u" { validate := .ok fun _ ↦ .ok () })]

/-- An upload that is created with a document is published in the tier of its bucket. -/
theorem archived : ∃ p ∈ (run Env.simple Codec.simple "b" { vault := created "Archive" }
      (uploadOf (.createMultipart (.ok { object := ['k'] })))).published,
    ∃ storageClass, p.storageClass = some storageClass ∧
      InTier "Archive" storageClass p.requested := by
  have hpublished : (run Env.simple Codec.simple "b" { vault := created "Archive" }
      (uploadOf (.createMultipart (.ok { object := ['k'] })))).published =
      [⟨['k'], some "Archive", none⟩] := by decide
  have hmem : (⟨['k'], some "Archive", none⟩ : Publication) ∈
      (run Env.simple Codec.simple "b" { vault := created "Archive" }
        (uploadOf (.createMultipart (.ok { object := ['k'] })))).published := by
    rw [hpublished]
    exact List.mem_singleton_self _
  refine ⟨_, hmem, (published_in_tier Env.simple Codec.simple 0 "b" "Archive" (by decide) none none
    {} (created "Archive") rfl _ fun request hrequest ↦ ?_).1 _ hmem⟩
  rcases List.mem_cons.1 hrequest with rfl | hrequest
  · trivial
  rcases List.mem_cons.1 hrequest with rfl | hrequest
  · trivial
  obtain rfl := List.mem_singleton.1 hrequest
  trivial

/-- **An upload that a PAR creates is published as Standard**, in an Archive bucket, and in a
Standard bucket also if another tier is asked for. -/
theorem par_upload_standard :
    (run Env.simple Codec.simple "b" { vault := created "Archive" }
      (uploadOf (.parCreateMultipart ['k'] {}))).published = [⟨['k'], some "Standard", none⟩] ∧
    (run Env.simple Codec.simple "b" { vault := created "Standard" }
      (uploadOf (.parCreateMultipart ['k'] { storageTier := some "InfrequentAccess" }))).published =
      [⟨['k'], some "Standard", some "InfrequentAccess"⟩] ∧
    ¬ InTier "Archive" "Standard" none ∧
    ¬ InTier "Standard" "Standard" (some "InfrequentAccess") := by
  refine ⟨by decide, by decide, ?_, ?_⟩
  · rw [InTier, if_pos rfl]
    decide
  · rw [InTier, if_neg (by decide)]
    decide

end Oci.Tiers

end Sqrzl
