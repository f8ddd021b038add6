import SqrzlEmulator.Azure.Model

/-!
# The Azure front door: requests about blobs

The handlers of `providers/azure.rs` for leases, snapshots, immutability policies, legal holds,
metadata, append blobs, page blobs, and for writing, reading and deleting whole blobs.

Each handler that changes anything is in two parts. The first one, `admit…`, **only looks**: it
holds all the checks, in the order of the source, and returns what they have found. The second one
is the change. Identities that the source draws between two checks are drawn after the last one
here.
-/

namespace Sqrzl.Azure

open Prog

/-! ### Headers -/

/-- `metadata_from_headers` -/
def metadataFromHeaders (req : Request) : Table String String :=
  req.headers.toList.foldl (fun metadata (name, value) ↦
    if startsWith "x-ms-meta-" name then
      metadata.set (String.ofList (name.toList.drop "x-ms-meta-".length)) (some value)
    else
      metadata) ∅

/-- `content_type` -/
def contentType (req : Request) : String :=
  ((req.header "x-ms-blob-content-type") <|> (req.header "content-type")).getD
    "application/octet-stream"

/-- `AZURE_CONTENT_PROPERTIES` -/
def contentProperties : List (String × String) :=
  [("cache-control", "azure_cache_control"), ("content-encoding", "azure_content_encoding"),
    ("content-language", "azure_content_language"),
    ("content-disposition", "azure_content_disposition")]

/-- `set_content_properties` -/
def setContentProperties (req : Request) (blob : Object) : Object :=
  contentProperties.foldl (fun blob (header, name) ↦
    match (req.header ("x-ms-blob-" ++ header)) <|> (req.header header) with
    | some value => edit name (some value) blob
    | none => blob) blob

/-- `requested_range` -/
def requestedRange (req : Request) : Option String := (req.header "x-ms-range") <|> (req.header "range")

/-- `validate_transactional_checksum` -/
def validateTransactionalChecksum (C : Codec) (req : Request) : Except Refusal Unit :=
  match req.header "content-md5", req.header "x-ms-content-crc64" with
  | some _, some _ => .error
      (invalidHeader "Content-MD5 and x-ms-content-crc64 cannot both be specified.")
  | some md5, none =>
    if C.md5Header req.body = md5 then .ok () else .error mismatch
  | none, some crc64 =>
    if C.crc64Header req.body = crc64 then .ok () else .error mismatch
  | none, none => .ok ()
where
  mismatch : Refusal := ⟨400, "Md5Mismatch",
    "The transactional content checksum does not match the request body."⟩

section Handlers

variable (E : Env) (C : Codec) (now : Time)

/-! ### Metadata of blobs -/

/-- The metadata of a blob, which must be there and satisfy the conditions of the request. -/
def conditionalBlob (c : String) (k : Text) (req : Request) : Handler Object := do
  let blob ← .find blobNotFound fun A : Adapter ↦ (A.vault.record c k).metadata
  .refuseIf (!conditionsMatchBlob req blob) conditionFailed
  return blob

/-- `replace_blob_metadata_if_unchanged`, where it must not have changed. -/
def replaceBlobMetadata (c : String) (k : Text) (observed updated : Object) : Handler Unit := do
  let replaced ← onVault (Vault.replaceObjectMetadataIfUnchanged c k observed updated)
  .refuseIf (!replaced) conditionFailed

/-! ### Leases -/

/-- The identity of a new lease. -/
def proposedLeaseId (req : Request) : Handler String :=
  match req.header "x-ms-proposed-lease-id" with
  | some id => pure id
  | none => newIdentity E

/-- The checks of `handle_lease` and `acquire_lease` for an acquisition. -/
def admitAcquire (c : String) (k : Text) (req : Request) : Handler Object := do
  let blob ← conditionalBlob c k req
  .refuseIf (hasActiveLease blob) ⟨409, "LeaseAlreadyPresent", "The blob already has an active lease."⟩
  return blob

/-- `acquire_lease` -/
def acquireLease (c : String) (k : Text) (req : Request) : Handler Response := do
  let blob ← admitAcquire c k req
  let id ← proposedLeaseId E req
  let duration := if (req.header "x-ms-lease-duration").getD "-1" = "-1" then "infinite" else "fixed"
  replaceBlobMetadata c k blob (setLeaseState (some id) "leased" "locked" (some duration) blob)
  return .leaseId id

/-- The checks of `handle_lease` for the holder of a lease. -/
def admitLeaseHolder (c : String) (k : Text) (req : Request) : Handler Object := do
  let blob ← conditionalBlob c k req
  .ofExcept (ensureLeaseAllows req blob)
  return blob

/-- The branch `renew` of `handle_lease`. -/
def renewLease (c : String) (k : Text) (req : Request) : Handler Response := do
  let blob ← admitLeaseHolder c k req
  replaceBlobMetadata c k blob blob
  return .leaseId ((leaseId blob).getD "")

/-- The branch `release` of `handle_lease`. -/
def releaseLease (c : String) (k : Text) (req : Request) : Handler Response := do
  let blob ← admitLeaseHolder c k req
  replaceBlobMetadata c k blob (setLeaseState none "available" "unlocked" none blob)
  return .empty

/-- The checks of the branch `break` of `handle_lease`. -/
def admitBreak (c : String) (k : Text) (req : Request) : Handler Object := do
  let blob ← conditionalBlob c k req
  .refuseIf (!hasActiveLease blob)
    ⟨409, "LeaseNotPresentWithBlobOperation", "There is currently no lease on the blob."⟩
  return blob

/-- The branch `break` of `handle_lease`. -/
def breakLease (c : String) (k : Text) (req : Request) : Handler Response := do
  let blob ← admitBreak c k req
  replaceBlobMetadata c k blob (setLeaseState none "broken" "unlocked" none blob)
  return .empty

/-- `handle_lease` -/
def handleLease (c : String) (k : Text) (req : Request) : Handler Response :=
  let action := (req.header "x-ms-lease-action").getD ""
  if action = "acquire" then
    acquireLease E c k req
  else if action = "renew" then
    renewLease c k req
  else if action = "release" then
    releaseLease c k req
  else if action = "break" then
    breakLease c k req
  else do
    let _ ← conditionalBlob c k req
    .fail (invalidHeader "Unsupported Azure lease action.")

/-! ### Immutability policies and legal holds -/

/-- The date and the mode that a policy is to have, with the text of the date. -/
def requestedPolicy (req : Request) : Except Refusal (String × Time × String) :=
  match req.header "x-ms-immutability-policy-until-date" with
  | none => .error
      (missingHeader "The x-ms-immutability-policy-until-date header is required.")
  | some text =>
    match (C.parseRfc2822 text).filter (· > now) with
    | none => .error (invalidHeader
        "The x-ms-immutability-policy-until-date header must be a future RFC 1123 date.")
    | some until_ =>
      let mode := (req.header "x-ms-immutability-policy-mode").getD "Unlocked"
      if mode = "Unlocked" ∨ mode = "Locked" then
        .ok (text, until_, mode)
      else
        .error (invalidHeader "The x-ms-immutability-policy-mode header must be Unlocked or Locked.")

/-- The checks of `put_immutability_policy`. -/
def admitPolicy (c : String) (k : Text) (req : Request) : Handler (Object × String × String) := do
  let (text, until_, mode) ← .ofExcept (requestedPolicy C now req)
  let blob ← conditionalBlob c k req
  .refuseIf (blob.providerMetadata["azure_immutability_mode"]? = some "Locked" ∧
      (mode ≠ "Locked" ∨ (retentionUntil C blob).all (until_ < ·)))
    (immutableBlob "A locked immutability policy cannot be unlocked or shortened.")
  return (blob, text, mode)

/-- `put_immutability_policy` -/
def putImmutabilityPolicy (c : String) (k : Text) (req : Request) : Handler Response := do
  let (blob, text, mode) ← admitPolicy C now c k req
  replaceBlobMetadata c k blob
    (edit "azure_immutability_mode" (some mode) (edit "azure_immutability_until" (some text) blob))
  return .empty

/-- The checks of `delete_immutability_policy`. -/
def admitPolicyDeletion (c : String) (k : Text) (req : Request) : Handler Object := do
  let blob ← conditionalBlob c k req
  .refuseIf (blob.providerMetadata["azure_immutability_mode"]? = some "Locked")
    (immutableBlob "A locked immutability policy cannot be deleted.")
  return blob

/-- `delete_immutability_policy` -/
def deleteImmutabilityPolicy (c : String) (k : Text) (req : Request) : Handler Response := do
  let blob ← admitPolicyDeletion c k req
  replaceBlobMetadata c k blob
    (edit "azure_immutability_mode" none (edit "azure_immutability_until" none blob))
  return .empty

/-- The checks of `put_legal_hold`. -/
def admitLegalHold (c : String) (k : Text) (req : Request) : Handler (Object × String) := do
  let hold ← .ofExcept (match req.header "x-ms-legal-hold" with
    | none => .error (missingHeader "The x-ms-legal-hold header is required.")
    | some hold =>
      if hold = "true" ∨ hold = "false" then .ok hold
      else .error (invalidHeader "The x-ms-legal-hold header must be true or false."))
  let blob ← conditionalBlob c k req
  return (blob, hold)

/-- `put_legal_hold` -/
def putLegalHold (c : String) (k : Text) (req : Request) : Handler Response := do
  let (blob, hold) ← admitLegalHold c k req
  replaceBlobMetadata c k blob (edit "azure_legal_hold" (some hold) blob)
  return .empty

/-! ### Mutations that read the blob -/

/-- `AZURE_MAX_MATERIALIZED_MUTATION_BYTES` -/
def maxMaterialized : ℕ := 64 * 1024 * 1024

/-- `bounded_mutation_blob`, of what is stored. -/
def boundedMutation (extra : ℕ) (st : Stored) : Except Refusal Object :=
  if st.2.size + extra ≥ 2 ^ 64 ∨ st.2.size + extra > maxMaterialized then
    .error materializedExtentUnsupported
  else if st.2.size = 0 then
    .ok { st.2 with data := [] }
  else
    match readRange st 0 (some (maxMaterialized - 1)) with
    | .ok data => .ok { st.2 with data := data }
    | .error e => .error (serverError e)

/-- `bounded_mutation_blob` -/
def boundedMutationBlob (c : String) (k : Text) (extra : ℕ) : Handler Object := do
  let st ← .find blobNotFound fun A : Adapter ↦ (A.vault.record c k).current
  .ofExcept (boundedMutation extra st)

/-- The blob that a mutation starts from, checked. -/
def mutableBlob (c : String) (k : Text) (extra : ℕ) (req : Request) : Handler Object := do
  let blob ← boundedMutationBlob c k extra
  .ofExcept (ensureMutationAllowed C now req blob)
  .refuseIf (!conditionsMatchBlob req blob) conditionFailed
  return blob

/-- `put_object_if`, under the ETag that has been seen. -/
def putIfEtag (c : String) (k : Text) (etag : String) (blob : Object) : Handler Unit := do
  let written ← onVault (Vault.putObjectIf E c k blob blob.data (.etag etag))
  .refuseIf (!written) conditionFailed

/-- A revision of a blob: its ETag and its time are new. -/
def revised (etag : String) (blob : Object) : Object := { blob with etag := etag, lastModified := now }

/-- `update_metadata` -/
def updateMetadata (c : String) (k : Text) (req : Request) : Handler Response := do
  let blob ← mutableBlob C now c k 0 req
  let etag ← newIdentity E
  putIfEtag E c k blob.etag (revised now etag { blob with metadata := metadataFromHeaders req })
  return .empty

/-- The checks of `append_block`. -/
def admitAppend (c : String) (k : Text) (req : Request) : Handler Object := do
  .refuseIf (req.body.length > 100 * 1024 * 1024)
    ⟨413, "RequestBodyTooLarge", "Append blocks cannot exceed 100 MiB."⟩
  .ofExcept (validateTransactionalChecksum C req)
  let blob ← mutableBlob C now c k req.body.length req
  .refuseIf (blobType blob ≠ "AppendBlob")
    ⟨409, "InvalidBlobType", "The blob type is invalid for this operation."⟩
  return blob

/-- `append_block` -/
def appendBlock (c : String) (k : Text) (req : Request) : Handler Response := do
  let blob ← admitAppend C now c k req
  let etag ← newIdentity E
  let data := blob.data ++ req.body
  putIfEtag E c k blob.etag (revised now etag { blob with data := data, size := data.length })
  return .empty

/-- `parse_write_range_header` -/
def parseWriteRange (header : String) : Option (ℕ × ℕ) := do
  guard (startsWith "bytes=" header)
  let (start, last) ← splitOnce '-' (header.toList.drop "bytes=".length)
  let start ← parseU64 (String.ofList start)
  let last ← parseU64 (String.ofList last)
  guard (start ≤ last)
  return (start, last)

/-- The pages that a request writes, and whether it clears them. -/
def requestedPages (req : Request) : Except Refusal (Bool × ℕ × ℕ) := do
  let clear ← match req.header "x-ms-page-write" with
    | none => .error (missingHeader "The x-ms-page-write header is required.")
    | some value =>
      if value = "update" then .ok false
      else if value = "clear" then .ok true
      else .error (invalidHeader "The x-ms-page-write header must be update or clear.")
  match (requestedRange req).bind parseWriteRange with
  | none => .error (invalidHeader "Page writes require a valid x-ms-range header.")
  | some (start, last) =>
    if start % 512 ≠ 0 ∨ last + 1 ≥ 2 ^ 64 ∨ (last + 1) % 512 ≠ 0 then
      .error ⟨400, "InvalidPageRange", "Page blob ranges must align to 512-byte boundaries."⟩
    else
      .ok (clear, start, last)

/-- `validate_page_write` -/
def validatePageWrite (req : Request) (blob : Object) (clear : Bool) (start last : ℕ) :
    Except Refusal Unit :=
  if (!clear ∧ req.body.length ≠ last - start + 1) ∨ (clear ∧ !req.body.isEmpty) then
    .error ⟨400, "InvalidPageRange", "Page payload length must match the requested range."⟩
  else if last ≥ blob.data.length then
    .error ⟨400, "InvalidPageRange", "Page write exceeds the blob length."⟩
  else
    .ok ()

/-- The checks of `put_page`. -/
def admitPage (c : String) (k : Text) (req : Request) : Handler (Object × Bool × ℕ × ℕ) := do
  let (clear, start, last) ← .ofExcept (requestedPages req)
  .refuseIf (req.body.length > 4 * 1024 * 1024)
    ⟨413, "RequestBodyTooLarge", "Page updates cannot exceed 4 MiB."⟩
  .ofExcept (validateTransactionalChecksum C req)
  let blob ← mutableBlob C now c k 0 req
  .refuseIf (blobType blob ≠ "PageBlob")
    ⟨409, "InvalidBlobType", "The blob type is invalid for this operation."⟩
  .ofExcept (validatePageWrite req blob clear start last)
  return (blob, clear, start, last)

/-- Replace the bytes of a range. -/
def overwritePages (data pages : Bytes) (start : ℕ) : Bytes :=
  data.take start ++ pages ++ data.drop (start + pages.length)

/-- `put_page` -/
def putPage (c : String) (k : Text) (req : Request) : Handler Response := do
  let (blob, clear, start, last) ← admitPage C now c k req
  let etag ← newIdentity E
  let pages := if clear then List.replicate (last - start + 1) 0 else req.body
  putIfEtag E c k blob.etag
    (revised now etag { blob with data := overwritePages blob.data pages start })
  return .empty

/-! ### Snapshots -/

/-- The checks of `create_snapshot`. -/
def admitSnapshot (c : String) (k : Text) (req : Request) : Handler Object := do
  let blob ← boundedMutationBlob c k 0
  .ofExcept (ensureLeaseAllows req blob)
  .refuseIf (!conditionsMatchBlob req blob) conditionFailed
  return blob

/-- The snapshot of a blob. It has no lease; with metadata of its own it is revised. -/
def snapshotOf (k : Text) (req : Request) (etag : String) (blob : Object) : Object :=
  let time := C.timestamp now
  let blob := leaseKeys.foldl (fun blob name ↦ edit name none blob)
    { blob with key := snapshotStorageKey C k time }
  let blob := edit "azure_snapshot_source" (some (String.ofList k))
    (edit "azure_snapshot_time" (some time) blob)
  if (metadataFromHeaders req).isEmpty then blob
  else revised now etag { blob with metadata := metadataFromHeaders req }

/-- `create_snapshot`. An identity is drawn for the ETag also where the snapshot keeps the ETag of
the blob. -/
def createSnapshot (c : String) (k : Text) (req : Request) : Handler Response := do
  let blob ← admitSnapshot c k req
  let etag ← newIdentity E
  onVault (Vault.putObject E c (snapshotStorageKey C k (C.timestamp now))
    (snapshotOf C now k req etag blob) blob.data)
  return .snapshot (C.timestamp now)

/-! ### Writing blobs -/

/-- `AZURE_NATIVE_MAX_PAGE_BLOB_BYTES` -/
def maxPageBlob : ℕ := 8 * 1024 * 1024 * 1024 * 1024

/-- `validate_blob_create_request`: the type of the blob, and how long a page blob is to be. -/
def validateBlobCreate (req : Request) : Except Refusal (String × ℕ) :=
  match req.header "x-ms-blob-type" with
  | none => .error (missingHeader "The x-ms-blob-type header is required.")
  | some type =>
    if type ∉ ["BlockBlob", "PageBlob", "AppendBlob"] then
      .error (invalidHeader "The x-ms-blob-type header value is invalid.")
    else if type ≠ "BlockBlob" ∧ !req.body.isEmpty then
      .error (invalidHeader "Page and append blob creation requests must have an empty body.")
    else if type ≠ "PageBlob" then
      if (req.header "x-ms-blob-content-length").isSome then
        .error (invalidHeader "The x-ms-blob-content-length header is valid only for page blobs.")
      else
        .ok (type, 0)
    else
      match req.header "x-ms-blob-content-length" with
      | none => .error
          (missingHeader "The x-ms-blob-content-length header is required for page blobs.")
      | some raw =>
        match parseU64 raw with
        | none => .error (invalidHeader "The x-ms-blob-content-length header value is invalid.")
        | some length =>
          if length > maxPageBlob then
            .error (invalidHeader "Page blob extent exceeds the native 8 TiB maximum.")
          else if length > maxMaterialized then
            .error materializedExtentUnsupported
          else if length % 512 ≠ 0 then
            .error (invalidHeader "Page blob length must be a multiple of 512 bytes.")
          else
            .ok (type, length)

/-- What `put_blob` has found. -/
structure PutBlob where
  existing : Option Object
  type : String
  pageLength : ℕ
  condition : Option ObjectCondition

/-- Whether the blob that is there may be overwritten by a new version. -/
def admitOverwrite (c : String) (k : Text) (req : Request) : Handler (Option Object) := do
  match ← .view fun A : Adapter ↦ (A.vault.record c k).metadata with
  | some existing =>
    let B ← .find containerNotFound fun A : Adapter ↦ A.vault.buckets[c]?
    .ofExcept (ensureVersionCreatingOverwriteAllowed C now req existing (azureVersioningEnabled B))
    return some existing
  | none =>
    .refuseIf (req.header "if-match").isSome conditionFailed
    return none

/-- The checks of `put_blob`. -/
def admitPutBlob (c : String) (k : Text) (req : Request) : Handler PutBlob := do
  let existing ← admitOverwrite C now c k req
  let (type, pageLength) ← .ofExcept (validateBlobCreate req)
  .refuseIf (req.body.length > 5000 * 1024 * 1024)
    ⟨413, "RequestBodyTooLarge", "The request exceeds the 5,000 MiB Put Blob service limit."⟩
  .ofExcept (validateTransactionalChecksum C req)
  let condition ← .ofExcept (writeCondition req)
  return ⟨existing, type, pageLength, if createOnlySas req then some .missing else condition⟩

/-- The lease of the blob that is overwritten goes to the new one. -/
def inheritLease (existing : Option Object) (blob : Object) : Object :=
  match existing with
  | some existing => preserveActiveLease existing blob
  | none => blob

/-- `blob_for_type`, with the lease of the blob that is overwritten. -/
def blobForType (k : Text) (req : Request) (etag : String) (put : PutBlob) : Object :=
  let data := if put.type = "PageBlob" then List.replicate put.pageLength 0 else req.body
  let blob := Object.newWithMetadataAndEtag now k data (contentType req) (metadataFromHeaders req) etag
  inheritLease put.existing
    (setContentProperties req (edit "azure_blob_type" (some put.type) blob))

/-- A write under a condition that may be absent. -/
def putObjectUnder (c : String) (k : Text) (blob : Object) (condition : Option ObjectCondition) :
    VaultOp Bool :=
  match condition with
  | some condition => Vault.putObjectIf E c k blob blob.data condition
  | none => do
    Vault.putObject E c k blob blob.data
    return true

/-- `clear_block_upload_state` -/
def clearBlockUploadState (session : String) : Handler Unit :=
  .update fun A ↦ { A with
    sessions := A.sessions.set session none
    committed := A.committed.set session none
    items := A.items.set session none
    sessionCache := A.sessionCache.set session none
    committedCache := A.committedCache.set session none }

/-- `put_blob` -/
def putBlob (account c : String) (k : Text) (req : Request) : Handler Response := do
  let put ← admitPutBlob C now c k req
  let etag ← newIdentity E
  let written ← onVault (putObjectUnder E c k (blobForType now k req etag put) put.condition)
  .refuseIf (!written) (unmet req)
  clearBlockUploadState (blobStateKey account c k)
  return .empty

/-! ### Deleting blobs -/

/-- The version that a request deletes. -/
def admitVersionDeletion (c : String) (k : Text) (id : String) (req : Request) : Handler Object := do
  let found ← .view fun A : Adapter ↦ A.vault.stored c k (some id)
  let version ← .ofExcept (found.mapError fun _ ↦
    ⟨404, "BlobNotFound", "The specified blob version does not exist."⟩)
  .ofExcept (ensureMutationAllowed C now req version.2)
  .refuseIf (!conditionsMatchBlob req version.2) conditionFailed
  return version.2

/-- `delete_blob`, of a version. -/
def deleteBlobVersion (c : String) (k : Text) (id : String) (req : Request) : Handler Response := do
  let _ ← admitVersionDeletion C now c k id req
  onVault (Vault.deleteObjectVersion c k id)
  return .empty

/-- The snapshot that a request deletes. -/
def admitSnapshotDeletion (c : String) (key : Text) (req : Request) : Handler Object := do
  let snapshot ← .find ⟨404, "BlobNotFound", "The specified blob snapshot does not exist."⟩
    fun A : Adapter ↦ (A.vault.record c key).metadata
  .ofExcept (ensureMutationAllowed C now req snapshot)
  .refuseIf (!conditionsMatchBlob req snapshot) conditionFailed
  return snapshot

/-- `delete_object_if`, where the condition must hold. -/
def deleteUnder (c : String) (k : Text) (condition : ObjectCondition) : Handler Unit := do
  let deleted ← onVault (Vault.deleteObjectIf E now c k condition)
  .refuseIf (!deleted) conditionFailed

/-- `delete_blob`, of a snapshot. -/
def deleteBlobSnapshot (c : String) (k : Text) (snapshot : String) (req : Request) :
    Handler Response := do
  let key := snapshotStorageKey C k snapshot
  let selected ← admitSnapshotDeletion C now c key req
  deleteUnder E now c key (.etag selected.etag)
  return .empty

/-- `snapshot_keys` -/
def snapshotKeys (c : String) (k : Text) (A : Adapter) : List Text :=
  ((A.vault.buckets[c]?.map (·.current)).getD []).filterMap fun o ↦
    if (snapshotKeysOf C k).isPrefixOf o.key then some o.key else none

/-- `delete_snapshots` -/
def deleteSnapshots (c : String) : List Text → Handler Unit
  | [] => pure ()
  | key :: keys => do
    onVault (Vault.deleteObject E now c key)
    deleteSnapshots c keys

/-- What `delete_blob` has found. -/
structure DeleteBlob where
  snapshots : List Text
  /-- Only the snapshots are to be deleted. -/
  only : Bool
  condition : Option ObjectCondition

/-- The checks of `delete_blob` for a whole blob. -/
def admitDeletion (c : String) (k : Text) (req : Request) : Handler DeleteBlob := do
  let blob ← .find blobNotFound fun A : Adapter ↦ (A.vault.record c k).metadata
  .ofExcept (ensureMutationAllowed C now req blob)
  let snapshots ← .view (snapshotKeys C c k)
  let mode := req.header "x-ms-delete-snapshots"
  .refuseIf (!snapshots.isEmpty ∧ mode.isNone) ⟨409, "SnapshotsPresent",
    "This operation is not permitted because the blob has snapshots."⟩
  .refuseIf (mode.any fun mode ↦ mode ≠ "include" && mode ≠ "only")
    (invalidHeader "The x-ms-delete-snapshots header must be include or only.")
  .refuseIf (mode = some "only" ∧ !conditionsMatchBlob req blob) conditionFailed
  let condition ← .ofExcept (if mode = some "only" then .ok none else writeCondition req)
  return ⟨snapshots, mode = some "only", condition⟩

/-- Delete the blob itself. -/
def deleteCurrentBlob (c : String) (k : Text) (condition : Option ObjectCondition) : Handler Unit :=
  match condition with
  | some condition => deleteUnder E now c k condition
  | none => onVault (Vault.deleteObject E now c k)

/-- `delete_blob`, of a whole blob. -/
def deleteWholeBlob (account c : String) (k : Text) (req : Request) : Handler Response := do
  let deletion ← admitDeletion C now c k req
  if deletion.only then
    deleteSnapshots E now c deletion.snapshots
    return .empty
  else
    deleteCurrentBlob E now c k deletion.condition
    deleteSnapshots E now c deletion.snapshots
    clearBlockUploadState (blobStateKey account c k)
    return .empty

/-- `delete_blob` -/
def deleteBlob (account c : String) (k : Text) (req : Request) : Handler Response :=
  match req.queryParam "versionid", req.queryParam "snapshot" with
  | some id, _ => deleteBlobVersion C now c k id req
  | none, some snapshot => deleteBlobSnapshot E C now c k snapshot req
  | none, none => deleteWholeBlob E C now account c k req

end Handlers

end Sqrzl.Azure
