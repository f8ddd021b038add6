import SqrzlEmulator.Azure.Blocks

/-!
# The Azure front door: containers, and whole requests

Creating and deleting containers, and `handle_request`, which every request goes through.

The deletion of a container is **accepted first and carried out later**: the request leaves a record
with a time, and the next request for the container after that time purges it. A container that
holds an immutable blob is not deleted, and is looked at again before it is purged.

## Runs

`Step` is one thing that happens to an adapter: a request at some time, or a restart. A run is a
list of steps, and `Adapter.run` is the state after it. What answers the requests that change
nothing and are not modelled (listings and properties) is a parameter, a function of the state.
-/

namespace Sqrzl.Azure

open Prog

/-! ### Modes of containers -/

/-- A text that is a positive number. -/
def positiveNumber (value : Option String) : Bool := (value.bind parseU64).any (· > 0)

/-- `azure_history_mode` -/
def azureHistoryMode (B : Bucket) : Bool :=
  B.metadata["azure_versioning_enabled"]? = some "true" ||
    positiveNumber B.metadata["azure_soft_delete_days"]?

/-- `foreign_history_mode` -/
def foreignHistoryMode (B : Bucket) : Bool :=
  (B.metadata["s3_versioning_status"]?.any fun status ↦ status = "Enabled" || status = "Suspended") ||
    B.metadata["s3_object_lock_enabled"]? = some "true" ||
    positiveNumber B.metadata["gcs_soft_delete_seconds"]? ||
    positiveNumber B.metadata["gcs_retention_seconds"]?

/-- `azure_history_conflict` -/
def azureHistoryConflict (c : String) (A : Adapter) : Bool :=
  A.vault.buckets[c]?.any fun B ↦
    foreignHistoryMode B || (B.versioningEnabled && !azureHistoryMode B)

/-- `history_mode_conflict` -/
def historyModeConflict : Refusal := ⟨409, "FeatureVersionMismatch",
  "The container data-protection mode is not compatible with this Azure Blob operation."⟩

/-- `requested_local_retention_modes` -/
def requestedRetentionModes (req : Request) : Except Refusal (Bool × Option ℕ) := do
  let versioning ← match req.header "x-sqrzl-azure-versioning-enabled" with
    | none => .ok false
    | some value =>
      if value = "false" then .ok false
      else if value = "true" then .ok true
      else .error (invalidHeader "The local Azure versioning selector must be true or false.")
  match req.header "x-sqrzl-azure-soft-delete-days" with
  | none => .ok (versioning, none)
  | some value =>
    match (parseU64 value).filter fun days ↦ 1 ≤ days && days ≤ 365 with
    | some days => .ok (versioning, some days)
    | none =>
      .error (invalidHeader "The local Azure soft-delete period must be between 1 and 365 days.")

/-- Two hyphens in a row. -/
def doubleHyphen (name : Text) : Bool :=
  (name.zip name.tail).any fun pair ↦ pair.1 = '-' && pair.2 = '-'

/-- `valid_container_name` -/
def validContainerName (name : Text) : Bool :=
  name = "$root".toList ||
    (3 ≤ (String.ofList name).utf8ByteSize && (String.ofList name).utf8ByteSize ≤ 63 &&
      name.head?.any Char.isAlphanum && name.getLast?.any Char.isAlphanum &&
      name.all (fun c ↦ c.isLower || c.isDigit || c = '-') && !doubleHyphen name)

section Handlers

variable (E : Env) (C : Codec) (now : Time)

/-! ### Creating and deleting containers -/

/-- The metadata of a new container. -/
def containerMetadata (req : Request) (versioning : Bool) (days : Option ℕ) : Table String String :=
  let metadata := metadataFromHeaders req
  let metadata :=
    if versioning then metadata.set "azure_versioning_enabled" (some "true") else metadata
  match days with
  | some days => metadata.set "azure_soft_delete_days" (some (toString days))
  | none => metadata

/-- What `create_container` does to the store. Nothing can fail after the container has been
created, so that there is nothing to roll back. -/
def createContainerIn (c : String) (req : Request) (versioning : Bool) (days : Option ℕ) :
    VaultOp Unit := do
  Vault.createBucket now c
  if versioning || days.isSome then
    Vault.setVersioning now c .enabled
  Vault.updateBucketMetadata now c (containerMetadata req versioning days)

/-- The checks of `create_container`. -/
def admitContainer (c : String) (req : Request) : Handler (Bool × Option ℕ) := do
  .refuseIf (!validContainerName c.toList)
    ⟨400, "InvalidResourceName", "The specified container name is invalid."⟩
  let modes ← .ofExcept (requestedRetentionModes req)
  let taken ← .view fun A : Adapter ↦ A.vault.buckets.contains c
  .refuseIf taken ⟨409, "ContainerAlreadyExists", "The specified container already exists."⟩
  return modes

/-- `create_container` -/
def createContainer (c : String) (req : Request) : Handler Response := do
  let (versioning, days) ← admitContainer c req
  onVault (createContainerIn now c req versioning days)
  return .empty

/-- `container_has_immutable_blob` -/
def containerHasImmutableBlob (c : String) (A : Adapter) : Bool :=
  A.vault.buckets[c]?.any fun B ↦
    B.current.any (isImmutable C now) || B.versions.any (isImmutable C now)

/-- `str::parse::<i64>`, of a number that is not negative. -/
def parseNonnegative (text : String) : Option ℕ :=
  match text.toList with
  | '-' :: zeros => if !zeros.isEmpty && zeros.all (· = '0') then some 0 else none
  | _ => (parseU64 text).filter (· < 2 ^ 63)

/-- The delay before a container is purged, in milliseconds. -/
def deletionDelay (req : Request) : Except Refusal ℕ :=
  match req.header "x-sqrzl-azure-delete-delay-ms" with
  | none => .ok 30000
  | some value =>
    match parseNonnegative value with
    | some delay => .ok delay
    | none =>
      .error (invalidHeader
        "The local Azure container deletion delay must be a nonnegative integer.")

/-- The checks of the deletion of a container. -/
def admitContainerDeletion (c : String) (req : Request) : Handler ℕ := do
  let B ← .find containerNotFound fun A : Adapter ↦ A.vault.buckets[c]?
  .refuseIf (!namespaceConditionsMatch req (C.namespaceEtag c B.modifiedAt)) conditionFailed
  let immutable ← .view (containerHasImmutableBlob C now c)
  .refuseIf immutable (immutableBlob
    "The container contains blob data protected by an active policy or legal hold.")
  .ofExcept (deletionDelay req)

/-- The deletion of a container is accepted. -/
def deleteContainer (c : String) (req : Request) : Handler Response := do
  let delay ← admitContainerDeletion C now c req
  .update fun A ↦ { A with deletions := A.deletions.set c (some (now + delay)) }
  return .empty

/-! ### Purging containers -/

/-- Delete the current objects of a container. -/
def deleteObjects (c : String) : List Text → VaultOp Unit
  | [] => pure ()
  | key :: keys => do
    Vault.deleteObject E now c key
    deleteObjects c keys

/-- Delete versions of a container. -/
def deleteVersions (c : String) : List Object → VaultOp Unit
  | [] => pure ()
  | version :: versions => do
    if let some id := version.versionId then
      Vault.deleteObjectVersion c version.key id
    deleteVersions c versions

/-- `purge_container`. The objects are listed and deleted a page at a time until none is left, which
is to delete them all. -/
def purgeContainer (c : String) : VaultOp Unit := do
  Vault.setVersioning now c .suspended
  deleteObjects E now c (← .view fun V : Vault ↦
    ((V.buckets[c]?.map (·.current)).getD []).map (·.key))
  deleteVersions c (← .view fun V : Vault ↦ (V.buckets[c]?.map (·.versions)).getD [])
  Vault.deleteBucket c

/-- Forget the deletion of a container. -/
def forgetDeletion (c : String) (A : Adapter) : Adapter :=
  { A with deletions := A.deletions.set c none }

/-- Purge a container, if it is there. -/
def purge (c : String) : Handler Unit := fun A ↦
  match purgeContainer E now c A.vault with
  | (.ok (), V) => (.ok (), { A with vault := V })
  | (.error .bucketNotFound, V) => (.ok (), { A with vault := V })
  | (.error e, V) => (.error (serverError e), { A with vault := V })

/-- `finish_expired_container_deletion` -/
def finishExpiredDeletion (c : String) : Handler Bool := do
  match ← .view fun A : Adapter ↦ A.deletions[c]? with
  | none => return false
  | some purgeAfter =>
    if purgeAfter > now then
      return false
    else if ← .view (containerHasImmutableBlob C now c) then
      .update (forgetDeletion c)
      return false
    else
      purge E now c
      .update (forgetDeletion c)
      return true

/-- `resolve_container_deletion` -/
def resolveDeletion (c : String) (req : Request) : Handler Unit := do
  let finished ← finishExpiredDeletion E C now c
  let pending ← .view fun A : Adapter ↦ A.deletions.contains c
  .refuseIf (!finished && pending)
    (if req.method = .put ∧ req.queryParam "restype" = some "container" then
      ⟨409, "ContainerBeingDeleted", "The specified container is being deleted."⟩
    else
      containerNotFound)

/-! ### Whole requests -/

/-- What stands between a request and its handler: `authorize` and `authorize_sas_operation`. -/
structure Gate where
  authorize : Time → Request → Option Refusal
  authorizeSas : Request → Vault → Option Refusal

/-- Every request is let through. -/
def Gate.opened : Gate where
  authorize _ _ := none
  authorizeSas _ _ := none

/-- Requests that change nothing and are answered from the state. -/
abbrev Reads : Type := Request → Adapter → Except Refusal Response

variable (G : Gate) (reads : Reads)

/-- Refuse with a given response. -/
def refuse (response : Option Refusal) : Handler Unit :=
  .ofExcept (match response with
    | some response => .error response
    | none => .ok ())

/-- Answer a request that changes nothing. -/
def answer (req : Request) : Handler Response := do
  .ofExcept (← .view (reads req))

/-- `AZURE_SUPPORTED_VERSIONS` -/
def supportedVersions : List String :=
  ["2023-11-03", "2024-11-04", "2025-01-05", "2026-04-06", "2026-06-06", "2026-10-06"]

/-- `service_version` -/
def serviceVersion (req : Request) : Except Refusal Unit :=
  let version := (if (req.queryParam "sig").isSome then
      (req.queryParam "api-version") <|> (req.queryParam "sv")
    else
      req.header "x-ms-version").getD "2023-11-03"
  if version ∈ supportedVersions then
    .ok ()
  else
    .error ⟨if C.validDate version then 501 else 400,
      if C.validDate version then "FeatureNotSupported" else "InvalidHeaderValue",
      "This emulator accepts Azure service versions 2023-11-03, 2024-11-04, 2025-01-05, " ++
        "2026-04-06, 2026-06-06 and 2026-10-06."⟩

/-- `unsupported_operation_predicates` -/
def unsupportedPredicates (req : Request) : Bool :=
  (req.header "x-ms-if-tags").isSome ||
    (req.method ≠ .get && req.method ≠ .head &&
      ((req.header "if-modified-since").isSome || (req.header "if-unmodified-since").isSome))

/-- What is checked of every request before its container is looked at. -/
def admitRequest (req : Request) : Handler Unit := do
  .ofExcept (serviceVersion C req)
  .refuseIf ((req.header "x-ms-structured-body").isSome ∨
      (req.header "x-ms-structured-content-length").isSome)
    (notImplemented "Structured Azure upload bodies are not implemented by this emulator.")
  refuse (G.authorize now req)
  .refuseIf (unsupportedPredicates req)
    (notImplemented "Azure tag predicates and mutation date predicates are not implemented.")

/-- `unsupported_selected_mutation` -/
def unsupportedSelectedMutation (req : Request) : Option Refusal :=
  if (req.queryParam "versionid").isNone ∧ (req.queryParam "snapshot").isNone then
    none
  else if req.method = .put ∧ (req.queryParam "comp").isNone then
    some (invalidQuery "Blob snapshots and previous versions are read-only.")
  else if (req.method = .put ∨ req.method = .delete) ∧ (req.queryParam "comp").isSome then
    some (notImplemented
      "Version- and snapshot-scoped mutations are not implemented by this emulator.")
  else
    none

/-- What `handle_blob_request` checks before it dispatches. -/
def admitBlobRequest (req : Request) : Handler Unit := do
  refuse (unsupportedSelectedMutation req)
  .refuseIf (req.method = .put ∧ (req.header "x-ms-copy-source").isSome)
    (notImplemented "Azure copy operations are not implemented by this emulator.")
  refuse (← .view fun A : Adapter ↦ G.authorizeSas req A.vault)

/-- `handle_blob_crud`, for a request that deletes. -/
def handleDeletion (account c : String) (k : Text) (req : Request) : Handler Response := do
  .refuseIf ((req.queryParam "snapshot").isSome ∧ (req.queryParam "versionid").isSome)
    (invalidQuery "The snapshot and versionid parameters cannot be specified together.")
  deleteBlob E C now account c k req

/-- The operations on blobs. -/
inductive BlobOperation where
  | putBlob
  | readBlob
  | deleteBlob
  | lease
  | snapshot
  | putPolicy
  | deletePolicy
  | legalHold
  | putBlock
  | putBlockList
  | updateMetadata
  | getBlockList
  | appendBlock
  | putPage
  | unsupportedVerb
  | unsupportedSubresource
  deriving DecidableEq

/-- The dispatch of `handle_blob_request`, `handle_blob_comp_request` and `handle_blob_crud`. A
request to write a snapshot or a version does not come this far. -/
def blobOperation (req : Request) : BlobOperation :=
  match req.method, req.queryParam "comp" with
  | .put, none => .putBlob
  | .get, none => .readBlob
  | .head, none => .readBlob
  | .delete, none => .deleteBlob
  | .other, none => .unsupportedVerb
  | .put, some "lease" => .lease
  | .put, some "snapshot" => .snapshot
  | .put, some "immutabilityPolicies" => .putPolicy
  | .delete, some "immutabilityPolicies" => .deletePolicy
  | .put, some "legalhold" => .legalHold
  | .put, some "block" => .putBlock
  | .put, some "blocklist" => .putBlockList
  | .put, some "metadata" => .updateMetadata
  | .get, some "blocklist" => .getBlockList
  | .put, some "appendblock" => .appendBlock
  | .put, some "page" => .putPage
  | _, some _ => .unsupportedSubresource

/-- Carry out the operation that a request is for. -/
def dispatchBlob (account c : String) (k : Text) (req : Request) : Handler Response :=
  match blobOperation req with
  | .putBlob => putBlob E C now account c k req
  | .readBlob => answer reads req
  | .deleteBlob => handleDeletion E C now account c k req
  | .lease => handleLease E c k req
  | .snapshot => createSnapshot E C now c k req
  | .putPolicy => putImmutabilityPolicy C now c k req
  | .deletePolicy => deleteImmutabilityPolicy c k req
  | .legalHold => putLegalHold c k req
  | .putBlock => putBlock E C account c k req
  | .putBlockList => putBlockList E C now account c k req
  | .updateMetadata => updateMetadata E C now c k req
  | .getBlockList => getBlockList account c k req
  | .appendBlock => appendBlock E C now c k req
  | .putPage => putPage E C now c k req
  | .unsupportedVerb => .fail ⟨405, "UnsupportedHttpVerb", "Unsupported Azure blob operation"⟩
  | .unsupportedSubresource => .fail
      (notImplemented "This Azure blob subresource is not implemented by the emulator.")

/-- What `handle_request` checks of a request for a container. -/
def admitContainerRequest (c : String) (req : Request) : Handler Unit := do
  refuse (← .view fun A : Adapter ↦ G.authorizeSas req A.vault)
  let conflict ← .view (azureHistoryConflict c)
  let claims ← .ofExcept (if req.method = .put then do
      let (versioning, days) ← requestedRetentionModes req
      return versioning || days.isSome
    else
      .ok false)
  .refuseIf ((claims ∨ req.method = .delete) ∧ conflict) historyModeConflict
  .refuseIf ((req.queryParam "comp").any fun comp ↦ !(comp = "list" && req.method = .get))
    (notImplemented "This Azure container subresource is not implemented by the emulator.")

/-- `handle_container_request`, and what comes before it. -/
def handleContainerRequest (c : String) (req : Request) : Handler Response := do
  admitContainerRequest G c req
  match req.method with
  | .put => createContainer now c req
  | .delete => deleteContainer C now c req
  | .get => answer reads req
  | .head => answer reads req
  | .other => .fail ⟨405, "UnsupportedHttpVerb", "Unsupported Azure container operation"⟩

/-- What `handle_request` checks of a request for a blob. -/
def admitBlob (c : String) (req : Request) : Handler Unit := do
  let _ ← .find containerNotFound fun A : Adapter ↦ A.vault.buckets[c]?
  let conflict ← .view (azureHistoryConflict c)
  .refuseIf (conflict ∧ (req.method = .put ∨ req.method = .delete ∨
    (req.queryParam "versionid").isSome)) historyModeConflict
  admitBlobRequest G req

/-- The loop of `handle_account_request`: deletions that are due are carried out. -/
def finishDeletions : List String → Handler Unit
  | [] => pure ()
  | c :: rest => do
    let _ ← finishExpiredDeletion E C now c
    finishDeletions rest

/-- `max_results` -/
def maxResults (req : Request) : Except Refusal ℕ :=
  match req.queryParam "maxresults" with
  | none => .ok 5000
  | some raw =>
    match parseU64 raw with
    | none => .error ⟨400, "InvalidQueryParameterValue", "The value for maxresults is invalid."⟩
    | some 0 => .error ⟨400, "InvalidQueryParameterValue",
        "The value for maxresults must be greater than zero."⟩
    | some value => .ok (min value 5000)

/-- `handle_account_request` -/
def handleAccountRequest (req : Request) : Handler Response := do
  .refuseIf (!(req.method = .get ∧ req.queryParam "comp" = some "list"))
    ⟨400, "InvalidUri", "Azure account requests must use comp=list"⟩
  let _ ← .ofExcept (maxResults req)
  finishDeletions E C now (← .view fun A : Adapter ↦ A.vault.buckets.keys)
  answer reads req

/-- `handle_request`, for a request about a container or a blob. -/
def handleResource (c : String) (req : Request) : Handler Response :=
  if req.queryParam "restype" = some "container" then
    handleContainerRequest C now G reads c req
  else
    match req.blob with
    | none => .fail ⟨400, "InvalidUri", "Blob requests must include a blob name"⟩
    | some k => do
      admitBlob G c req
      dispatchBlob E C now reads req.account c k req

/-- `handle_request` -/
def handleRequest (req : Request) : Handler Response := do
  admitRequest C now G req
  match req.container with
  | none => handleAccountRequest E C now reads req
  | some c => do
    resolveDeletion E C now c req
    handleResource E C now G reads c req

end Handlers

/-! ### Runs -/

/-- One thing that happens to an adapter. -/
inductive Step where
  /-- A request, at some time. -/
  | request (now : Time) (req : Request)
  /-- The adapter is started again. -/
  | restart

section Runs

variable (E : Env) (C : Codec) (G : Gate) (reads : Reads)

/-- The state after a step. -/
def Step.apply (step : Step) (A : Adapter) : Adapter :=
  match step with
  | .request now req => (handleRequest E C now G reads req A).2
  | .restart => A.restart

/-- The state after a run. -/
def Adapter.run (A : Adapter) (steps : List Step) : Adapter :=
  steps.foldl (fun A step ↦ step.apply E C G reads A) A

end Runs

/-! ### Requests to evaluate -/

/-- A table with the given entries. -/
def entries (list : List (String × String)) : Table String String :=
  list.foldl (fun table entry ↦ table.set entry.1 (some entry.2)) ∅

/-- Nothing is found by requests that only look. -/
def noReads : Reads := fun _ _ ↦ .error blobNotFound

/-- A request about the container `box`. -/
def containerRequest (method : Method) (headers : List (String × String)) : Request where
  method := method
  account := "account"
  container := some "box"
  query := entries [("restype", "container")]
  headers := entries headers

/-- A request about the blob `b` of the container `box`. -/
def blobRequest (method : Method) (query headers : List (String × String)) (body : Bytes) :
    Request where
  method := method
  account := "account"
  container := some "box"
  blob := some ['b']
  query := entries query
  headers := entries headers
  body := body

end Sqrzl.Azure
