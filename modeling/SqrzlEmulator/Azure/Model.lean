import SqrzlEmulator.Storage.Vault

/-!
# The Azure front door: requests and state

The adapter of `providers/azure.rs` maps containers to buckets and blobs to objects. What Azure
knows of a blob beyond its bytes is kept in the **provider metadata** of the object: its type, its
lease, its immutability policy and its legal hold. A snapshot is an object of its own, under a key
that is made from the key of the blob and the time.

Besides the store the adapter keeps, per blob, the blocks that have been staged and the blocks that
have been committed last, each in a cache and in the provider state of the store, and the staged
bodies as files; and, per container, when a deletion that has been accepted is to be carried out.
Provider state is filed under `compute_object_id` of the adapter and the blob, like objects are, so
a table by blob stands for it where these are free of collisions (`Env.CollisionFree`).

A request holds the lock of its container from the first look at the store to the answer, so that it
runs alone, and a handler is a function of the whole state.
-/

namespace Sqrzl.Azure

open Prog

/-! ### Requests -/

/-- The methods that the adapter tells apart. -/
inductive Method where
  | get
  | head
  | put
  | delete
  | other
  deriving DecidableEq

/-- A request, with the resource that `parse_resource` has found in its path. Headers are looked up
by their lower-case names. -/
structure Request where
  method : Method
  account : String
  container : Option String := none
  blob : Option Text := none
  query : Table String String := ∅
  headers : Table String String := ∅
  body : Bytes := []

namespace Request

/-- `query_param` -/
def queryParam (req : Request) (name : String) : Option String := req.query[name]?

/-- `header` -/
def header (req : Request) (name : String) : Option String := req.headers[name]?

end Request

/-- An answer that is not a success, by its status, code and message. -/
structure Refusal where
  status : ℕ
  code : String
  message : String
  deriving DecidableEq

/-- What an error of the store becomes. -/
def serverError (_ : Error) : Refusal := ⟨500, "InternalError", "Internal server error"⟩

/-! ### Blocks -/

/-- `AzureStagedBlock` -/
structure StagedBlock where
  item : String
  size : ℕ
  deriving DecidableEq

/-- `AzureBlockSession`. Its content type and its metadata are never set. -/
structure BlockSession where
  blocks : Table String StagedBlock := ∅

/-- `AzureCommittedBlock` -/
structure CommittedBlock where
  id : String
  item : String
  size : ℕ
  deriving DecidableEq

/-- `AzureBlockSelector` -/
inductive BlockSelector where
  | latest
  | committed
  | uncommitted
  deriving DecidableEq

/-- `AzureBlockReference` -/
structure BlockReference where
  id : String
  selector : BlockSelector
  deriving DecidableEq

/-- `AzureBlockListError` -/
inductive BlockListError where
  | invalidXmlDocument
  | invalidBlockList
  deriving DecidableEq

/-- What the XML reader reports of a block list. White space around texts is trimmed. -/
inductive BlockListEvent where
  /-- The beginning of an element, and what `valid_xml_attributes` says of its attributes. -/
  | start (name : Text) (attributes : Bool)
  | empty (name : Text) (attributes : Bool)
  | stop (name : Text)
  | text (content : Text)
  /-- A reference, and the character of a numeric one: nothing if the number is malformed. -/
  | generalRef (name : Text) (resolved : Option (Option Char))
  | cData (content : Text)
  /-- A declaration, and what `valid_xml_declaration` says of it. -/
  | declaration (valid : Bool)
  | instruction (target : Text)
  | comment
  | docType

/-- A successful answer, by what later requests can be made from it. -/
inductive Response where
  | empty
  | leaseId (id : String)
  | snapshot (time : String)
  | blob (object : Object) (data : Bytes)
  | blockList (committed : List CommittedBlock) (uncommitted : List (String × StagedBlock))
  | containers (names : List String)
  deriving DecidableEq

/-! ### External functions -/

/-- What the adapter takes from the `chrono`, `base64` and digest crates, and the XML reader of its
block lists. -/
structure Codec where
  parseRfc3339 : String → Option Time
  parseRfc2822 : String → Option Time
  /-- A date of the one format is not one of the other: they begin with the year, or with a day. -/
  parseRfc3339_of_rfc2822 : ∀ text time, parseRfc2822 text = some time → parseRfc3339 text = none
  /-- Whether a text is a date of the calendar. -/
  validDate : String → Bool
  base64Decode : String → Option Bytes
  /-- The base64 text of the MD5 digest. -/
  md5Header : Bytes → String
  /-- `crc64_header_value` -/
  crc64Header : Bytes → String
  /-- `URL_SAFE_NO_PAD.encode` -/
  urlSafe : Text → Text
  /-- Four characters stand for three bytes. -/
  length_le_urlSafe : ∀ text, text.length ≤ (urlSafe text).length
  /-- `snapshot_timestamp`, in microseconds. -/
  timestamp : Time → String
  /-- `namespace_etag` -/
  namespaceEtag : String → Time → String
  /-- The events of a document, or a report that it cannot be read any further. -/
  readXml : Text → List (Option BlockListEvent)
  /-- `quick_xml::escape::unescape` -/
  unescapeXml : Text → Option Text

/-- External functions that are simple enough to evaluate requests with. Block ids and blob names
other than these, dates and checksums are not met in the requests that they are used for. -/
def Codec.simple : Codec where
  parseRfc3339 _ := none
  parseRfc2822 _ := none
  parseRfc3339_of_rfc2822 _ _ _ := rfl
  validDate _ := true
  base64Decode text := if text = "AA==" then some [0] else none
  md5Header _ := ""
  crc64Header _ := ""
  urlSafe text := if text = ['b'] then "Yg".toList else text
  length_le_urlSafe text := by
    split
    · next h => rw [h]; decide
    · exact le_rfl
  timestamp _ := "1970-01-01T00:00:00.000000Z"
  namespaceEtag name _ := name
  readXml _ := [none]
  unescapeXml := some

/-! ### State -/

/-- The store, and what the adapter keeps beside the objects. -/
structure Adapter where
  vault : Vault := {}
  /-- The provider state `azure-block-session-v2`. -/
  sessions : Table String BlockSession := ∅
  /-- The provider state `azure-committed-blocks-v2`. -/
  committed : Table String (List CommittedBlock) := ∅
  /-- The provider state `azure-container-deletion`: when a container is to be purged. -/
  deletions : Table String Time := ∅
  /-- The files of the staged blocks, by session and item. -/
  items : Table String (Table String Bytes) := ∅
  /-- `block_sessions` -/
  sessionCache : Table String BlockSession := ∅
  /-- `committed_blocks` -/
  committedCache : Table String (List CommittedBlock) := ∅

/-- A handler, as a function of the state. -/
abbrev Handler (α : Type) : Type := Atomic Refusal Adapter α

/-- An operation of the store. -/
def onVault {α : Type} (op : VaultOp α) : Handler α := fun A ↦
  ((op A.vault).1.mapError serverError, { A with vault := (op A.vault).2 })

/-- `Uuid::new_v4` -/
def newIdentity (E : Env) : Handler String := fun A ↦
  (.ok (E.uuid A.vault.drawn), { A with vault := A.vault.draw (A.vault.drawn + 1) })

/-- The adapter is started again: what it has cached is gone. -/
def Adapter.restart (A : Adapter) : Adapter := { A with sessionCache := ∅, committedCache := ∅ }

/-! ### Blobs -/

/-- `blob_type` -/
def blobType (blob : Object) : String := blob.providerMetadata["azure_blob_type"]?.getD "BlockBlob"

/-- `lease_id` -/
def leaseId (blob : Object) : Option String := blob.providerMetadata["azure_lease_id"]?

/-- `lease_status` -/
def leaseStatus (blob : Object) : String :=
  blob.providerMetadata["azure_lease_status"]?.getD "unlocked"

/-- `has_active_lease` -/
def hasActiveLease (blob : Object) : Bool := leaseStatus blob = "locked" && (leaseId blob).isSome

/-- `has_legal_hold`: every value but `false` is a hold. -/
def hasLegalHold (blob : Object) : Bool :=
  blob.providerMetadata["azure_legal_hold"]?.any (· ≠ "false")

/-- `retention_until` -/
def retentionUntil (C : Codec) (blob : Object) : Option Time :=
  blob.providerMetadata["azure_immutability_until"]?.bind fun value ↦
    C.parseRfc3339 value <|> C.parseRfc2822 value

/-- `is_immutable`, at the time `now`. A policy that cannot be read protects the blob. -/
def isImmutable (C : Codec) (now : Time) (blob : Object) : Bool :=
  hasLegalHold blob ||
    match blob.providerMetadata["azure_immutability_mode"]?,
      blob.providerMetadata["azure_immutability_until"]? with
    | none, none => false
    | some mode, some _ =>
      if mode = "Unlocked" ∨ mode = "Locked" then (retentionUntil C blob).all (· > now) else true
    | _, _ => true

/-- An edit of the provider metadata: an entry is set, or removed. -/
def edit (name : String) (value : Option String) (blob : Object) : Object :=
  { blob with providerMetadata := blob.providerMetadata.set name value }

/-- `set_lease_state` -/
def setLeaseState (lease : Option String) (state status : String) (duration : Option String)
    (blob : Object) : Object :=
  edit "azure_lease_duration" duration <| edit "azure_lease_status" (some status) <|
    edit "azure_lease_state" (some state) <| edit "azure_lease_id" lease blob

/-- The entries of a lease. -/
def leaseKeys : List String :=
  ["azure_lease_id", "azure_lease_state", "azure_lease_status", "azure_lease_duration"]

/-- `preserve_active_lease` -/
def preserveActiveLease (source destination : Object) : Object :=
  if hasActiveLease source then
    leaseKeys.foldl (fun destination name ↦
      match source.providerMetadata[name]? with
      | some value => edit name (some value) destination
      | none => destination) destination
  else
    destination

/-! ### Keys -/

/-- `AZURE_SNAPSHOT_PREFIX` -/
def snapshotPrefix : Text := "__sqrzl_azure_snapshot__".toList

/-- What the keys of the snapshots of a blob begin with. -/
def snapshotKeysOf (C : Codec) (blob : Text) : Text :=
  snapshotPrefix ++ '/' :: C.urlSafe blob ++ ['/']

/-- `snapshot_storage_key` -/
def snapshotStorageKey (C : Codec) (blob : Text) (snapshot : String) : Text :=
  snapshotKeysOf C blob ++ snapshot.toList

/-- `blob_state_key` -/
def blobStateKey (account container : String) (blob : Text) : String :=
  account ++ "/" ++ container ++ "/" ++ String.ofList blob

/-! ### Refusals that several handlers share -/

/-- `condition_failed` -/
def conditionFailed : Refusal :=
  ⟨412, "ConditionNotMet", "The condition specified using HTTP conditional header(s) is not met."⟩

/-- `blob_not_found` -/
def blobNotFound : Refusal := ⟨404, "BlobNotFound", "The specified blob does not exist."⟩

/-- `container_not_found` -/
def containerNotFound : Refusal :=
  ⟨404, "ContainerNotFound", "The specified container does not exist."⟩

/-- `materialized_extent_unsupported` -/
def materializedExtentUnsupported : Refusal :=
  ⟨501, "FeatureNotSupported", "This emulator materializes at most 64 MiB for page extents, " ++
    "mutation, snapshot, and read operations. Large BlockBlob uploads remain streamed."⟩

/-- The refusal of a mutation of an immutable blob. -/
def immutableBlob (message : String) : Refusal := ⟨409, "BlobImmutableDueToPolicy", message⟩

/-- A header that is required. -/
def missingHeader (message : String) : Refusal := ⟨400, "MissingRequiredHeader", message⟩

/-- A header with a value that is not understood. -/
def invalidHeader (message : String) : Refusal := ⟨400, "InvalidHeaderValue", message⟩

/-- A query parameter with a value that is not understood. -/
def invalidQuery (message : String) : Refusal := ⟨400, "InvalidQueryParameterValue", message⟩

/-- An operation that is not implemented. -/
def notImplemented (message : String) : Refusal := ⟨501, "FeatureNotSupported", message⟩

/-! ### Conditions -/

/-- `strong_etag` -/
def strongEtag (value : String) : Option String :=
  if startsWith "W/" (trim value) then none else some (trimQuotes (trim value))

/-- `str::trim_start_matches("W/")` -/
def trimWeak : Text → Text
  | 'W' :: '/' :: rest => trimWeak rest
  | text => text

/-- The ETag that an `If-None-Match` header names. -/
def weakEtag (value : String) : String :=
  trimQuotes (String.ofList (trimWeak (trim value).toList))

/-- `conditions_match_blob` -/
def conditionsMatchBlob (req : Request) (blob : Object) : Bool :=
  ((req.header "if-match").all fun value ↦
    (strongEtag value).any fun etag ↦ etag = "*" || etag = blob.etag) &&
  (req.header "if-none-match").all fun value ↦
    !(weakEtag value = "*" || weakEtag value = blob.etag)

/-- `namespace_conditions_match`, of the ETag of the container. -/
def namespaceConditionsMatch (req : Request) (etag : String) : Bool :=
  ((req.header "if-match").all fun value ↦
    (strongEtag value).any fun candidate ↦ candidate = "*" || candidate = etag) &&
  (req.header "if-none-match").all fun value ↦
    !(weakEtag value = "*" || weakEtag value = etag)

/-- `write_condition` -/
def writeCondition (req : Request) : Except Refusal (Option ObjectCondition) :=
  match req.header "if-match", req.header "if-none-match" with
  | some _, some _ => .error ⟨400, "MultipleConditionHeadersNotSupported",
      "Multiple condition headers are not supported for this write operation."⟩
  | some value, none =>
    if trim value = "*" then
      .ok (some (.etagNotIn []))
    else if startsWith "W/" (trim value) then
      .ok (some (.etag "__sqrzl_weak_etag_never_matches__"))
    else if ',' ∈ value.toList then
      .error (invalidHeader "The If-Match header must contain exactly one ETag value.")
    else
      .ok (some (.etag (trimQuotes (trim value))))
  | none, some value =>
    let etag := String.ofList (trimWeak (trim value).toList)
    if trim value = "*" then
      .ok (some .missing)
    else if ',' ∈ etag.toList then
      .error (invalidHeader "The If-None-Match header must contain exactly one ETag value.")
    else
      .ok (some (.missingOrEtagNotIn [trimQuotes (trim etag)]))
  | none, none => .ok none

/-! ### Guards -/

/-- `ensure_lease_allows` -/
def ensureLeaseAllows (req : Request) (blob : Object) : Except Refusal Unit :=
  if hasActiveLease blob then
    match req.header "x-ms-lease-id" with
    | some provided =>
      if leaseId blob = some provided then
        .ok ()
      else
        .error ⟨412, "LeaseIdMismatchWithBlobOperation",
          "The lease ID specified did not match the lease ID for the blob."⟩
    | none => .error ⟨412, "LeaseIdMissing",
        "There is currently a lease on the blob and no lease ID was specified in the request."⟩
  else
    .ok ()

/-- `ensure_mutation_allowed` -/
def ensureMutationAllowed (C : Codec) (now : Time) (req : Request) (blob : Object) :
    Except Refusal Unit :=
  if isImmutable C now blob then
    .error (immutableBlob "The blob is immutable due to an active policy or legal hold.")
  else
    ensureLeaseAllows req blob

/-- `azure_versioning_enabled` -/
def azureVersioningEnabled (B : Bucket) : Bool :=
  B.metadata["azure_versioning_enabled"]? = some "true" && B.versioningEnabled

/-- `ensure_version_creating_overwrite_allowed` -/
def ensureVersionCreatingOverwriteAllowed (C : Codec) (now : Time) (req : Request) (blob : Object)
    (versioning : Bool) : Except Refusal Unit :=
  if isImmutable C now blob && versioning then
    ensureLeaseAllows req blob
  else
    ensureMutationAllowed C now req blob

/-- `create_only_sas` -/
def createOnlySas (req : Request) : Bool :=
  (req.queryParam "sig").isSome &&
    (req.queryParam "sp").any fun permissions ↦ 'c' ∈ permissions.toList && 'w' ∉ permissions.toList

/-- The answer to a conditional write that has found its condition false. -/
def unmet (req : Request) : Refusal :=
  if createOnlySas req then
    ⟨403, "AuthorizationPermissionMismatch", "Create-only SAS cannot overwrite an existing blob."⟩
  else
    conditionFailed

end Sqrzl.Azure
