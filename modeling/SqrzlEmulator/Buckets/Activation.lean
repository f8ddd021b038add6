import SqrzlEmulator.Azure.Containers
import SqrzlEmulator.Buckets.Steps
import SqrzlEmulator.Gcs.Routes
import SqrzlEmulator.Oci.Tiers

/-!
# The activation of data protection

The requests that give a bucket a data-protection mode: S3 `create_bucket` with object lock and
`put_versioning`, the creation and the update of a bucket with a soft-delete or a retention policy
in the JSON API of GCS, `create_container` of Azure, and `create_bucket` of OCI. Each of them is a
sequence of storage calls, **one step of which fails**; what a front door does about the failure
succeeds.

Three front doors delete the bucket that they have created when a later call fails (`orRollBack`).
The others do not, and none does where `create_namespace` fails at the lookup that it ends with.
`Undone` says of each request which failures leave everything as it was, and
`activation_undone_iff` that **these are the only ones**.

What a request says is read before the store is asked for anything. Responses are left out where a
request succeeds, and the texts of storage errors where it fails. The lock that a bucket is
activated under is left out: a request runs alone.
-/

namespace Sqrzl.Activation

open Prog Faulty

/-! ### Requests -/

/-- An answer that is not a success, of one of the front doors. -/
inductive Refused where
  | s3 (refusal : S3.Refusal)
  | gcs (response : Gcs.Response)
  | azure (refusal : Azure.Refusal)
  | oci (refusal : S3.Refusal)
  /-- An error of the handler. -/
  | failed (message : String)

/-- The document that creates a bucket of OCI. -/
structure BucketDocument where
  name : String
  storageTier : Option String := none
  compartmentId : Option String := none
  metadata : Option String := none

/-- The requests that activate data protection. A document is given by what the checks say of it
that do not read the store. -/
inductive Request where
  /-- S3 `CreateBucket`, with the header `x-amz-bucket-object-lock-enabled`. -/
  | s3CreateBucket (b : String) (objectLock : Option String)
  /-- S3 `PutBucketVersioning`; the document enables versioning, or suspends it. -/
  | s3PutVersioning (b : String) (document : Except Refused Bool)
  | gcsCreateBucket (req : Gcs.Request)
  | gcsPatchBucket (b : String) (req : Gcs.Request)
  | azureCreateContainer (c : String) (req : Azure.Request)
  | ociCreateBucket (document : Except Refused BucketDocument)

/-- Handlers. -/
abbrev Handler (α : Type) : Type := Atomic Refused World α

/-! ### Handlers -/

/-- `internal_error`, whose text is not modelled. -/
def failedRequest (_ : Error) : Refused := .failed "internal error"

/-- The answer of `create_bucket` and `bucket_write_response` of S3 to an error of the store. -/
def bucketWriteError : Error → Refused
  | .bucketNotFound => .s3 ⟨404, "NoSuchBucket", "Bucket not found"⟩
  | _ => .s3 ⟨500, "InternalError", "internal error"⟩

/-- The answer of `create_bucket` of S3. -/
def createBucketError : Error → Refused
  | .bucketAlreadyExists => .s3 ⟨409, "BucketAlreadyOwnedByYou",
    "Your previous request to create the named bucket succeeded and you already own it."⟩
  | e => failedRequest e

/-- The answer of `create_json_bucket`. -/
def createJsonBucketError : Error → Refused
  | .bucketAlreadyExists => .gcs (.jsonError 409 "conflict" "The requested bucket already exists")
  | _ => .gcs Gcs.internalJsonError

/-- The answer of `create_container`. -/
def createContainerError : Error → Refused
  | .bucketAlreadyExists =>
    .azure ⟨409, "ContainerAlreadyExists", "The specified container already exists."⟩
  | e => failedRequest e

/-- The answer of `handle_bucket_collection` of OCI. -/
def bucketCollectionError : Error → Refused
  | .bucketAlreadyExists => .oci ⟨409, "BucketAlreadyExists", "The bucket already exists"⟩
  | e => failedRequest e

section Handlers

variable (C : Gcs.Crates) (absent : String → Bool) (now : Time) (b : String)

/-- `create_namespace` -/
def createNamespace : StoreOp Unit := do
  createBucket .create now b
  let _ ← getBucket .readCreated b
  return ()

/-- Run the calls, and delete the bucket when one of them fails. -/
def orRollBack {α : Type} (answer : Error → Refused) (m : StoreOp α) : Handler α := do
  match ← .attempt m with
  | .ok a => return a
  | .error e =>
    let _ ← .attempt (ε := Error) (lift (Vault.deleteBucket b))
    .fail (answer e)

/-- `azure_object_protection_active`, where `absent` is `azure_object_protection_absent`. -/
def azureObjectProtectionActive : Handler Bool := do
  if absent b then return false
  else
    match ← .attempt (getBucket .lookObjects b) with
    | .ok B => return B.current.any (S3.hasActiveAzureProtection C.toCodec now)
    | .error .bucketNotFound => return false
    | .error _ => return true

/-- `foreign_data_protection_mode_active` of S3 and `foreign_data_protection_active` of GCS, by
which modes of a bucket are foreign. A bucket that cannot be looked up has none. -/
def foreignModeActive (foreign : Bucket → Bool) : Handler Bool := do
  if ← azureObjectProtectionActive C absent now b then return true
  else
    match ← .attempt (getBucket .lookModes b) with
    | .ok B => return foreign B
    | .error _ => return false

/-- `with_bucket_metadata` -/
def withBucketMetadata (update : Table String String → Table String String) : StoreOp Unit := do
  let B ← getBucket .readMetadata b
  updateBucketMetadata .writeMetadata now b (update B.metadata)

/-- The metadata of a bucket whose versioning was set by S3. -/
def withVersioningStatus (enabled : Bool) (metadata : Table String String) : Table String String :=
  metadata.set "s3_versioning_status" (some (if enabled then "Enabled" else "Suspended"))

/-- The state that `set_versioning` sets. -/
def versioningState (enabled : Bool) : VersioningState := if enabled then .enabled else .suspended

/-- The lookup of `put_versioning` of a bucket whose versioning is to be suspended. -/
def admitSuspension (enabled : Bool) : Handler Unit := do
  if enabled then return ()
  else
    match ← .attempt (getBucket .lookBucket b) with
    | .ok B => .refuseIf (B.metadata["s3_object_lock_enabled"]? = some "true") (.s3 ⟨409,
      "InvalidBucketState", "Versioning cannot be suspended on an Object Lock enabled bucket."⟩)
    | .error _ => return ()

/-- What `put_versioning` does to the store. -/
def putVersioningStatus (enabled : Bool) : StoreOp Unit := do
  setVersioning .switch now b (versioningState enabled)
  withBucketMetadata now b (withVersioningStatus enabled)

/-- `put_versioning` -/
def putVersioning (document : Except Refused Bool) : Handler Unit := do
  let enabled ← .ofExcept document
  admitSuspension b enabled
  .refuseIf (← foreignModeActive C absent now b S3.hasForeignDataProtection)
    (.s3 S3.foreignHistoryConflictResponse)
  .mapError bucketWriteError (putVersioningStatus now b enabled)

/-- The header `x-amz-bucket-object-lock-enabled`. -/
def objectLockEnabled : Option String → Except Refused Bool
  | none => .ok false
  | some value =>
    if eqIgnoreCase value "true" then .ok true
    else .error (.s3 ⟨400, "InvalidArgument",
      "x-amz-bucket-object-lock-enabled must be true when supplied."⟩)

/-- What `create_bucket` of S3 does to a bucket with object lock. -/
def enableObjectLock : StoreOp Unit := do
  setVersioning .switch now b .enabled
  withBucketMetadata now b fun metadata ↦ withVersioningStatus true
    (metadata.set "s3_object_lock_enabled" (some "true"))

/-- `create_bucket` of S3. **Nothing is rolled back.** -/
def s3CreateBucket (objectLock : Option String) : Handler Unit := do
  let enabled ← .ofExcept (objectLockEnabled objectLock)
  .mapError createBucketError do
    createBucket .create now b
    if enabled then enableObjectLock now b else return ()

/-- The metadata of a bucket with the policies of a payload. -/
def withPolicies (payload : Gcs.Json) (metadata : Table String String) : Table String String :=
  Gcs.withRetentionPolicy payload
    (match Gcs.softDeleteSeconds payload with
      | some seconds => metadata.set "gcs_soft_delete_seconds" (some seconds)
      | none => metadata)

/-- `apply_bucket_data_protection` -/
def applyBucketDataProtection (payload : Gcs.Json) : StoreOp Unit := do
  let B ← getBucket .readMetadata b
  if (Gcs.softDeleteSeconds payload).isSome then setVersioning .switch now b .enabled else pure ()
  updateBucketMetadata .writeMetadata now b (withPolicies payload B.metadata)

/-- The checks of `create_json_bucket`. -/
def admitJsonBucket (req : Gcs.Request) : Except Gcs.Response (Gcs.Json × String) :=
  match C.parseJson req.body with
  | none => .error (Gcs.jsonUploadError 400 "Invalid bucket metadata JSON")
  | some payload => do
    Gcs.validateBucketDataProtection req payload
    match payload.get "name" with
    | some (.string b) =>
      if Gcs.validBucketName b then .ok (payload, b)
      else .error (.jsonError 400 "invalidParameter" "Invalid bucket name")
    | _ => .error (Gcs.jsonUploadError 400 "Required parameter: name")

/-- `create_json_bucket` -/
def createJsonBucket (req : Gcs.Request) : Handler Unit := do
  let (payload, b) ← .ofExcept ((admitJsonBucket C req).mapError .gcs)
  .mapError createJsonBucketError (createNamespace now b)
  orRollBack b createJsonBucketError (applyBucketDataProtection now b payload)
  let _ ← orRollBack b createJsonBucketError (getBucket .readBack b)
  return ()

/-- An error of `get_namespace` in the JSON API. -/
def jsonBucketError : Error → Refused
  | .bucketNotFound => .gcs (Gcs.jsonBucketNotFound b)
  | _ => .gcs Gcs.internalJsonError

/-- The checks of the update of a bucket that do not read the store. -/
def admitJsonPatch (req : Gcs.Request) : Except Gcs.Response Gcs.Json :=
  match C.parseJson req.body with
  | none => .error (Gcs.jsonUploadError 400 "Invalid bucket metadata JSON")
  | some payload => do
    Gcs.validateBucketDataProtection req payload
    return payload

/-- A lookup has found that there is no bucket. -/
def bucketMissing {α : Type} : Except Error α → Bool
  | .error .bucketNotFound => true
  | _ => false

/-- `foreign_data_protection_active`, for a payload that asks for data protection. -/
def foreignProtectionActive (payload : Gcs.Json) : Handler Bool :=
  if Gcs.bucketDataProtectionRequested payload then
    foreignModeActive C absent now b Gcs.foreignMode
  else return false

/-- The checks of the update of a bucket. -/
def admitPatch (req : Gcs.Request) : Handler Gcs.Json := do
  .refuseIf (bucketMissing (← .attempt (getBucket .lookBucket b))) (.gcs (Gcs.jsonBucketNotFound b))
  let payload ← .ofExcept ((admitJsonPatch C req).mapError .gcs)
  .refuseIf (← foreignProtectionActive C absent now b payload)
    (.gcs Gcs.foreignDataProtectionJsonResponse)
  return payload

/-- The update of a bucket in `handle_json_bucket_item`. **Nothing is rolled back.** -/
def patchJsonBucket (req : Gcs.Request) : Handler Unit := do
  let payload ← admitPatch C absent now b req
  .mapError (fun _ ↦ .gcs Gcs.internalJsonError) (applyBucketDataProtection now b payload)
  let _ ← .mapError (jsonBucketError b) (getBucket .readBack b)
  return ()

/-- The metadata of a new container, on top of those that it has. -/
def withContainerMetadata (req : Azure.Request) (versioning : Bool) (days : Option ℕ)
    (metadata : Table String String) : Table String String :=
  let metadata := (Azure.metadataFromHeaders req).toList.foldl
    (fun metadata entry ↦ metadata.set entry.1 (some entry.2)) metadata
  let metadata :=
    if versioning then metadata.set "azure_versioning_enabled" (some "true") else metadata
  match days with
  | some days => metadata.set "azure_soft_delete_days" (some (toString days))
  | none => metadata

/-- What `create_container` does to a container that it has created. -/
def configureContainer (req : Azure.Request) (versioning : Bool) (days : Option ℕ) :
    StoreOp Unit := do
  if versioning || days.isSome || !(Azure.metadataFromHeaders req).isEmpty then
    if versioning || days.isSome then setVersioning .switch now b .enabled else pure ()
    withBucketMetadata now b (withContainerMetadata req versioning days)
  else return ()

/-- `create_container` -/
def createContainer (req : Azure.Request) : Handler Unit := do
  .refuseIf (!Azure.validContainerName b.toList)
    (.azure ⟨400, "InvalidResourceName", "The specified container name is invalid."⟩)
  let (versioning, days) ← .ofExcept ((Azure.requestedRetentionModes req).mapError .azure)
  .mapError createContainerError (createNamespace now b)
  orRollBack b createContainerError (configureContainer now b req versioning days)

/-- The metadata of a new bucket of OCI. -/
def bucketMetadata (document : BucketDocument) (storageTier : String) : Table String String :=
  (((∅ : Table String String).set "oci-storage-tier" (some storageTier)).set
    "oci-compartment-id" document.compartmentId).set "oci-bucket-user-metadata" document.metadata

/-- `handle_bucket_collection` of OCI, with its `create_bucket` -/
def ociCreateBucket (document : Except Refused BucketDocument) : Handler Unit := do
  let document ← .ofExcept document
  let storageTier := document.storageTier.getD "Standard"
  .refuseIf (!Oci.Tiers.validBucketStorageTier storageTier) (.oci ⟨400, "InvalidParameter",
    "The storageTier value must be Standard or Archive."⟩)
  .mapError bucketCollectionError (createNamespace now document.name)
  orRollBack document.name failedRequest (updateBucketMetadata .writeMetadata now document.name
    (bucketMetadata document storageTier))

/-- Answer a request. -/
def activate : Request → Handler Unit
  | .s3CreateBucket b objectLock => s3CreateBucket now b objectLock
  | .s3PutVersioning b document => putVersioning C absent now b document
  | .gcsCreateBucket req => createJsonBucket C now req
  | .gcsPatchBucket b req => patchJsonBucket C absent now b req
  | .azureCreateContainer c req => createContainer now c req
  | .ociCreateBucket document => ociCreateBucket now document

end Handlers

/-! ### Failures that leave everything as it was -/

/-- The failure comes when the versioning state was switched, if the metadata are looked up before
that. -/
def Switched (x : StorageFault) : Prop :=
  (x.step.call = .switch ∧ ¬ Unmarked x) ∨ x.step.call = .writeMetadata ∨ x.step.call = .readBack

/-- The failure comes when the metadata were written. -/
def Written (x : StorageFault) : Prop :=
  (x.step.call = .writeMetadata ∧ ¬ Unwritten x) ∨ x.step.call = .readBack

/-- The failure of `put_versioning` leaves the settings of the bucket as they were: what was done
before it had been done already. -/
def StatusUndone (enabled : Bool) (B : Bucket) (x : StorageFault) : Prop :=
  ((x.step.call = .readMetadata ∨ Switched x) → B.versioning = some (versioningState enabled)) ∧
    (Written x → B.metadata = withVersioningStatus enabled B.metadata)

/-- The failure of the update of a bucket leaves its settings as they were. -/
def PoliciesUndone (payload : Gcs.Json) (B : Bucket) (x : StorageFault) : Prop :=
  (Switched x → (Gcs.softDeleteSeconds payload).isSome → B.versioning = some .enabled) ∧
    (Written x → B.metadata = withPolicies payload B.metadata)

/-- The failure of a creation that is rolled back leaves no bucket: the bucket was not created, or
it was deleted. **The lookup at the end of `create_namespace` is not rolled back.** -/
def CreationUndone (x : StorageFault) : Prop :=
  x.step.call ≠ .readCreated ∧ (x.step.call = .create → Uncreated x)

/-- **The failures that leave everything as it was**: the buckets, their versioning states and their
metadata. -/
def Undone (C : Gcs.Crates) (V : Vault) : Request → StorageFault → Prop
  | .s3CreateBucket _ _, x => x.step.call = .create ∧ Uncreated x
  | .s3PutVersioning b document, x =>
    ∀ enabled B, document = .ok enabled → V.buckets[b]? = some B → StatusUndone enabled B x
  | .gcsPatchBucket b req, x =>
    ∀ payload B, C.parseJson req.body = some payload → V.buckets[b]? = some B →
      PoliciesUndone payload B x
  | .gcsCreateBucket _, x | .azureCreateContainer _ _, x | .ociCreateBucket _, x => CreationUndone x

/-! ### Lookups -/

section Lookups

variable {α β : Type} {ε : Type} {m : Atomic ε World α} {f : α → Atomic ε World β} {W W' : World}

/-- The failure is one of the lookups that a request begins with. -/
def IsLook (x : StorageFault) : Prop :=
  x.step.call = .lookBucket ∨ x.step.call = .lookObjects ∨ x.step.call = .lookModes

/-- Nothing has happened, but that a lookup may have failed. -/
def Looked (W W' : World) : Prop :=
  W' = W ∨ ∃ x, W.fault = some x ∧ IsLook x ∧ W' = ⟨W.state, none, true⟩

/-- Programs that only look up. -/
def Looks (m : Atomic ε World α) : Prop := ∀ W, Looked W (m W).2

theorem Looked.trans {W'' : World} (h : Looked W W') (h' : Looked W' W'') : Looked W W'' := by
  rcases h with rfl | ⟨x, hx, hlook, rfl⟩
  · exact h'
  · rcases h' with rfl | ⟨x', hx', -⟩
    · exact Or.inr ⟨x, hx, hlook, rfl⟩
    · cases hx'

theorem looks_of_readOnly (h : Atomic.ReadOnly m) : Looks m := fun W ↦ Or.inl (h W)

theorem looks_getBucket {c : Call} {b : String}
    (hc : c = .lookBucket ∨ c = .lookObjects ∨ c = .lookModes) : Looks (getBucket c b) := by
  intro W
  rcases getBucket_cases c b W with ⟨-, h⟩ | ⟨B, -, h⟩ | ⟨B, x, -, hx, hstep, h⟩
  · exact Or.inl (by rw [h])
  · exact Or.inl (by rw [h])
  · exact Or.inr ⟨x, hx, by rw [IsLook, hstep]; exact hc, by rw [h]⟩

theorem Looks.attempt {ε' : Type} (h : Looks m) :
    Looks (Atomic.attempt m : Atomic ε' World (Except ε α)) := h

theorem Looks.bind (hm : Looks m) (hf : ∀ a, Looks (f a)) : Looks (m >>= f) := by
  intro W
  have hW := hm W
  rcases h : m W with ⟨e | a, W₁⟩
  · rw [h] at hW
    rw [Atomic.bind_of_error h]
    exact hW
  · rw [h] at hW
    rw [Atomic.bind_of_ok h]
    exact hW.trans (hf a W₁)

/-- A request that begins with lookups ends there, or goes on from what they have left. -/
theorem Looks.bind_cases (hm : Looks m) (W : World) :
    (∃ e W', Looked W W' ∧ (m >>= f) W = (.error e, W')) ∨
      ∃ a W', Looked W W' ∧ m W = (.ok a, W') ∧ (m >>= f) W = f a W' := by
  have hW := hm W
  rcases h : m W with ⟨e | a, W₁⟩
  · rw [h] at hW
    exact Or.inl ⟨e, W₁, hW, Atomic.bind_of_error h⟩
  · rw [h] at hW
    exact Or.inr ⟨a, W₁, hW, rfl, Atomic.bind_of_ok h⟩

end Lookups

section Handlers

variable {C : Gcs.Crates} {absent : String → Bool} {now : Time} {b : String}

theorem looks_azureObjectProtectionActive : Looks (azureObjectProtectionActive C absent now b) := by
  rw [azureObjectProtectionActive]
  split
  · exact looks_of_readOnly .pure
  · refine (looks_getBucket (Or.inr (Or.inl rfl))).attempt.bind fun r ↦ ?_
    split
    · exact looks_of_readOnly .pure
    · exact looks_of_readOnly .pure
    · exact looks_of_readOnly .pure

theorem looks_foreignModeActive {foreign : Bucket → Bool} :
    Looks (foreignModeActive C absent now b foreign) := by
  rw [foreignModeActive]
  refine looks_azureObjectProtectionActive.bind fun active ↦ ?_
  split
  · exact looks_of_readOnly .pure
  · refine (looks_getBucket (Or.inr (Or.inr rfl))).attempt.bind fun r ↦ ?_
    split
    · exact looks_of_readOnly .pure
    · exact looks_of_readOnly .pure

theorem looks_admitSuspension {enabled : Bool} : Looks (admitSuspension b enabled) := by
  rw [admitSuspension]
  split
  · exact looks_of_readOnly .pure
  · refine (looks_getBucket (Or.inl rfl)).attempt.bind fun r ↦ ?_
    split
    · exact looks_of_readOnly .refuseIf
    · exact looks_of_readOnly .pure

theorem looks_foreignProtectionActive {payload : Gcs.Json} :
    Looks (foreignProtectionActive C absent now b payload) := by
  rw [foreignProtectionActive]
  split
  · exact looks_foreignModeActive
  · exact looks_of_readOnly .pure

theorem looks_admitPatch {req : Gcs.Request} : Looks (admitPatch C absent now b req) := by
  rw [admitPatch]
  refine (looks_getBucket (Or.inl rfl)).attempt.bind fun r ↦ ?_
  refine (looks_of_readOnly .refuseIf).bind fun _ ↦ ?_
  refine (looks_of_readOnly .ofExcept).bind fun payload ↦ ?_
  refine looks_foreignProtectionActive.bind fun active ↦ ?_
  exact (looks_of_readOnly .refuseIf).bind fun _ ↦ looks_of_readOnly .pure

end Handlers

/-! ### Calls on a bucket that is there -/

/-- The failure comes when the bucket was created. -/
def Late (x : StorageFault) : Prop := x.step.call ≠ .create ∧ x.step.call ≠ .readCreated

/-- Calls that only give the bucket settings, when it is there. -/
def Settles {α : Type} (b : String) (m : StoreOp α) : Prop :=
  ∀ (W : World) (B : Bucket), W.state.buckets[b]? = some B →
    (∃ a V' s, m W = (.ok a, W.withState V') ∧ Wrote W.state b s V') ∨
      ∃ x V' s, W.fault = some x ∧ Late x ∧ m W = (.error storageFault, ⟨V', none, true⟩) ∧
        Wrote W.state b s V'

section Settling

variable {α β : Type} {b : String} {m : StoreOp α} {f : α → StoreOp β} {now : Time}

theorem settles_pure {a : α} : Settles b (pure a : StoreOp α) := by
  intro W B hB
  exact Or.inl ⟨a, W.state, ofBucket B, rfl, .self hB⟩

theorem Settles.bind (hm : Settles b m) (hf : ∀ a, Settles b (f a)) : Settles b (m >>= f) := by
  intro W B hB
  rcases hm W B hB with ⟨a, V₁, s, h, hV₁⟩ | ⟨x, V₁, s, hx, hlate, h, hV₁⟩
  · rw [Atomic.bind_of_ok h]
    obtain ⟨-, B₁, -, hB₁, -⟩ := hV₁.target
    rcases hf a (W.withState V₁) B₁ hB₁ with ⟨a', V₂, s', h', hV₂⟩ | ⟨x, V₂, s', hx, hlate, h', hV₂⟩
    · exact Or.inl ⟨a', V₂, s', h', hV₁.trans hV₂⟩
    · exact Or.inr ⟨x, V₂, s', hx, hlate, h', hV₁.trans hV₂⟩
  · exact Or.inr ⟨x, V₁, s, hx, hlate, Atomic.bind_of_error h, hV₁⟩

theorem settles_getBucket {c : Call} (hc : c ≠ .create ∧ c ≠ .readCreated) :
    Settles b (getBucket c b) := by
  intro W B hB
  rcases getBucket_cases c b W with ⟨hnone, -⟩ | ⟨B', hB', h⟩ | ⟨B', x, hB', hx, hstep, h⟩
  · rw [hB] at hnone
    cases hnone
  · exact Or.inl ⟨B', W.state, ofBucket B, h, .self hB⟩
  · exact Or.inr ⟨x, W.state, ofBucket B, hx, by rw [Late, hstep]; exact hc, h, .self hB⟩

theorem settles_setVersioning {c : Call} {v : VersioningState}
    (hc : c ≠ .create ∧ c ≠ .readCreated) : Settles b (setVersioning c now b v) := by
  intro W B hB
  rcases setVersioning_cases c now b v W with ⟨hnone, -⟩ | ⟨B', V', hB', hV', h⟩ |
    ⟨B', x, V', hB', hx, hstep, hV', h⟩
  · rw [hB] at hnone
    cases hnone
  · exact Or.inl ⟨(), V', _, h, hV'⟩
  · have hlate : Late x := by
      rw [Late, hstep]
      exact hc
    rcases hV' with ⟨-, rfl⟩ | ⟨-, hV'⟩
    · exact Or.inr ⟨x, _, ofBucket B, hx, hlate, h, .self hB⟩
    · exact Or.inr ⟨x, V', _, hx, hlate, h, hV'⟩

theorem settles_updateBucketMetadata {c : Call} {metadata : Table String String}
    (hc : c ≠ .create ∧ c ≠ .readCreated) :
    Settles b (updateBucketMetadata c now b metadata) := by
  intro W B hB
  rcases updateBucketMetadata_cases c now b metadata W with ⟨hnone, -⟩ | ⟨B', V', hB', hV', h⟩ |
    ⟨B', x, V', hB', hx, hstep, hV', h⟩
  · rw [hB] at hnone
    cases hnone
  · exact Or.inl ⟨(), V', _, h, hV'⟩
  · have hlate : Late x := by
      rw [Late, hstep]
      exact hc
    rcases hV' with ⟨-, rfl⟩ | ⟨-, -, hV'⟩
    · exact Or.inr ⟨x, _, ofBucket B, hx, hlate, h, .self hB⟩
    · exact Or.inr ⟨x, V', _, hx, hlate, h, hV'⟩

theorem settles_withBucketMetadata {update : Table String String → Table String String} :
    Settles b (withBucketMetadata now b update) := by
  rw [withBucketMetadata]
  exact Settles.bind (settles_getBucket (by decide)) fun B ↦
    settles_updateBucketMetadata (by decide)

theorem settles_enableObjectLock : Settles b (enableObjectLock now b) := by
  rw [enableObjectLock]
  exact Settles.bind (settles_setVersioning (by decide)) fun _ ↦ settles_withBucketMetadata

theorem settles_applyBucketDataProtection {payload : Gcs.Json} :
    Settles b (applyBucketDataProtection now b payload) := by
  rw [applyBucketDataProtection]
  refine Settles.bind (settles_getBucket (by decide)) fun B ↦ ?_
  split
  · exact Settles.bind (settles_setVersioning (by decide)) fun _ ↦
      settles_updateBucketMetadata (by decide)
  · exact settles_updateBucketMetadata (by decide)

theorem settles_configureContainer {req : Azure.Request} {versioning : Bool} {days : Option ℕ} :
    Settles b (configureContainer now b req versioning days) := by
  rw [configureContainer]
  split
  · split
    · exact Settles.bind (settles_setVersioning (by decide)) fun _ ↦ settles_withBucketMetadata
    · exact settles_withBucketMetadata
  · exact settles_pure

end Settling

/-! ### Requests that roll back -/

section RollBack

variable {α : Type} {V : Vault} {W : World} {b : String} {s : Settings} {m : StoreOp α} {now : Time}
  {answer : Error → Refused}

/-- **Calls that are rolled back leave the bucket that was made, or none.** -/
theorem orRollBack_cases (answer : Error → Refused) (hm : Settles b m)
    (hmade : Made V b s W.state) :
    (∃ a V' s', orRollBack b answer m W = (.ok a, W.withState V') ∧ Made V b s' V') ∨
      ∃ x V' e, W.fault = some x ∧ Late x ∧ orRollBack b answer m W = (.error e, ⟨V', none, true⟩) ∧
        Kept V V' := by
  obtain ⟨B, hB, -⟩ := hmade.target
  rw [orRollBack, Atomic.attempt_bind]
  rcases hm W B hB with ⟨a, V', s', h, hV'⟩ | ⟨x, V', s', hx, hlate, h, hV'⟩
  · rw [h]
    exact Or.inl ⟨a, V', s', rfl, hmade.wrote hV'⟩
  · rw [h]
    have hmade' := hmade.wrote hV'
    refine Or.inr ⟨x, _, answer storageFault, hx, hlate, ?_, hmade'.removed⟩
    exact congrArg (fun r : Except Error Unit × Vault ↦
      ((Except.error (answer storageFault), ⟨r.2, none, true⟩) : Except Refused α × World))
      hmade'.deleteBucket

/-- The creation of a namespace makes a bucket, fails without a trace, or leaves one that nobody
deletes. -/
theorem createNamespace_cases (now : Time) (b : String) (W : World) :
    createNamespace now b W = (.error .bucketAlreadyExists, W) ∨
    (∃ V', Made W.state b (none, ∅) V' ∧ createNamespace now b W = (.ok (), W.withState V')) ∨
    ∃ x V', W.fault = some x ∧ ¬ Late x ∧ (Kept W.state V' ↔ CreationUndone x) ∧
      createNamespace now b W = (.error storageFault, ⟨V', none, true⟩) := by
  rw [createNamespace]
  rcases createBucket_cases .create now b W with h | ⟨V', hV', h⟩ | ⟨x, V', hx, hcall, hkept, h⟩
  · exact Or.inl (Atomic.bind_of_error h)
  · refine Or.inr ?_
    rw [Atomic.bind_of_ok h]
    obtain ⟨B, hB, -⟩ := hV'.target
    rcases getBucket_cases .readCreated b (W.withState V') with ⟨hnone, -⟩ | ⟨B', -, h'⟩ |
      ⟨B', x, -, hx, hstep, h'⟩
    · rw [state_withState, hB] at hnone
      cases hnone
    · exact Or.inl ⟨V', hV', Atomic.bind_of_ok h'⟩
    · refine Or.inr ⟨x, V', hx, ?_, iff_of_false hV'.not_kept ?_, Atomic.bind_of_error h'⟩
      · rintro ⟨-, hread⟩
        exact hread (by rw [hstep])
      · rintro ⟨hread, -⟩
        exact hread (by rw [hstep])
  · have hread : x.step.call ≠ .readCreated := by
      rw [hcall]
      decide
    refine Or.inr (Or.inr ⟨x, V', hx, fun hlate ↦ hlate.1 hcall, hkept.trans ?_,
      Atomic.bind_of_error h⟩)
    exact ⟨fun h ↦ ⟨hread, fun _ ↦ h⟩, fun h ↦ h.2 hcall⟩

/-- A late failure is rolled back. -/
theorem Late.creationUndone {x : StorageFault} (h : Late x) : CreationUndone x :=
  ⟨h.2, fun hcall ↦ absurd hcall h.1⟩

end RollBack

/-! ### Requests that do not -/

section Precise

variable {now : Time} {b : String} {B : Bucket} {W : World} {v : Option VersioningState}
  {metadata : Table String String}

theorem ofBucket_eq_iff : ofBucket B = (v, metadata) ↔ B.versioning = v ∧ B.metadata = metadata :=
  Prod.mk.injEq .. ▸ Iff.rfl

/-- The update of the metadata behind what has been done to the bucket before. -/
theorem updateBucketMetadata_after {V : Vault} (hB : V.buckets[b]? = some B)
    (hV : Wrote V b (v, B.metadata) W.state) :
    (∃ V', Wrote V b (v, metadata) V' ∧
      updateBucketMetadata .writeMetadata now b metadata W = (.ok (), W.withState V')) ∨
    ∃ x V', W.fault = some x ∧ x.step.call = .writeMetadata ∧
      (Kept V V' ↔ B.versioning = v ∧ (¬ Unwritten x → B.metadata = metadata)) ∧
      updateBucketMetadata .writeMetadata now b metadata W =
        (.error storageFault, ⟨V', none, true⟩) := by
  obtain ⟨-, B₁, -, hB₁, hs, -⟩ := hV.target
  obtain ⟨hversioning, hmetadata⟩ := ofBucket_eq_iff.1 hs
  rcases updateBucketMetadata_cases .writeMetadata now b metadata W with ⟨hnone, -⟩ |
    ⟨B₂, V', hB₂, hV', h⟩ | ⟨B₂, x, V', hB₂, hx, hcall, hV', h⟩
  · rw [hB₁] at hnone
    cases hnone
  · obtain rfl : B₁ = B₂ := Option.some.inj (hB₁.symm.trans hB₂)
    rw [hversioning] at hV'
    exact Or.inl ⟨V', hV.trans hV', h⟩
  · obtain rfl : B₁ = B₂ := Option.some.inj (hB₁.symm.trans hB₂)
    refine Or.inr ⟨x, V', hx, hcall, ?_, h⟩
    rcases hV' with ⟨hunwritten, rfl⟩ | ⟨hwritten, hne, hV'⟩
    · rw [hV.kept_iff hB, ofBucket_eq_iff]
      simp [hunwritten]
    · rw [(hV.trans hV').kept_iff hB, ofBucket_eq_iff, hversioning]
      simp [hwritten]

/-- **The writes of `put_versioning`.** A failure leaves the settings as they were where
`StatusUndone` says so. -/
theorem putVersioningStatus_cases (now : Time) (b : String) (enabled : Bool) (W : World) :
    (putVersioningStatus now b enabled W = (.error .bucketNotFound, W)) ∨
    (∃ V', putVersioningStatus now b enabled W = (.ok (), W.withState V')) ∨
    ∃ B x V', W.state.buckets[b]? = some B ∧ W.fault = some x ∧
      (Kept W.state V' ↔ StatusUndone enabled B x) ∧
      putVersioningStatus now b enabled W = (.error storageFault, ⟨V', none, true⟩) := by
  rw [putVersioningStatus]
  rcases setVersioning_cases .switch now b (versioningState enabled) W with ⟨-, h⟩ |
    ⟨B, V₁, hB, hV₁, h⟩ | ⟨B, x, V', hB, hx, hcall, hV', h⟩
  · exact Or.inl (Atomic.bind_of_error h)
  · refine Or.inr ?_
    rw [Atomic.bind_of_ok h, withBucketMetadata]
    obtain ⟨-, B₁, -, hB₁, hs, -⟩ := hV₁.target
    rcases getBucket_cases .readMetadata b (W.withState V₁) with ⟨hnone, -⟩ | ⟨B₂, hB₂, h'⟩ |
      ⟨B₂, x, -, hx, hstep, h'⟩
    · rw [state_withState, hB₁] at hnone
      cases hnone
    · obtain rfl : B₁ = B₂ := Option.some.inj (hB₁.symm.trans hB₂)
      rw [Atomic.bind_of_ok h', (ofBucket_eq_iff.1 hs).2]
      rcases updateBucketMetadata_after (W := W.withState V₁) hB hV₁ with ⟨V₂, -, h''⟩ |
        ⟨x, V₂, hx, hcall, hkept, h''⟩
      · exact Or.inl ⟨V₂, h''⟩
      · refine Or.inr ⟨B, x, V₂, hB, hx, hkept.trans ?_, h''⟩
        rw [StatusUndone]
        simp [Switched, Written, hcall]
    · refine Or.inr ⟨B, x, V₁, hB, hx, ?_, Atomic.bind_of_error h'⟩
      rw [hV₁.kept_iff hB, ofBucket_eq_iff, StatusUndone]
      simp [Switched, Written, hstep]
  · refine Or.inr (Or.inr ⟨B, x, V', hB, hx, ?_, Atomic.bind_of_error h⟩)
    rcases hV' with ⟨hunmarked, rfl⟩ | ⟨hmarked, hV'⟩
    · rw [iff_true_left Kept.refl, StatusUndone]
      simp [Switched, Written, hcall, hunmarked]
    · rw [hV'.kept_iff hB, ofBucket_eq_iff, StatusUndone]
      simp [Switched, Written, hcall, hmarked]

/-- The versioning state of a bucket under the policies of a payload. -/
def policyVersioning (payload : Gcs.Json) (B : Bucket) : Option VersioningState :=
  if (Gcs.softDeleteSeconds payload).isSome then some .enabled else B.versioning

/-- **The policies of a payload are applied**, or a failure leaves the settings as they were where
`PoliciesUndone` says so. -/
theorem applyBucketDataProtection_cases (now : Time) (b : String) (payload : Gcs.Json) (W : World) :
    (applyBucketDataProtection now b payload W = (.error .bucketNotFound, W)) ∨
    (∃ B V', W.state.buckets[b]? = some B ∧
      Wrote W.state b (policyVersioning payload B, withPolicies payload B.metadata) V' ∧
      applyBucketDataProtection now b payload W = (.ok (), W.withState V')) ∨
    ∃ B x V', W.state.buckets[b]? = some B ∧ W.fault = some x ∧
      (Kept W.state V' ↔ PoliciesUndone payload B x) ∧
      applyBucketDataProtection now b payload W = (.error storageFault, ⟨V', none, true⟩) := by
  rw [applyBucketDataProtection]
  rcases getBucket_cases .readMetadata b W with ⟨-, h⟩ | ⟨B, hB, h⟩ | ⟨B, x, hB, hx, hstep, h⟩
  · exact Or.inl (Atomic.bind_of_error h)
  · refine Or.inr ?_
    rw [Atomic.bind_of_ok h]
    by_cases hsoft : (Gcs.softDeleteSeconds payload).isSome
    · rw [if_pos hsoft]
      have hpolicy : policyVersioning payload B = some .enabled := if_pos hsoft
      rcases setVersioning_cases .switch now b .enabled W with ⟨hnone, -⟩ |
        ⟨B', V₁, hB', hV₁, h'⟩ | ⟨B', x, V', hB', hx, hcall, hV', h'⟩
      · rw [hB] at hnone
        cases hnone
      · obtain rfl : B = B' := Option.some.inj (hB.symm.trans hB')
        rw [Atomic.bind_of_ok h']
        rcases updateBucketMetadata_after (W := W.withState V₁) hB hV₁ with ⟨V₂, hV₂, h''⟩ |
          ⟨x, V₂, hx, hcall, hkept, h''⟩
        · exact Or.inl ⟨B, V₂, hB, hpolicy ▸ hV₂, h''⟩
        · refine Or.inr ⟨B, x, V₂, hB, hx, hkept.trans ?_, h''⟩
          rw [PoliciesUndone]
          simp [Switched, Written, hcall, hsoft]
      · obtain rfl : B = B' := Option.some.inj (hB.symm.trans hB')
        refine Or.inr ⟨B, x, V', hB, hx, ?_, Atomic.bind_of_error h'⟩
        rcases hV' with ⟨hunmarked, rfl⟩ | ⟨hmarked, hV'⟩
        · rw [iff_true_left Kept.refl, PoliciesUndone]
          simp [Switched, Written, hcall, hunmarked]
        · rw [hV'.kept_iff hB, ofBucket_eq_iff, PoliciesUndone]
          simp [Switched, Written, hcall, hmarked, hsoft]
    · rw [if_neg hsoft]
      have hpolicy : policyVersioning payload B = B.versioning := if_neg hsoft
      rcases updateBucketMetadata_after (W := W) hB (.self hB) with ⟨V₂, hV₂, h''⟩ |
        ⟨x, V₂, hx, hcall, hkept, h''⟩
      · exact Or.inl ⟨B, V₂, hB, hpolicy ▸ hV₂, h''⟩
      · refine Or.inr ⟨B, x, V₂, hB, hx, hkept.trans ?_, h''⟩
        rw [PoliciesUndone]
        simp [Switched, Written, hcall, hsoft]
  · refine Or.inr (Or.inr ⟨B, x, W.state, hB, hx, iff_of_true Kept.refl ?_, Atomic.bind_of_error h⟩)
    rw [PoliciesUndone]
    simp [Switched, Written, hstep]

end Precise

/-! ### Requests -/

section Answers

variable {V : Vault} {x : StorageFault} {W W' : World} {p : Prop} {α : Type}
  {m : Handler Unit} {n : StoreOp Unit} {answer : Error → Refused}

/-- If the request is answered with an error because a step has failed, then everything is as it was
exactly where `p` holds. -/
def Answers (V : Vault) (p : Prop) (m : Handler Unit) (W : World) : Prop :=
  ∀ e W', m W = (.error e, W') → W'.failed = true → (Kept V W'.state ↔ p)

theorem answers_of_ok {a : Unit} (h : m W = (.ok a, W')) : Answers V p m W := by
  intro e W₁ h' _
  rw [h] at h'
  cases h'

theorem answers_of_error {e : Refused} (h : m W = (.error e, W'))
    (hkept : W'.failed = true → (Kept V W'.state ↔ p)) : Answers V p m W := by
  intro e' W₁ h' hfailed
  rw [h] at h'
  cases h'
  exact hkept hfailed

/-- Only what a request does matters. -/
theorem Answers.congr {m' : Handler Unit} {W₁ : World} (h : Answers V p m W) (heq : m' W₁ = m W) :
    Answers V p m' W₁ := by
  intro e W₂ h' hfailed
  exact h e W₂ (heq.symm.trans h') hfailed

theorem mapError_of_ok {a : Unit} (h : n W = (.ok a, W')) :
    Atomic.mapError answer n W = (.ok a, W') := by
  rw [Atomic.mapError, h]
  rfl

theorem mapError_of_error {e : Error} (h : n W = (.error e, W')) :
    Atomic.mapError answer n W = (.error (answer e), W') := by
  rw [Atomic.mapError, h]
  rfl

/-- A refusal that comes before anything is asked of the store. -/
theorem answers_refuse_bind {c : Prop} [Decidable c] {e : Refused} {f : Unit → Handler Unit}
    (h : ¬ c → Answers V p (f ()) ⟨V, some x, false⟩) :
    Answers V p (.refuseIf c e >>= f) ⟨V, some x, false⟩ := by
  by_cases hc : c
  · exact answers_of_error (Atomic.refuseIf_bind_of hc) fun hfailed ↦ by cases hfailed
  · exact (h hc).congr (Atomic.refuseIf_bind_of_not hc)

theorem answers_ofExcept_bind {r : Except Refused α} {f : α → Handler Unit}
    (h : ∀ a, r = .ok a → Answers V p (f a) ⟨V, some x, false⟩) :
    Answers V p (.ofExcept r >>= f) ⟨V, some x, false⟩ := by
  rcases hr : r with e | a
  · exact answers_of_error (Atomic.ofExcept_bind_of_error rfl) fun hfailed ↦ by cases hfailed
  · exact (h a hr).congr (Atomic.ofExcept_bind_of_ok rfl)

/-- A request that begins with lookups. Where one of them has failed, nothing can fail any more. -/
theorem Looks.answers_bind {l : Handler α} {f : α → Handler Unit} (hl : Looks l)
    (hlook : IsLook x → p) (hsound : ∀ a, l ⟨V, some x, false⟩ = (.ok a, ⟨V, some x, false⟩) →
      Answers V p (f a) ⟨V, some x, false⟩)
    (hcalm : ∀ a e W', f a ⟨V, none, true⟩ = (.error e, W') → Kept V W'.state) :
    Answers V p (l >>= f) ⟨V, some x, false⟩ := by
  rcases hl.bind_cases (f := f) ⟨V, some x, false⟩ with ⟨e, W', hW', h⟩ | ⟨a, W', hW', hl', h⟩
  · rcases hW' with rfl | ⟨x', hx', hlook', rfl⟩
    · exact answers_of_error h fun hfailed ↦ by cases hfailed
    · cases hx'
      exact answers_of_error h fun _ ↦ iff_of_true Kept.refl (hlook hlook')
  · rcases hW' with rfl | ⟨x', hx', hlook', rfl⟩
    · exact (hsound a hl').congr h
    · cases hx'
      intro e W'' h' _
      exact iff_of_true (hcalm a e W'' (h.symm.trans h')) (hlook hlook')

end Answers

section Requests

variable {C : Gcs.Crates} {absent : String → Bool} {now : Time} {V : Vault} {x : StorageFault}

theorem answers_s3CreateBucket (b : String) (objectLock : Option String) :
    Answers V (x.step.call = .create ∧ Uncreated x) (s3CreateBucket now b objectLock)
      ⟨V, some x, false⟩ := by
  rw [s3CreateBucket]
  refine answers_ofExcept_bind fun enabled _ ↦ ?_
  have hbody : Settles b (if enabled then enableObjectLock now b else return ()) := by
    split
    · exact settles_enableObjectLock
    · exact settles_pure
  rcases createBucket_cases .create now b ⟨V, some x, false⟩ with h | ⟨V', hV', h⟩ |
    ⟨x', V', hx', hcall, hkept, h⟩
  · exact answers_of_error (mapError_of_error (Atomic.bind_of_error h))
      fun hfailed ↦ by cases hfailed
  · obtain ⟨B, hB, -⟩ := hV'.target
    rcases hbody (withState ⟨V, some x, false⟩ V') B hB with ⟨a, V₂, s, h', -⟩ |
      ⟨x', V₂, s, hx', hlate, h', hV₂⟩
    · exact answers_of_ok (mapError_of_ok ((Atomic.bind_of_ok h).trans h'))
    · cases hx'
      refine answers_of_error (mapError_of_error ((Atomic.bind_of_ok h).trans h')) fun _ ↦ ?_
      exact iff_of_false (hV'.wrote hV₂).not_kept fun hcreate ↦ hlate.1 hcreate.1
  · cases hx'
    refine answers_of_error (mapError_of_error (Atomic.bind_of_error h)) fun _ ↦ ?_
    exact hkept.trans (and_iff_right hcall).symm

/-- The creation of a namespace, and what is rolled back behind it. -/
theorem answers_createNamespace {answer : Error → Refused} {b : String} {f : Unit → Handler Unit}
    (hf : ∀ V' s, Made V b s V' → Answers V (CreationUndone x) (f ()) ⟨V', some x, false⟩) :
    Answers V (CreationUndone x) (.mapError answer (createNamespace now b) >>= f)
      ⟨V, some x, false⟩ := by
  rcases createNamespace_cases now b ⟨V, some x, false⟩ with h | ⟨V', hV', h⟩ |
    ⟨x', V', hx', -, hkept, h⟩
  · exact answers_of_error (Atomic.bind_of_error (mapError_of_error h))
      fun hfailed ↦ by cases hfailed
  · exact (hf V' _ hV').congr (Atomic.bind_of_ok (mapError_of_ok h))
  · cases hx'
    exact answers_of_error (Atomic.bind_of_error (mapError_of_error h)) fun _ ↦ hkept

theorem answers_orRollBack {answer : Error → Refused} {b : String} {V' : Vault} {s : Settings}
    {n : StoreOp Unit} (hn : Settles b n) (hV' : Made V b s V') :
    Answers V (CreationUndone x) (orRollBack b answer n) ⟨V', some x, false⟩ := by
  rcases orRollBack_cases (W := ⟨V', some x, false⟩) answer hn hV' with
    ⟨a, V₂, s', h, -⟩ | ⟨x', V₂, e, hx', hlate, h, hkept⟩
  · exact answers_of_ok h
  · cases hx'
    exact answers_of_error h fun _ ↦ iff_of_true hkept hlate.creationUndone

theorem answers_orRollBack_bind {α : Type} {answer : Error → Refused} {b : String} {V' : Vault}
    {s : Settings} {n : StoreOp α} {f : α → Handler Unit} (hn : Settles b n) (hV' : Made V b s V')
    (hf : ∀ a V' s, Made V b s V' → Answers V (CreationUndone x) (f a) ⟨V', some x, false⟩) :
    Answers V (CreationUndone x) (orRollBack b answer n >>= f) ⟨V', some x, false⟩ := by
  rcases orRollBack_cases (W := ⟨V', some x, false⟩) answer hn hV' with
    ⟨a, V₂, s', h, hV₂⟩ | ⟨x', V₂, e, hx', hlate, h, hkept⟩
  · exact (hf a V₂ s' hV₂).congr (Atomic.bind_of_ok h)
  · cases hx'
    exact answers_of_error (Atomic.bind_of_error h) fun _ ↦ iff_of_true hkept hlate.creationUndone

theorem answers_createJsonBucket (req : Gcs.Request) :
    Answers V (CreationUndone x) (createJsonBucket C now req) ⟨V, some x, false⟩ := by
  rw [createJsonBucket]
  refine answers_ofExcept_bind fun ⟨payload, b⟩ _ ↦ ?_
  refine answers_createNamespace fun V₁ s₁ hV₁ ↦ ?_
  refine answers_orRollBack_bind settles_applyBucketDataProtection hV₁ fun _ V₂ s₂ hV₂ ↦ ?_
  refine answers_orRollBack_bind (settles_getBucket (by decide)) hV₂ fun _ V₃ s₃ _ ↦ ?_
  exact answers_of_ok rfl

theorem answers_createContainer (c : String) (req : Azure.Request) :
    Answers V (CreationUndone x) (createContainer now c req) ⟨V, some x, false⟩ := by
  rw [createContainer]
  refine answers_refuse_bind fun _ ↦ ?_
  refine answers_ofExcept_bind fun ⟨versioning, days⟩ _ ↦ ?_
  refine answers_createNamespace fun V₁ s₁ hV₁ ↦ ?_
  exact answers_orRollBack settles_configureContainer hV₁

theorem answers_ociCreateBucket (document : Except Refused BucketDocument) :
    Answers V (CreationUndone x) (ociCreateBucket now document) ⟨V, some x, false⟩ := by
  rw [ociCreateBucket]
  refine answers_ofExcept_bind fun document _ ↦ ?_
  refine answers_refuse_bind fun _ ↦ ?_
  refine answers_createNamespace fun V₁ s₁ hV₁ ↦ ?_
  exact answers_orRollBack (settles_updateBucketMetadata (by decide)) hV₁

theorem IsLook.statusUndone {enabled : Bool} {B : Bucket} (h : IsLook x) :
    StatusUndone enabled B x := by
  rcases h with h | h | h
  all_goals
    rw [StatusUndone]
    simp [Switched, Written, h]

theorem IsLook.policiesUndone {payload : Gcs.Json} {B : Bucket} (h : IsLook x) :
    PoliciesUndone payload B x := by
  rcases h with h | h | h
  all_goals
    rw [PoliciesUndone]
    simp [Switched, Written, h]

/-- Where nothing can fail any more, a request that only looks changes nothing. -/
theorem Looks.calm {α : Type} {l : Handler α} {f : α → Handler Unit} (hl : Looks l)
    (hf : ∀ a e W', f a ⟨V, none, true⟩ = (.error e, W') → Kept V W'.state) (e : Refused)
    (W' : World) (h : (l >>= f) ⟨V, none, true⟩ = (.error e, W')) : Kept V W'.state := by
  rcases hl.bind_cases (f := f) ⟨V, none, true⟩ with ⟨e₁, W₁, hW₁, h₁⟩ | ⟨a, W₁, hW₁, -, h₁⟩
  · rcases hW₁ with rfl | ⟨x', hx', -⟩
    · rw [h] at h₁
      cases h₁
      exact Kept.refl
    · cases hx'
  · rcases hW₁ with rfl | ⟨x', hx', -⟩
    · exact hf a e W' (h₁.symm.trans h)
    · cases hx'

theorem answers_putVersioning (b : String) (document : Except Refused Bool) :
    Answers V (∀ enabled B, document = .ok enabled → V.buckets[b]? = some B →
      StatusUndone enabled B x) (putVersioning C absent now b document) ⟨V, some x, false⟩ := by
  have hlook : IsLook x → ∀ enabled B, document = .ok enabled → V.buckets[b]? = some B →
      StatusUndone enabled B x := fun h _ _ _ _ ↦ h.statusUndone
  have hcalm : ∀ enabled e W', Atomic.mapError bucketWriteError (putVersioningStatus now b enabled)
      ⟨V, none, true⟩ = (.error e, W') → Kept V W'.state := by
    intro enabled e W' h
    rcases putVersioningStatus_cases now b enabled ⟨V, none, true⟩ with h' | ⟨V', h'⟩ |
      ⟨B, x', V', -, hx', -⟩
    · rw [mapError_of_error h'] at h
      cases h
      exact Kept.refl
    · rw [mapError_of_ok h'] at h
      cases h
    · cases hx'
  rw [putVersioning]
  refine answers_ofExcept_bind fun enabled henabled ↦ ?_
  refine looks_admitSuspension.answers_bind hlook (fun _ _ ↦ ?_) fun _ ↦
    looks_foreignModeActive.calm fun _ ↦ (looks_of_readOnly .refuseIf).calm fun _ ↦ hcalm enabled
  refine looks_foreignModeActive.answers_bind hlook (fun _ _ ↦ ?_) fun _ ↦
    (looks_of_readOnly .refuseIf).calm fun _ ↦ hcalm enabled
  refine answers_refuse_bind fun _ ↦ ?_
  rcases putVersioningStatus_cases now b enabled ⟨V, some x, false⟩ with h | ⟨V', h⟩ |
    ⟨B, x', V', hB, hx', hkept, h⟩
  · exact answers_of_error (mapError_of_error h) fun hfailed ↦ by cases hfailed
  · exact answers_of_ok (mapError_of_ok h)
  · cases hx'
    refine answers_of_error (mapError_of_error h) fun _ ↦ hkept.trans ⟨?_, fun hall ↦ ?_⟩
    · intro hundone enabled' B' henabled' hB'
      obtain rfl : enabled = enabled' := Except.ok.inj (henabled.symm.trans henabled')
      obtain rfl : B = B' := Option.some.inj (hB.symm.trans hB')
      exact hundone
    · exact hall enabled B henabled hB

/-- The payload of an update that is admitted is the one of its body. -/
theorem parseJson_of_admitPatch {b : String} {req : Gcs.Request} {payload : Gcs.Json} {W W' : World}
    (h : admitPatch C absent now b req W = (.ok payload, W')) :
    C.parseJson req.body = some payload := by
  rw [admitPatch, Atomic.attempt_bind] at h
  obtain ⟨-, h⟩ := Atomic.refuseIf_bind_ok.1 h
  obtain ⟨payload', hpayload, h⟩ := Atomic.ofExcept_bind_ok.1 h
  obtain ⟨active, W₁, -, h⟩ := Atomic.bind_ok.1 h
  obtain ⟨-, h⟩ := Atomic.refuseIf_bind_ok.1 h
  obtain ⟨rfl, -⟩ := Atomic.pure_ok.1 h
  rw [admitJsonPatch] at hpayload
  rcases hparse : C.parseJson req.body with - | parsed
  · rw [hparse] at hpayload
    cases hpayload
  · rw [hparse] at hpayload
    rcases hvalid : Gcs.validateBucketDataProtection req parsed with e | u
    · simp only [hvalid] at hpayload
      cases hpayload
    · simp only [hvalid] at hpayload
      cases hpayload
      rfl

theorem answers_patchJsonBucket (b : String) (req : Gcs.Request) :
    Answers V (∀ payload B, C.parseJson req.body = some payload → V.buckets[b]? = some B →
      PoliciesUndone payload B x) (patchJsonBucket C absent now b req) ⟨V, some x, false⟩ := by
  have hlook : IsLook x → ∀ payload B, C.parseJson req.body = some payload →
      V.buckets[b]? = some B → PoliciesUndone payload B x := fun h _ _ _ _ ↦ h.policiesUndone
  rw [patchJsonBucket]
  refine looks_admitPatch.answers_bind hlook (fun payload hadmit ↦ ?_) fun payload ↦ ?_
  · have hpayload := parseJson_of_admitPatch hadmit
    have hiff : ∀ B, V.buckets[b]? = some B → (PoliciesUndone payload B x ↔
        ∀ payload B, C.parseJson req.body = some payload → V.buckets[b]? = some B →
          PoliciesUndone payload B x) := by
      intro B hB
      constructor
      · intro hundone payload' B' hpayload' hB'
        obtain rfl : payload = payload' := Option.some.inj (hpayload.symm.trans hpayload')
        obtain rfl : B = B' := Option.some.inj (hB.symm.trans hB')
        exact hundone
      · exact fun hall ↦ hall payload B hpayload hB
    rcases applyBucketDataProtection_cases now b payload ⟨V, some x, false⟩ with h |
      ⟨B, V', hB, hV', h⟩ | ⟨B, x', V', hB, hx', hkept, h⟩
    · exact answers_of_error (Atomic.bind_of_error (mapError_of_error h))
        fun hfailed ↦ by cases hfailed
    · refine Answers.congr ?_ (Atomic.bind_of_ok (mapError_of_ok h))
      obtain ⟨-, B', -, hB', -⟩ := hV'.target
      rcases getBucket_cases .readBack b (withState ⟨V, some x, false⟩ V') with ⟨hnone, -⟩ |
        ⟨B₂, -, h'⟩ | ⟨B₂, x', -, hx', hstep, h'⟩
      · rw [state_withState, hB'] at hnone
        cases hnone
      · have hback : Atomic.mapError (jsonBucketError b) (getBucket .readBack b)
            (withState ⟨V, some x, false⟩ V') = (.ok B₂, withState ⟨V, some x, false⟩ V') := by
          rw [Atomic.mapError, h']
          rfl
        exact answers_of_ok (a := ()) (Atomic.bind_of_ok hback)
      · cases hx'
        have hback : Atomic.mapError (jsonBucketError b) (getBucket .readBack b)
            (withState ⟨V, some x, false⟩ V') =
              (.error (jsonBucketError b storageFault), ⟨V', none, true⟩) := by
          rw [Atomic.mapError, h']
          rfl
        refine answers_of_error (Atomic.bind_of_error hback) fun _ ↦ Iff.trans ?_ (hiff B hB)
        rw [hV'.kept_iff hB, ofBucket_eq_iff, PoliciesUndone, policyVersioning]
        by_cases hsoft : (Gcs.softDeleteSeconds payload).isSome
        · simp [Switched, Written, hstep, hsoft]
        · simp [Switched, Written, hstep, hsoft]
    · cases hx'
      exact answers_of_error (Atomic.bind_of_error (mapError_of_error h)) fun _ ↦
        hkept.trans (hiff B hB)
  · intro e W' h
    rcases applyBucketDataProtection_cases now b payload ⟨V, none, true⟩ with h' |
      ⟨B, V', hB, hV', h'⟩ | ⟨B, x', V', hB, hx', -⟩
    · rw [Atomic.bind_of_error (mapError_of_error h')] at h
      cases h
      exact Kept.refl
    · rw [Atomic.bind_of_ok (mapError_of_ok h')] at h
      obtain ⟨-, B', -, hB', -⟩ := hV'.target
      rcases getBucket_cases .readBack b (withState ⟨V, none, true⟩ V') with ⟨hnone, -⟩ |
        ⟨B₂, -, h''⟩ | ⟨B₂, x', -, hx', -⟩
      · rw [state_withState, hB'] at hnone
        cases hnone
      · have hback : Atomic.mapError (jsonBucketError b) (getBucket .readBack b)
            (withState ⟨V, none, true⟩ V') = (.ok B₂, withState ⟨V, none, true⟩ V') := by
          rw [Atomic.mapError, h'']
          rfl
        rw [Atomic.bind_of_ok hback] at h
        cases h
      · cases hx'
    · cases hx'

variable (C absent now) in
/-- **A request that fails because a step of the store has failed leaves the buckets, their
versioning states and their metadata as they were exactly where `Undone` says so.** -/
theorem activation_undone_iff {R : Request} {e : Refused} {W : World}
    (hrun : activate C absent now R ⟨V, some x, false⟩ = (.error e, W))
    (hfailed : W.failed = true) :
    Kept V W.state ↔ Undone C V R x := by
  cases R with
  | s3CreateBucket b objectLock => exact answers_s3CreateBucket b objectLock e W hrun hfailed
  | s3PutVersioning b document => exact answers_putVersioning b document e W hrun hfailed
  | gcsCreateBucket req => exact answers_createJsonBucket req e W hrun hfailed
  | gcsPatchBucket b req => exact answers_patchJsonBucket b req e W hrun hfailed
  | azureCreateContainer c req => exact answers_createContainer c req e W hrun hfailed
  | ociCreateBucket document => exact answers_ociCreateBucket document e W hrun hfailed

/-- The metadata of a bucket cannot be written when its versioning has been enabled. -/
def metadataFault : StorageFault := ⟨⟨.writeMetadata, .metadata⟩, false⟩

/-- A bucket without settings. -/
def plainBucket : Vault := ⟨(∅ : Table String Bucket).set "box" (some {}), 0⟩

/-- Versioning whose marker could not be written is as it was. -/
theorem kept_unmarked : Kept plainBucket
      (activate Gcs.Crates.simple (fun _ ↦ true) 1 (.s3PutVersioning "box" (.ok true))
        ⟨plainBucket, some ⟨⟨.switch, .marker⟩, false⟩, false⟩).2.state ↔
    Undone Gcs.Crates.simple plainBucket (.s3PutVersioning "box" (.ok true))
      ⟨⟨.switch, .marker⟩, false⟩ :=
  activation_undone_iff Gcs.Crates.simple (fun _ ↦ true) 1
    (e := .s3 ⟨500, "InternalError", "internal error"⟩) rfl rfl

/-- **Versioning that S3 could not finish to enable stays enabled**, and nothing says whose it is.
-/
theorem versioning_left_enabled :
    ¬ ∀ (C : Gcs.Crates) (absent : String → Bool) (now : Time) (V : Vault) (x : StorageFault)
      (R : Request) (e : Refused) (W : World),
      activate C absent now R ⟨V, some x, false⟩ = (.error e, W) → W.failed = true →
        Kept V W.state := by
  intro h
  have hkept := h Gcs.Crates.simple (fun _ ↦ true) 1 plainBucket metadataFault
    (.s3PutVersioning "box" (.ok true)) (.s3 ⟨500, "InternalError", "internal error"⟩)
    (activate Gcs.Crates.simple (fun _ ↦ true) 1 (.s3PutVersioning "box" (.ok true))
      ⟨plainBucket, some metadataFault, false⟩).2 rfl rfl "box"
  revert hkept
  decide

end Requests

end Sqrzl.Activation
