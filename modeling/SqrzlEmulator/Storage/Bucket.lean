import SqrzlEmulator.Prog.Lock
import SqrzlEmulator.Storage.LockFreeIndex
import SqrzlEmulator.Storage.Publication

/-!
# Buckets and their objects

The state of the store (`FilesystemStorage` and its root directory), and the operations of
`storage/filesystem.rs` on the objects of a bucket: writes, conditional writes, deletes and reads,
with the history of versions that they keep.

## The state

`Store` is everything: the root directory, the index, the uploads cache, the two registries of
mutexes, and the files that callers have spooled. An operation on a bucket sees of it only what
belongs to that bucket, `BucketState`, which is a part of the store (`Store.bucket`). A function of
the source whose name ends in `_locked` is a program of the bucket; the public operation runs it
under the mutex of its key.

What a program draws from `Uuid::new_v4` and keeps (the identity of a version or of an upload) comes
from a counter of the store, so that it is never drawn again; names of temporaries and stages may be
anything. Clocks return any time.
-/

namespace Sqrzl

open Prog

/-! ### The directory of a bucket -/

/-- `.bucket.identity.json` -/
structure BucketIdentity where
  createdAt : Time
  modifiedAt : Time
  deriving DecidableEq

/-- What `.versioning-enabled` says. -/
inductive VersioningState where
  | enabled
  | suspended
  deriving DecidableEq

/-- The documents that are kept beside the objects of a bucket. The lifecycle configuration and the
policy are kept as their text. -/
inductive ControlDoc where
  | identity (identity : BucketIdentity)
  | metadata (metadata : Table String String)
  | versioning (state : VersioningState)
  | lifecycle (document : String)
  | policy (document : String)
  | acl (acl : Acl)

/-- The directory of a multipart upload: `upload.json` and its parts. Temporaries in it are never
looked at by any program, and are left out. -/
structure UploadDir where
  record : Option MultipartUpload := none
  parts : Table ℕ Bytes := ∅

/-- `.multipart/` -/
structure MultipartRoot where
  uploads : Table String UploadDir := ∅
  /-- The `.retired-upload-` directories. -/
  retired : Table String UploadDir := ∅
  /-- `uploads.json` -/
  legacy : Option (Table String MultipartUpload) := none

/-- The directory of a bucket. -/
structure BucketDir where
  /-- `.bucket.name` -/
  name : Option String := none
  /-- The temporaries of `.bucket.name`. -/
  nameTemps : Table String String := ∅
  identity : Option BucketIdentity := none
  metadata : Option (Table String String) := none
  versioning : Option VersioningState := none
  lifecycle : Option String := none
  policy : Option String := none
  acl : Option Acl := none
  /-- The temporaries of the other documents; `none` is an empty file. -/
  temps : Table String (Option ControlDoc) := ∅
  multipart : Option MultipartRoot := none
  /-- `.spool/` -/
  spool : Option (Table String Bytes) := none
  /-- The directories of the objects, by `compute_object_id`. -/
  objects : Table String ObjectDir := ∅

instance : Inhabited BucketDir := ⟨{}⟩

/-- The directories of its objects. -/
@[simps] def BucketDir.objectsLens : Lens BucketDir (Table String ObjectDir) where
  get d := d.objects
  set t d := { d with objects := t }
  get_set _ _ := rfl
  set_set _ _ _ := rfl

/-! ### The state of a bucket, and the store -/

/-- What the store holds for one bucket. -/
structure BucketState where
  dir : Option BucketDir := none
  index : Option BucketIndex := none
  uploads : Option (Table String MultipartUpload) := none
  azureProtectionPossible : Option Bool := none
  /-- Whether the uploads cache is locked; there is one lock for all buckets. -/
  cacheLocked : Bool := false
  /-- How many identities have been drawn. -/
  drawn : ℕ := 0
  /-- The files that callers have spooled, by their path. -/
  payloads : Table String Bytes := ∅

/-- `FilesystemStorage`, and the root directory. -/
structure Store where
  root : Table String BucketDir := ∅
  index : LockFreeIndex := ∅
  uploadsCache : Table String (Table String MultipartUpload) := ∅
  azureProtectionPossible : Table String Bool := ∅
  objectLocks : Registry String := {}
  bucketLocks : Registry String := {}
  cacheLocked : Bool := false
  drawn : ℕ := 0
  payloads : Table String Bytes := ∅

namespace BucketState

/-- The directory of the bucket. -/
@[simps] def dirLens : Lens BucketState (Option BucketDir) where
  get s := s.dir
  set d s := { s with dir := d }
  get_set _ _ := rfl
  set_set _ _ _ := rfl

/-- The directory of an object. -/
def objectLens (id : String) : Lens BucketState (Option ObjectDir) :=
  ((dirLens.comp .existing).comp BucketDir.objectsLens).comp (Table.at id)

/-- `versioning_enabled` -/
def versioningEnabled (s : BucketState) : Bool :=
  (s.dir.bind (·.versioning)).any (· ≠ .suspended)

/-- `versioning_suspended` -/
def versioningSuspended (s : BucketState) : Bool :=
  s.dir.bind (·.versioning) = some .suspended

/-- `LockFreeIndex::insert` -/
def insertKey (key : Text) (s : BucketState) : BucketState :=
  { s with index := some ((s.index.getD .new).insert key) }

/-- `LockFreeIndex::remove` -/
def removeKey (key : Text) (s : BucketState) : BucketState :=
  { s with index := s.index.map (·.remove key) }

end BucketState

namespace Store

/-- The locks of the objects. -/
@[simps] def objectLocksLens : Lens Store (Registry String) where
  get s := s.objectLocks
  set r s := { s with objectLocks := r }
  get_set _ _ := rfl
  set_set _ _ _ := rfl

/-- What the store holds for a bucket. -/
@[simps] def bucket (E : Env) (b : String) : Lens Store BucketState where
  get s :=
    { dir := s.root[E.bucketDirName b]?
      index := s.index[b]?
      uploads := s.uploadsCache[b]?
      azureProtectionPossible := s.azureProtectionPossible[b]?
      cacheLocked := s.cacheLocked
      drawn := s.drawn
      payloads := s.payloads }
  set x s :=
    { s with
      root := s.root.set (E.bucketDirName b) x.dir
      index := s.index.set b x.index
      uploadsCache := s.uploadsCache.set b x.uploads
      azureProtectionPossible := s.azureProtectionPossible.set b x.azureProtectionPossible
      cacheLocked := x.cacheLocked
      drawn := x.drawn
      payloads := x.payloads }
  get_set x s := by simp
  set_set x y s := by simp

end Store

/-! ### Reading the current object -/

section Objects

variable (E : Env) (b : String)

/-- `object_id_dir`: the directory of a key. -/
def objectIdDir (key : Text) : Lens BucketState (Option ObjectDir) :=
  BucketState.objectLens (E.computeObjectId b key)

/-- The body of the current object. -/
def objectBlob (key : Text) (s : BucketState) : Option Bytes :=
  ((objectIdDir E b key).get s).bind (·.files.pair.blob)

/-- The metadata of the current object. -/
def objectMetadata (key : Text) (s : BucketState) : Option Object :=
  ((objectIdDir E b key).get s).bind (·.files.pair.metadata)

/-- `read_object_metadata_locked` -/
def readObjectMetadataLocked (key : Text) : Op BucketState Object := do
  recoverAt E (objectDirs E) (objectIdDir E b key)
  if ← read fun s ↦ (objectBlob E b key s).isNone then
    .fail .keyNotFound
  sysRead (.internalError "Failed to read metadata") (objectMetadata E b key)

/-- `read_object_locked` -/
def readObjectLocked (key : Text) : Op BucketState Object := do
  recoverAt E (objectDirs E) (objectIdDir E b key)
  if ← read fun s ↦ (objectBlob E b key s).isNone then
    .fail .keyNotFound
  let object ← sysRead (.internalError "Failed to read metadata") (objectMetadata E b key)
  let data ← sysRead (.internalError "Failed to read object") (objectBlob E b key)
  return { object with data := data }

/-- The last match of `object_condition_matches`, on what the metadata read returned. -/
def ObjectCondition.matches : ObjectCondition → Except Error Object → Except Error Bool
  | .missing, .error .keyNotFound => .ok true
  | .missingOrEtagNotIn _, .error .keyNotFound => .ok true
  | .missing, .ok _ => .ok false
  | _, .error .keyNotFound => .ok false
  | .etag expected, .ok object => .ok (object.etag = expected)
  | .etagIn expected, .ok object => .ok (expected.any (· = object.etag))
  | .etagNotIn rejected, .ok object => .ok (!rejected.any (· = object.etag))
  | .missingOrEtagNotIn rejected, .ok object => .ok (!rejected.any (· = object.etag))
  | .metadata key value, .ok object => .ok (object.metadata[key]? = some value)
  | .metadataNot key value, .ok object => .ok (object.metadata[key]? ≠ some value)
  | .all _, _ => .ok true
  | _, .error e => .error e

mutual

/-- `object_condition_matches`: each member of a conjunction reads the object again. -/
def objectConditionMatches (key : Text) : ObjectCondition → Op BucketState Bool
  | .all conditions => allConditionsMatch key conditions
  | condition => do
    let outcome ← attempt (readObjectMetadataLocked E b key)
    ofExcept (condition.matches outcome)

/-- The loop of `object_condition_matches` over a conjunction. -/
def allConditionsMatch (key : Text) : List ObjectCondition → Op BucketState Bool
  | [] => .ret true
  | condition :: conditions => do
    if ← objectConditionMatches key condition then
      allConditionsMatch key conditions
    else
      return false

end

/-! ### Writing and deleting the current object -/

/-- `admit_azure_protection` -/
def admitAzureProtection (o : Object) : Op BucketState Unit :=
  if o.hasAzureProtectionMetadata then
    modify fun s ↦ { s with azureProtectionPossible := some true }
  else
    .ret ()

/-- `Uuid::new_v4`, for an identity that is kept. -/
def newIdentity : Op BucketState String :=
  act none (fun s ↦ { s with drawn := s.drawn + 1 }) fun s ↦ E.uuid s.drawn

/-- The directory of a bucket, created where it is missing. -/
def createBucketDirectory : Op BucketState Unit :=
  createDirectoryDurable BucketState.dirLens (.ret ())

/-- What `put_object_locked_with_payload` and `delete_object_locked` do in a bucket with versioning
before they replace the current object: keep it as a version, unless its identity is `null` and
versioning is suspended. -/
def snapshotCurrent (key : Text) (versioningEnabled : Bool) : Op BucketState Unit := do
  match ← attempt (readObjectMetadataLocked E b key) with
  | .ok current =>
    let id := current.versionId.getD "null"
    if versioningEnabled || id ≠ "null" then
      writeVersionSnapshot E (objectIdDir E b key) createBucketDirectory id current
  | .error .keyNotFound => .ret ()
  | .error e => .fail e

/-- The identity of a new version. -/
def newVersionId (enabled suspended : Bool) : Op BucketState (Option String) :=
  if suspended then
    .ret (some "null")
  else if enabled then
    some <$> newIdentity E
  else
    .ret none

/-- Where the bytes of a new object are. -/
inductive BodySource where
  /-- In the object. -/
  | inMemory
  /-- In a file that the caller has spooled. -/
  | spooled (path : String)
  /-- In a file of `.spool/`. -/
  | scratch (name : String)

/-- The payload to be published. -/
def BodySource.payload : BodySource → Payload BucketState
  | .inMemory => .inMemory
  | .spooled path => .spooled fun s ↦ s.payloads[path]?.map fun data ↦
      (data, { s with payloads := s.payloads.set path none })
  | .scratch name => .spooled fun s ↦ s.dir.bind fun d ↦ d.spool.bind fun files ↦
      files[name]?.map fun data ↦
        (data, { s with dir := some { d with spool := some (files.set name none) } })

/-- `put_object_locked_with_payload` -/
def putObjectLockedWithPayload (key : Text) (object : Object) (source : BodySource) :
    Op BucketState Unit := do
  if ← read fun s ↦ s.dir.isNone then
    .fail .bucketNotFound
  admitAzureProtection object
  let enabled ← read BucketState.versioningEnabled
  let suspended ← read BucketState.versioningSuspended
  if enabled || suspended then
    snapshotCurrent E b key enabled
  let id ← newVersionId E enabled suspended
  let outcome ← attempt <|
    publishPair E (objectDirs E) (objectIdDir E b key) createBucketDirectory (object.withVersionId id)
      source.payload
  -- An ambiguous commit remains visible to listings.
  if outcome.isOk || (← read fun s ↦
      (((objectIdDir E b key).get s).bind (·.files.journal)).isSome || (objectBlob E b key s).isSome)
      then
    modify (BucketState.insertKey key)
  ofExcept outcome

/-- `put_object_locked` -/
def putObjectLocked (key : Text) (object : Object) : Op BucketState Unit :=
  putObjectLockedWithPayload E b key object .inMemory

/-- The delete marker that `delete_object_locked` writes at the time `now`. -/
def deleteMarker (now : Time) (key : Text) (id : String) : Object :=
  { Object.new E now key [] "application/x-sqrzl-delete-marker" with
    versionId := some id
    providerMetadata := (∅ : Table String String).set "s3_delete_marker" (some "true") }

/-- The identity of a new delete marker. -/
def newMarkerId (suspended : Bool) : Op BucketState String :=
  if suspended then .ret "null" else newIdentity E

/-- The part of `delete_object_locked` for a bucket with versioning. -/
def leaveDeleteMarker (key : Text) (enabled suspended : Bool) : Op BucketState Unit := do
  snapshotCurrent E b key enabled
  let id ← newMarkerId E suspended
  .choose fun now ↦
    changeHistory E (objectIdDir E b key) none (if suspended then ["null"] else [])
      (some (deleteMarker E now key id)) true

/-- The part of `delete_object_locked` for a bucket without versioning. -/
def removeUnversioned (key : Text) : Op BucketState Unit := do
  let _ ← readObjectMetadataLocked E b key
  changeHistory E (objectIdDir E b key) none [] none true
  removeObjectDir "Failed to remove retired object directory" (objectIdDir E b key)

/-- `delete_object_locked` -/
def deleteObjectLocked (key : Text) : Op BucketState Unit := do
  let enabled ← read BucketState.versioningEnabled
  let suspended ← read BucketState.versioningSuspended
  if enabled || suspended then
    if ← read fun s ↦ s.dir.isNone then
      .fail .bucketNotFound
    leaveDeleteMarker E b key enabled suspended
  else
    removeUnversioned E b key
  modify (BucketState.removeKey key)

/-- The conditional operations: run `mutation` when the condition holds. -/
def mutateIf (key : Text) (condition : ObjectCondition) (mutation : Op BucketState Unit) :
    Op BucketState Bool := do
  if ← objectConditionMatches E b key condition then
    mutation
    return true
  else
    return false

/-! ### Replacing metadata in place -/

/-- What the operations that rewrite `object.meta.json` do: recover the object, read its metadata,
and write what `update` makes of it, if it makes anything. The source looks for the metadata file
and not for the body. -/
def rewriteMetadata {α : Type} (key : Text) (missing : Op BucketState α)
    (update : Object → Op BucketState (Option Object × α)) : Op BucketState α := do
  recoverAt E (objectDirs E) (objectIdDir E b key)
  if ← read fun s ↦ (objectMetadata E b key s).isNone then
    missing
  else
    let current ← sysRead (.internalError "Failed to read metadata") (objectMetadata E b key)
    let (updated, a) ← update current
    match updated with
    | some object => writeObjectMetadata E (objectIdDir E b key) object
    | none => .ret ()
    return a

/-- `update_object_storage_class` -/
def updateObjectStorageClassLocked (key : Text) (storageClass : String) : Op BucketState Unit :=
  rewriteMetadata E b key (.fail .keyNotFound) fun o ↦
    .ret (some { o with storageClass := storageClass }, ())

/-- `put_object_acl` -/
def putObjectAclLocked (key : Text) (acl : Acl) : Op BucketState Unit :=
  rewriteMetadata E b key (.fail .keyNotFound) fun o ↦ .ret (some { o with acl := some acl }, ())

/-- `put_object_tags` -/
def putObjectTagsLocked (key : Text) (tags : Table String String) : Op BucketState Unit :=
  rewriteMetadata E b key (.fail .keyNotFound) fun o ↦ .ret (some { o with tags := tags }, ())

/-- `delete_object_tags` -/
def deleteObjectTagsLocked (key : Text) : Op BucketState Unit :=
  rewriteMetadata E b key (.fail .keyNotFound) fun o ↦ .ret (some { o with tags := ∅ }, ())

/-- `replace_object_metadata_if_unchanged` -/
def replaceObjectMetadataIfUnchangedLocked (key : Text) (observed updated : Object) :
    Op BucketState Bool :=
  rewriteMetadata E b key (.ret false) fun current ↦
    if current.etag ≠ observed.etag || current.lastModified ≠ observed.lastModified ||
        current.versionId ≠ observed.versionId || current.contentType ≠ observed.contentType ||
        current.metadata ≠ observed.metadata ||
        current.providerMetadata ≠ observed.providerMetadata then
      .ret (none, false)
    else do
      let current := { current with
        contentType := updated.contentType
        metadata := updated.metadata
        providerMetadata := updated.providerMetadata }
      admitAzureProtection current
      return (some current, true)

end Objects

/-! ### The public operations -/

section Public

variable (E : Env) (b : String)

/-- Run a program of the bucket under the mutex of one of its keys (`object_lock`). -/
def onObject {α : Type} (key : Text) (p : Op BucketState α) : Op Store α :=
  withLock Store.objectLocksLens (b ++ "/" ++ E.computeObjectId b key) (zoom (Store.bucket E b) p)

/-- `put_object` -/
def putObject (key : Text) (object : Object) : Op Store Unit :=
  onObject E b key (putObjectLocked E b key object)

/-- `put_object_streamed` -/
def putObjectStreamed (key : Text) (object : Object) (path : String) : Op Store Unit :=
  onObject E b key (putObjectLockedWithPayload E b key object (.spooled path))

/-- `put_object_if` -/
def putObjectIf (key : Text) (object : Object) (condition : ObjectCondition) : Op Store Bool :=
  onObject E b key (mutateIf E b key condition (putObjectLocked E b key object))

/-- `put_object_streamed_if` -/
def putObjectStreamedIf (key : Text) (object : Object) (path : String)
    (condition : ObjectCondition) : Op Store Bool :=
  onObject E b key <| mutateIf E b key condition <|
    putObjectLockedWithPayload E b key object (.spooled path)

/-- `delete_object` -/
def deleteObject (key : Text) : Op Store Unit :=
  onObject E b key (deleteObjectLocked E b key)

/-- `delete_object_if` -/
def deleteObjectIf (key : Text) (condition : ObjectCondition) : Op Store Bool :=
  onObject E b key (mutateIf E b key condition (deleteObjectLocked E b key))

/-- `get_object_metadata` -/
def getObjectMetadata (key : Text) : Op Store Object :=
  onObject E b key (readObjectMetadataLocked E b key)

/-- `update_object_storage_class` -/
def updateObjectStorageClass (key : Text) (storageClass : String) : Op Store Unit :=
  onObject E b key (updateObjectStorageClassLocked E b key storageClass)

/-- `put_object_acl` -/
def putObjectAcl (key : Text) (acl : Acl) : Op Store Unit :=
  onObject E b key (putObjectAclLocked E b key acl)

/-- `put_object_tags` -/
def putObjectTags (key : Text) (tags : Table String String) : Op Store Unit :=
  onObject E b key (putObjectTagsLocked E b key tags)

/-- `delete_object_tags` -/
def deleteObjectTags (key : Text) : Op Store Unit :=
  onObject E b key (deleteObjectTagsLocked E b key)

/-- `replace_object_metadata_if_unchanged` -/
def replaceObjectMetadataIfUnchanged (key : Text) (observed updated : Object) : Op Store Bool :=
  onObject E b key (replaceObjectMetadataIfUnchangedLocked E b key observed updated)

end Public

end Sqrzl
