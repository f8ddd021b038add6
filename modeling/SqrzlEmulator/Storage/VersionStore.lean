import Mathlib.Data.List.Destutter
import SqrzlEmulator.Storage.Bucket

/-!
# Versions of objects

The operations of `storage/filesystem.rs` on versions: reading, listing and deleting them, and
turning versioning on and off for a bucket.

Deleting a version may **promote** another one: when the current object is deleted, or when there is
none, the latest of the remaining versions becomes current again, unless it is a delete marker.
-/

namespace Sqrzl

open Prog

section Versions

variable (E : Env) (b : String)

/-- `version_dir` -/
def versionIdDir (key : Text) (id : String) : Lens BucketState (Option Directory) :=
  versionLens (objectIdDir E b key) id

/-- The body of a version. -/
def versionBlob (key : Text) (id : String) (s : BucketState) : Option Bytes :=
  ((versionIdDir E b key id).get s).bind (·.pair.blob)

/-- The metadata of a version. -/
def versionMetadata (key : Text) (id : String) (s : BucketState) : Option Object :=
  ((versionIdDir E b key id).get s).bind (·.pair.metadata)

/-- `read_object_version_locked` -/
def readObjectVersionLocked (key : Text) (id : String) : Op BucketState Object := do
  if ← read fun s ↦ s.dir.isNone then
    .fail .bucketNotFound
  if !validVersionId id then
    .fail .noSuchVersion
  recoverAt E (objectDirs E) (objectIdDir E b key)
  recoverAt E versionDirs (versionIdDir E b key id)
  if ← read fun s ↦ (versionBlob E b key id s).isNone then
    match ← attempt (readObjectLocked E b key) with
    | .ok current =>
      if current.versionId = some id then
        return current
      else
        .fail .noSuchVersion
    | .error .keyNotFound => .fail .noSuchVersion
    | .error e => .fail e
  else
    let object ← sysRead (.internalError "Failed to read metadata") (versionMetadata E b key id)
    let data ← sysRead (.internalError "Failed to read version") (versionBlob E b key id)
    return { object with data := data, versionId := some id }

/-- `list_object_versions_for_key_locked` -/
def listObjectVersionsForKeyLocked (key : Text) : Op BucketState (List Object) := do
  if ← read fun s ↦ s.dir.isNone then
    .fail .bucketNotFound
  recoverAt E (objectDirs E) (objectIdDir E b key)
  if ← read fun s ↦ ((objectIdDir E b key).get s).isNone then
    return []
  else
    let current ← read (objectMetadata E b key)
    let ids ← read fun s ↦ ((((objectIdDir E b key).get s).bind (·.versions)).getD ∅).keys
    let ids ← shuffled ids
    let versions ← foldEach ids
      (current.filter fun o ↦ o.key = key && o.versionId.isSome).toList fun versions id ↦ do
        recoverAt E versionDirs (versionIdDir E b key id)
        let object ← read (versionMetadata E b key id)
        return versions ++ (object.filter (·.key = key)).toList
    let sorted := versions.mergeSort fun l r ↦ (compare l.versionId r.versionId).isLE
    return sorted.destutter fun l r ↦ l.versionId ≠ r.versionId

/-- The latest of the versions: `max_by` on the time of modification and the identity. -/
def latestVersion (versions : List Object) : Option Object :=
  versions.foldl (fun latest o ↦ match latest with
    | none => some o
    | some l =>
      if (compare l.lastModified o.lastModified).then (compare l.versionId o.versionId) = .gt then
        some l
      else
        some o) none

/-- The last part of `delete_object_version`: remove the version and promote another one. -/
def replaceVersion (key : Text) (id : String) (promoted : Option Object) (clearCurrent : Bool) :
    Op BucketState Unit :=
  match promoted with
  | some object =>
    match object.versionId with
    | none => .fail (.internalError "Historical object is missing version identity")
    | some id' => do
      admitAzureProtection object
      changeHistory E (objectIdDir E b key) (some (object, versionBlob E b key id')) [id, id'] none
        false
  | none => changeHistory E (objectIdDir E b key) none [id] none clearCurrent

/-- The end of `delete_object_version`: the index, and the directory if nothing is left in it. -/
def indexAfterDelete (key : Text) : Op BucketState Unit := do
  if ← read fun s ↦ (objectBlob E b key s).isSome then
    modify (BucketState.insertKey key)
  else
    modify (BucketState.removeKey key)
    if ← read fun s ↦ ((((objectIdDir E b key).get s).bind (·.versions)).getD ∅).isEmpty then
      removeObjectDir "" (objectIdDir E b key)

/-- `delete_object_version`, once the current version has been read. -/
def deleteVersionBeside (key : Text) (id : String) (current : Option Object) : Op BucketState Unit := do
  let historicalExists ← read fun s ↦ (versionBlob E b key id s).isSome
  let deletingCurrent := current.any (·.versionId = some id)
  if !historicalExists && !deletingCurrent then
    .fail .noSuchVersion
  let latest ← if deletingCurrent || current.isNone then do
      let versions ← listObjectVersionsForKeyLocked E b key
      .ret (latestVersion (versions.filter (·.versionId ≠ some id)))
    else
      .ret none
  replaceVersion E b key id (latest.filter (!·.isDeleteMarker)) (deletingCurrent || current.isNone)
  indexAfterDelete E b key

/-- `delete_object_version` -/
def deleteObjectVersionLocked (key : Text) (id : String) : Op BucketState Unit := do
  if ← read fun s ↦ s.dir.isNone then
    .fail .bucketNotFound
  if !validVersionId id then
    .fail .noSuchVersion
  recoverAt E (objectDirs E) (objectIdDir E b key)
  let current ← match ← attempt (readObjectMetadataLocked E b key) with
    | .ok current => .ret (some current)
    | .error .keyNotFound => .ret none
    | .error e => .fail e
  deleteVersionBeside E b key id current

/-! ### Turning versioning on and off -/

/-- The body of the loop of `assign_null_version_ids_to_unversioned_objects`, under the mutex of the
object. -/
def assignNullVersionId (id : String) : Op BucketState Unit := do
  recoverAt E (objectDirs E) (BucketState.objectLens id)
  match ← read fun s ↦ ((BucketState.objectLens id).get s).bind (·.files.pair.metadata) with
  | none => .ret ()
  | some current =>
    if current.versionId.isNone then
      writeObjectMetadata E (BucketState.objectLens id) (current.withVersionId (some "null"))

/-- `get_object_version` -/
def getObjectVersion (key : Text) (id : String) : Op Store Object :=
  onObject E b key (readObjectVersionLocked E b key id)

/-- `delete_object_version` -/
def deleteObjectVersion (key : Text) (id : String) : Op Store Unit :=
  onObject E b key (deleteObjectVersionLocked E b key id)

end Versions

end Sqrzl
