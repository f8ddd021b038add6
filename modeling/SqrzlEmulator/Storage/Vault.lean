import SqrzlEmulator.Prog.Atomic
import SqrzlEmulator.Storage.Conditional
import SqrzlEmulator.Storage.Multipart
import SqrzlEmulator.Storage.VersionStore

/-!
# The store, without files

The front doors hold the operation gate for the whole of a request, so that **a request runs
alone**. What its handler sees of the store is then a `Vault`: buckets, their settings, and under
each key the current version and the versions before it. The operations are functions of the vault,
under the names of the storage traits that the handlers are written against (`storage/mod.rs`).

A `KeyRecord` is the history of one key with the versions in a table, so that they can be listed;
`KeyRecord.history` forgets the table. `history_put` and `history_delete` say that the writes and
the deletes are those of `Storage.Objects`, which is where the files come in.

The tables are by key, where the store has a directory for each `compute_object_id`. They agree as
long as the keys in use have different ones (`Env.CollisionFree` of `Storage.Directories`).
-/

namespace Sqrzl

open Prog

/-! ### What is kept under a key -/

/-- What is kept under a key: the current version, and the versions before it. -/
structure KeyRecord where
  current : Option Stored := none
  versions : Table String Stored := ∅

namespace KeyRecord

/-- The metadata of the current version. -/
def metadata (e : KeyRecord) : Option Object := e.current.map Prod.snd

/-- Keep the current version, as a write or a delete does before it replaces it. -/
def snapshot (v : Option VersioningState) (e : KeyRecord) : KeyRecord :=
  match v, e.current with
  | some v, some (data, o) =>
    if v = .enabled ∨ History.keptId o ≠ "null" then
      let kept := (o.withVersionId (some (History.keptId o))).serialized
      { e with versions := e.versions.set (History.keptId o) (some (data, kept)) }
    else
      e
  | _, _ => e

/-- Write a new version with the given identity. -/
def put (v : Option VersioningState) (id : Option String) (data : Bytes) (o : Object) (e : KeyRecord) :
    KeyRecord where
  current := some (data, (o.withVersionId id).serialized)
  versions :=
    if id = some "null" then (e.snapshot v).versions.set "null" none else (e.snapshot v).versions

/-- Delete the current version, and leave a marker. -/
def delete (v : VersioningState) (id : String) (marker : Object) (e : KeyRecord) : KeyRecord where
  versions := (e.snapshot (some v)).versions.set id (some ([], marker.serialized))

/-- `list_object_versions_for_key_locked` -/
def list (key : Text) (e : KeyRecord) : List Object :=
  let current := (e.metadata.filter fun o ↦ o.key = key && o.versionId.isSome).toList
  let kept := e.versions.toList.filterMap fun version ↦
    if version.2.2.key = key then some version.2.2 else none
  let sorted := (current ++ kept).mergeSort fun l r ↦ (compare l.versionId r.versionId).isLE
  sorted.destutter fun l r ↦ l.versionId ≠ r.versionId

/-- The version that becomes current when the version `id` is deleted: the latest one of the others,
unless it is a delete marker. -/
def promoted (key : Text) (id : String) (e : KeyRecord) : Option Object :=
  (latestVersion ((e.list key).filter (·.versionId ≠ some id))).filter (!·.isDeleteMarker)

/-- Take the current version away, or leave it. -/
def deleteVersion (key : Text) (id : String) (e : KeyRecord) : Except Error KeyRecord :=
  let deletingCurrent : Bool := e.metadata.any (·.versionId = some id)
  if !validVersionId id then
    .error .noSuchVersion
  else if !(e.versions.contains id) && !deletingCurrent then
    .error .noSuchVersion
  else if deletingCurrent || e.current.isNone then
    match e.promoted key id with
    | none => .ok { current := none, versions := e.versions.set id none }
    | some o =>
      match o.versionId with
      | none => .error (.internalError "Historical object is missing version identity")
      | some id' =>
        match e.versions[id']? with
        | none => .error (.internalError "Failed to read version")
        | some (data, _) =>
          .ok { current := some (data, o), versions := (e.versions.set id none).set id' none }
  else
    .ok { e with versions := e.versions.set id none }

/-- `read_version_metadata_and_path_locked`: a version with its bytes. -/
def version (id : String) (e : KeyRecord) : Except Error Stored :=
  if !validVersionId id then
    .error .noSuchVersion
  else
    match e.versions[id]? with
    | some (data, o) => .ok (data, o.withVersionId (some id))
    | none =>
      match e.current with
      | some (data, o) => if o.versionId = some id then .ok (data, o) else .error .noSuchVersion
      | none => .error .noSuchVersion

/-- Give a current version without an identity the identity `null`. -/
def assignNullVersionId (e : KeyRecord) : KeyRecord :=
  { e with
    current := e.current.map fun st ↦
      if st.2.versionId.isNone then (st.1, st.2.withVersionId (some "null")) else st }

/-- Nothing is left, and the directory of the object is removed. -/
def isEmpty (e : KeyRecord) : Bool := e.current.isNone && e.versions.isEmpty

end KeyRecord

/-- `get_object_range` and `get_object_version_range` -/
def readRange (st : Stored) (start : ℕ) (last : Option ℕ) : Except Error Bytes :=
  if start ≥ st.2.size then
    .error (.invalidRequest "Range start beyond file size")
  else
    let last := min (last.getD (st.2.size - 1)) (st.2.size - 1)
    if last < start then
      .error (.invalidRequest "Invalid range: end < start")
    else if st.1.length < last + 1 then
      .error (.internalError "Failed to read range")
    else
      .ok ((st.1.drop start).take (last - start + 1))

/-! ### Buckets -/

/-- A multipart upload: its record, and the bodies of its parts. -/
structure Upload where
  record : MultipartUpload
  bodies : Table ℕ Bytes := ∅

/-- Put the body of a part in place, and record it. -/
def Upload.withPart (E : Env) (now : Time) (n : ℕ) (data : Bytes) (upload : Upload) : Upload where
  record := upload.record.withPart ⟨n, E.md5 data, data.length,
    if upload.record.usesCrc32c then some (E.crc32cAppend 0 data) else none, now⟩
  bodies := upload.bodies.set n (some data)

/-- A bucket: its settings, its objects and its multipart uploads. -/
structure Bucket where
  createdAt : Time := 0
  modifiedAt : Time := 0
  metadata : Table String String := ∅
  versioning : Option VersioningState := none
  objects : Table Text KeyRecord := ∅
  uploads : Table String Upload := ∅

namespace Bucket

/-- `Bucket::versioning_enabled` -/
def versioningEnabled (B : Bucket) : Bool := B.versioning = some .enabled

/-- The current objects, in the order of their keys. -/
def current (B : Bucket) : List Object := B.objects.toList.filterMap fun entry ↦ entry.2.metadata

/-- `list_object_versions`, for a whole bucket. -/
def versions (B : Bucket) : List Object := B.objects.toList.flatMap fun entry ↦ entry.2.list entry.1

/-- What is kept under a key. -/
def record (B : Bucket) (key : Text) : KeyRecord := B.objects[key]?.getD {}

/-- Replace what is kept under a key. -/
def setRecord (key : Text) (e : KeyRecord) (B : Bucket) : Bucket :=
  { B with objects := B.objects.set key (if e.isEmpty then none else some e) }

end Bucket

/-- The store, as a request sees it that runs alone. -/
structure Vault where
  buckets : Table String Bucket := ∅
  /-- How many identities have been drawn. -/
  drawn : ℕ := 0

/-- Operations of the store. -/
abbrev VaultOp (α : Type) : Type := Atomic Error Vault α

namespace Vault

variable (E : Env)

/-- What is kept under a key of a bucket. -/
def record (V : Vault) (b : String) (key : Text) : KeyRecord := (V.buckets[b]?.map (·.record key)).getD {}

/-- Replace what is kept under a key of a bucket. -/
def setRecord (b : String) (key : Text) (e : KeyRecord) (V : Vault) : Vault :=
  { V with buckets := V.buckets.set b (V.buckets[b]?.map (·.setRecord key e)) }

/-- Replace an upload of a bucket, or remove it. -/
def setUpload (b u : String) (upload : Option Upload) (V : Vault) : Vault :=
  { V with
    buckets := V.buckets.set b
      (V.buckets[b]?.map fun B ↦ { B with uploads := B.uploads.set u upload }) }

/-- Draw identities. -/
def draw (n : ℕ) (V : Vault) : Vault := { V with drawn := n }

/-- `get_bucket` -/
def getBucket (b : String) : VaultOp Bucket := .find .bucketNotFound fun V ↦ V.buckets[b]?

/-- `create_bucket`, at the time `now`. -/
def createBucket (now : Time) (b : String) : VaultOp Unit := do
  .refuseIf (← .view fun V : Vault ↦ V.buckets.contains b) .bucketAlreadyExists
  .update fun V ↦ { V with buckets := V.buckets.set b (some { createdAt := now, modifiedAt := now }) }

/-- `delete_bucket` -/
def deleteBucket (b : String) : VaultOp Unit := do
  let B ← getBucket b
  .refuseIf (!(B.objects.isEmpty && B.uploads.isEmpty)) .bucketNotEmpty
  .update fun V ↦ { V with buckets := V.buckets.set b none }

/-- Replace a bucket. -/
def setBucket (b : String) (B : Bucket) : VaultOp Unit :=
  .update fun V ↦ { V with buckets := V.buckets.set b (some B) }

/-- `update_bucket_metadata`, at the time `now`. -/
def updateBucketMetadata (now : Time) (b : String) (metadata : Table String String) :
    VaultOp Unit := do
  let B ← getBucket b
  setBucket b { B with
    metadata := metadata
    modifiedAt := if B.metadata = metadata then B.modifiedAt else now }

/-- `enable_versioning` and `suspend_versioning`, at the time `now`. -/
def setVersioning (now : Time) (b : String) (v : VersioningState) : VaultOp Unit := do
  let B ← getBucket b
  setBucket b { B with
    versioning := some v
    modifiedAt := if B.versioning = some v then B.modifiedAt else now
    objects := B.objects.map fun _ e ↦ e.assignNullVersionId }

/-- `get_object_metadata` -/
def getObjectMetadata (b : String) (key : Text) : VaultOp Object :=
  .find .keyNotFound fun V ↦ (V.record b key).metadata

/-- `get_object` -/
def getObject (b : String) (key : Text) : VaultOp Object :=
  .find .keyNotFound fun V ↦ (V.record b key).current.map fun st ↦ { st.2 with data := st.1 }

/-- The current object of a key or one of its versions, with its bytes. -/
def stored (V : Vault) (b : String) (key : Text) (version : Option String) : Except Error Stored :=
  match version with
  | none => orError .keyNotFound (V.record b key).current
  | some id => (orError .bucketNotFound V.buckets[b]?).bind fun B ↦ (B.record key).version id

/-- `put_object` and `put_object_streamed`. Where the bytes come from makes no difference to what is
stored. -/
def putObject (b : String) (key : Text) (o : Object) (data : Bytes) : VaultOp Unit := fun V ↦
  match V.buckets[b]? with
  | none => (.error .bucketNotFound, V)
  | some B =>
    let drawn := drawnFor B.versioning V.drawn
    if data.length ≠ o.size then
      (.error (.internalError "Staged object body and metadata sizes disagree"),
        (V.setRecord b key ((B.record key).snapshot B.versioning)).draw drawn)
    else
      (.ok (), (V.setRecord b key
        ((B.record key).put B.versioning (versionIdFor E B.versioning V.drawn) data o)).draw drawn)

/-- Run an operation if the condition holds of the current object. -/
def mutateIf (b : String) (key : Text) (c : ObjectCondition) (mutation : VaultOp Unit) :
    VaultOp Bool := do
  if c.holds (← .view fun V ↦ (V.record b key).metadata) then
    mutation
    return true
  else
    return false

/-- `put_object_if` and `put_object_streamed_if` -/
def putObjectIf (b : String) (key : Text) (o : Object) (data : Bytes) (c : ObjectCondition) :
    VaultOp Bool :=
  mutateIf b key c (putObject E b key o data)

/-- `delete_object`, at the time `now`. -/
def deleteObject (now : Time) (b : String) (key : Text) : VaultOp Unit := fun V ↦
  match V.buckets[b]?.bind (·.versioning) with
  | none =>
    if (V.record b key).current.isNone then (.error .keyNotFound, V)
    else (.ok (), V.setRecord b key {})
  | some v =>
    let id := if v = .suspended then "null" else E.uuid V.drawn
    (.ok (), (V.setRecord b key ((V.record b key).delete v id (deleteMarker E now key id))).draw
      (drawnFor (some v) V.drawn))

/-- `delete_object_if` -/
def deleteObjectIf (now : Time) (b : String) (key : Text) (c : ObjectCondition) : VaultOp Bool :=
  mutateIf b key c (deleteObject E now b key)

/-- `replace_object_metadata_if_unchanged` -/
def replaceObjectMetadataIfUnchanged (b : String) (key : Text) (observed updated : Object) :
    VaultOp Bool := do
  match ← .view fun V : Vault ↦ (V.record b key).current with
  | none => return false
  | some (data, current) =>
    if current.etag ≠ observed.etag || current.lastModified ≠ observed.lastModified ||
        current.versionId ≠ observed.versionId || current.contentType ≠ observed.contentType ||
        current.metadata ≠ observed.metadata ||
        current.providerMetadata ≠ observed.providerMetadata then
      return false
    else
      let current := { current with
        contentType := updated.contentType
        metadata := updated.metadata
        providerMetadata := updated.providerMetadata }
      .update fun V ↦ V.setRecord b key { V.record b key with current := some (data, current) }
      return true

/-- `delete_object_version` -/
def deleteObjectVersion (b : String) (key : Text) (id : String) : VaultOp Unit := do
  let B ← getBucket b
  let e ← .ofExcept ((B.record key).deleteVersion key id)
  .update (setRecord b key e)

/-! ### Multipart uploads -/

/-- `get_multipart_upload`, with the bodies of the parts. -/
def getUpload (b u : String) : VaultOp Upload := do
  let B ← getBucket b
  .ofExcept (orError .noSuchUpload B.uploads[u]?)

/-- `upload_part` and `upload_part_streamed`, at the time `now`. -/
def uploadPart (now : Time) (b u : String) (n : ℕ) (data : Bytes) : VaultOp String := do
  let _ ← getBucket b
  .refuseIf (!(1 ≤ n && n ≤ 10000)) .invalidPartNumber
  let upload ← getUpload b u
  .refuseIf ((upload.record.limit "__sqrzl_multipart_max_part_size").any (· < data.length))
    .entityTooLarge
  .update (setUpload b u (some (upload.withPart E now n data)))
  return E.md5 data

end Vault

/-! ### What is read after a write -/

theorem KeyRecord.eq_empty {e : KeyRecord} (h : e.isEmpty = true) : e = {} := by
  obtain ⟨current, versions⟩ := e
  obtain ⟨hcurrent, hversions⟩ := Bool.and_eq_true_iff.1 h
  have hnone : current = none := Option.isNone_iff_eq_none.1 hcurrent
  have hempty : versions = ∅ := Std.ExtTreeMap.isEmpty_iff.1 hversions
  rw [hnone, hempty]

theorem Bucket.record_setRecord {B : Bucket} {key key' : Text} {e : KeyRecord} :
    (B.setRecord key e).record key' = if key' = key then e else B.record key' := by
  simp only [setRecord, record, Table.getElem?_set]
  split
  · split
    · next h => exact (KeyRecord.eq_empty h).symm
    · rfl
  · rfl

namespace Vault

variable {E : Env} {V V' : Vault} {b b' : String} {key key' : Text} {e : KeyRecord} {B : Bucket}
  {o : Object} {data : Bytes} {c : ObjectCondition} {n : ℕ}

theorem record_eq (h : V.buckets[b]? = some B) : V.record b key = B.record key := by
  rw [record, h]
  rfl

@[simp] theorem record_draw : (V.draw n).record b key = V.record b key := rfl

/-- What is kept under one key is all that is replaced. -/
theorem record_setRecord (h : V.buckets[b]? = some B) :
    (V.setRecord b key e).record b' key' =
      if b' = b ∧ key' = key then e else V.record b' key' := by
  rw [record, setRecord, Table.getElem?_set, h]
  by_cases hb : b' = b
  · rw [if_pos hb, Option.map_some, Option.map_some, Option.getD_some, Bucket.record_setRecord]
    subst hb
    simp only [true_and, record_eq h]
  · rw [if_neg hb, if_neg fun h ↦ hb h.1, record]

/-- **A write that has succeeded has put its bytes under the key.** -/
theorem putObject_ok {u : Unit} (h : putObject E b key o data V = (.ok u, V')) :
    ∃ B, V.buckets[b]? = some B ∧ data.length = o.size ∧
      V' = (V.setRecord b key ((V.record b key).put B.versioning
        (versionIdFor E B.versioning V.drawn) data o)).draw (drawnFor B.versioning V.drawn) := by
  unfold putObject at h
  cases hB : V.buckets[b]? with
  | none =>
    rw [hB] at h
    cases h
  | some B =>
    rw [hB] at h
    dsimp only at h
    split at h
    · cases h
    · next hsize =>
      cases h
      exact ⟨B, rfl, not_not.1 hsize, by rw [record_eq hB]⟩

/-- A write to a bucket that exists succeeds when its bytes are as many as it says. -/
theorem exists_putObject_ok (E : Env) (key : List Char) (hB : V.buckets[b]? = some B) (hsize : data.length = o.size) :
    ∃ V', putObject E b key o data V = (.ok (), V') := by
  unfold putObject
  rw [hB]
  dsimp only
  rw [if_neg (not_not.2 hsize)]
  exact ⟨_, rfl⟩

/-- **New metadata go to the object that has been seen.** -/
theorem replaceObjectMetadata_eq {updated : Object} (h : (V.record b key).current = some (data, o)) :
    replaceObjectMetadataIfUnchanged b key o updated V = (.ok true, V.setRecord b key
      { V.record b key with current := some (data, { o with
          contentType := updated.contentType
          metadata := updated.metadata
          providerMetadata := updated.providerMetadata }) }) := by
  rw [replaceObjectMetadataIfUnchanged, Atomic.view_bind, h]
  dsimp only
  rw [if_neg (by simp)]
  rfl

theorem getBucket_bind_of_some {α : Type} {f : Bucket → VaultOp α} (hB : V.buckets[b]? = some B) :
    (getBucket b >>= f) V = f B V :=
  Atomic.find_bind_of_some (g := fun V : Vault ↦ V.buckets[b]?) hB

theorem getBucket_bind_of_none {α : Type} {f : Bucket → VaultOp α} (hB : V.buckets[b]? = none) :
    (getBucket b >>= f) V = (.error .bucketNotFound, V) :=
  Atomic.find_bind_of_none (g := fun V : Vault ↦ V.buckets[b]?) hB

theorem mutateIf_of_holds {mutation : VaultOp Unit} (hc : c.holds (V.record b key).metadata = true)
    (hm : mutation V = (.ok (), V')) : mutateIf b key c mutation V = (.ok true, V') := by
  simp only [mutateIf, Atomic.view_bind, hc, if_true]
  exact Atomic.bind_ok.2 ⟨(), V', hm, rfl⟩

theorem mutateIf_ok {mutation : VaultOp Unit} (h : mutateIf b key c mutation V = (.ok true, V')) :
    c.holds (V.record b key).metadata = true ∧ mutation V = (.ok (), V') := by
  simp only [mutateIf, Atomic.view_bind] at h
  split at h
  · next hc =>
    obtain ⟨_, t, hm, ht⟩ := Atomic.bind_ok.1 h
    obtain ⟨-, rfl⟩ := Atomic.pure_ok.1 ht
    exact ⟨hc, hm⟩
  · cases h

theorem getUpload_ok {u : String} {upload : Upload} :
    getUpload b u V = (.ok upload, V') ↔
      (∃ B, V.buckets[b]? = some B ∧ B.uploads[u]? = some upload) ∧ V' = V := by
  rw [getUpload, getBucket, Atomic.find_bind_ok]
  constructor
  · rintro ⟨B, hB, h⟩
    obtain ⟨hupload, rfl⟩ := Atomic.ofExcept_ok.1 h
    cases hfound : B.uploads[u]? with
    | none =>
      rw [hfound] at hupload
      cases hupload
    | some found =>
      rw [hfound] at hupload
      cases hupload
      exact ⟨⟨B, hB, hfound⟩, rfl⟩
  · rintro ⟨⟨B, hB, hfound⟩, rfl⟩
    exact ⟨B, hB, Atomic.ofExcept_ok.2 ⟨by rw [hfound]; rfl, rfl⟩⟩

/-- When a part is accepted, and what it leaves. -/
theorem uploadPart_ok (now : Time) {u etag : String} :
    uploadPart E now b u n data V = (.ok etag, V') ↔
      ∃ B upload, V.buckets[b]? = some B ∧ B.uploads[u]? = some upload ∧ 1 ≤ n ∧ n ≤ 10000 ∧
        ¬ (upload.record.limit "__sqrzl_multipart_max_part_size").any (· < data.length) ∧
        etag = E.md5 data ∧ V' = V.setUpload b u (some (upload.withPart E now n data)) := by
  have hnumber : (¬ (!(decide (1 ≤ n) && decide (n ≤ 10000))) = true) ↔ 1 ≤ n ∧ n ≤ 10000 := by
    rw [Bool.not_eq_true', Bool.not_eq_false, Bool.and_eq_true, decide_eq_true_eq, decide_eq_true_eq]
  simp only [uploadPart, getBucket, Atomic.find_bind_ok, Atomic.refuseIf_bind_ok, hnumber]
  constructor
  · rintro ⟨B, hB, hn, h⟩
    obtain ⟨upload, t, hupload, hrest⟩ := Atomic.bind_ok.1 h
    obtain ⟨⟨B', hB', hfound⟩, rfl⟩ := getUpload_ok.1 hupload
    obtain ⟨hlimit, hrest⟩ := Atomic.refuseIf_bind_ok.1 hrest
    obtain ⟨rfl, rfl⟩ := Atomic.pure_ok.1 (Atomic.update_bind ▸ hrest)
    exact ⟨B', upload, hB', hfound, hn.1, hn.2, hlimit, rfl, rfl⟩
  · rintro ⟨B, upload, hB, hfound, hone, hmany, hlimit, rfl, rfl⟩
    refine ⟨B, hB, ⟨hone, hmany⟩, Atomic.bind_ok.2 ⟨upload, V, ?_, ?_⟩⟩
    · exact getUpload_ok.2 ⟨⟨B, hB, hfound⟩, rfl⟩
    · exact Atomic.refuseIf_bind_ok.2 ⟨hlimit, rfl⟩

end Vault

/-! ### Records are histories -/

namespace KeyRecord

variable {v : Option VersioningState} {e : KeyRecord} {id : Option String} {data : Bytes} {o : Object}

/-- The history of a key. -/
def history (e : KeyRecord) : History := ⟨e.current, fun id ↦ e.versions[id]?⟩

theorem history_snapshot : (e.snapshot v).history = e.history.snapshot v := by
  obtain ⟨current, versions⟩ := e
  rcases v with _ | v
  · rfl
  rcases current with _ | ⟨data, o⟩
  · rfl
  by_cases hkeep : v = .enabled ∨ History.keptId o ≠ "null"
  · rw [History.snapshot_of_keep rfl hkeep]
    simp only [snapshot, if_pos hkeep]
    refine History.ext rfl (funext fun id ↦ ?_)
    exact Table.getElem?_set ..
  · rw [History.snapshot_of_not_keep rfl hkeep]
    simp only [snapshot, if_neg hkeep]

/-- **A write to a record is a write to its history.** -/
theorem history_put : (e.put v id data o).history = e.history.put v id data o := by
  refine History.ext rfl (funext fun id' ↦ ?_)
  have hkept : ((e.snapshot v).versions)[id']? = (e.history.snapshot v).versions id' :=
    congrFun (congrArg History.versions history_snapshot) id'
  show (if id = some "null" then (e.snapshot v).versions.set "null" none
    else (e.snapshot v).versions)[id']? = _
  by_cases hid : id = some "null"
  · simp [History.put, History.change, History.putChange, Change.markerId, hid, ← hkept]
  · simp [History.put, History.change, History.putChange, Change.markerId, hid, ← hkept]

/-- **A delete in a bucket with versioning is one of the history.** -/
theorem history_delete {E : Env} {v : VersioningState} {id : String} {n : ℕ} {now : Time}
    {key : Text} (hid : versionIdFor E (some v) n = some id) :
    (e.delete v id (deleteMarker E now key id)).history =
      e.history.delete (some v) (markerFor E (some v) n now key) := by
  have hmarker : markerFor E (some v) n now key = some (deleteMarker E now key id) := by
    rw [markerFor, hid]
    rfl
  refine History.ext rfl (funext fun id' ↦ ?_)
  have hkept : ((e.snapshot (some v)).versions)[id']? = (e.history.snapshot (some v)).versions id' :=
    congrFun (congrArg History.versions history_snapshot) id'
  rw [hmarker]
  show ((e.snapshot (some v)).versions.set id _)[id']? = _
  have hmid : (deleteMarker E now key id).versionId = some id := rfl
  have hremove : id' ≠ id → id' ∉ (if v = .suspended then ["null"] else []) := by
    intro hne
    cases v with
    | enabled => exact List.not_mem_nil
    | suspended =>
      cases hid
      exact fun hmem ↦ hne (List.mem_singleton.1 hmem)
  rw [Table.getElem?_set]
  simp only [History.delete, History.change, History.deleteChange, Change.markerId, Option.bind_some,
    hmid, Option.some.injEq, Option.map_some]
  by_cases h : id' = id
  · rw [if_pos h, if_pos h.symm]
  · rw [if_neg h, if_neg (Ne.symm h), if_neg (hremove h), hkept]

end KeyRecord

end Sqrzl
