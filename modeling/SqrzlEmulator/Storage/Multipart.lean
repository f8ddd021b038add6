import SqrzlEmulator.Data.Texts
import SqrzlEmulator.Storage.Bucket

/-!
# Multipart uploads

The records of multipart uploads of `storage/filesystem.rs`, and how an upload is completed: the
manifest is checked against the parts, their files are assembled in a scratch file, and the object
is published from it under the mutex of its key (`publishCompleted`).
-/

namespace Sqrzl

open Prog

/-- `Option::ok_or` -/
def orError {α : Type} (e : Error) : Option α → Except Error α
  | some a => .ok a
  | none => .error e

/-! ### Records of uploads -/

/-- Put a part at its place among the parts, over the one with its number if there is one. -/
def insertPart (part : Part) : List Part → List Part
  | [] => [part]
  | p :: ps =>
    if p.partNumber < part.partNumber then p :: insertPart part ps
    else if p.partNumber = part.partNumber then part :: ps
    else part :: p :: ps

/-- Record a part. -/
def MultipartUpload.withPart (upload : MultipartUpload) (part : Part) : MultipartUpload :=
  { upload with parts := insertPart part upload.parts }

/-- Whether the checksums of the parts are kept. -/
def MultipartUpload.usesCrc32c (upload : MultipartUpload) : Bool :=
  upload.providerMetadata["s3_checksum_algorithm"]? = some "CRC32C"

section Uploads

variable (E : Env)

/-- A limit that is kept with an upload. -/
def MultipartUpload.limit (upload : MultipartUpload) (name : String) : Option ℕ :=
  upload.providerMetadata[name]?.bind parseU64

/-! ### Completing an upload -/

/-- The sum of sizes, unless it overflows. -/
def totalSize : List Part → ℕ → Option ℕ
  | [], acc => some acc
  | part :: parts, acc => if acc + part.size < 2 ^ 64 then totalSize parts (acc + part.size) else none

/-- The parts that a manifest names. -/
def selectParts (uploaded : List Part) : List (ℕ × String) → Option (List Part)
  | [] => some []
  | (n, etag) :: manifest => do
    let part ← uploaded.find? fun part ↦ part.partNumber = n && part.etag = etag
    let parts ← selectParts uploaded manifest
    return part :: parts

/-- The checks of `complete_multipart_upload_checked` before anything is assembled: the parts of the
manifest, and their total size. -/
def checkManifest (upload : MultipartUpload) (manifest : List (ℕ × String))
    (completion : MultipartCompletion) : Except Error (List Part × ℕ) := do
  if manifest.isEmpty then
    throw .invalidPartOrder
  if (manifest.zip manifest.tail).any fun pair ↦ pair.2.1 ≤ pair.1.1 then
    throw .invalidPartOrder
  let parts ← orError .incompleteMultipartUpload (selectParts upload.parts manifest)
  let minimum := (upload.limit "__sqrzl_multipart_min_non_final_part_size").getD 0
  if (parts.take (parts.length - 1)).any fun part ↦ part.size < minimum then
    throw .entityTooSmall
  let total ← orError .entityTooLarge (totalSize parts 0)
  if (upload.limit "__sqrzl_multipart_max_object_size").any (· < total) then
    throw .entityTooLarge
  if completion.size.any (· ≠ total) then
    throw (.invalidRequest "Multipart object size does not match the selected parts")
  return (parts, total)

/-- The bytes that the digests of the parts stand for. -/
def rawDigests : List Part → Option Bytes
  | [] => some []
  | part :: parts => do
    let digest ← E.hexDecode (trimQuotes part.etag)
    let digests ← rawDigests parts
    return digest ++ digests

/-- The ETag of a completed object. -/
def finalEtag (parts : List Part) : Except Error String := do
  let digests ← orError (.internalError "Invalid multipart part ETag") (rawDigests E parts)
  return E.md5 digests ++ "-" ++ toString parts.length

/-- The names that are not copied from the metadata of an upload to the object. -/
def multipartOnly : List String :=
  ["__sqrzl_multipart_min_non_final_part_size", "__sqrzl_multipart_max_part_size",
    "__sqrzl_multipart_max_object_size", "__sqrzl_multipart_tags", "storage_class"]

/-- The object of a completed upload. -/
def completedObject (now : Time) (upload : MultipartUpload) (etag : String) (total : ℕ)
    (crc32c : UInt32) : Object :=
  let o := Object.newWithMetadataAndEtag now upload.key []
    (upload.contentType.getD "application/octet-stream") upload.metadata etag
  let copied : Table String String := upload.providerMetadata.filter fun name _ ↦ name ∉ multipartOnly
  { o with
    size := total
    storageClass := upload.providerMetadata["storage_class"]?.getD o.storageClass
    tags := (upload.providerMetadata["__sqrzl_multipart_tags"]?.bind E.parseTags).getD o.tags
    providerMetadata :=
      if upload.usesCrc32c then
        (copied.set "s3_checksum_crc32c" (some (E.base64 crc32c))).set "s3_checksum_type"
          (some "FULL_OBJECT")
      else
        copied }

variable (b : String)

/-- The publication of a completed object, under the mutex of its key. -/
def publishCompleted (key : Text) (object : Object) (name : String)
    (completion : MultipartCompletion) : Op BucketState Unit := do
  if completion.requireExisting then
    let _ ← readObjectMetadataLocked E b key
  match completion.condition with
  | some condition =>
    if !(← objectConditionMatches E b key condition) then
      .fail .preconditionFailed
  | none => .ret ()
  putObjectLockedWithPayload E b key object (.scratch name)

end Uploads

end Sqrzl
