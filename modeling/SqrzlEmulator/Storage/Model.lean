import SqrzlEmulator.Data.Table

/-!
# The storage data model

The records that the filesystem store keeps, with the fields of their Rust originals
(`models/object.rs`, `models/multipart.rs`, `models/policy.rs`, `error.rs`), and the external
functions that it calls.

Object keys, prefixes, delimiters and markers are lists of characters. Rust orders strings by their
UTF-8 bytes, which is the order of their characters, and all the slicing in the store is at the
boundaries of characters, so nothing depends on the encoding. A JSON document is modelled by the
value that it encodes, and `Object.serialized` is the one place where writing and reading back a
record loses something.

## External functions

`Env` holds what is computed outside the repository: the `uuid`, `md5`, `crc32c` and `sha2` crates
and the hasher of the standard library. Its laws are the ones the store relies on. Identities of
objects are *not* assumed to be free of collisions here; `Env.CollisionFree` says that those of some
keys are, and the theorems about Azure snapshots and immutable blobs have it as a hypothesis.
-/

namespace Sqrzl

/-- Object and part contents. -/
abbrev Bytes : Type := List UInt8

/-- Keys, prefixes, delimiters and markers. -/
abbrev Text : Type := List Char

/-- A point in time. -/
abbrev Time : Type := ℕ

/-- The errors of `error.rs` that the stores return. An internal error carries the fixed part of
its message; what the operating system reported is left out. -/
inductive Error where
  | bucketAlreadyExists
  | bucketNotFound
  | bucketNotEmpty
  | keyNotFound
  | invalidRequest (message : String)
  | noSuchUpload
  | invalidPartNumber
  | invalidPartOrder
  | entityTooSmall
  | entityTooLarge
  | incompleteMultipartUpload
  | badDigest
  | preconditionFailed
  | noSuchVersion
  | messageNotFound
  | captureTooLarge
  | internalError (message : String)
  deriving DecidableEq

/-- The steps that statements about runs speak of. -/
inductive Event where
  /-- The rename that puts `.publication.json` in place. -/
  | journalCommitted
  /-- The rename that replaces the file of a part. -/
  | partReplaced (uploadId : String) (partNumber : ℕ)
  /-- The update of a part's record in the uploads cache. -/
  | partRecorded (uploadId : String) (partNumber : ℕ) (etag : String)
  /-- The insertion of a scanned upload table into the uploads cache. -/
  | cacheFilled
  /-- The insertion of a new upload into the uploads cache. -/
  | uploadAdded (uploadId : String)
  /-- The removal of an upload from the uploads cache. -/
  | uploadRemoved (uploadId : String)
  deriving DecidableEq

/-- Programs of the store. -/
abbrev Op (σ α : Type) : Type := Prog Event Error σ α

/-! ### Access control lists -/

/-- `CannedAcl` -/
inductive CannedAcl where
  | «private»
  | publicRead
  | publicReadWrite
  | authenticatedRead
  | bucketOwnerRead
  | bucketOwnerFullControl
  deriving DecidableEq

/-- `Permission` -/
inductive Permission where
  | read
  | write
  | readAcp
  | writeAcp
  | fullControl
  deriving DecidableEq

/-- `Grantee` -/
inductive Grantee where
  | canonicalUser (id : String) (displayName : Option String)
  | group (uri : String)
  deriving DecidableEq

/-- `Grant` -/
structure Grant where
  grantee : Grantee
  permission : Permission
  deriving DecidableEq

/-- `Acl` -/
structure Acl where
  canned : CannedAcl
  grants : List Grant
  deriving DecidableEq

/-! ### Objects -/

/-- An object: its metadata and, in memory, its bytes. -/
structure Object where
  key : Text
  data : Bytes
  size : ℕ
  etag : String
  contentType : String
  lastModified : Time
  versionId : Option String
  storageClass : String
  metadata : Table String String
  tags : Table String String
  acl : Option Acl
  providerMetadata : Table String String
  deriving DecidableEq

/-- What is read back from the JSON document of an object: the bytes are not part of it. -/
def Object.serialized (o : Object) : Object := { o with data := [] }

/-- The same object under another version identity. -/
def Object.withVersionId (o : Object) (id : Option String) : Object := { o with versionId := id }

/-- A part of a multipart upload. -/
structure Part where
  partNumber : ℕ
  etag : String
  size : ℕ
  crc32c : Option UInt32
  lastModified : Time

/-- A multipart upload, with its parts in the order of their numbers. -/
structure MultipartUpload where
  uploadId : String
  key : Text
  initiated : Time
  contentType : Option String
  metadata : Table String String
  providerMetadata : Table String String
  parts : List Part

/-- A predicate on the current object, evaluated under the object's lock. -/
inductive ObjectCondition where
  | all (conditions : List ObjectCondition)
  | missing
  | etag (expected : String)
  | etagIn (expected : List String)
  | etagNotIn (rejected : List String)
  | missingOrEtagNotIn (rejected : List String)
  | metadata (key value : String)
  | metadataNot (key value : String)

/-- Validation and publication predicates for a multipart completion. -/
structure MultipartCompletion where
  crc32c : Option UInt32
  size : Option ℕ
  condition : Option ObjectCondition
  requireExisting : Bool

/-! ### Identities of versions -/

/-- `validate_version_id`: a single normal path component without separators of any platform. -/
def validVersionId (id : String) : Bool :=
  id ≠ "" && id ≠ "." && id ≠ ".." && id.toList.all fun c ↦ c ≠ '/' && c ≠ '\\' && c ≠ '\x00'

/-- The external functions of the store. -/
structure Env where
  /-- The `n`-th identity handed out by `Uuid::new_v4`. -/
  uuid : ℕ → String
  /-- Identities are not handed out twice. -/
  uuid_injective : Function.Injective uuid
  uuid_ne_null : ∀ n, uuid n ≠ "null"
  uuid_valid : ∀ n, validVersionId (uuid n) = true
  /-- The hexadecimal MD5 digest. -/
  md5 : Bytes → String
  /-- `hex::decode`, on the digests that MD5 is computed over again for a multipart ETag. -/
  hexDecode : String → Option Bytes
  /-- `crc32c_append`. -/
  crc32cAppend : UInt32 → Bytes → UInt32
  crc32cAppend_nil : ∀ c, crc32cAppend c [] = c
  crc32cAppend_append : ∀ c a b, crc32cAppend c (a ++ b) = crc32cAppend (crc32cAppend c a) b
  /-- The base64 text of a checksum, its bytes in network order. -/
  base64 : UInt32 → String
  /-- `serde_json::from_str`, on the tags of a multipart upload. -/
  parseTags : String → Option (Table String String)
  /-- `compute_object_id`: the directory of an object in its bucket. -/
  computeObjectId : String → Text → String
  /-- The directory of a bucket, `b-` and the SHA-256 of its name. -/
  bucketDirName : String → String
  bucketDirName_injective : Function.Injective bucketDirName

/-- External functions that are simple enough to evaluate programs with. -/
def Env.simple : Env where
  uuid n := String.ofList (List.replicate (n + 1) 'u')
  uuid_injective m n h := by
    have := congrArg String.length h
    simpa using this
  uuid_ne_null n h := by
    have := congrArg String.toList h
    have hu : 'n' ∈ List.replicate (n + 1) 'u' := by
      rw [String.toList_ofList] at this
      rw [this]
      decide
    simp at hu
  uuid_valid n := by
    simp [validVersionId, ← String.toList_inj, List.replicate_succ]
  md5 b := String.ofList (b.map fun x ↦ Char.ofNat x.toNat)
  hexDecode s := some (s.toList.map fun c ↦ UInt8.ofNat c.toNat)
  crc32cAppend c b := b.foldl (fun c x ↦ 31 * c + UInt32.ofNat x.toNat) c
  crc32cAppend_nil _ := rfl
  crc32cAppend_append _ _ _ := List.foldl_append
  base64 c := toString c.toNat
  parseTags _ := none
  computeObjectId _ key := String.ofList key
  bucketDirName name := "b-" ++ name
  bucketDirName_injective _ _ h := by simpa using h

/-- `Object::new_with_metadata_and_etag`, at the time `now`. -/
def Object.newWithMetadataAndEtag (now : Time) (key : Text) (data : Bytes) (contentType : String)
    (metadata : Table String String) (etag : String) : Object where
  key := key
  data := data
  size := data.length
  etag := etag
  contentType := contentType
  lastModified := now
  versionId := none
  storageClass := "STANDARD"
  metadata := metadata
  tags := ∅
  acl := none
  providerMetadata := ∅

/-- `Object::new`, at the time `now`. -/
def Object.new (E : Env) (now : Time) (key : Text) (data : Bytes) (contentType : String) : Object :=
  .newWithMetadataAndEtag now key data contentType ∅ (E.md5 data)

/-- `object_has_azure_protection_metadata`. -/
def Object.hasAzureProtectionMetadata (o : Object) : Bool :=
  ["azure_immutability_until", "azure_legal_hold", "azure_immutability_mode",
    "azure_lease_status"].any fun key ↦ o.providerMetadata.contains key

/-- Whether a version is a delete marker. -/
def Object.isDeleteMarker (o : Object) : Bool :=
  o.providerMetadata["s3_delete_marker"]? = some "true"

end Sqrzl
