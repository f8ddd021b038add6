import SqrzlEmulator.Storage.Bucket

/-!
# Staged uploads and their scratch files

The providers keep the chunks of an upload as files of its session until the object is written.
`stage_upload_payload` puts a range of a spooled request there, `compose_upload_payloads` joins the
items of a session in a scratch file and writes the object from it, and `spool_body_to_disk` is what
receives the request in the first place. **Each of them writes a file that is not meant to stay**,
and the start of the server removes files that an earlier process has left in `.spool`
(`cleanup_stale_spool_files`).

## The model

The files outside of the buckets are those of `Store.payloads`, by their path below the root.
Directories are not kept. Every call of the file system can fail, for a reason that the model does
not know, before it has changed anything (`fileCall`); copying can also fail half-way. The one
exception is the removal of a scratch file, whose failure the source ignores: nothing could be
cleaned up where files cannot be removed. The identity that goes into the name of a scratch file is
an argument.
-/

namespace Sqrzl.Staging

open Prog

variable {ε α : Type}

/-! ### Files outside of the buckets -/

/-- Replace a file. -/
def writeFile (path : String) (data : Option Bytes) (s : Store) : Store :=
  { s with payloads := s.payloads.set path data }

@[simp] theorem payloads_writeFile (path : String) (data : Option Bytes) (s : Store) :
    (writeFile path data s).payloads = s.payloads.set path data := rfl

@[simp] theorem writeFile_writeFile (path : String) (data data' : Option Bytes) (s : Store) :
    writeFile path data' (writeFile path data s) = writeFile path data' s := by
  simp only [writeFile, Table.set_set]

/-- A call of the file system. -/
def fileCall (e : ε) (f : Store → Option Store) : Prog Event ε Store Unit :=
  .choose fun n ↦ if n = 0 then sys e f else .fail e

/-- A call of the file system that reads. -/
def fileRead (e : ε) (g : Store → Option α) : Prog Event ε Store α :=
  .choose fun n ↦ if n = 0 then sysRead e g else .fail e

/-- `let _ = fs::remove_file` -/
def removeScratch (path : String) : Prog Event ε Store Unit := modify (writeFile path none)

/-- Append to a file that is open. -/
def appendTo (path : String) (data : Bytes) (s : Store) : Option Store :=
  some (writeFile path (some ((s.payloads[path]?).getD [] ++ data)) s)

/-- `io::copy` into a file that is open. It may fail when it has written some of the data. -/
def copyInto (e : ε) (path : String) (data : Bytes) : Prog Event ε Store Unit :=
  .choose fun n ↦ do
    fileCall e (appendTo path (data.take n))
    fileCall e (appendTo path (data.drop n))

/-! ### Paths -/

/-- `hex::encode(Sha256::digest(..))`, of the texts that go into paths. -/
structure PathDigest where
  digest : String → String
  /-- Hexadecimal texts have no dot. -/
  dotless : ∀ text, '.' ∉ (digest text).toList

section Calls

variable (E : Env) (P : PathDigest)

/-- `provider_upload_session_dir` -/
def sessionDir (provider session : String) : String :=
  ".provider-uploads/" ++ (P.digest provider ++ "/" ++ P.digest session ++ "/")

/-- `provider_upload_item_path` -/
def itemPath (provider session item : String) : String :=
  sessionDir P provider session ++ (P.digest item ++ ".blob")

/-- The item's path `with_extension` of the temporary. -/
def temporaryPath (provider session item uuid : String) : String :=
  sessionDir P provider session ++ (P.digest item ++ (".tmp-" ++ uuid))

/-- The scratch file of a composition. -/
def composePath (uuid : String) : String := ".spool/" ++ (".compose-" ++ uuid ++ ".tmp")

/-- The file of a spooled request. -/
def spoolPath (uuid : String) : String := ".spool/" ++ (".spool-" ++ uuid ++ ".tmp")

/-! ### Moving a payload -/

/-- `fs::rename` -/
def renameFile (src dest : String) (s : Store) : Option Store :=
  s.payloads[src]?.map fun data ↦ writeFile dest (some data) (writeFile src none s)

/-- `atomic_copy`, to a file of the directory `parent`. -/
def copyFile (src parent dest : String) : Op Store Unit := do
  fileCall (.internalError "Failed to create directory") some
  .choose fun n ↦
    let temp := parent ++ (".copy-" ++ E.uuid n ++ ".tmp")
    onError (do
      let data ← fileRead (.internalError "Failed to copy staged payload") (·.payloads[src]?)
      fileCall (.internalError "Failed to copy staged payload") (some ∘ writeFile temp (some []))
      copyInto (.internalError "Failed to copy staged payload") temp data
      fileCall (.internalError "Failed to sync copied payload") some
      fileCall (.internalError "Failed to publish copied payload") (renameFile temp dest)
      fileCall (.internalError "Failed to sync directory") some)
      (removeScratch temp)

/-- `atomic_move`, to a file of the directory `parent`. -/
def moveFile (src parent dest : String) : Op Store Unit := do
  fileCall (.internalError "Failed to create directory") some
  fileCall (.internalError "Failed to sync spooled payload") fun s ↦ s.payloads[src]?.map fun _ ↦ s
  match ← attempt (fileCall (.internalError "rename") (renameFile src dest)) with
  | .ok () => .ret ()
  | .error _ => do
    copyFile E src parent dest
    fileCall (.internalError "Failed to remove spooled payload") fun s ↦
      s.payloads[src]?.map fun _ ↦ writeFile src none s
  fileCall (.internalError "Failed to sync directory") some
  fileCall (.internalError "Failed to sync directory") some

/-! ### `stage_upload_payload` -/

/-- The end of the range to be staged, when it can be. -/
def checkRange (sourceOffset len sourceLen : ℕ) : Except Error Unit :=
  if 2 ^ 64 ≤ sourceOffset + len then .error .entityTooLarge
  else if sourceLen < sourceOffset + len then
    .error (.invalidRequest "Staged upload range exceeds the request payload")
  else .ok ()

/-- What `stage_upload_payload` does to copy a range. -/
def copyRange (payloadPath : String) (sourceOffset len : ℕ) (temporary destination : String) :
    Op Store Unit := do
  let data ← fileRead (.internalError "Failed to open upload payload") (·.payloads[payloadPath]?)
  fileCall (.internalError "Failed to seek upload payload") some
  fileCall (.internalError "Failed to create staged upload payload")
    (some ∘ writeFile temporary (some []))
  let range := (data.drop sourceOffset).take len
  copyInto (.internalError "Failed to stage upload payload") temporary range
  if range.length ≠ len then
    .fail (.invalidRequest "Upload payload ended before the selected range")
  fileCall (.internalError "Failed to sync staged upload payload") some
  fileCall (.internalError "Failed to commit staged upload payload")
    (renameFile temporary destination)

/-- `stage_upload_payload` -/
def stageUploadPayload (uuid provider session item payloadPath : String) (sourceOffset len : ℕ) :
    Op Store Unit := do
  let destination := itemPath P provider session item
  let source ← fileRead (.internalError "Failed to inspect upload payload")
    (·.payloads[payloadPath]?)
  ofExcept (checkRange sourceOffset len source.length)
  if sourceOffset = 0 ∧ len = source.length then
    moveFile E payloadPath (sessionDir P provider session) destination
  else do
    fileCall (.internalError "Failed to create upload session directory") some
    let temporary := temporaryPath P provider session item uuid
    onError (copyRange payloadPath sourceOffset len temporary destination) (removeScratch temporary)

/-! ### `compose_upload_payloads` -/

/-- Append an item to the scratch file. -/
def composeItem (scratch path : String) : Op Store Unit := do
  let data ← fileRead (.internalError "Failed to open staged upload item") (·.payloads[path]?)
  copyInto (.internalError "Failed to compose upload item") scratch data

/-- Join the items in the scratch file. -/
def composeItems (scratch : String) (paths : List String) : Op Store Unit := do
  fileCall (.internalError "Failed to create composed payload")
    (some ∘ writeFile scratch (some []))
  forEach paths (composeItem scratch)
  fileCall (.internalError "Failed to sync composed upload") some

/-- The write of the composed object. -/
def putComposed (scratch bucket : String) (key : Text) (object : Object)
    (condition : Option ObjectCondition) : Op Store Bool :=
  match condition with
  | some condition => putObjectStreamedIf E bucket key object scratch condition
  | none => (putObjectStreamed E bucket key object scratch).bind fun _ ↦ .ret true

/-- `compose_upload_payloads` -/
def composeUploadPayloads (uuid provider session : String) (items : List String) (bucket : String)
    (key : Text) (object : Object) (condition : Option ObjectCondition) : Op Store Bool := do
  fileCall (.internalError "Failed to create composition directory") some
  let scratch := composePath uuid
  onError (composeItems scratch (items.map (itemPath P provider session))) (removeScratch scratch)
  let written ← putComposed E scratch bucket key object condition
  if ← read fun s ↦ (s.payloads[scratch]?).isSome then
    removeScratch scratch
  return written

end Calls

/-! ### Request spools -/

/-- `CollectBodyError` -/
inductive CollectBodyError where
  | bodyRead (message : String)
  | bodyTooLarge (maxRequestBytes : ℕ)

/-- A frame of a request body, or the failure to get one. -/
inductive Frame where
  | data (data : Bytes)
  | trailers (names : List String)
  | failed (message : String)

/-- `reject_s3_checksum_trailers` -/
def rejectS3ChecksumTrailers (names : List String) : Except CollectBodyError Unit :=
  if names.any fun name ↦ "x-amz-checksum-".toList.isPrefixOf name.toList then
    .error (.bodyRead "S3 checksum trailers are unsupported")
  else .ok ()

/-- `SpooledPayload`, with what the digests are taken of. -/
structure SpooledPayload where
  path : String
  len : ℕ
  digested : Bytes

/-- What `spool_frames` does with a frame, given the total and the data before. -/
def spoolFrame (path : String) (maxRequestBytes : ℕ) (before : ℕ × Bytes) :
    Frame → Prog Event CollectBodyError Store (ℕ × Bytes)
  | .failed message => .fail (.bodyRead message)
  | .trailers names => do
    ofExcept (rejectS3ChecksumTrailers names)
    return before
  | .data data => do
    let total := min (before.1 + data.length) (2 ^ 64 - 1)
    if maxRequestBytes < total then
      .fail (.bodyTooLarge maxRequestBytes)
    copyInto (.bodyRead "Failed to write spool file") path data
    return (total, before.2 ++ data)

/-- `spool_frames` -/
def spoolFrames (frames : List Frame) (maxRequestBytes : ℕ) (path : String) :
    Prog Event CollectBodyError Store SpooledPayload := do
  fileCall (.bodyRead "Failed to create spool file") (some ∘ writeFile path (some []))
  let (total, data) ← foldEach frames (0, []) (spoolFrame path maxRequestBytes)
  fileCall (.bodyRead "Failed to flush spool file") some
  fileCall (.bodyRead "Failed to sync spool file") some
  return { path := path, len := total, digested := data }

/-- `spool_body_to_disk`; what was written is removed when the body cannot be received. -/
def spoolBodyToDisk (uuid : String) (frames : List Frame) (maxRequestBytes : ℕ) :
    Prog Event CollectBodyError Store SpooledPayload := do
  fileCall (.bodyRead "Failed to create spool dir") some
  onError (spoolFrames frames maxRequestBytes (spoolPath uuid)) (removeScratch (spoolPath uuid))

/-! ### The start of the server -/

/-- The name of an entry of `.spool`. -/
def spoolName (path : String) : Option (List Char) :=
  if ".spool/".toList.isPrefixOf path.toList then
    let name := path.toList.drop ".spool/".toList.length
    if name.contains '/' then none else some name
  else none

/-- The files that `cleanup_stale_spool_files` removes. -/
def isStaleSpool (path : String) : Bool :=
  (spoolName path).any fun name ↦
    ".spool-".toList.isPrefixOf name && ".tmp".toList.isSuffixOf name

/-- `cleanup_stale_spool_files` -/
def cleanupStaleSpoolFiles : Op Store Unit := do
  let paths ← fileRead (.internalError "Failed to clean stale request spool files") fun s ↦
    some (s.payloads.keys.filter isStaleSpool)
  let paths ← shuffled paths
  forEach paths fun path ↦
    fileCall (.internalError "Failed to clean stale request spool files") fun s ↦
      s.payloads[path]?.map fun _ ↦ writeFile path none s

end Sqrzl.Staging
