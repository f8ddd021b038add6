import SqrzlEmulator.Gcs.Objects

/-!
# Resumable uploads

`create_resumable_session`, `create_xml_resumable_session` and `complete_resumable_upload`.

A session counts the bytes that it has received, and lists the items they are staged under. A
request announces an inclusive range of bytes; what has been received before is cut off in front of
it, and the rest becomes the next item. The session is written to the store, and put into the cache,
before the answer says how far it has come. **The request that completes the upload publishes the
object, and removes the session after that.**

The cancellation of an upload that was started through the XML API is written down before the
session is removed, and is looked up by every request.
-/

namespace Sqrzl.Gcs

open Prog S3

/-! ### Ranges -/

/-- `ResumableRequestRange` -/
inductive ResumableRequestRange where
  | status (total : Option ℕ)
  | data (start last : ℕ) (total : Option ℕ)
  deriving DecidableEq

/-- A range that is refused. -/
def invalidContentRange (message : String) : Except Response ResumableRequestRange :=
  .error (jsonUploadError 400 message)

/-- The part of `parse_resumable_range` in front of the slash, after the total. -/
def parseRange (range : Text) (total : Option ℕ) (bodyIsEmpty : Bool) :
    Except Response ResumableRequestRange :=
  if range = ['*'] then
    if !bodyIsEmpty then invalidContentRange "A resumable status query must have an empty body."
    else .ok (.status total)
  else
    match splitOnce '-' range with
    | none => invalidContentRange "Content-Range byte range is invalid."
    | some (start, last) =>
      match parseU64 (String.ofList start), parseU64 (String.ofList last) with
      | none, _ => invalidContentRange "Content-Range start is invalid."
      | some _, none => invalidContentRange "Content-Range end is invalid."
      | some start, some last =>
        if last < start || total.any (last ≥ ·) then
          invalidContentRange "Content-Range exceeds the declared upload size."
        else .ok (.data start last total)

/-- `parse_resumable_range` -/
def parseResumableRange (req : Request) : Except Response ResumableRequestRange :=
  match req.header "content-range" with
  | none =>
    if req.body.isEmpty then .ok (.data 0 0 (some 0))
    else .ok (.data 0 (req.body.length - 1) (some req.body.length))
  | some value =>
    if !startsWith "bytes " value then invalidContentRange "Content-Range is invalid."
    else
      match splitOnce '/' (value.toList.drop 6) with
      | none => invalidContentRange "Content-Range is invalid."
      | some (range, total) =>
        if total = ['*'] then parseRange range none req.body.isEmpty
        else
          match parseU64 (String.ofList total) with
          | none => invalidContentRange "Content-Range total is invalid."
          | some total => parseRange range (some total) req.body.isEmpty

/-! ### Calls -/

/-- A call that reads the records of uploads. -/
def lookup {α : Type} (g : System → α) : Handler α :=
  .choose fun n ↦ if n = 0 then Prog.read g else failing .other ioError

/-- A call that changes the records of uploads. -/
def record (f : System → System) : Handler Unit := mutation f fun _ ↦ .ok ()

namespace System

/-- Write a session to the store. -/
def saveSession (id : String) (session : Option ResumableSession) (S : System) : System :=
  { S with sessions := S.sessions.set id session }

/-- Put a session into the cache. -/
def cacheSession (id : String) (session : Option ResumableSession) (S : System) : System :=
  { S with cache := S.cache.set id session }

/-- Stage an item of a session. -/
def stage (id item : String) (data : Bytes) (S : System) : System :=
  { S with staged := S.staged.set id (some ((S.payloads id).set item (some data))) }

/-- `delete_upload_session` -/
def unstage (id : String) (S : System) : System := { S with staged := S.staged.set id none }

/-- Write or remove the decision to cancel an upload. -/
def decide (id : String) (decision : Option UploadCancellation) (S : System) : System :=
  { S with cancellations := S.cancellations.set id decision }

end System

/-- `GCS_RESUMABLE_SESSION_LIFETIME_DAYS`, in nanoseconds. -/
def sessionLifetime : ℕ := 7 * 86400 * 1000000000

/-- `remove_resumable_session` -/
def removeResumableSession (id : String) : Handler Unit :=
  Prog.bind (modify (System.cacheSession id none)) fun _ ↦
    (record (System.saveSession id none)).bind fun _ ↦ record (System.unstage id)

section Handlers

variable (E : Env) (C : Crates) (now : Time)

/-- `load_resumable_session` -/
def loadResumableSession (id : String) : Handler (Option ResumableSession) :=
  Prog.bind (Prog.read fun S ↦ S.cache[id]?) fun cached ↦
    (lookup fun S ↦ S.sessions[id]?).bind fun saved ↦
      let session := cached.or saved
      if session.any fun session ↦ session.initiatedAt + sessionLifetime ≤ now then
        (removeResumableSession id).bind fun _ ↦ ret none
      else
        ret session

/-- `finish_cancelled_xml_upload` -/
def finishCancelledXmlUpload (id : String) : Handler Bool :=
  (lookup fun S ↦ S.cancellations[id]?).bind fun
    | none => ret false
    | some decision =>
      if decision.sessionId ≠ id then
        fail (.internalError "Cancelled upload identity does not match its session")
      else
        (removeResumableSession id).bind fun _ ↦ (getBucket .other decision.bucket).attempt.bind fun
          | .error .bucketNotFound =>
            (record (System.decide id none)).bind fun _ ↦ ret false
          | .error e => fail e
          | .ok B =>
            if now < decision.expiresAt && B.createdAt = decision.bucketCreatedAt then ret true
            else (record (System.decide id none)).bind fun _ ↦ ret false

/-! ### Starting -/

/-- A session that has received nothing. -/
def newSession (b : String) (key : Text) (viaJson : Bool) (contentType : String)
    (metadata : Table String String) (crc32c : Option UInt32)
    (preconditions : GenerationPreconditions) (total : Option ℕ) : ResumableSession where
  bucket := b
  key := key
  initiatedViaJson := some viaJson
  contentType := contentType
  metadata := metadata
  crc32c := crc32c
  ifGenerationMatch := preconditions.expected
  ifGenerationNotMatch := preconditions.rejected
  received := 0
  total := total
  chunks := []
  calculatedCrc32c := 0
  initiatedAt := now

/-- `x-upload-content-length` -/
def declaredTotal (req : Request) : Option ℕ := (req.header "x-upload-content-length").bind parseU64

/-- Draw an identity, and write a session under it. -/
def startSession (status : ℕ) (session : ResumableSession) : Handler Response :=
  Prog.bind (act none (fun S : System ↦ { S with vault := S.vault.draw (S.vault.drawn + 1) })
      fun S ↦ E.uuid S.vault.drawn) fun id ↦
    (record (System.saveSession id (some session))).bind fun _ ↦
      Prog.bind (modify (System.cacheSession id (some session))) fun _ ↦ ret (.started status id)

/-- What `create_resumable_session` asks of the request. -/
def admitResumableSession (req : Request) (b : String) : Except Response ResumableSession := do
  checkJsonUpload req
  refuseWhen (req.header "x-goog-hash").isSome (uploadMetadataErrorResponse (.unsupported
    ("X-Goog-Hash is supported on the final resumable upload request, not session " ++
      "initiation")))
  refuseWhen ((declaredTotal req).any (· > maxObjectSize)) (objectTooLargeResponse true)
  let metadata ← (Related.parseJsonUploadMetadata C req.body).mapError uploadMetadataErrorResponse
  let key ← requireName ((req.queryParam "name").or metadata.name)
  return newSession now b key true
    (metadata.contentType.getD ((req.header "x-upload-content-type").getD "application/octet-stream"))
    metadata.metadata metadata.crc32c (queryPreconditions req) (declaredTotal req)

/-- `create_resumable_session` -/
def createResumableSession (req : Request) (b : String) : Handler Response :=
  match admitResumableSession C now req b with
  | .error response => ret response
  | .ok session => startSession E 200 session

/-- `create_xml_resumable_session` -/
def createXmlResumableSession (req : Request) (b : String) (key : Text) : Handler Response :=
  if !req.body.isEmpty then
    ret (.xmlError 400 "InvalidArgument"
      "A resumable initiation request must not contain object data.")
  else if (declaredTotal req).any (· > maxObjectSize) then
    ret (objectTooLargeResponse false)
  else
    startSession E 201 (newSession now b key false
      (((req.header "x-upload-content-type").or (req.header "content-type")).getD
        "application/octet-stream")
      (metadataFromHeaders req) none ⟨req.header "x-goog-if-generation-match", none⟩
      (declaredTotal req))

/-! ### Cancellation -/

/-- The decision that is written down when an upload of the XML API is cancelled. -/
def decideCancellation (id : String) (session : ResumableSession) : Handler Unit :=
  if session.initiatedViaJson = some false then
    (getBucket .other session.bucket).bind fun B ↦ record (System.decide id (some
      ⟨id, session.bucket, B.createdAt, session.initiatedAt + sessionLifetime⟩))
  else
    ret ()

/-- The answer to a request for a session that is not there. -/
def sessionNotFound : Response :=
  jsonUploadError 404 "The resumable upload session does not exist."

/-- The deletion of a session in `complete_resumable_upload`. -/
def cancelResumableUpload (id : String) : Handler Response :=
  (loadResumableSession now id).bind fun
    | none => ret sessionNotFound
    | some session => (decideCancellation id session).bind fun _ ↦
        (removeResumableSession id).bind fun _ ↦
          ret (.empty (if session.initiatedViaJson = some true then 499 else 204))

/-! ### Chunks -/

/-- Why a range of bytes is refused: what `complete_resumable_upload` asks before it takes any. -/
def refuseRange (session : ResumableSession) (length start last : ℕ) (total : Option ℕ) :
    Option Response :=
  if total.any (· > maxObjectSize) then some (objectTooLargeResponse true)
  else if last ≥ maxObjectSize then some (objectTooLargeResponse true)
  else if (if total = some 0 && length = 0 then 0 else last - start + 1) ≠ length then
    some (jsonUploadError 400 "Content-Range does not match the request body length.")
  else if start > session.received then
    some (jsonUploadError 400 "The resumable upload contains a gap before this chunk.")
  else if session.total.isSome && total.isSome && session.total ≠ total then
    some (jsonUploadError 400 "The upload total does not match the existing resumable session.")
  else if !(total.any fun total ↦ last + 1 = total) && length % (256 * 1024) ≠ 0 then
    some (jsonUploadError 400 "Non-final resumable chunks must be a multiple of 256 KiB.")
  else none

/-- `chunk-{:020}` -/
def itemName (n : ℕ) : String :=
  let digits := Nat.toDigits 10 n
  String.ofList ("chunk-".toList ++ (List.replicate (20 - digits.length) '0' ++ digits))

/-- Whether there are bytes behind those that were received. -/
def hasNewBytes (session : ResumableSession) (last : ℕ) : Bool := last > session.received - 1

/-- The bytes of a request behind those that were received. -/
def newBytes (session : ResumableSession) (body : Bytes) (start last : ℕ) : Bytes :=
  (body.drop (session.received - start)).take (last + 1 - session.received)

/-- The session after a chunk of new bytes. -/
def withChunk (combine : UInt32 → UInt32 → ℕ → UInt32) (session : ResumableSession) (data : Bytes)
    (last : ℕ) : ResumableSession :=
  { session with
    calculatedCrc32c := combine session.calculatedCrc32c (E.crc32cAppend 0 data)
      (last + 1 - session.received)
    chunks := session.chunks ++
      [⟨itemName session.chunks.length, last + 1 - session.received, E.crc32cAppend 0 data⟩]
    received := last + 1 }

/-! ### Completion -/

/-- `resumable_checksum_error` -/
def resumableChecksumError (json : Bool) (error : UploadMetadataError) : Response :=
  if json then uploadMetadataErrorResponse error
  else
    match error with
    | .checksumMismatch message => .xmlError 400 "BadDigest" message
    | .invalid message => .xmlError 400 "InvalidHash" message
    | .unsupported message => .xmlError 501 "NotImplemented" message

/-- The checksums that are asked for before an upload is published. -/
def checkUploadCrc32c (req : Request) (session : ResumableSession) : Except Response Unit := do
  let json : Bool := session.initiatedViaJson ≠ some false
  let header ← (requestCrc32c C req).mapError (resumableChecksumError json)
  let expected ← (combinedCrc32c session.crc32c header).mapError (resumableChecksumError json)
  match expected with
  | none => .ok ()
  | some expected =>
    refuseWhen (expected ≠ session.calculatedCrc32c)
      (resumableChecksumError json (checksumMismatch E expected session.calculatedCrc32c))

/-- The preconditions of a session. -/
def ResumableSession.preconditions (session : ResumableSession) : GenerationPreconditions :=
  ⟨session.ifGenerationMatch, session.ifGenerationNotMatch⟩

/-- The items of a session, read one after the other. -/
def composed (session : ResumableSession) (id : String) (S : System) : Option Bytes :=
  (session.chunks.mapM fun chunk ↦ (S.payloads id)[chunk.item]?).map List.flatten

/-- `compose_upload_payloads` -/
def composeUploadPayloads (session : ResumableSession) (id : String) (o : Object)
    (condition : Option ObjectCondition) : Handler Bool :=
  (lookup (composed session id)).bind fun
    | none => fail (.internalError "Failed to open staged upload item")
    | some data => storeObject E session.bucket session.key o data condition (some id)

/-- The object that the upload of a session stores over `existing`. -/
def uploadedObject (req : Request) (session : ResumableSession) (existing : Option Object)
    (etag : String) : Object :=
  { objectFor E C now existing session.key [] session.contentType
      ((metadataFromHeaders req).toList.foldl (fun table entry ↦ table.set entry.1 (some entry.2))
        session.metadata) etag session.calculatedCrc32c with
    size := session.received }

/-- The answer to the request that completes an upload. -/
def uploadedResponse (session : ResumableSession) (o : Object) : Response :=
  if session.initiatedViaJson = some false then
    .written ("\"" ++ o.etag ++ "\"") (generationFromMetadata o.metadata)
      (metagenerationFromMetadata o.metadata)
      (some ("crc32c=" ++ E.base64 session.calculatedCrc32c))
  else
    .document 200 (jsonBlobRecordMetadata C session.bucket o)

/-- Publication, once the object that exists was looked up. -/
def publishOver (req : Request) (id : String) (session : ResumableSession)
    (existing : Option Object) : Handler Response :=
  match uploadCondition existing.isSome session.preconditions with
  | none => ret (uploadPreconditionFailed session.preconditions)
  | some condition => .choose fun n ↦
      (composeUploadPayloads E session id (uploadedObject E C now req session existing (E.uuid n))
        condition).bind fun
      | false => ret (uploadPreconditionFailed session.preconditions)
      | true => (getObjectMetadata .other session.bucket session.key).bind fun o ↦
          (removeResumableSession id).bind fun _ ↦ ret (uploadedResponse E C session o)

/-- The last part of `complete_resumable_upload`: the whole object has been received. -/
def publishUpload (req : Request) (id : String) (session : ResumableSession) : Handler Response :=
  match checkUploadCrc32c E C req session with
  | .error response => ret response
  | .ok () => (foreignDataProtectionActive C now session.bucket).bind fun foreign ↦
      if foreign then ret foreignDataProtectionJsonResponse
      else (existingObjectIsRetained now session.bucket session.key).bind fun retained ↦
        if retained then ret retentionPolicyNotMetResponse
        else (getObjectMetadata .other session.bucket session.key).attempt.bind fun existing ↦
          publishOver E C now req id session existing.toOption

/-- Write down how far a session has come, and publish it if it is complete. -/
def continueUpload (req : Request) (id : String) (session : ResumableSession) (final : Bool) :
    Handler Response :=
  (record (System.saveSession id (some session))).bind fun _ ↦
    Prog.bind (modify (System.cacheSession id (some session))) fun _ ↦
      if !final || session.total ≠ some session.received then ret (.incomplete session.received)
      else publishUpload E C now req id session

variable (combine : UInt32 → UInt32 → ℕ → UInt32)

/-- The part of `complete_resumable_upload` about a range of bytes. -/
def takeRange (req : Request) (id : String) (session : ResumableSession) (start last : ℕ)
    (total : Option ℕ) : Handler Response :=
  match refuseRange session req.body.length start last total with
  | some response => ret response
  | none =>
    let session := { session with total := session.total.or total }
    let final := total.any fun total ↦ last + 1 = total
    if hasNewBytes session last then
      let data := newBytes session req.body start last
      (record (System.stage id (itemName session.chunks.length) data)).bind fun _ ↦
        continueUpload E C now req id (withChunk E combine session data last) final
    else
      continueUpload E C now req id session final

/-- The part of `complete_resumable_upload` about bytes. -/
def putResumableUpload (req : Request) (id : String) : Handler Response :=
  match invalidJsonMutationHeaders req with
  | some response => ret response
  | none => (loadResumableSession now id).bind fun
    | none => ret sessionNotFound
    | some session =>
      match parseResumableRange req with
      | .error response => ret response
      | .ok (.status total) =>
        if session.total.isSome && total.isSome && session.total ≠ total then
          ret (jsonUploadError 400
            "The upload total does not match the existing resumable session.")
        else ret (.incomplete session.received)
      | .ok (.data start last total) => takeRange E C now combine req id session start last total

/-- `complete_resumable_upload` -/
def completeResumableUpload (req : Request) (id : String) : Handler Response :=
  match req.method with
  | .put => (finishCancelledXmlUpload now id).bind fun cancelled ↦
      if cancelled then ret (.empty 204) else putResumableUpload E C now combine req id
  | .delete => (finishCancelledXmlUpload now id).bind fun cancelled ↦
      if cancelled then ret (.empty 204) else cancelResumableUpload now id
  | _ => ret (jsonUploadError 405 "Resumable upload sessions require PUT or DELETE.")

end Handlers

end Sqrzl.Gcs
