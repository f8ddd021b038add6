import SqrzlEmulator.Oci.Signature

/-!
# Pre-authenticated requests

`handle_par_control` and `handle_par_request` of `providers/oci.rs`. A pre-authenticated request (a
PAR) is a bearer token. Its record and the list of the PARs of a bucket are two entries of the
provider state, outside the bucket, and **they are written one after the other**.

`handleParControl` gives the answer of a control request and the writes that it makes for it, in
their order. `handleParRequest` gives the access to object data that a request with a token comes
to.
-/

namespace Sqrzl.Oci

open Percent S3

/-! ### State -/

/-- The access types of a PAR. -/
inductive AccessType where
  | objectRead
  | objectWrite
  | objectReadWrite
  | anyObjectRead
  | anyObjectWrite
  | anyObjectReadWrite
  deriving DecidableEq

namespace AccessType

/-- The access type of a text. -/
def ofString : String → Option AccessType
  | "ObjectRead" => some objectRead
  | "ObjectWrite" => some objectWrite
  | "ObjectReadWrite" => some objectReadWrite
  | "AnyObjectRead" => some anyObjectRead
  | "AnyObjectWrite" => some anyObjectWrite
  | "AnyObjectReadWrite" => some anyObjectReadWrite
  | _ => none

/-- `access_type.starts_with("Object")` -/
def isObjectScoped : AccessType → Bool
  | objectRead | objectWrite | objectReadWrite => true
  | _ => false

/-- `access_type.contains("Write")` -/
def writes : AccessType → Bool
  | objectWrite | objectReadWrite | anyObjectWrite | anyObjectReadWrite => true
  | _ => false

/-- `access_type.contains("Read")` -/
def reads : AccessType → Bool
  | objectRead | objectReadWrite | anyObjectRead | anyObjectReadWrite => true
  | _ => false

end AccessType

/-- `OciPreauthenticatedRequest` -/
structure Par where
  id : Text
  token : Text
  name : Text
  bucket : Text
  objectName : Option Text
  accessType : AccessType
  timeCreated : Time
  timeExpires : Time
  deriving DecidableEq

/-- The buckets by the times of their creation, the keys of their multipart uploads by the
identities of these, and the two kinds of provider state. These are filed under `compute_object_id`;
the tables stand for them where no two of their keys have the same one (`Env.CollisionFree`). -/
structure World where
  buckets : Table Text Time := ∅
  uploads : Table Text (Table Text Text) := ∅
  pars : Table Text Par := ∅
  index : Table Text (List Text) := ∅

/-- An answer that is not a success, or an error of the handler. -/
inductive Failure where
  | answered (refusal : Refusal)
  | failed (message : String)
  deriving DecidableEq

/-! ### Control requests -/

/-- The fields that the creation of a PAR reads from a document. -/
structure ParDocument where
  name : Option Text := none
  accessType : Option String := none
  objectName : Option Text := none
  timeExpires : Option Text := none

/-- What a control request asks for. -/
inductive ParControl where
  /-- `POST`, with the document if the body is one. -/
  | create (document : Option ParDocument)
  | list
  | get (id : Text)
  | delete (id : Text)

/-- `encode_object_path` -/
def encodeObjectPath (object : Text) : Text :=
  join '/' ((object.splitOn '/').map fun segment ↦ Auth.uriEncode segment true)

/-- The path of an object behind a token. -/
def objectPrefix (bucket : Text) : Text :=
  "/n/".toList ++ ociNamespace ++ "/b/".toList ++ bucket ++ "/o/".toList

/-- The path of a multipart upload behind a token. -/
def uploadPrefix (bucket : Text) : Text :=
  "/n/".toList ++ ociNamespace ++ "/b/".toList ++ bucket ++ "/u/".toList

/-- The answer of a control request: the PARs that it tells of. -/
abbrev ParAnswer : Type := Except Failure (List Par)

/-- A state write. -/
abbrev Write : Type := World → World

/-- `save_json` of a PAR. -/
def savePar (id : Text) (par : Option Par) : Write := fun w ↦ { w with pars := w.pars.set id par }

/-- The list of a bucket's PARs. -/
def World.indexOf (w : World) (bucket : Text) : List Text := w.index[bucket]?.getD []

/-- The list of a bucket's PARs is loaded, changed and saved. -/
def updateIndex (bucket : Text) (change : List Text → List Text) : Write := fun w ↦
  { w with index := w.index.set bucket (some (change (w.indexOf bucket))) }

/-- What is on the way of the PAR of a document, which gets the identity `id`. -/
def parseDocument (parseRfc3339 : Text → Option Time) (bucket : Text) (document : Option ParDocument)
    (id : Text) (now : Time) : Except Failure Par :=
  match document with
  | none => .error (.failed "The OCI PAR request body is not valid JSON")
  | some document =>
    match document.name.filter (!·.isEmpty) with
    | none => .error (.failed "The OCI PAR name is required")
    | some name =>
      match document.accessType with
      | none => .error (.failed "The OCI PAR accessType is required")
      | some accessType =>
        match AccessType.ofString accessType with
        | none => .error (.answered (badPath "The PAR accessType is invalid."))
        | some accessType =>
          if accessType.isObjectScoped && document.objectName.isNone then
            .error (.answered (badPath "Object-scoped PARs require objectName."))
          else
            match (document.timeExpires.bind parseRfc3339).filter (now < ·) with
            | none => .error (.answered (badPath "timeExpires must be a future RFC3339 timestamp."))
            | some timeExpires =>
              .ok ⟨id, id, name, bucket, document.objectName, accessType, now, timeExpires⟩

/-- The answer for a bucket that is not there. -/
def bucketNotFound : Refusal :=
  ⟨404, "BucketNotFound", "The bucket does not exist."⟩

/-- The answer for a PAR that is not there. -/
def parNotFound : Refusal :=
  ⟨404, "NotAuthorizedOrNotFound", "The pre-authenticated request does not exist."⟩

/-- The PARs of a bucket that have not expired. -/
def listPars (w : World) (bucket : Text) (now : Time) : List Par :=
  ((w.indexOf bucket).filterMap fun id ↦ w.pars[id]?).filter fun par ↦ now < par.timeExpires

/-- `handle_par_control` under the bucket `bucket`: the answer, and the writes that are made for it.
A new PAR gets the identity `newId`. -/
def handleParControl (parseRfc3339 : Text → Option Time) (w : World) (bucket : Text)
    (control : ParControl) (newId : Text) (now : Time) : ParAnswer × List Write :=
  if w.buckets[bucket]?.isNone then (.error (.answered bucketNotFound), [])
  else
    match control with
    | .create document =>
      match parseDocument parseRfc3339 bucket document newId now with
      | .error failure => (.error failure, [])
      | .ok par => (.ok [par], [savePar newId (some par), updateIndex bucket (· ++ [newId])])
    | .list => (.ok (listPars w bucket now), [])
    | .get id =>
      match w.pars[id]? with
      | none => (.error (.answered parNotFound), [])
      | some par => (.ok [par], [])
    | .delete id =>
      match w.pars[id]? with
      | none => (.error (.answered parNotFound), [])
      | some par => (.ok [par], [savePar id none, updateIndex bucket (·.filter (· ≠ id))])

/-! ### Requests with a token -/

/-- An access to the data of an object. -/
inductive Access where
  | putObject (bucket object : Text)
  | getObject (bucket object : Text)
  | headObject (bucket object : Text)
  | createUpload (bucket object : Text)
  | uploadPart (bucket object uploadId partNumber : Text)
  | commitUpload (bucket object uploadId : Text)
  | abortUpload (bucket object uploadId : Text)
  deriving DecidableEq

namespace Access

/-- The bucket of an access. -/
def bucket : Access → Text
  | putObject b _ | getObject b _ | headObject b _ | createUpload b _ | uploadPart b _ _ _
  | commitUpload b _ _ | abortUpload b _ _ => b

/-- The object of an access, which for an upload is the key of the upload. -/
def object : Access → Text
  | putObject _ o | getObject _ o | headObject _ o | createUpload _ o | uploadPart _ o _ _
  | commitUpload _ o _ | abortUpload _ o _ => o

/-- The access reads data, and does not write any. -/
def isRead : Access → Bool
  | getObject .. | headObject .. => true
  | _ => false

end Access

/-- The answer to an access that the PAR does not cover. -/
def forbidden (message : String) : Failure :=
  .answered ⟨403, "NotAuthorizedOrNotFound", message⟩

/-- The answer to a document that is not understood. -/
def invalidParameter (message : String) : Failure := .answered (badPath message)

/-- `str::strip_prefix` -/
def stripPrefix (start t : Text) : Option Text :=
  if start.isPrefixOf t then some (t.drop start.length) else none

/-- The multipart half of `handle_par_request`. -/
def parUpload (K : Crates) (w : World) (par : Par) (req : Request) (suffix : Text) :
    Except Failure Access :=
  if !par.accessType.writes then
    .error (forbidden "The pre-authenticated request does not allow writes.")
  else
    match Auth.findText "/id/".toList suffix with
    | none => .error (invalidParameter "The multipart PAR access path is invalid.")
    | some (rawObject, uploadSuffix) =>
      match decodeObjectPath K rawObject with
      | .error refusal => .error (.answered refusal)
      | .ok requestedObject =>
        match uploadSuffix.splitOn '/' with
        | [] | [] :: _ => .error (invalidParameter "The multipart upload ID is required.")
        | uploadId :: rest =>
          match w.uploads[par.bucket]?.bind (·[uploadId]?) with
          | none => .error (.answered
              ⟨404, "MultipartUploadNotFound", "The multipart upload does not exist."⟩)
          | some key =>
            if requestedObject ≠ key || par.objectName.any (· ≠ key) then
              .error (forbidden "The multipart upload is outside the PAR object scope.")
            else
              match String.ofList req.method with
              | "PUT" =>
                match rest.head?.or (req.queryParam K "uploadPartNum") with
                | none => .error (invalidParameter "The upload part number is required.")
                | some partNumber => .ok (.uploadPart par.bucket key uploadId partNumber)
              | "POST" => .ok (.commitUpload par.bucket key uploadId)
              | "DELETE" => .ok (.abortUpload par.bucket key uploadId)
              | _ => .error (.answered (methodNotAllowed "Unsupported PAR multipart operation."))

/-- The object that a request names, within the scope of the PAR. -/
def parObject (K : Crates) (par : Par) (suffix : Text) : Except Failure Text :=
  match par.objectName with
  | some object =>
    if suffix ≠ objectPrefix par.bucket ++ encodeObjectPath object then
      .error (forbidden "The requested object is outside the PAR object scope.")
    else .ok object
  | none =>
    match stripPrefix (objectPrefix par.bucket) suffix with
    | none => .error (forbidden "The requested object is outside the PAR scope.")
    | some rawObject =>
      match Auth.decodeUriPath K.toCrates rawObject with
      | none => .error (.failed "Invalid encoded OCI object path")
      | some object => .ok object

/-- The access of a request to an object. -/
def parAccess (par : Par) (req : Request) (object : Text) : Except Failure Access :=
  if req.method = "PUT".toList && req.header "opc-multipart".toList = some "true".toList then
    if !par.accessType.writes then
      .error (forbidden "The pre-authenticated request does not allow writes.")
    else .ok (.createUpload par.bucket object)
  else
    let refused := forbidden "The pre-authenticated request does not allow this operation."
    match String.ofList req.method with
    | "PUT" => if par.accessType.writes then .ok (.putObject par.bucket object) else .error refused
    | "GET" => if par.accessType.reads then .ok (.getObject par.bucket object) else .error refused
    | "HEAD" => if par.accessType.reads then .ok (.headObject par.bucket object) else .error refused
    | _ => .error refused

/-- The token of a path, and what is behind it. -/
def parToken (path : Text) : Option (Text × Text) :=
  match (path.dropWhile (· = '/')).splitOn '/' with
  | p :: token :: rest =>
    if p = "p".toList && !token.isEmpty then some (token, '/' :: join '/' rest) else none
  | _ => none

/-- `handle_par_request`, up to the handler of the object or of the upload. -/
def handleParRequest (K : Crates) (w : World) (req : Request) (now : Time) :
    Except Failure Access :=
  match parToken req.path with
  | none => .error (invalidParameter "Invalid PAR access path.")
  | some (token, suffix) =>
    match w.pars[token]? with
    | none => .error (.answered parNotFound)
    | some par =>
      if par.timeExpires ≤ now then .error (.answered
        ⟨401, "NotAuthenticated", "The pre-authenticated request has expired."⟩)
      else
        match stripPrefix (uploadPrefix par.bucket) suffix with
        | some uploadSuffix => parUpload K w par req uploadSuffix
        | none => (parObject K par suffix).bind (parAccess par req)

end Sqrzl.Oci
