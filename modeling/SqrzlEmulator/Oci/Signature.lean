import SqrzlEmulator.Auth.Policy

/-!
# Requests of the OCI front door

`providers/oci.rs` up to the handlers: the parts of a path, the verification of a signature by
`authorize`, and the operation that `handle_request` comes to.

A signature covers the lines that the `authorization` header lists, in the order of that list. The
list is the client's own, so `authorize` asks for the names that have to be in it: the request
target, the host and the date, and for a document in the body its hash, its type and its length.
-/

namespace Sqrzl.Oci

open Percent S3

/-! ### Requests -/

/-- A request with what the `http` crate says of its parts. -/
structure Request extends Auth.HttpRequest where
  method_word : ' ' ∉ method
  path_plain : '\n' ∉ path ∧ '?' ∉ path
  query_plain : ∀ q, query = some q → '\n' ∉ q
  headers_tokens : ∀ h ∈ headers, ':' ∉ h.1 ∧ '\n' ∉ h.1

/-- The methods of the requests that are written out. -/
theorem word_get : ' ' ∉ "GET".toList := by decide

theorem word_put : ' ' ∉ "PUT".toList := by decide

theorem word_post : ' ' ∉ "POST".toList := by decide

/-- A request without a query, and without headers. -/
theorem plain_of_no_query : ∀ q, (none : Option Text) = some q → '\n' ∉ q := fun _ h ↦ by cases h

theorem tokens_of_no_headers : ∀ h ∈ ([] : List (Text × Option Text)), ':' ∉ h.1 ∧ '\n' ∉ h.1 :=
  fun _ h ↦ absurd h List.not_mem_nil

/-- `PathAndQuery::as_str` -/
def Request.target (req : Request) : Text := req.path ++ (req.query.map ('?' :: ·)).getD []

/-- What the front door takes from crates beyond those of the S3 door. -/
structure Crates extends Auth.Crates where
  base64Decode : Text → Option Bytes
  sha256 : Bytes → Bytes
  /-- `DateTime::parse_from_rfc2822` -/
  parseRfc2822 : Text → Option Time
  /-- `RsaPublicKey::from_public_key_pem` or `from_pkcs1_pem` accepts the text. -/
  isPublicKey : Text → Bool
  /-- `RsaSignature::try_from` accepts the bytes. -/
  isSignature : Bytes → Bool
  /-- `VerifyingKey::verify` under the key of a text. -/
  verify : Text → Text → Bytes → Bool

/-- `query_param` -/
def Request.queryParam (K : Crates) (req : Request) (name : String) : Option Text :=
  (Auth.parseQueryParams K.toCrates req.query)[name.toList]?

/-- The parts of `Config` and of its `VendorCredentials` for this front door, with the files that
can be read. -/
structure AuthConfig where
  enforceAuth : Bool
  tenancyOcid : Option Text
  userOcid : Option Text
  keyFingerprint : Option Text
  publicKeyPath : Option Text
  readToString : Text → Option Text

/-- `oci_auth_enforced` -/
def AuthConfig.ociAuthEnforced (config : AuthConfig) : Bool :=
  config.enforceAuth || config.tenancyOcid.isSome || config.userOcid.isSome ||
    config.keyFingerprint.isSome || config.publicKeyPath.isSome

/-- `oci_key_id` -/
def AuthConfig.ociKeyId (config : AuthConfig) : Option Text := do
  return join '/' [← config.tenancyOcid, ← config.userOcid, ← config.keyFingerprint]

/-- The text of the configured key. -/
def AuthConfig.publicKey (config : AuthConfig) : Option Text :=
  config.publicKeyPath.bind config.readToString

/-! ### Paths -/

/-- `OCI_NAMESPACE` -/
def ociNamespace : Text := "sqrzl-emulator".toList

/-- The part of a text before the first slash, and the part behind it, if it is there and not
empty. -/
def cutSlash (t : Text) : Text × Option Text :=
  match splitOnce '/' t with
  | none => (t, none)
  | some (a, b) => (a, if b.isEmpty then none else some b)

/-- The answer to a path that is not understood. -/
def badPath (message : String) : Refusal := ⟨400, "InvalidParameter", message⟩

/-- The parts of a path behind `b/`. -/
def parseBucketRoute (route : Text) : Except Refusal (List Text) :=
  let (bucket, resource) := cutSlash route
  if bucket.isEmpty then .error (badPath "OCI requests must include a bucket name")
  else
    match resource with
    | none => .ok ["b".toList, bucket]
    | some resource =>
      let (kind, object) := cutSlash resource
      .ok (["b".toList, bucket, kind] ++ object.toList)

/-- `parse_path`: the namespace, the parts, and whether the path names the namespace. -/
def parsePath (req : Request) : Except Refusal (Text × List Text × Bool) :=
  let path := if req.path.head? = some '/' then req.path.tail else req.path
  if path = "n".toList || path = "n/".toList then .ok (ociNamespace, [], false)
  else if !"n/".toList.isPrefixOf path then .error (badPath "OCI requests must start with /n")
  else
    let (namespace', route) := cutSlash (path.drop 2)
    if namespace'.isEmpty then .error (badPath "OCI requests must include a namespace")
    else
      match route with
      | none => .ok (namespace', [], true)
      | some route =>
        if route = "b".toList || route = "b/".toList then .ok (namespace', ["b".toList], true)
        else if !"b/".toList.isPrefixOf route then .ok (namespace', [route], true)
        else (parseBucketRoute (route.drop 2)).map fun parts ↦ (namespace', parts, true)

/-! ### Signatures -/

/-- `str::trim` -/
def trim (t : Text) : Text := Auth.trimmed t

/-- The text between two quotation marks. -/
def unquote (t : Text) : Option Text :=
  match t with
  | '"' :: t => if t.getLast? = some '"' then some t.dropLast else none
  | _ => none

/-- One parameter of an `authorization` header. -/
def authParameter (text : Text) : Option (Text × Text) := do
  let (name, value) ← splitOnce '=' (trim text)
  let value ← unquote (trim value)
  if (trim name).isEmpty || value.isEmpty then none else some (trim name, value)

/-- The parameters of an `authorization` header, each of them once. -/
def authParameters (text : Text) : Option (Table Text Text) :=
  (text.splitOn ',').foldlM (fun parameters text ↦ do
    let (name, value) ← authParameter text
    if parameters.contains name then none else some (parameters.set name (some value))) ∅

/-- The answer to a signature that is refused. -/
def notAuthenticated (message : String) : Refusal := ⟨401, "NotAuthenticated", message⟩

/-- The answer to an authorization header that is not understood. -/
def malformed : Refusal :=
  notAuthenticated "The required information to complete authentication was not provided."

/-- The parameters `keyId`, `headers` and `signature` are there, and the algorithm is right. -/
def wellFormed (parameters : Table Text Text) : Bool :=
  parameters["algorithm".toList]? = some "rsa-sha256".toList &&
    (["keyId", "headers", "signature"].all fun name ↦
      parameters[name.toList]?.any fun value ↦ !value.isEmpty) &&
    !parameters["version".toList]?.any fun version ↦ version ≠ "1".toList

/-- `(request-target)` -/
def requestTarget : Text := "(request-target)".toList

/-- The header that holds the date of a request. -/
def Request.dateHeader (req : Request) : Text :=
  if (req.header "x-date".toList).isSome then "x-date".toList else "date".toList

/-- The names that every signature covers. -/
def coversHead (names : List Text) : Bool :=
  names.contains requestTarget && names.contains "host".toList &&
    (names.contains "date".toList || names.contains "x-date".toList)

/-- The names of the headers that describe a body. -/
def contentNames : List Text :=
  ["x-content-sha256".toList, "content-type".toList, "content-length".toList]

/-- The request is a `PutObject` or an `UploadPart`. -/
def uploadPut (req : Request) (parts : List Text) : Bool :=
  req.method = "PUT".toList && 4 ≤ parts.length && parts[0]? = some "b".toList &&
    (parts[2]? = some "o".toList || parts[2]? = some "u".toList)

/-- A request with a body has to sign what describes it. -/
def coversContent (req : Request) (parts names : List Text) : Bool :=
  !(req.method = "POST".toList || req.method = "PUT".toList) || uploadPut req parts ||
    contentNames.all fun name ↦ names.contains name

/-- A hash of the body is signed and right. -/
def hashMatches (K : Crates) (req : Request) (names : List Text) : Bool :=
  match req.header "x-content-sha256".toList with
  | none => true
  | some value => names.contains "x-content-sha256".toList &&
      K.base64Decode value = some (K.sha256 req.body)

/-- A signed length is right. -/
def lengthMatches (req : Request) (names : List Text) : Bool :=
  !names.contains "content-length".toList ||
    ((req.header "content-length".toList).bind fun value ↦ parseU64 (String.ofList value)) =
      some req.body.length

/-- Two times are at most five minutes apart. -/
def Recent (date now : Time) : Prop :=
  date ≤ now + Auth.minutes 5 ∧ now ≤ date + Auth.minutes 5

instance (date now : Time) : Decidable (Recent date now) := inferInstanceAs (Decidable (_ ∧ _))

/-- The line that a signature covers for a name. -/
def signingLine (req : Request) (name : Text) : Except Refusal Text :=
  if name = requestTarget then
    .ok (requestTarget ++ ": ".toList ++ Auth.toLower req.method ++ ' ' :: req.target)
  else if name ≠ Auth.toLower name then .error malformed
  else
    match req.header name with
    | none => .error malformed
    | some value => .ok (name ++ ": ".toList ++ Auth.normalizeHeaderValue value)

/-- The text that is signed. -/
def signingString (req : Request) (names : List Text) : Except Refusal Text := do
  return join '\n' (← names.mapM (signingLine req))

/-- The parameters of the request's signature, for the configured identity. -/
def signatureParameters (config : AuthConfig) (req : Request) : Except Refusal (Table Text Text) :=
  match req.header "authorization".toList with
  | none => .error (notAuthenticated "Missing authorization")
  | some auth =>
    if !"Signature ".toList.isPrefixOf auth then
      .error (notAuthenticated "Unsupported OCI auth scheme")
    else
      match (authParameters (auth.drop "Signature ".length)).filter (wellFormed ·) with
      | none => .error malformed
      | some parameters =>
        match config.ociKeyId with
        | none => .error (notAuthenticated
            "OCI authentication is enabled but its RSA identity is incomplete.")
        | some keyId =>
          if parameters["keyId".toList]? ≠ some keyId then
            .error (notAuthenticated "The OCI signing key ID is not configured.")
          else .ok parameters

/-- The names that the signature lists. -/
def signedNames (parameters : Table Text Text) : List Text :=
  Auth.splitWhitespace (parameters["headers".toList]?.getD [])

/-- What is asked of the names, the body and the date, before the signature is verified. -/
def checkNames (K : Crates) (req : Request) (parts names : List Text) (now : Time) :
    Except Refusal Unit :=
  if !coversHead names || !names.contains req.dateHeader || !coversContent req parts names ||
      !hashMatches K req names || !lengthMatches req names then .error malformed
  else if ((req.header req.dateHeader).bind K.parseRfc2822).any fun date ↦ Recent date now then
    .ok ()
  else .error (notAuthenticated "The OCI request date is outside the permitted clock skew.")

/-- The last step of `authorize`. -/
def verifySignature (K : Crates) (config : AuthConfig) (text : Text) (signature : Text) :
    Except Refusal Unit :=
  match config.publicKey with
  | none => .error malformed
  | some key =>
    if !K.isPublicKey key then .error malformed
    else
      match (K.base64Decode signature).filter (K.isSignature ·) with
      | none => .error malformed
      | some signature =>
        if K.verify key text signature then .ok ()
        else .error (notAuthenticated "OCI request signature verification failed.")

/-- `authorize` -/
def authorize (K : Crates) (config : AuthConfig) (req : Request) (parts : List Text) (now : Time) :
    Except Refusal Unit :=
  if !config.ociAuthEnforced then .ok ()
  else do
    let parameters ← signatureParameters config req
    checkNames K req parts (signedNames parameters) now
    let text ← signingString req (signedNames parameters)
    verifySignature K config text (parameters["signature".toList]?.getD [])

/-! ### Operations -/

/-- What a request asks for, as far as its path, its method and its query say. -/
inductive Operation where
  /-- The request names a pre-authenticated request and is not signed. -/
  | preauthenticated
  | getNamespace
  | createBucket
  | getBucket (bucket : Text)
  | deleteBucket (bucket : Text)
  | createMultipartUpload (bucket : Text)
  | uploadPart (bucket uploadId : Text)
  | commitMultipartUpload (bucket object uploadId : Text)
  | abortMultipartUpload (bucket uploadId : Text)
  | createPar (bucket : Text)
  | listPars (bucket : Text)
  | getPar (bucket id : Text)
  | deletePar (bucket id : Text)
  | listObjects (bucket : Text)
  | putObject (bucket object : Text)
  | getObject (bucket object : Text)
  | headObject (bucket object : Text)
  | deleteObject (bucket object : Text)
  deriving DecidableEq

/-- The answer to a method that a resource does not have. -/
def methodNotAllowed (message : String) : Refusal := ⟨405, "MethodNotAllowed", message⟩

/-- `handle_namespace_request` -/
def namespaceOperation (method : String) (explicitNamespace : Bool) : Except Refusal Operation :=
  match method with
  | "GET" =>
    if explicitNamespace then .error ⟨501, "NotImplemented",
      "OCI namespace metadata is not implemented by this emulator."⟩
    else .ok .getNamespace
  | _ => .error (methodNotAllowed "Unsupported OCI namespace operation")

/-- `handle_bucket_collection` -/
def collectionOperation (method : String) : Except Refusal Operation :=
  match method with
  | "POST" => .ok .createBucket
  | _ => .error (methodNotAllowed "Unsupported OCI bucket collection operation")

/-- `handle_bucket_request` -/
def bucketOperation (method : String) (bucket : Text) : Except Refusal Operation :=
  match method with
  | "POST" => .error ⟨501, "NotImplemented",
      "OCI bucket updates are not implemented by this emulator."⟩
  | "DELETE" => .ok (.deleteBucket bucket)
  | "GET" => .ok (.getBucket bucket)
  | _ => .error (methodNotAllowed "Unsupported OCI bucket operation")

/-- `decode_object_path` -/
def decodeObjectPath (K : Crates) (path : Text) : Except Refusal Text :=
  match Auth.decodeUriPath K.toCrates path with
  | none => .error (badPath "The object name is invalid.")
  | some object => .ok object

/-- `handle_multipart_request` -/
def multipartOperation (K : Crates) (req : Request) (bucket : Text) (object : Option Text) :
    Except Refusal Operation :=
  match object with
  | none =>
    match String.ofList req.method with
    | "POST" => .ok (.createMultipartUpload bucket)
    | _ => .error (methodNotAllowed "Unsupported OCI multipart collection operation")
  | some object => do
    let object ← decodeObjectPath K object
    match (req.queryParam K "uploadId").filter (!·.isEmpty) with
    | none => .error (badPath "The uploadId query parameter is required.")
    | some uploadId =>
      match String.ofList req.method with
      | "PUT" => .ok (.uploadPart bucket uploadId)
      | "POST" => .ok (.commitMultipartUpload bucket object uploadId)
      | "DELETE" => .ok (.abortMultipartUpload bucket uploadId)
      | _ => .error (methodNotAllowed "Unsupported OCI multipart operation")

/-- `handle_par_control`, up to the state that it reads. -/
def parOperation (method : String) (bucket : Text) (id : Option Text) :
    Except Refusal Operation :=
  match id with
  | none =>
    match method with
    | "POST" => .ok (.createPar bucket)
    | "GET" => .ok (.listPars bucket)
    | _ => .error (badPath "The PAR ID is required.")
  | some id =>
    match method with
    | "GET" => .ok (.getPar bucket id)
    | "DELETE" => .ok (.deletePar bucket id)
    | _ => .error (methodNotAllowed "Unsupported PAR control operation.")

/-- `handle_object_request` -/
def objectOperation (K : Crates) (req : Request) (bucket : Text) (object : Option Text) :
    Except Refusal Operation :=
  match object with
  | none =>
    match String.ofList req.method with
    | "GET" => .ok (.listObjects bucket)
    | _ => .error (methodNotAllowed "Unsupported OCI object list operation")
  | some object =>
    if (req.queryParam K "versionId").isSome then .error ⟨501, "NotImplemented",
      "OCI version-scoped object operations are not implemented by this emulator."⟩
    else do
      let object ← decodeObjectPath K object
      match String.ofList req.method with
      | "PUT" => .ok (.putObject bucket object)
      | "GET" => .ok (.getObject bucket object)
      | "HEAD" => .ok (.headObject bucket object)
      | "DELETE" => .ok (.deleteObject bucket object)
      | _ => .error (methodNotAllowed "Unsupported OCI object operation")

/-- The operation that the parts of a path name. -/
def operationOf (K : Crates) (req : Request) (explicitNamespace : Bool) (parts : List Text) :
    Except Refusal Operation :=
  let method := String.ofList req.method
  let unsupported : Except Refusal Operation := .error (badPath "Unsupported OCI path")
  match parts with
  | [] => namespaceOperation method explicitNamespace
  | [b] => if b = "b".toList then collectionOperation method else unsupported
  | [b, bucket] => if b = "b".toList then bucketOperation method bucket else unsupported
  | b :: bucket :: kind :: rest =>
    let object := if rest.isEmpty then none else some (join '/' rest)
    if b ≠ "b".toList then unsupported
    else if kind = "u".toList then multipartOperation K req bucket object
    else if kind = "p".toList then parOperation method bucket rest.head?
    else if kind = "o".toList then objectOperation K req bucket object
    else unsupported

/-- `handle_request`, up to the handler of an operation. -/
def handleRequest (K : Crates) (config : AuthConfig) (req : Request) (now : Time) :
    Except Refusal Operation :=
  if "/p/".toList.isPrefixOf req.path then .ok .preauthenticated
  else do
    let (namespace', parts, explicitNamespace) ← parsePath req
    authorize K config req parts now
    if explicitNamespace && namespace' ≠ ociNamespace then
      .error ⟨404, "NotAuthorizedOrNotFound",
        "The requested namespace does not exist or is not authorized."⟩
    else operationOf K req explicitNamespace parts

end Sqrzl.Oci
