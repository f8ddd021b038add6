import SqrzlEmulator.Auth.Canonical

/-!
# Authentication

The first two steps of `check_authorization`: `verify_sigv4_signature` refuses a request that shows
a signature which is not right, and `AuthInfo::from_request` reads who sent it. A request without
any signature passes the first step and is anonymous in the second.

A signature in the `authorization` header is verified over the request itself. A signature in the
query is verified over two maps, of which **the one of the headers holds the last visible value of
every name**, while a handler reads the first.
-/

namespace Sqrzl.Auth

open Percent S3

/-! ### Configuration -/

/-- The credentials of `Config`. -/
structure AuthConfig where
  accessKey : Option Text
  secretKey : Option Text

/-- `Config::enforce_auth` -/
def AuthConfig.enforceAuth (config : AuthConfig) : Bool :=
  config.accessKey.isSome && config.secretKey.isSome

/-- `str::contains` -/
def containsText (pattern : String) (t : Text) : Bool := (findText pattern.toList t).isSome

/-- `str::parse::<i64>` -/
def parseI64 (text : Text) : Option ℤ :=
  let magnitude (digits : Text) : Option ℤ :=
    if digits.isEmpty || !digits.all Char.isDigit then none
    else some ((digits.foldl (fun n c ↦ 10 * n + (c.toNat - '0'.toNat)) 0 : ℕ) : ℤ)
  (match text with
    | '+' :: digits => magnitude digits
    | '-' :: digits => (magnitude digits).map (-·)
    | digits => magnitude digits).filter fun n ↦ -2 ^ 63 ≤ n && n < 2 ^ 63

/-! ### Presigned URLs -/

/-- `PresignedValidationError` -/
inductive PresignedValidationError where
  | invalidRequest (message : String)
  | clockSkew
  | signatureMismatch (message : String)
  deriving DecidableEq

/-- `PresignedValidationError::to_string` -/
def PresignedValidationError.message : PresignedValidationError → String
  | invalidRequest message | signatureMismatch message => message
  | clockSkew => "Presigned URL date is too far in the future"

/-- What `PresignedUrl` keeps of a query. -/
structure PresignedUrl where
  date : Time
  expiresIn : ℤ
  signature : Text
  credential : Text
  queryParams : Table Text Text

/-- `PresignedUrl::from_query_params` -/
def PresignedUrl.fromQueryParams (K : Crates) (params : Table Text Text) :
    Except String PresignedUrl :=
  match params["X-Amz-Signature".toList]?.or params["Signature".toList]? with
  | none => .error "Missing signature"
  | some signature =>
    match (params["X-Amz-Expires".toList]?.or params["Expires".toList]?).bind parseI64 with
    | none => .error "Missing or invalid expires parameter"
    | some expiresIn =>
      match params["X-Amz-Date".toList]? with
      | none => .error "Missing X-Amz-Date parameter"
      | some amzDate =>
        match params["X-Amz-Credential".toList]? with
        | none => .error "Missing X-Amz-Credential parameter"
        | some credential =>
          match exactDate K amzDate with
          | none => .error "Invalid X-Amz-Date format"
          | some date => .ok ⟨date, expiresIn, signature, credential, params⟩

/-- `CredentialScope` -/
structure CredentialScope where
  accessKey : Text
  date : Text
  region : Text
  service : Text
  terminator : Text

/-- `parse_credential_scope` -/
def parseCredentialScope (credential : Text) : Option CredentialScope :=
  match credential.splitOn '/' with
  | [accessKey, date, region, service, terminator] =>
    if [accessKey, date, region, service, terminator].any List.isEmpty then none
    else some ⟨accessKey, date, region, service, terminator⟩
  | _ => none

/-- The scope as it is signed. -/
def CredentialScope.text (scope : CredentialScope) : Text :=
  join '/' [scope.date, scope.region, scope.service, scope.terminator]

/-- The parameters that a presigned URL signs. -/
def signedParams (params : Table Text Text) : List (Text × Text) :=
  params.toList.filter fun param ↦ param.1 ≠ "X-Amz-Signature".toList

/-- The canonical request that `validate_components` builds. Its query is the
`canonical_query_string` of `auth/presigned.rs`. -/
def presignedCanonicalRequest (K : Crates) (method path : Text) (params headers : Table Text Text)
    (names : List Text) : Text :=
  join '\n' ([method, canonicalUri K path, joinParams ((signedParams params).map encodePair)] ++
    names.map (fun name ↦ name ++ ':' :: normalizeHeaderValue (headers[name]?.getD [])) ++
    [[], join ';' names, "UNSIGNED-PAYLOAD".toList])

/-- Seconds, in nanoseconds. -/
def seconds (n : ℕ) : ℕ := n * 1000000000

/-- `PresignedUrl::validate_components` -/
def PresignedUrl.validateComponents (K : Crates) (url : PresignedUrl) (method path : Text)
    (headers : Table Text Text) (accessKey secretKey : Text) (now : Time) :
    Except PresignedValidationError Unit :=
  if url.queryParams["X-Amz-Algorithm".toList]? ≠ some "AWS4-HMAC-SHA256".toList then
    .error (.signatureMismatch "Unsupported or missing X-Amz-Algorithm")
  else if url.expiresIn < 1 || 604800 < url.expiresIn then
    .error (.signatureMismatch "X-Amz-Expires must be between 1 and 604800 seconds")
  else if now + minutes 15 < url.date then .error .clockSkew
  else if url.date + seconds url.expiresIn.toNat < now then
    .error (.signatureMismatch "Presigned URL has expired")
  else
    match parseCredentialScope url.credential with
    | none => .error (.signatureMismatch "Invalid X-Amz-Credential")
    | some scope =>
      if scope.accessKey ≠ accessKey then
        .error (.signatureMismatch "Presigned URL access key does not match")
      else if scope.date ≠ K.formatDay url.date || scope.service ≠ "s3".toList ||
          scope.terminator ≠ "aws4_request".toList then
        .error (.signatureMismatch "Invalid credential scope")
      else
        match url.queryParams["X-Amz-SignedHeaders".toList]? with
        | none => .error (.signatureMismatch "Missing X-Amz-SignedHeaders")
        | some signedHeaders =>
          let names := signedHeaders.splitOn ';'
          if !validSignedHeaderNames K names || !names.contains "host".toList ||
              headers.keys.any (fun name ↦ "x-amz-".toList.isPrefixOf name && !names.contains name) then
            .error (.signatureMismatch ("X-Amz-SignedHeaders must contain sorted unique " ++
              "lowercase names including host and every x-amz header"))
          else
            match url.queryParams.toList.find? fun param ↦ names.contains (toLower param.1) &&
                headers[toLower param.1]?.any (· ≠ param.2) with
            | some param => .error (.invalidRequest
                ("Conflicting signed query parameter and header: " ++ String.ofList param.1))
            | none =>
              match names.find? fun name ↦ headers[name]?.isNone with
              | some name => .error (.signatureMismatch
                  ("Missing signed header: " ++ String.ofList name))
              | none =>
                let canonicalRequest :=
                  presignedCanonicalRequest K method path url.queryParams headers names
                if url.signature ≠ expectedSignature K secretKey (K.formatDate url.date) scope.text
                    canonicalRequest scope.date scope.region scope.service then
                  .error (.signatureMismatch "Invalid signature")
                else .ok ()

/-- The headers as `validate_request_contract` collects them. -/
def headerMap (req : HttpRequest) : Table Text Text :=
  lastValues (req.visibleHeaders.map fun h ↦ (toLower h.1, h.2))

/-! ### Refusals -/

/-- `presigned_validation_failure` -/
def presignedValidationFailure (error : PresignedValidationError) : Refusal :=
  match error with
  | .invalidRequest _ => ⟨400, "InvalidRequest", error.message⟩
  | .clockSkew => ⟨403, "RequestTimeTooSkewed", error.message⟩
  | .signatureMismatch _ => ⟨403, "SignatureDoesNotMatch", error.message⟩

/-- `request_validation_failure` -/
def requestValidationFailure : RequestValidationError → Refusal
  | .invalidDate => ⟨400, "InvalidRequest", "Invalid request date"⟩
  | .clockSkew => ⟨403, "RequestTimeTooSkewed",
      "The difference between the request time and the current time is too large"⟩
  | .payloadMismatch => ⟨400, "XAmzContentSHA256Mismatch",
      "The provided x-amz-content-sha256 does not match the request body"⟩
  | .invalidPayloadHash => ⟨400, "InvalidArgument", "The x-amz-content-sha256 header must be a " ++
      "valid SHA-256 hash or a supported payload signing mode"⟩
  | .unsupportedPayload => ⟨501, "NotImplemented", "This payload signing mode is not supported"⟩
  | .invalidScope | .invalidSignedHeaders => ⟨403, "SignatureDoesNotMatch",
      "The credential scope or signed headers do not match the request"⟩

/-! ### Verification -/

/-- The signature of the `authorization` header. -/
def verifyHeader (K : Crates) (config : AuthConfig) (req : HttpRequest) (header : Text) (now : Time) :
    Except Refusal Unit :=
  if !"AWS4-HMAC-SHA256".toList.isPrefixOf header then
    .error ⟨403, "InvalidRequest",
      "Only AWS Signature Version 4 is accepted when authentication is enforced"⟩
  else
    match (req.header "x-amz-date".toList).or (req.header "date".toList) with
    | none => .error ⟨400, "InvalidRequest", "Missing date header"⟩
    | some amzDate =>
      match extractSigv4Signature header with
      | none => .error ⟨400, "InvalidRequest", "Missing signature in authorization header"⟩
      | some signature =>
        match extractSignedHeaders header with
        | none | some [] =>
          .error ⟨400, "InvalidRequest", "Missing signed headers in authorization header"⟩
        | some names =>
          match extractCredentialScope header with
          | none => .error ⟨400, "InvalidRequest", "Missing credential in authorization header"⟩
          | some scope =>
            match config.secretKey, config.accessKey with
            | some secretKey, some accessKey =>
              if !namesAccessKey header accessKey then
                .error ⟨403, "InvalidAccessKeyId",
                  "The AWS Access Key Id you provided does not exist in our records"⟩
              else
                match validateRequestAt K req scope names "s3".toList now with
                | .error error => .error (requestValidationFailure error)
                | .ok () =>
                  if !verify K signature (buildCanonicalRequest K req names) amzDate scope secretKey then
                    .error ⟨403, "SignatureDoesNotMatch", "The provided signature does not match"⟩
                  else .ok ()
            | _, _ => .ok ()

/-- The signature of a query. -/
def verifyQuery (K : Crates) (config : AuthConfig) (req : HttpRequest) (now : Time) :
    Except Refusal Unit :=
  let query := req.query.getD []
  let hasCredential := containsText "X-Amz-Credential=" query || containsText "AWSAccessKeyId=" query
  let completePresign :=
    (containsText "X-Amz-Credential=" query && containsText "X-Amz-Signature=" query) ||
      (containsText "AWSAccessKeyId=" query && containsText "Signature=" query)
  if completePresign then
    match PresignedUrl.fromQueryParams K (parseQueryParams K (some query)) with
    | .error message => .error ⟨400, "InvalidRequest", message⟩
    | .ok url =>
      match config.accessKey, config.secretKey with
      | some accessKey, some secretKey =>
        match url.validateComponents K req.method req.path (headerMap req) accessKey secretKey now with
        | .error error => .error (presignedValidationFailure error)
        | .ok () =>
          match validatePayload K req "s3".toList with
          | .error error => .error (requestValidationFailure error)
          | .ok () => .ok ()
      | _, _ => .ok ()
  else if !hasCredential then .ok ()
  else .error ⟨403, "AccessDenied", "A complete request signature is required"⟩

/-- `verify_sigv4_signature` -/
def verifySigv4Signature (K : Crates) (config : AuthConfig) (req : HttpRequest) (now : Time) :
    Except Refusal Unit :=
  if !config.enforceAuth then .ok ()
  else
    match req.header "authorization".toList with
    | none => verifyQuery K config req now
    | some header => verifyHeader K config req header now

/-! ### Principals -/

/-- `AuthInfo` -/
structure AuthInfo where
  principal : Text
  isAuthenticated : Bool
  deriving DecidableEq

/-- `AuthInfo::anonymous` -/
def AuthInfo.anonymous : AuthInfo := ⟨"*".toList, false⟩

/-- The principal of an access key. -/
def userArn (accessKey : Text) : Text := "arn:aws:iam::000000000000:user/".toList ++ accessKey

/-- `extract_sigv4_principal` -/
def extractSigv4Principal (header : Text) (config : AuthConfig) : Option Text :=
  (config.accessKey.filter fun accessKey ↦ namesAccessKey header accessKey).map userArn

/-- `extract_v2_principal` -/
def extractV2Principal (header : Text) (config : AuthConfig) : Option Text :=
  (stripStart "AWS ".toList header).bind fun rest ↦
    (config.accessKey.filter fun accessKey ↦ rest.takeWhile (· ≠ ':') = accessKey).map userArn

/-- `extract_presigned_principal`, over the parts of the query. It gives up at a part without a
sign. -/
def extractPresignedPrincipal (K : Crates) (config : AuthConfig) : List Text → Option Text
  | [] => none
  | param :: rest =>
    match splitOnce '=' param with
    | none => none
    | some (key, raw) =>
      let value := decodeOrRaw K raw
      let found := if key = "X-Amz-Credential".toList then some (value.takeWhile (· ≠ '/'))
        else if key = "AWSAccessKeyId".toList then some value else none
      match found.filter fun accessKey ↦ config.accessKey = some accessKey with
      | some accessKey => some (userArn accessKey)
      | none => extractPresignedPrincipal K config rest

/-- `AuthInfo::from_request` -/
def AuthInfo.fromRequest (K : Crates) (config : AuthConfig) (req : HttpRequest) : AuthInfo :=
  if !config.enforceAuth then ⟨"sqrzl-emulator".toList, true⟩
  else
    let fromHeader := (req.header "authorization".toList).bind fun header ↦
      if "AWS4-HMAC-SHA256".toList.isPrefixOf header && containsText "Signature=" header &&
          containsText "SignedHeaders=" header then extractSigv4Principal header config
      else if "AWS ".toList.isPrefixOf header && header.contains ':' then
        extractV2Principal header config
      else none
    let fromQuery := req.query.bind fun query ↦
      if (containsText "X-Amz-Credential" query && containsText "X-Amz-Signature" query) ||
          (containsText "AWSAccessKeyId" query && containsText "Signature=" query) then
        extractPresignedPrincipal K config (query.splitOn '&')
      else none
    match fromHeader.or fromQuery with
    | some principal => ⟨principal, true⟩
    | none => .anonymous

/-- The authentication of `check_authorization`. -/
def authenticate (K : Crates) (config : AuthConfig) (req : HttpRequest) (now : Time) :
    Except Refusal AuthInfo :=
  (verifySigv4Signature K config req now).map fun _ ↦ AuthInfo.fromRequest K config req

end Sqrzl.Auth
