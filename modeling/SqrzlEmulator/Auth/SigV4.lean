import SqrzlEmulator.Auth.Request

/-!
# Signatures of requests

The verification of AWS signatures, version 4: `server/handlers/auth/sigv4.rs`, `auth/sigv4.rs`,
`auth/presigned.rs` and the principals of `auth/authenticator.rs`.

There are two forms of a signature. One is in the `authorization` header, and its canonical request
is built from the first value of every signed header and from the query as it was sent. The other is
in the query of a presigned URL, and its canonical request is built from two maps, which hold **the
last value of every header and of every parameter**.
-/

namespace Sqrzl.Auth

open Percent S3

/-! ### Canonical requests -/

/-- What `uri_encode` keeps. -/
def isUnreserved (encodeSlash : Bool) (c : Char) : Bool :=
  c.isAlphanum || c = '-' || c = '_' || c = '.' || c = '~' || (!encodeSlash && c = '/')

/-- `uri_encode` -/
def uriEncode (value : Text) (encodeSlash : Bool) : Text :=
  percentEncode (isUnreserved encodeSlash) value

/-- `urlencoding::decode`, or the text itself. -/
def decodeOrRaw (K : Crates) (t : Text) : Text := (K.decode t).getD t

/-- `canonical_uri` -/
def canonicalUri (K : Crates) (path : Text) : Text :=
  let path := if path.isEmpty then ['/'] else path
  join '/' ((path.splitOn '/').map fun segment ↦ uriEncode (decodeOrRaw K segment) true)

/-- The order of pairs. -/
def pairLE (l r : Text × Text) : Bool := ((compare l.1 r.1).then (compare l.2 r.2)).isLE

/-- Sorted parameters with their signs. -/
def joinParams (params : List (Text × Text)) : Text :=
  join '&' ((params.insertionSort (pairLE · ·)).map fun pair ↦ pair.1 ++ '=' :: pair.2)

/-- `canonical_query_string`, of `handlers/auth/sigv4.rs` -/
def canonicalQueryString (K : Crates) (query : Option Text) : Text :=
  joinParams ((queryParts query).map fun part ↦
    (uriEncode (decodeOrRaw K (nameAndValue part).1) true,
      uriEncode (decodeOrRaw K (nameAndValue part).2) true))

/-- `normalize_header_value` -/
def normalizeHeaderValue (value : Text) : Text := join ' ' (splitWhitespace value)

/-- The names in the order of the canonical request. -/
def sortNames (names : List Text) : List Text :=
  names.insertionSort fun l r ↦ (compare l r).isLE

/-- The payload hash of a canonical request. -/
def payloadHash (K : Crates) (req : HttpRequest) : Text :=
  match (req.header "x-amz-content-sha256".toList).filter (!·.isEmpty) with
  | some value => value
  | none => req.contentSha256Hint.getD (K.sha256Hex req.body)

/-- `build_canonical_request` -/
def buildCanonicalRequest (K : Crates) (req : HttpRequest) (signedHeaders : List Text) : Text :=
  let names := sortNames signedHeaders
  let canonicalHeaders := names.map fun name ↦
    name ++ ':' :: normalizeHeaderValue ((req.header name).getD [])
  join '\n' [req.method, canonicalUri K req.path, canonicalQueryString K req.query,
    join '\n' canonicalHeaders, [], join ';' names, payloadHash K req]

/-! ### Validation -/

/-- `RequestValidationError` -/
inductive RequestValidationError where
  | invalidDate
  | clockSkew
  | invalidScope
  | invalidSignedHeaders
  | payloadMismatch
  | invalidPayloadHash
  | unsupportedPayload
  deriving DecidableEq

/-- `valid_signed_header_names` -/
def validSignedHeaderNames (K : Crates) (names : List Text) : Bool :=
  !names.isEmpty &&
    names.all (fun name ↦ !name.isEmpty && !name.any Char.isUpper && K.isHeaderName name) &&
    (names.zip names.tail).all fun pair ↦ compare pair.1 pair.2 = .lt

/-- `constant_time_compare` -/
def constantTimeCompare (a b : Bytes) : Bool :=
  a.length = b.length && (a.zip b).foldl (fun result pair ↦ result ||| (pair.1 ^^^ pair.2)) 0 = 0

/-- `validate_payload` -/
def validatePayload (K : Crates) (req : HttpRequest) (service : Text) :
    Except RequestValidationError Unit :=
  match req.header "x-amz-content-sha256".toList with
  | none => .ok ()
  | some provided =>
    if provided = "UNSIGNED-PAYLOAD".toList && service = "s3".toList then .ok ()
    else if provided.length ≠ 64 || !provided.all validEscapes.isHexDigit then
      .error (if provided = "UNSIGNED-PAYLOAD".toList ||
          provided = "STREAMING-AWS4-HMAC-SHA256-PAYLOAD".toList ||
          provided = "STREAMING-AWS4-HMAC-SHA256-PAYLOAD-TRAILER".toList ||
          provided = "STREAMING-UNSIGNED-PAYLOAD-TRAILER".toList then .unsupportedPayload
        else .invalidPayloadHash)
    else
      let actual := req.contentSha256Hint.getD (K.sha256Hex req.body)
      if !constantTimeCompare (utf8 (toLower provided)) (utf8 actual) then .error .payloadMismatch
      else .ok ()

/-- Minutes, in nanoseconds. -/
def minutes (n : ℕ) : ℕ := n * 60000000000

/-- How far a date may be from the present. -/
def signingWindow (service : Text) : ℕ := minutes (if service = "s3".toList then 15 else 5)

/-- A date that is written as it is formatted. -/
def exactDate (K : Crates) (raw : Text) : Option Time :=
  (K.parseDate raw).filter fun date ↦ K.formatDate date = raw

/-- The header that holds the date of a request, with its value. -/
def dateHeader (req : HttpRequest) : Option (Text × Text) :=
  ((req.header "x-amz-date".toList).map fun value ↦ ("x-amz-date".toList, value)).or
    ((req.header "date".toList).map fun value ↦ ("date".toList, value))

/-- `validate_request_at` -/
def validateRequestAt (K : Crates) (req : HttpRequest) (credentialScope : Text)
    (signedHeaders : List Text) (service : Text) (now : Time) : Except RequestValidationError Unit :=
  match dateHeader req with
  | none => .error .invalidDate
  | some (name, raw) =>
    match exactDate K raw with
    | none => .error .invalidDate
    | some date =>
      if date + signingWindow service < now || now + signingWindow service < date then
        .error .clockSkew
      else
        match credentialScope.splitOn '/' with
        | [day, region, name', terminator] =>
          if day ≠ K.formatDay date || region.isEmpty || name' ≠ service ||
              terminator ≠ "aws4_request".toList then .error .invalidScope
          else if !signedHeaders.contains "host".toList || !signedHeaders.contains name ||
              !validSignedHeaderNames K signedHeaders ||
              signedHeaders.any (fun name ↦ (req.header name).isNone) ||
              req.visibleHeaders.any (fun h ↦ "x-amz-".toList.isPrefixOf h.1 &&
                h.1 ≠ "x-amz-content-sha256".toList && !signedHeaders.contains h.1) then
            .error .invalidSignedHeaders
          else validatePayload K req service
        | _ => .error .invalidScope

/-! ### Signatures -/

/-- `get_signature_key` -/
def getSignatureKey (K : Crates) (secret dateStamp region service : Text) : Bytes :=
  let date := K.hmacSha256 (utf8 ("AWS4".toList ++ secret)) (utf8 dateStamp)
  let region := K.hmacSha256 date (utf8 region)
  let service := K.hmacSha256 region (utf8 service)
  K.hmacSha256 service (utf8 "aws4_request".toList)

/-- `string_to_sign` -/
def stringToSign (K : Crates) (amzDate credentialScope canonicalRequest : Text) : Text :=
  join '\n' ["AWS4-HMAC-SHA256".toList, amzDate, credentialScope,
    K.sha256Hex (utf8 canonicalRequest)]

/-- The signature that a canonical request must have. -/
def expectedSignature (K : Crates) (secret amzDate credentialScope canonicalRequest : Text)
    (dateStamp region service : Text) : Text :=
  K.hmacSha256Hex (getSignatureKey K secret dateStamp region service)
    (utf8 (stringToSign K amzDate credentialScope canonicalRequest))

/-- `SignatureVerifier::verify` -/
def verify (K : Crates) (signature canonicalRequest amzDate credentialScope secret : Text) : Bool :=
  match credentialScope.splitOn '/' with
  | dateStamp :: region :: rest =>
    constantTimeCompare (utf8 signature) (utf8 (expectedSignature K secret amzDate credentialScope
      canonicalRequest dateStamp region (rest.head?.getD "s3".toList)))
  | _ => false

/-! ### The authorization header -/

/-- `str::trim` -/
def trimText (t : Text) : Text :=
  ((t.dropWhile Char.isWhitespace).reverse.dropWhile Char.isWhitespace).reverse

/-- `str::strip_prefix` -/
def stripStart (start t : Text) : Option Text :=
  if start.isPrefixOf t then some (t.drop start.length) else none

/-- The parts of an authorization header. -/
def headerParts (header : Text) : List Text := (header.splitOn ',').map trimText

/-- `extract_sigv4_signature` -/
def extractSigv4Signature (header : Text) : Option Text :=
  (headerParts header).findSome? (stripStart "Signature=".toList)

/-- `extract_credential_scope` -/
def extractCredentialScope (header : Text) : Option Text :=
  (headerParts header).findSome? fun part ↦
    (findText "Credential=".toList part).bind fun found ↦
      (splitOnce '/' found.2).map Prod.snd

/-- `extract_signed_headers` -/
def extractSignedHeaders (header : Text) : Option (List Text) :=
  ((headerParts header).findSome? (stripStart "SignedHeaders=".toList)).map fun names ↦
    names.splitOn ';'

/-- `extract_sigv4_principal`, for the configured access key: some part names it. -/
def namesAccessKey (header accessKey : Text) : Bool :=
  (headerParts header).any fun part ↦
    (findText "Credential=".toList part).any fun found ↦ found.2.takeWhile (· ≠ '/') = accessKey

/-! ### What a validation has checked -/

variable {K : Crates} {req : HttpRequest} {names : List Text}

/-- Signed names are header names in their order. -/
theorem validSignedHeaderNames_iff : validSignedHeaderNames K names = true ↔
    names ≠ [] ∧ (∀ name ∈ names, name ≠ [] ∧ name.any Char.isUpper = false ∧
      K.isHeaderName name = true) ∧ names.IsChain fun l r ↦ compare l r = .lt := by
  have hchain : ∀ names : List Text, (names.zip names.tail).all
      (fun pair ↦ decide (compare pair.1 pair.2 = .lt)) = true ↔
        names.IsChain fun l r ↦ compare l r = .lt := by
    intro names
    induction names with
    | nil => simp
    | cons name names ih =>
      cases names with
      | nil => simp
      | cons name' names =>
        rw [List.isChain_cons_cons, ← ih]
        simp
  rw [validSignedHeaderNames, Bool.and_eq_true, Bool.and_eq_true, hchain, List.all_eq_true]
  simp [and_assoc]

/-- **What a validated request has been checked for.** -/
structure Validated (K : Crates) (req : HttpRequest) (credentialScope : Text) (names : List Text)
    (service : Text) (now : Time) : Prop where
  date : ∃ name raw date region, dateHeader req = some (name, raw) ∧ name ∈ names ∧
    K.parseDate raw = some date ∧ K.formatDate date = raw ∧
    now ≤ date + signingWindow service ∧ date ≤ now + signingWindow service ∧
    credentialScope.splitOn '/' = [K.formatDay date, region, service, "aws4_request".toList]
  host : "host".toList ∈ names
  valid : validSignedHeaderNames K names = true
  present : ∀ name ∈ names, (req.header name).isSome
  payload : validatePayload K req service = .ok ()

theorem validated_of_ok {credentialScope service : Text} {now : Time} {u : Unit}
    (h : validateRequestAt K req credentialScope names service now = .ok u) :
    Validated K req credentialScope names service now := by
  unfold validateRequestAt at h
  split at h
  · cases h
  next name raw hdate =>
  split at h
  · cases h
  next date hexact =>
  split at h
  · cases h
  next hskew =>
  split at h
  swap
  · cases h
  next day region name' terminator hscope =>
  split at h
  · cases h
  next hday =>
  split at h
  · cases h
  next hsigned =>
  simp only [Bool.or_eq_true, decide_eq_true_eq, not_or, not_lt] at hskew
  simp only [Bool.or_eq_true, decide_eq_true_eq, not_or, ne_eq, not_not] at hday
  simp only [Bool.or_eq_true, Bool.not_eq_true', not_or, Bool.not_eq_false, List.contains_iff_mem,
    Bool.not_eq_true, List.any_eq_false, Option.isNone_iff_eq_none] at hsigned
  obtain ⟨hparse, hformat⟩ := Option.filter_eq_some_iff.1 hexact
  obtain ⟨⟨⟨hday, -⟩, hname⟩, hterminator⟩ := hday
  obtain ⟨⟨⟨⟨hhost, hnamed⟩, hvalid⟩, hpresent⟩, -⟩ := hsigned
  refine ⟨⟨name, raw, date, region, hdate, hnamed, hparse, of_decide_eq_true hformat, hskew.1,
    hskew.2, ?_⟩, hhost, hvalid, fun n hn ↦ ?_, h⟩
  · rw [hscope, hday, hname, hterminator]
  · exact Option.isSome_iff_ne_none.2 (hpresent n hn)

end Sqrzl.Auth
