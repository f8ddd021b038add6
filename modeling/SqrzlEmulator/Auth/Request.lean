import SqrzlEmulator.Data.Percent
import SqrzlEmulator.S3.Copy

/-!
# HTTP requests and their routes

A request as it comes from the HTTP server (`server/http.rs`): its path and its query as they were
sent, and its headers in their order, repetitions included. `header` finds the first value of a
name, `queryPairs` are the decoded parameters, and `routeFromParts` decides which handler a request
goes to.

`Crates` holds what is computed outside the repository. `urlencoding::decode` copies what is not an
escape, and fails when the decoded bytes are not UTF-8; it can therefore be applied to the parts
between two slashes one by one, and nothing is decoded to an empty text but an empty text.
-/

namespace Sqrzl.Auth

open Percent

/-- What the front door takes from the `urlencoding`, `http`, `chrono`, `sha2` and `hmac` crates. -/
structure Crates where
  /-- `urlencoding::decode` -/
  decode : Text → Option Text
  decode_plain : ∀ t, '%' ∉ t → decode t = some t
  decode_slash : ∀ s t, decode (s ++ '/' :: t) =
    (decode s).bind fun s' ↦ (decode t).map fun t' ↦ s' ++ '/' :: t'
  decode_eq_nil : ∀ t, decode t = some [] → t = []
  /-- `HeaderName::from_bytes` accepts the name. -/
  isHeaderName : Text → Bool
  isHeaderName_token : ∀ name, isHeaderName name = true → ':' ∉ name ∧ ';' ∉ name ∧ '\n' ∉ name
  /-- `NaiveDateTime::parse_from_str` with `%Y%m%dT%H%M%SZ`. -/
  parseDate : Text → Option Time
  formatDate : Time → Text
  /-- `%Y%m%d` -/
  formatDay : Time → Text
  sha256Hex : Bytes → Text
  sha256Hex_plain : ∀ data, '\n' ∉ sha256Hex data
  hmacSha256 : Bytes → Bytes → Bytes
  hmacSha256Hex : Bytes → Bytes → Text

/-- The crates for texts whose escapes are ASCII characters, at a single date. -/
def asciiCrates (date day : Text) (time : Time) (sha256Hex : Bytes → Text)
    (sha256Hex_plain : ∀ data, '\n' ∉ sha256Hex data) (hmacSha256 : Bytes → Bytes → Bytes)
    (hmacSha256Hex : Bytes → Bytes → Text) : Crates where
  decode := asciiDecode
  decode_plain _ h := asciiDecode_plain h
  decode_slash := asciiDecode_slash
  decode_eq_nil _ h := asciiDecode_eq_nil h
  isHeaderName name := !name.isEmpty &&
    name.all fun c ↦ c.isAlphanum || "!#$%&'*+-.^_`|~".toList.contains c
  isHeaderName_token name h := by
    rw [Bool.and_eq_true, List.all_eq_true] at h
    refine ⟨fun hc ↦ ?_, fun hc ↦ ?_, fun hc ↦ ?_⟩ <;>
    · have htoken := h.2 _ hc
      revert htoken
      decide
  parseDate raw := if raw = date then some time else none
  formatDate _ := date
  formatDay _ := day
  sha256Hex := sha256Hex
  sha256Hex_plain := sha256Hex_plain
  hmacSha256 := hmacSha256
  hmacSha256Hex := hmacSha256Hex

/-- `str::split_whitespace` -/
def splitWhitespace (t : Text) : List Text :=
  (t.splitOnP Char.isWhitespace).filter fun word ↦ !word.isEmpty

/-- A value without whitespace around it, as the HTTP server delivers it. -/
def Trimmed (t : Text) : Prop :=
  t.head?.all (!·.isWhitespace) = true ∧ t.getLast?.all (!·.isWhitespace) = true

instance (t : Text) : Decidable (Trimmed t) := inferInstanceAs (Decidable (_ ∧ _))

/-- `to_ascii_lowercase` -/
def toLower (t : Text) : Text := t.map Char.toLower

/-- A request with its body. A header value that is not visible ASCII is `none`. -/
structure HttpRequest where
  method : Text
  path : Text
  query : Option Text := none
  headers : List (Text × Option Text) := []
  body : Bytes := []
  contentSha256Hint : Option Text := none
  /-- A method is a token. -/
  method_token : '\n' ∉ method
  /-- A `HeaderName` is in lower case, and ASCII. -/
  headers_names : ∀ h ∈ headers, toLower h.1 = h.1 ∧ (h.1.all fun c ↦ c.toNat < 128) = true
  headers_values : ∀ name value, (name, some value) ∈ headers → '\n' ∉ value ∧ Trimmed value
  hint_plain : ∀ hint, contentSha256Hint = some hint → '\n' ∉ hint

/-- The methods of the requests that are written out. -/
theorem plain_get : '\n' ∉ "GET".toList := by decide

theorem plain_put : '\n' ∉ "PUT".toList := by decide

theorem plain_post : '\n' ∉ "POST".toList := by decide

/-- A request without headers, and without a hint. -/
theorem names_of_no_headers : ∀ h ∈ ([] : List (Text × Option Text)),
    toLower h.1 = h.1 ∧ (h.1.all fun c ↦ c.toNat < 128) = true :=
  fun _ h ↦ absurd h List.not_mem_nil

theorem values_of_no_headers : ∀ name value, (name, some value) ∈ ([] : List (Text × Option Text)) →
    '\n' ∉ value ∧ Trimmed value :=
  fun _ _ h ↦ absurd h List.not_mem_nil

theorem plain_of_no_hint : ∀ hint, (none : Option Text) = some hint → '\n' ∉ hint :=
  fun _ h ↦ by cases h

namespace HttpRequest

/-- `Request::header`: the first value of a name. -/
def header (req : HttpRequest) (name : Text) : Option Text :=
  (req.headers.find? (·.1 = name)).bind Prod.snd

/-- `HttpRequestLike::headers` -/
def visibleHeaders (req : HttpRequest) : List (Text × Text) :=
  req.headers.filterMap fun h ↦ h.2.map fun value ↦ (h.1, value)

/-- The values of a name that are visible ASCII, in their order. -/
def headerValues (req : HttpRequest) (name : Text) : List Text :=
  (req.visibleHeaders.filter (·.1 = name)).map Prod.snd

/-- `Request::host` -/
def host (req : HttpRequest) : Option Text := req.header "host".toList

end HttpRequest

/-! ### Queries -/

/-- The parts of a query. -/
def queryParts (query : Option Text) : List Text :=
  (query.map fun q ↦ (q.splitOn '&').filter fun part ↦ !part.isEmpty).getD []

/-- `part.split_once('=').unwrap_or((part, ""))` -/
def nameAndValue (part : Text) : Text × Text := (splitOnce '=' part).getD (part, [])

/-- The pairs that `parse_query_params` inserts. What cannot be decoded is empty. -/
def queryPairs (K : Crates) (query : Option Text) : List (Text × Text) :=
  (queryParts query).map fun part ↦
    ((K.decode (nameAndValue part).1).getD [], (K.decode (nameAndValue part).2).getD [])

/-- The last value of each name, as a `HashMap` keeps it. -/
def lastValues (pairs : List (Text × Text)) : Table Text Text :=
  pairs.foldl (fun table pair ↦ table.set pair.1 (some pair.2)) ∅

/-- `parse_query_params` -/
def parseQueryParams (K : Crates) (query : Option Text) : Table Text Text :=
  lastValues (queryPairs K query)

/-! ### Routes -/

/-- `RouteMatch` -/
inductive RouteMatch where
  | listBuckets
  | handler (route : S3.Route)
  | invalidObjectPath
  | notFound
  deriving DecidableEq

/-- The rest of a text behind the first occurrence of a pattern, and what is before it:
`str::find`. -/
def findText (pattern : Text) : Text → Option (Text × Text)
  | [] => if pattern.isEmpty then some ([], []) else none
  | c :: t =>
    if pattern.isPrefixOf (c :: t) then some ([], (c :: t).drop pattern.length)
    else (findText pattern t).map fun found ↦ (c :: found.1, found.2)

/-- The end point `endpoint` is one that takes the bucket from the host. -/
def isBucketEndpoint (endpoint : Text) : Bool :=
  let starts (start : String) := start.toList.isPrefixOf endpoint
  let ends (ending : String) := ending.toList.isSuffixOf endpoint
  endpoint = "s3.amazonaws.com".toList ||
    ((ends ".amazonaws.com" || ends ".amazonaws.com.cn") &&
      (starts "s3." || starts "s3-" || starts "s3-accelerate.") &&
      !starts "s3-accesspoint" && !starts "s3-control" && !starts "s3-object-lambda" &&
      !starts "s3-outposts")

/-- `bucket_from_host` -/
def bucketFromHost (host : Text) : Option Text :=
  let host := host.takeWhile (· ≠ ':')
  let lower := toLower host
  if ".localhost".toList.isSuffixOf lower then
    let bucket := host.take (host.length - ".localhost".length)
    if bucket.isEmpty then none else some bucket
  else
    match findText ".s3".toList lower with
    | none => none
    | some (before, after) =>
      if !before.isEmpty && isBucketEndpoint ("s3".toList ++ after) then some (host.take before.length)
      else none

/-- `bucket_route` -/
def bucketRoute (method bucket : Text) : RouteMatch :=
  match String.ofList method with
  | "GET" | "OPTIONS" => .handler (.bucketGet bucket)
  | "PUT" => .handler (.bucketPut bucket)
  | "DELETE" => .handler (.bucketDelete bucket)
  | "HEAD" => .handler (.bucketHead bucket)
  | "POST" => .handler (.bucketPost bucket)
  | _ => .notFound

/-- `decode_uri_path` -/
def decodeUriPath (K : Crates) (value : Text) : Option Text :=
  if S3.validEscapes value then K.decode value else none

/-- `object_route` -/
def objectRoute (K : Crates) (method bucket encodedKey : Text) : RouteMatch :=
  match decodeUriPath K encodedKey with
  | none => .invalidObjectPath
  | some key =>
    match String.ofList method with
    | "GET" | "OPTIONS" => .handler (.objectGet bucket key)
    | "PUT" => .handler (.objectPut bucket key)
    | "DELETE" => .handler (.objectDelete bucket key)
    | "HEAD" => .handler (.objectHead bucket key)
    | "POST" => .handler (.objectPost bucket key)
    | _ => .notFound

/-- What a path and a host address: a bucket and the encoded key of an object, if they name any. -/
def addressed (path : Text) (host : Option Text) : Option (Text × Option Text) :=
  let path := if path.head? = some '/' then path.tail else path
  match host.bind bucketFromHost with
  | some bucket => some (bucket, if path.isEmpty then none else some path)
  | none =>
    if path.isEmpty then none
    else
      match splitOnce '/' path with
      | some (bucket, key) =>
        if bucket.isEmpty then none else some (bucket, if key.isEmpty then none else some key)
      | none => some (path, none)

/-- `route_from_parts` -/
def routeFromParts (K : Crates) (method path : Text) (host : Option Text) : RouteMatch :=
  match addressed path host with
  | some (bucket, none) => bucketRoute method bucket
  | some (bucket, some key) => objectRoute K method bucket key
  | none =>
    let path := if path.head? = some '/' then path.tail else path
    if path.isEmpty && method = "GET".toList then .listBuckets else .notFound

/-- `Router::route` -/
def route (K : Crates) (req : HttpRequest) : RouteMatch :=
  routeFromParts K req.method req.path req.host

end Sqrzl.Auth
