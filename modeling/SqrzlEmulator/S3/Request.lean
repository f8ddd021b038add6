import SqrzlEmulator.Storage.Model

/-!
# S3 requests

A request of the S3 front door as its handlers see it (`server/http.rs`): where it was routed to,
its query parameters, its headers and its body. A parameter that occurs without a value has the
empty value. Headers are looked up by their lower-case names.
-/

namespace Sqrzl.S3

/-- `RouteMatch`, for the requests that have a handler. -/
inductive Route where
  | bucketGet (bucket : Text)
  | bucketPut (bucket : Text)
  | bucketDelete (bucket : Text)
  | bucketHead (bucket : Text)
  | bucketPost (bucket : Text)
  | objectGet (bucket key : Text)
  | objectPut (bucket key : Text)
  | objectDelete (bucket key : Text)
  | objectHead (bucket key : Text)
  | objectPost (bucket key : Text)
  deriving DecidableEq

/-- A request that has been routed. -/
structure Request where
  route : Route
  /-- Whether the method is `OPTIONS`, which is routed as `GET`. -/
  options : Bool := false
  query : Table String String := ∅
  headers : Table String String := ∅
  body : Bytes := []

namespace Request

/-- `has_query_param` -/
def has (req : Request) (name : String) : Bool := req.query.contains name

/-- `query_param` -/
def queryParam (req : Request) (name : String) : Option String := req.query[name]?

/-- `header` -/
def header (req : Request) (name : String) : Option String := req.headers[name]?

/-- `cors::is_preflight` -/
def isPreflight (req : Request) : Bool :=
  req.options && (req.header "origin").isSome &&
    (req.header "access-control-request-method").isSome

end Request

/-! ### Names -/

/-- A component of an IPv4 address, `str::parse::<u8>`. -/
def isOctet (component : Text) : Bool :=
  !component.isEmpty && component.all Char.isDigit &&
    component.foldl (fun n c ↦ 10 * n + (c.toNat - '0'.toNat)) 0 ≤ 255

/-- `validate_bucket_name`. The characters are looked at before anything depends on their encoding,
so that the length in bytes is the length. -/
def validBucketName (name : Text) : Bool :=
  3 ≤ name.length && name.length ≤ 63 &&
    name.head?.any Char.isAlphanum && name.getLast?.any Char.isAlphanum &&
    name.all (fun c ↦ c.isLower || c.isDigit || c = '-' || c = '.') &&
    !((name.zip name.tail).any fun pair ↦ pair.1 = '.' && pair.2 = '.') &&
    !((name.splitOn '.').length = 4 && (name.splitOn '.').all isOctet) &&
    !(["xn--", "sthree-", "amzn-s3-demo-"].any fun start ↦ start.toList.isPrefixOf name) &&
    !(["-s3alias", "--ol-s3", ".mrap", "--x-s3", "--table-s3"].any fun ending ↦
      ending.toList.isSuffixOf name)

end Sqrzl.S3
