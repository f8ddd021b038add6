import SqrzlEmulator.Auth.Verified

/-!
# Conditions on listings

A policy can restrict a listing by conditions on `s3:prefix`, `s3:delimiter` and `s3:max-keys`. The
handlers of the listings (`handlers/bucket/get.rs`) look these parameters up in the query by their
exact names. The conditions are evaluated against another table, which `authContext` builds of the
same query with **all names in lower case**, and where that table has no such name, against the
headers.

## The defect

Two spellings of one name are two parameters for the handler and one for the condition, which sees
the last of them. A request `?prefix=secret/&Prefix=public/` is authorized as a listing of `public/`
and lists `secret/`. And a header called `prefix` answers a condition on a request that has no
prefix.

## The exact condition

`conditions_see_listing_iff`: a condition sees what the handler uses exactly when the last part of
the query that spells the name in any case has the value of the last part that spells it in lower
case, or when neither the query nor the headers have the name in any case.
-/

namespace Sqrzl.Auth

open Percent S3

/-! ### The handlers -/

/-- `Request::query_param` -/
def queryParam (K : Crates) (req : HttpRequest) (name : String) : Option Text :=
  (parseQueryParams K req.query)[name.toList]?

/-- `max_keys_or_error` -/
def maxKeysOrError (K : Crates) (req : HttpRequest) : Except Refusal ℕ :=
  match queryParam K req "max-keys" with
  | none => .ok 1000
  | some raw =>
    match parseU32 (String.ofList raw) with
    | some value => .ok (min value 1000)
    | none => .error ⟨400, "InvalidArgument", "max-keys must be a non-negative integer."⟩

/-- What a listing asks the store for. -/
structure ListCall where
  keyPrefix : Option Text
  delimiter : Option Text
  marker : Option Text
  maxKeys : ℕ

/-- The arguments of `list_objects_v1` -/
def listObjectsV1 (K : Crates) (req : HttpRequest) : Except Refusal ListCall :=
  (maxKeysOrError K req).map fun maxKeys ↦
    ⟨queryParam K req "prefix", queryParam K req "delimiter", queryParam K req "marker", maxKeys⟩

/-- The parameters of a listing that a policy can put a condition on. -/
def listParameters : List String := ["prefix", "delimiter", "max-keys"]

/-! ### Lookups -/

section Lookups

variable {K : Crates} {P : Platform} {config : AuthConfig} {req : HttpRequest} {S : BucketStore}
  {bucket : Text} {key : Option Text} {action : Text} {info : AuthInfo}

/-- The last value under a name, where `fold` is applied to the names first. -/
def lastFolded (fold : Text → Text) (pairs : List (Text × Text)) (name : Text) : Option Text :=
  (pairs.reverse.find? fun pair ↦ fold pair.1 = name).map Prod.snd

theorem lastValues_folded (fold : Text → Text) (pairs : List (Text × Text)) (name : Text) :
    (lastValues (pairs.map fun pair ↦ (fold pair.1, pair.2)))[name]? =
      lastFolded fold pairs name := by
  rw [lastValues_getElem?, ← List.map_reverse, List.find?_map, Option.map_map, lastFolded]
  rfl

theorem lastFolded_eq_none {fold : Text → Text} {pairs : List (Text × Text)} {name : Text} :
    lastFolded fold pairs name = none ↔ ∀ pair ∈ pairs, fold pair.1 ≠ name := by
  simp [lastFolded]

/-- A name that is there as it stands is there in some spelling. -/
theorem lastFolded_isSome {fold : Text → Text} {pairs : List (Text × Text)} {name value : Text}
    (hfold : fold name = name) (h : lastFolded id pairs name = some value) :
    ∃ seen, lastFolded fold pairs name = some seen := by
  cases hseen : lastFolded fold pairs name with
  | some seen => exact ⟨seen, rfl⟩
  | none =>
    have hnone : lastFolded id pairs name = none := lastFolded_eq_none.2 fun pair hpair heq ↦
      lastFolded_eq_none.1 hseen pair hpair (by rw [show pair.1 = name from heq, hfold])
    rw [hnone] at h
    cases h

theorem queryParam_eq (name : String) :
    queryParam K req name = lastFolded id (queryPairs K req.query) name.toList := by
  rw [queryParam, parseQueryParams, ← lastValues_folded]
  exact congrArg (fun pairs ↦ (lastValues pairs)[name.toList]?) (List.map_id _).symm

theorem lower_parameter : ∀ name ∈ listParameters,
    (name.toList.all fun c ↦ c.toNat < 128) = true ∧ toLower name.toList = name.toList := by
  decide

/-- The key of such a condition is one of a parameter, and none with a meaning of its own. -/
theorem parameter_key : ∀ name ∈ listParameters,
    let key := "s3:".toList ++ name.toList
    trimStartMatches "s3:".toList key = name.toList ∧ "s3:".toList.isPrefixOf key = true ∧
      ¬ "s3:RequestObjectTag/".toList.isPrefixOf key = true ∧
      ¬ "s3:ExistingObjectTag/".toList.isPrefixOf key = true ∧ key ≠ "aws:SourceIp".toList ∧
      key ≠ "aws:SecureTransport".toList ∧ key ≠ "aws:PrincipalType".toList ∧
      ¬ (key = "aws:PrincipalArn".toList || key = "aws:userid".toList) = true := by
  decide

/-- What a condition on a parameter of a listing is evaluated against. -/
theorem valuesForConditionKey_parameter {name : String} (hname : name ∈ listParameters) :
    valuesForConditionKey K P ("s3:".toList ++ name.toList)
        (authContext K P config req S bucket key action info) =
      ((lastFolded P.lowercase (queryPairs K req.query) name.toList).or
        (lastFolded P.lowercase req.visibleHeaders name.toList)).toList := by
  have hlower : P.lowercase name.toList = name.toList := by
    rw [P.lowercase_ascii _ (lower_parameter name hname).1, (lower_parameter name hname).2]
  obtain ⟨htrim, hs3, hrequest, hexisting, hip, htransport, htype, harn⟩ := parameter_key name hname
  unfold valuesForConditionKey
  rw [if_neg harn, if_neg htype, if_neg htransport, if_neg hip, if_neg hexisting, if_neg hrequest,
    if_pos hs3, htrim, hlower]
  show ((contextQueryParams K P req.query)[name.toList]?.or
    (buildRequestHeaders P req)[name.toList]?).toList = _
  rw [contextQueryParams, buildRequestHeaders, lastValues_folded, lastValues_folded]

/-- The lookup of a condition on a parameter and the lookup of the handler cannot differ: the
query's last spelling of the name has the value of the exact name, or the name is nowhere, in any
case. -/
def SeenAlike (K : Crates) (P : Platform) (req : HttpRequest) (name : String) : Prop :=
  (∃ value, lastFolded id (queryPairs K req.query) name.toList = some value ∧
    lastFolded P.lowercase (queryPairs K req.query) name.toList = some value) ∨
  ((∀ pair ∈ queryPairs K req.query, P.lowercase pair.1 ≠ name.toList) ∧
    ∀ h ∈ req.visibleHeaders, P.lowercase h.1 ≠ name.toList)

/-- **A condition on a parameter of a listing sees the value that the handler uses exactly when no
other spelling and no header gets in between.** -/
theorem conditions_see_listing_iff {name : String} (hname : name ∈ listParameters) :
    valuesForConditionKey K P ("s3:".toList ++ name.toList)
        (authContext K P config req S bucket key action info) = (queryParam K req name).toList ↔
      SeenAlike K P req name := by
  have hlower : P.lowercase name.toList = name.toList := by
    rw [P.lowercase_ascii _ (lower_parameter name hname).1, (lower_parameter name hname).2]
  have hinj : ∀ seen used : Option Text, seen.toList = used.toList ↔ seen = used := by
    rintro (_ | _) (_ | _) <;> simp
  rw [valuesForConditionKey_parameter hname, queryParam_eq, hinj]
  unfold SeenAlike
  rw [← lastFolded_eq_none, ← lastFolded_eq_none]
  cases hexact : lastFolded id (queryPairs K req.query) name.toList with
  | some value =>
    obtain ⟨seen, hseen⟩ := lastFolded_isSome hlower hexact
    rw [hseen]
    simp
  | none =>
    rw [Option.or_eq_none_iff]
    simp

end Lookups

/-! ### Two spellings of a prefix -/

/-- Whoever lists with the prefix `public/` may do so. -/
def publicPrefix : PolicyStatementDocument where
  effect := "Allow".toList
  principal := .all ['*']
  action := .single "s3:ListBucket".toList
  resource := .single "arn:aws:s3:::data".toList
  condition := some (.object
    [("StringEquals".toList, .object [("s3:prefix".toList, .string "public/".toList)])])

/-- A private bucket in which everybody may list `public/`. -/
def prefixBucket : BucketStore :=
  (∅ : BucketStore).set "data".toList (some
    { policy := some ⟨⟨"2012-10-17".toList, [publicPrefix]⟩, none⟩ })

/-- **A condition sees the prefix of a request that spells it once.** -/
theorem single_prefix_is_seen :
    SeenAlike unsignedCrates .ascii (anonymousListing (some "prefix=public%2F".toList)) "prefix" ∧
      valuesForConditionKey unsignedCrates .ascii "s3:prefix".toList
          (authContext unsignedCrates .ascii ownerConfig
            (anonymousListing (some "prefix=public%2F".toList)) prefixBucket "data".toList none
            "s3:ListBucket".toList .anonymous) =
        (queryParam unsignedCrates (anonymousListing (some "prefix=public%2F".toList))
          "prefix").toList :=
  have hseen : SeenAlike unsignedCrates .ascii
      (anonymousListing (some "prefix=public%2F".toList)) "prefix" :=
    .inl ⟨"public/".toList, by decide, by decide⟩
  ⟨hseen, (conditions_see_listing_iff (by decide)).2 hseen⟩

/-- **A request that spells its prefix twice is authorized with one and lists the other.** -/
theorem second_spelling_is_seen :
    let req := anonymousListing (some "prefix=secret%2F&Prefix=public%2F".toList)
    let context := authContext unsignedCrates .ascii ownerConfig req prefixBucket "data".toList none
      "s3:ListBucket".toList .anonymous
    checkAuthorization unsignedCrates .ascii ownerConfig req 0 prefixBucket "data".toList none
        "s3:ListBucket".toList = .ok .anonymous ∧
      (listObjectsV1 unsignedCrates req).toOption.bind ListCall.keyPrefix = some "secret/".toList ∧
      valuesForConditionKey unsignedCrates .ascii "s3:prefix".toList context ≠
        (queryParam unsignedCrates req "prefix").toList := by
  refine ⟨?_, ?_, ?_⟩ <;> decide

/-- A header answers the condition of a request without a prefix. -/
example : valuesForConditionKey unsignedCrates .ascii "s3:prefix".toList
    { principal := ['*'], isAuthenticated := false, action := [], resource := [],
      requestHeaders := lastValues [("prefix".toList, "public/".toList)] } =
      ["public/".toList] := by
  decide

end Sqrzl.Auth
