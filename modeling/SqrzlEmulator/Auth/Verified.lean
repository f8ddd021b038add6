import SqrzlEmulator.Auth.Authorization
import SqrzlEmulator.Auth.Replay
import Mathlib.Data.List.TakeWhile

/-!
# What an authenticated request has signed

A request presents a signature in its `authorization` header or in its query (`presented`). When it
is authenticated, the signature is the one of the configured secret, over a canonical request built
from the presented headers and parameters (`Presented.Verified`).

What a handler reads is not always what was presented as signed:

* in a request signed by its header, the parameters are signed as they were sent, and **a parameter
  that cannot be decoded is empty to the handlers**;
* in such a request **the first value of a header is signed**, and the metadata of an object and the
  conditions of a policy take the last one;
* in a presigned request **the last visible value of a header is signed**, and a handler that asks for
  a header by its name reads the first;
* the conditions of a policy read the names of the parameters in lower case.

Where this makes no difference, and only there, everything read under a signed name is signed
(`authenticated_request_reads_signed_iff`).
-/

namespace Sqrzl.Auth

open Percent S3

variable {K : Crates} {P : Platform} {config : AuthConfig} {req : HttpRequest} {now : Time}
  {info : AuthInfo}

/-! ### Comparisons -/

/-- **A comparison in constant time is a comparison.** -/
theorem constantTimeCompare_iff {a b : Bytes} : constantTimeCompare a b = true ↔ a = b := by
  have hfold : ∀ (a b : Bytes) (r : UInt8), a.length = b.length →
      ((a.zip b).foldl (fun result pair ↦ result ||| (pair.1 ^^^ pair.2)) r = 0 ↔ r = 0 ∧ a = b) := by
    intro a
    induction a with
    | nil =>
      intro b r hlength
      rw [List.length_eq_zero_iff.1 hlength.symm]
      simp
    | cons x a ih =>
      intro b r hlength
      cases b with
      | nil => cases hlength
      | cons y b =>
        rw [List.zip_cons_cons, List.foldl_cons, ih b _ (Nat.succ.inj hlength), UInt8.or_eq_zero_iff,
          UInt8.xor_eq_zero_iff, List.cons_eq_cons, and_assoc]
  rw [constantTimeCompare, Bool.and_eq_true, decide_eq_true_eq, decide_eq_true_eq]
  constructor
  · rintro ⟨hlength, hzero⟩
    exact ((hfold a b 0 hlength).1 hzero).2
  · rintro rfl
    exact ⟨rfl, (hfold a a 0 rfl).2 ⟨rfl, rfl⟩⟩

/-! ### Searching -/

theorem findText_isSome {p t : Text} (h : p <:+: t) : (findText p t).isSome = true := by
  induction t with
  | nil =>
    rw [List.infix_nil] at h
    rw [h]
    rfl
  | cons c t ih =>
    rw [findText]
    split
    · rfl
    · next hno =>
      rw [Option.isSome_map]
      exact ih ((List.infix_cons_iff.1 h).resolve_left (mt List.isPrefixOf_iff_prefix.2 hno))

theorem eq_of_splitOnce {c : Char} {s t u : Text} (h : splitOnce c s = some (t, u)) :
    s = t ++ c :: u := by
  unfold splitOnce at h
  split at h
  · next hmem =>
    cases h
    obtain ⟨d, rest, hrest⟩ : ∃ d rest, s.dropWhile (· ≠ c) = d :: rest := by
      refine List.exists_cons_of_ne_nil fun hnil ↦ ?_
      rw [← List.takeWhile_append_dropWhile (p := (· ≠ c)) (l := s), hnil, List.append_nil] at hmem
      simpa using List.mem_takeWhile_imp hmem
    have hd : d = c := by
      have hfirst := List.head?_dropWhile_not (p := (· ≠ c)) s
      rw [hrest] at hfirst
      simpa using hfirst
    rw [hrest, List.drop_one, List.tail_cons]
    conv_lhs => rw [← List.takeWhile_append_dropWhile (p := (· ≠ c)) (l := s), hrest, hd]
  · cases h

theorem stripStart_eq_some_iff {start t rest : Text} :
    stripStart start t = some rest ↔ t = start ++ rest := by
  rw [stripStart]
  split
  · next h =>
    obtain ⟨rest', rfl⟩ := List.isPrefixOf_iff_prefix.1 h
    simp
  · next h =>
    refine iff_of_false nofun ?_
    rintro rfl
    exact h (List.isPrefixOf_iff_prefix.2 (List.prefix_append _ _))

theorem infix_of_mem_splitOn {t part : Text} (h : part ∈ t.splitOn '&') : part <:+: t := by
  have hboth : ∀ t : Text, (t.splitOn '&').head (List.splitOn_ne_nil _ _) <+: t ∧
      ∀ part ∈ t.splitOn '&', part <:+: t := by
    intro t
    induction t with
    | nil => exact ⟨by simp, by simp⟩
    | cons c t ih =>
      obtain ⟨hstart, hinside⟩ := ih
      obtain ⟨s, l, hsplit⟩ := List.exists_cons_of_ne_nil (List.splitOn_ne_nil '&' t)
      simp only [hsplit, List.head_cons, List.mem_cons] at hstart hinside
      simp only [List.splitOn_cons_eq_if_modifyHead, hsplit]
      split
      · refine ⟨by simp, fun part hpart ↦ ?_⟩
        rcases List.mem_cons.1 hpart with rfl | hpart
        · exact List.nil_infix
        · exact (hinside part (List.mem_cons.1 hpart)).trans (List.suffix_cons c t).isInfix
      · have hhead : c :: s <+: c :: t := List.cons_prefix_cons.2 ⟨rfl, hstart⟩
        refine ⟨by simpa using hhead, fun part hpart ↦ ?_⟩
        rw [List.modifyHead_cons, List.mem_cons] at hpart
        rcases hpart with rfl | hpart
        · exact hhead.isInfix
        · exact (hinside part (.inr hpart)).trans (List.suffix_cons c t).isInfix
  exact (hboth t).2 part h

/-! ### Last values -/

theorem lastValues_getElem? (pairs : List (Text × Text)) (name : Text) :
    (lastValues pairs)[name]? = (pairs.reverse.find? (·.1 = name)).map Prod.snd := by
  rw [lastValues, List.foldl_eq_foldr_reverse]
  induction pairs.reverse with
  | nil => simp
  | cons pair pairs ih =>
    rw [List.foldr_cons, Table.getElem?_set, List.find?_cons, ih]
    by_cases h : pair.1 = name
    · simp [h]
    · simp [h, Ne.symm h]

theorem lastValues_eq_some_iff {pairs : List (Text × Text)} {name value : Text} :
    (lastValues pairs)[name]? = some value ↔
      ∃ before after, pairs = before ++ (name, value) :: after ∧ ∀ pair ∈ after, pair.1 ≠ name := by
  rw [lastValues_getElem?, Option.map_eq_some_iff]
  constructor
  · rintro ⟨⟨name', value'⟩, hfind, rfl⟩
    obtain ⟨hname, after, before, hpairs, hafter⟩ := List.find?_eq_some_iff_append.1 hfind
    have hname : name' = name := by simpa using hname
    subst hname
    refine ⟨before.reverse, after.reverse, ?_, fun pair hpair ↦ ?_⟩
    · rw [← List.reverse_reverse pairs, hpairs]
      simp
    · simpa using hafter pair (List.mem_reverse.1 hpair)
  · rintro ⟨before, after, rfl, hafter⟩
    refine ⟨(name, value), List.find?_eq_some_iff_append.2 ⟨by simp, after.reverse, before.reverse,
      by simp, fun pair hpair ↦ ?_⟩, rfl⟩
    simpa using hafter pair (List.mem_reverse.1 hpair)

/-! ### Presented signatures -/

/-- What a request presents as signed. -/
structure Presented where
  names : List Text
  /-- The signed values of the headers. -/
  values : Text → Option Text
  /-- The signed parameters. -/
  query : List (Text × Text)
  payload : Text
  date : Time
  /-- How long the signature is valid. -/
  lifetime : ℕ
  amzDate : Text
  scope : Text
  signature : Text

/-- The canonical request of what is signed. -/
def Presented.canonicalRequest (K : Crates) (req : HttpRequest) (p : Presented) : Text :=
  join '\n' ([req.method, canonicalUri K req.path, joinParams (p.query.map encodePair)] ++
    p.names.map (fun name ↦ name ++ ':' :: normalizeHeaderValue ((p.values name).getD [])) ++
    [[], join ';' p.names, p.payload])

/-- What the `authorization` header presents. -/
def presentedByHeader (K : Crates) (req : HttpRequest) (header : Text) : Option Presented :=
  (extractSigv4Signature header).bind fun signature ↦
  (extractSignedHeaders header).bind fun names ↦
  (extractCredentialScope header).bind fun scope ↦
  (dateHeader req).bind fun dated ↦
  (exactDate K dated.2).map fun date ↦
    ⟨names, req.header, rawPairs K req.query, payloadHash K req, date, minutes 15, dated.2, scope,
      signature⟩

/-- What a query presents. -/
def presentedByQuery (K : Crates) (req : HttpRequest) : Option Presented :=
  let params := parseQueryParams K req.query
  (PresignedUrl.fromQueryParams K params).toOption.bind fun url ↦
  params["X-Amz-SignedHeaders".toList]?.bind fun names ↦
  (parseCredentialScope url.credential).map fun scope ↦
    ⟨names.splitOn ';', fun name ↦ (headerMap req)[name]?, signedParams params,
      "UNSIGNED-PAYLOAD".toList, url.date, seconds url.expiresIn.toNat, K.formatDate url.date,
      scope.text, url.signature⟩

/-- What a request presents. -/
def presented (K : Crates) (req : HttpRequest) : Option Presented :=
  match req.header "authorization".toList with
  | some header => presentedByHeader K req header
  | none => presentedByQuery K req

/-- **The presented signature is right**, and it is valid now. -/
structure Presented.Verified (K : Crates) (secretKey : Text) (req : HttpRequest) (now : Time)
    (p : Presented) : Prop where
  signature : ∃ region, p.scope.splitOn '/' =
      [K.formatDay p.date, region, "s3".toList, "aws4_request".toList] ∧
    p.signature = expectedSignature K secretKey p.amzDate p.scope (p.canonicalRequest K req)
      (K.formatDay p.date) region "s3".toList
  amzDate : K.parseDate p.amzDate = some p.date
  host : "host".toList ∈ p.names
  present : ∀ name ∈ p.names, (p.values name).isSome = true
  admits : p.date ≤ now + minutes 15 ∧ now ≤ p.date + p.lifetime

/-! ### What is read -/

/-- The headers that the front door asks for by their names: `Request::header`. -/
def handlerHeaders : List String :=
  ["host", "date", "authorization", "x-amz-date", "x-amz-content-sha256", "range", "origin",
    "access-control-request-method", "access-control-request-headers", "if-match", "if-none-match",
    "if-modified-since", "if-unmodified-since", "content-type", "content-md5", "content-encoding",
    "cache-control", "content-language", "content-disposition", "x-amz-acl", "x-amz-grant-read",
    "x-amz-grant-write", "x-amz-grant-read-acp", "x-amz-grant-write-acp",
    "x-amz-grant-full-control", "x-amz-tagging", "x-amz-tagging-directive",
    "x-amz-metadata-directive", "x-amz-storage-class", "x-amz-copy-source",
    "x-amz-copy-source-range", "x-amz-copy-source-if-match", "x-amz-copy-source-if-none-match",
    "x-amz-copy-source-if-modified-since", "x-amz-copy-source-if-unmodified-since",
    "x-amz-server-side-encryption", "x-amz-server-side-encryption-aws-kms-key-id",
    "x-amz-server-side-encryption-customer-algorithm", "x-amz-server-side-encryption-customer-key",
    "x-amz-server-side-encryption-customer-key-md5", "x-amz-object-lock-mode",
    "x-amz-object-lock-retain-until-date", "x-amz-object-lock-legal-hold",
    "x-amz-bucket-object-lock-enabled", "x-amz-bypass-governance-retention", "x-amz-trailer",
    "x-amz-sdk-checksum-algorithm", "x-amz-mp-object-size", "x-amz-checksum-mode",
    "x-amz-checksum-type", "x-amz-checksum-algorithm", "x-amz-checksum-crc32",
    "x-amz-checksum-crc32c", "x-amz-checksum-crc64nvme", "x-amz-checksum-sha1",
    "x-amz-checksum-sha256", "x-amz-checksum-md5"]

/-- `extract_metadata_from_http_headers` -/
def extractMetadata (req : HttpRequest) : Table Text Text :=
  lastValues (req.visibleHeaders.filterMap fun h ↦
    (stripStart "x-amz-meta-".toList h.1).map fun key ↦ (key, h.2))

/-- **What is read under a signed name is signed**: by a handler that asks for the header, as the
metadata of an object, by a handler that asks for the parameter, and by the conditions of a policy,
which can ask for any header and any parameter. -/
structure Presented.ReadsSigned (K : Crates) (P : Platform) (req : HttpRequest) (p : Presented) :
    Prop where
  headers : ∀ name ∈ p.names, name ∈ handlerHeaders.map String.toList →
    req.header name = p.values name
  metadata : ∀ key value, (extractMetadata req)[key]? = some value →
    "x-amz-meta-".toList ++ key ∈ p.names → p.values ("x-amz-meta-".toList ++ key) = some value
  contextHeaders : ∀ name ∈ p.names, ∀ value, (buildRequestHeaders P req)[name]? = some value →
    p.values name = some value
  query : ∀ name value, (parseQueryParams K req.query)[name]? = some value →
    name ∈ p.query.map Prod.fst → (name, value) ∈ p.query
  contextQuery : ∀ name value, (contextQueryParams K P req.query)[name]? = some value →
    name ∈ p.query.map Prod.fst → (name, value) ∈ p.query

/-! ### The header -/

theorem exactDate_eq_some_iff {raw : Text} {date : Time} :
    exactDate K raw = some date ↔ K.parseDate raw = some date ∧ K.formatDate date = raw := by
  rw [exactDate, Option.filter_eq_some_iff, decide_eq_true_eq]

theorem header_of_dateHeader {name raw : Text} (h : dateHeader req = some (name, raw)) :
    (req.header "x-amz-date".toList).or (req.header "date".toList) = some raw := by
  unfold dateHeader at h
  cases hfirst : req.header "x-amz-date".toList with
  | some value =>
    rw [hfirst] at h
    cases h
    rfl
  | none =>
    rw [hfirst, Option.map_none, Option.none_or, Option.map_eq_some_iff] at h
    obtain ⟨value, hvalue, hpair⟩ := h
    cases hpair
    rw [hvalue, Option.none_or]

/-- The canonical request of a header with valid names. -/
theorem canonicalRequest_of_header {names : List Text} (hvalid : validSignedHeaderNames K names = true)
    (p : Presented) (hnames : p.names = names) (hvalues : p.values = req.header)
    (hquery : p.query = rawPairs K req.query) (hpayload : p.payload = payloadHash K req) :
    p.canonicalRequest K req = buildCanonicalRequest K req names := by
  rw [buildCanonicalRequest_eq (validSignedHeaderNames_iff.1 hvalid).1, lines,
    sortNames_of_valid hvalid, canonicalQueryString_eq, Presented.canonicalRequest, hnames, hvalues,
    hquery, hpayload]
  rfl

theorem verified_of_verifyHeader {header : Text} (henforced : config.enforceAuth = true)
    (h : verifyHeader K config req header now = .ok ()) :
    ∃ accessKey secretKey p, config.accessKey = some accessKey ∧ config.secretKey = some secretKey ∧
      namesAccessKey header accessKey = true ∧ presentedByHeader K req header = some p ∧
      p.values = req.header ∧ p.query = rawPairs K req.query ∧ p.Verified K secretKey req now := by
  obtain ⟨haccess, hsecret⟩ : config.accessKey.isSome ∧ config.secretKey.isSome := by
    simpa [AuthConfig.enforceAuth] using henforced
  obtain ⟨accessKey, haccess⟩ := Option.isSome_iff_exists.1 haccess
  obtain ⟨secretKey, hsecret⟩ := Option.isSome_iff_exists.1 hsecret
  unfold verifyHeader at h
  rw [haccess, hsecret] at h
  split at h
  · cases h
  split at h
  · cases h
  next amzDate hamzDate =>
  split at h
  · cases h
  next signature hsignature =>
  split at h
  · cases h
  · cases h
  next names _ hnames =>
  split at h
  · cases h
  next scope hscope =>
  simp only at h
  split at h
  · cases h
  next hkey =>
  split at h
  · cases h
  next hvalid =>
  split at h
  · cases h
  next hverify =>
  have hvalid := validated_of_ok hvalid
  obtain ⟨name, raw, date, region, hdated, -, hparse, hformat, hlate, hearly, hsplit⟩ := hvalid.date
  have hraw : amzDate = raw := Option.some.inj (hamzDate.symm.trans (header_of_dateHeader hdated))
  subst hraw
  refine ⟨accessKey, secretKey, ⟨names, req.header, rawPairs K req.query, payloadHash K req, date,
    minutes 15, amzDate, scope, signature⟩, haccess, hsecret, by simpa using hkey, ?_, rfl, rfl,
    ⟨region, hsplit, ?_⟩, hparse, hvalid.host, hvalid.present, hearly, hlate⟩
  · rw [presentedByHeader, hsignature, hnames, hscope, hdated, Option.bind_some, Option.bind_some,
      Option.bind_some, Option.bind_some, exactDate_eq_some_iff.2 ⟨hparse, hformat⟩]
    rfl
  · rw [Bool.not_eq_true, Bool.not_eq_false', verify, hsplit] at hverify
    rw [canonicalRequest_of_header hvalid.valid _ rfl rfl rfl rfl]
    exact utf8_injective (constantTimeCompare_iff.1 hverify)

/-! ### The query -/

theorem parseCredentialScope_some {credential : Text} {scope : CredentialScope}
    (h : parseCredentialScope credential = some scope) :
    scope.text.splitOn '/' = [scope.date, scope.region, scope.service, scope.terminator] := by
  unfold parseCredentialScope at h
  split at h
  swap
  · cases h
  next accessKey date region service terminator hsplit =>
  split at h
  · cases h
  cases h
  refine List.splitOn_intercalate '/' (fun part hpart hslash ↦ ?_) (List.cons_ne_nil _ _)
  have hmem : part ∈ credential.splitOn '/' := hsplit ▸ List.mem_cons_of_mem _ hpart
  rw [List.splitOn_eq_splitOnP] at hmem
  have hkept := not_of_mem_splitOnP hmem hslash
  cases hkept

/-- What a validated URL presents. -/
theorem verified_of_validateComponents {url : PresignedUrl} {accessKey secretKey : Text}
    (hurl : PresignedUrl.fromQueryParams K (parseQueryParams K req.query) = .ok url)
    (h : url.validateComponents K req.method req.path (headerMap req) accessKey secretKey now = .ok ()) :
    ∃ p, presentedByQuery K req = some p ∧ p.values = (fun name ↦ (headerMap req)[name]?) ∧
      p.query = signedParams (parseQueryParams K req.query) ∧ p.Verified K secretKey req now := by
  obtain ⟨hparams, amzDate, hexact⟩ : url.queryParams = parseQueryParams K req.query ∧
      ∃ amzDate, exactDate K amzDate = some url.date := by
    unfold PresignedUrl.fromQueryParams at hurl
    split at hurl
    · cases hurl
    split at hurl
    · cases hurl
    split at hurl
    · cases hurl
    split at hurl
    · cases hurl
    split at hurl
    · cases hurl
    next date hexact =>
    cases hurl
    exact ⟨rfl, _, hexact⟩
  obtain ⟨hparse, hformat⟩ := exactDate_eq_some_iff.1 hexact
  unfold PresignedUrl.validateComponents at h
  split at h
  · cases h
  split at h
  · cases h
  split at h
  · cases h
  next hearly =>
  split at h
  · cases h
  next hlate =>
  split at h
  · cases h
  next scope hscope =>
  split at h
  · cases h
  split at h
  · cases h
  next hday =>
  split at h
  · cases h
  next signedHeaders hsigned =>
  simp only at h
  split at h
  · cases h
  next hnames =>
  split at h
  · cases h
  split at h
  · cases h
  next hpresent =>
  split at h
  · cases h
  next hsignature =>
  simp only [Bool.or_eq_true, decide_eq_true_eq, not_or, ne_eq, not_not] at hday
  obtain ⟨⟨hdate, hservice⟩, hterminator⟩ := hday
  simp only [Bool.or_eq_true, Bool.not_eq_true', not_or, Bool.not_eq_false,
    List.contains_iff_mem] at hnames
  obtain ⟨⟨-, hhost⟩, -⟩ := hnames
  rw [ne_eq, not_not, hdate, hservice, hparams] at hsignature
  refine ⟨⟨signedHeaders.splitOn ';', fun name ↦ (headerMap req)[name]?,
    signedParams (parseQueryParams K req.query), "UNSIGNED-PAYLOAD".toList, url.date,
    seconds url.expiresIn.toNat, K.formatDate url.date, scope.text, url.signature⟩, ?_, rfl, rfl,
    ⟨scope.region, ?_, hsignature⟩, hformat ▸ hparse, hhost, fun name hname ↦ ?_, not_lt.1 hearly,
    not_lt.1 hlate⟩
  · rw [presentedByQuery, hurl, ← hparams, hsigned]
    show Option.map _ (parseCredentialScope url.credential) = _
    rw [hscope]
    rfl
  · rw [parseCredentialScope_some hscope, hdate, hservice, hterminator]
  · have hsome := List.find?_eq_none.1 hpresent name hname
    rw [Option.isNone_iff_eq_none, ← ne_eq] at hsome
    exact Option.isSome_iff_ne_none.2 hsome

/-- The parameters that a query presents. -/
theorem query_of_presentedByQuery {p : Presented} (h : presentedByQuery K req = some p) :
    p.query = signedParams (parseQueryParams K req.query) := by
  obtain ⟨url, -, h⟩ := Option.bind_eq_some_iff.1 h
  obtain ⟨names, -, h⟩ := Option.bind_eq_some_iff.1 h
  obtain ⟨scope, -, rfl⟩ := Option.map_eq_some_iff.1 h
  rfl

/-- A query that names a principal contains a credential. -/
theorem containsText_of_principal {parts : List Text} {query principal : Text}
    (hparts : ∀ part ∈ parts, part <:+: query)
    (h : extractPresignedPrincipal K config parts = some principal) :
    (containsText "X-Amz-Credential=" query || containsText "AWSAccessKeyId=" query) = true ∧
      ∃ accessKey, config.accessKey = some accessKey ∧ principal = userArn accessKey := by
  induction parts with
  | nil => cases h
  | cons part parts ih =>
    rw [extractPresignedPrincipal] at h
    split at h
    · cases h
    next key raw hsplit =>
    simp only at h
    split at h
    · next accessKey hfound =>
      cases h
      obtain ⟨hkey, hconfigured⟩ := Option.filter_eq_some_iff.1 hfound
      refine ⟨?_, accessKey, of_decide_eq_true hconfigured, rfl⟩
      have hpart : key ++ ['='] <+: part := ⟨raw, by rw [eq_of_splitOnce hsplit]; simp⟩
      have hinside := hpart.isInfix.trans (hparts part (by simp))
      rw [Bool.or_eq_true]
      split at hkey
      · next hname =>
        subst hname
        exact .inl (findText_isSome hinside)
      · split at hkey
        · next hname =>
          subst hname
          exact .inr (findText_isSome hinside)
        · cases hkey
    · exact ih (fun part hpart ↦ hparts part (by simp [hpart])) h

theorem verified_of_verifyQuery {query principal : Text} (henforced : config.enforceAuth = true)
    (hquery : req.query = some query)
    (hprincipal : extractPresignedPrincipal K config (query.splitOn '&') = some principal)
    (h : verifyQuery K config req now = .ok ()) :
    ∃ accessKey secretKey p, config.accessKey = some accessKey ∧ config.secretKey = some secretKey ∧
      principal = userArn accessKey ∧ presentedByQuery K req = some p ∧
      p.values = (fun name ↦ (headerMap req)[name]?) ∧
      p.query = signedParams (parseQueryParams K req.query) ∧ p.Verified K secretKey req now := by
  obtain ⟨hcredential, accessKey, haccess, rfl⟩ :=
    containsText_of_principal (fun part hpart ↦ infix_of_mem_splitOn hpart) hprincipal
  obtain ⟨-, hsecret⟩ : config.accessKey.isSome ∧ config.secretKey.isSome := by
    simpa [AuthConfig.enforceAuth] using henforced
  obtain ⟨secretKey, hsecret⟩ := Option.isSome_iff_exists.1 hsecret
  unfold verifyQuery at h
  simp only [hquery, Option.getD_some, haccess, hsecret] at h
  split at h
  · split at h
    · cases h
    next url hurl =>
    split at h
    · cases h
    next hvalid =>
    rw [← hquery] at hurl
    obtain ⟨p, hp, hvalues, hpairs, hverified⟩ := verified_of_validateComponents hurl hvalid
    exact ⟨accessKey, secretKey, p, haccess, hsecret, rfl, hp, hvalues, hpairs, hverified⟩
  · rw [hcredential] at h
    cases h

/-! ### Where what is read is signed -/

/-- The pair that a handler sees of a part. -/
def partPair (K : Crates) (part : Text) : Text × Text :=
  ((K.decode (nameAndValue part).1).getD [], (K.decode (nameAndValue part).2).getD [])

/-- The pair that a condition of a policy sees of a part. -/
def contextPair (K : Crates) (P : Platform) (part : Text) : Text × Text :=
  (P.lowercase (partPair K part).1, (partPair K part).2)

/-- **No part of the query is read as something else than what was sent under its name.** As it is
read, a part is followed by another one of its name, or it is a pair that was sent, or its name was
not sent. -/
def PartsReadable (pairOf : Text → Text × Text) (parts : List Text) (sent : List (Text × Text)) :
    Prop :=
  ∀ before part after, parts = before ++ part :: after →
    (∃ later ∈ after, (pairOf later).1 = (pairOf part).1) ∨ pairOf part ∈ sent ∨
      (pairOf part).1 ∉ sent.map Prod.fst

/-- **The last visible value of the header is its first value.** -/
def FirstIsLast (req : HttpRequest) (name : Text) : Prop :=
  ∀ before value after, req.visibleHeaders = before ++ (name, value) :: after →
    (∀ h ∈ after, h.1 ≠ name) → req.header name = some value

/-- Where what is read under a signed name is signed. Of a presigned request, which signs last values,
only the headers matter that a handler asks for by their names. -/
structure Faithful (K : Crates) (P : Platform) (req : HttpRequest) (p : Presented) : Prop where
  handlers : PartsReadable (partPair K) (queryParts req.query) p.query
  policies : PartsReadable (contextPair K P) (queryParts req.query) p.query
  headers : ∀ name ∈ p.names, (req.header "authorization".toList).isSome = true ∨
    name ∈ handlerHeaders.map String.toList → FirstIsLast req name

theorem PartsReadable.of_forall {pairOf : Text → Text × Text} {parts : List Text}
    {sent : List (Text × Text)}
    (h : ∀ part ∈ parts, pairOf part ∈ sent ∨ (pairOf part).1 ∉ sent.map Prod.fst) :
    PartsReadable pairOf parts sent :=
  fun _ part _ hparts ↦ .inr (h part (hparts ▸ by simp))

/-- What is read of the parts is sent exactly if the parts are readable. -/
theorem partsReadable_iff {pairOf : Text → Text × Text} {parts : List Text}
    {sent : List (Text × Text)} :
    (∀ name value, (lastValues (parts.map pairOf))[name]? = some value →
      name ∈ sent.map Prod.fst → (name, value) ∈ sent) ↔ PartsReadable pairOf parts sent := by
  constructor
  · intro h before part after hparts
    by_cases hlater : ∃ later ∈ after, (pairOf later).1 = (pairOf part).1
    · exact .inl hlater
    · by_cases hname : (pairOf part).1 ∈ sent.map Prod.fst
      · refine .inr (.inl (h _ _ (lastValues_eq_some_iff.2 ⟨before.map pairOf, after.map pairOf, ?_,
          fun pair hpair hsame ↦ ?_⟩) hname))
        · rw [hparts, List.map_append, List.map_cons]
        · obtain ⟨later, hmem, rfl⟩ := List.mem_map.1 hpair
          exact hlater ⟨later, hmem, hsame⟩
      · exact .inr (.inr hname)
  · intro h name value hread hname
    obtain ⟨before, after, hsplit, hafter⟩ := lastValues_eq_some_iff.1 hread
    obtain ⟨before', rest, hparts, -, hrest⟩ := List.map_eq_append_iff.1 hsplit
    obtain ⟨part, after', rfl, hpart, rfl⟩ := List.map_eq_cons_iff.1 hrest
    rw [← hpart]
    rcases h before' part after' hparts with ⟨later, hmem, hsame⟩ | hsent | hno
    · exact absurd (hsame.trans (congrArg Prod.fst hpart)) (hafter _ (List.mem_map_of_mem hmem))
    · exact hsent
    · exact absurd (hpart ▸ hname) hno

theorem readsQuery_iff (K : Crates) (query : Option Text) (sent : List (Text × Text)) :
    (∀ name value, (parseQueryParams K query)[name]? = some value →
      name ∈ sent.map Prod.fst → (name, value) ∈ sent) ↔
      PartsReadable (partPair K) (queryParts query) sent :=
  partsReadable_iff

theorem readsContextQuery_iff (K : Crates) (P : Platform) (query : Option Text)
    (sent : List (Text × Text)) :
    (∀ name value, (contextQueryParams K P query)[name]? = some value →
      name ∈ sent.map Prod.fst → (name, value) ∈ sent) ↔
      PartsReadable (contextPair K P) (queryParts query) sent := by
  rw [← partsReadable_iff, contextQueryParams, queryPairs, List.map_map]
  rfl

theorem visible_name {h : Text × Text} (hh : h ∈ req.visibleHeaders) :
    toLower h.1 = h.1 ∧ (h.1.all fun c ↦ c.toNat < 128) = true := by
  obtain ⟨⟨name, value⟩, hmem, hvalue⟩ := List.mem_filterMap.1 hh
  obtain ⟨v, -, rfl⟩ := Option.map_eq_some_iff.1 hvalue
  exact req.headers_names _ hmem

theorem headerMap_eq (req : HttpRequest) : headerMap req = lastValues req.visibleHeaders := by
  have hnames : ∀ h ∈ req.visibleHeaders, (toLower h.1, h.2) = h := fun h hh ↦ by
    rw [(visible_name hh).1]
  rw [headerMap, List.map_congr_left hnames, List.map_id']

/-- A policy reads the names of the headers as they are. -/
theorem buildRequestHeaders_eq (P : Platform) (req : HttpRequest) :
    buildRequestHeaders P req = lastValues req.visibleHeaders := by
  have hnames : ∀ h ∈ req.visibleHeaders, (P.lowercase h.1, h.2) = h := fun h hh ↦ by
    rw [P.lowercase_ascii _ (visible_name hh).2, (visible_name hh).1]
  rw [buildRequestHeaders, List.map_congr_left hnames, List.map_id']

/-- The metadata of an object are last values too. -/
theorem last_of_extractMetadata {key value : Text} (h : (extractMetadata req)[key]? = some value) :
    (lastValues req.visibleHeaders)["x-amz-meta-".toList ++ key]? = some value := by
  obtain ⟨before, after, hsplit, hafter⟩ := lastValues_eq_some_iff.1 h
  obtain ⟨before', rest, hheaders, -, hrest⟩ := List.filterMap_eq_append_iff.1 hsplit
  obtain ⟨skipped, ⟨name, value'⟩, after', rfl, hskipped, hhere, hlater⟩ :=
    List.filterMap_eq_cons_iff.1 hrest
  obtain ⟨key', hkey, hpair⟩ := Option.map_eq_some_iff.1 hhere
  obtain ⟨rfl, rfl⟩ := Prod.mk.inj hpair
  obtain rfl : name = "x-amz-meta-".toList ++ key' := stripStart_eq_some_iff.1 hkey
  refine lastValues_eq_some_iff.2 ⟨before' ++ skipped, after', by rw [hheaders]; simp, ?_⟩
  rintro ⟨name, value⟩ hmem rfl
  have hread : (key', value) ∈ after := by
    rw [← hlater]
    exact List.mem_filterMap.2 ⟨_, hmem, by rw [stripStart_eq_some_iff.2 rfl]; rfl⟩
  exact hafter _ hread rfl

/-- The last value is the first one. -/
theorem firstIsLast_iff {name : Text} :
    (∀ value, (lastValues req.visibleHeaders)[name]? = some value → req.header name = some value) ↔
      FirstIsLast req name := by
  constructor
  · intro h before value after hsplit hafter
    exact h value (lastValues_eq_some_iff.2 ⟨before, after, hsplit, hafter⟩)
  · intro h value hvalue
    obtain ⟨before, after, hsplit, hafter⟩ := lastValues_eq_some_iff.1 hvalue
    exact h before value after hsplit hafter

theorem readsHeader_iff {name : Text}
    (hpresent : ((lastValues req.visibleHeaders)[name]?).isSome = true) :
    req.header name = (lastValues req.visibleHeaders)[name]? ↔ FirstIsLast req name := by
  obtain ⟨value, hvalue⟩ := Option.isSome_iff_exists.1 hpresent
  rw [← firstIsLast_iff, hvalue]
  simp

/-- Where the last values are signed, so are the metadata. -/
theorem metadata_signed {p : Presented} (h : ∀ name ∈ p.names, ∀ value,
      (lastValues req.visibleHeaders)[name]? = some value → p.values name = some value)
    (key value : Text) (hread : (extractMetadata req)[key]? = some value)
    (hname : "x-amz-meta-".toList ++ key ∈ p.names) :
    p.values ("x-amz-meta-".toList ++ key) = some value :=
  h _ hname _ (last_of_extractMetadata hread)

/-- **A signature in the header covers first values.** -/
theorem readsSigned_iff_of_header {p : Presented} (hvalues : p.values = req.header)
    (hsome : (req.header "authorization".toList).isSome = true) :
    p.ReadsSigned K P req ↔ Faithful K P req p := by
  have hlast : (∀ name ∈ p.names, ∀ value, (lastValues req.visibleHeaders)[name]? = some value →
      p.values name = some value) ↔ ∀ name ∈ p.names, FirstIsLast req name := by
    rw [hvalues]
    exact forall₂_congr fun name _ ↦ firstIsLast_iff
  constructor
  · intro h
    have hcontext := h.contextHeaders
    rw [buildRequestHeaders_eq] at hcontext
    exact ⟨(readsQuery_iff _ _ _).1 h.query, (readsContextQuery_iff _ _ _ _).1 h.contextQuery,
      fun name hname _ ↦ hlast.1 hcontext name hname⟩
  · intro h
    have hcontext := hlast.2 fun name hname ↦ h.headers name hname (.inl hsome)
    refine ⟨fun name _ _ ↦ by rw [hvalues], metadata_signed hcontext, ?_,
      (readsQuery_iff _ _ _).2 h.handlers, (readsContextQuery_iff _ _ _ _).2 h.policies⟩
    rw [buildRequestHeaders_eq]
    exact hcontext

/-- **A signature in the query covers last values.** -/
theorem readsSigned_iff_of_query {p : Presented}
    (hvalues : p.values = fun name ↦ (headerMap req)[name]?)
    (hpresent : ∀ name ∈ p.names, (p.values name).isSome = true)
    (hnone : req.header "authorization".toList = none) :
    p.ReadsSigned K P req ↔ Faithful K P req p := by
  rw [headerMap_eq] at hvalues
  have hcontext : ∀ name ∈ p.names, ∀ value, (lastValues req.visibleHeaders)[name]? = some value →
      p.values name = some value := by
    rw [hvalues]
    exact fun _ _ _ h ↦ h
  have hfirst : ∀ name ∈ p.names, (req.header name = p.values name ↔ FirstIsLast req name) := by
    intro name hname
    have hsome := hpresent name hname
    rw [hvalues] at hsome ⊢
    exact readsHeader_iff hsome
  constructor
  · intro h
    refine ⟨(readsQuery_iff _ _ _).1 h.query, (readsContextQuery_iff _ _ _ _).1 h.contextQuery, ?_⟩
    rintro name hname (hheader | hread)
    · rw [hnone] at hheader
      cases hheader
    · exact (hfirst name hname).1 (h.headers name hname hread)
  · intro h
    refine ⟨fun name hname hread ↦ (hfirst name hname).2 (h.headers name hname (.inr hread)),
      metadata_signed hcontext, ?_, (readsQuery_iff _ _ _).2 h.handlers,
      (readsContextQuery_iff _ _ _ _).2 h.policies⟩
    rw [buildRequestHeaders_eq]
    exact hcontext

/-- A parameter that is read is signed, in a presigned request. -/
theorem mem_signedParams {params : Table Text Text} {name value : Text}
    (hread : params[name]? = some value) (hname : name ∈ (signedParams params).map Prod.fst) :
    (name, value) ∈ signedParams params := by
  obtain ⟨⟨name', value'⟩, hmem, rfl⟩ := List.mem_map.1 hname
  rw [signedParams, List.mem_filter] at hmem ⊢
  exact ⟨Std.ExtTreeMap.mem_toList_iff_getElem?_eq_some.2 hread, hmem.2⟩

/-- **The parameters of a presigned request are read as they were sent.** -/
theorem partsReadable_of_query :
    PartsReadable (partPair K) (queryParts req.query) (signedParams (parseQueryParams K req.query)) :=
  (readsQuery_iff _ _ _).1 fun _ _ hread hname ↦ mem_signedParams hread hname

/-- An authenticated request is one of the configured access key, and without a header its query
says so. -/
theorem fromRequest_cases (henforced : config.enforceAuth = true)
    (hauth : (AuthInfo.fromRequest K config req).isAuthenticated = true) :
    ∃ accessKey, config.accessKey = some accessKey ∧
      (AuthInfo.fromRequest K config req).principal = userArn accessKey ∧
      (req.header "authorization".toList = none → ∃ query, req.query = some query ∧
        (extractPresignedPrincipal K config (query.splitOn '&')).isSome = true) := by
  unfold AuthInfo.fromRequest at hauth ⊢
  rw [if_neg (by rw [henforced]; exact nofun)] at hauth ⊢
  simp only at hauth ⊢
  have hconfigured : ∀ {accepts : Text → Bool} {principal : Text},
      (config.accessKey.filter accepts).map userArn = some principal →
        ∃ accessKey, config.accessKey = some accessKey ∧ principal = userArn accessKey := by
    intro accepts principal h
    obtain ⟨accessKey, hfilter, rfl⟩ := Option.map_eq_some_iff.1 h
    exact ⟨accessKey, (Option.filter_eq_some_iff.1 hfilter).1, rfl⟩
  split at hauth
  swap
  · cases hauth
  next principal hprincipal =>
  rcases Option.or_eq_some_iff.1 hprincipal with hheader | ⟨-, hquery⟩
  · obtain ⟨header, hpresent, hfound⟩ := Option.bind_eq_some_iff.1 hheader
    obtain ⟨accessKey, haccess, hsame⟩ : ∃ accessKey, config.accessKey = some accessKey ∧
        principal = userArn accessKey := by
      split at hfound
      · exact hconfigured hfound
      · split at hfound
        · obtain ⟨rest, -, hrest⟩ := Option.bind_eq_some_iff.1 hfound
          exact hconfigured hrest
        · cases hfound
    refine ⟨accessKey, haccess, hsame, fun hnone ↦ ?_⟩
    rw [hpresent] at hnone
    cases hnone
  · obtain ⟨query, hsome, hfound⟩ := Option.bind_eq_some_iff.1 hquery
    split at hfound
    · obtain ⟨-, accessKey, haccess, hsame⟩ :=
        containsText_of_principal (fun part hpart ↦ infix_of_mem_splitOn hpart) hfound
      exact ⟨accessKey, haccess, hsame, fun _ ↦ ⟨query, hsome, by rw [hfound]; rfl⟩⟩
    · cases hfound

/-- **A request that is authenticated presents the right signature of the configured secret, and
what is read under a signed name is signed exactly if the request is faithful.** -/
theorem authenticated_request_reads_signed_iff (P : Platform) (henforced : config.enforceAuth = true)
    (hok : authenticate K config req now = .ok info) (hauth : info.isAuthenticated = true) :
    ∃ accessKey secretKey p, config.accessKey = some accessKey ∧ config.secretKey = some secretKey ∧
      info.principal = userArn accessKey ∧ presented K req = some p ∧
      p.Verified K secretKey req now ∧ (p.ReadsSigned K P req ↔ Faithful K P req p) := by
  have hverify : verifySigv4Signature K config req now = .ok () ∧
      info = AuthInfo.fromRequest K config req := by
    unfold authenticate at hok
    cases hv : verifySigv4Signature K config req now with
    | error refusal => rw [hv] at hok; cases hok
    | ok u => rw [hv] at hok; exact ⟨rfl, (Except.ok.inj hok).symm⟩
  obtain ⟨hverify, rfl⟩ := hverify
  obtain ⟨accessKey, haccess, hprincipal, hsigned⟩ := fromRequest_cases henforced hauth
  unfold verifySigv4Signature at hverify
  rw [if_neg (by rw [henforced]; exact nofun)] at hverify
  unfold presented
  cases hheader : req.header "authorization".toList with
  | some header =>
    rw [hheader] at hverify
    obtain ⟨accessKey', secretKey, p, haccess', hsecret, -, hp, hvalues, -, hverified⟩ :=
      verified_of_verifyHeader henforced hverify
    exact ⟨accessKey, secretKey, p, haccess, hsecret, hprincipal, hp, hverified,
      readsSigned_iff_of_header hvalues (by rw [hheader]; rfl)⟩
  | none =>
    rw [hheader] at hverify
    obtain ⟨query, hquery, hfound⟩ := hsigned hheader
    obtain ⟨principal, hfound⟩ := Option.isSome_iff_exists.1 hfound
    obtain ⟨accessKey', secretKey, p, haccess', hsecret, -, hp, hvalues, -, hverified⟩ :=
      verified_of_verifyQuery henforced hquery hfound hverify
    exact ⟨accessKey, secretKey, p, haccess, hsecret, hprincipal, hp, hverified,
      readsSigned_iff_of_query hvalues hverified.present hheader⟩

/-! ### A header sent twice -/

/-- A text in pieces. -/
def texts (pieces : List String) : Text := pieces.flatMap String.toList

/-- The bytes of hexadecimal digits. -/
def unhex : Text → Bytes
  | a :: b :: t => UInt8.ofNat (16 * (hexValue a).getD 0 + (hexValue b).getD 0) :: unhex t
  | _ => []

/-- The query that is presigned. -/
def uploadQuery : Text :=
  texts ["X-Amz-Algorithm=AWS4-HMAC-SHA256", "&X-Amz-Credential=AKID%2F20240101",
    "%2Fus-east-1%2Fs3%2Faws4_request", "&X-Amz-Date=20240101T000000Z", "&X-Amz-Expires=60",
    "&X-Amz-SignedHeaders=host", "%3Bx-amz-acl"]

/-- Its canonical request. -/
def uploadCanonical : Text :=
  texts ["PUT\n/bucket/key\n"] ++ uploadQuery ++
    texts ["\nhost:localhost", "\nx-amz-acl:private\n", "\nhost;x-amz-acl", "\nUNSIGNED-PAYLOAD"]

/-- The SHA-256 hash of the canonical request. -/
def uploadHash : Text :=
  texts ["2f81e59792cfc2af529cab1c47ef215f",
    "939540e5c20e1866b6b011358844bd34"]

/-- The four keys on the way to the signature. -/
def uploadKeys : Fin 4 → Bytes
  | 0 => unhex (texts ["ec0a3740a44c56d2e25fb38eec1785ae", "e2ac962e7df51aba7c9f88f970305a18"])
  | 1 => unhex (texts ["3908e80578a9f24e73f0a27d1c472c43", "7dfda8c14b9925e24552dbb05dc73073"])
  | 2 => unhex (texts ["cbe70d01f778c4b03fe5ae06db536564", "6d97220f864553b9602df9b44a4d6609"])
  | 3 => unhex (texts ["6249533c8996e005065f51a6a20edf49", "677b3e30200cfa3ceeb49681f6fec66a"])

/-- The signature. -/
def uploadSignature : Text :=
  texts ["6564ff7a436bf25aee5fd2727e1acd92",
    "0533792073bc82dbf39a607d5fbed815"]

/-- The crates on the day of the upload, with its hashes. -/
def uploadDay : Crates := asciiCrates "20240101T000000Z".toList "20240101".toList newYear
  (fun data ↦ if data = utf8 uploadCanonical then uploadHash else [])
  (fun data ↦ by split <;> decide)
  (fun key data ↦
    if (key, data) = (utf8 "AWS4secret".toList, utf8 "20240101".toList) then uploadKeys 0
    else if (key, data) = (uploadKeys 0, utf8 "us-east-1".toList) then uploadKeys 1
    else if (key, data) = (uploadKeys 1, utf8 "s3".toList) then uploadKeys 2
    else if (key, data) = (uploadKeys 2, utf8 "aws4_request".toList) then uploadKeys 3
    else [])
  (fun key data ↦
    if (key, data) = (uploadKeys 3, utf8 (texts ["AWS4-HMAC-SHA256\n20240101T000000Z\n",
        "20240101/us-east-1/s3/aws4_request", "\n"] ++ uploadHash)) then uploadSignature
    else [])

/-- A presigned upload, with its signed header alone or behind another value of it. -/
def presignedUpload (twice : Bool) : HttpRequest where
  method := "PUT".toList
  path := "/bucket/key".toList
  query := some (uploadQuery ++ texts ["&X-Amz-Signature="] ++ uploadSignature)
  headers := ("host".toList, some "localhost".toList) ::
    (if twice then [("x-amz-acl".toList, some "public-read-write".toList)] else []) ++
      [("x-amz-acl".toList, some "private".toList)]
  method_token := plain_put
  headers_names := by cases twice <;> decide
  headers_values name value h := by
    cases twice
    all_goals
      simp only [List.mem_cons, List.mem_append, Prod.mk.injEq, Option.some.injEq, List.not_mem_nil,
        or_false, if_true, if_false, Bool.false_eq_true] at h
    · rcases h with ⟨-, rfl⟩ | ⟨-, rfl⟩ <;> decide
    · rcases h with (⟨-, rfl⟩ | ⟨-, rfl⟩) | ⟨-, rfl⟩ <;> decide
  hint_plain := plain_of_no_hint

/-- The configured credentials. -/
def uploadConfig : AuthConfig := ⟨some "AKID".toList, some "secret".toList⟩

theorem authenticate_presignedUpload (twice : Bool) :
    authenticate uploadDay uploadConfig (presignedUpload twice) newYear =
      .ok ⟨userArn "AKID".toList, true⟩ := by
  cases twice <;> decide +kernel

/-- A presigned upload with a single value of its signed header. -/
theorem presigned_upload_reads_signed : ∃ p, presented uploadDay (presignedUpload false) = some p ∧
    p.Verified uploadDay "secret".toList (presignedUpload false) newYear ∧
    p.ReadsSigned uploadDay .ascii (presignedUpload false) := by
  obtain ⟨accessKey, secretKey, p, -, hsecret, -, hp, hverified, hiff⟩ :=
    @authenticated_request_reads_signed_iff uploadDay uploadConfig _ _ _ .ascii rfl
      (authenticate_presignedUpload false) rfl
  cases Option.some.inj hsecret
  have hheader : (presignedUpload false).header "authorization".toList = none := by decide
  have hquery : p.query =
      signedParams (parseQueryParams uploadDay (presignedUpload false).query) := by
    rw [presented, hheader] at hp
    exact query_of_presentedByQuery hp
  refine ⟨p, hp, hverified, hiff.2 ⟨hquery ▸ partsReadable_of_query, ?_, ?_⟩⟩
  · rw [hquery]
    exact .of_forall (by decide +kernel)
  · intro name _ _ before value after hvisible _
    have hmem : (name, value) ∈ (presignedUpload false).visibleHeaders := hvisible ▸ by simp
    have hread : ∀ h ∈ (presignedUpload false).visibleHeaders,
        (presignedUpload false).header h.1 = some h.2 := by decide
    exact hread (name, value) hmem

/-- **A handler reads a value that was not signed.** The signature is over the last value of the
header. -/
theorem repeated_header_is_not_signed :
    authenticate uploadDay uploadConfig (presignedUpload true) newYear =
      .ok ⟨userArn "AKID".toList, true⟩ ∧
    ∃ p, presented uploadDay (presignedUpload true) = some p ∧ "x-amz-acl".toList ∈ p.names ∧
      p.values "x-amz-acl".toList = some "private".toList ∧
      (presignedUpload true).header "x-amz-acl".toList = some "public-read-write".toList ∧
      ¬ p.ReadsSigned uploadDay .ascii (presignedUpload true) := by
  have hpresented : (presented uploadDay (presignedUpload true)).map
      (fun p ↦ (p.names, p.values "x-amz-acl".toList)) =
        some (["host".toList, "x-amz-acl".toList], some "private".toList) := by decide
  obtain ⟨p, hp, hpair⟩ := Option.map_eq_some_iff.1 hpresented
  obtain ⟨hnames, hvalue⟩ := Prod.mk.inj hpair
  have hread : (presignedUpload true).header "x-amz-acl".toList =
      some "public-read-write".toList := by decide
  have hsigned : "x-amz-acl".toList ∈ p.names := by
    rw [hnames]
    exact List.mem_cons_of_mem _ (List.mem_singleton.2 rfl)
  refine ⟨authenticate_presignedUpload true, p, hp, hsigned, hvalue, hread, fun h ↦ ?_⟩
  have hasked : "x-amz-acl".toList ∈ handlerHeaders.map String.toList :=
    List.mem_map_of_mem (by decide)
  have hsame := h.headers _ hsigned hasked
  rw [hread, hvalue] at hsame
  revert hsame
  decide

end Sqrzl.Auth
