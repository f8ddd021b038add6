import SqrzlEmulator.Auth.Verified
import SqrzlEmulator.Data.Numerals
import SqrzlEmulator.Data.Unescape

/-!
# Presigned URLs

`PresignedUrl::generate_url` writes a URL that carries its own signature (`generateUrl`). A client
takes it apart and sends it to the host that it names (`splitUrl`, `Carries`), and the server
verifies the signature (`Accepted`) and finds the handler.

A URL that expires within a week is accepted until then (`accepted_of_sent`), and a longer one is
never accepted (`not_accepted_of_sent`). **It is routed to the bucket and to `decodedKey`**
(`route_of_sent`), which is the key as the canonical URI of the generator reads it: every segment
decoded, if it can be. A key that is read as itself comes back (`presigned_url_round_trip`).

## The argument

* The generator decodes and encodes every segment of the path. The server decodes and encodes what
  it is sent, which changes nothing any more (`canonicalUri_encodedPath`), and it decodes the key as
  a whole, which is the same as by segments (`decode_join`).
* The parameters are read back as they were before they were encoded (`queryPairs_encoded`). They
  are sorted and have different names, so the server signs them in the order of the generator
  (`joinParams_of_sorted`, `reads_sent`).
-/

namespace Sqrzl.Auth

open Percent S3

/-! ### The generator -/

/-- `PresignedUrlConfig` -/
structure PresignedUrlConfig where
  accessKey : Text
  secretKey : Text

/-- `str::trim_end_matches('/')` -/
def trimEndSlashes (t : Text) : Text := (t.reverse.dropWhile (· = '/')).reverse

/-- `REGION`, `SERVICE` and the end of the scope. -/
def credentialScope (dateStamp : Text) : Text :=
  join '/' [dateStamp, "us-east-1".toList, "s3".toList, "aws4_request".toList]

/-- The parameters that are signed, in the order of their names. -/
def presignParams (credential amzDate expires : Text) : List (Text × Text) :=
  [("X-Amz-Algorithm".toList, "AWS4-HMAC-SHA256".toList), ("X-Amz-Credential".toList, credential),
    ("X-Amz-Date".toList, amzDate), ("X-Amz-Expires".toList, expires),
    ("X-Amz-SignedHeaders".toList, "host".toList)].insertionSort
      fun l r ↦ (compare l.1 r.1).isLE

/-- `PresignedUrl::generate_url` -/
def generateUrl (K : Crates) (bucket key method : Text) (expiresInSeconds : ℤ) (baseUrl : Text)
    (config : PresignedUrlConfig) (now : Time) : Text :=
  let amzDate := K.formatDate now
  let dateStamp := K.formatDay now
  let credential := config.accessKey ++ '/' :: credentialScope dateStamp
  let uri := canonicalUri K ('/' :: bucket ++ '/' :: key)
  let query := join '&' ((presignParams credential amzDate (toString expiresInSeconds).toList).map
    fun param ↦ param.1 ++ '=' :: uriEncode param.2 true)
  let host := trimEndSlashes (trimStartMatches "https://".toList
    (trimStartMatches "http://".toList baseUrl))
  let canonicalRequest := join '\n' [method, uri, query, "host:".toList ++ host, [], "host".toList,
    "UNSIGNED-PAYLOAD".toList]
  let signature := expectedSignature K config.secretKey amzDate (credentialScope dateStamp)
    canonicalRequest dateStamp "us-east-1".toList "s3".toList
  trimEndSlashes baseUrl ++ '/' :: uri.dropWhile (· = '/') ++ '?' :: query ++
    "&X-Amz-Signature=".toList ++ signature

/-! ### The request that carries a URL -/

/-- The host, the path and the query of a URL. -/
def splitUrl (url : Text) : Option (Text × Text × Option Text) :=
  (findText "://".toList url).map fun found ↦
    let target := found.2.dropWhile (· ≠ '/')
    (found.2.takeWhile (· ≠ '/'),
      match splitOnce '?' target with
      | some (path, query) => (path, some query)
      | none => (target, none))

/-- The request asks for the URL, with a single host and without headers of the service. -/
structure Carries (req : HttpRequest) (method url : Text) : Prop where
  method : req.method = method
  target : splitUrl url = req.host.map fun host ↦ (host, req.path, req.query)
  host : (headerMap req)["host".toList]? = req.host
  headers : ∀ name ∈ (headerMap req).keys, "x-amz-".toList.isPrefixOf name = false

/-- **The server accepts the signature** in the query of the request. -/
def Accepted (K : Crates) (config : PresignedUrlConfig) (req : HttpRequest) (now : Time) : Prop :=
  ∃ url, PresignedUrl.fromQueryParams K (parseQueryParams K req.query) = .ok url ∧
    url.validateComponents K req.method req.path (headerMap req) config.accessKey config.secretKey
      now = .ok ()

/-- The object handler of a method, in `object_route`. -/
def objectHandler (method bucket key : Text) : Option Route :=
  match String.ofList method with
  | "GET" | "OPTIONS" => some (.objectGet bucket key)
  | "PUT" => some (.objectPut bucket key)
  | "DELETE" => some (.objectDelete bucket key)
  | "HEAD" => some (.objectHead bucket key)
  | "POST" => some (.objectPost bucket key)
  | _ => none

theorem objectRoute_eq_objectHandler {K : Crates} {method bucket encodedKey key : Text}
    (h : decodeUriPath K encodedKey = some key) : objectRoute K method bucket encodedKey =
      ((objectHandler method bucket key).map RouteMatch.handler).getD .notFound := by
  rw [objectRoute, h, objectHandler]
  dsimp only
  split <;> simp_all

/-- A base URL: a scheme, a host that may have a port, and slashes at the end. -/
structure Endpoint where
  secure : Bool
  host : Text
  slashes : ℕ
  host_ne_nil : host ≠ []
  host_plain : Plain host
  slash_not_mem : '/' ∉ host
  /-- A port is not empty. -/
  host_port : host.getLast? ≠ some ':'

/-- The scheme, with what is behind it. -/
def Endpoint.scheme (endpoint : Endpoint) : Text :=
  if endpoint.secure then "https://".toList else "http://".toList

/-- The text of a base URL. -/
def Endpoint.url (endpoint : Endpoint) : Text :=
  endpoint.scheme ++ endpoint.host ++ List.replicate endpoint.slashes '/'

/-! ### What the crates do -/

/-- What presigning relies on. -/
structure Standard (K : Crates) : Prop where
  /-- `urlencoding::decode` resolves what `uri_encode` wrote. -/
  decode_uriEncode : ∀ t, K.decode (uriEncode t true) = some t
  isHeaderName_host : K.isHeaderName "host".toList = true
  formatDay : ∀ t, K.formatDay t ≠ [] ∧ '/' ∉ K.formatDay t
  /-- `hex::encode` -/
  hmacSha256Hex : ∀ key data, ∀ c ∈ K.hmacSha256Hex key data, c.isAlphanum = true

/-- A moment is written as a date, which is parsed as the beginning of its second. -/
structure Dated (K : Crates) (signed date : Time) : Prop where
  parse : K.parseDate (K.formatDate signed) = some date
  format : K.formatDate date = K.formatDate signed
  day : K.formatDay date = K.formatDay signed

variable {K : Crates}

/-- A key as the canonical URI reads it: each segment decoded, if it can be. -/
def decodedKey (K : Crates) (key : Text) : Text := join '/' ((key.splitOn '/').map (decodeOrRaw K))

/-! ### Texts that are encoded -/

/-- An unreserved character is an ASCII character. -/
theorem ascii_of_isUnreserved {c : Char} (h : isUnreserved true c = true) :
    c ≠ '%' ∧ c.toNat < 128 := by
  refine ⟨fun heq ↦ ?_, ?_⟩
  · rw [heq] at h
    exact absurd h (by decide)
  · have hsmall : ∀ d : Char, d.toNat < 128 → c = d → c.toNat < 128 := fun d hd heq ↦ heq ▸ hd
    have hranges : isUnreserved true c = (decide ('A'.val ≤ c.val ∧ c.val ≤ 'Z'.val) ||
        decide ('a'.val ≤ c.val) && decide (c.val ≤ 'z'.val) ||
        decide ('0'.val ≤ c.val) && decide (c.val ≤ '9'.val) ||
        decide (c = '-') || decide (c = '_') || decide (c = '.') || decide (c = '~') ||
        (!true && decide (c = '/'))) := rfl
    rw [hranges] at h
    simp only [Bool.or_eq_true, Bool.and_eq_true, decide_eq_true_eq, Bool.not_true,
      Bool.false_and, Bool.false_eq_true, or_false, UInt32.le_iff_toNat_le] at h
    show c.val.toNat < 128
    rcases h with ((((((h | h) | h) | h) | h) | h) | h)
    · exact Nat.lt_of_le_of_lt h.2 (by decide)
    · exact Nat.lt_of_le_of_lt h.2 (by decide)
    · exact Nat.lt_of_le_of_lt h.2 (by decide)
    all_goals
      rw [h]
      decide

theorem percentDecode_uriEncode (t : Text) : percentDecode (uriEncode t true) = some t :=
  percentDecode_percentEncode (fun _ h ↦ ascii_of_isUnreserved h) t

/-- What is unreserved is written as itself. -/
theorem uriEncode_of_unreserved {t : Text} (h : ∀ c ∈ t, isUnreserved true c = true) :
    uriEncode t true = t :=
  percentEncode_of_kept (fun _ h ↦ ascii_of_isUnreserved h) h

theorem isUnreserved_of_isAlphanum {c : Char} (h : c.isAlphanum = true) :
    isUnreserved true c = true := by
  rw [isUnreserved, h]
  rfl

theorem uriEncode_of_validBucketName {bucket : Text} (h : validBucketName bucket = true) :
    uriEncode bucket true = bucket := by
  refine uriEncode_of_unreserved fun c hc ↦ ?_
  have hall : bucket.all (fun c ↦ c.isLower || c.isDigit || c = '-' || c = '.') = true := by
    simp only [validBucketName, Bool.and_eq_true] at h
    exact h.1.1.1.1.2
  have hchar := List.all_eq_true.1 hall c hc
  simp only [Bool.or_eq_true, decide_eq_true_eq] at hchar
  rcases hchar with ((hchar | hchar) | rfl) | rfl
  · refine isUnreserved_of_isAlphanum ?_
    show (c.isUpper || c.isLower || c.isDigit) = true
    rw [hchar, Bool.or_true, Bool.true_or]
  · refine isUnreserved_of_isAlphanum ?_
    show (c.isUpper || c.isLower || c.isDigit) = true
    rw [hchar, Bool.or_true]
  · decide
  · decide

/-- An encoded text has no character that delimits the parts of a URL. -/
theorem question_not_mem_uriEncode {t : Text} : '?' ∉ uriEncode t true := by
  intro h
  have hkept := mem_percentEncode h
  revert hkept
  decide

/-- Encoded escapes are well formed. -/
theorem validEscapes_uriEncode_append (t rest : Text) :
    validEscapes (uriEncode t true ++ rest) = validEscapes rest := by
  have hhex : ∀ n < 16, validEscapes.isHexDigit (hexDigit n) = true := by decide
  rw [uriEncode, percentEncode]
  induction utf8 t with
  | nil => rfl
  | cons b bytes ih =>
    have hlt := b.toNat_lt
    rw [List.flatMap_cons, List.append_assoc, percentByte]
    split
    · next hkept =>
      rw [List.singleton_append, validEscapes, ih]
      · exact fun _ _ _ h ↦ absurd h (ascii_of_isUnreserved hkept).1
      · exact fun h ↦ absurd h (ascii_of_isUnreserved hkept).1
    · rw [List.cons_append, List.cons_append, List.cons_append, List.nil_append, validEscapes,
        hhex _ (by omega), hhex _ (by omega), ih]
      rfl

/-! ### Paths -/

/-- A joined text, from its first part. -/
theorem join_cons {sep : Char} {t : Text} {l : List Text} (h : l ≠ []) :
    join sep (t :: l) = t ++ sep :: join sep l := by
  rw [join, List.intercalate_cons_of_ne_nil h]
  simp [join]

/-- A joined text, up to its last part. -/
theorem join_concat {sep : Char} {t : Text} {l : List Text} (h : l ≠ []) :
    join sep (l ++ [t]) = join sep l ++ sep :: t := by
  induction l with
  | nil => exact absurd rfl h
  | cons u l ih =>
    cases l with
    | nil => simp [join]
    | cons v l =>
      rw [List.cons_append, join_cons (List.append_ne_nil_of_right_ne_nil _ (List.cons_ne_nil _ _)),
        ih (List.cons_ne_nil _ _), join_cons (List.cons_ne_nil _ _), List.append_assoc,
        List.cons_append]

theorem map_ne_nil {α β : Type} {f : α → β} {l : List α} (h : l ≠ []) : l.map f ≠ [] :=
  fun heq ↦ h (List.map_eq_nil_iff.1 heq)

/-- Encoded parts are decoded as a whole. -/
theorem decode_join (hK : Standard K) {l : List Text} (h : l ≠ []) :
    decodeUriPath K (join '/' (l.map (uriEncode · true))) = some (join '/' l) := by
  have hboth : validEscapes (join '/' (l.map (uriEncode · true))) = true ∧
      K.decode (join '/' (l.map (uriEncode · true))) = some (join '/' l) := by
    induction l with
    | nil => exact absurd rfl h
    | cons t l ih =>
      cases l with
      | nil =>
        have hone : join '/' [uriEncode t true] = uriEncode t true ++ [] := by simp [join]
        rw [List.map_cons, List.map_nil, hone, validEscapes_uriEncode_append, List.append_nil,
          hK.decode_uriEncode]
        exact ⟨rfl, by simp [join]⟩
      | cons u l =>
        have hne : u :: l ≠ [] := List.cons_ne_nil u l
        obtain ⟨hvalid, hdecode⟩ := ih hne
        rw [List.map_cons, join_cons (map_ne_nil hne), join_cons hne,
          validEscapes_uriEncode_append, K.decode_slash, hK.decode_uriEncode, hdecode]
        refine ⟨?_, rfl⟩
        rw [validEscapes, hvalid]
        · exact fun _ _ _ h ↦ absurd h (by decide)
        · exact fun h ↦ absurd h (by decide)
  rw [decodeUriPath, if_pos hboth.1, hboth.2]

/-- The key as the canonical URI writes it. -/
def encodedKey (K : Crates) (key : Text) : Text :=
  join '/' (((key.splitOn '/').map (decodeOrRaw K)).map (uriEncode · true))

theorem decode_encodedKey (hK : Standard K) (key : Text) :
    decodeUriPath K (encodedKey K key) = some (decodedKey K key) :=
  decode_join hK (map_ne_nil (List.splitOn_ne_nil _ _))

theorem question_not_mem_encodedKey (key : Text) : '?' ∉ encodedKey K key := by
  intro h
  rcases mem_join h with h | ⟨t, ht, hc⟩
  · exact absurd h (by decide)
  · obtain ⟨segment, -, rfl⟩ := List.mem_map.1 ht
    exact question_not_mem_uriEncode hc

theorem encodedKey_ne_nil {key : Text} (h : key ≠ []) : encodedKey K key ≠ [] := by
  intro hnil
  have hjoin : join '/' (key.splitOn '/') = key := List.intercalate_splitOn '/'
  rw [encodedKey] at hnil
  rcases hsplit : key.splitOn '/' with _ | ⟨s, _ | ⟨u, l⟩⟩
  · exact List.splitOn_ne_nil _ _ hsplit
  · rw [hsplit] at hnil hjoin
    have hs : uriEncode (decodeOrRaw K s) true = [] := by simpa [join] using hnil
    have hempty := decodeOrRaw_eq_nil (uriEncode_injective (hs.trans (show [] = uriEncode [] true from rfl)))
    rw [hempty] at hjoin
    exact h hjoin.symm
  · rw [hsplit, List.map_cons, List.map_cons, List.map_cons, List.map_cons,
      join_cons (List.cons_ne_nil _ _)] at hnil
    exact List.cons_ne_nil _ _ (List.append_eq_nil_iff.1 hnil).2

/-- The segments of an object's path. -/
theorem splitOn_objectPath {bucket : Text} (h : '/' ∉ bucket) (key : Text) :
    ('/' :: bucket ++ '/' :: key).splitOn '/' = [] :: bucket :: key.splitOn '/' := by
  have honce : splitOnce '/' (bucket ++ '/' :: key) = some (bucket, key) :=
    splitOnce_eq_some_iff.2 ⟨h, rfl⟩
  rw [List.cons_append, splitOn_slash]
  rcases splitOnce_splitOn (bucket ++ '/' :: key) with ⟨hnone, -⟩ | ⟨s, u, hsome, hsplit⟩
  · rw [honce] at hnone
    cases hnone
  · rw [honce] at hsome
    obtain ⟨rfl, rfl⟩ := Prod.mk.inj (Option.some.inj hsome)
    rw [hsplit]

theorem slash_not_mem_bucket {bucket : Text} (h : validBucketName bucket = true) :
    '/' ∉ bucket := by
  have hnot : '/' ∉ uriEncode bucket true := not_mem_uriEncode (.inl rfl)
  rwa [uriEncode_of_validBucketName h] at hnot

/-- The canonical URI of an object's path. -/
theorem canonicalUri_objectPath {bucket : Text} (hbucket : validBucketName bucket = true)
    (key : Text) :
    canonicalUri K ('/' :: bucket ++ '/' :: key) = '/' :: bucket ++ '/' :: encodedKey K key := by
  have hempty : uriEncode (decodeOrRaw K []) true = [] := by
    rw [decodeOrRaw_nil]
    rfl
  rw [canonicalUri, if_neg (by simp), splitOn_objectPath (slash_not_mem_bucket hbucket),
    List.map_cons, List.map_cons, hempty, decodeOrRaw_plain (plain_of_validBucketName hbucket).1,
    uriEncode_of_validBucketName hbucket, join_cons (List.cons_ne_nil _ _),
    join_cons (map_ne_nil (List.splitOn_ne_nil _ _)), encodedKey, List.map_map]
  rfl

/-- **What the server is sent, it writes in the same way.** -/
theorem canonicalUri_encodedPath (hK : Standard K) {bucket : Text}
    (hbucket : validBucketName bucket = true) (key : Text) :
    canonicalUri K ('/' :: bucket ++ '/' :: encodedKey K key) =
      '/' :: bucket ++ '/' :: encodedKey K key := by
  have hsplit : (encodedKey K key).splitOn '/' =
      ((key.splitOn '/').map (decodeOrRaw K)).map (uriEncode · true) := by
    refine List.splitOn_intercalate '/' (fun t ht ↦ ?_)
      (map_ne_nil (map_ne_nil (List.splitOn_ne_nil _ _)))
    obtain ⟨segment, -, rfl⟩ := List.mem_map.1 ht
    exact not_mem_uriEncode (.inl rfl)
  have hsame : encodedKey K (encodedKey K key) = encodedKey K key := by
    rw [encodedKey, hsplit, List.map_map, List.map_map]
    refine congrArg (join '/') (List.map_congr_left fun t _ ↦ ?_)
    show uriEncode (decodeOrRaw K (uriEncode t true)) true = uriEncode t true
    rw [decodeOrRaw, hK.decode_uriEncode, Option.getD_some]
  rw [canonicalUri_objectPath hbucket, hsame]

/-! ### Parameters -/

/-- **Encoded parameters are read as they were.** -/
theorem queryPairs_encoded (hK : Standard K) {params : List (Text × Text)} (h : params ≠ []) :
    queryPairs K (some (join '&' (params.map fun param ↦ sign (encodePair param)))) = params := by
  have hsplit : queryParts (some (join '&' (params.map fun param ↦ sign (encodePair param)))) =
      params.map fun param ↦ sign (encodePair param) := by
    have hparts : (join '&' (params.map fun param ↦ sign (encodePair param))).splitOn '&' =
        params.map fun param ↦ sign (encodePair param) := by
      refine List.splitOn_intercalate '&' (fun t ht hc ↦ ?_) (map_ne_nil h)
      obtain ⟨param, -, rfl⟩ := List.mem_map.1 ht
      rcases List.mem_append.1 hc with hc | hc
      · exact not_mem_uriEncode (.inr (.inl rfl)) hc
      · rcases List.mem_cons.1 hc with hc | hc
        · exact absurd hc (by decide)
        · exact not_mem_uriEncode (.inr (.inl rfl)) hc
    rw [queryParts, Option.map_some, Option.getD_some, hparts]
    refine List.filter_eq_self.2 fun t ht ↦ ?_
    obtain ⟨param, -, rfl⟩ := List.mem_map.1 ht
    simp [sign]
  rw [queryPairs, hsplit, List.map_map]
  refine (List.map_congr_left fun param _ ↦ ?_).trans (List.map_id params)
  have honce : nameAndValue (sign (encodePair param)) = encodePair param := by
    have hfirst : splitOnce '=' (sign (encodePair param)) = some (encodePair param) :=
      splitOnce_eq_some_iff.2 ⟨not_mem_uriEncode (.inr (.inr (.inl rfl))), rfl⟩
    rw [nameAndValue, hfirst]
    rfl
  show ((K.decode (nameAndValue (sign (encodePair param))).1).getD [],
    (K.decode (nameAndValue (sign (encodePair param))).2).getD []) = param
  rw [honce, encodePair, hK.decode_uriEncode, hK.decode_uriEncode]
  rfl

/-- The order of the parameters: first by their names, then by their values. -/
abbrev pairOrder : Text × Text → Text × Text → Ordering :=
  compareLex (compareOn Prod.fst) (compareOn Prod.snd)

/-- Parameters in the order of their names are signed in this order. -/
theorem joinParams_of_sorted {l l' : List (Text × Text)} (hperm : l'.Perm l)
    (hsorted : l.Pairwise fun p q ↦ compare p.1 q.1 = .lt) :
    joinParams l' = join '&' (l.map sign) := by
  have hswap : ∀ p q : Text × Text, pairLE p q = true → pairLE q p = true → p = q := by
    intro p q hpq hqp
    have heq : pairOrder p q = .eq := Std.OrientedCmp.isLE_antisymm hpq hqp
    obtain ⟨hfst, hsnd⟩ := compareLex_eq_eq.1 heq
    exact Prod.ext (Std.LawfulEqCmp.eq_of_compare hfst) (Std.LawfulEqCmp.eq_of_compare hsnd)
  have htotal : Std.Total fun p q : Text × Text ↦ pairLE p q = true := ⟨fun p q ↦ by
    show (pairOrder p q).isLE = true ∨ (pairOrder q p).isLE = true
    rw [@Std.OrientedCmp.eq_swap _ pairOrder _ q p]
    cases pairOrder p q
    · exact .inl rfl
    · exact .inl rfl
    · exact .inr rfl⟩
  have htrans : IsTrans (Text × Text) fun p q ↦ pairLE p q = true := ⟨fun p q r hpq hqr ↦
    @Std.TransCmp.isLE_trans _ pairOrder _ p q r hpq hqr⟩
  have hlt : ∀ {p q : Text × Text}, compare p.1 q.1 = .lt → pairLE p q = true := fun h ↦ by
    rw [pairLE, h]
    rfl
  have heq : l'.insertionSort (pairLE · ·) = l :=
    List.Perm.eq_of_pairwise (fun p q _ _ ↦ hswap p q) (List.pairwise_insertionSort _ _)
      (hsorted.imp hlt) ((List.perm_insertionSort _ _).trans hperm)
  rw [joinParams, heq]
  rfl

/-- A name is read as it was written last, and every name is written once. -/
theorem lastValues_of_nodup {params : List (Text × Text)} (h : (params.map Prod.fst).Nodup)
    {name value : Text} : (lastValues params)[name]? = some value ↔ (name, value) ∈ params := by
  rw [lastValues_eq_some_iff]
  constructor
  · rintro ⟨before, after, rfl, -⟩
    exact List.mem_append_right _ List.mem_cons_self
  · intro hmem
    obtain ⟨before, after, rfl⟩ := List.append_of_mem hmem
    refine ⟨before, after, rfl, fun param hparam heq ↦ ?_⟩
    rw [List.map_append, List.map_cons, List.nodup_append] at h
    exact (List.nodup_cons.1 h.2.1).1 (List.mem_map.2 ⟨param, hparam, heq⟩)

/-- The signed parameters are those that were signed. -/
theorem signedParams_perm {params : List (Text × Text)} {signature : Text}
    (h : ((params ++ [("X-Amz-Signature".toList, signature)]).map Prod.fst).Nodup) :
    (signedParams (lastValues (params ++ [("X-Amz-Signature".toList, signature)]))).Perm params := by
  have hnames := h
  rw [List.map_append, List.nodup_append] at hnames
  have hne : ∀ param ∈ params, param.1 ≠ "X-Amz-Signature".toList := fun param hparam heq ↦
    hnames.2.2 _ (List.mem_map_of_mem hparam) _ (List.mem_singleton.2 rfl) heq
  have hnodup : (lastValues (params ++ [("X-Amz-Signature".toList, signature)])).toList.Nodup := by
    refine List.Nodup.of_map Prod.fst ?_
    rw [Std.ExtTreeMap.map_fst_toList_eq_keys]
    exact Table.nodup_keys _
  refine (List.perm_ext_iff_of_nodup (hnodup.filter _) (List.Nodup.of_map _ hnames.1)).2 fun param ↦ ?_
  rw [List.mem_filter, Std.ExtTreeMap.mem_toList_iff_getElem?_eq_some,
    lastValues_of_nodup h, decide_eq_true_eq, List.mem_append, List.mem_singleton]
  constructor
  · rintro ⟨hparam | hparam, hother⟩
    · exact hparam
    · exact absurd (Prod.mk.inj hparam).1 hother
  · exact fun hparam ↦ ⟨.inl hparam, hne param hparam⟩

/-! ### The parts of the URL -/

theorem trimStartMatches_of_none {start t : Text} (h : stripStart start t = none) :
    trimStartMatches start t = t := by
  refine Function.iterate_fixed ?_ _
  rw [h]
  rfl

theorem trimStartMatches_append {start t : Text} (hne : start ≠ [])
    (h : stripStart start t = none) : trimStartMatches start (start ++ t) = t := by
  obtain ⟨c, rest, rfl⟩ := List.exists_cons_of_ne_nil hne
  have hstrip : stripStart (c :: rest) (c :: rest ++ t) = some t := by
    rw [stripStart, if_pos (List.isPrefixOf_iff_prefix.2 (List.prefix_append _ _)), List.drop_left]
  rw [trimStartMatches, List.cons_append, List.length_cons, Function.iterate_succ_apply,
    ← List.cons_append, hstrip, Option.getD_some]
  refine Function.iterate_fixed ?_ _
  rw [h]
  rfl

theorem trimEndSlashes_append {t host : Text} (hne : host ≠ []) (hslash : '/' ∉ host) (n : ℕ) :
    trimEndSlashes (t ++ host ++ List.replicate n '/') = t ++ host := by
  have hlast : host.reverse ≠ [] := fun h ↦ hne (List.reverse_eq_nil_iff.1 h)
  obtain ⟨c, rest, hreverse⟩ := List.exists_cons_of_ne_nil hlast
  have hc : c ≠ '/' := fun heq ↦ hslash (List.mem_reverse.1 (by simp [hreverse, heq]))
  rw [trimEndSlashes, List.reverse_append, List.reverse_replicate,
    List.dropWhile_append_of_pos fun d hd ↦ by simpa using List.eq_of_mem_replicate hd,
    List.reverse_append, hreverse, List.cons_append, List.dropWhile_cons_of_neg (by simpa using hc),
    ← List.cons_append, ← hreverse, ← List.reverse_append, List.reverse_reverse]

/-- No scheme is in front of a host. -/
theorem Endpoint.stripStart_host (endpoint : Endpoint) (name : Text) (hname : '/' ∉ name)
    (hcolon : name.getLast? = some ':') : stripStart (name ++ "//".toList)
      (endpoint.host ++ List.replicate endpoint.slashes '/') = none := by
  rw [stripStart]
  refine if_neg fun hstart ↦ ?_
  obtain ⟨rest, hrest⟩ := List.isPrefixOf_iff_prefix.1 hstart
  cases hslashes : endpoint.slashes with
  | zero =>
    rw [hslashes, List.replicate_zero, List.append_nil] at hrest
    exact endpoint.slash_not_mem (by simp [← hrest])
  | succ n =>
    rw [hslashes, List.replicate_succ, List.append_assoc] at hrest
    have hsame := (append_cons_inj hname endpoint.slash_not_mem
      (show name ++ '/' :: ('/' :: rest) = endpoint.host ++ '/' :: List.replicate n '/' from hrest)).1
    exact endpoint.host_port (hsame ▸ hcolon)

/-- The host that is signed. -/
theorem Endpoint.trim_url (endpoint : Endpoint) :
    trimEndSlashes (trimStartMatches "https://".toList
      (trimStartMatches "http://".toList endpoint.url)) = endpoint.host := by
  have htrim : trimEndSlashes (endpoint.host ++ List.replicate endpoint.slashes '/') =
      endpoint.host :=
    trimEndSlashes_append (t := []) endpoint.host_ne_nil endpoint.slash_not_mem _
  have hhttp : stripStart "http://".toList (endpoint.host ++ List.replicate endpoint.slashes '/') =
      none := endpoint.stripStart_host "http:".toList (by decide) (by decide)
  have hhttps : stripStart "https://".toList
      (endpoint.host ++ List.replicate endpoint.slashes '/') = none :=
    endpoint.stripStart_host "https:".toList (by decide) (by decide)
  rw [url, scheme, List.append_assoc]
  cases endpoint.secure with
  | true =>
    have hother : stripStart "http://".toList ("https://".toList ++
        (endpoint.host ++ List.replicate endpoint.slashes '/')) = none := rfl
    rw [if_pos rfl, trimStartMatches_of_none hother, trimStartMatches_append (by decide) hhttps, htrim]
  | false =>
    rw [if_neg (by decide), trimStartMatches_append (by decide) hhttp,
      trimStartMatches_of_none hhttps, htrim]

/-- **The parts of a URL** under a base. -/
theorem Endpoint.splitUrl_append (endpoint : Endpoint) {path query : Text}
    (hpath : '?' ∉ path) :
    splitUrl (endpoint.scheme ++ endpoint.host ++ '/' :: path ++ '?' :: query) =
      some (endpoint.host, '/' :: path, some query) := by
  have hfind : (findText "://".toList
      (endpoint.scheme ++ (endpoint.host ++ '/' :: (path ++ '?' :: query)))).map Prod.snd =
        some (endpoint.host ++ '/' :: (path ++ '?' :: query)) := by
    rw [scheme]
    cases endpoint.secure <;> rfl
  have hnot : ∀ c ∈ endpoint.host, (c ≠ '/' : Bool) = true := fun c hc ↦
    decide_eq_true fun heq ↦ endpoint.slash_not_mem (heq ▸ hc)
  have honce : splitOnce '?' ('/' :: (path ++ '?' :: query)) = some ('/' :: path, query) :=
    splitOnce_eq_some_iff.2 ⟨by simpa using hpath, rfl⟩
  obtain ⟨found, hfound, hrest⟩ := Option.map_eq_some_iff.1 hfind
  rw [List.append_assoc, List.append_assoc, List.cons_append, splitUrl, hfound, Option.map_some, hrest,
    List.takeWhile_append_of_pos hnot, List.dropWhile_append_of_pos hnot,
    List.takeWhile_cons_of_neg (by simp), List.dropWhile_cons_of_neg (by simp), List.append_nil]
  show some (endpoint.host, match splitOnce '?' ('/' :: (path ++ '?' :: query)) with
    | some (path, query) => (path, some query)
    | none => ('/' :: (path ++ '?' :: query), none)) = _
  rw [honce]

/-! ### The URL of an object -/

variable {endpoint : Endpoint} {config : PresignedUrlConfig} {bucket key method : Text}
  {expires : ℤ} {signed date now : Time} {req : HttpRequest}

theorem presignParams_eq (credential amzDate expires : Text) :
    presignParams credential amzDate expires =
      [("X-Amz-Algorithm".toList, "AWS4-HMAC-SHA256".toList),
        ("X-Amz-Credential".toList, credential), ("X-Amz-Date".toList, amzDate),
        ("X-Amz-Expires".toList, expires), ("X-Amz-SignedHeaders".toList, "host".toList)] := by
  have hsorted : List.Pairwise (fun l r : Text ↦ (compare l r).isLE = true)
      ["X-Amz-Algorithm".toList, "X-Amz-Credential".toList, "X-Amz-Date".toList,
        "X-Amz-Expires".toList, "X-Amz-SignedHeaders".toList] := by decide
  exact List.Pairwise.insertionSort_eq (List.Pairwise.of_map Prod.fst (fun _ _ h ↦ h) hsorted)

/-- The path that is sent. -/
def sentPath (K : Crates) (bucket key : Text) : Text := '/' :: bucket ++ '/' :: encodedKey K key

/-- The parameters of a presigned URL that are signed. -/
def sentParams (K : Crates) (config : PresignedUrlConfig) (expires : ℤ) (signed : Time) :
    List (Text × Text) :=
  presignParams (config.accessKey ++ '/' :: credentialScope (K.formatDay signed))
    (K.formatDate signed) (toString expires).toList

/-- The signature of a presigned URL. -/
def sentSignature (K : Crates) (endpoint : Endpoint) (config : PresignedUrlConfig)
    (bucket key method : Text) (expires : ℤ) (signed : Time) : Text :=
  expectedSignature K config.secretKey (K.formatDate signed) (credentialScope (K.formatDay signed))
    (join '\n' [method, sentPath K bucket key,
      join '&' ((sentParams K config expires signed).map fun param ↦ sign (encodePair param)),
      "host:".toList ++ endpoint.host, [], "host".toList, "UNSIGNED-PAYLOAD".toList])
    (K.formatDay signed) "us-east-1".toList "s3".toList

/-- The names of the parameters are written as they are. -/
theorem sign_encodePair : ∀ param ∈ sentParams K config expires signed,
    param.1 ++ '=' :: uriEncode param.2 true = sign (encodePair param) := by
  intro param hparam
  have hname : ∀ name ∈ ["X-Amz-Algorithm".toList, "X-Amz-Credential".toList, "X-Amz-Date".toList,
      "X-Amz-Expires".toList, "X-Amz-SignedHeaders".toList], uriEncode name true = name := by decide
  rw [sentParams, presignParams_eq] at hparam
  have hmem := List.mem_map_of_mem (f := Prod.fst) hparam
  rw [sign, encodePair, hname param.1 hmem]

theorem sentParams_ne_nil : sentParams K config expires signed ≠ [] := by
  rw [sentParams, presignParams_eq]
  exact List.cons_ne_nil _ _

/-- The signature is written as it is. -/
theorem sign_signature (hK : Standard K) : sign (encodePair ("X-Amz-Signature".toList,
    sentSignature K endpoint config bucket key method expires signed)) =
      "X-Amz-Signature=".toList ++
        sentSignature K endpoint config bucket key method expires signed := by
  have hsignature := uriEncode_of_unreserved
    (t := sentSignature K endpoint config bucket key method expires signed)
    fun c hc ↦ isUnreserved_of_isAlphanum (hK.hmacSha256Hex _ _ c hc)
  rw [sign, encodePair, hsignature]
  rfl

/-- What a presigned URL consists of. -/
theorem generateUrl_eq (hK : Standard K) (hbucket : validBucketName bucket = true) :
    generateUrl K bucket key method expires endpoint.url config signed =
      endpoint.scheme ++ endpoint.host ++ '/' :: (bucket ++ '/' :: encodedKey K key) ++ '?' ::
        join '&' ((sentParams K config expires signed ++ [("X-Amz-Signature".toList,
          sentSignature K endpoint config bucket key method expires signed)]).map
            fun param ↦ sign (encodePair param)) := by
  have hquery : join '&' ((presignParams (config.accessKey ++ '/' ::
      credentialScope (K.formatDay signed)) (K.formatDate signed) (toString expires).toList).map
        fun param ↦ param.1 ++ '=' :: uriEncode param.2 true) =
      join '&' ((sentParams K config expires signed).map fun param ↦ sign (encodePair param)) :=
    congrArg (join '&') (List.map_congr_left sign_encodePair)
  have hbase : trimEndSlashes endpoint.url = endpoint.scheme ++ endpoint.host :=
    trimEndSlashes_append endpoint.host_ne_nil endpoint.slash_not_mem _
  obtain ⟨c, rest, hcons⟩ := List.exists_cons_of_ne_nil (plain_of_validBucketName hbucket).2.2
  have hc : c ≠ '/' := fun heq ↦ slash_not_mem_bucket hbucket (by simp [hcons, heq])
  have hdrop : (sentPath K bucket key).dropWhile (· = '/') = bucket ++ '/' :: encodedKey K key := by
    rw [sentPath, List.cons_append, List.dropWhile_cons_of_pos (by simp), hcons, List.cons_append,
      List.dropWhile_cons_of_neg (by simpa using hc)]
  have huri : canonicalUri K ('/' :: bucket ++ '/' :: key) = sentPath K bucket key :=
    canonicalUri_objectPath hbucket key
  rw [List.map_append, List.map_singleton, join_concat (map_ne_nil sentParams_ne_nil),
    sign_signature hK]
  simp only [generateUrl, hquery, huri, endpoint.trim_url, hbase, hdrop]
  simp only [List.append_assoc, List.cons_append]
  rfl

/-! ### What the server reads -/

/-- **An expiry is read as it was written.** -/
theorem parseI64_toString {n : ℕ} (h : n < 2 ^ 63) :
    parseI64 (toString (n : ℤ)).toList = some (n : ℤ) := by
  have hdigits : (toString (n : ℤ)).toList = Nat.toDigits 10 n := toList_toString n
  have hall := all_isDigit_toDigits n
  have hvalue := foldl_toDigits n
  have hempty : (Nat.toDigits 10 n).isEmpty = false := by
    rw [Bool.eq_false_iff]
    exact fun h ↦ toDigits_ne_nil n (List.isEmpty_iff.1 h)
  have hrange : (decide (-2 ^ 63 ≤ (n : ℤ)) && decide ((n : ℤ) < 2 ^ 63)) = true := by
    rw [Bool.and_eq_true, decide_eq_true_eq, decide_eq_true_eq]
    omega
  have hsign : ∀ c rest, c.isDigit = false → Nat.toDigits 10 n ≠ c :: rest := by
    intro c rest hc heq
    rw [heq, List.all_cons, hc] at hall
    exact absurd hall (by simp)
  rw [hdigits, parseI64]
  · show Option.filter _ (if ((Nat.toDigits 10 n).isEmpty || !(Nat.toDigits 10 n).all Char.isDigit) = true
      then none else _) = _
    rw [hall, hempty, hvalue]
    exact Option.filter_some_pos hrange
  · exact fun rest ↦ hsign '+' rest (by decide)
  · exact fun rest ↦ hsign '-' rest (by decide)

/-- The credential of a scope. -/
theorem parseCredentialScope_eq {accessKey day : Text} (haccess : accessKey ≠ [] ∧ '/' ∉ accessKey)
    (hday : day ≠ [] ∧ '/' ∉ day) : parseCredentialScope (accessKey ++ '/' :: credentialScope day) =
      some ⟨accessKey, day, "us-east-1".toList, "s3".toList, "aws4_request".toList⟩ := by
  have hsplit : (accessKey ++ '/' :: credentialScope day).splitOn '/' =
      [accessKey, day, "us-east-1".toList, "s3".toList, "aws4_request".toList] := by
    rw [credentialScope, ← join_cons (List.cons_ne_nil _ _)]
    refine List.splitOn_intercalate '/' (fun t ht ↦ ?_) (List.cons_ne_nil _ _)
    simp only [List.mem_cons, List.not_mem_nil, or_false] at ht
    rcases ht with rfl | rfl | rfl | rfl | rfl
    · exact haccess.2
    · exact hday.2
    · decide
    · decide
    · decide
  have hempty : ∀ t : Text, t ≠ [] → t.isEmpty = false := fun t h ↦ by
    rw [Bool.eq_false_iff]
    exact fun hnil ↦ h (List.isEmpty_iff.1 hnil)
  rw [parseCredentialScope, hsplit]
  simp only [List.any_cons, List.any_nil, hempty _ haccess.1, hempty _ hday.1, Bool.false_or]
  rfl

/-- The parameters of the request that carries a presigned URL. -/
structure Reads (params : Table Text Text) (signedPairs : List (Text × Text)) (signature : Text) :
    Prop where
  signed : ∀ param ∈ signedPairs, params[param.1]? = some param.2
  signature : params["X-Amz-Signature".toList]? = some signature
  names : ∀ param ∈ params.toList, param.1 ∈ signedPairs.map Prod.fst ++ ["X-Amz-Signature".toList]
  canonical : joinParams ((signedParams params).map encodePair) =
    join '&' (signedPairs.map fun param ↦ sign (encodePair param))

/-- The names of the parameters are in their order, and none of them is the signature. -/
theorem sentNames (K : Crates) (config : PresignedUrlConfig) (expires : ℤ) (signed : Time) :
    (sentParams K config expires signed).map Prod.fst = ["X-Amz-Algorithm".toList,
      "X-Amz-Credential".toList, "X-Amz-Date".toList, "X-Amz-Expires".toList,
      "X-Amz-SignedHeaders".toList] := by
  rw [sentParams, presignParams_eq]
  rfl

theorem reads_sent (hK : Standard K) (signature : Text) :
    Reads (parseQueryParams K (some (join '&' ((sentParams K config expires signed ++
        [("X-Amz-Signature".toList, signature)]).map fun param ↦ sign (encodePair param)))))
      (sentParams K config expires signed) signature := by
  have hnames := sentNames K config expires signed
  have hnodup : ((sentParams K config expires signed ++
      [("X-Amz-Signature".toList, signature)]).map Prod.fst).Nodup := by
    rw [List.map_append, hnames]
    show List.Nodup ["X-Amz-Algorithm".toList, "X-Amz-Credential".toList, "X-Amz-Date".toList,
      "X-Amz-Expires".toList, "X-Amz-SignedHeaders".toList, "X-Amz-Signature".toList]
    decide
  have hsorted : ((sentParams K config expires signed).map encodePair).Pairwise
      fun p q ↦ compare p.1 q.1 = .lt := by
    refine List.Pairwise.of_map Prod.fst (S := fun p q : Text ↦ compare p q = .lt) (fun _ _ h ↦ h) ?_
    have hencoded : (((sentParams K config expires signed).map encodePair).map Prod.fst) =
        ((sentParams K config expires signed).map Prod.fst).map (uriEncode · true) := by
      rw [List.map_map, List.map_map]
      rfl
    rw [hencoded, hnames]
    decide
  rw [parseQueryParams, queryPairs_encoded hK (List.append_ne_nil_of_right_ne_nil _
    (List.cons_ne_nil _ _))]
  refine ⟨fun param hparam ↦ ?_, ?_, fun param hparam ↦ ?_, ?_⟩
  · exact (lastValues_of_nodup hnodup).2 (List.mem_append_left _ hparam)
  · exact (lastValues_of_nodup hnodup).2 (List.mem_append_right _ (List.mem_singleton.2 rfl))
  · have hmem := (lastValues_of_nodup hnodup).1
      (Std.ExtTreeMap.mem_toList_iff_getElem?_eq_some.1 hparam)
    have hname := List.mem_map_of_mem (f := Prod.fst) hmem
    rwa [List.map_append] at hname
  · rw [joinParams_of_sorted ((signedParams_perm hnodup).map encodePair) hsorted, List.map_map]
    rfl

/-! ### The round trip -/

/-- What the request that carries a presigned URL consists of. -/
structure Sent (K : Crates) (req : HttpRequest) (endpoint : Endpoint) (config : PresignedUrlConfig)
    (bucket key method : Text) (expires : ℤ) (signed : Time) : Prop where
  verb : req.method = method
  path : req.path = sentPath K bucket key
  host : req.host = some endpoint.host
  headerHost : (headerMap req)["host".toList]? = some endpoint.host
  headers : ∀ name ∈ (headerMap req).keys, "x-amz-".toList.isPrefixOf name = false
  params : Reads (parseQueryParams K req.query) (sentParams K config expires signed)
    (sentSignature K endpoint config bucket key method expires signed)

theorem question_not_mem_path (hbucket : validBucketName bucket = true) (key : Text) :
    '?' ∉ bucket ++ '/' :: encodedKey K key := by
  intro hmem
  rcases List.mem_append.1 hmem with hmem | hmem
  · rw [← uriEncode_of_validBucketName hbucket] at hmem
    exact question_not_mem_uriEncode hmem
  · rcases List.mem_cons.1 hmem with hmem | hmem
    · exact absurd hmem (by decide)
    · exact question_not_mem_encodedKey key hmem

theorem sent_of_carries (hK : Standard K) (hbucket : validBucketName bucket = true)
    (h : Carries req method (generateUrl K bucket key method expires endpoint.url config signed)) :
    Sent K req endpoint config bucket key method expires signed := by
  have hpath : '?' ∉ bucket ++ '/' :: encodedKey K key := question_not_mem_path hbucket key
  have htarget := h.target
  rw [generateUrl_eq hK hbucket, endpoint.splitUrl_append hpath] at htarget
  obtain ⟨host, hhost, hparts⟩ := Option.map_eq_some_iff.1 htarget.symm
  obtain ⟨rfl, hrest⟩ := Prod.mk.inj hparts
  obtain ⟨hreqpath, hquery⟩ := Prod.mk.inj hrest
  refine ⟨h.method, hreqpath, hhost, h.host.trans hhost, h.headers, ?_⟩
  rw [hquery]
  exact reads_sent hK _

theorem trimmed_of_plain {t : Text} (h : Plain t) : Trimmed t := by
  constructor
  · cases hhead : t.head? with
    | none => rfl
    | some c => simp [h c (List.mem_of_mem_head? hhead)]
  · cases hlast : t.getLast? with
    | none => rfl
    | some c => simp [h c (List.mem_of_getLast? hlast)]

/-- What is checked of a presigned URL. -/
theorem validateComponents_eq_ok {url : PresignedUrl} {path accessKey secretKey signedHeaders : Text}
    {headers : Table Text Text} {scope : CredentialScope}
    (halgorithm : url.queryParams["X-Amz-Algorithm".toList]? = some "AWS4-HMAC-SHA256".toList)
    (hexpires : 1 ≤ url.expiresIn ∧ url.expiresIn ≤ 604800)
    (hstarted : url.date ≤ now + minutes 15)
    (hvalid : now ≤ url.date + seconds url.expiresIn.toNat)
    (hscope : parseCredentialScope url.credential = some scope)
    (haccess : scope.accessKey = accessKey) (hday : scope.date = K.formatDay url.date)
    (hservice : scope.service = "s3".toList) (hterminator : scope.terminator = "aws4_request".toList)
    (hsigned : url.queryParams["X-Amz-SignedHeaders".toList]? = some signedHeaders)
    (hnames : validSignedHeaderNames K (signedHeaders.splitOn ';') = true)
    (hhost : (signedHeaders.splitOn ';').contains "host".toList = true)
    (hheaders : (headers.keys.any fun name ↦ "x-amz-".toList.isPrefixOf name &&
      !(signedHeaders.splitOn ';').contains name) = false)
    (hconflict : (url.queryParams.toList.find? fun param ↦
      (signedHeaders.splitOn ';').contains (toLower param.1) &&
        headers[toLower param.1]?.any (· ≠ param.2)) = none)
    (hpresent : ((signedHeaders.splitOn ';').find? fun name ↦ headers[name]?.isNone) = none)
    (hsignature : url.signature = expectedSignature K secretKey (K.formatDate url.date) scope.text
      (presignedCanonicalRequest K method path url.queryParams headers (signedHeaders.splitOn ';'))
      scope.date scope.region scope.service) :
    url.validateComponents K method path headers accessKey secretKey now = .ok () := by
  have hlow : ¬ (decide (url.expiresIn < 1) || decide (604800 < url.expiresIn)) = true := by
    rw [Bool.or_eq_true, decide_eq_true_eq, decide_eq_true_eq]
    omega
  have hscoped : ¬ (decide (scope.date ≠ K.formatDay url.date) ||
      decide (scope.service ≠ "s3".toList) ||
        decide (scope.terminator ≠ "aws4_request".toList)) = true := by
    rw [hday, hservice, hterminator]
    simp
  unfold PresignedUrl.validateComponents
  rw [if_neg (not_not.2 halgorithm), if_neg hlow, if_neg (not_lt.2 hstarted),
    if_neg (not_lt.2 hvalid), hscope]
  dsimp only
  rw [if_neg (not_not.2 haccess), if_neg hscoped, hsigned]
  dsimp only
  rw [hnames, hhost, hheaders, if_neg (by decide), hconflict, hpresent]
  exact if_neg (not_not.2 hsignature)

/-- The values of the signed parameters. -/
theorem Sent.values (h : Sent K req endpoint config bucket key method expires signed) :
    (parseQueryParams K req.query)["X-Amz-Algorithm".toList]? = some "AWS4-HMAC-SHA256".toList ∧
    (parseQueryParams K req.query)["X-Amz-Credential".toList]? =
      some (config.accessKey ++ '/' :: credentialScope (K.formatDay signed)) ∧
    (parseQueryParams K req.query)["X-Amz-Date".toList]? = some (K.formatDate signed) ∧
    (parseQueryParams K req.query)["X-Amz-Expires".toList]? = some (toString expires).toList ∧
    (parseQueryParams K req.query)["X-Amz-SignedHeaders".toList]? = some "host".toList := by
  have hread := h.params.signed
  rw [sentParams, presignParams_eq] at hread
  simpa only [List.mem_cons, List.not_mem_nil, or_false, forall_eq_or_imp, forall_eq] using hread

/-- What `from_query_params` reads of a presigned URL. -/
theorem fromQueryParams_of_sent (hdated : Dated K signed date) {n : ℕ} (hn : n < 2 ^ 63)
    (h : Sent K req endpoint config bucket key method n signed) :
    PresignedUrl.fromQueryParams K (parseQueryParams K req.query) =
      .ok ⟨date, n, sentSignature K endpoint config bucket key method n signed,
        config.accessKey ++ '/' :: credentialScope (K.formatDay signed),
        parseQueryParams K req.query⟩ := by
  obtain ⟨-, hcredential, hdate, hexpiry, -⟩ := h.values
  have hexact : exactDate K (K.formatDate signed) = some date :=
    exactDate_eq_some_iff.2 ⟨hdated.parse, hdated.format⟩
  rw [PresignedUrl.fromQueryParams, h.params.signature, hexpiry, hdate, hcredential]
  simp only [Option.some_or, Option.bind_some, parseI64_toString hn, hexact]

/-- **An expiry of more than a week is never accepted.** -/
theorem not_accepted_of_sent (hdated : Dated K signed date) {n : ℕ} (hn : n < 2 ^ 63)
    (hlong : 604800 < n) (h : Sent K req endpoint config bucket key method n signed) :
    ¬ Accepted K config req now := by
  rintro ⟨url, hurl, hvalid⟩
  rw [fromQueryParams_of_sent hdated hn h] at hurl
  obtain rfl := Except.ok.inj hurl
  have hrange : (decide ((n : ℤ) < 1) || decide (604800 < (n : ℤ))) = true := by
    rw [Bool.or_eq_true, decide_eq_true_eq, decide_eq_true_eq]
    omega
  unfold PresignedUrl.validateComponents at hvalid
  rw [if_neg (not_not.2 h.values.1), if_pos hrange] at hvalid
  cases hvalid

/-- **The signature is accepted** until it expires. -/
theorem accepted_of_sent (hK : Standard K) (hdated : Dated K signed date)
    (hbucket : validBucketName bucket = true) (hexpires : 1 ≤ expires ∧ expires ≤ 604800)
    (haccess : config.accessKey ≠ [] ∧ '/' ∉ config.accessKey)
    (hnow : date ≤ now ∧ now ≤ date + seconds expires.toNat)
    (h : Sent K req endpoint config bucket key method expires signed) :
    Accepted K config req now := by
  obtain ⟨n, rfl⟩ := Int.eq_ofNat_of_zero_le (by omega : 0 ≤ expires)
  obtain ⟨halgorithm, -, -, -, hsigned⟩ := h.values
  refine ⟨⟨date, n, sentSignature K endpoint config bucket key method n signed,
    config.accessKey ++ '/' :: credentialScope (K.formatDay signed), parseQueryParams K req.query⟩,
    ?_, ?_⟩
  · exact fromQueryParams_of_sent hdated (by omega) h
  · have hday := hK.formatDay signed
    have hscope : parseCredentialScope (config.accessKey ++ '/' :: credentialScope (K.formatDay signed)) =
        some ⟨config.accessKey, K.formatDay signed, "us-east-1".toList, "s3".toList,
          "aws4_request".toList⟩ := parseCredentialScope_eq haccess hday
    have hnames : validSignedHeaderNames K ("host".toList.splitOn ';') = true := by
      rw [show "host".toList.splitOn ';' = ["host".toList] from by decide, validSignedHeaderNames]
      simp only [List.all_cons, List.all_nil, hK.isHeaderName_host]
      decide
    have hservice : ((headerMap req).keys.any fun name ↦ "x-amz-".toList.isPrefixOf name &&
        !("host".toList.splitOn ';').contains name) = false := by
      refine List.any_eq_false.2 fun name hname ↦ ?_
      rw [h.headers name hname]
      simp
    have hconflict : (parseQueryParams K req.query).toList.find? (fun param ↦
        ("host".toList.splitOn ';').contains (toLower param.1) &&
          (headerMap req)[toLower param.1]?.any (· ≠ param.2)) = none := by
      refine List.find?_eq_none.2 fun param hparam ↦ ?_
      have hname := h.params.names param hparam
      rw [sentNames] at hname
      have hlower : ∀ name ∈ ["X-Amz-Algorithm".toList, "X-Amz-Credential".toList,
          "X-Amz-Date".toList, "X-Amz-Expires".toList, "X-Amz-SignedHeaders".toList,
          "X-Amz-Signature".toList], ("host".toList.splitOn ';').contains (toLower name) = false := by
        decide
      rw [hlower param.1 hname]
      simp
    have hpresent : ("host".toList.splitOn ';').find? (fun name ↦ (headerMap req)[name]?.isNone) =
        none := by
      rw [show "host".toList.splitOn ';' = ["host".toList] from by decide, List.find?_cons,
        h.headerHost]
      rfl
    have hcanonical : presignedCanonicalRequest K req.method req.path (parseQueryParams K req.query)
        (headerMap req) ("host".toList.splitOn ';') = join '\n' [method, sentPath K bucket key,
          join '&' ((sentParams K config n signed).map fun param ↦ sign (encodePair param)),
          "host:".toList ++ endpoint.host, [], "host".toList, "UNSIGNED-PAYLOAD".toList] := by
      have hhost : normalizeHeaderValue endpoint.host = endpoint.host := by
        rw [normalizeHeaderValue_eq (trimmed_of_plain endpoint.host_plain),
          squeeze_eq_self endpoint.host_plain]
      rw [presignedCanonicalRequest, h.verb, h.path, sentPath, canonicalUri_encodedPath hK hbucket,
        h.params.canonical, show "host".toList.splitOn ';' = ["host".toList] from by decide,
        List.map_singleton, h.headerHost, Option.getD_some, hhost]
      rfl
    refine validateComponents_eq_ok halgorithm hexpires (hnow.1.trans (Nat.le_add_right _ _)) hnow.2
      hscope rfl hdated.day.symm rfl rfl hsigned hnames (by decide) hservice hconflict hpresent ?_
    rw [hcanonical, hdated.format]
    rfl

/-- **An accepted URL is routed to its bucket**, and to the key as the generator read it. -/
theorem route_of_sent (hK : Standard K) (hbucket : validBucketName bucket = true) (hkey : key ≠ [])
    (hhost : bucketFromHost endpoint.host = none)
    (h : Sent K req endpoint config bucket key method expires signed) :
    route K req =
      ((objectHandler method bucket (decodedKey K key)).map RouteMatch.handler).getD .notFound := by
  have honce : splitOnce '/' (bucket ++ '/' :: encodedKey K key) = some (bucket, encodedKey K key) :=
    splitOnce_eq_some_iff.2 ⟨slash_not_mem_bucket hbucket, rfl⟩
  have haddressed : addressed req.path req.host = some (bucket, some (encodedKey K key)) := by
    rw [h.path, h.host, addressed, Option.bind_some, hhost]
    show (if (bucket ++ '/' :: encodedKey K key).isEmpty = true then none
      else match splitOnce '/' (bucket ++ '/' :: encodedKey K key) with
        | some (bucket, key) =>
          if bucket.isEmpty = true then none
          else some (bucket, if key.isEmpty = true then none else some key)
        | none => some (bucket ++ '/' :: encodedKey K key, none)) = _
    rw [honce, if_neg (by simp)]
    simp only [List.isEmpty_iff, (plain_of_validBucketName hbucket).2.2, encodedKey_ne_nil hkey,
      if_false]
  rw [route, routeFromParts, haddressed]
  exact h.verb ▸ objectRoute_eq_objectHandler (decode_encodedKey hK key)

/-- An escape in a key is taken for one of the path. -/
example : decodedKey quietDay "a%20b".toList = "a b".toList := by decide

/-- **The round trip of a presigned URL**: it is accepted until it expires, and it leads to the
bucket and to the key that it was presigned for. -/
theorem presigned_url_round_trip (hK : Standard K) (hdated : Dated K signed date)
    (hbucket : validBucketName bucket = true) (hkey : key ≠ []) (hplain : decodedKey K key = key)
    (hexpires : 1 ≤ expires ∧ expires ≤ 604800)
    (haccess : config.accessKey ≠ [] ∧ '/' ∉ config.accessKey)
    (hhost : bucketFromHost endpoint.host = none)
    (hnow : date ≤ now ∧ now ≤ date + seconds expires.toNat) {handler : Route}
    (hmethod : objectHandler method bucket key = some handler)
    (hreq : Carries req method
      (generateUrl K bucket key method expires endpoint.url config signed)) :
    Accepted K config req now ∧ route K req = .handler handler := by
  have hsent := sent_of_carries hK hbucket hreq
  refine ⟨accepted_of_sent hK hdated hbucket hexpires haccess hnow hsent, ?_⟩
  rw [route_of_sent hK hbucket hkey hhost hsent, hplain, hmethod]
  rfl

/-! ### A download -/

/-- The request that a client sends for a presigned URL. -/
def requestOf (K : Crates) (endpoint : Endpoint) (config : PresignedUrlConfig) (bucket key : Text)
    (expires : ℤ) (signed : Time) : HttpRequest where
  method := "GET".toList
  path := sentPath K bucket key
  query := some (join '&' ((sentParams K config expires signed ++ [("X-Amz-Signature".toList,
    sentSignature K endpoint config bucket key "GET".toList expires signed)]).map
      fun param ↦ sign (encodePair param)))
  headers := [("host".toList, some endpoint.host)]
  method_token := plain_get
  headers_names h hh := by
    rw [List.mem_singleton.1 hh]
    show toLower "host".toList = "host".toList ∧
      ("host".toList.all fun c ↦ c.toNat < 128) = true
    decide
  headers_values name value h := by
    obtain ⟨-, hvalue⟩ := Prod.mk.inj (List.mem_singleton.1 h)
    obtain rfl := Option.some.inj hvalue
    refine ⟨fun hc ↦ ?_, trimmed_of_plain endpoint.host_plain⟩
    exact absurd (endpoint.host_plain _ hc) (by decide)
  hint_plain := plain_of_no_hint

theorem carries_requestOf (hK : Standard K) (hbucket : validBucketName bucket = true) :
    Carries (requestOf K endpoint config bucket key expires signed) "GET".toList
      (generateUrl K bucket key "GET".toList expires endpoint.url config signed) := by
  have hpath : '?' ∉ bucket ++ '/' :: encodedKey K key := question_not_mem_path hbucket key
  have hhost : (requestOf K endpoint config bucket key expires signed).host =
      some endpoint.host := rfl
  have hheaders : headerMap (requestOf K endpoint config bucket key expires signed) =
      lastValues [("host".toList, endpoint.host)] := by
    rw [headerMap_eq]
    rfl
  refine ⟨rfl, ?_, ?_, fun name hname ↦ ?_⟩
  · rw [generateUrl_eq hK hbucket, endpoint.splitUrl_append hpath, hhost]
    rfl
  · rw [hheaders, hhost, lastValues_getElem?]
    rfl
  · rw [hheaders, Table.mem_keys, lastValues_getElem?] at hname
    obtain ⟨value, hvalue⟩ := Option.isSome_iff_exists.1 hname
    obtain ⟨header, hfind, -⟩ := Option.map_eq_some_iff.1 hvalue
    obtain rfl := List.mem_singleton.1 (List.mem_of_find?_eq_some hfind)
    have hsame := List.find?_some hfind
    rw [decide_eq_true_eq] at hsame
    rw [← hsame]
    show "x-amz-".toList.isPrefixOf "host".toList = false
    decide

/-- The canonical request of a download. -/
def downloadCanonical : Text :=
  texts ["GET\n/bucket/a%20b/100%25.txt\n", "X-Amz-Algorithm=AWS4-HMAC-SHA256",
    "&X-Amz-Credential=AKID%2F20240101", "%2Fus-east-1%2Fs3%2Faws4_request",
    "&X-Amz-Date=20240101T000000Z", "&X-Amz-Expires=60", "&X-Amz-SignedHeaders=host",
    "\nhost:localhost:9000\n", "\nhost", "\nUNSIGNED-PAYLOAD"]

/-- Its SHA-256 hash. -/
def downloadHash : Text :=
  texts ["f3c37e527f0d9258ae81201f59a2f832", "8903729706182f2e8a0d6a7b0114f665"]

/-- The signature. -/
def downloadSignature : Text :=
  texts ["be624f307010146f3f7871c90e819721", "0562d8d5cedb97a7507072f42ee926a2"]

/-- The crates on the day of the download, with its hashes and for all texts. -/
def downloadDay : Crates where
  decode := percentDecode
  decode_plain _ h := percentDecode_plain h
  decode_slash := percentDecode_slash
  decode_eq_nil _ h := percentDecode_eq_nil h
  isHeaderName := uploadDay.isHeaderName
  isHeaderName_token := uploadDay.isHeaderName_token
  parseDate := uploadDay.parseDate
  formatDate := uploadDay.formatDate
  formatDay := uploadDay.formatDay
  sha256Hex data := if data = utf8 downloadCanonical then downloadHash else []
  sha256Hex_plain data := by split <;> decide
  hmacSha256 := uploadDay.hmacSha256
  hmacSha256Hex key data :=
    if (key, data) = (uploadKeys (Fin.last 3), utf8 (texts ["AWS4-HMAC-SHA256\n20240101T000000Z\n",
        "20240101/us-east-1/s3/aws4_request", "\n"] ++ downloadHash)) then downloadSignature
    else []

theorem standard_downloadDay : Standard downloadDay where
  decode_uriEncode := percentDecode_uriEncode
  isHeaderName_host := by decide
  formatDay _ := by
    show "20240101".toList ≠ [] ∧ '/' ∉ "20240101".toList
    decide
  hmacSha256Hex key data c hc := by
    have hhex : ∀ c ∈ downloadSignature, c.isAlphanum = true := by decide
    have hcases : downloadDay.hmacSha256Hex key data = downloadSignature ∨
        downloadDay.hmacSha256Hex key data = [] := by
      rw [downloadDay]
      dsimp only
      split
      · exact .inl rfl
      · exact .inr rfl
    rcases hcases with h | h
    · exact hhex c (h ▸ hc)
    · rw [h] at hc
      exact absurd hc List.not_mem_nil

theorem dated_downloadDay : Dated downloadDay newYear newYear :=
  ⟨by decide, rfl, rfl⟩

/-- A local server. -/
def localEndpoint : Endpoint where
  secure := false
  host := "localhost:9000".toList
  slashes := 1
  host_ne_nil := by decide
  host_plain c hc := by
    revert c
    decide
  slash_not_mem := by decide
  host_port := by decide

/-- The credentials of the download. -/
def downloadConfig : PresignedUrlConfig := ⟨"AKID".toList, "secret".toList⟩

/-- A key with a space and with a sign that begins no escape. -/
theorem download_round_trip :
    let req := requestOf downloadDay localEndpoint downloadConfig "bucket".toList
      "a b/100%.txt".toList 60 newYear
    Accepted downloadDay downloadConfig req newYear ∧
      route downloadDay req = .handler (.objectGet "bucket".toList "a b/100%.txt".toList) := by
  have hplain : decodedKey downloadDay "a b/100%.txt".toList = "a b/100%.txt".toList := by
    have hsplit : "a b/100%.txt".toList.splitOn '/' = ["a b".toList, "100%.txt".toList] := by decide
    have hfirst : decodeOrRaw downloadDay "a b".toList = "a b".toList := decodeOrRaw_plain (by decide)
    have hsecond : decodeOrRaw downloadDay "100%.txt".toList = "100%.txt".toList := by
      have hdecode : percentDecode "100%.txt".toList = some "100%.txt".toList :=
        percentDecode_eq_some_iff.2 (by decide)
      exact congrArg (Option.getD · _) hdecode
    rw [decodedKey, hsplit, List.map_cons, List.map_cons, hfirst, hsecond]
    decide
  exact presigned_url_round_trip standard_downloadDay dated_downloadDay (by decide) (by decide) hplain
    (by decide) (by decide) (by decide) (by decide) rfl
    (carries_requestOf standard_downloadDay (by decide))

/-- **A second more than a week**: the URL is written, and it is never accepted. -/
theorem long_url_never_accepted :
    let req := requestOf downloadDay localEndpoint downloadConfig "bucket".toList
      "notes.txt".toList 604801 newYear
    Carries req "GET".toList (generateUrl downloadDay "bucket".toList "notes.txt".toList "GET".toList
      604801 localEndpoint.url downloadConfig newYear) ∧
    ¬ Accepted downloadDay downloadConfig req newYear := by
  have hcarries := @carries_requestOf downloadDay localEndpoint downloadConfig "bucket".toList
    "notes.txt".toList 604801 newYear standard_downloadDay (by decide)
  refine ⟨hcarries, ?_⟩
  exact not_accepted_of_sent (n := 604801) dated_downloadDay (by decide) (by decide)
    (sent_of_carries standard_downloadDay (by decide) hcarries)

end Sqrzl.Auth
