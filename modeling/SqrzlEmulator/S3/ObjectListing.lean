import SqrzlEmulator.Data.Numerals
import SqrzlEmulator.Data.Unescape
import SqrzlEmulator.S3.UploadListing

/-!
# Listing objects with continuation tokens

`list_objects_v2` of `server/handlers/bucket/get.rs`, over a store that lists as `listObjects` does.
A page that is truncated names a token, which is the marker of the store and its digest, in base64
(`encodeListObjectsV2Token`); the next request comes with the token, which takes precedence over
`start-after`.

**A token is read as the marker it was made from, and nothing else is read as a marker**
(`decodeToken_eq_some_iff`), as long as the marker is not empty: the digest has no NUL, so the last
NUL is the one between the two, wherever the marker has its own.

**Every page that is truncated has a token** (`exists_token_of_isTruncated`), also if it may have no
entries at all, and pages that may have entries show everything after `start-after` once
(`list_objects_v2_continuation`). With `max-keys` zero all pages of a walk are empty
(`flatten_of_zero`).
-/

namespace Sqrzl.S3

open Collapse Paging Percent

/-! ### Tokens -/

/-- The digest of a marker, in hexadecimal digits. -/
def tokenDigest (C : Codec) (marker : Text) : Text :=
  C.hexEncode (C.digest .sha256 (utf8 ("sqrzl-list-v2:".toList ++ marker)))

/-- `encode_list_objects_v2_token` -/
def encodeListObjectsV2Token (C : Codec) (marker : Text) : Text :=
  C.urlSafeEncode (utf8 (marker ++ '\x00' :: tokenDigest C marker))

/-- `str::rsplit_once` -/
def rsplitOnce (c : Char) (t : Text) : Option (Text × Text) :=
  (splitOnce c t.reverse).map fun parts ↦ (parts.2.reverse, parts.1.reverse)

/-- `decode_list_objects_v2_token` -/
def decodeListObjectsV2Token (C : Codec) (token : Text) : Option Text :=
  match (C.urlSafeDecode token).bind fromUtf8 with
  | none => none
  | some decoded =>
    match rsplitOnce '\x00' decoded with
    | none => none
    | some (marker, suppliedDigest) =>
      if marker.isEmpty then none
      else if suppliedDigest = tokenDigest C marker then some marker
      else none

theorem rsplitOnce_eq_some_iff {c : Char} {t a b : Text} :
    rsplitOnce c t = some (a, b) ↔ c ∉ b ∧ t = a ++ c :: b := by
  rw [rsplitOnce, Option.map_eq_some_iff]
  constructor
  · rintro ⟨⟨x, y⟩, hsplit, hparts⟩
    obtain ⟨rfl, rfl⟩ := Prod.mk.inj hparts
    obtain ⟨hnot, heq⟩ := splitOnce_eq_some_iff.1 hsplit
    refine ⟨fun h ↦ hnot (List.mem_reverse.1 h), ?_⟩
    rw [← List.reverse_reverse t, heq]
    simp
  · rintro ⟨hnot, rfl⟩
    refine ⟨(b.reverse, a.reverse), splitOnce_eq_some_iff.2
      ⟨fun h ↦ hnot (List.mem_reverse.1 h), ?_⟩, ?_⟩
    · simp
    · rw [List.reverse_reverse, List.reverse_reverse]

/-- The marker of a token stands before its last NUL. -/
theorem rsplitOnce_token {C : Codec} (marker : Text) :
    rsplitOnce '\x00' (marker ++ '\x00' :: tokenDigest C marker) =
      some (marker, tokenDigest C marker) :=
  rsplitOnce_eq_some_iff.2 ⟨C.nul_notMem_hexEncode _, rfl⟩

/-- **The decoder accepts exactly the tokens of markers that are not empty.** -/
theorem decodeToken_eq_some_iff {C : Codec} {token marker : Text} :
    decodeListObjectsV2Token C token = some marker ↔
      marker ≠ [] ∧ encodeListObjectsV2Token C marker = token := by
  rw [decodeListObjectsV2Token]
  constructor
  · intro h
    split at h
    · cases h
    · next decoded hdecoded =>
      obtain ⟨bytes, hbytes, hutf8⟩ := Option.bind_eq_some_iff.1 hdecoded
      split at h
      · cases h
      · next marker' supplied hparts =>
        split at h
        · cases h
        · next hne =>
          split at h
          · next hdigest =>
            obtain rfl := Option.some.inj h
            refine ⟨fun hnil ↦ hne (List.isEmpty_iff.2 hnil), ?_⟩
            rw [encodeListObjectsV2Token, ← hdigest, ← (rsplitOnce_eq_some_iff.1 hparts).2,
              ← fromUtf8_eq_some_iff.1 hutf8]
            exact (C.urlSafeDecode_eq_some_iff _ _).1 hbytes
          · cases h
  · rintro ⟨hne, rfl⟩
    have hbytes : (C.urlSafeDecode (encodeListObjectsV2Token C marker)).bind fromUtf8 =
        some (marker ++ '\x00' :: tokenDigest C marker) := by
      rw [encodeListObjectsV2Token, C.urlSafeDecode_encode, Option.bind_some]
      exact fromUtf8_eq_some_iff.2 rfl
    rw [hbytes]
    dsimp only
    rw [rsplitOnce_token]
    dsimp only
    rw [if_neg (mt List.isEmpty_iff.1 hne), if_pos rfl]

/-! ### The handler -/

/-- `ListObjectsV2Entry` -/
inductive ListObjectsV2Entry where
  | object (object : Object)
  | commonPrefix (path : Text)

/-- `ListObjectsV2Entry::token` -/
def ListObjectsV2Entry.token : ListObjectsV2Entry → Text
  | object o => o.key
  | commonPrefix path => path

/-- The entry of the store. -/
def ListObjectsV2Entry.entry : ListObjectsV2Entry → DirectoryEntry
  | object o => ⟨o.key, .object⟩
  | commonPrefix path => ⟨path, .commonPrefix⟩

/-- What `list_objects_v2_xml` is given. -/
structure ListObjectsV2Xml where
  entries : List ListObjectsV2Entry
  bucket : Text
  pre : Text
  delimiter : Option Text
  maxKeys : ℕ
  keyCount : ℕ
  isTruncated : Bool
  continuationToken : Option String
  nextContinuationToken : Option Text
  startAfter : Option Text
  encodingType : Option String
  fetchOwner : Bool

/-- `max_keys_or_error` -/
def maxKeysOrError (req : Request) : Except Refusal ℕ :=
  match req.queryParam "max-keys" with
  | none => .ok 1000
  | some raw =>
    match parseU32 raw with
    | some value => .ok (min value 1000)
    | none => .error ⟨400, "InvalidArgument", "max-keys must be a non-negative integer."⟩

/-- The key to start after. -/
def startAfterParam (req : Request) : Option Text :=
  (nonEmptyParam req "start-after").map String.toList

/-- What a store lists: below a prefix, with a delimiter, behind a marker, and at most so many. -/
abbrev ListStore : Type :=
  Option Text → Option Text → Option Text → Option ℕ → Except Error ListObjectsResult

/-- `list_objects_v2` -/
def listObjectsV2 (C : Codec) (store : ListStore) (bucket : Text) (req : Request) :
    Except Refusal ListObjectsV2Xml :=
  let continuationToken := nonEmptyParam req "continuation-token"
  match continuationToken.map fun token ↦ decodeListObjectsV2Token C token.toList with
  | some none =>
    .error ⟨400, "InvalidArgument", "The continuation token provided is incorrect."⟩
  | continuationMarker =>
    match maxKeysOrError req with
    | .error refusal => .error refusal
    | .ok maxKeys =>
      let marker := continuationMarker.join.or (startAfterParam req)
      match store (some (prefixParam req)) (delimiterParam req) marker (some maxKeys) with
      | .ok result =>
        let entries := (result.objects.map ListObjectsV2Entry.object ++
          result.commonPrefixes.map ListObjectsV2Entry.commonPrefix).insertionSort
            fun left right ↦ left.token ≤ right.token
        .ok {
          entries := entries
          bucket := bucket
          pre := prefixParam req
          delimiter := delimiterParam req
          maxKeys := maxKeys
          keyCount := entries.length
          isTruncated := result.isTruncated
          continuationToken := continuationToken
          nextContinuationToken := (if result.isTruncated then result.nextMarker else none).map
            (encodeListObjectsV2Token C)
          startAfter := startAfterParam req
          encodingType := req.queryParam "encoding-type"
          fetchOwner := (req.queryParam "fetch-owner").any fun value ↦
            value.isEmpty || eqIgnoreCase value "true" }
      | .error .bucketNotFound => .error ⟨404, "NoSuchBucket", "Bucket not found"⟩
      | .error error => .error ⟨500, "InternalError", (storageErrorResponse error).message⟩

/-! ### Tokens of a walk -/

variable {C : Codec}

/-- **Two markers have two tokens**, also if there are NULs in them. -/
theorem encodeToken_injective : Function.Injective (encodeListObjectsV2Token C) := by
  intro marker marker' h
  have hbytes := C.urlSafeEncode_injective h
  have htext : some (marker ++ '\x00' :: tokenDigest C marker) =
      some (marker' ++ '\x00' :: tokenDigest C marker') := by
    rw [← fromUtf8_eq_some_iff.2 rfl, ← fromUtf8_eq_some_iff.2 rfl]
    exact congrArg fromUtf8 hbytes
  have hsplit := congrArg (rsplitOnce '\x00') (Option.some.inj htext)
  rw [rsplitOnce_token, rsplitOnce_token] at hsplit
  exact congrArg Prod.fst (Option.some.inj hsplit)

theorem encodeToken_ne_nil (marker : Text) : encodeListObjectsV2Token C marker ≠ [] := by
  intro hnil
  have hbytes := C.length_le_urlSafeEncode (utf8 (marker ++ '\x00' :: tokenDigest C marker))
  have hchars := length_le_utf8 (marker ++ '\x00' :: tokenDigest C marker)
  rw [show C.urlSafeEncode _ = [] from hnil, List.length_nil] at hbytes
  rw [List.length_append, List.length_cons] at hchars
  omega

/-! ### Pages -/

variable {ix : BucketIndex} {metadataExists : Text → Bool}
  {getObjectMetadata : Text → Except Error Object} {bucket : Text} {req : Request}
  {page : ListObjectsV2Xml} {n : ℕ}

/-- **A page that is truncated names a marker**, also if it may have no entries. -/
theorem nextMarker_isSome {pre delimiter marker : Option Text} {maxKeys : Option ℕ}
    {result : ListObjectsResult} (h : listObjects ix metadataExists getObjectMetadata pre delimiter
      marker maxKeys = .ok result) (htruncated : result.isTruncated = true) :
    result.nextMarker.isSome = true := by
  have hmarker : ∀ {α : Type} (entries : List α) (n : ℕ) (path : α → Text), n < entries.length →
      (if n = 0 then entries.head?.map path else (entries.take n).getLast?.map path).isSome =
        true := by
    intro α entries n path hlt
    split
    · cases entries with
      | nil => exact absurd hlt (Nat.not_lt_zero n)
      | cons => rfl
    · next hne =>
      have htake : entries.take n ≠ [] := by
        refine List.ne_nil_of_length_pos ?_
        rw [List.length_take]
        omega
      rw [List.getLast?_eq_some_getLast htake]
      rfl
  unfold listObjects at h
  cases hd : delimiter.filter (!·.isEmpty) with
  | some d =>
    rw [hd] at h
    dsimp only at h
    unfold listObjectsWithDelimiter at h
    obtain ⟨objects, -, hresult⟩ := Prog.ok_of_bind h
    obtain rfl := Except.ok.inj hresult
    dsimp only at htruncated ⊢
    rw [if_pos (of_decide_eq_true htruncated)]
    exact hmarker _ _ _ (of_decide_eq_true htruncated)
  | none =>
    rw [hd] at h
    dsimp only at h
    obtain ⟨objects, -, hresult⟩ := Prog.ok_of_bind h
    obtain rfl := Except.ok.inj hresult
    dsimp only at htruncated ⊢
    rw [if_pos (of_decide_eq_true htruncated)]
    simpa using hmarker _ _ id (of_decide_eq_true htruncated)

/-- A page shows the entries of a chunk. -/
def ShowsObjects (page : ListObjectsV2Xml) (chunk : List DirectoryEntry) : Prop :=
  page.entries.map (·.entry) = chunk

/-- The entries of a kind, from their paths. -/
theorem map_pathsOf (kind : DirectoryEntryKind) (chunk : List DirectoryEntry) :
    (pathsOf kind chunk).map (fun path ↦ ⟨path, kind⟩) = chunk.filter (·.kind = kind) := by
  rw [pathsOf, List.map_map]
  refine (List.map_congr_left fun e he ↦ ?_).trans (List.map_id _)
  obtain rfl := of_decide_eq_true (List.mem_filter.1 he).2
  rfl

/-- **Sorted again, objects and common prefixes are the page of the store.** -/
theorem entries_eq {result : ListObjectsResult} {chunk : List DirectoryEntry}
    (hchunk : chunk.Pairwise fun x y ↦ x.path < y.path) (h : Shows result chunk) :
    ((result.objects.map ListObjectsV2Entry.object ++
      result.commonPrefixes.map ListObjectsV2Entry.commonPrefix).insertionSort
        fun left right ↦ left.token ≤ right.token).map (·.entry) = chunk := by
  have hpath : ∀ entry : ListObjectsV2Entry, entry.entry.path = entry.token := by
    intro entry
    cases entry <;> rfl
  have hobjects : (result.objects.map ListObjectsV2Entry.object).map (·.entry) =
      chunk.filter (·.kind = .object) := by
    rw [← map_pathsOf, ← h.objects, List.map_map, List.map_map]
    rfl
  have hprefixes : (result.commonPrefixes.map ListObjectsV2Entry.commonPrefix).map (·.entry) =
      chunk.filter fun e ↦ !decide (e.kind = .object) := by
    have hkind : ∀ e ∈ chunk, decide (e.kind = .commonPrefix) = !decide (e.kind = .object) := by
      intro e _
      cases e.kind <;> rfl
    rw [← List.filter_congr hkind, ← map_pathsOf, ← h.commonPrefixes, List.map_map]
    rfl
  have hperm : ((result.objects.map ListObjectsV2Entry.object ++
      result.commonPrefixes.map ListObjectsV2Entry.commonPrefix).map (·.entry)).Perm chunk := by
    rw [List.map_append, hobjects, hprefixes]
    exact List.filter_append_perm _ _
  have htotal : Std.Total fun left right : ListObjectsV2Entry ↦ left.token ≤ right.token :=
    ⟨fun left right ↦ le_total left.token right.token⟩
  have htrans : IsTrans ListObjectsV2Entry fun left right ↦ left.token ≤ right.token :=
    ⟨fun _ _ _ ↦ le_trans⟩
  have hsorted := (List.pairwise_insertionSort
    (fun left right : ListObjectsV2Entry ↦ left.token ≤ right.token)
    (result.objects.map ListObjectsV2Entry.object ++
      result.commonPrefixes.map ListObjectsV2Entry.commonPrefix)).map (·.entry)
      (S := fun x y ↦ x.path ≤ y.path) fun left right hle ↦ by rwa [hpath, hpath]
  have hmem := ((List.perm_insertionSort (fun left right : ListObjectsV2Entry ↦
    left.token ≤ right.token) _).map (·.entry)).trans hperm
  have hinj := List.inj_on_of_nodup_map
    (hchunk.map DirectoryEntry.path (S := (· ≠ ·)) fun x y hlt ↦ ne_of_lt hlt)
  refine hmem.eq_of_pairwise (fun x y hx hy hxy hyx ↦ ?_) hsorted (hchunk.imp le_of_lt)
  exact hinj (hmem.mem_iff.1 hx) hy (le_antisymm hxy hyx)

/-- What is answered, made from what the store lists. -/
structure Answers (C : Codec) (result : ListObjectsResult) (page : ListObjectsV2Xml) : Prop where
  entries : page.entries = (result.objects.map ListObjectsV2Entry.object ++
    result.commonPrefixes.map ListObjectsV2Entry.commonPrefix).insertionSort
      fun left right ↦ left.token ≤ right.token
  isTruncated : page.isTruncated = result.isTruncated
  nextContinuationToken : page.nextContinuationToken =
    (if result.isTruncated then result.nextMarker else none).map (encodeListObjectsV2Token C)

theorem answers_of_ok {store : ListStore} (h : listObjectsV2 C store bucket req = .ok page) :
    ∃ maxKeys marker result, maxKeysOrError req = .ok maxKeys ∧
      store (some (prefixParam req)) (delimiterParam req) marker (some maxKeys) = .ok result ∧
      Answers C result page := by
  rw [listObjectsV2] at h
  split at h
  · cases h
  · split at h
    · cases h
    · next maxKeys hmax =>
      dsimp only at h
      split at h
      · next result hresult =>
        obtain rfl := Except.ok.inj h
        exact ⟨maxKeys, _, result, hmax, hresult, rfl, rfl, rfl⟩
      · cases h
      · cases h

/-- **A page that is truncated has a token.** -/
theorem exists_token_of_isTruncated
    (h : listObjectsV2 C (listObjects ix metadataExists getObjectMetadata) bucket req = .ok page)
    (htruncated : page.isTruncated = true) : page.nextContinuationToken.isSome = true := by
  obtain ⟨maxKeys, marker, result, -, hresult, hanswer⟩ := answers_of_ok h
  rw [hanswer.isTruncated] at htruncated
  rw [hanswer.nextContinuationToken, if_pos htruncated, Option.isSome_map]
  exact nextMarker_isSome hresult htruncated

/-- **A page that may have no entries has none.** -/
theorem entries_of_zero
    (h : listObjectsV2 C (listObjects ix metadataExists getObjectMetadata) bucket req = .ok page)
    (hmax : maxKeysOrError req = .ok 0) : page.entries = [] := by
  obtain ⟨maxKeys, marker, result, hmax', hresult, hanswer⟩ := answers_of_ok h
  obtain rfl := Except.ok.inj (hmax'.symm.trans hmax)
  have hempty : result.objects = [] ∧ result.commonPrefixes = [] := by
    unfold listObjects at hresult
    cases hd : (delimiterParam req).filter (!·.isEmpty) with
    | some d =>
      rw [hd] at hresult
      unfold listObjectsWithDelimiter at hresult
      obtain ⟨objects, hread, hresult⟩ := Prog.ok_of_bind hresult
      obtain rfl := Except.ok.inj hresult
      exact ⟨(Except.ok.inj hread).symm, rfl⟩
    | none =>
      rw [hd] at hresult
      obtain ⟨objects, hread, hresult⟩ := Prog.ok_of_bind hresult
      obtain rfl := Except.ok.inj hresult
      exact ⟨(Except.ok.inj hread).symm, rfl⟩
  rw [hanswer.entries, hempty.1, hempty.2]
  rfl

/-! ### The client -/

/-- The request with a token, or without one. -/
def withToken (req : Request) (token : Option Text) : Request :=
  { req with query := req.query.set "continuation-token" (token.map String.ofList) }

/-- The token of the next page. -/
def nextToken (page : ListObjectsV2Xml) : Option (Option Text) :=
  page.nextContinuationToken.map some

/-- The marker that a token stands for, or else the key to start after. -/
def markerOf (C : Codec) (startAfter token : Option Text) : Option Text :=
  (token.bind (decodeListObjectsV2Token C)).or startAfter

/-- Nothing but a token of a marker is sent. -/
def GoodToken (C : Codec) (token : Option Text) : Prop :=
  ∀ t ∈ token, ∃ marker, marker ≠ [] ∧ encodeListObjectsV2Token C marker = t

theorem queryParam_withToken {token : Option Text} {name : String}
    (hname : name ≠ "continuation-token") :
    (withToken req token).queryParam name = req.queryParam name := by
  show (req.query.set "continuation-token" _)[name]? = req.query[name]?
  rw [Table.getElem?_set, if_neg hname]

theorem continuationToken_withToken {token : Option Text} (h : GoodToken C token) :
    nonEmptyParam (withToken req token) "continuation-token" = token.map String.ofList := by
  have hread : (withToken req token).queryParam "continuation-token" =
      token.map String.ofList := by
    show (req.query.set "continuation-token" _)["continuation-token"]? = _
    rw [Table.getElem?_set, if_pos rfl]
  rw [nonEmptyParam, hread]
  cases token with
  | none => rfl
  | some t =>
    obtain ⟨marker, -, rfl⟩ := h t rfl
    have hne : (String.ofList (encodeListObjectsV2Token C marker)).isEmpty = false := by
      rw [Bool.eq_false_iff]
      intro hempty
      have hlist := congrArg String.toList (String.isEmpty_iff.1 hempty)
      rw [String.toList_ofList] at hlist
      exact encodeToken_ne_nil marker hlist
    exact Option.filter_some_pos (by rw [hne]; rfl)

/-- **A page is what comes after its marker in the listing**, cut off after `n` entries. -/
theorem listObjectsV2_eq {token : Option Text} (hix : ix.Consistent)
    (hmeta : ∀ key, ix.objects[key]?.isSome → metadataExists key = true)
    (hget : ∀ key, ix.objects[key]?.isSome → ∃ o, getObjectMetadata key = .ok o ∧ o.key = key)
    (hmax : maxKeysOrError req = .ok n) (hn : 1 ≤ n) (htoken : GoodToken C token) :
    ∃ page, listObjectsV2 C (listObjects ix metadataExists getObjectMetadata) bucket
        (withToken req token) = .ok page ∧
      Paging.IsPage ShowsObjects nextToken (fun e ↦ some (encodeListObjectsV2Token C e.path)) n
        (after (·.path) (markerOf C (startAfterParam req) token)
          (listing ix (some (prefixParam req)) (delimiterParam req))) page := by
  obtain ⟨result, hresult, hpage⟩ := @listObjects_eq _ _ _ (some (prefixParam req))
    (delimiterParam req) (markerOf C (startAfterParam req) token) _ hix hn hmeta hget
  have hmax' : maxKeysOrError (withToken req token) = .ok n := by
    rw [maxKeysOrError, queryParam_withToken (by decide)]
    exact hmax
  have hpre : prefixParam (withToken req token) = prefixParam req := by
    rw [prefixParam, queryParam_withToken (by decide)]
    rfl
  have hdelimiter : delimiterParam (withToken req token) = delimiterParam req := by
    rw [delimiterParam, nonEmptyParam, queryParam_withToken (by decide)]
    rfl
  have hstart : startAfterParam (withToken req token) = startAfterParam req := by
    rw [startAfterParam, nonEmptyParam, queryParam_withToken (by decide)]
    rfl
  have hdecode : (nonEmptyParam (withToken req token) "continuation-token").map
      (fun token ↦ decodeListObjectsV2Token C token.toList) =
        (token.bind (decodeListObjectsV2Token C)).map some := by
    rw [continuationToken_withToken htoken]
    cases token with
    | none => rfl
    | some t =>
      obtain ⟨marker, hmarker⟩ := htoken t rfl
      rw [Option.map_some, Option.map_some, String.toList_ofList, Option.bind_some,
        decodeToken_eq_some_iff.2 hmarker]
      rfl
  have hok : ∃ page, listObjectsV2 C (listObjects ix metadataExists getObjectMetadata) bucket
      (withToken req token) = .ok page ∧ Answers C result page := by
    rw [markerOf] at hresult
    rw [listObjectsV2]
    cases hmarker : token.bind (decodeListObjectsV2Token C) with
    | none =>
      rw [hmarker] at hdecode hresult
      simp only [hdecode, hmax', hpre, hdelimiter, hstart, Option.map_none, Option.join_none, hresult]
      exact ⟨_, rfl, rfl, rfl, rfl⟩
    | some marker =>
      rw [hmarker] at hdecode hresult
      simp only [hdecode, hmax', hpre, hdelimiter, hstart, Option.map_some, Option.join_some,
        hresult]
      exact ⟨_, rfl, rfl, rfl, rfl⟩
  obtain ⟨page, hok, hanswer⟩ := hok
  refine ⟨page, hok, ?_, ?_⟩
  · show page.entries.map (·.entry) = _
    rw [hanswer.entries]
    exact entries_eq ((pairwise_after (pairwise_listing _ _ _)).sublist (List.take_sublist _ _))
      hpage.shows
  · rw [nextToken, hanswer.nextContinuationToken, hpage.isTruncated, hpage.nextMarker]
    split
    · next hmore =>
      rw [if_pos (of_decide_eq_true hmore), if_pos (of_decide_eq_true hmore), Option.map_map,
        Option.map_map]
      rfl
    · next hmore =>
      rw [if_neg fun hlt ↦ hmore (decide_eq_true hlt)]
      rfl

/-- What is listed has a path, unless there is a key without one. -/
theorem path_ne_nil {start delimiter : Option Text} {pre : Text} {e : DirectoryEntry}
    (hempty : start = none → pre = [] → ix.objects[([] : Text)]?.isSome = false)
    (he : e ∈ after (·.path) start (listing ix (some pre) delimiter)) : e.path ≠ [] := by
  obtain ⟨hlisted, hstart⟩ := mem_after.1 he
  intro hnil
  cases start with
  | some s =>
    have hlt : s < e.path := hstart s rfl
    rw [hnil] at hlt
    exact absurd hlt (List.not_lt_nil s)
  | none =>
    obtain ⟨hkey, hpre, -⟩ | ⟨hkey, hd, hne, -⟩ := mem_listing_iff.1 hlisted
    · obtain rfl : _ = [] := hnil
      have hfalse := hempty rfl (List.prefix_nil.1 hpre)
      rw [hfalse] at hkey
      cases hkey
    · exact hne (List.append_eq_nil_iff.1 hnil).2

/-- **Continuation of listings.** A page that is truncated has a token; a marker that is not empty
is read from its token again; a token that is read is the one of that marker alone; and if a page
may have an entry, the pages from no token on come to an end, and put together they show, in
strictly increasing order, the keys and common prefixes after `start-after` that a listing must
have, and nothing else. -/
theorem list_objects_v2_continuation (C : Codec) (ops : List IndexOp) (bucket : String)
    (metadataExists : Text → Bool) (getObjectMetadata : Text → Except Error Object)
    (hmeta : ∀ key, ((LockFreeIndex.run ops).bucketIndex bucket).objects[key]?.isSome →
      metadataExists key = true ∧ ∃ o, getObjectMetadata key = .ok o ∧ o.key = key)
    (req : Request) :
    let ix := (LockFreeIndex.run ops).bucketIndex bucket
    let store := listObjects ix metadataExists getObjectMetadata
    (∀ page, listObjectsV2 C store bucket.toList req = .ok page → page.isTruncated = true →
      page.nextContinuationToken.isSome = true) ∧
    (∀ marker, marker ≠ [] →
      decodeListObjectsV2Token C (encodeListObjectsV2Token C marker) = some marker) ∧
    (∀ token marker, decodeListObjectsV2Token C token = some marker →
      ∀ marker', encodeListObjectsV2Token C marker' = token ↔ marker' = marker) ∧
    ∀ n, maxKeysOrError req = .ok n → 1 ≤ n →
      (startAfterParam req = none → prefixParam req = [] → ix.objects[([] : Text)]?.isSome = false) →
      ∃ pages chunks, Walk (fun token ↦ listObjectsV2 C store bucket.toList (withToken req token))
          nextToken none pages ∧
        List.Forall₂ ShowsObjects pages chunks ∧
        chunks.flatten.Pairwise (fun x y ↦ x.path < y.path) ∧
        ∀ e, e ∈ chunks.flatten ↔
          Expected (fun key ↦ ix.objects[key]?.isSome) (prefixParam req) (delimiterParam req) e ∧
            ∀ start ∈ startAfterParam req, start < e.path := by
  intro ix store
  refine ⟨fun page ↦ exists_token_of_isTruncated, fun marker hmarker ↦
    decodeToken_eq_some_iff.2 ⟨hmarker, rfl⟩, fun token marker htoken marker' ↦ ?_,
    fun n hmax hn hempty ↦ ?_⟩
  · obtain ⟨-, rfl⟩ := decodeToken_eq_some_iff.1 htoken
    exact encodeToken_injective.eq_iff
  · have hsorted := pairwise_listing ix (some (prefixParam req)) (delimiterParam req)
    have hpath : ∀ e ∈ after (·.path) (startAfterParam req)
        (listing ix (some (prefixParam req)) (delimiterParam req)), e.path ≠ [] :=
      fun e he ↦ path_ne_nil hempty he
    have hcut : ∀ a x b, after (·.path) (startAfterParam req)
        (listing ix (some (prefixParam req)) (delimiterParam req)) = a ++ x :: b →
        after (·.path) (markerOf C (startAfterParam req) (some (encodeListObjectsV2Token C x.path)))
          (listing ix (some (prefixParam req)) (delimiterParam req)) = b := by
      intro a x b hsplit
      have hx : x.path ≠ [] := hpath x (hsplit ▸ by simp)
      rw [markerOf, Option.bind_some, decodeToken_eq_some_iff.2 ⟨hx, rfl⟩]
      exact after_of_append hsorted _ hsplit
    have hgood : ∀ x ∈ after (·.path) (startAfterParam req)
        (listing ix (some (prefixParam req)) (delimiterParam req)),
        GoodToken C (some (encodeListObjectsV2Token C x.path)) := by
      intro x hx t ht
      obtain rfl := Option.some.inj ht
      exact ⟨x.path, hpath x hx, rfl⟩
    have hfirst : GoodToken C none := by
      intro t ht
      cases ht
    obtain ⟨pages, chunks, hwalk, hflatten, hshows⟩ := walk_of_cut hn hcut hgood
      (fun token htoken ↦ @listObjectsV2_eq _ _ _ _ bucket.toList _ _ _
        (LockFreeIndex.consistent_bucketIndex ops bucket) (fun key hkey ↦ (hmeta key hkey).1)
        (fun key hkey ↦ (hmeta key hkey).2) hmax hn htoken)
      hfirst List.suffix_rfl
    refine ⟨pages, chunks, hwalk, hshows, ?_, fun e ↦ ?_⟩
    · rw [hflatten]
      exact pairwise_after hsorted
    · rw [hflatten]
      exact mem_after.trans (and_congr_left' mem_listing_iff)

/-- **Pages without entries show nothing**, however many there are. -/
theorem flatten_of_zero (hmax : maxKeysOrError req = .ok 0) {token : Option Text}
    {pages : List ListObjectsV2Xml} {chunks : List (List DirectoryEntry)}
    (hwalk : Walk (fun token ↦ listObjectsV2 C (listObjects ix metadataExists getObjectMetadata)
      bucket (withToken req token)) nextToken token pages)
    (hshows : List.Forall₂ ShowsObjects pages chunks) : chunks.flatten = [] := by
  have hchunk : ∀ {token page chunk}, listObjectsV2 C
      (listObjects ix metadataExists getObjectMetadata) bucket (withToken req token) = .ok page →
      ShowsObjects page chunk → chunk = [] := by
    intro token page chunk hpage hchunk
    have hempty := entries_of_zero hpage
      (by rw [maxKeysOrError, queryParam_withToken (by decide)]; exact hmax)
    rw [← show page.entries.map (·.entry) = chunk from hchunk, hempty, List.map_nil]
  induction hwalk generalizing chunks with
  | last hr _ =>
    obtain _ | ⟨hfirst, hrest⟩ := hshows
    cases hrest
    rw [List.flatten_singleton]
    exact hchunk hr hfirst
  | more hr _ _ ih =>
    obtain _ | ⟨hfirst, hrest⟩ := hshows
    rw [List.flatten_cons, hchunk hr hfirst, ih hrest, List.nil_append]

/-- Dates and digests as they come; tokens in base64 and hexadecimal digits. -/
def plainCodec : Codec where
  parseRfc3339 _ := none
  parseRfc2822 _ := none
  digest _ bytes := bytes
  base64Encode bytes := String.ofList (Base64.encode bytes)
  base64Decode text := Base64.decode text.toList
  percentDecode text := some text
  urlSafeEncode := Base64.encode
  urlSafeDecode := Base64.decode
  urlSafeDecode_eq_some_iff _ _ := Base64.decode_eq_some_iff
  length_le_urlSafeEncode := Base64.length_le_encode
  hexEncode := Base64.hexEncode
  nul_notMem_hexEncode := Base64.nul_notMem_hexEncode

/-- A request for a page of at most so many entries. -/
def atMost (maxKeys : String) : Request where
  route := .bucketGet "b".toList
  query := ((∅ : Table String String).set "max-keys" (some maxKeys)).set "delimiter" (some "/")

/-- The metadata of an object without contents. -/
def emptyObject (key : Text) : Except Error Object := .ok (.newWithMetadataAndEtag 0 key [] "" ∅ "")

/-- Two keys below a common prefix, and another one. -/
theorem common_prefix_and_key : ∃ pages, Walk (fun token ↦ listObjectsV2 plainCodec
      (listObjects ((LockFreeIndex.run [.insert "b" "a/b".toList, .insert "b" "a/c".toList,
        .insert "b" "d".toList]).bucketIndex "b") (fun _ ↦ true) emptyObject) "b".toList
      (withToken (atMost "1") token)) nextToken none pages := by
  obtain ⟨-, -, -, hwalk⟩ := list_objects_v2_continuation plainCodec
    [.insert "b" "a/b".toList, .insert "b" "a/c".toList, .insert "b" "d".toList] "b" (fun _ ↦ true)
    emptyObject (fun _ _ ↦ ⟨rfl, _, rfl, rfl⟩) (atMost "1")
  obtain ⟨pages, -, hpages, -⟩ := hwalk 1 (by decide) le_rfl fun _ _ ↦ by decide
  exact ⟨pages, hpages⟩

/-- With `max-keys` zero, no walk shows the only key of the bucket. -/
theorem no_entries_of_zero : ¬ ∃ pages chunks, Walk (fun token ↦ listObjectsV2 plainCodec
      (listObjects ((LockFreeIndex.run [.insert "b" "d".toList]).bucketIndex "b") (fun _ ↦ true)
        emptyObject) "b".toList (withToken (atMost "0") token)) nextToken none pages ∧
    List.Forall₂ ShowsObjects pages chunks ∧ ⟨"d".toList, .object⟩ ∈ chunks.flatten := by
  rintro ⟨pages, chunks, hwalk, hshows, hmem⟩
  rw [flatten_of_zero (by decide) hwalk hshows] at hmem
  cases hmem

end Sqrzl.S3
