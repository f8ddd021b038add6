import SqrzlEmulator.Auth.Canonical
import SqrzlEmulator.Auth.Hosts

/-!
# Replaying a signature

Two requests with the same canonical request can be sent with one signature. **They mean the same to
the server where everything in them can be decoded and no signed header is sent twice** (`Clean`), and
they do not if one of them is clean and the other is not: the first value of a header is signed, and
the handlers take the metadata of an object from the last one.

## The argument

* The host is signed, so both requests name the same bucket by it or none
  (`bucketFromHost_squeeze`).
* The segments of the path are the same up to their decoding, and a bucket name needs no decoding,
  so both requests address the same bucket, with keys whose segments agree (`samePlace`).
* A key is decoded segment by segment (`decode_segments`).
-/

namespace Sqrzl.Auth

open Percent S3

variable {K : Crates} {req req' : HttpRequest} {names names' : List Text}

/-! ### Paths -/

/-- Two texts with the same segments, up to what these are decoded to. -/
def SameSegments (K : Crates) (t t' : Text) : Prop :=
  (t.splitOn '/').map (decodeOrRaw K) = (t'.splitOn '/').map (decodeOrRaw K)

/-- A path as the router takes it apart. -/
def stripped (path : Text) : Text := if path.head? = some '/' then path.tail else path

theorem decodeOrRaw_eq_nil {t : Text} (h : decodeOrRaw K t = []) : t = [] := by
  rw [decodeOrRaw] at h
  cases hdecode : K.decode t with
  | none => rwa [hdecode] at h
  | some t' =>
    rw [hdecode, Option.getD_some] at h
    exact K.decode_eq_nil t (h ▸ hdecode)

theorem decodeOrRaw_plain {t : Text} (h : '%' ∉ t) : decodeOrRaw K t = t := by
  rw [decodeOrRaw, K.decode_plain t h]
  rfl

theorem decodeOrRaw_nil : decodeOrRaw K [] = [] := decodeOrRaw_plain (by simp)

theorem splitOn_slash (t : Text) : ('/' :: t).splitOn '/' = [] :: t.splitOn '/' := by
  rw [List.splitOn_cons_eq_if_modifyHead, if_pos (by rfl)]

/-- A path with a slash in front, or without anything, has an empty first segment, and no other path
has. -/
theorem segments_cases (path : Text) :
    segments path = [] :: (stripped path).splitOn '/' ∨
    (∃ c t l, segments path = (c :: t) :: l) ∧ segments path = (stripped path).splitOn '/' := by
  cases path with
  | nil => exact .inl rfl
  | cons c t =>
    by_cases hc : c = '/'
    · subst hc
      exact .inl (splitOn_slash t)
    · have hstripped : stripped (c :: t) = c :: t := if_neg fun h ↦ hc (Option.some.inj h)
      refine .inr ⟨?_, by rw [hstripped]; rfl⟩
      obtain ⟨s, l, hsplit⟩ := List.exists_cons_of_ne_nil (List.splitOn_ne_nil '/' t)
      refine ⟨c, s, l, ?_⟩
      show (c :: t).splitOn '/' = _
      rw [List.splitOn_cons_eq_if_modifyHead, if_neg (by simpa using hc), hsplit]
      rfl

theorem sameSegments_stripped {path path' : Text}
    (h : (segments path).map (decodeOrRaw K) = (segments path').map (decodeOrRaw K)) :
    SameSegments K (stripped path) (stripped path') := by
  have hno : ∀ {path path' : Text} {c t l}, segments path = [] :: (stripped path).splitOn '/' →
      segments path' = (c :: t) :: l →
      (segments path).map (decodeOrRaw K) ≠ (segments path').map (decodeOrRaw K) := by
    intro path path' c t l hsegments hsegments' heq
    rw [hsegments, hsegments', List.map_cons, List.map_cons, decodeOrRaw_nil] at heq
    have hempty := decodeOrRaw_eq_nil (List.cons_eq_cons.1 heq).1.symm
    cases hempty
  rcases segments_cases path with hs | ⟨⟨c, t, l, hcons⟩, hs⟩ <;>
    rcases segments_cases path' with hs' | ⟨⟨c', t', l', hcons'⟩, hs'⟩
  · rw [hs, hs'] at h
    exact (List.cons_eq_cons.1 h).2
  · exact absurd h (hno hs hcons')
  · exact absurd h.symm (hno hs' hcons)
  · rwa [hs, hs'] at h

theorem SameSegments.nil_iff {t t' : Text} (h : SameSegments K t t') : t = [] ↔ t' = [] := by
  have hmp : ∀ {t t' : Text}, SameSegments K t t' → t = [] → t' = [] := by
    rintro t t' h rfl
    have hsplit : [decodeOrRaw K []] = (t'.splitOn '/').map (decodeOrRaw K) := h
    rw [decodeOrRaw_nil] at hsplit
    obtain ⟨s, hs, hdecoded⟩ := List.map_eq_singleton_iff.1 hsplit.symm
    rw [decodeOrRaw_eq_nil hdecoded] at hs
    have hjoin : ['/'].intercalate (t'.splitOn '/') = t' := List.intercalate_splitOn '/'
    rwa [hs, eq_comm] at hjoin
  exact ⟨hmp h, hmp h.symm⟩

/-- **A text is decoded segment by segment.** -/
theorem decode_segments {t t' : Text} (h : K.decode t = some t') :
    t' = join '/' ((t.splitOn '/').map (decodeOrRaw K)) := by
  have hjoin : ∀ l : List Text, ∀ t', K.decode (join '/' l) = some t' →
      t' = join '/' (l.map (decodeOrRaw K)) := by
    intro l
    induction l with
    | nil =>
      intro t' h
      rw [K.decode_plain _ (by simp [join])] at h
      exact (Option.some.inj h).symm
    | cons s l ih =>
      intro t' h
      cases l with
      | nil =>
        have hs : K.decode s = some t' := by simpa [join] using h
        have hdecoded : decodeOrRaw K s = t' := by rw [decodeOrRaw, hs]; rfl
        simp [join, hdecoded]
      | cons u l =>
        have hcons : join '/' (s :: u :: l) = s ++ '/' :: join '/' (u :: l) := by
          simp [join, List.intercalate_cons_cons]
        rw [hcons, K.decode_slash] at h
        obtain ⟨s', hs, h⟩ := Option.bind_eq_some_iff.1 h
        obtain ⟨u', hu, rfl⟩ := Option.map_eq_some_iff.1 h
        have hdecoded : decodeOrRaw K s = s' := by rw [decodeOrRaw, hs]; rfl
        rw [ih u' hu, List.map_cons, List.map_cons, hdecoded]
        simp [join, List.intercalate_cons_cons]
  refine hjoin _ _ ?_
  rwa [join, List.intercalate_splitOn]

theorem SameSegments.decode_eq {t t' u u' : Text} (h : SameSegments K t t')
    (hu : K.decode t = some u) (hu' : K.decode t' = some u') : u = u' := by
  rw [decode_segments hu, decode_segments hu', h]

/-! ### Routes -/

/-- If a bucket is addressed, then its name is a valid one. -/
def ValidBucket (path : Text) (host : Option Text) : Prop :=
  ∀ bucket key, addressed path host = some (bucket, key) → validBucketName bucket = true

/-- A valid name has neither escapes nor whitespace. -/
theorem plain_of_validBucketName {bucket : Text} (h : validBucketName bucket = true) :
    '%' ∉ bucket ∧ Plain bucket ∧ bucket ≠ [] := by
  simp only [validBucketName, Bool.and_eq_true, decide_eq_true_eq, List.all_eq_true] at h
  obtain ⟨⟨⟨⟨⟨⟨⟨⟨hlength, -⟩, -⟩, -⟩, hall⟩, -⟩, -⟩, -⟩, -⟩ := h
  refine ⟨fun hmem ↦ ?_, fun c hc ↦ ?_, ?_⟩
  · have hkept := hall '%' hmem
    revert hkept
    decide
  · have hkept := hall c hc
    rw [Bool.eq_false_iff]
    intro hspace
    simp only [Char.isWhitespace, Bool.or_eq_true, decide_eq_true_eq] at hspace
    rcases hspace with ((rfl | rfl) | rfl) | rfl <;> revert hkept <;> decide
  · rintro rfl
    simp at hlength

/-- The same bucket, and keys with the same segments. -/
def SamePlace (K : Crates) : Option (Text × Option Text) → Option (Text × Option Text) → Prop :=
  Option.Rel fun place place' ↦ place.1 = place'.1 ∧ Option.Rel (SameSegments K) place.2 place'.2

theorem SameSegments.optional {t t' : Text} (h : SameSegments K t t') :
    Option.Rel (SameSegments K) (if t.isEmpty then none else some t)
      (if t'.isEmpty then none else some t') := by
  by_cases ht : t = []
  · rw [if_pos (List.isEmpty_iff.2 ht), if_pos (List.isEmpty_iff.2 (h.nil_iff.1 ht))]
    exact .none
  · rw [if_neg (mt List.isEmpty_iff.1 ht), if_neg (mt List.isEmpty_iff.1 (mt h.nil_iff.2 ht))]
    exact .some h

/-- What a path addresses by itself. -/
def addressedByPath (path : Text) : Option (Text × Option Text) :=
  if path.isEmpty then none
  else
    match splitOnce '/' path with
    | some (bucket, key) =>
      if bucket.isEmpty then none else some (bucket, if key.isEmpty then none else some key)
    | none => some (path, none)

theorem splitOnce_splitOn (t : Text) :
    (splitOnce '/' t = none ∧ t.splitOn '/' = [t]) ∨
    ∃ s u, splitOnce '/' t = some (s, u) ∧ t.splitOn '/' = s :: u.splitOn '/' := by
  by_cases h : '/' ∈ t
  · refine .inr ⟨_, _, if_pos h, ?_⟩
    induction t with
    | nil => cases h
    | cons c t ih =>
      by_cases hc : c = '/'
      · subst hc
        rw [splitOn_slash]
        rfl
      · rw [List.splitOn_cons_eq_if_modifyHead, if_neg (by simpa using hc),
          ih ((List.mem_cons.1 h).resolve_left (Ne.symm hc)),
          List.takeWhile_cons_of_pos (by simpa using hc), List.dropWhile_cons_of_pos (by simpa using hc)]
        rfl
  · exact .inl ⟨if_neg h, List.splitOn_eq_singleton h⟩

/-- What is addressed, from the segments. -/
theorem addressedByPath_cases (t : Text) :
    (addressedByPath t = none ∧ ∃ l, t.splitOn '/' = [] :: l) ∨
    (addressedByPath t = some (t, none) ∧ t ≠ [] ∧ t.splitOn '/' = [t]) ∨
    ∃ bucket key, addressedByPath t = some (bucket, if key.isEmpty then none else some key) ∧
      bucket ≠ [] ∧ t.splitOn '/' = bucket :: key.splitOn '/' := by
  unfold addressedByPath
  by_cases ht : t = []
  · subst ht
    exact .inl ⟨rfl, [], rfl⟩
  · rw [if_neg (mt List.isEmpty_iff.1 ht)]
    rcases splitOnce_splitOn t with ⟨honce, hsplit⟩ | ⟨bucket, key, honce, hsplit⟩
    · rw [honce]
      exact .inr (.inl ⟨rfl, ht, hsplit⟩)
    · rw [honce]
      by_cases hb : bucket = []
      · subst hb
        exact .inl ⟨rfl, _, hsplit⟩
      · exact .inr (.inr ⟨bucket, key, if_neg (mt List.isEmpty_iff.1 hb), hb, hsplit⟩)

theorem samePlace_byPath {t t' : Text} (h : SameSegments K t t')
    (hvalid : ∀ place, addressedByPath t = some place → validBucketName place.1 = true)
    (hvalid' : ∀ place, addressedByPath t' = some place → validBucketName place.1 = true) :
    SamePlace K (addressedByPath t) (addressedByPath t') := by
  have hsplit : (t.splitOn '/').map (decodeOrRaw K) = (t'.splitOn '/').map (decodeOrRaw K) := h
  -- a valid name stands for itself
  have hself : ∀ {bucket : Text}, validBucketName bucket = true → decodeOrRaw K bucket = bucket :=
    fun hb ↦ decodeOrRaw_plain (plain_of_validBucketName hb).1
  rcases addressedByPath_cases t with ⟨hnone, l, hl⟩ | ⟨hsome, hne, hl⟩ |
      ⟨bucket, key, hsome, hne, hl⟩ <;>
    rcases addressedByPath_cases t' with ⟨hnone', l', hl'⟩ | ⟨hsome', hne', hl'⟩ |
      ⟨bucket', key', hsome', hne', hl'⟩
  all_goals rw [hl, hl', List.map_cons, List.map_cons] at hsplit
  all_goals obtain ⟨hfirst, hrest⟩ := List.cons_eq_cons.1 hsplit
  · rw [hnone, hnone']
    exact .none
  · rw [decodeOrRaw_nil] at hfirst
    exact absurd (decodeOrRaw_eq_nil hfirst.symm) hne'
  · rw [decodeOrRaw_nil] at hfirst
    exact absurd (decodeOrRaw_eq_nil hfirst.symm) hne'
  · rw [decodeOrRaw_nil] at hfirst
    exact absurd (decodeOrRaw_eq_nil hfirst) hne
  · rw [hself (hvalid _ hsome), hself (hvalid' _ hsome')] at hfirst
    rw [hsome, hsome']
    exact .some ⟨hfirst, .none⟩
  · exact absurd hrest.symm (by simp)
  · rw [decodeOrRaw_nil] at hfirst
    exact absurd (decodeOrRaw_eq_nil hfirst) hne
  · exact absurd hrest (by simp)
  · rw [hself (hvalid _ hsome), hself (hvalid' _ hsome')] at hfirst
    rw [hsome, hsome']
    exact .some ⟨hfirst, SameSegments.optional hrest⟩

/-- **Requests that agree on the host and on the segments address the same place.** -/
theorem samePlace {path path' : Text} {host host' : Text}
    (hsegments : SameSegments K (stripped path) (stripped path')) (hhost : squeeze host = squeeze host')
    (hvalid : ValidBucket path (some host)) (hvalid' : ValidBucket path' (some host')) :
    SamePlace K (addressed path (some host)) (addressed path' (some host')) := by
  have haddressed : ∀ path host : Text, addressed path (some host) =
      (bucketFromHost host).elim (addressedByPath (stripped path)) fun bucket ↦
        some (bucket, if (stripped path).isEmpty then none else some (stripped path)) := by
    intro path host
    rw [addressed, Option.bind_some]
    cases bucketFromHost host <;> rfl
  have hbuckets : (bucketFromHost host).map squeeze = (bucketFromHost host').map squeeze := by
    rw [← bucketFromHost_squeeze, ← bucketFromHost_squeeze, hhost]
  unfold ValidBucket at hvalid hvalid'
  rw [haddressed] at hvalid hvalid' ⊢
  rw [haddressed]
  cases hb : bucketFromHost host with
  | none =>
    rw [hb, Option.map_none, eq_comm, Option.map_eq_none_iff] at hbuckets
    rw [hb] at hvalid
    rw [hbuckets] at hvalid' ⊢
    exact samePlace_byPath hsegments (fun place h ↦ hvalid place.1 place.2 h)
      (fun place h ↦ hvalid' place.1 place.2 h)
  | some bucket =>
    rw [hb, Option.map_some, eq_comm, Option.map_eq_some_iff] at hbuckets
    obtain ⟨bucket', hb', hsqueezed⟩ := hbuckets
    rw [hb] at hvalid
    rw [hb'] at hvalid' ⊢
    have hplain := (plain_of_validBucketName (hvalid _ _ rfl)).2.1
    have hplain' := (plain_of_validBucketName (hvalid' _ _ rfl)).2.1
    rw [squeeze_eq_self hplain, squeeze_eq_self hplain'] at hsqueezed
    exact .some ⟨hsqueezed.symm, hsegments.optional⟩

/-- If an object is addressed, then its key can be decoded. -/
def KeyDecodes (K : Crates) (path : Text) (host : Option Text) : Prop :=
  ∀ bucket key, addressed path host = some (bucket, some key) → (decodeUriPath K key).isSome = true

theorem objectRoute_ne_invalid {method bucket key : Text}
    (h : (decodeUriPath K key).isSome = true) :
    objectRoute K method bucket key ≠ .invalidObjectPath := by
  obtain ⟨key', hkey⟩ := Option.isSome_iff_exists.1 h
  unfold objectRoute
  rw [hkey]
  simp only
  split <;> nofun

theorem objectRoute_of_not_decodes {method bucket key : Text}
    (h : ¬ (decodeUriPath K key).isSome = true) :
    objectRoute K method bucket key = .invalidObjectPath := by
  unfold objectRoute
  rw [Option.not_isSome_iff_eq_none.1 h]

theorem objectRoute_eq {method bucket key key' : Text} (h : SameSegments K key key')
    (hkey : (decodeUriPath K key).isSome = true) (hkey' : (decodeUriPath K key').isSome = true) :
    objectRoute K method bucket key = objectRoute K method bucket key' := by
  obtain ⟨k, hk⟩ := Option.isSome_iff_exists.1 hkey
  obtain ⟨k', hk'⟩ := Option.isSome_iff_exists.1 hkey'
  have hdecode : ∀ {key k : Text}, decodeUriPath K key = some k → K.decode key = some k := by
    intro key k h
    unfold decodeUriPath at h
    split at h
    · exact h
    · cases h
  have hsame := h.decode_eq (hdecode hk) (hdecode hk')
  subst hsame
  unfold objectRoute
  rw [hk, hk']

/-- **Requests to the same place have the same route exactly if both keys can be decoded or neither
can.** -/
theorem routeFromParts_eq_iff {method path path' : Text} {host host' : Option Text}
    (hsegments : SameSegments K (stripped path) (stripped path'))
    (h : SamePlace K (addressed path host) (addressed path' host')) :
    routeFromParts K method path host = routeFromParts K method path' host' ↔
      (KeyDecodes K path host ↔ KeyDecodes K path' host') := by
  unfold routeFromParts KeyDecodes
  cases hplace : addressed path host with
  | none =>
    rw [hplace] at h
    cases hplace' : addressed path' host' with
    | some place' => rw [hplace'] at h; cases h
    | none =>
      refine iff_of_true ?_ (by simp)
      have hempty : (stripped path).isEmpty = (stripped path').isEmpty := by
        rw [Bool.eq_iff_iff, List.isEmpty_iff, List.isEmpty_iff]
        exact hsegments.nil_iff
      show (if (stripped path).isEmpty && _ then _ else _) =
        (if (stripped path').isEmpty && _ then _ else _)
      rw [hempty]
  | some place =>
    rw [hplace] at h
    cases hplace' : addressed path' host' with
    | none => rw [hplace'] at h; cases h
    | some place' =>
      rw [hplace'] at h
      obtain ⟨bucket, key⟩ := place
      obtain ⟨bucket', key'⟩ := place'
      cases h with
      | some hsame =>
        obtain ⟨hbucket, hkey⟩ := hsame
        simp only at hbucket hkey
        subst hbucket
        cases hkey with
        | none => simp
        | @some key key' hkey =>
          simp only [Option.some.injEq, Prod.mk.injEq, and_imp, forall_eq', forall_apply_eq_imp_iff]
          by_cases hk : (decodeUriPath K key).isSome = true
          · by_cases hk' : (decodeUriPath K key').isSome = true
            · exact iff_of_true (objectRoute_eq hkey hk hk') (iff_of_true hk hk')
            · rw [objectRoute_of_not_decodes hk']
              exact iff_of_false (objectRoute_ne_invalid hk) fun h ↦ hk' (h.1 hk)
          · rw [objectRoute_of_not_decodes hk]
            by_cases hk' : (decodeUriPath K key').isSome = true
            · exact iff_of_false (objectRoute_ne_invalid hk').symm fun h ↦ hk (h.2 hk')
            · rw [objectRoute_of_not_decodes hk']
              exact iff_of_true rfl (iff_of_false hk hk')

/-! ### Meaning -/

/-- The same request to a handler. -/
structure SameMeaning (K : Crates) (req req' : HttpRequest) (names names' : List Text) : Prop where
  method : req.method = req'.method
  route : ValidBucket req.path req.host → ValidBucket req'.path req'.host →
    route K req = route K req'
  query : (queryPairs K req.query).Perm (queryPairs K req'.query)
  signed : names = names'
  /-- All values of the name, in their order: some handlers read the first one, some the last. -/
  values : ∀ name ∈ names, (req.headerValues name).map normalizeHeaderValue =
    (req'.headerValues name).map normalizeHeaderValue
  payload : payloadHash K req = payloadHash K req'

/-- **Everything in the request can be decoded**, the names and values of its query, and its key,
and no signed header is sent twice. -/
structure Clean (K : Crates) (req : HttpRequest) (names : List Text) : Prop where
  query : QueryDecodes K req.query
  key : KeyDecodes K req.path req.host
  single : ∀ name ∈ names, (req.headerValues name).length ≤ 1

/-- The first value of a header is one of its values. -/
theorem mem_headerValues {name value : Text} (h : req.header name = some value) :
    value ∈ req.headerValues name := by
  have hvisible : (name, value) ∈ req.visibleHeaders :=
    List.mem_filterMap.2 ⟨(name, some value), header_mem h, rfl⟩
  exact List.mem_map.2 ⟨(name, value), List.mem_filter.2 ⟨hvisible, by simp⟩, rfl⟩

/-- A header that is sent once has its first value only. -/
theorem headerValues_eq {name value : Text} (h : req.header name = some value)
    (hsingle : (req.headerValues name).length ≤ 1) : req.headerValues name = [value] := by
  have hmem := mem_headerValues h
  cases hvalues : req.headerValues name with
  | nil => simp [hvalues] at hmem
  | cons first rest =>
    rw [hvalues, List.length_cons] at hsingle
    obtain rfl : rest = [] := List.length_eq_zero_iff.1 (by omega)
    rw [hvalues, List.mem_singleton] at hmem
    rw [hmem]

theorem header_trimmed {name value : Text} (h : req.header name = some value) : Trimmed value :=
  (req.headers_values name value (header_mem h)).2

/-- A signed header that is present in both requests. -/
theorem SameLines.squeeze_eq (h : SameLines K req req' names names') {name value value' : Text}
    (hname : name ∈ names) (hvalue : req.header name = some value)
    (hvalue' : req'.header name = some value') : squeeze value = squeeze value' := by
  have hline := h.values name hname
  rw [hvalue, hvalue', Option.getD_some, Option.getD_some,
    normalizeHeaderValue_eq (header_trimmed hvalue), normalizeHeaderValue_eq (header_trimmed hvalue')]
    at hline
  exact hline

variable {scope scope' service service' : Text} {now now' : Time}

/-- The two routes, when the buckets have valid names. -/
theorem route_eq_iff (hlines : SameLines K req req' names names')
    (h : Validated K req scope names service now) (h' : Validated K req' scope' names' service' now')
    (hvalid : ValidBucket req.path req.host) (hvalid' : ValidBucket req'.path req'.host) :
    route K req = route K req' ↔
      (KeyDecodes K req.path req.host ↔ KeyDecodes K req'.path req'.host) := by
  obtain ⟨host, hhost⟩ := Option.isSome_iff_exists.1 (h.present _ h.host)
  obtain ⟨host', hhost'⟩ := Option.isSome_iff_exists.1 (h'.present _ h'.host)
  have hsegments := sameSegments_stripped hlines.segments
  have hplace : SamePlace K (addressed req.path req.host) (addressed req'.path req'.host) := by
    have hpresent : req.host = some host := hhost
    have hpresent' : req'.host = some host' := hhost'
    rw [hpresent] at hvalid ⊢
    rw [hpresent'] at hvalid' ⊢
    exact samePlace hsegments (hlines.squeeze_eq h.host hhost hhost') hvalid hvalid'
  rw [route, route, ← hlines.method]
  exact routeFromParts_eq_iff hsegments hplace

/-- The values of the signed headers, when these are sent once in the first request. -/
theorem values_eq_iff (hlines : SameLines K req req' names names')
    (h : Validated K req scope names service now) (h' : Validated K req' scope' names' service' now')
    (hsingle : ∀ name ∈ names, (req.headerValues name).length ≤ 1) :
    (∀ name ∈ names, (req.headerValues name).map normalizeHeaderValue =
      (req'.headerValues name).map normalizeHeaderValue) ↔
      ∀ name ∈ names', (req'.headerValues name).length ≤ 1 := by
  have hsame : names' = names := hlines.signed.symm
  rw [hsame]
  refine forall₂_congr fun name hname ↦ ?_
  obtain ⟨value, hvalue⟩ := Option.isSome_iff_exists.1 (h.present name hname)
  obtain ⟨value', hvalue'⟩ := Option.isSome_iff_exists.1 (h'.present name (hsame ▸ hname))
  have hline := hlines.values name hname
  rw [hvalue, hvalue', Option.getD_some, Option.getD_some] at hline
  rw [headerValues_eq hvalue (hsingle name hname), List.map_singleton]
  constructor
  · intro hvalues
    have hlength := congrArg List.length hvalues
    rw [List.length_singleton, List.length_map] at hlength
    exact hlength.symm.le
  · intro hsingle'
    rw [headerValues_eq hvalue' hsingle', List.map_singleton, hline]

/-- **A canonical request determines the meaning of a clean request among the clean ones, and of no
other request that addresses a valid bucket.** -/
theorem canonical_request_determines_meaning
    (hok : validateRequestAt K req scope names service now = .ok ())
    (hok' : validateRequestAt K req' scope' names' service' now' = .ok ())
    (heq : buildCanonicalRequest K req names = buildCanonicalRequest K req' names') :
    (Clean K req names → Clean K req' names' → SameMeaning K req req' names names') ∧
    (ValidBucket req.path req.host → ValidBucket req'.path req'.host → Clean K req names →
      (SameMeaning K req req' names names' ↔ Clean K req' names')) := by
  have h := validated_of_ok hok
  have h' := validated_of_ok hok'
  have hlines := sameLines h.valid h'.valid heq
  have hclean : Clean K req names → Clean K req' names' → SameMeaning K req req' names names' := by
    intro hc hc'
    refine ⟨hlines.method, fun hvalid hvalid' ↦ ?_, ?_, hlines.signed, ?_, hlines.payload⟩
    · exact (route_eq_iff hlines h h' hvalid hvalid').2 (iff_of_true hc.key hc'.key)
    · rw [queryPairs_eq hc.query, queryPairs_eq hc'.query]
      exact hlines.query
    · exact (values_eq_iff hlines h h' hc.single).2 hc'.single
  refine ⟨hclean, fun hvalid hvalid' hc ↦ ⟨fun hsame ↦ ⟨?_, ?_, ?_⟩, hclean hc⟩⟩
  · exact queryDecodes_of_perm hc.query hlines.query hsame.query
  · exact ((route_eq_iff hlines h h' hvalid hvalid').1 (hsame.route hvalid hvalid')).1 hc.key
  · exact (values_eq_iff hlines h h' hc.single).1 hsame.values

/-! ### Two queries -/

/-- The first second of 2024. -/
def newYear : Time := 1704067200 * 1000000000

/-- A day on which nothing but empty bodies are sent. -/
def quietDay : Crates := asciiCrates "20240101T000000Z".toList "20240101".toList
  newYear
  (fun _ ↦ "e3b0c44298fc1c149afbf4c8996fb92427ae41e4649b934ca495991b7852b855".toList)
  (fun _ ↦ by decide)
  (fun _ _ ↦ []) (fun _ _ ↦ [])

/-- A signed request that lists a bucket. -/
def listing (query : String) : HttpRequest where
  method := "GET".toList
  path := "/bucket".toList
  query := some query.toList
  headers := [("host".toList, some "localhost".toList),
    ("x-amz-date".toList, some "20240101T000000Z".toList)]
  method_token := plain_get
  headers_names := by decide
  headers_values name value h := by
    simp only [List.mem_cons, Prod.mk.injEq, Option.some.injEq, List.not_mem_nil, or_false] at h
    rcases h with ⟨-, rfl⟩ | ⟨-, rfl⟩ <;> decide
  hint_plain := plain_of_no_hint

/-- What is signed of it. -/
def listingNames : List Text := ["host".toList, "x-amz-date".toList]

theorem validateRequestAt_listing (query : String) : validateRequestAt quietDay (listing query)
    "20240101/us-east-1/s3/aws4_request".toList listingNames "s3".toList newYear = .ok () := by
  have hempty : validateRequestAt quietDay (listing "") "20240101/us-east-1/s3/aws4_request".toList
      listingNames "s3".toList newYear = .ok () := by decide
  exact hempty

theorem buildCanonicalRequest_listing {query query' : String}
    (h : rawPairs quietDay (some query.toList) = rawPairs quietDay (some query'.toList)) :
    buildCanonicalRequest quietDay (listing query) listingNames =
      buildCanonicalRequest quietDay (listing query') listingNames := by
  have hquery : canonicalQueryString quietDay (listing query).query =
      canonicalQueryString quietDay (listing query').query := by
    rw [canonicalQueryString_eq, canonicalQueryString_eq]
    exact congrArg (fun pairs ↦ joinParams (pairs.map encodePair)) h
  unfold buildCanonicalRequest
  rw [hquery]
  rfl

/-- A slash in a value can be escaped. -/
theorem escaped_slash_means_slash :
    SameMeaning quietDay (listing "prefix=a%2Fb") (listing "prefix=a/b") listingNames listingNames := by
  have hclean : ∀ query : String, QueryDecodes quietDay (some query.toList) →
      Clean quietDay (listing query) listingNames := by
    refine fun query hquery ↦ ⟨hquery, fun bucket key h ↦ ?_, ?_⟩
    swap
    · have hsingle : ∀ name ∈ listingNames, ((listing "").headerValues name).length ≤ 1 := by decide
      exact hsingle
    have hnone : addressed "/bucket".toList (some "localhost".toList) = some ("bucket".toList, none) := by
      decide
    have hplace : some ("bucket".toList, none) = some (bucket, some key) := hnone ▸ h
    cases hplace
  exact (canonical_request_determines_meaning (validateRequestAt_listing "prefix=a%2Fb")
    (validateRequestAt_listing "prefix=a/b") (buildCanonicalRequest_listing (by decide))).1
    (hclean _ (by decide)) (hclean _ (by decide))

/-- **A value that is not UTF-8 can be sent with the signature of its escaped text.** It is an empty
value to the handlers. -/
theorem undecodable_value_replays :
    validateRequestAt quietDay (listing "prefix=%25FF") "20240101/us-east-1/s3/aws4_request".toList
      listingNames "s3".toList newYear = .ok () ∧
    validateRequestAt quietDay (listing "prefix=%FF") "20240101/us-east-1/s3/aws4_request".toList
      listingNames "s3".toList newYear = .ok () ∧
    buildCanonicalRequest quietDay (listing "prefix=%25FF") listingNames =
      buildCanonicalRequest quietDay (listing "prefix=%FF") listingNames ∧
    queryPairs quietDay (listing "prefix=%25FF").query = [("prefix".toList, "%FF".toList)] ∧
    queryPairs quietDay (listing "prefix=%FF").query = [("prefix".toList, [])] ∧
    ¬ SameMeaning quietDay (listing "prefix=%25FF") (listing "prefix=%FF") listingNames
      listingNames := by
  refine ⟨validateRequestAt_listing _, validateRequestAt_listing _,
    buildCanonicalRequest_listing (by decide), by decide, by decide, fun hsame ↦ ?_⟩
  have hperm : [("prefix".toList, "%FF".toList)].Perm [("prefix".toList, [])] := hsame.query
  have hvalue := List.perm_singleton.1 hperm
  revert hvalue
  decide

end Sqrzl.Auth
