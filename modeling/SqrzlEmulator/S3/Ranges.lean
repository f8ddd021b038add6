import SqrzlEmulator.Azure.Model
import SqrzlEmulator.Data.Numerals
import SqrzlEmulator.Gcs.Objects
import SqrzlEmulator.S3.Preconditions

/-!
# Range headers

Three readers of a `Range` header: that of the S3 handlers (`object/helpers.rs`), the one that is
shared by the other front doors (`utils/request.rs`) and that of Azure (`providers/azure.rs`), which
takes the size of the blob and clamps the end to it. `IsRange` is the grammar they are written for,
`bytes=<digits>-<digits>?`.

## What they have in common

Each of them cuts the text behind `bytes=` at its first dash, and reads a number in front of it
(`cutRange_iff`). They differ in what they make of the rest: the shared reader and that of Azure
refuse an end that is no number or comes before the start, and the S3 reader leaves the comparison
to the slicing. `one_range_grammar` collects where all three agree, and what a `GET` of S3 answers.
-/

namespace Sqrzl

/-! ### The grammar -/

/-- A single range, from its first byte to its last one or to the end. -/
def IsRange (value : String) (range : ℕ × Option ℕ) : Prop :=
  ∃ first rest : Text, value.toList = "bytes=".toList ++ (first ++ '-' :: rest) ∧
    Numeral first range.1 ∧ range.2.elim (rest = []) (Numeral rest)

/-- The numbers of a range fit, and it does not end before it starts. -/
def InOrder (range : ℕ × Option ℕ) : Prop :=
  range.1 < 2 ^ 64 ∧ ∀ last, range.2 = some last → last < 2 ^ 64 ∧ range.1 ≤ last

/-- The bytes of an object that a range stands for. -/
def clampTo (size : ℕ) (range : ℕ × Option ℕ) : Option (ℕ × ℕ) :=
  if range.1 < size then some (range.1, min (range.2.getD (size - 1)) (size - 1)) else none

/-- `parse_range_header` -/
def Azure.parseRangeHeader (value : String) (size : ℕ) : Option (ℕ × ℕ) := do
  guard (startsWith "bytes=" value)
  let (start, last) ← splitOnce '-' (value.toList.drop "bytes=".length)
  let start ← parseU64 (String.ofList start)
  guard (start < size)
  let last ← (if last.isEmpty then some (size - 1)
    else (parseU64 (String.ofList last)).map (min · (size - 1)))
  guard (start ≤ last)
  return (start, last)

/-! ### The readers -/

section Readers

variable {value : String} {first rest : Text} {range : ℕ × Option ℕ} {size : ℕ}

/-- Every reader cuts a text in this way. -/
def CutRange (value : String) (first rest : Text) : Prop :=
  value.toList = "bytes=".toList ++ (first ++ '-' :: rest) ∧ '-' ∉ first

theorem cutRange_iff :
    (startsWith "bytes=" value = true ∧
      splitOnce '-' (value.toList.drop "bytes=".length) = some (first, rest)) ↔
      CutRange value first rest := by
  rw [splitOnce_eq_some_iff, startsWith, List.isPrefixOf_iff_prefix, CutRange]
  constructor
  · rintro ⟨⟨tail, htail⟩, hdash, hrest⟩
    refine ⟨?_, hdash⟩
    rw [← htail, ← hrest, ← htail]
    rfl
  · rintro ⟨hvalue, hdash⟩
    refine ⟨⟨_, hvalue.symm⟩, hdash, ?_⟩
    rw [hvalue]
    rfl

theorem CutRange.unique {first' rest' : Text} (h : CutRange value first rest)
    (h' : CutRange value first' rest') : first = first' ∧ rest = rest' := by
  have hsplit := (cutRange_iff.2 h).2
  rw [(cutRange_iff.2 h').2] at hsplit
  exact ⟨(Prod.mk.inj (Option.some.inj hsplit)).1.symm, (Prod.mk.inj (Option.some.inj hsplit)).2.symm⟩

/-- A range of the grammar is cut behind its first number. -/
theorem IsRange.cut (h : IsRange value range) : ∃ first rest, CutRange value first rest ∧
    Numeral first range.1 ∧ range.2.elim (rest = []) (Numeral rest) := by
  obtain ⟨first, rest, hvalue, hfirst, hrest⟩ := h
  exact ⟨first, rest, ⟨hvalue, hfirst.notMem (by decide)⟩, hfirst, hrest⟩

theorem guard_eq_some_iff {p : Prop} [Decidable p] {u : Unit} :
    (guard p : Option Unit) = some u ↔ p := by
  by_cases hp : p <;> simp [guard, hp]

theorem S3.parseRange_eq_some_iff :
    S3.parseRange value = some range ↔ ∃ first rest, CutRange value first rest ∧
      parseU64 (String.ofList first) = some range.1 ∧
      parseU64 (String.ofList (if rest.head? = some ' ' then rest.drop 1 else rest)) = range.2 := by
  unfold S3.parseRange
  simp only [Option.bind_eq_bind, Option.bind_eq_some_iff, guard_eq_some_iff, exists_const,
    Prod.exists, Option.pure_def, Option.some.injEq, ← cutRange_iff]
  constructor
  · rintro ⟨hstart, first, rest, hcut, n, hn, rfl⟩
    exact ⟨first, rest, ⟨hstart, hcut⟩, hn, rfl⟩
  · rintro ⟨first, rest, ⟨hstart, hcut⟩, hn, hlast⟩
    exact ⟨hstart, first, rest, hcut, range.1, hn, Prod.ext rfl hlast⟩

theorem Gcs.parseByteRange_eq_some_iff :
    Gcs.parseByteRange value = some range ↔ ∃ first rest, CutRange value first rest ∧
      parseU64 (String.ofList first) = some range.1 ∧
      range.2.elim (rest = []) fun last ↦
        rest ≠ [] ∧ parseU64 (String.ofList rest) = some last ∧ range.1 ≤ last := by
  unfold Gcs.parseByteRange
  simp only [Option.bind_eq_bind, Option.bind_eq_some_iff, guard_eq_some_iff, exists_const,
    Prod.exists, Option.pure_def, ← cutRange_iff]
  obtain ⟨start, last⟩ := range
  constructor
  · rintro ⟨hstart, first, rest, hcut, n, hn, hrest⟩
    refine ⟨first, rest, ⟨hstart, hcut⟩, ?_⟩
    split at hrest
    · next hempty =>
      cases hrest
      exact ⟨hn, List.isEmpty_iff.1 hempty⟩
    · next hempty =>
      obtain ⟨m, hm, hle, hsome⟩ := by
        simpa only [Option.bind_eq_some_iff, guard_eq_some_iff, exists_const] using hrest
      cases hsome
      exact ⟨hn, fun h ↦ hempty (List.isEmpty_iff.2 h), hm, hle⟩
  · rintro ⟨first, rest, ⟨hstart, hcut⟩, hn, hlast⟩
    refine ⟨hstart, first, rest, hcut, start, hn, ?_⟩
    cases last with
    | none =>
      obtain rfl : rest = [] := hlast
      rfl
    | some last =>
      obtain ⟨hne, hm, hle⟩ := hlast
      rw [if_neg (fun h ↦ hne (List.isEmpty_iff.1 h)), hm, Option.bind_some, Option.bind_eq_some_iff]
      exact ⟨(), guard_eq_some_iff.2 hle, rfl⟩

theorem Azure.parseRangeHeader_eq_some_iff {start stop : ℕ} :
    Azure.parseRangeHeader value size = some (start, stop) ↔ ∃ first rest, CutRange value first rest ∧
      parseU64 (String.ofList first) = some start ∧ start < size ∧ start ≤ stop ∧
      (if rest.isEmpty then some (size - 1)
        else (parseU64 (String.ofList rest)).map (min · (size - 1))) = some stop := by
  unfold Azure.parseRangeHeader
  simp only [Option.bind_eq_bind, Option.bind_eq_some_iff, guard_eq_some_iff, exists_const,
    Prod.exists, Option.pure_def, Option.some.injEq, ← cutRange_iff]
  constructor
  · rintro ⟨hstart, first, rest, hcut, n, hn, hlt, m, hm, hle, hsome⟩
    obtain ⟨rfl, rfl⟩ := Prod.mk.inj hsome
    exact ⟨first, rest, ⟨hstart, hcut⟩, hn, hlt, hle, hm⟩
  · rintro ⟨first, rest, ⟨hstart, hcut⟩, hn, hlt, hle, hlast⟩
    exact ⟨hstart, first, rest, hcut, start, hn, hlt, stop, hlast, hle, rfl⟩

/-! ### Where the readers agree -/

theorem parseU64_of_numeral {n : ℕ} {ds : Text} (h : Numeral ds n) (hn : n < 2 ^ 64) :
    parseU64 (String.ofList ds) = some n :=
  (parseU64_eq_some_iff (h.notMem (by decide))).2 ⟨h, hn⟩

theorem IsRange.parseRange (h : IsRange value range) (horder : InOrder range) :
    S3.parseRange value = some range := by
  obtain ⟨first, rest, hcut, hfirst, hrest⟩ := h.cut
  refine S3.parseRange_eq_some_iff.2
    ⟨first, rest, hcut, parseU64_of_numeral hfirst horder.1, ?_⟩
  cases hlast : range.2 with
  | none =>
    rw [hlast] at hrest
    obtain rfl : rest = [] := hrest
    rfl
  | some last =>
    rw [hlast] at hrest
    have hspace : rest.head? ≠ some ' ' := fun hhead ↦
      Numeral.notMem (c := ' ') hrest (by decide) (List.mem_of_mem_head? hhead)
    rw [if_neg hspace, parseU64_of_numeral hrest (horder.2 last hlast).1]

theorem IsRange.parseByteRange (h : IsRange value range) (horder : InOrder range) :
    Gcs.parseByteRange value = some range := by
  obtain ⟨first, rest, hcut, hfirst, hrest⟩ := h.cut
  refine Gcs.parseByteRange_eq_some_iff.2
    ⟨first, rest, hcut, parseU64_of_numeral hfirst horder.1, ?_⟩
  cases hlast : range.2 with
  | none => rwa [hlast] at hrest
  | some last =>
    rw [hlast] at hrest
    exact ⟨hrest.ne_nil, parseU64_of_numeral hrest (horder.2 last hlast).1, (horder.2 last hlast).2⟩

theorem IsRange.parseRangeHeader (h : IsRange value range) (horder : InOrder range) :
    Azure.parseRangeHeader value size = clampTo size range := by
  obtain ⟨first, rest, hcut, hfirst, hrest⟩ := h.cut
  have hstart := parseU64_of_numeral hfirst horder.1
  unfold clampTo
  split
  · next hlt =>
    refine Azure.parseRangeHeader_eq_some_iff.2 ⟨first, rest, hcut, hstart, hlt, ?_, ?_⟩
    · cases hlast : range.2 with
      | none =>
        rw [Option.getD_none]
        omega
      | some last =>
        have hle := (horder.2 last hlast).2
        rw [Option.getD_some]
        omega
    · cases hlast : range.2 with
      | none =>
        rw [hlast] at hrest
        obtain rfl : rest = [] := hrest
        simp
      | some last =>
        rw [hlast] at hrest
        rw [if_neg (fun h ↦ hrest.ne_nil (List.isEmpty_iff.1 h)),
          parseU64_of_numeral hrest (horder.2 last hlast).1]
        rfl
  · next hge =>
    cases hparse : Azure.parseRangeHeader value size with
    | none => rfl
    | some bytes =>
      obtain ⟨first', rest', hcut', hstart', hlt, -⟩ := Azure.parseRangeHeader_eq_some_iff.1 hparse
      obtain ⟨rfl, -⟩ := hcut.unique hcut'
      rw [hstart] at hstart'
      exact absurd (Option.some.inj hstart' ▸ hlt) hge

/-! ### What they refuse -/

theorem CutRange.notMem (h : CutRange value first rest) {c : Char} (hc : c ∉ value.toList) :
    c ∉ first ∧ c ∉ rest := by
  rw [h.1] at hc
  simp only [List.mem_append, List.mem_cons, not_or] at hc
  exact ⟨hc.2.1, hc.2.2.2⟩

/-- **The shared reader takes nothing but the grammar**, of a text without signs. -/
theorem isRange_of_parseByteRange (hplus : '+' ∉ value.toList)
    (h : Gcs.parseByteRange value = some range) : IsRange value range ∧ InOrder range := by
  obtain ⟨first, rest, hcut, hstart, hlast⟩ := Gcs.parseByteRange_eq_some_iff.1 h
  obtain ⟨hfirst, hlt⟩ := (parseU64_eq_some_iff (hcut.notMem hplus).1).1 hstart
  cases hrange : range.2 with
  | none =>
    rw [hrange] at hlast
    exact ⟨⟨first, rest, hcut.1, hfirst, by rw [hrange]; exact hlast⟩, hlt,
      fun last hsome ↦ by rw [hrange] at hsome; cases hsome⟩
  | some last =>
    rw [hrange] at hlast
    obtain ⟨hrest, hlt'⟩ := (parseU64_eq_some_iff (hcut.notMem hplus).2).1 hlast.2.1
    refine ⟨⟨first, rest, hcut.1, hfirst, by rw [hrange]; exact hrest⟩, hlt, fun last' hsome ↦ ?_⟩
    obtain rfl := Option.some.inj (hrange.symm.trans hsome)
    exact ⟨hlt', hlast.2.2⟩

/-- **The reader of Azure takes nothing but the grammar** either. -/
theorem isRange_of_parseRangeHeader (hplus : '+' ∉ value.toList) {bytes : ℕ × ℕ}
    (h : Azure.parseRangeHeader value size = some bytes) :
    ∃ range, IsRange value range ∧ InOrder range ∧ clampTo size range = some bytes := by
  obtain ⟨first, rest, hcut, hstart, hlt, hle, hlast⟩ := Azure.parseRangeHeader_eq_some_iff.1 h
  obtain ⟨hfirst, hbound⟩ := (parseU64_eq_some_iff (hcut.notMem hplus).1).1 hstart
  obtain ⟨range, hrange, horder⟩ : ∃ range, IsRange value range ∧ InOrder range := by
    split at hlast
    · next hempty =>
      exact ⟨(bytes.1, none), ⟨first, rest, hcut.1, hfirst, List.isEmpty_iff.1 hempty⟩, hbound,
        fun last hsome ↦ by cases hsome⟩
    · obtain ⟨last, hparse, hmin⟩ := Option.map_eq_some_iff.1 hlast
      obtain ⟨hrest, hlt'⟩ := (parseU64_eq_some_iff (hcut.notMem hplus).2).1 hparse
      refine ⟨(bytes.1, some last), ⟨first, rest, hcut.1, hfirst, hrest⟩, hbound,
        fun last' hsome ↦ ?_⟩
      obtain rfl := Option.some.inj hsome
      exact ⟨hlt', by omega⟩
  exact ⟨range, hrange, horder, (hrange.parseRangeHeader horder).symm.trans h⟩

/-- **The S3 reader takes only what starts with a number.** -/
theorem numeral_of_parseRange (hplus : '+' ∉ value.toList) (h : S3.parseRange value = some range) :
    ∃ first rest, CutRange value first rest ∧ Numeral first range.1 ∧ range.1 < 2 ^ 64 := by
  obtain ⟨first, rest, hcut, hstart, -⟩ := S3.parseRange_eq_some_iff.1 h
  exact ⟨first, rest, hcut, (parseU64_eq_some_iff (hcut.notMem hplus).1).1 hstart⟩

end Readers

namespace S3

/-! ### A `GET` of a part of an object -/

/-- A response that carries an object, or a part of it. -/
structure ObjectResponse where
  status : ℕ
  contentType : String
  contentLength : ℕ
  contentRange : Option String
  data : Bytes
  deriving DecidableEq

/-- `not_modified_response`, which has no document. -/
def notModifiedResponse : Refusal := ⟨304, "", ""⟩

/-- `check_object_conditionals` -/
def checkObjectConditionals (C : Codec) (req : Request) (o : Object) : Except Refusal Unit := do
  if (req.header "if-match").any fun value ↦ !strongEtagListMatches value o.etag then
    throw preconditionFailedResponse
  if ((req.header "if-unmodified-since").bind C.parseRfc2822).any (o.lastModified > ·) then
    throw preconditionFailedResponse
  if (req.header "if-none-match").any fun value ↦ weakEtagListMatches value o.etag then
    throw notModifiedResponse
  if ((req.header "if-modified-since").bind C.parseRfc2822).any (o.lastModified ≤ ·) then
    throw notModifiedResponse

/-- `validate_get_sse_headers` -/
def validateGetSseHeaders (req : Request) (o : Object) : Except Refusal Unit :=
  match o.providerMetadata["s3_sse_c_algorithm"]? with
  | none => .ok ()
  | some expected =>
    match req.header "x-amz-server-side-encryption-customer-algorithm",
      req.header "x-amz-server-side-encryption-customer-key-md5" with
    | none, _ => .error
        ⟨400, "InvalidRequest", "Missing SSE-C algorithm for customer encrypted object"⟩
    | some _, none => .error
        ⟨400, "InvalidRequest", "Missing SSE-C key MD5 for customer encrypted object"⟩
    | some algorithm, some md5 =>
      if algorithm ≠ expected ∨ o.providerMetadata["s3_sse_c_key_md5"]? ≠ some md5 then
        .error ⟨403, "AccessDenied", "The provided SSE-C headers do not match the stored object"⟩
      else
        .ok ()

/-- What a read asks of an object. -/
def checkRead (C : Codec) (req : Request) (o : Object) : Except Refusal Unit := do
  validateGetSseHeaders req o
  checkObjectConditionals C req o

/-- `read_admission_conditions`, of the object that a key holds. -/
def readAdmissionConditions (C : Codec) (req : Request) (found : Except Error Stored) :
    Except Refusal Unit :=
  match found with
  | .error _ => .ok ()
  | .ok st => if st.2.isDeleteMarker then .ok () else checkRead C req st.2

/-- `current_delete_marker` -/
def currentDeleteMarker (b : String) (key : Text) (V : Vault) : Option Object :=
  (latestVersion ((V.record b key).list key)).filter Object.isDeleteMarker

/-- `object_payload_response` -/
def objectPayloadResponse (C : Codec) (req : Request) (o : Object) (status : ℕ)
    (part : Option (Bytes × ℕ × String)) : Except Refusal ObjectResponse := do
  checkRead C req o
  match part with
  | some (data, length, contentRange) =>
    return ⟨status, o.contentType, length, some contentRange, data⟩
  | none => return ⟨status, o.contentType, o.size, none, o.data⟩

/-- The header that names the bytes of a part. -/
def contentRange (first last size : ℕ) : String :=
  "bytes " ++ toString first ++ "-" ++ toString last ++ "/" ++ toString size

/-- `object_range_response` -/
def objectRangeResponse (C : Codec) (b : String) (key : Text) (req : Request) (header : String) :
    Handler ObjectResponse :=
  match parseRange header with
  | none => .fail invalidRange
  | some range => do
    let found ← .view fun V : Vault ↦ V.stored b key none
    .ofExcept (readAdmissionConditions C req found)
    match (found.mapError storageErrorResponse).bind (payload · (some range)) with
    | .ok o => .ofExcept (objectPayloadResponse C req o 206
        (some (o.data, o.data.length, contentRange range.1 (range.1 + (o.data.length - 1)) o.size)))
    | .error response => do
      let marker ← .view (currentDeleteMarker b key)
      .fail (if marker.isSome then noSuchKeyResponse else response)

section Get

variable {C : Codec} {b : String} {key : Text} {req : Request} {header : String} {V : Vault}
  {st : Stored} {range : ℕ × Option ℕ} {start stop : ℕ}

theorem selectedLen_eq (h : clampTo st.2.size range = some (start, stop)) (hle : start ≤ stop) :
    selectedLen st.2.size (some range) = some (stop - start + 1) := by
  unfold clampTo at h
  split at h
  · next hlt =>
    obtain ⟨rfl, rfl⟩ := Prod.mk.inj (Option.some.inj h)
    simp only [selectedLen, if_pos hlt, if_pos hle]
  · cases h

/-- A range that is in order ends where it starts, or behind that. -/
theorem le_of_clampTo {size : ℕ} (horder : InOrder range)
    (h : clampTo size range = some (start, stop)) : start = range.1 ∧ start ≤ stop ∧ stop < size := by
  unfold clampTo at h
  split at h
  · next hlt =>
    obtain ⟨rfl, rfl⟩ := Prod.mk.inj (Option.some.inj h)
    refine ⟨rfl, ?_, by omega⟩
    cases hlast : range.2 with
    | none =>
      rw [Option.getD_none]
      omega
    | some last =>
      have hle := (horder.2 last hlast).2
      rw [Option.getD_some]
      omega
  · cases h

/-- The cap of a read does not shorten a part that is within the limit. -/
theorem min_capped {size limit : ℕ} (hfits : size < 2 ^ 64)
    (h : clampTo size range = some (start, stop)) (hle : start ≤ stop) (hlt : stop < size)
    (hlimit : stop - start + 1 ≤ limit) :
    min ((range.2.map (min · (min (start + (limit - 1)) (2 ^ 64 - 1)))).getD
      (min (start + (limit - 1)) (2 ^ 64 - 1))) (size - 1) = stop := by
  unfold clampTo at h
  split at h
  · next hlt =>
    obtain ⟨-, hstop⟩ := Prod.mk.inj (Option.some.inj h)
    cases hlast : range.2 with
    | none =>
      rw [hlast, Option.getD_none] at hstop
      rw [Option.map_none, Option.getD_none]
      omega
    | some last =>
      rw [hlast, Option.getD_some] at hstop
      rw [Option.map_some, Option.getD_some]
      omega
  · cases h

/-- **What is read of an object**: the bytes of the range, where they are not too many. -/
theorem payload_eq (hmarker : st.2.isDeleteMarker = false) (hsize : st.1.length = st.2.size)
    (hfits : st.2.size < 2 ^ 64) (horder : InOrder range)
    (h : clampTo st.2.size range = some (start, stop)) :
    payload st (some range) =
      if stop - start + 1 ≤ materializationLimit then
        .ok { st.2 with data := (st.1.drop start).take (stop - start + 1) }
      else .error extentResponse := by
  obtain ⟨rfl, hle, hlt⟩ := le_of_clampTo horder h
  rw [payload, if_neg (by simp [hmarker]), selectedLen_eq h hle]
  dsimp only
  by_cases hlimit : stop - range.1 + 1 ≤ materializationLimit
  · have hread : readRange st range.1 (some ((range.2.map
        (min · (min (range.1 + (materializationLimit - 1)) (2 ^ 64 - 1)))).getD
          (min (range.1 + (materializationLimit - 1)) (2 ^ 64 - 1)))) =
        .ok ((st.1.drop range.1).take (stop - range.1 + 1)) := by
      rw [readRange, if_neg (by omega)]
      dsimp only
      rw [Option.getD_some, min_capped hfits h hle hlt hlimit, if_neg (by omega),
        if_neg (by omega)]
    have hlength : ((st.1.drop range.1).take (stop - range.1 + 1)).length = stop - range.1 + 1 := by
      rw [List.length_take, List.length_drop]
      omega
    rw [if_pos hlimit, if_neg (not_lt.2 hlimit), if_neg (Nat.succ_ne_zero _), Option.getD_some]
    simp only [hread, hlength]
    exact if_neg (not_not.2 rfl)
  · rw [if_neg hlimit, if_pos (not_le.1 hlimit)]

/-- **A `GET` of a range that is in order** answers with exactly its bytes, if they are not too
many. -/
theorem objectRangeResponse_eq (hst : V.stored b key none = .ok st)
    (hmarker : st.2.isDeleteMarker = false) (hsize : st.1.length = st.2.size)
    (hfits : st.2.size < 2 ^ 64) (hcheck : checkRead C req st.2 = .ok ())
    (hrange : IsRange header range) (horder : InOrder range)
    (h : clampTo st.2.size range = some (start, stop)) :
    (stop - start + 1 ≤ materializationLimit →
      objectRangeResponse C b key req header V =
        (.ok ⟨206, st.2.contentType, stop - start + 1, some (contentRange start stop st.2.size),
          (st.1.drop start).take (stop - start + 1)⟩, V)) ∧
    (materializationLimit < stop - start + 1 →
      ∃ response, objectRangeResponse C b key req header V = (.error response, V)) := by
  obtain ⟨rfl, hle, hlt⟩ := le_of_clampTo horder h
  have hadmitted : readAdmissionConditions C req (V.stored b key none) = .ok () := by
    simp only [hst, readAdmissionConditions, hmarker, hcheck, ite_self]
  have hpayload := payload_eq hmarker hsize hfits horder h
  unfold objectRangeResponse
  rw [hrange.parseRange horder]
  dsimp only
  rw [Prog.Atomic.view_bind, Prog.Atomic.ofExcept_bind_of_ok hadmitted]
  simp only [hst, Except.mapError, Except.bind, hpayload]
  constructor
  · intro hlimit
    have hlength : ((st.1.drop range.1).take (stop - range.1 + 1)).length = stop - range.1 + 1 := by
      rw [List.length_take, List.length_drop]
      omega
    have hlast : range.1 + (stop - range.1 + 1 - 1) = stop := by omega
    have hchecked : checkRead C req
        { st.2 with data := (st.1.drop range.1).take (stop - range.1 + 1) } = .ok () := hcheck
    rw [if_pos hlimit]
    simp only [objectPayloadResponse, hchecked, hlength, hlast]
    rfl
  · intro hlimit
    rw [if_neg (not_le.2 hlimit)]
    exact ⟨_, rfl⟩

/-- A range that ends before it starts is not served. -/
theorem objectRangeResponse_refused {first last : ℕ} (hst : V.stored b key none = .ok st)
    (hmarker : st.2.isDeleteMarker = false) (hrange : IsRange header (first, some last))
    (hfits : first < 2 ^ 64) (hlt : last < first) :
    ∃ response, objectRangeResponse C b key req header V = (.error response, V) := by
  obtain ⟨start, rest, hcut, hstart, hrest⟩ := hrange.cut
  have hspace : rest.head? ≠ some ' ' := fun hhead ↦
    Numeral.notMem (c := ' ') hrest (by decide) (List.mem_of_mem_head? hhead)
  have hparse : parseRange header = some (first, some last) := by
    refine parseRange_eq_some_iff.2 ⟨start, rest, hcut, parseU64_of_numeral hstart hfits, ?_⟩
    rw [if_neg hspace, parseU64_of_numeral hrest (hlt.trans hfits)]
  have hselected : selectedLen st.2.size (some (first, some last)) = none := by
    simp only [selectedLen, Option.getD_some]
    split
    · rw [if_neg (by omega)]
    · rfl
  have hpayload : payload st (some (first, some last)) = .error invalidRange := by
    rw [payload, if_neg (by simp [hmarker]), hselected]
  unfold objectRangeResponse
  rw [hparse]
  dsimp only
  rw [Prog.Atomic.view_bind]
  cases hadmitted : readAdmissionConditions C req (V.stored b key none) with
  | error e => exact ⟨e, rfl⟩
  | ok u =>
    rw [Prog.Atomic.ofExcept_bind_of_ok rfl]
    simp only [hst, Except.mapError, Except.bind, hpayload]
    exact ⟨_, rfl⟩

end Get

end S3

/-! ### One grammar -/

/-- **The readers of a range, and what a `GET` makes of it.** A single range whose numbers fit and
are in order is read alike by all three readers, against the size where it is known. Of a text
without a plus sign, the shared reader and that of Azure take nothing else, and the S3 reader takes
nothing that does not start with a number. A `GET` of such a range that starts inside an object
answers with exactly its bytes up to the limit of 64 MiB, and a range that ends before it starts is
refused. -/
theorem one_range_grammar (value : String) :
    (∀ range, IsRange value range → InOrder range →
      S3.parseRange value = some range ∧ Gcs.parseByteRange value = some range ∧
        ∀ size, Azure.parseRangeHeader value size = clampTo size range) ∧
    ('+' ∉ value.toList →
      (∀ range, Gcs.parseByteRange value = some range → IsRange value range ∧ InOrder range) ∧
      (∀ size bytes, Azure.parseRangeHeader value size = some bytes →
        ∃ range, IsRange value range ∧ InOrder range ∧ clampTo size range = some bytes) ∧
      ∀ range, S3.parseRange value = some range →
        ∃ first rest, CutRange value first rest ∧ Numeral first range.1 ∧ range.1 < 2 ^ 64) ∧
    (∀ (C : S3.Codec) (b : String) (key : Text) (req : S3.Request) (V : Vault) (st : Stored)
        (range : ℕ × Option ℕ), V.stored b key none = .ok st → st.2.isDeleteMarker = false →
      st.1.length = st.2.size → st.2.size < 2 ^ 64 → S3.checkRead C req st.2 = .ok () →
      IsRange value range → range.1 < 2 ^ 64 → (∀ last, range.2 = some last → last < 2 ^ 64) →
      (InOrder range → ∀ start stop, clampTo st.2.size range = some (start, stop) →
        (stop - start + 1 ≤ S3.materializationLimit →
          S3.objectRangeResponse C b key req value V =
            (.ok ⟨206, st.2.contentType, stop - start + 1,
              some (S3.contentRange start stop st.2.size),
              (st.1.drop start).take (stop - start + 1)⟩, V)) ∧
        (S3.materializationLimit < stop - start + 1 →
          ∃ response, S3.objectRangeResponse C b key req value V = (.error response, V))) ∧
      (¬ InOrder range →
        ∃ response, S3.objectRangeResponse C b key req value V = (.error response, V))) := by
  refine ⟨fun range hrange horder ↦ ?_, fun hplus ↦ ⟨?_, ?_, ?_⟩, ?_⟩
  · exact ⟨hrange.parseRange horder, hrange.parseByteRange horder,
      fun size ↦ hrange.parseRangeHeader horder⟩
  · exact fun range ↦ isRange_of_parseByteRange hplus
  · exact fun size bytes ↦ isRange_of_parseRangeHeader hplus
  · exact fun range ↦ numeral_of_parseRange hplus
  · intro C b key req V st range hst hmarker hsize hfits hcheck hrange hfirst hlast
    refine ⟨fun horder start stop ↦ ?_, fun horder ↦ ?_⟩
    · exact S3.objectRangeResponse_eq hst hmarker hsize hfits hcheck hrange horder
    · obtain ⟨first, last⟩ := range
      cases last with
      | none => exact absurd ⟨hfirst, fun last hsome ↦ by cases hsome⟩ horder
      | some last =>
        refine S3.objectRangeResponse_refused hst hmarker hrange hfirst (not_le.1 fun hle ↦ ?_)
        refine horder ⟨hfirst, fun last' hsome ↦ ?_⟩
        obtain rfl := Option.some.inj hsome
        exact ⟨hlast last rfl, hle⟩

/-! ### Two headers -/

theorem isRange_one_two : IsRange "bytes=1-2" (1, some 2) :=
  ⟨['1'], ['2'], by decide, ⟨by decide, by decide, by decide⟩, ⟨by decide, by decide, by decide⟩⟩

/-- An object of four bytes. -/
def fourBytes : Vault :=
  S3.oneBucket none |>.setRecord "bucket" ['k']
    { current := some ([1, 2, 3, 4], { S3.plainObject with size := 4 }) }

/-- The two bytes in the middle. -/
theorem middle_bytes_served :
    S3.parseRange "bytes=1-2" = some (1, some 2) ∧
    Azure.parseRangeHeader "bytes=1-2" 4 = some (1, 2) ∧
    S3.objectRangeResponse .simple "bucket" ['k'] S3.putOneByte "bytes=1-2" fourBytes =
      (.ok ⟨206, "text/plain", 2, some "bytes 1-2/4", [2, 3]⟩, fourBytes) := by
  have horder : InOrder (1, some 2) := by
    refine ⟨by decide, fun last h ↦ ?_⟩
    obtain rfl := Option.some.inj h
    decide
  have hread := (one_range_grammar "bytes=1-2").1 (1, some 2) isRange_one_two horder
  refine ⟨hread.1, hread.2.2 4, ?_⟩
  have hget := (one_range_grammar "bytes=1-2").2.2 .simple "bucket" ['k'] S3.putOneByte fourBytes
    ([1, 2, 3, 4], { S3.plainObject with size := 4 }) (1, some 2) (by decide)
    (by decide) rfl (by decide) (by decide) isRange_one_two (by decide)
    fun last h ↦ (horder.2 last h).1
  exact (hget.1 horder 1 2 (by decide)).1 (by decide)

/-- **Texts that the readers disagree on**: the S3 reader takes an end that is no number for the end
of the object, and the shared reader refuses a range that ends before it starts. -/
theorem malformed_end_accepted :
    ¬ (∀ value range, S3.parseRange value = some range ↔ IsRange value range) ∧
    ¬ (∀ value range, Gcs.parseByteRange value = some range ↔ IsRange value range) := by
  refine ⟨fun h ↦ ?_, fun h ↦ ?_⟩
  · have haccepted : S3.parseRange "bytes=1-x" = some (1, none) := by decide
    obtain ⟨first, rest, hcut, -, hrest⟩ := ((h _ _).1 haccepted).cut
    obtain rfl : rest = [] := hrest
    have hend := congrArg List.getLast? hcut.1
    rw [← List.append_assoc, List.getLast?_concat] at hend
    exact absurd hend (by decide)
  · have hrange : IsRange "bytes=2-1" (2, some 1) :=
      ⟨['2'], ['1'], by decide, ⟨by decide, by decide, by decide⟩, ⟨by decide, by decide, by decide⟩⟩
    have hrefused : Gcs.parseByteRange "bytes=2-1" = none := by decide
    rw [(h _ _).2 hrange] at hrefused
    cases hrefused

end Sqrzl
