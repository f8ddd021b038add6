import SqrzlEmulator.S3.Copy

/-!
# The sources of copies

A caller of the S3 front door is described by the answers of `check_authorization`. `object_get` asks
it before it reads an object; `object_put` asks it about the destination of a copy, and about the
source it asks nothing.

So a caller who may write somewhere can copy **every object that can be copied at all**
(`Copyable`, `PartCopyable`): a plain request without any other header does it
(`exists_plainCopy_ok`, `exists_plainPartCopy_ok`). The copies that he can make are of objects that he
may read exactly if he may write nowhere, or may read all of these objects (`copies_readable_iff`).
-/

namespace Sqrzl.S3

open Prog Atomic

/-- The answers of `check_authorization` to a caller, by bucket. -/
abbrev Permissions : Type := Text → Check → Option Refusal

/-- The caller may read the source that a header names. -/
def MayReadSource (C : Codec) (authorize : Permissions) (header : String) : Prop :=
  ∃ source, parseCopySource C header = .ok source ∧
    authorize source.bucket ⟨"s3:GetObject", some source.key⟩ = none

section Conditions

variable (C : Codec) (now : Time) (authorize : Permissions) (V : Vault)

/-- **The caller may write under a key**: what `object_put` asks whatever the headers are. -/
structure MayWrite (bucket key : Text) : Prop where
  authorised : authorize bucket ⟨"s3:PutObject", some key⟩ = none
  bucketExists : ¬ V.buckets[String.ofList bucket]?.isNone
  noConflict : ¬ foreignHistoryConflict C now (String.ofList bucket) V
  unlocked : ¬ (V.record (String.ofList bucket) key).metadata.any fun existing ↦
    objectIsLocked C now existing &&
      !preservesCurrentVersion V.buckets[String.ofList bucket]? existing

/-- A range of an object that can be read if any can: its first byte, if it has one. -/
def firstByte (st : Stored) : Option Range := if st.2.size = 0 then none else some (0, some 0)

/-- **A source that `CopyObject` can copy**: an object or a version that is no delete marker, and is
not too large. -/
structure Copyable (source : CopySource) : Prop where
  noConflict : ¬ foreignHistoryConflict C now (String.ofList source.bucket) V
  found : ∃ st object, V.stored (String.ofList source.bucket) source.key source.versionId = .ok st ∧
    ¬ st.2.isDeleteMarker ∧ payload st none = .ok object

/-- **A source that `UploadPartCopy` can copy** a part of, into an upload with the given limit. -/
structure PartCopyable (limit : Option ℕ) (source : CopySource) : Prop where
  noConflict : ¬ foreignHistoryConflict C now (String.ofList source.bucket) V
  found : ∃ st object, V.stored (String.ofList source.bucket) source.key source.versionId = .ok st ∧
    ¬ st.2.isDeleteMarker ∧ payload st (firstByte st) = .ok object ∧
      ¬ limit.any (· < object.data.length)

/-- An upload to a key that takes parts without checksums. -/
def TakesParts (bucket key : Text) (u : String) (limit : Option ℕ) : Prop :=
  ∃ B upload, V.buckets[String.ofList bucket]? = some B ∧ B.uploads[u]? = some upload ∧
    upload.record.key = key ∧ ¬ upload.record.usesCrc32c ∧
    upload.record.limit "__sqrzl_multipart_max_part_size" = limit

/-- **The caller may read all that he could copy.** The sources are those that some header names. -/
structure SourcesReadable : Prop where
  object : ∀ bucket key header source, MayWrite C now authorize V bucket key →
    parseCopySource C header = .ok source → Copyable C now V source →
    authorize source.bucket ⟨"s3:GetObject", some source.key⟩ = none
  part : ∀ bucket key u limit header source, MayWrite C now authorize V bucket key →
    TakesParts V bucket key u limit → parseCopySource C header = .ok source →
    PartCopyable C now V limit source →
    authorize source.bucket ⟨"s3:GetObject", some source.key⟩ = none

end Conditions

/-! ### What a copy reads -/

section Payload

variable {st : Stored} {range : Option Range} {object : Object}

theorem readRange_ok {start : ℕ} {last : Option ℕ} {data : Bytes}
    (h : readRange st start last = .ok data) : st.1 ≠ [] := by
  unfold readRange at h
  split at h
  · cases h
  dsimp only at h
  split at h
  · cases h
  split at h
  · cases h
  · next hlength =>
    rintro hnil
    rw [hnil, List.length_nil] at hlength
    omega

theorem readRange_firstByte (hsize : st.2.size ≠ 0) (hne : st.1 ≠ []) :
    readRange st 0 (some 0) = .ok (st.1.take 1) := by
  have hlength : 0 < st.1.length := List.length_pos_iff.2 hne
  unfold readRange
  rw [if_neg (by omega)]
  dsimp only
  rw [Option.getD_some, Nat.zero_min, if_neg (lt_irrefl 0), if_neg (by omega)]
  rfl

/-- What is read is metadata of the source, with other bytes. -/
theorem payload_marker (h : payload st range = .ok object) :
    object.isDeleteMarker = st.2.isDeleteMarker := by
  unfold payload at h
  split at h
  · cases h
    rfl
  · split at h
    · cases h
    · split at h
      · cases h
      split at h
      · cases h
        rfl
      dsimp only at h
      split at h
      · cases h
      · cases h
      · split at h
        · cases h
        · cases h
          rfl

/-- **If a range of an object can be read, so can its first byte**, which is no more. -/
theorem payload_firstByte (hmarker : ¬ st.2.isDeleteMarker) (h : payload st range = .ok object) :
    ∃ object', payload st (firstByte st) = .ok object' ∧
      object'.data.length ≤ object.data.length := by
  by_cases hsize : st.2.size = 0
  · -- an empty object is read as a whole only
    cases range with
    | none => exact ⟨object, by rw [firstByte, if_pos hsize, h], le_rfl⟩
    | some range =>
      have hnone : selectedLen st.2.size (some range) = none := by
        rw [selectedLen, if_neg (by omega)]
      rw [payload, if_neg hmarker, hnone] at h
      cases h
  · have hlen : ∀ len, selectedLen st.2.size range = some len → len ≠ 0 := by
      intro len hlen
      cases range with
      | none =>
        cases hlen
        exact hsize
      | some range =>
        rw [selectedLen] at hlen
        split at hlen
        · dsimp only at hlen
          split at hlen
          · cases hlen
            exact Nat.succ_ne_zero _
          · cases hlen
        · cases hlen
    rw [payload, if_neg hmarker] at h
    split at h
    · cases h
    next len hselected =>
    split at h
    · cases h
    rw [if_neg (hlen len hselected)] at h
    dsimp only at h
    split at h
    · cases h
    · cases h
    next data hread =>
    have hne : st.1 ≠ [] := readRange_ok hread
    split at h
    · cases h
    next hdata =>
    cases h
    have hdata' : data.length = len := not_not.1 hdata
    have hselected' : selectedLen st.2.size (some (0, some 0)) = some 1 := by
      rw [selectedLen, if_pos (Nat.pos_of_ne_zero hsize)]
      simp
    have hone : (st.1.take 1).length = 1 := by
      rw [List.length_take]
      have := List.length_pos_iff.2 hne
      omega
    refine ⟨{ st.2 with data := st.1.take 1 }, ?_, ?_⟩
    · rw [firstByte, if_neg hsize, payload, if_neg hmarker, hselected']
      have hlimit : ¬ 1 > materializationLimit := by decide
      dsimp only
      rw [if_neg hlimit, if_neg one_ne_zero, Option.getD_some]
      dsimp only
      rw [Option.map_some, Option.getD_some, Nat.zero_min, readRange_firstByte hsize hne]
      dsimp only
      rw [if_neg (not_not.2 hone)]
    · have := hlen len hselected
      show (st.1.take 1).length ≤ data.length
      omega

end Payload

/-! ### Plain copies -/

/-- A request with nothing in it that a copy could be refused for: no header but the source and the
range, and no parameter but the part. -/
structure IsPlainCopy (req : Request) : Prop where
  header : ∀ name, name ≠ "x-amz-copy-source" → name ≠ "x-amz-copy-source-range" →
    req.header name = none
  query : ∀ name, name ≠ "uploadId" → name ≠ "partNumber" → req.has name = false

namespace IsPlainCopy

variable {C : Codec} {now : Time} {authorize : Permissions} {V : Vault} {bucket key : Text}
  {req : Request} {object : Object} (h : IsPlainCopy req)

include h

theorem checksumRequested : checksumRequested req = false := by
  have hkeys : req.headers.keys.any (startsWith "x-amz-checksum-") = false := by
    rw [List.any_eq_false]
    intro name hname hstart
    have hsome := Table.mem_keys.1 hname
    by_cases hsource : name = "x-amz-copy-source"
    · rw [hsource] at hstart
      revert hstart
      decide
    · by_cases hrange : name = "x-amz-copy-source-range"
      · rw [hrange] at hstart
        revert hstart
        decide
      · have hnone : req.headers[name]? = none := h.header name hsource hrange
        rw [hnone] at hsome
        cases hsome
  rw [S3.checksumRequested, hkeys, h.header "x-amz-sdk-checksum-algorithm" (by decide) (by decide),
    h.header "x-amz-trailer" (by decide) (by decide), chunked,
    h.header "content-encoding" (by decide) (by decide),
    h.header "x-amz-content-sha256" (by decide) (by decide)]
  rfl

/-- Nothing in a plain request is refused at the destination. -/
theorem destinationAdmitted (hwrite : MayWrite C now authorize V bucket key) :
    DestinationAdmitted C now ⟨authorize, none⟩ bucket key req V where
  authorised := hwrite.authorised
  presigned := rfl
  bucketExists := hwrite.bucketExists
  noObjectLockSubresource := by
    rw [unsupportedObjectLock, h.query "retention" (by decide) (by decide),
      h.query "legal-hold" (by decide) (by decide)]
    exact Bool.false_ne_true
  noVersionTagging := by
    rw [versionTagging, h.query "tagging" (by decide) (by decide)]
    exact Bool.false_ne_true
  noConflict := hwrite.noConflict
  noChecksum := by
    rw [h.checksumRequested]
    exact Bool.false_ne_true
  document := by
    rw [validateDocument, h.query "tagging" (by decide) (by decide),
      h.query "acl" (by decide) (by decide)]
    rfl
  objectLock := by
    rw [validateObjectLockPut, h.header "x-amz-object-lock-mode" (by decide) (by decide),
      h.header "x-amz-object-lock-retain-until-date" (by decide) (by decide),
      h.header "x-amz-object-lock-legal-hold" (by decide) (by decide)]
    rfl
  unlocked := hwrite.unlocked
  conditionals := by
    unfold checkPutConditionals
    rw [h.header "if-match" (by decide) (by decide),
      h.header "if-unmodified-since" (by decide) (by decide),
      h.header "if-none-match" (by decide) (by decide)]
    split
    · rfl
    · rfl

theorem checkCopyConditionals : checkCopyConditionals C req object = .ok () := by
  rw [S3.checkCopyConditionals, h.header "x-amz-copy-source-if-match" (by decide) (by decide),
    h.header "x-amz-copy-source-if-none-match" (by decide) (by decide),
    h.header "x-amz-copy-source-if-modified-since" (by decide) (by decide),
    h.header "x-amz-copy-source-if-unmodified-since" (by decide) (by decide)]
  rfl

theorem objectCopyAdmitted (hrange : req.header "x-amz-copy-source-range" = none) :
    ObjectCopyAdmitted C bucket key req V object where
  contract := by
    rw [validateCopyContract, h.header "if-none-match" (by decide) (by decide), hrange]
    simp only [List.forM_eq_forM, List.forM_cons, List.forM_nil,
      h.header "x-amz-metadata-directive" (by decide) (by decide),
      h.header "x-amz-tagging-directive" (by decide) (by decide)]
    rfl
  tags := by
    rw [copyTags, h.header "x-amz-tagging" (by decide) (by decide),
      h.header "x-amz-tagging-directive" (by decide) (by decide)]
    exact ⟨object.tags, if_pos (by decide)⟩
  contracts := by
    refine ⟨[], ?_⟩
    rw [contractEdits, serverSideEdits, customerKeyEdits, objectLockEdits,
      h.header "x-amz-server-side-encryption" (by decide) (by decide),
      h.header "x-amz-server-side-encryption-customer-algorithm" (by decide) (by decide),
      h.header "x-amz-server-side-encryption-customer-key" (by decide) (by decide),
      h.header "x-amz-server-side-encryption-customer-key-md5" (by decide) (by decide),
      h.header "x-amz-object-lock-mode" (by decide) (by decide),
      h.header "x-amz-object-lock-retain-until-date" (by decide) (by decide),
      h.header "x-amz-object-lock-legal-hold" (by decide) (by decide)]
    rfl
  condition := by
    rw [mutationCondition, h.header "if-match" (by decide) (by decide),
      h.header "if-none-match" (by decide) (by decide)]
    rfl

end IsPlainCopy

/-- A `CopyObject` with no header but the source. -/
def plainCopy (bucket key : Text) (header : String) : Request where
  route := .objectPut bucket key
  headers := (∅ : Table String String).set "x-amz-copy-source" (some header)

/-- An `UploadPartCopy` with no header but the source, and perhaps a range. -/
def plainPartCopy (bucket key : Text) (u header : String) (range : Option String) : Request where
  route := .objectPut bucket key
  query := ((∅ : Table String String).set "uploadId" (some u)).set "partNumber" (some "1")
  headers := ((∅ : Table String String).set "x-amz-copy-source" (some header)).set
    "x-amz-copy-source-range" range

section Plain

variable {bucket key : Text} {header u : String} {range : Option String}

theorem plainCopy_isPlain : IsPlainCopy (plainCopy bucket key header) where
  header name hsource _ := by
    rw [Request.header, plainCopy, Table.getElem?_set, if_neg hsource]
    exact Std.ExtTreeMap.getElem?_empty
  query _ _ _ := Std.ExtTreeMap.contains_empty

theorem plainCopy_isCopy : IsCopy (plainCopy bucket key header) header := by
  refine ⟨?_, ?_, ?_⟩
  · rw [plainCopy_isPlain.query "tagging" (by decide) (by decide)]
    exact Bool.false_ne_true
  · rw [plainCopy_isPlain.query "acl" (by decide) (by decide)]
    exact Bool.false_ne_true
  · rw [Request.header, plainCopy, Table.getElem?_set, if_pos rfl]

theorem plainPartCopy_isPlain : IsPlainCopy (plainPartCopy bucket key u header range) where
  header name hsource hrange := by
    rw [Request.header, plainPartCopy, Table.getElem?_set, if_neg hrange, Table.getElem?_set,
      if_neg hsource]
    exact Std.ExtTreeMap.getElem?_empty
  query name hupload hpart := by
    rw [Request.has, plainPartCopy, Std.ExtTreeMap.contains_eq_isSome_getElem?, Table.getElem?_set,
      if_neg hpart, Table.getElem?_set, if_neg hupload, Std.ExtTreeMap.getElem?_empty]
    rfl

theorem plainPartCopy_isCopy : IsCopy (plainPartCopy bucket key u header range) header := by
  refine ⟨?_, ?_, ?_⟩
  · rw [plainPartCopy_isPlain.query "tagging" (by decide) (by decide)]
    exact Bool.false_ne_true
  · rw [plainPartCopy_isPlain.query "acl" (by decide) (by decide)]
    exact Bool.false_ne_true
  · rw [Request.header, plainPartCopy, Table.getElem?_set, if_neg (by decide), Table.getElem?_set,
      if_pos rfl]

end Plain

/-! ### Which sources are copied -/

section Copies

variable {E : Env} {C : Codec} {now : Time} {rest : Operation → Handler Unit}
  {authorize : Permissions} {presigned : Option Refusal} {bucket key : Text} {header u : String}
  {limit : Option ℕ} {source : CopySource} {req : Request} {V : Vault}

/-- What is checked at the destination is more than that the caller may write there. -/
theorem DestinationAdmitted.mayWrite
    (h : DestinationAdmitted C now ⟨authorize, presigned⟩ bucket key req V) :
    MayWrite C now authorize V bucket key :=
  ⟨h.authorised, h.bucketExists, h.noConflict, h.unlocked⟩

theorem SourceAdmitted.copyable {object : Object} (h : SourceAdmitted C now req none V source object) :
    Copyable C now V source := by
  obtain ⟨st, hst, -, hpayload⟩ := h.found
  exact ⟨h.noConflict, st, object, hst, payload_marker hpayload ▸ h.notMarker, hpayload⟩

theorem SourceAdmitted.partCopyable {range : Option Range} {object : Object}
    (h : SourceAdmitted C now req range V source object)
    (hlimit : ¬ limit.any (· < object.data.length)) : PartCopyable C now V limit source := by
  obtain ⟨st, hst, -, hpayload⟩ := h.found
  have hmarker : ¬ st.2.isDeleteMarker := payload_marker hpayload ▸ h.notMarker
  obtain ⟨object', hfirst, hle⟩ := payload_firstByte hmarker hpayload
  refine ⟨h.noConflict, st, object', hst, hmarker, hfirst, fun hany ↦ hlimit ?_⟩
  obtain ⟨n, hn, hlt⟩ := (Option.any_eq_true _ _).1 hany
  refine (Option.any_eq_true _ _).2 ⟨n, hn, ?_⟩
  exact decide_eq_true (lt_of_lt_of_le (of_decide_eq_true hlt) hle)

/-- **What can be copied is copied by a plain request**, if the caller may write somewhere. -/
theorem exists_plainCopy_ok (hwrite : MayWrite C now authorize V bucket key)
    (hsource : parseCopySource C header = .ok source) (hcopyable : Copyable C now V source) :
    ∃ V', handleObjectPut E C now (copies E C now rest bucket key (plainCopy bucket key header))
      ⟨authorize, none⟩ bucket key (plainCopy bucket key header) V = (.ok (), V') := by
  have hplain : IsPlainCopy (plainCopy bucket key header) := plainCopy_isPlain
  obtain ⟨st, object, hst, hmarker, hpayload⟩ := hcopyable.found
  refine (handleObjectPut_copy_ok plainCopy_isCopy).2
    ⟨source, hsource, hplain.destinationAdmitted hwrite, ?_⟩
  rw [if_neg (by rw [Request.has, plainCopy, Std.ExtTreeMap.contains_empty]; exact Bool.false_ne_true)]
  refine ⟨object, ⟨hcopyable.noConflict, ⟨st, hst, hplain.checkCopyConditionals, hpayload⟩, ?_,
    hplain.checkCopyConditionals⟩, hplain.objectCopyAdmitted ?_⟩
  · rwa [payload_marker hpayload]
  · rw [Request.header, plainCopy, Table.getElem?_set, if_neg (by decide)]
    exact Std.ExtTreeMap.getElem?_empty

/-- The header for the first byte of an object, if it has one. -/
def firstByteHeader (st : Stored) : Option String := if st.2.size = 0 then none else some "bytes=0-0"

theorem copySourceRange_firstByte {st : Stored} :
    copySourceRange (plainPartCopy bucket key u header (firstByteHeader st)) = .ok (firstByte st) := by
  have hheader : (plainPartCopy bucket key u header (firstByteHeader st)).header
      "x-amz-copy-source-range" = firstByteHeader st := by
    rw [Request.header, plainPartCopy, Table.getElem?_set, if_pos rfl]
  rw [copySourceRange, hheader, firstByteHeader, firstByte]
  split
  · next h =>
    split at h
    · next hsize => rw [if_pos hsize]
    · cases h
  · next value h =>
    split at h
    · cases h
    · next hsize =>
      cases h
      rw [if_neg hsize]
      decide

/-- **What can be copied a part of** is copied a part of by a plain request, if the caller has an
upload where he may write. -/
theorem exists_plainPartCopy_ok (hwrite : MayWrite C now authorize V bucket key)
    (hparts : TakesParts V bucket key u limit) (hsource : parseCopySource C header = .ok source)
    (hcopyable : PartCopyable C now V limit source) :
    ∃ range V', handleObjectPut E C now
      (copies E C now rest bucket key (plainPartCopy bucket key u header range)) ⟨authorize, none⟩
        bucket key (plainPartCopy bucket key u header range) V = (.ok (), V') := by
  obtain ⟨st, object, hst, hmarker, hpayload, hlimit⟩ := hcopyable.found
  obtain ⟨B, upload, hB, hupload, hkey, hcrc, rfl⟩ := hparts
  have hplain : IsPlainCopy (plainPartCopy bucket key u header (firstByteHeader st)) :=
    plainPartCopy_isPlain
  have hid : (plainPartCopy bucket key u header (firstByteHeader st)).queryParam "uploadId" =
      some u := by
    rw [Request.queryParam, plainPartCopy, Table.getElem?_set, if_neg (by decide),
      Table.getElem?_set, if_pos rfl]
  have hnumber : (plainPartCopy bucket key u header (firstByteHeader st)).queryParam "partNumber" =
      some "1" := by
    rw [Request.queryParam, plainPartCopy, Table.getElem?_set, if_pos rfl]
  have hhas : (plainPartCopy bucket key u header (firstByteHeader st)).has "uploadId" = true := by
    rw [Request.has, Std.ExtTreeMap.contains_eq_isSome_getElem?]
    exact congrArg Option.isSome hid
  refine ⟨firstByteHeader st, (handleObjectPut_copy_ok plainPartCopy_isCopy).2
    ⟨source, hsource, hplain.destinationAdmitted hwrite, ?_⟩⟩
  rw [if_pos (by rw [hhas, hnumber]; rfl)]
  refine ⟨firstByte st, object, ⟨hcopyable.noConflict,
    ⟨st, hst, hplain.checkCopyConditionals, hpayload⟩, ?_, hplain.checkCopyConditionals⟩, ?_⟩
  · rwa [payload_marker hpayload]
  · refine ⟨⟨B, upload, hB, ?_, hkey, hcrc, hlimit⟩, copySourceRange_firstByte, ?_⟩
    · rw [hid]
      exact hupload
    · rw [requestPartNumber, hnumber]
      decide

/-- **A copy that succeeds is of a source that could be copied**, by what the store and the caller
are. -/
theorem SourcesReadable.mayReadSource (h : SourcesReadable C now authorize V)
    (hreq : IsCopy req header)
    (hok : ∃ V', handleObjectPut E C now (copies E C now rest bucket key req)
      ⟨authorize, presigned⟩ bucket key req V = (.ok (), V')) :
    MayReadSource C authorize header := by
  obtain ⟨source, hsource, hdestination, hcopy⟩ := (handleObjectPut_copy_ok hreq).1 hok
  refine ⟨source, hsource, ?_⟩
  split at hcopy
  · obtain ⟨range, object, hadmitted, hpart⟩ := hcopy
    obtain ⟨B, upload, hB, hupload, hkey, hcrc, hlimit⟩ := hpart.upload
    exact h.part bucket key _ _ header source hdestination.mayWrite
      ⟨B, upload, hB, hupload, hkey, hcrc, rfl⟩ hsource (hadmitted.partCopyable hlimit)
  · obtain ⟨object, hadmitted, -⟩ := hcopy
    exact h.object bucket key header source hdestination.mayWrite hsource hadmitted.copyable

theorem MayReadSource.authorised (h : MayReadSource C authorize header)
    (hsource : parseCopySource C header = .ok source) :
    authorize source.bucket ⟨"s3:GetObject", some source.key⟩ = none := by
  obtain ⟨source', hsource', hread⟩ := h
  obtain rfl : source' = source := Except.ok.inj (hsource'.symm.trans hsource)
  exact hread

/-- **The copies of a caller are all of sources that he may read** exactly if he may read all that he
could copy. -/
theorem copies_readable_iff :
    (∀ presigned bucket key req header, IsCopy req header →
      (∃ V', handleObjectPut E C now (copies E C now rest bucket key req) ⟨authorize, presigned⟩
        bucket key req V = (.ok (), V')) → MayReadSource C authorize header) ↔
      SourcesReadable C now authorize V := by
  constructor
  · intro h
    constructor
    · intro bucket key header source hwrite hsource hcopyable
      exact (h none bucket key _ header plainCopy_isCopy
        (exists_plainCopy_ok hwrite hsource hcopyable)).authorised hsource
    · intro bucket key u limit header source hwrite hparts hsource hcopyable
      obtain ⟨range, hok⟩ := exists_plainPartCopy_ok hwrite hparts hsource hcopyable
      exact (h none bucket key _ header plainPartCopy_isCopy hok).authorised hsource
  · intro h presigned bucket key req header hreq hok
    exact h.mayReadSource hreq hok

end Copies

end Sqrzl.S3
