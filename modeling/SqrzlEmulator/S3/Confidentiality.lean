import SqrzlEmulator.S3.CopySources
import SqrzlEmulator.S3.ObjectGet
import SqrzlEmulator.Storage.Concealed

/-!
# Confidentiality of the sources of copies

What the handlers of the S3 front door look at in a store are metadata, and the bytes of objects that
the caller may read, with one exception: a copy reads its source without asking whether he may. Two
stores that differ only in the bytes of objects that he may not read (`Vault.Twin`) are therefore
**the same to him as long as he may read all that he could copy** (`copy_source_authorised_iff`), and
not always otherwise (`private_object_copied`).

`object_get` and `object_put` are followed through their steps here. What they do besides, and the
other handlers, are asked to show no bytes that the caller may not read. What the caller may do is the
same throughout a run.
-/

namespace Sqrzl.S3

open Prog Atomic

/-! ### What twins answer -/

/-- The caller may not read an object. -/
def unread (authorize : Permissions) (b : String) (key : Text) : Bool :=
  (authorize b.toList ⟨"s3:GetObject", some key⟩).isSome

theorem unread_eq_false {authorize : Permissions} {bucket key : Text} :
    unread authorize (String.ofList bucket) key = false ↔
      authorize bucket ⟨"s3:GetObject", some key⟩ = none := by
  rw [unread, String.toList_ofList, Option.isSome_eq_false_iff, Option.isNone_iff_eq_none]

section Twins

variable {E : Env} {C : Codec} {parseDate : String → Option Time} {now : Time}
  {hidden : String → Text → Bool} {V W : Vault} {b : String} {bucket key : Text} {req : Request}
  {existing : Option Object} {G : Gate}

/-- Foreign history is seen in metadata. -/
theorem foreignHistoryConflict_congr (h : Vault.Twin hidden V W) :
    foreignHistoryConflict C now b V = foreignHistoryConflict C now b W := by
  have hany : ∀ V : Vault, foreignHistoryConflict C now b V = ((V.buckets[b]?.map fun B ↦
      B.objects.toList.any (fun r ↦ r.2.metadata.any (hasActiveAzureProtection C now)) ||
        hasForeignDataProtection B).getD false) := by
    intro V
    rw [foreignHistoryConflict]
    cases V.buckets[b]? <;> rfl
  rw [hany, hany, h.bucket_congr b]
  intro B
  exact congrArg (· || hasForeignDataProtection B) Bucket.any_metadata_conceal

theorem validateObjectLockPut_conceal {o : Option Bucket} {hide : Text → Bool} :
    validateObjectLockPut C now (o.map (Bucket.conceal hide)) req =
      validateObjectLockPut C now o req := by
  cases o <;> rfl

theorem preservesCurrentVersion_conceal {o : Option Bucket} {hide : Text → Bool} {current : Object} :
    preservesCurrentVersion (o.map (Bucket.conceal hide)) current =
      preservesCurrentVersion o current := by
  cases o <;> rfl

theorem preservesCurrentVersion_congr (h : Vault.Twin hidden V W) (current : Object) :
    preservesCurrentVersion V.buckets[b]? current = preservesCurrentVersion W.buckets[b]? current := by
  rw [← preservesCurrentVersion_conceal, h.bucket, preservesCurrentVersion_conceal]

/-- A refusal for a reason outside the store. -/
theorem Alike.refuse_bind {α : Type} {R : Vault → Vault → Prop} {response : Option Refusal}
    {f f' : Unit → Handler α} (h : R V W) (hf : Alike R (f () V) (f' () W)) :
    Alike R ((refuse response >>= f) V) ((refuse response >>= f') W) := by
  cases response with
  | none => exact hf
  | some response => exact ⟨rfl, h⟩

/-- The checks of `object_put` see no bytes. -/
theorem alike_admitObjectPut (h : Vault.Twin hidden V W) :
    Alike (Vault.Twin hidden) (admitObjectPut C now G bucket key req V)
      (admitObjectPut C now G bucket key req W) := by
  have hmissing : V.buckets[String.ofList bucket]?.isNone = W.buckets[String.ofList bucket]?.isNone := by
    have hmap := congrArg Option.isNone (h.bucket (String.ofList bucket))
    rwa [Option.isNone_map, Option.isNone_map] at hmap
  have hlock : validateObjectLockPut C now V.buckets[String.ofList bucket]? req =
      validateObjectLockPut C now W.buckets[String.ofList bucket]? req := by
    rw [← validateObjectLockPut_conceal, h.bucket, validateObjectLockPut_conceal]
  have hlocked : ∀ existing : Option Object,
      (existing.any fun existing ↦ objectIsLocked C now existing &&
        !preservesCurrentVersion V.buckets[String.ofList bucket]? existing) =
      existing.any fun existing ↦ objectIsLocked C now existing &&
        !preservesCurrentVersion W.buckets[String.ofList bucket]? existing := by
    intro existing
    simp only [preservesCurrentVersion_congr h]
  unfold admitObjectPut
  refine Alike.refuse_bind h (Alike.refuse_bind h (.view_bind ?_))
  refine .refuseIf_bind (by rw [hmissing]) h fun _ ↦ .refuseIf_bind Iff.rfl h fun _ ↦
    .refuseIf_bind Iff.rfl h fun _ ↦ .view_bind ?_
  refine .refuseIf_bind (by rw [foreignHistoryConflict_congr h]) h fun _ ↦
    .refuseIf_bind Iff.rfl h fun _ ↦ .ofExcept_bind rfl h fun _ _ ↦ .ofExcept_bind hlock h fun _ _ ↦ ?_
  refine .view_bind (.refuseIf_bind (by rw [hlocked, h.metadata]) h fun _ ↦ ?_)
  exact .ofExcept_bind (by rw [h.metadata]) h fun _ _ ↦ ⟨congrArg Except.ok (h.metadata _ _), h⟩

/-- What is stored under a condition of the request. -/
theorem blind_storePutObject {object : Object} :
    Blind (Vault.Twin hidden) (storePutObject E b key req object) := by
  intro V W h
  unfold storePutObject
  refine .refuseIf_bind Iff.rfl h fun _ ↦ .view_bind (.refuseIf_bind (by rw [h.metadata]) h fun _ ↦ ?_)
  cases mutationCondition req with
  | some condition =>
    exact Blind.bind (.mapError (Vault.blind_mutateIf Vault.blind_putObject))
      (fun _ ↦ .refuseIf) _ _ h
  | none => exact Blind.mapError Vault.blind_putObject _ _ h

theorem objectToPut_conceal {o : Option Bucket} {hide : Text → Bool} :
    objectToPut E C now (o.map (Bucket.conceal hide)) key req existing =
      objectToPut E C now o key req existing := by
  have hinherited : inherited (o.map (Bucket.conceal hide)) existing = inherited o existing := by
    cases existing with
    | none => rfl
    | some existing => simp only [inherited, preservesCurrentVersion_conceal]
  rw [objectToPut, objectToPut, hinherited]

/-- `PutObject` sees no bytes. -/
theorem blind_putObjectBody :
    Blind (Vault.Twin hidden) (putObjectBody E C now bucket key req existing) := by
  intro V W h
  unfold putObjectBody
  refine .ofExcept_bind rfl h fun _ _ ↦ .ofExcept_bind rfl h fun _ _ ↦ .ofExcept_bind rfl h fun _ _ ↦
    .view_bind (.ofExcept_bind ?_ h fun object _ ↦ blind_storePutObject _ _ h)
  rw [← objectToPut_conceal, h.bucket, objectToPut_conceal]

/-! ### Sources in twins -/

/-- An object with the bytes that it carries blotted out. -/
def blankObject (o : Object) : Object := { o with data := List.replicate o.data.length 0 }

theorem readRange_veil (hide : Bool) (st : Stored) (start : ℕ) (last : Option ℕ) :
    (readRange (KeyRecord.veil hide st) start last).map List.length =
      (readRange st start last).map List.length := by
  unfold readRange
  rw [KeyRecord.veil_snd, KeyRecord.length_veil]
  split
  · rfl
  · dsimp only
    split
    · rfl
    · split
      · rfl
      · simp [Except.map]

/-- **What a payload is, apart from its bytes**, is the same when the bytes are blotted out. -/
theorem payload_veil {hide : Bool} {st : Stored} {range : Option Range} :
    (payload (KeyRecord.veil hide st) range).map blankObject = (payload st range).map blankObject := by
  unfold payload
  rw [KeyRecord.veil_snd]
  split
  · rfl
  cases selectedLen st.2.size range with
  | none => rfl
  | some len =>
    dsimp only
    split
    · rfl
    split
    · rfl
    generalize range.getD (0, none) = bytes
    generalize hlast : some ((bytes.2.map
      (min · (min (bytes.1 + (materializationLimit - 1)) (2 ^ 64 - 1)))).getD
        (min (bytes.1 + (materializationLimit - 1)) (2 ^ 64 - 1))) = last
    have hlength := readRange_veil hide st bytes.1 last
    cases hveil : readRange (KeyRecord.veil hide st) bytes.1 last with
    | error e =>
      cases hread : readRange st bytes.1 last with
      | error e' =>
        rw [hveil, hread] at hlength
        cases Except.error.inj hlength
        cases e <;> rfl
      | ok data =>
        rw [hveil, hread] at hlength
        cases hlength
    | ok data =>
      cases hread : readRange st bytes.1 last with
      | error e' =>
        rw [hveil, hread] at hlength
        cases hlength
      | ok data' =>
        rw [hveil, hread] at hlength
        have hsame : data.length = data'.length := Except.ok.inj hlength
        dsimp only
        rw [hsame]
        split
        · rfl
        · exact congrArg Except.ok (by rw [blankObject, blankObject, hsame])

/-- Two results that agree through `f` are handled alike by what sees no more than `f` does. -/
theorem map_bind_congr {α β γ δ : Type} {x y : Except Refusal α} {f : α → β}
    {k : α → Except Refusal γ} {g : γ → δ} (h : x.map f = y.map f)
    (hk : ∀ a b, f a = f b → (k a).map g = (k b).map g) : (x.bind k).map g = (y.bind k).map g := by
  cases x with
  | error e =>
    cases y with
    | error e' =>
      cases Except.error.inj h
      rfl
    | ok b => cases h
  | ok a =>
    cases y with
    | error e => cases h
    | ok b => exact hk a b (Except.ok.inj h)

/-- What is checked of the object that a copy has read. -/
def finishSource (C : Codec) (req : Request) (object : Object) : Except Refusal Object :=
  if object.isDeleteMarker then
    .error ⟨400, "InvalidRequest",
      "The source of a copy request may not refer to a delete marker."⟩
  else
    (checkCopyConditionals C req object).map fun _ ↦ object

theorem finishSource_blank {object object' : Object}
    (h : blankObject object = blankObject object') :
    (finishSource C req object).map blankObject = (finishSource C req object').map blankObject := by
  have hmarker : object.isDeleteMarker = object'.isDeleteMarker :=
    (congrArg Object.isDeleteMarker h :)
  have hcheck : checkCopyConditionals C req object = checkCopyConditionals C req object' :=
    (congrArg (checkCopyConditionals C req) h :)
  rw [finishSource, finishSource, hmarker, hcheck]
  split
  · rfl
  · cases checkCopyConditionals C req object' with
    | error e => rfl
    | ok u => exact congrArg Except.ok h

/-- What a copy makes of what it has found under the key of its source. -/
def admitSource (C : Codec) (req : Request) (range : Option Range) (found : Except Error Stored) :
    Except Refusal Object :=
  (found.mapError storageErrorResponse).bind fun st ↦
    (checkCopyConditionals C req st.2).bind fun _ ↦ (payload st range).bind (finishSource C req)

theorem readSource_eq {source : CopySource} {range : Option Range} :
    readSource C source range req V =
      (admitSource C req range (V.stored (String.ofList source.bucket) source.key source.versionId),
        V) := by
  have hfinish (object : Object) : (do
      .refuseIf object.isDeleteMarker
        ⟨400, "InvalidRequest", "The source of a copy request may not refer to a delete marker."⟩
      .ofExcept (checkCopyConditionals C req object)
      return object : Handler Object) V = (finishSource C req object, V) := by
    rw [finishSource]
    by_cases hmarker : object.isDeleteMarker = true
    · rw [refuseIf_bind_of hmarker, if_pos hmarker]
    · rw [refuseIf_bind_of_not hmarker, if_neg hmarker]
      cases hcheck : checkCopyConditionals C req object with
      | error e => rw [ofExcept_bind_of_error rfl]; rfl
      | ok u => rfl
  unfold readSource admitSource
  rw [view_bind]
  cases V.stored (String.ofList source.bucket) source.key source.versionId with
  | error e => rfl
  | ok st =>
    show (Atomic.ofExcept (checkCopyConditionals C req st.2) >>= _ : Handler Object) V =
      ((checkCopyConditionals C req st.2).bind fun _ ↦ (payload st range).bind (finishSource C req), V)
    cases hcheck : checkCopyConditionals C req st.2 with
    | error e => rfl
    | ok u =>
      show (Atomic.ofExcept (payload st range) >>= _ : Handler Object) V =
        ((payload st range).bind (finishSource C req), V)
      cases hpayload : payload st range with
      | error e => rfl
      | ok object => exact hfinish object

/-- **What a copy makes of its source** is the same, apart from the bytes, when these are blotted
out. -/
theorem admitSource_veil {hide : Bool} {range : Option Range} {found : Except Error Stored} :
    (admitSource C req range (found.map (KeyRecord.veil hide))).map blankObject =
      (admitSource C req range found).map blankObject := by
  cases found with
  | error e => rfl
  | ok st =>
    show Except.map _ ((checkCopyConditionals C req (KeyRecord.veil hide st).2).bind _) =
      Except.map _ ((checkCopyConditionals C req st.2).bind _)
    rw [KeyRecord.veil_snd]
    cases checkCopyConditionals C req st.2 with
    | error e => rfl
    | ok u => exact map_bind_congr payload_veil fun _ _ ↦ finishSource_blank

/-- A source is read alike in twins, apart from its bytes. -/
theorem readSource_twin (h : Vault.Twin hidden V W) {source : CopySource} {range : Option Range} :
    (readSource C source range req V).1.map blankObject =
      (readSource C source range req W).1.map blankObject := by
  rw [readSource_eq, readSource_eq]
  dsimp only
  rw [← admitSource_veil, h.veil_stored, admitSource_veil]

/-! ### Copies in twins -/

variable {authorize : Permissions} {header : String} {source : CopySource} {range : Option Range}

/-- **A source that the caller may read** is read alike. -/
theorem alike_readSource (h : Vault.Twin hidden V W)
    (hseen : hidden (String.ofList source.bucket) source.key = false) :
    Alike (Vault.Twin hidden) (readSource C source range req V) (readSource C source range req W) := by
  rw [readSource_eq, readSource_eq, h.stored hseen]
  exact ⟨rfl, h⟩

/-- **A source that is not read** in one twin is not read in the other one, for the same reason. -/
theorem alike_readSource_of_error (h : Vault.Twin hidden V W) {e : Refusal}
    (he : (readSource C source range req V).1 = .error e) :
    (readSource C source range req W).1 = .error e := by
  have htwin : (readSource C source range req V).1.map blankObject = _ := readSource_twin h
  rw [he] at htwin
  cases hW : (readSource C source range req W).1 with
  | error e' =>
    rw [hW] at htwin
    exact congrArg _ (Except.error.inj htwin).symm
  | ok object =>
    rw [hW] at htwin
    cases htwin

/-- `CopyObject` is answered alike in twins, if the caller may read all that he could copy. -/
theorem alike_copyObject (h : Vault.Twin (unread authorize) V W)
    (hwrite : MayWrite C now authorize V bucket key) (hread : SourcesReadable C now authorize V) :
    Alike (Vault.Twin (unread authorize)) (copyObject E C now bucket key header req V)
      (copyObject E C now bucket key header req W) := by
  unfold copyObject
  refine .ofExcept_bind rfl h fun source hsource ↦ .view_bind ?_
  refine .refuseIf_bind (by rw [foreignHistoryConflict_congr h]) h fun hconflict ↦ ?_
  refine Alike.bind (R := Vault.Twin (unread authorize)) ?_ fun object V' W' _ _ h ↦ ?_
  · cases hV : (readSource C source none req V).1 with
    | error e =>
      rw [readSource_eq, readSource_eq]
      rw [readSource_eq] at hV
      refine ⟨?_, h⟩
      have hW := alike_readSource_of_error h (by rw [readSource_eq]; exact hV)
      rw [readSource_eq] at hW
      exact hV.trans hW.symm
    | ok object =>
      -- what is copied as a whole may be read
      have hok : readSource C source none req V = (.ok object, V) := by
        rw [readSource_eq] at hV ⊢
        exact Prod.ext hV rfl
      obtain ⟨hfound, hmarker, hconditionals, -⟩ := readSource_ok.1 hok
      have hcopyable : Copyable C now V source :=
        SourceAdmitted.copyable ⟨hconflict, hfound, hmarker, hconditionals⟩
      exact alike_readSource h
        (unread_eq_false.2 (hread.object bucket key header source hwrite hsource hcopyable))
  · refine .ofExcept_bind rfl h fun _ _ ↦ .ofExcept_bind rfl h fun tags _ ↦
      .ofExcept_bind rfl h fun contracts _ ↦ ?_
    unfold storeCopiedObject
    cases mutationCondition req with
    | some condition =>
      exact Blind.bind (.mapError (Vault.blind_mutateIf Vault.blind_putObject))
        (fun _ ↦ .refuseIf) _ _ h
    | none => exact Blind.mapError Vault.blind_putObject _ _ h

/-- What keeps a part out of an upload that is there. -/
theorem uploadPart_refused {B : Bucket} {upload : Upload} {u : String} {n : ℕ} {data : Bytes}
    (hB : V.buckets[b]? = some B) (hupload : B.uploads[u]? = some upload)
    (hrefused : ¬ (1 ≤ n ∧ n ≤ 10000 ∧
      ¬ (upload.record.limit "__sqrzl_multipart_max_part_size").any (· < data.length))) :
    Vault.uploadPart E now b u n data V =
      (.error (if 1 ≤ n ∧ n ≤ 10000 then .entityTooLarge else .invalidPartNumber), V) := by
  have hget : Vault.getUpload b u V = (.ok upload, V) :=
    Vault.getUpload_ok.2 ⟨⟨B, hB, hupload⟩, rfl⟩
  rw [Vault.uploadPart, Vault.getBucket, find_bind_of_some (g := fun V : Vault ↦ V.buckets[b]?) hB]
  by_cases hn : 1 ≤ n ∧ n ≤ 10000
  · have hlarge : (upload.record.limit "__sqrzl_multipart_max_part_size").any
        (· < data.length) = true := by
      by_contra hfits
      exact hrefused ⟨hn.1, hn.2, hfits⟩
    rw [refuseIf_bind_of_not (by simp [hn.1, hn.2]), bind_of_ok hget, refuseIf_bind_of hlarge,
      if_pos hn]
  · have hbad : (!(decide (1 ≤ n) && decide (n ≤ 10000))) = true := by
      rw [← Bool.decide_and, decide_eq_false hn]
      rfl
    rw [refuseIf_bind_of hbad, if_neg hn]

/-- **A part of an object that the caller may not read** is refused alike, if he may read all that he
could copy. -/
theorem alike_copyPart (h : Vault.Twin (unread authorize) V W) {u : String} {B : Bucket}
    {upload : Upload} (hwrite : MayWrite C now authorize V bucket key)
    (hread : SourcesReadable C now authorize V)
    (hB : V.buckets[String.ofList bucket]? = some B) (hupload : B.uploads[u]? = some upload)
    (hkey : upload.record.key = key) (hcrc : ¬ upload.record.usesCrc32c)
    (hsource : parseCopySource C header = .ok source)
    (hconflict : ¬ foreignHistoryConflict C now (String.ofList source.bucket) V) {n : ℕ} :
    Alike (Vault.Twin (unread authorize))
      ((readSource C source range req >>= fun object ↦ (Atomic.mapError storageErrorResponse
        (Vault.uploadPart E now (String.ofList bucket) u n object.data) >>= fun _ ↦ pure ())) V)
      ((readSource C source range req >>= fun object ↦ (Atomic.mapError storageErrorResponse
        (Vault.uploadPart E now (String.ofList bucket) u n object.data) >>= fun _ ↦ pure ())) W) := by
  cases hseen : unread authorize (String.ofList source.bucket) source.key with
  | false =>
    exact (alike_readSource h hseen).bind fun object V' W' _ _ h ↦
      Blind.bind (.mapError Vault.blind_uploadPart) (fun _ ↦ .pure) _ _ h
  | true =>
    cases hV : (readSource C source range req V).1 with
    | error e =>
      have hW := alike_readSource_of_error h hV
      rw [readSource_eq] at hV hW
      rw [bind_of_error (readSource_eq.trans (Prod.ext hV rfl)),
        bind_of_error (readSource_eq.trans (Prod.ext hW rfl))]
      exact ⟨rfl, h⟩
    | ok object =>
      have hokV : readSource C source range req V = (.ok object, V) := by
        rw [readSource_eq] at hV ⊢
        exact Prod.ext hV rfl
      have htwin : (readSource C source range req V).1.map blankObject = _ := readSource_twin h
      rw [hV] at htwin
      cases hW : (readSource C source range req W).1 with
      | error e =>
        rw [hW] at htwin
        cases htwin
      | ok object' =>
        have hokW : readSource C source range req W = (.ok object', W) := by
          rw [readSource_eq] at hW ⊢
          exact Prod.ext hW rfl
        rw [hW] at htwin
        have hlength : object.data.length = object'.data.length := by
          have hblank : blankObject object = blankObject object' := Except.ok.inj htwin
          have hdata := congrArg (fun o : Object ↦ o.data.length) hblank
          simpa [blankObject] using hdata
        -- a part that would be accepted is of an object that the caller may read
        have hrefused : ¬ (1 ≤ n ∧ n ≤ 10000 ∧
            ¬ (upload.record.limit "__sqrzl_multipart_max_part_size").any
              (· < object.data.length)) := by
          rintro ⟨-, -, hlimit⟩
          obtain ⟨hfound, hmarker, hconditionals, -⟩ := readSource_ok.1 hokV
          have hcopyable := SourceAdmitted.partCopyable ⟨hconflict, hfound, hmarker, hconditionals⟩
            hlimit
          have hmay := hread.part bucket key u _ header source hwrite
            ⟨B, upload, hB, hupload, hkey, hcrc, rfl⟩ hsource hcopyable
          rw [unread_eq_false.2 hmay] at hseen
          cases hseen
        obtain ⟨B', hB', hsame⟩ := h.exists_bucket hB
        have huploads : B.uploads = B'.uploads := (congrArg Bucket.uploads hsame :)
        rw [bind_of_ok hokV, bind_of_ok hokW, Atomic.bind_eq, Atomic.bind_eq, Atomic.bind, Atomic.bind,
          Atomic.mapError, Atomic.mapError, uploadPart_refused hB hupload hrefused,
          uploadPart_refused hB' (huploads ▸ hupload) (hlength ▸ hrefused)]
        exact ⟨rfl, h⟩

/-- `UploadPartCopy` is answered alike in twins, if the caller may read all that he could copy. -/
theorem alike_uploadPartCopy (h : Vault.Twin (unread authorize) V W)
    (hwrite : MayWrite C now authorize V bucket key) (hread : SourcesReadable C now authorize V) :
    Alike (Vault.Twin (unread authorize)) (uploadPartCopy E C now bucket key header req V)
      (uploadPartCopy E C now bucket key header req W) := by
  unfold uploadPartCopy
  refine (Blind.mapError Vault.blind_getUpload _ _ h).bind fun upload V' W' hV hW _ ↦ ?_
  obtain ⟨⟨B, hB, hupload⟩, rfl⟩ := Vault.getUpload_ok.1 (mapError_ok.1 hV)
  obtain ⟨-, rfl⟩ := Vault.getUpload_ok.1 (mapError_ok.1 hW)
  refine .refuseIf_bind Iff.rfl h fun hkey ↦ .refuseIf_bind Iff.rfl h fun hcrc ↦
    .ofExcept_bind rfl h fun source hsource ↦ .view_bind ?_
  refine .refuseIf_bind (by rw [foreignHistoryConflict_congr h]) h fun hconflict ↦
    .ofExcept_bind rfl h fun range _ ↦ ?_
  exact alike_copyPart h hwrite hread hB hupload (not_not.1 hkey) hcrc hsource hconflict

/-! ### Reads in twins -/

/-- An object that expires does so in both twins: what is looked at is its metadata. -/
theorem blind_checkObjectExpiration {rules : Option (List Lifecycle.Rule)} :
    Blind (Vault.Twin hidden) (checkObjectExpiration E C parseDate now rules b key) := by
  intro V W h
  unfold checkObjectExpiration
  cases rules with
  | none => exact ⟨rfl, h⟩
  | some rules =>
    refine Vault.alike_getBucket_bind h fun B B' hsame ↦ ?_
    have hmetadata : B.metadata = B'.metadata := (congrArg Bucket.metadata hsame :)
    have hforeign : Lifecycle.foreignProviderDataProtectionActive B =
        Lifecycle.foreignProviderDataProtectionActive B' := by
      rw [Lifecycle.foreignProviderDataProtectionActive,
        Lifecycle.foreignProviderDataProtectionActive, hmetadata]
    rw [hforeign]
    by_cases hactive : Lifecycle.foreignProviderDataProtectionActive B' = true
    · rw [if_pos hactive]
      exact ⟨rfl, h⟩
    rw [if_neg hactive]
    refine (Blind.find fun V W h ↦ h.metadata b key) _ _ h |>.bind fun o V W _ _ h ↦ ?_
    by_cases hprotected : Lifecycle.objectHasActiveDataProtection C now o = true
    · rw [if_pos hprotected]
      exact ⟨rfl, h⟩
    rw [if_neg hprotected]
    split
    · exact Blind.bind Vault.blind_deleteObject (fun _ ↦ .pure) _ _ h
    · exact ⟨rfl, h⟩

/-- The checks of `object_get` see no bytes. -/
theorem alike_admitObjectGet {rules : Option (List Lifecycle.Rule)} (h : Vault.Twin hidden V W) :
    Alike (Vault.Twin hidden) (admitObjectGet E C parseDate now G rules bucket key req V)
      (admitObjectGet E C parseDate now G rules bucket key req W) := by
  have hmissing : V.buckets[String.ofList bucket]?.isNone = W.buckets[String.ofList bucket]?.isNone := by
    have hmap := congrArg Option.isNone (h.bucket (String.ofList bucket))
    rwa [Option.isNone_map, Option.isNone_map] at hmap
  unfold admitObjectGet
  refine Alike.refuse_bind h (Alike.refuse_bind h (.view_bind ?_))
  refine .refuseIf_bind (by rw [hmissing]) h fun _ ↦ .refuseIf_bind Iff.rfl h fun _ ↦
    .refuseIf_bind Iff.rfl h fun _ ↦ .view_bind ?_
  refine .refuseIf_bind (by rw [foreignHistoryConflict_congr h]) h fun _ ↦ ?_
  exact Blind.bind (.attempt blind_checkObjectExpiration) (fun _ ↦ .refuseIf) _ _ h

theorem currentDeleteMarker_congr (h : Vault.Twin hidden V W) :
    currentDeleteMarker b key V = currentDeleteMarker b key W := by
  rw [currentDeleteMarker, currentDeleteMarker, h.list]

/-- An object that is not hidden is read alike, as a whole. -/
theorem alike_objectFullResponse (h : Vault.Twin hidden V W) (hseen : hidden b key = false) :
    Alike (Vault.Twin hidden) (objectFullResponse C b key req V) (objectFullResponse C b key req W) := by
  unfold objectFullResponse
  refine .view_bind ?_
  rw [h.stored hseen]
  refine .ofExcept_bind rfl h fun _ _ ↦ ?_
  cases (Except.mapError storageErrorResponse (W.stored b key none)).bind (payload · none) with
  | ok o => exact ⟨rfl, h⟩
  | error response => exact .view_bind (by rw [currentDeleteMarker_congr h]; exact ⟨rfl, h⟩)

/-- A version of an object that is not hidden is read alike. -/
theorem alike_objectVersionResponse (h : Vault.Twin hidden V W) (hseen : hidden b key = false)
    {id : String} : Alike (Vault.Twin hidden) (objectVersionResponse C b key id req V)
      (objectVersionResponse C b key id req W) := by
  unfold objectVersionResponse
  refine .ofExcept_bind rfl h fun range _ ↦ .view_bind ?_
  rw [h.stored hseen]
  exact .ofExcept_bind rfl h fun _ _ ↦ .ofExcept_bind rfl h fun _ _ ↦
    .refuseIf_bind Iff.rfl h fun _ ↦ ⟨rfl, h⟩

/-- A part of an object that is not hidden is read alike. -/
theorem alike_objectRangeResponse (h : Vault.Twin hidden V W) (hseen : hidden b key = false)
    {value : String} : Alike (Vault.Twin hidden) (objectRangeResponse C b key req value V)
      (objectRangeResponse C b key req value W) := by
  unfold objectRangeResponse
  cases parseRange value with
  | none => exact ⟨rfl, h⟩
  | some range =>
    refine .view_bind ?_
    rw [h.stored hseen]
    refine .ofExcept_bind rfl h fun _ _ ↦ ?_
    cases (Except.mapError storageErrorResponse (W.stored b key none)).bind
        (payload · (some range)) with
    | ok o => exact ⟨rfl, h⟩
    | error response => exact .view_bind (by rw [currentDeleteMarker_congr h]; exact ⟨rfl, h⟩)

/-- **`object_get` shows no bytes that the caller may not read**, if what it does besides shows
none. -/
theorem blind_handleObjectGet {rules : Option (List Lifecycle.Rule)} {presigned : Option Refusal}
    {others : Operation → Handler ObjectResponse}
    (hothers : ∀ operation, Blind (Vault.Twin (unread authorize)) (others operation)) :
    Blind (Vault.Twin (unread authorize))
      (handleObjectGet E C parseDate now others ⟨authorize, presigned⟩ rules bucket key req) := by
  intro V W h
  unfold handleObjectGet
  by_cases hpreflight : req.isPreflight = true
  · rw [if_pos hpreflight]
    exact hothers _ _ _ h
  rw [if_neg hpreflight]
  refine (alike_admitObjectGet h).bind fun _ V W hV _ h ↦ ?_
  have hseen : unread authorize (String.ofList bucket) key = false :=
    unread_eq_false.2 (refuse_bind_ok.1 hV).1
  by_cases htagging : req.has "tagging" = true
  · rw [if_pos htagging]
    exact hothers _ _ _ h
  rw [if_neg htagging]
  by_cases hacl : req.has "acl" = true
  · rw [if_pos hacl]
    exact hothers _ _ _ h
  rw [if_neg hacl]
  cases req.queryParam "versionId" with
  | some id => exact alike_objectVersionResponse h hseen
  | none =>
    by_cases hupload : req.has "uploadId" = true
    · dsimp only
      rw [if_pos hupload]
      exact hothers _ _ _ h
    dsimp only
    rw [if_neg hupload]
    cases req.header "range" with
    | some range => exact alike_objectRangeResponse h hseen
    | none => exact alike_objectFullResponse h hseen

/-- **`object_put` shows no bytes that the caller may not read**, if what it does besides shows none
and the caller may read all that he could copy. -/
theorem alike_handleObjectPut {presigned : Option Refusal} {rest : Operation → Handler Unit}
    (hrest : ∀ operation, Blind (Vault.Twin (unread authorize)) (rest operation))
    (h : Vault.Twin (unread authorize) V W)
    (hread : (req.header "x-amz-copy-source").isSome → SourcesReadable C now authorize V) :
    Alike (Vault.Twin (unread authorize))
      (handleObjectPut E C now (copies E C now rest bucket key req) ⟨authorize, presigned⟩ bucket key
        req V)
      (handleObjectPut E C now (copies E C now rest bucket key req) ⟨authorize, presigned⟩ bucket key
        req W) := by
  unfold handleObjectPut
  refine (alike_admitObjectPut h).bind fun existing V' W' hV hW _ ↦ ?_
  obtain ⟨hadmitted, -, rfl⟩ := admitObjectPut_ok_iff.1 hV
  obtain ⟨-, -, rfl⟩ := admitObjectPut_ok_iff.1 hW
  have hwrite : MayWrite C now authorize V' bucket key := hadmitted.mayWrite
  by_cases htagging : req.has "tagging" = true
  · rw [if_pos htagging]
    exact hrest _ _ _ h
  rw [if_neg htagging]
  by_cases hacl : req.has "acl" = true
  · rw [if_pos hacl]
    exact hrest _ _ _ h
  rw [if_neg hacl]
  by_cases hpart : (req.has "uploadId" && (req.queryParam "partNumber").isSome) = true
  · rw [if_pos hpart]
    by_cases hcopy : (req.header "x-amz-copy-source").isSome = true
    · rw [if_pos hcopy]
      exact alike_uploadPartCopy h hwrite (hread hcopy)
    · rw [if_neg hcopy]
      exact hrest _ _ _ h
  rw [if_neg hpart]
  by_cases hcopy : (req.header "x-amz-copy-source").isSome = true
  · rw [if_pos hcopy]
    exact alike_copyObject h hwrite (hread hcopy)
  · rw [if_neg hcopy]
    exact blind_putObjectBody _ _ h

end Twins

/-! ### Runs -/

/-- What the two handlers do besides reading and writing objects: the documents of tags, access
control lists and parts, and the upload of parts. -/
structure OtherOperations where
  read : Time → Text → Text → Request → Operation → Handler ObjectResponse
  write : Time → Text → Text → Request → Operation → Handler Unit

/-- A request of the caller. The answers of `verify_presigned_url` and of `get_bucket_lifecycle` come
with it, and a request for another handler is that handler. -/
inductive Call where
  | get (now : Time) (presigned : Option Refusal) (rules : Option (List Lifecycle.Rule))
      (bucket key : Text) (req : Request)
  | put (now : Time) (presigned : Option Refusal) (bucket key : Text) (req : Request)
  | other (handler : Handler (Option ObjectResponse))

section Runs

variable (E : Env) (C : Codec) (parseDate : String → Option Time) (others : OtherOperations)
  (authorize : Permissions)

/-- Answer a request. -/
def Call.handle : Call → Handler (Option ObjectResponse)
  | .get now presigned rules bucket key req => do
    return some (← handleObjectGet E C parseDate now (others.read now bucket key req)
      ⟨authorize, presigned⟩ rules bucket key req)
  | .put now presigned bucket key req => do
    handleObjectPut E C now (copies E C now (others.write now bucket key req) bucket key req)
      ⟨authorize, presigned⟩ bucket key req
    return none
  | .other handler => handler

/-- **The store keeps its secrets from a call**: if it is a copy, the caller may read all that he
could copy, and if it is for another handler, that one shows no bytes that he may not read. -/
def Call.Keeps (C : Codec) (authorize : Permissions) (call : Call) (V : Vault) : Prop :=
  match call with
  | .get .. => True
  | .put now _ _ _ req => (req.header "x-amz-copy-source").isSome → SourcesReadable C now authorize V
  | .other handler => Blind (Vault.Twin (unread authorize)) handler

variable {E C parseDate others authorize} {V W : Vault}

/-- A call that the store keeps its secrets from is answered alike in twins. -/
theorem Call.alike_handle
    (hread : ∀ now bucket key req operation,
      Blind (Vault.Twin (unread authorize)) (others.read now bucket key req operation))
    (hwrite : ∀ now bucket key req operation,
      Blind (Vault.Twin (unread authorize)) (others.write now bucket key req operation))
    (call : Call) (h : Vault.Twin (unread authorize) V W) (hkeeps : call.Keeps C authorize V) :
    Alike (Vault.Twin (unread authorize)) (call.handle E C parseDate others authorize V)
      (call.handle E C parseDate others authorize W) := by
  cases call with
  | get now presigned rules bucket key req =>
    exact Blind.bind (blind_handleObjectGet (hread now bucket key req)) (fun _ ↦ .pure) _ _ h
  | put now presigned bucket key req =>
    exact (alike_handleObjectPut (hwrite now bucket key req) h hkeeps).bind
      fun _ _ _ _ _ h ↦ ⟨rfl, h⟩
  | other handler => exact hkeeps _ _ h

end Runs

/-! ### A private source -/

/-- A store with two empty buckets. -/
def twoBuckets : Vault where
  buckets := ((∅ : Table String Bucket).set "private" (some {})).set "bucket" (some {})

/-- A store with a bucket to write to, and another one with an object under the key `k`. -/
def privateSource (secret : UInt8) : Vault :=
  twoBuckets.setRecord "private" ['k'] { current := some ([secret], plainObject) }

/-- A caller who may do everything in the bucket `bucket`, and nothing elsewhere. -/
def ownBucketOnly : Permissions := fun bucket _ ↦
  if bucket = "bucket".toList then none else some ⟨403, "AccessDenied", "Access Denied"⟩

/-- Other operations, all of them refused. -/
def OtherOperations.refused : OtherOperations where
  read _ _ _ _ _ := .fail ⟨501, "NotImplemented", ""⟩
  write _ _ _ _ _ := .fail ⟨501, "NotImplemented", ""⟩

/-- A `CopyObject` of the object in the private bucket. -/
def copyPrivate : Request := plainCopy "bucket".toList ['k'] "/private/k"

/-- The copy, by a caller. -/
def copyPrivateBy (authorize : Permissions) : Except Refusal Unit × Vault :=
  handleObjectPut .simple .simple 0 (copies .simple .simple 0 (fun _ ↦ .fail ⟨501, "", ""⟩)
    "bucket".toList ['k'] copyPrivate) ⟨authorize, none⟩ "bucket".toList ['k'] copyPrivate
    (privateSource 0)

/-- A `GET` of the object under the key `k` of a bucket. -/
def getFrom (bucket : Text) : Call :=
  .get 0 none none bucket ['k'] { route := .objectGet bucket ['k'] }

/-- The answers to calls of the caller on the store with the secret. -/
def answersOf (secret : UInt8) (calls : List Call) : List (Except Refusal (Option ObjectResponse)) :=
  answers (Call.handle .simple .simple (fun _ ↦ none) .refused ownBucketOnly) calls
    (privateSource secret)

/-- The two stores differ in bytes that the caller may not read. -/
theorem privateSource_twin :
    Vault.Twin (unread ownBucketOnly) (privateSource 0) (privateSource 1) := by
  have hsame : Vault.Twin (unread ownBucketOnly) twoBuckets twoBuckets := rfl
  refine hsame.setRecord ?_
  rw [show unread ownBucketOnly "private" ['k'] = true by decide]
  rfl

theorem parse_copyPrivate :
    parseCopySource .simple "/private/k" = .ok ⟨"private".toList, ['k'], none⟩ := by
  decide

end Sqrzl.S3
