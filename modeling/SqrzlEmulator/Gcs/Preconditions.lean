import SqrzlEmulator.Gcs.Quiet

/-!
# Preconditions on the generation

A client reads the generation of an object and sends it back with a write or a delete. For this to
work, what is reported has to be what is compared. `Agreement` says so for one object and one text
that a client can send: all readers report one number, a change is refused exactly when the text is
another number, and a change without a precondition goes through.

**It holds exactly when the object carries a generation and a metageneration, and the text is
spelled as the stored generation if it is the same number** (`generations_agree_iff`). What breaks
it:

* an object that was written through another front door carries neither, so that the readers fall
  back on different defaults, and the condition of an unconditional deletion compares with a default
  that is not stored;
* the comparisons are on texts, while the texts that are admitted are numbers: `007` is refused for
  an object with the generation `7`;
* a generation of `0` that a client has planted through another door stands for "no object".
-/

namespace Sqrzl.Gcs

open Prog S3

variable {o : Object} {t : String}

/-! ### Agreement -/

section Agreement

variable (E : Env) (C : Crates) (now : Time) (combine : UInt32 → UInt32 → ℕ → UInt32)

/-- The generations that are reported of an object: by the JSON API, on its own and in a listing,
and by the XML API, in the headers of a response and in a listing. -/
def reports (b : String) (o : Object) : List String :=
  [(jsonObjectMetadata E C b o).generation, (jsonBlobRecordMetadata C b o).generation,
    (objectHeaders o o.size none).generation, (xmlBucketItem o).generation]

/-- The handlers of requests that write, change or delete an object, with the text `t` as the
generation it has to have, and without another precondition. -/
inductive Conditional (b : String) (key : Text) (t : String) : Handler Response → Prop
  | media {req : Request} (method : req.method = .post)
      (type : req.queryParam "uploadType" = some "media")
      (name : req.queryParam "name" = some (String.ofList key))
      (matched : req.queryParam "ifGenerationMatch" = some t)
      (alone : req.queryParam "ifGenerationNotMatch" = none) :
      Conditional b key t (handleRequest E C now combine (.jsonUpload b) req)
  | multipart {req : Request} (method : req.method = .post)
      (type : req.queryParam "uploadType" = some "multipart")
      (name : req.queryParam "name" = some (String.ofList key))
      (matched : req.queryParam "ifGenerationMatch" = some t)
      (alone : req.queryParam "ifGenerationNotMatch" = none) :
      Conditional b key t (handleRequest E C now combine (.jsonUpload b) req)
  | resumable {req : Request} {id : String} {session : ResumableSession} (bucket : session.bucket = b)
      (name : session.key = key) (matched : session.preconditions = ⟨some t, none⟩) :
      Conditional b key t (publishUpload E C now req id session)
  | xmlPut {req : Request} (method : req.method = .put)
      (matched : req.header "x-goog-if-generation-match" = some t)
      (alone : req.header "x-goog-if-metageneration-match" = none) :
      Conditional b key t (handleRequest E C now combine (.xmlObject b key) req)
  | xmlDelete {req : Request} (method : req.method = .delete)
      (matched : req.header "x-goog-if-generation-match" = some t)
      (alone : req.header "x-goog-if-metageneration-match" = none) :
      Conditional b key t (handleRequest E C now combine (.xmlObject b key) req)
  | jsonPatch {req : Request} (method : req.method = .patch)
      (matched : req.queryParam "ifGenerationMatch" = some t)
      (alone : req.queryParam "ifGenerationNotMatch" = none ∧
        req.queryParam "ifMetagenerationMatch" = none ∧
        req.queryParam "ifMetagenerationNotMatch" = none) :
      Conditional b key t (handleRequest E C now combine (.jsonObject b key) req)
  | jsonDelete {req : Request} (method : req.method = .delete)
      (matched : req.queryParam "ifGenerationMatch" = some t)
      (alone : req.queryParam "ifGenerationNotMatch" = none ∧
        req.queryParam "ifMetagenerationMatch" = none ∧
        req.queryParam "ifMetagenerationNotMatch" = none) :
      Conditional b key t (handleRequest E C now combine (.jsonObject b key) req)

/-- A deletion in the JSON API without any precondition. -/
structure Plain (req : Request) : Prop where
  method : req.method = .delete
  matched : req.queryParam "ifGenerationMatch" = none
  notMatched : req.queryParam "ifGenerationNotMatch" = none
  metaMatched : req.queryParam "ifMetagenerationMatch" = none
  metaNotMatched : req.queryParam "ifMetagenerationNotMatch" = none
  selector : req.queryParam "generation" = none
  ifMatch : req.header "if-match" = none
  ifNoneMatch : req.header "if-none-match" = none

/-- What is reported of an object is what a text is compared with. -/
def Agreement (S : System) (b : String) (key : Text) (o : Object) (t : String) : Prop :=
  ∃ g, (∀ text ∈ reports E C b o, parseU64 text = some g) ∧
    (∀ handler, Conditional E C now combine b key t handler →
      (parseU64 t = some g → ¬ RefusedForPrecondition (handler.calm S).1) ∧
      (∀ n, parseU64 t = some n → n ≠ g → ¬ Succeeded (handler.calm S).1 ∧ (handler.calm S).2 = S)) ∧
    ∀ req, Plain req → Succeeded ((handleRequest E C now combine (.jsonObject b key) req).calm S).1

variable {E C now combine} {S : System} {b : String} {key : Text} {B : Bucket} {req : Request}

/-- What a handler does with a text, depending on how the stored generation is spelled. -/
structure Compares (S : System) (o : Object) (t : String) (handler : Handler Response) : Prop where
  spelled : t ≠ "0" → Spelled o t → ¬ RefusedForPrecondition (handler.calm S).1
  other : ¬ Spelled o t → ¬ Succeeded (handler.calm S).1 ∧ (handler.calm S).2 = S

/-- A request that is not admitted is neither refused for its precondition nor carried out. -/
theorem compares_of_unrelated {handler : Handler Response} {response : Response}
    (hu : response.Unrelated) (h : handler.calm S = (some (.ok response), S)) :
    Compares S o t handler where
  spelled _ _ := h ▸ not_refused_of ⟨hu.1, hu.2.1⟩
  other _ := h ▸ ⟨not_succeeded_of ⟨hu.2.2.1, hu.2.2.2⟩, rfl⟩

theorem Compares.congr {handler handler' : Handler Response} (h : Compares S o t handler)
    (heq : handler'.calm S = handler.calm S) : Compares S o t handler' :=
  ⟨heq ▸ h.spelled, heq ▸ h.other⟩

theorem requireName_ok {name : Option String} {key' : Text} (h : requireName name = .ok key')
    (hname : name = some (String.ofList key)) : key' = key := by
  subst hname
  cases h
  exact String.toList_ofList

theorem admitMediaUpload_ok {key' : Text} {write : BlobWrite}
    (h : admitMediaUpload E C req = .ok (key', write))
    (hname : req.queryParam "name" = some (String.ofList key)) :
    key' = key ∧ write.preconditions = queryPreconditions req := by
  obtain ⟨_, -, h⟩ := ok_of_bind h
  obtain ⟨_, -, h⟩ := ok_of_bind h
  obtain ⟨_, -, h⟩ := ok_of_bind h
  obtain ⟨_, -, h⟩ := ok_of_bind h
  obtain ⟨_, hkey, h⟩ := ok_of_bind h
  cases h
  exact ⟨requireName_ok hkey hname, rfl⟩

theorem admitMultipartUpload_ok {key' : Text} {write : BlobWrite}
    (h : admitMultipartUpload E C req = .ok (key', write))
    (hname : req.queryParam "name" = some (String.ofList key)) :
    key' = key ∧ write.preconditions = queryPreconditions req := by
  obtain ⟨_, -, h⟩ := ok_of_bind h
  obtain ⟨_, -, h⟩ := ok_of_bind h
  obtain ⟨⟨metadata, contentType, data⟩, -, h⟩ := ok_of_bind h
  obtain ⟨_, -, h⟩ := ok_of_bind h
  obtain ⟨_, -, h⟩ := ok_of_bind h
  obtain ⟨_, hkey, h⟩ := ok_of_bind h
  cases h
  refine ⟨requireName_ok hkey ?_, rfl⟩
  rw [hname]
  rfl

theorem compares_uploadAdmitted (h : Holds S b key B o) (hkeep : retainedIn now B o = false)
    {x : Except Response (Text × BlobWrite)} (herrors : ErrorsIn Response.Unrelated x)
    (hok : ∀ key' write, x = .ok (key', write) → key' = key ∧ write.preconditions = ⟨some t, none⟩) :
    Compares S o t (uploadAdmitted E C now req b x) := by
  cases x with
  | error response => exact compares_of_unrelated (herrors rfl) rfl
  | ok admitted =>
    obtain ⟨key', write⟩ := admitted
    obtain ⟨rfl, hpre⟩ := hok key' write rfl
    constructor
    · intro ht hspelled
      obtain ⟨d, S', hrun⟩ := calm_uploadBlob_of_spelled E C req h hkeep hpre ht hspelled
      rw [uploadAdmitted, hrun]
      exact not_refused_of ⟨nofun, nofun⟩
    · intro hother
      rw [uploadAdmitted, calm_uploadBlob_of_not_spelled h hkeep hpre (.inr hother)]
      refine ⟨not_succeeded_of ?_, rfl⟩
      unfold uploadPreconditionFailed
      split
      · exact ⟨nofun, nofun⟩
      · exact ⟨nofun, nofun⟩

theorem calm_handleJsonUpload (h : Holds S b key B o) (hB : Unprotected C now B)
    (hmethod : req.method = .post) {type : String}
    (htype : req.queryParam "uploadType" = some type) :
    (handleJsonUpload E C now req b).calm S =
      (if type = "media" then handleMediaUpload E C now req b
        else if type = "multipart" then handleMultipartUpload E C now req b
        else if type = "resumable" then createResumableSession E C now req b
        else ret (jsonUploadError 400 ("Unsupported uploadType: " ++ type))).calm S := by
  rw [handleJsonUpload, if_neg (not_not.2 hmethod), calm_attempt_bind (calm_getBucket h.bucket)]
  dsimp only
  rw [calm_bind_ok (calm_foreignDataProtectionActive h.bucket hB)]
  simp only [Bool.false_eq_true, if_false]
  rw [htype]

theorem calm_handleXmlObject (h : Holds S b key B o) (hB : Unprotected C now B) :
    (handleXmlObject E C now req b key).calm S =
      (match refuseXmlObject req with
        | some response => ret response
        | none =>
          if req.method = .post && req.header "x-goog-resumable" = some "start" then
            createXmlResumableSession E now req b key
          else xmlObjectMethod E C now req b key : Handler Response).calm S := by
  rw [handleXmlObject, calm_bind_ok (calm_foreignDataProtectionActive h.bucket hB)]
  simp only [Bool.false_eq_true, if_false]
  exact (calm_attempt_bind (calm_getBucket h.bucket)).trans rfl

theorem calm_handleJsonObject (h : Holds S b key B o) (hB : Unprotected C now B) :
    (handleJsonObject E C now req b key).calm S = (handleJsonObjectItem E C now req b key).calm S := by
  rw [handleJsonObject, calm_bind_ok (calm_foreignDataProtectionActive h.bucket hB)]
  rfl

theorem compares_putXmlObject (h : Holds S b key B o) (hkeep : retainedIn now B o = false)
    (hmatch : req.header "x-goog-if-generation-match" = some t)
    (hmeta : req.header "x-goog-if-metageneration-match" = none) :
    Compares S o t (putXmlObject E C now req b key) := by
  cases hadmitted : admitXmlPut E C req with
  | error response =>
    refine compares_of_unrelated (errorsIn_admitXmlPut hadmitted) ?_
    rw [putXmlObject, hadmitted]
    rfl
  | ok _ =>
    cases hc : xmlMutationCondition req true with
    | error response =>
      refine compares_of_unrelated (errorsIn_xmlMutationCondition hc) ?_
      rw [putXmlObject, hadmitted]
      dsimp only
      rw [calm_bind_ok (calm_existingObjectIsRetained h), hkeep, hc]
      rfl
    | ok c =>
      obtain rfl := xmlMutationCondition_of_match hmatch hmeta hc
      refine Compares.congr ⟨?_, ?_⟩ (calm_putXmlObject h hkeep hadmitted hc)
      · intro ht hspelled
        obtain ⟨_, _, _, S', hrun⟩ := calm_writeXmlObject_of_spelled E C now req h ht hspelled
        rw [hrun]
        exact not_refused_of ⟨(fun h ↦ by cases h), fun h ↦ by cases h⟩
      · intro hother
        rw [calm_writeXmlObject_of_not_spelled h (.inr hother)]
        exact ⟨not_succeeded_of ⟨(fun h ↦ by cases h), fun h ↦ by cases h⟩, rfl⟩

theorem compares_deleteXmlObject (h : Holds S b key B o) (hkeep : retainedIn now B o = false)
    (hmatch : req.header "x-goog-if-generation-match" = some t)
    (hmeta : req.header "x-goog-if-metageneration-match" = none) :
    Compares S o t (deleteXmlObject E now req b key) := by
  cases hc : xmlMutationCondition req false with
  | error response =>
    refine compares_of_unrelated (errorsIn_xmlMutationCondition hc) ?_
    rw [deleteXmlObject, calm_bind_ok (calm_existingObjectIsRetained h), hkeep, hc]
    rfl
  | ok c =>
    obtain rfl := xmlMutationCondition_of_match hmatch hmeta hc
    constructor
    · intro ht hspelled
      obtain ⟨S', hremove⟩ := calm_removeObject_of_holds E now h
        (holds_generationCondition.2 ⟨ht, hspelled⟩)
      rw [deleteXmlObject, calm_bind_ok (calm_existingObjectIsRetained h), hkeep, hc]
      simp only [Bool.false_eq_true, if_false]
      rw [calm_attempt_bind hremove]
      exact not_refused_of ⟨nofun, nofun⟩
    · intro hother
      rw [deleteXmlObject, calm_bind_ok (calm_existingObjectIsRetained h), hkeep, hc]
      simp only [Bool.false_eq_true, if_false]
      rw [calm_attempt_bind (calm_removeObject_of_not_holds h
        (not_holds_generationCondition (.inr hother)))]
      exact ⟨not_succeeded_of ⟨nofun, nofun⟩, rfl⟩

theorem errorsIn_checkCurrentGenerationSelector :
    ErrorsIn Response.Unrelated (checkCurrentGenerationSelector req o) := by
  unfold checkCurrentGenerationSelector
  split
  · exact .ok
  · split
    · exact .error ⟨nofun, nofun, nofun, nofun⟩
    · split
      · exact .error ⟨nofun, nofun, nofun, nofun⟩
      · exact .ok

/-- The checks of a request whose only precondition is a generation. -/
theorem checkGcsPreconditions_of_match (hvalid : invalidPreconditions req = none)
    (hmatch : req.queryParam "ifGenerationMatch" = some t)
    (halone : req.queryParam "ifGenerationNotMatch" = none ∧
      req.queryParam "ifMetagenerationMatch" = none ∧
      req.queryParam "ifMetagenerationNotMatch" = none) :
    checkGcsPreconditions req o = if generation o = t then .ok () else
      .error (.jsonError 412 "conditionNotMet" "Generation precondition failed") := by
  unfold checkGcsPreconditions
  rw [hvalid]
  dsimp only
  rw [hmatch, halone.1, halone.2.1, halone.2.2]
  by_cases hg : generation o = t
  · simp only [hg, if_true, refuseWhen, Option.any_some, Option.any_none, ne_eq, not_true_eq_false,
      decide_false, Bool.false_eq_true, if_false]
    rfl
  · simp only [hg, if_false, refuseWhen, Option.any_some, ne_eq, not_false_eq_true, decide_true, if_true]
    rfl

/-- A handler that begins with the checks of the JSON API, from what it does behind them. -/
theorem compares_checked {handler : Handler Response}
    (hmatch : req.queryParam "ifGenerationMatch" = some t)
    (halone : req.queryParam "ifGenerationNotMatch" = none ∧
      req.queryParam "ifMetagenerationMatch" = none ∧
      req.queryParam "ifMetagenerationNotMatch" = none)
    (hrefused : ∀ response, (do
      checkCurrentGenerationSelector req o
      checkGcsPreconditions req o
      return o : Except Response Object) = .error response →
      handler.calm S = (some (.ok response), S))
    (hpassed : generation o = t → checkCurrentGenerationSelector req o = .ok () →
      checkGcsPreconditions req o = .ok () → Compares S o t handler) : Compares S o t handler := by
  cases hselect : checkCurrentGenerationSelector req o with
  | error response =>
    exact compares_of_unrelated (errorsIn_checkCurrentGenerationSelector hselect)
      (hrefused response (by rw [hselect]; rfl))
  | ok _ =>
    cases hvalid : invalidPreconditions req with
    | some response =>
      have hcheck : checkGcsPreconditions req o = .error response := by
        rw [checkGcsPreconditions, hvalid]
      exact compares_of_unrelated (unrelated_of_invalidPreconditions hvalid)
        (hrefused response (by rw [hselect, hcheck]; rfl))
    | none =>
      have hcheck := checkGcsPreconditions_of_match (o := o) hvalid hmatch halone
      by_cases hg : generation o = t
      · rw [if_pos hg] at hcheck
        exact hpassed hg hselect hcheck
      · rw [if_neg hg] at hcheck
        have hrun := hrefused _ (by rw [hselect, hcheck]; rfl)
        refine ⟨fun _ hspelled ↦ absurd (generation_of_spelled hspelled) hg, fun _ ↦ ?_⟩
        rw [hrun]
        exact ⟨not_succeeded_of ⟨(fun h ↦ by cases h), fun h ↦ by cases h⟩, rfl⟩

theorem compares_deleteJsonObject (h : Holds S b key B o) (hkeep : retainedIn now B o = false)
    (hmatch : req.queryParam "ifGenerationMatch" = some t)
    (halone : req.queryParam "ifGenerationNotMatch" = none ∧
      req.queryParam "ifMetagenerationMatch" = none ∧
      req.queryParam "ifMetagenerationNotMatch" = none) :
    Compares S o t (deleteJsonObject E now req b key) := by
  refine compares_checked hmatch halone (fun response hresponse ↦ ?_) fun hg hselect hcheck ↦ ?_
  · rw [deleteJsonObject, calm_bind_ok (calm_checkedJsonBlob h), hresponse]
    rfl
  · have hcondition := jsonMutationCondition_of_match (o := o) hmatch halone.1 halone.2.1 halone.2.2
    obtain ⟨hyes, hno⟩ := calm_deleteJsonObject (E := E) h hkeep hselect hcheck
    constructor
    · intro _ hspelled
      obtain ⟨S', hrun⟩ := hyes (hcondition.2 hspelled)
      rw [hrun]
      exact not_refused_of ⟨(fun h ↦ by cases h), fun h ↦ by cases h⟩
    · intro hother
      rw [hno (Bool.eq_false_iff.2 fun hholds ↦ hother (hcondition.1 hholds))]
      exact ⟨not_succeeded_of ⟨(fun h ↦ by cases h), fun h ↦ by cases h⟩, rfl⟩

theorem errorsIn_patched : ErrorsIn Response.Unrelated (patched C now req o) := by
  have hbad : ∀ status message, status = 400 ∨ status = 501 →
      (jsonUploadError status message).Unrelated := by
    rintro status message (rfl | rfl) <;> exact ⟨nofun, nofun, nofun, nofun⟩
  unfold patched
  repeat' split
  all_goals first
    | exact .ok
    | exact .error (hbad _ _ (.inl rfl))
    | exact .error (hbad _ _ (.inr rfl))

/-- A patch of an object with a stored generation. It does not go by the condition of a write: the
object is compared as a whole with the one that was checked. -/
theorem compares_patchJsonObject (h : Holds S b key B o) {c : String} (hspelled : Spelled o c)
    (hmatch : req.queryParam "ifGenerationMatch" = some t)
    (halone : req.queryParam "ifGenerationNotMatch" = none ∧
      req.queryParam "ifMetagenerationMatch" = none ∧
      req.queryParam "ifMetagenerationNotMatch" = none) :
    Compares S o t (patchJsonObject C now req b key) := by
  refine compares_checked hmatch halone (fun response hresponse ↦ ?_) fun hg hselect hcheck ↦ ?_
  · rw [patchJsonObject, calm_bind_ok (calm_checkedJsonBlob h), hresponse]
    rfl
  · have hchecks : (do
        checkCurrentGenerationSelector req o
        checkGcsPreconditions req o
        return o : Except Response Object) = .ok o := by
      rw [hselect, hcheck]
      rfl
    have hrun : (patchJsonObject C now req b key).calm S = _ :=
      calm_bind_ok ((calm_checkedJsonBlob h).trans (by rw [hchecks]))
    cases hpatched : patched C now req o with
    | error response =>
      refine compares_of_unrelated (errorsIn_patched hpatched) (hrun.trans ?_)
      dsimp only
      rw [hpatched]
      rfl
    | ok updated =>
      refine ⟨fun _ _ ↦ ?_, fun hother ↦ absurd ?_ hother⟩
      · obtain ⟨⟨data, o'⟩, hcurrent, rfl⟩ := Option.map_eq_some_iff.1 h.record
        rw [hrun]
        dsimp only
        rw [hpatched]
        dsimp only
        rw [calm_bind_ok (calm_change_of (Vault.replaceObjectMetadata_eq hcurrent))]
        dsimp only
        rw [calm_bind, getObjectMetadata, calm_query]
        rintro ⟨response, hresponse, hstatus⟩
        split at hresponse
        · cases hresponse
          rcases hstatus with hstatus | hstatus <;> cases hstatus
        · cases hresponse
        · cases hresponse
      · rwa [← hg, generation_of_spelled hspelled]

/-- **Every route compares the text with the stored generation.** -/
theorem compares_of_conditional (h : Holds S b key B o) (hB : Unprotected C now B)
    (hkeep : retainedIn now B o = false) {c : String} (hspelled : Spelled o c)
    {handler : Handler Response} (hc : Conditional E C now combine b key t handler) :
    Compares S o t handler := by
  cases hc with
  | media method type name matched alone =>
    refine Compares.congr ?_ (calm_handleJsonUpload h hB method type)
    rw [if_pos rfl]
    refine compares_uploadAdmitted h hkeep errorsIn_admitMediaUpload fun key' write hok ↦ ?_
    obtain ⟨hkey, hpre⟩ := admitMediaUpload_ok hok name
    refine ⟨hkey, ?_⟩
    rw [hpre, queryPreconditions, matched, alone]
  | multipart method type name matched alone =>
    refine Compares.congr ?_ (calm_handleJsonUpload h hB method type)
    rw [if_neg (by decide), if_pos rfl]
    refine compares_uploadAdmitted h hkeep errorsIn_admitMultipartUpload fun key' write hok ↦ ?_
    obtain ⟨hkey, hpre⟩ := admitMultipartUpload_ok hok name
    refine ⟨hkey, ?_⟩
    rw [hpre, queryPreconditions, matched, alone]
  | @resumable req id session bucket name matched =>
    subst bucket name
    cases hcheck : checkUploadCrc32c E C req session with
    | error response =>
      refine compares_of_unrelated (errorsIn_checkUploadCrc32c hcheck) ?_
      rw [publishUpload, hcheck]
      rfl
    | ok _ =>
      refine Compares.congr ⟨?_, ?_⟩ (calm_publishUpload h hB hkeep hcheck)
      · exact calm_publishOver_of_spelled h matched
      · exact fun hother ↦ calm_publishOver_of_not_spelled h matched (.inr hother)
  | @xmlPut req method matched alone =>
    refine Compares.congr ?_ (calm_handleXmlObject h hB)
    cases hrefuse : refuseXmlObject req with
    | some response => exact compares_of_unrelated (unrelated_of_refuseXmlObject hrefuse) rfl
    | none =>
      dsimp only
      rw [method, if_neg (by simp), xmlObjectMethod, method]
      exact compares_putXmlObject h hkeep matched alone
  | @xmlDelete req method matched alone =>
    refine Compares.congr ?_ (calm_handleXmlObject h hB)
    cases hrefuse : refuseXmlObject req with
    | some response => exact compares_of_unrelated (unrelated_of_refuseXmlObject hrefuse) rfl
    | none =>
      dsimp only
      rw [method, if_neg (by simp), xmlObjectMethod, method]
      exact compares_deleteXmlObject h hkeep matched alone
  | @jsonPatch req method matched alone =>
    refine Compares.congr ?_ (calm_handleJsonObject h hB)
    rw [handleJsonObjectItem, method]
    dsimp only
    cases hheaders : invalidJsonMutationHeaders req with
    | some response =>
      exact compares_of_unrelated (unrelated_of_invalidJsonMutationHeaders hheaders) rfl
    | none => exact compares_patchJsonObject h hspelled matched alone
  | @jsonDelete req method matched alone =>
    refine Compares.congr ?_ (calm_handleJsonObject h hB)
    rw [handleJsonObjectItem, method]
    dsimp only
    cases hheaders : invalidJsonMutationHeaders req with
    | some response =>
      exact compares_of_unrelated (unrelated_of_invalidJsonMutationHeaders hheaders) rfl
    | none => exact compares_deleteJsonObject h hkeep matched alone

/-- A deletion without a precondition succeeds exactly when both numbers are stored. -/
theorem succeeded_plain_iff (h : Holds S b key B o) (hB : Unprotected C now B)
    (hkeep : retainedIn now B o = false) (hplain : Plain req) :
    Succeeded ((handleRequest E C now combine (.jsonObject b key) req).calm S).1 ↔
      (∃ c, Spelled o c) ∧ (o.metadata["__sqrzl_gcs_metageneration"]?).isSome := by
  have hheaders : invalidJsonMutationHeaders req = none := by
    rw [invalidJsonMutationHeaders, hplain.ifMatch, hplain.ifNoneMatch]
    rfl
  have hselect : checkCurrentGenerationSelector req o = .ok () := by
    rw [checkCurrentGenerationSelector, hplain.selector]
  have hvalid : invalidPreconditions req = none := by
    simp [invalidPreconditions, hplain.matched, hplain.notMatched, hplain.metaMatched,
      hplain.metaNotMatched]
  have hcheck : checkGcsPreconditions req o = .ok () := by
    rw [checkGcsPreconditions, hvalid]
    dsimp only
    rw [hplain.matched, hplain.notMatched, hplain.metaMatched, hplain.metaNotMatched]
    rfl
  have hrun : (handleRequest E C now combine (.jsonObject b key) req).calm S =
      (deleteJsonObject E now req b key).calm S := by
    refine (calm_handleJsonObject h hB).trans ?_
    rw [handleJsonObjectItem, hplain.method]
    dsimp only
    rw [hheaders]
    rfl
  obtain ⟨hyes, hno⟩ := calm_deleteJsonObject (E := E) h hkeep hselect hcheck
  rw [hrun, ← jsonMutationCondition_of_plain hplain.matched hplain.notMatched hplain.metaMatched
    hplain.metaNotMatched]
  cases hholds : (jsonMutationCondition req o).holds (some o) with
  | true =>
    obtain ⟨S', hdelete⟩ := hyes hholds
    rw [hdelete]
    exact ⟨fun _ ↦ rfl, fun _ ↦ ⟨_, rfl, .inr rfl⟩⟩
  | false =>
    rw [hno hholds]
    refine ⟨fun hsucceeded ↦ absurd hsucceeded (not_succeeded_of ⟨nofun, nofun⟩), nofun⟩

/-- The number that is stored is the one that is reported. -/
theorem reports_of_spelled {c : String} (hspelled : Spelled o c) :
    ∀ text ∈ reports E C b o, text = c := by
  have hstored : o.metadata["__sqrzl_gcs_generation"]? = some c := hspelled
  simp [reports, jsonObjectMetadata, jsonBlobRecordMetadata, objectHeaders, xmlBucketItem, generation,
    generationFromMetadata, hstored]

theorem agreement_of_spelled (h : Holds S b key B o) (hB : Unprotected C now B)
    (hkeep : retainedIn now B o = false) {c : String} {g : ℕ} (hspelled : Spelled o c)
    (hc : parseU64 c = some g) (hmeta : (o.metadata["__sqrzl_gcs_metageneration"]?).isSome)
    (ht : parseU64 t = some g → t = c ∧ t ≠ "0") : Agreement E C now combine S b key o t := by
  refine ⟨g, fun text htext ↦ ?_, fun handler hhandler ↦ ⟨fun hg ↦ ?_, fun n hn hne ↦ ?_⟩,
    fun req hplain ↦ (succeeded_plain_iff h hB hkeep hplain).2 ⟨⟨c, hspelled⟩, hmeta⟩⟩
  · rw [reports_of_spelled hspelled text htext, hc]
  · obtain ⟨rfl, hzero⟩ := ht hg
    exact (compares_of_conditional h hB hkeep hspelled hhandler).spelled hzero hspelled
  · refine (compares_of_conditional h hB hkeep hspelled hhandler).other fun hother ↦ hne ?_
    rw [Spelled, hspelled] at hother
    cases hother
    exact Option.some_injective _ (hn.symm.trans hc)

/-- A media upload that asks for a generation, and for nothing else. -/
def mediaRequest (key : Text) (t : String) : Request where
  method := .post
  query := (((∅ : Table String String).set "uploadType" (some "media")).set "name"
    (some (String.ofList key))).set "ifGenerationMatch" (some t)

theorem queryParam_mediaRequest {name : String} :
    (mediaRequest key t).queryParam name =
      if name = "ifGenerationMatch" then some t
      else if name = "name" then some (String.ofList key)
      else if name = "uploadType" then some "media" else none := by
  simp [mediaRequest, Request.queryParam]

/-- It is admitted, when the text is a number. -/
theorem admitMediaUpload_mediaRequest (E : Env) (C : Crates) (key : Text)
    (ht : (parseU64 t).isSome) :
    ∃ write : BlobWrite, write.preconditions = ⟨some t, none⟩ ∧
      admitMediaUpload E C (mediaRequest key t) = .ok (key, write) := by
  have hparams : checkJsonUpload (mediaRequest key t) = .ok () := by
    have hvalid : invalidUploadPreconditions (mediaRequest key t) = none := by
      simp [invalidUploadPreconditions, invalidPreconditions, queryParam_mediaRequest,
        Option.isNone_eq_false_iff.2 ht]
    rw [checkJsonUpload, hvalid]
    rfl
  refine ⟨⟨[], "application/octet-stream", metadataFromHeaders (mediaRequest key t),
    queryPreconditions (mediaRequest key t), none⟩, ?_, ?_⟩
  · simp [queryPreconditions, queryParam_mediaRequest]
  · unfold admitMediaUpload
    rw [hparams, queryParam_mediaRequest]
    show Except.ok ((String.ofList key).toList, _) = _
    rw [String.toList_ofList]
    rfl

/-- **It is refused unless the text is the stored one.** -/
theorem refused_mediaRequest (E : Env) (combine : UInt32 → UInt32 → ℕ → UInt32) (h : Holds S b key B o) (hB : Unprotected C now B)
    (hkeep : retainedIn now B o = false) (ht : (parseU64 t).isSome) (hnot : t = "0" ∨ ¬ Spelled o t) :
    RefusedForPrecondition
      ((handleRequest E C now combine (.jsonUpload b) (mediaRequest key t)).calm S).1 := by
  obtain ⟨write, hpre, hadmitted⟩ := admitMediaUpload_mediaRequest E C key ht
  have hrun : (handleRequest E C now combine (.jsonUpload b) (mediaRequest key t)).calm S =
      (uploadBlob E C now (mediaRequest key t) b key write).calm S := by
    refine (calm_handleJsonUpload h hB rfl queryParam_mediaRequest).trans ?_
    rw [if_pos (by simp), handleMediaUpload, hadmitted]
    rfl
  rw [hrun, calm_uploadBlob_of_not_spelled h hkeep hpre hnot]
  refine ⟨_, rfl, ?_⟩
  simp [queryPreconditions, queryParam_mediaRequest, uploadPreconditionFailed,
    generationPreconditionFailed, Response.status]

/-- The deletion of an object, and nothing else. -/
def deleteRequest : Request where
  method := .delete

theorem plain_deleteRequest : Plain deleteRequest := by
  constructor <;> rfl

theorem spelled_of_agreement (h : Holds S b key B o) (hB : Unprotected C now B)
    (hkeep : retainedIn now B o = false) (hagree : Agreement E C now combine S b key o t) :
    ∃ c g, Spelled o c ∧ parseU64 c = some g ∧
      (o.metadata["__sqrzl_gcs_metageneration"]?).isSome ∧
      (parseU64 t = some g → t = c ∧ t ≠ "0") := by
  obtain ⟨g, hreports, hcompares, hplain⟩ := hagree
  obtain ⟨⟨c, hspelled⟩, hmeta⟩ :=
    (succeeded_plain_iff h hB hkeep plain_deleteRequest).1 (hplain _ plain_deleteRequest)
  have hreport := hreports _ (List.mem_cons_self ..)
  rw [reports_of_spelled (E := E) (C := C) (b := b) hspelled _ (List.mem_cons_self ..)] at hreport
  refine ⟨c, g, hspelled, hreport, hmeta, fun ht ↦ ?_⟩
  by_contra hnot
  have hrefused := refused_mediaRequest E combine h hB hkeep
    (Option.isSome_of_eq_some ht) (by
      by_cases hzero : t = "0"
      · exact .inl hzero
      · refine .inr fun hother ↦ hnot ⟨?_, hzero⟩
        rw [Spelled, hspelled] at hother
        cases hother
        rfl)
  refine (hcompares _ (.media rfl ?_ ?_ ?_ ?_)).1 ht hrefused
  · simp [mediaRequest, Request.queryParam]
  · simp [mediaRequest, Request.queryParam]
  · simp [mediaRequest, Request.queryParam]
  · simp [mediaRequest, Request.queryParam]

/-- **Reports and comparisons agree exactly when the object carries both numbers, and a text for the
same number is spelled as the stored one.** -/
theorem generations_agree_iff (E : Env) (C : Crates) (now : Time)
    (combine : UInt32 → UInt32 → ℕ → UInt32) (S : System) (b : String) (key : Text) (B : Bucket)
    (o : Object) (t : String) (h : Holds S b key B o) (hB : Unprotected C now B)
    (hkeep : retainedIn now B o = false) :
    Agreement E C now combine S b key o t ↔
      ∃ c g, Spelled o c ∧ parseU64 c = some g ∧
        (o.metadata["__sqrzl_gcs_metageneration"]?).isSome ∧
        (parseU64 t = some g → t = c ∧ t ≠ "0") := by
  constructor
  · exact spelled_of_agreement h hB hkeep
  · rintro ⟨c, g, hspelled, hc, hmeta, ht⟩
    exact agreement_of_spelled h hB hkeep hspelled hc hmeta ht

/-! ### One object, written through two doors -/

/-- A bucket with one object, and the metadata that its writer has left. -/
def photo (metadata : Table String String) : Object :=
  .newWithMetadataAndEtag 1700000000000000000 "cat".toList [] "image/png" metadata "etag"

/-- A bucket with the photo. -/
def gallery (metadata : Table String String) : Bucket where
  objects := (∅ : Table Text KeyRecord).set "cat".toList
    (some { current := some ([1], photo metadata) })

/-- A store with this bucket. -/
def galleries (metadata : Table String String) : System where
  vault := { buckets := (∅ : Table String Bucket).set "gallery" (some (gallery metadata)) }

/-- What an upload through this front door leaves. -/
def uploadedMetadata : Table String String :=
  metadataWithGcsState .simple 1700000000000000000 ∅ "1700000000000" "1" none

theorem holds_galleries (metadata : Table String String) :
    Holds (galleries metadata) "gallery" "cat".toList (gallery metadata) (photo metadata) := by
  constructor
  · simp [galleries]
  · simp [gallery, Bucket.record, KeyRecord.metadata]

/-- The object of an upload can be changed with the generation that is reported of it. -/
theorem uploaded_photo_agrees :
    Agreement .simple .simple 1700000001000000000 (fun crc _ _ ↦ crc) (galleries uploadedMetadata)
      "gallery" "cat".toList (photo uploadedMetadata) "1700000000000" := by
  refine (generations_agree_iff .simple .simple 1700000001000000000 (fun crc _ _ ↦ crc) _ _ _
    (gallery uploadedMetadata) _ _ (holds_galleries _) ⟨?_, ?_⟩ ?_).2
    ⟨"1700000000000", 1700000000000, ?_, ?_, ?_, fun _ ↦ ⟨rfl, ?_⟩⟩
  · decide
  · decide
  · decide
  · decide
  · decide
  · decide
  · decide

/-- **The object of another front door is reported with two generations, and cannot be deleted.** -/
theorem foreign_photo_does_not_agree :
    ¬ Agreement .simple .simple 1700000001000000000 (fun crc _ _ ↦ crc) (galleries ∅) "gallery"
      "cat".toList (photo ∅) "1700000000000" := by
  intro hagree
  obtain ⟨c, g, hspelled, -⟩ := spelled_of_agreement (holds_galleries ∅)
    ⟨by decide, by decide⟩ (by decide) hagree
  cases hspelled

end Agreement

end Sqrzl.Gcs
