import SqrzlEmulator.Gcs.Preconditions
import SqrzlEmulator.Gcs.RouteEffects

/-!
# Requests that ask for a generation

A request that asks for a generation is **carried out only if the current object has it**: every
route that writes or deletes hands the condition to the store, which evaluates it together with the
change, and the answer of a change that was not made is never the answer of one that was
(`Reports`).

As everywhere, any call can fail. A failed call never makes a request look carried out.
-/

namespace Sqrzl.Gcs

open Prog S3

/-! ### What a result says about the store -/

section Rules

variable {α β : Type} {S : System} {p : Handler α} {f : α → Handler β} {done : α → Prop}
  {done' : β → Prop} {c c' : Prop} {Q : Except Error α → System → List Event → Prop}

/-- A result that is `done` is only returned under a condition. -/
def Reports (p : Handler α) (S : System) (done : α → Prop) (c : Prop) : Prop :=
  wp (fun _ ↦ True) p (fun r _ ↦ ∀ a, r = .ok a → done a → c) S

theorem reports_ret {a : α} (h : ¬ done a) : Reports (ret a) S done c :=
  ⟨trivial, fun _ ha hdone ↦ absurd (Except.ok.inj ha ▸ hdone) h⟩

theorem reports_fail {e : Error} : Reports (fail e) S done c := ⟨trivial, nofun⟩

/-- Once the condition is known to hold, nothing more is asked. -/
theorem Looks.reports (h : Looks p S Q) (hc : c) : Reports p S done c :=
  wp_mono h (fun _ ↦ id) fun _ _ _ _ _ _ _ ↦ hc

theorem Looks.then_reports (h : Looks p S Q)
    (hok : ∀ a T l, Looked S T l → Q (.ok a) T l → Reports (f a) T done' c) :
    Reports (p.bind f) S done' c := by
  rw [Reports, wp_bind]
  refine wp_mono h (fun _ ↦ id) fun r T _ ⟨l, hl, hq⟩ ↦ ?_
  cases r with
  | error e => exact nofun
  | ok a => exact hok a T l hl hq

/-- A condition that is known after the first step. -/
theorem Looks.reports_of_does {now : Time} {permit : List Event → Prop} {scope : Scope}
    {prior : List Event} (h : Looks p S Q) (hdoes : Does now permit scope prior (p.bind f) S)
    (hok : ∀ a T l, Q (.ok a) T l → c ∨ Reports (f a) T done' c) : Reports (p.bind f) S done' c := by
  rw [Does, wp_bind] at hdoes
  rw [Reports, wp_bind]
  refine wp_mono (wp_and h hdoes) (fun _ _ ↦ trivial) ?_
  rintro r T - ⟨⟨l, -, hq⟩, hrest⟩
  cases r with
  | error e => exact fun _ h ↦ by cases h
  | ok a =>
    rcases hok a T l hq with hc | hreports
    · exact wp_mono hrest (fun _ ↦ id) fun _ _ _ _ _ _ _ ↦ hc
    · exact hreports

theorem Looks.attempt_then_reports {f : Except Error α → Handler β} (h : Looks p S Q)
    (hf : ∀ r T l, Looked S T l → Q r T l → Reports (f r) T done' c) :
    Reports (p.attempt.bind f) S done' c := by
  refine h.attempt.then_reports ?_
  rintro a T l hl ⟨x, ⟨⟩, hq⟩
  exact hf a T l hl hq

theorem Reports.bind (h : Reports p S done c')
    (hf : ∀ a T, (done a → c') → Reports (f a) T done' c) : Reports (p.bind f) S done' c := by
  rw [Reports, wp_bind]
  refine wp_mono h (fun _ ↦ id) fun r T _ hr ↦ ?_
  cases r with
  | error e => exact nofun
  | ok a => exact hf a T (hr a rfl)

theorem Reports.attempt_bind {f : Except Error α → Handler β} (h : Reports p S done c')
    (hok : ∀ a T, (done a → c') → Reports (f (.ok a)) T done' c)
    (herror : ∀ e T, Reports (f (.error e)) T done' c) : Reports (p.attempt.bind f) S done' c := by
  rw [Reports, wp_bind, wp_attempt]
  refine wp_mono h (fun _ ↦ id) fun r T _ hr ↦ ?_
  cases r with
  | error e => exact herror e T
  | ok a => exact hok a T (hr a rfl)

end Rules

/-! ### Changes -/

section Changes

variable {E : Env} {now : Time} {S : System} {b : String} {key : Text} {o : Object} {data : Bytes}
  {condition : Option ObjectCondition} {session : Option String}

theorem reports_mutation {f : System → System} {g : System → Except Error Bool} {c : Prop}
    (hok : g S = .ok true → c) : Reports (mutation f g) S (· = true) c := by
  refine wp_mutation.2 ⟨trivial, trivial, ?_, trivial, nofun, trivial, nofun⟩
  rintro a ha rfl
  exact hok ha

theorem Changes.meets {V : Vault} {seen : Option (Bytes × Time × String)}
    {outcome : Except Error Bool × Vault} (h : Changes true b key V condition seen outcome)
    (htrue : outcome.1 = .ok true) : Meets V b key condition :=
  h.result.elim (fun hnot ↦ absurd htrue hnot.1) fun hmade ↦ hmade.2.1

/-- **A write that says `true` was made under its condition.** -/
theorem reports_storeObject :
    Reports (storeObject E b key o data condition session) S (· = true)
      (Meets S.vault b key condition) := by
  refine reports_mutation fun htrue ↦ ?_
  cases condition with
  | none => exact (changes_always (changes_putObject E b key o data S.vault)).meets htrue
  | some c => exact (changes_mutateIf (changes_putObject E b key o data S.vault)).meets htrue

/-- **So was a deletion.** -/
theorem reports_removeObject :
    Reports (removeObject E now b key condition) S (· = true) (Meets S.vault b key condition) := by
  refine reports_mutation fun htrue ↦ ?_
  cases condition with
  | none => exact (changes_always (changes_deleteObject E now b key S.vault)).meets htrue
  | some c => exact (changes_mutateIf (changes_deleteObject E now b key S.vault)).meets htrue

end Changes

/-! ### Writes of the JSON API -/

section Handlers

variable {E : Env} {C : Crates} {now : Time} {S : System} {b : String} {key : Text} {req : Request}
  {t : String}

/-- An outcome that means that the object was stored. -/
def BlobWriteOutcome.Stored : BlobWriteOutcome → Prop
  | .stored _ => True
  | _ => False

theorem reports_putBlobOver {existing : Option Object} {write : BlobWrite}
    (ht : write.preconditions.expected = some t) :
    Reports (putBlobOver E C now existing b key write) S BlobWriteOutcome.Stored
      (Matches S.vault b key t) := by
  unfold putBlobOver
  dsimp only
  cases hcondition : uploadCondition existing.isSome write.preconditions with
  | none => exact reports_ret id
  | some condition =>
    refine reports_storeObject.bind fun written T hwritten ↦ ?_
    cases written with
    | false => exact reports_ret id
    | true =>
      have hmatches : Matches S.vault b key t :=
        matches_of_uploadCondition hcondition (hwritten rfl) ht
      exact looks_getObjectMetadata.then_reports fun _ _ _ _ _ ↦
        (looks_ret (Q := fun _ _ _ ↦ True) trivial).reports hmatches

theorem reports_putBlobWithGenerationMatch {write : BlobWrite}
    (ht : write.preconditions.expected = some t) :
    Reports (putBlobWithGenerationMatch E C now b key write) S BlobWriteOutcome.Stored
      (Matches S.vault b key t) := by
  refine looks_getObjectMetadata.attempt_then_reports fun r T l hl _ ↦ ?_
  rw [← hl.matches]
  cases r with
  | error e => exact reports_putBlobOver ht
  | ok o =>
    refine (looks_objectIsRetained o).then_reports fun retained U l' hl' _ ↦ ?_
    rw [← hl'.matches]
    cases retained with
    | true => exact reports_ret id
    | false => exact reports_putBlobOver ht

theorem reports_uploadAdmitted {x : Except Response (Text × BlobWrite)}
    (herrors : ErrorsIn Response.Unrelated x)
    (hok : ∀ key' write, x = .ok (key', write) →
      key' = key ∧ write.preconditions.expected = some t) :
    Reports (uploadAdmitted E C now req b x) S (·.status = 200) (Matches S.vault b key t) := by
  cases x with
  | error response => exact reports_ret (herrors rfl).2.2.1
  | ok admitted =>
    obtain ⟨key', write⟩ := admitted
    obtain ⟨rfl, ht⟩ := hok key' write rfl
    refine looks_existingObjectIsRetained.then_reports fun retained T l hl _ ↦ ?_
    rw [← hl.matches]
    cases retained with
    | true => exact reports_ret nofun
    | false =>
      refine (reports_putBlobWithGenerationMatch ht).bind fun outcome U hstored ↦ ?_
      cases outcome with
      | stored o => exact (looks_ret (Q := fun _ _ _ ↦ True) trivial).reports (hstored trivial)
      | retentionPolicyNotMet => exact reports_ret nofun
      | preconditionFailed =>
        refine reports_ret ?_
        show (uploadPreconditionFailed _).status ≠ 200
        unfold uploadPreconditionFailed
        split
        · exact nofun
        · exact nofun

theorem reports_handleJsonUpload (hkey : uploadKey E C req = some key)
    (ht : req.queryParam "ifGenerationMatch" = some t) :
    Reports (handleJsonUpload E C now req b) S (·.status = 200) (Matches S.vault b key t) := by
  unfold handleJsonUpload
  split
  · exact reports_ret nofun
  · refine looks_getBucket.attempt_then_reports fun r T l hl _ ↦ ?_
    rw [← hl.matches]
    split
    · exact reports_ret nofun
    · exact reports_fail
    · refine looks_foreignDataProtectionActive.then_reports fun foreign U l' hl' _ ↦ ?_
      rw [← hl'.matches]
      cases foreign with
      | true => exact reports_ret nofun
      | false =>
        cases htype : req.queryParam "uploadType" with
        | none => exact reports_ret nofun
        | some type =>
          simp only [Bool.false_eq_true, if_false]
          split
          · next hmedia =>
            subst hmedia
            refine reports_uploadAdmitted errorsIn_admitMediaUpload fun key' write hadmitted ↦ ?_
            rw [uploadKey, htype] at hkey
            simp only [hadmitted] at hkey
            refine ⟨Option.some.inj hkey, ?_⟩
            rw [preconditions_of_admitMediaUpload hadmitted]
            exact ht
          · split
            · next hmultipart =>
              subst hmultipart
              refine reports_uploadAdmitted errorsIn_admitMultipartUpload fun key' write hadmitted ↦ ?_
              rw [uploadKey, htype] at hkey
              simp only [hadmitted] at hkey
              refine ⟨Option.some.inj hkey, ?_⟩
              rw [preconditions_of_admitMultipartUpload hadmitted]
              exact ht
            · next hmedia hmultipart =>
              rw [uploadKey, htype] at hkey
              split at hkey
              · next heq => exact absurd (Option.some.inj heq) hmedia
              · next heq => exact absurd (Option.some.inj heq) hmultipart
              · cases hkey

/-! ### The XML API -/

theorem status_xmlStorageError (e : Error) :
    (xmlStorageError b e).status ≠ 200 ∧ (xmlStorageError b e).status ≠ 204 := by
  cases e with
  | _ => exact ⟨nofun, nofun⟩

theorem reports_putXmlObject (ht : req.header "x-goog-if-generation-match" = some t) :
    Reports (putXmlObject E C now req b key) S (·.status = 200) (Matches S.vault b key t) := by
  unfold putXmlObject
  split
  · next hadmitted => exact reports_ret (errorsIn_admitXmlPut hadmitted).2.2.1
  · refine looks_existingObjectIsRetained.then_reports fun retained T l hl _ ↦ ?_
    rw [← hl.matches]
    cases retained with
    | true => exact reports_ret nofun
    | false =>
      simp only [Bool.false_eq_true, if_false]
      cases hcondition : xmlMutationCondition req true with
      | error response => exact reports_ret (errorsIn_xmlMutationCondition hcondition).2.2.1
      | ok condition =>
        refine looks_getObjectMetadata.attempt_then_reports fun existing U l' hl' _ ↦ ?_
        rw [← hl'.matches]
        refine reports_storeObject.attempt_bind (fun written W hwritten ↦ ?_) fun e W ↦
          reports_ret (status_xmlStorageError e).1
        cases written with
        | false => exact reports_ret nofun
        | true =>
          have hmatches : Matches U.vault b key t :=
            matches_of_xmlMutationCondition hcondition (hwritten rfl) ht
          refine looks_getObjectMetadata.attempt_then_reports fun r _ _ _ _ ↦ ?_
          cases r with
          | error e => exact reports_ret (status_xmlStorageError e).1
          | ok o => exact (looks_ret (Q := fun _ _ _ ↦ True) trivial).reports hmatches

theorem reports_deleteXmlObject (ht : req.header "x-goog-if-generation-match" = some t) :
    Reports (deleteXmlObject E now req b key) S (·.status = 204) (Matches S.vault b key t) := by
  refine looks_existingObjectIsRetained.then_reports fun retained T l hl _ ↦ ?_
  rw [← hl.matches]
  cases retained with
  | true => exact reports_ret nofun
  | false =>
    simp only [Bool.false_eq_true, if_false]
    cases hcondition : xmlMutationCondition req false with
    | error response => exact reports_ret (errorsIn_xmlMutationCondition hcondition).2.2.2
    | ok condition =>
      refine reports_removeObject.attempt_bind (fun removed W hremoved ↦ ?_) fun e W ↦
        reports_ret (status_xmlStorageError e).2
      cases removed with
      | false => exact reports_ret nofun
      | true =>
        have hmatches : Matches T.vault b key t :=
          matches_of_xmlMutationCondition hcondition (hremoved rfl) ht
        exact (looks_ret (Q := fun _ _ _ ↦ True) trivial).reports hmatches

/-- The status of a request of the XML API that was carried out. -/
def xmlDone (req : Request) : ℕ := if req.method = .delete then 204 else 200

theorem reports_handleXmlObject (hmethod : req.method = .put ∨ req.method = .delete)
    (ht : req.header "x-goog-if-generation-match" = some t) :
    Reports (handleXmlObject E C now req b key) S (·.status = xmlDone req)
      (Matches S.vault b key t) := by
  have hcode : xmlDone req = 200 ∨ xmlDone req = 204 := by
    unfold xmlDone
    split
    · exact .inr rfl
    · exact .inl rfl
  have hnot : ∀ response : Response, response.status ≠ 200 ∧ response.status ≠ 204 →
      response.status ≠ xmlDone req := by
    rintro response ⟨h200, h204⟩
    rcases hcode with hcode | hcode
    · rwa [hcode]
    · rwa [hcode]
  refine looks_foreignDataProtectionActive.then_reports fun foreign T l hl _ ↦ ?_
  rw [← hl.matches]
  cases foreign with
  | true => exact reports_ret (hnot _ ⟨nofun, nofun⟩)
  | false =>
    refine looks_getBucket.attempt_then_reports fun r U l' hl' _ ↦ ?_
    rw [← hl'.matches]
    cases r with
    | error e =>
      refine reports_ret (hnot _ ?_)
      split
      · exact ⟨nofun, nofun⟩
      · exact status_xmlStorageError e
    | ok B =>
      dsimp only
      split
      · next hrefuse => exact reports_ret (hnot _ (unrelated_of_refuseXmlObject hrefuse).2.2)
      · rcases hmethod with hput | hdelete
        · rw [if_neg (by simp [hput]), xmlObjectMethod, hput]
          rw [xmlDone, hput]
          exact reports_putXmlObject ht
        · rw [if_neg (by simp [hdelete]), xmlObjectMethod, hdelete]
          rw [xmlDone, hdelete]
          exact reports_deleteXmlObject ht

/-! ### The JSON API -/

/-- Responses to requests that were not carried out. -/
def Response.Refusal (response : Response) : Prop := response.status ≠ 200 ∧ response.status ≠ 204

theorem refusal_jsonStorageError (e : Error) : (jsonStorageError b key e).Refusal := by
  cases e with
  | _ => exact ⟨nofun, nofun⟩

theorem errorsIn_checkGcsPreconditions {o : Object} :
    ErrorsIn Response.Refusal (checkGcsPreconditions req o) := by
  unfold checkGcsPreconditions
  split
  · next response hinvalid => exact .error (unrelated_of_invalidPreconditions hinvalid).2.2
  · refine (ErrorsIn.refuseWhen ⟨nofun, nofun⟩).bind fun _ ↦ ?_
    refine (ErrorsIn.refuseWhen ⟨nofun, nofun⟩).bind fun _ ↦ ?_
    refine (ErrorsIn.refuseWhen ⟨nofun, nofun⟩).bind fun _ ↦ ?_
    exact ErrorsIn.refuseWhen ⟨nofun, nofun⟩

/-- A request that passes its checks has the generation of the object. -/
theorem generation_of_checkGcsPreconditions {o : Object} (h : checkGcsPreconditions req o = .ok ())
    (ht : req.queryParam "ifGenerationMatch" = some t) : generation o = t := by
  unfold checkGcsPreconditions at h
  split at h
  · cases h
  · obtain ⟨_, hmatch, -⟩ := ok_of_bind h
    by_contra hne
    rw [ht, refuseWhen, if_pos (by simp [hne])] at hmatch
    cases hmatch

/-- What a request of the JSON API finds before its change. -/
theorem looks_checkedJsonBlob_refusal (t : String) :
    Looks (checkedJsonBlob req b key) S fun r _ _ ↦
      (∀ response, r = .ok (.error response) → response.Refusal) ∧
      ∀ o, r = .ok (.ok o) → req.queryParam "ifGenerationMatch" = some t → Matches S.vault b key t := by
  refine looks_getObjectMetadata.attempt_bind ?_
  rintro r T l hl ⟨-, -, ⟨o, rfl, ho, rfl⟩ | ⟨e, rfl, -, -⟩ | ⟨⟨e, rfl⟩, rfl⟩⟩
  · dsimp only
    cases hselect : checkCurrentGenerationSelector req o with
    | error response =>
      refine looks_ret ⟨?_, nofun⟩
      rintro _ ⟨⟩
      exact (errorsIn_checkCurrentGenerationSelector hselect).2.2
    | ok _ =>
      dsimp only
      cases hcheck : checkGcsPreconditions req o with
      | error response =>
        refine looks_ret ⟨?_, nofun⟩
        rintro _ ⟨⟩
        exact errorsIn_checkGcsPreconditions hcheck
      | ok _ =>
        refine looks_ret ⟨nofun, fun _ _ ht ↦ .inr ⟨o, ho, ?_⟩⟩
        exact generation_of_checkGcsPreconditions hcheck ht
  · refine looks_ret ⟨?_, nofun⟩
    rintro _ ⟨⟩
    exact refusal_jsonStorageError e
  · refine looks_ret ⟨?_, nofun⟩
    rintro _ ⟨⟩
    exact refusal_jsonStorageError e

/-- The status of a change in the JSON API that was carried out. -/
def jsonDone (req : Request) : ℕ := if req.method = .delete then 204 else 200

/-- **A change in the JSON API is carried out only if the object has passed its checks.** -/
theorem reports_handleJsonObject (hmethod : req.method = .patch ∨ req.method = .delete)
    (ht : req.queryParam "ifGenerationMatch" = some t) :
    Reports (handleJsonObject E C now req b key) S (·.status = jsonDone req)
      (Matches S.vault b key t) := by
  have hnot : ∀ response : Response, response.Refusal → response.status ≠ jsonDone req := by
    rintro response ⟨h200, h204⟩
    unfold jsonDone
    split
    · exact h204
    · exact h200
  refine looks_foreignDataProtectionActive.then_reports fun foreign T l hl _ ↦ ?_
  rw [← hl.matches]
  cases foreign with
  | true => exact reports_ret (hnot _ ⟨nofun, nofun⟩)
  | false =>
    simp only [Bool.false_eq_true, if_false]
    unfold handleJsonObjectItem
    dsimp only
    split
    · next response hinvalid =>
      refine reports_ret (hnot _ ?_)
      split at hinvalid
      · exact (unrelated_of_invalidJsonMutationHeaders hinvalid).2.2
      · cases hinvalid
    · rcases hmethod with hpatch | hdelete
      · rw [hpatch]
        have hdoes : Does now (fun _ ↦ True) {} [] (patchJsonObject C now req b key) T :=
          does_patchJsonObject fun _ _ _ ↦ trivial
        refine (looks_checkedJsonBlob_refusal t).reports_of_does hdoes fun r U l' hr ↦ ?_
        cases r with
        | error response => exact .inr (reports_ret (hnot _ (hr.1 response rfl)))
        | ok o => exact .inl (hr.2 o rfl ht)
      · rw [hdelete]
        have hdoes : Does now _ _ [] (deleteJsonObject E now req b key) T := does_deleteJsonObject
        refine (looks_checkedJsonBlob_refusal t).reports_of_does
          hdoes fun r U l' hr ↦ ?_
        cases r with
        | error response => exact .inr (reports_ret (hnot _ (hr.1 response rfl)))
        | ok o => exact .inl (hr.2 o rfl ht)

/-! ### Resumable uploads -/

section Resumable

variable {id : String} {session : ResumableSession}

theorem status_uploadPreconditionFailed (pre : GenerationPreconditions) :
    (uploadPreconditionFailed pre).status ≠ 200 := by
  unfold uploadPreconditionFailed
  split
  · exact nofun
  · exact nofun

theorem reports_publishOver {existing : Option Object} (ht : session.ifGenerationMatch = some t) :
    Reports (publishOver E C now req id session existing) S (·.status = 200)
      (Matches S.vault session.bucket session.key t) := by
  unfold publishOver
  cases hcondition : uploadCondition existing.isSome session.preconditions with
  | none => exact reports_ret (status_uploadPreconditionFailed _)
  | some condition =>
    intro n
    have hcompose : Reports (composeUploadPayloads E session id
        (uploadedObject E C now req session existing (E.uuid n)) condition) S (· = true)
        (Matches S.vault session.bucket session.key t) := by
      refine looks_lookup.then_reports fun data T l hl _ ↦ ?_
      rw [← hl.matches]
      cases data with
      | none => exact reports_fail
      | some data =>
        exact wp_mono reports_storeObject (fun _ h ↦ h) fun r _ _ hr a ha htrue ↦
          matches_of_uploadCondition hcondition (hr a ha htrue) ht
    refine hcompose.bind fun written T hwritten ↦ ?_
    cases written with
    | false => exact reports_ret (status_uploadPreconditionFailed _)
    | true =>
      refine looks_getObjectMetadata.then_reports fun o _ _ _ _ ↦ ?_
      refine looks_removeResumableSession.then_reports fun _ _ _ _ _ ↦ ?_
      exact (looks_ret (Q := fun _ _ _ ↦ True) trivial).reports (hwritten rfl)

theorem reports_publishUpload (ht : session.ifGenerationMatch = some t) :
    Reports (publishUpload E C now req id session) S (·.status = 200)
      (Matches S.vault session.bucket session.key t) := by
  unfold publishUpload
  split
  · next hcheck => exact reports_ret (errorsIn_checkUploadCrc32c hcheck).2.2.1
  · refine looks_foreignDataProtectionActive.then_reports fun foreign T l hl _ ↦ ?_
    rw [← hl.matches]
    cases foreign with
    | true => exact reports_ret nofun
    | false =>
      refine looks_existingObjectIsRetained.then_reports fun retained U l' hl' _ ↦ ?_
      rw [← hl'.matches]
      cases retained with
      | true => exact reports_ret nofun
      | false =>
        refine looks_getObjectMetadata.attempt_then_reports fun existing W l'' hl'' _ ↦ ?_
        rw [← hl''.matches]
        exact reports_publishOver ht

theorem reports_continueUpload {final : Bool} (ht : session.ifGenerationMatch = some t) :
    Reports (continueUpload E C now req id session final) S (·.status = 200)
      (Matches S.vault session.bucket session.key t) := by
  refine (looks_record rfl rfl).then_reports fun _ T l hl _ ↦ ?_
  refine (looks_modify rfl rfl).then_reports fun _ U l' hl' _ ↦ ?_
  rw [← hl.matches, ← hl'.matches]
  split
  · exact reports_ret nofun
  · exact reports_publishUpload ht

theorem status_refuseRange {length start last : ℕ} {total : Option ℕ} {response : Response}
    (h : refuseRange session length start last total = some response) : response.status ≠ 200 := by
  unfold refuseRange at h
  split_ifs at h
  all_goals
    rcases h with ⟨⟩
    exact nofun

theorem errorsIn_parseRange {range : Text} {total : Option ℕ} {bodyIsEmpty : Bool} :
    ErrorsIn (·.status ≠ 200) (parseRange range total bodyIsEmpty) := by
  unfold parseRange invalidContentRange
  split
  · split
    · exact .error nofun
    · exact .ok
  · split
    · exact .error nofun
    · split
      · exact .error nofun
      · exact .error nofun
      · split
        · exact .error nofun
        · exact .ok

theorem errorsIn_parseResumableRange : ErrorsIn (·.status ≠ 200) (parseResumableRange req) := by
  unfold parseResumableRange invalidContentRange
  split
  · split
    · exact .ok
    · exact .ok
  · split
    · exact .error fun h ↦ by cases h
    · split
      · exact .error fun h ↦ by cases h
      · split
        · exact errorsIn_parseRange
        · split
          · exact .error fun h ↦ by cases h
          · exact errorsIn_parseRange

variable {combine : UInt32 → UInt32 → ℕ → UInt32}

theorem reports_takeRange {start last : ℕ} {total : Option ℕ}
    (ht : session.ifGenerationMatch = some t) :
    Reports (takeRange E C now combine req id session start last total) S (·.status = 200)
      (Matches S.vault session.bucket session.key t) := by
  unfold takeRange
  split
  · next hrefuse => exact reports_ret (status_refuseRange hrefuse)
  · dsimp only
    split
    · refine (looks_record rfl rfl).then_reports fun _ T l hl _ ↦ ?_
      rw [← hl.matches]
      exact reports_continueUpload ht
    · exact reports_continueUpload ht

/-- **The request that completes an upload is carried out only if the object has the generation that
the session asks for.** -/
theorem reports_completeResumableUpload (hmethod : req.method = .put)
    (hsession : ∀ session, S.openSession id = some session →
      session.bucket = b ∧ session.key = key ∧ session.ifGenerationMatch = some t) :
    Reports (completeResumableUpload E C now combine req id) S (·.status = 200)
      (Matches S.vault b key t) := by
  rw [completeResumableUpload, hmethod]
  refine looks_finishCancelledXmlUpload.then_reports fun cancelled T l hl hcancelled ↦ ?_
  rw [← hl.matches]
  cases cancelled with
  | true => exact reports_ret nofun
  | false =>
    simp only [Bool.false_eq_true, if_false]
    unfold putResumableUpload
    split
    · next hinvalid => exact reports_ret (unrelated_of_invalidJsonMutationHeaders hinvalid).2.2.1
    · refine looks_loadResumableSession.then_reports fun session U l' hl' hloaded ↦ ?_
      rw [← hl'.matches]
      cases session with
      | none => exact reports_ret nofun
      | some session =>
        have hopen : S.openSession id = some session := by
          rcases hcancelled rfl with hkept | hgone
          · rw [← hkept]
            exact hloaded session rfl
          · rw [hloaded session rfl] at hgone
            cases hgone
        obtain ⟨rfl, rfl, ht⟩ := hsession session hopen
        dsimp only
        split
        · next hrange => exact reports_ret (errorsIn_parseResumableRange hrange)
        · split
          · exact reports_ret nofun
          · exact reports_ret nofun
        · exact reports_takeRange ht

end Resumable

/-! ### Routes -/

/-- A response to a write, a patch or a deletion of an object that was carried out. -/
inductive CarriedOut (req : Request) (response : Response) : Target → Prop
  | xmlObject {b : String} {key : Text} (method : req.method = .put ∨ req.method = .delete)
      (status : response.status = xmlDone req) : CarriedOut req response (.xmlObject b key)
  | jsonObject {b : String} {key : Text} (method : req.method = .patch ∨ req.method = .delete)
      (status : response.status = jsonDone req) : CarriedOut req response (.jsonObject b key)
  | upload {b : String} (status : response.status = 200) : CarriedOut req response (.jsonUpload b)
  | resumable {id : String} (method : req.method = .put) (status : response.status = 200) :
      CarriedOut req response (.resumable id)

/-- **A request that asks for a generation is carried out only if the current object has it.** -/
theorem matches_of_carriedOut {combine : UInt32 → UInt32 → ℕ → UInt32} {target : Target}
    {T : System} {response : Response} {i : Intent} (hi : intent E C target req S = some i)
    (ht : i.guard = some t)
    (hrun : (handleRequest E C now combine target req).Returns S (.ok response) T)
    (hdone : CarriedOut req response target) : Matches S.vault i.bucket i.key t := by
  cases hdone with
  | xmlObject method status =>
    cases hi
    exact hrun.of_wp (reports_handleXmlObject method ht) response rfl status
  | jsonObject method status =>
    cases hi
    exact hrun.of_wp (reports_handleJsonObject method ht) response rfl status
  | upload status =>
    obtain ⟨key, hkey, rfl⟩ := Option.map_eq_some_iff.1 hi
    exact hrun.of_wp (reports_handleJsonUpload hkey ht) response rfl status
  | @resumable id method status =>
    obtain ⟨session, hsession, rfl⟩ := Option.map_eq_some_iff.1 hi
    have hreports : Reports (handleRequest E C now combine (.resumable id) req) S (·.status = 200)
        (Matches S.vault session.bucket session.key t) := by
      unfold handleRequest
      dsimp only
      split
      · exact reports_ret nofun
      · refine reports_completeResumableUpload method fun session' hsession' ↦ ?_
        rw [hsession] at hsession'
        cases hsession'
        exact ⟨rfl, rfl, ht⟩
    exact hrun.of_wp hreports response rfl status

end Handlers

end Sqrzl.Gcs
