import SqrzlEmulator.Gcs.Routes

/-!
# Handlers in a quiet store

What the handlers for one object come to when no call fails: an object is there (`Holds`), no other
front door protects the bucket (`Unprotected`), and the object is not retained. **Each handler then
comes to the condition that the store evaluates**, and either carries out its change or leaves the
system as it is.

Before that, a request is checked on its own. The responses to requests that do not pass are
`Response.Unrelated` to preconditions; `ErrorsIn` collects them along the checks.
-/

namespace Sqrzl.Gcs

open Prog S3

/-! ### The store with one object -/

/-- The current object under a key. -/
structure Holds (S : System) (b : String) (key : Text) (B : Bucket) (o : Object) : Prop where
  bucket : S.vault.buckets[b]? = some B
  current : (B.record key).metadata = some o

/-- No other front door protects the objects of the bucket. -/
def Unprotected (C : Crates) (now : Time) (B : Bucket) : Prop :=
  foreignMode B = false ∧ B.current.any (hasActiveAzureProtection C.toCodec now) = false

section Quiet

variable {E : Env} {C : Crates} {now : Time} {S : System} {b : String} {key : Text} {B : Bucket}
  {o : Object} {call : Call}

theorem Holds.record (h : Holds S b key B o) : (S.vault.record b key).metadata = some o := by
  rw [Vault.record_eq h.bucket, h.current]

theorem calm_getBucket (h : S.vault.buckets[b]? = some B) :
    (getBucket call b).calm S = (some (.ok B), S) := by
  show (query call (Vault.getBucket b)).calm S = _
  rw [calm_query]
  simp only [Vault.getBucket, Atomic.find, h]

theorem calm_getObjectMetadata (h : Holds S b key B o) :
    (getObjectMetadata call b key).calm S = (some (.ok o), S) := by
  have hread : (do
      let _ ← Vault.getBucket b
      Vault.getObjectMetadata b key : VaultOp Object) S.vault = (.ok o, S.vault) :=
    Atomic.find_bind_ok.2 ⟨B, h.bucket, Atomic.find_ok.2 ⟨h.record, rfl⟩⟩
  rw [getObjectMetadata, calm_query, hread]

theorem calm_objectIsRetained (h : S.vault.buckets[b]? = some B) (o : Object) :
    (objectIsRetained now b o).calm S = (some (.ok (retainedIn now B o)), S) := by
  rw [objectIsRetained, calm_attempt_bind (calm_getBucket h), calm_ret]

theorem calm_existingObjectIsRetained (h : Holds S b key B o) :
    (existingObjectIsRetained now b key).calm S = (some (.ok (retainedIn now B o)), S) := by
  rw [existingObjectIsRetained, calm_attempt_bind (calm_getObjectMetadata h)]
  exact calm_objectIsRetained h.bucket o

theorem calm_foreignDataProtectionActive (h : S.vault.buckets[b]? = some B)
    (hB : Unprotected C now B) :
    (foreignDataProtectionActive C now b).calm S = (some (.ok false), S) := by
  rw [foreignDataProtectionActive, calm_attempt_bind (calm_getBucket h)]
  simp only [hB.2, Bool.false_eq_true, if_false]
  rw [calm_attempt_bind (calm_getBucket h), calm_ret, hB.1]

/-- A conditional call whose condition does not hold. -/
theorem mutateIf_of_not_holds {V : Vault} {c : ObjectCondition} {m : VaultOp Unit}
    (h : c.holds (V.record b key).metadata = false) :
    Vault.mutateIf b key c m V = (.ok false, V) := by
  simp only [Vault.mutateIf, Atomic.view_bind, h, Bool.false_eq_true, if_false]
  rfl

/-- **A write whose condition does not hold leaves everything as it is.** -/
theorem calm_storeObject_of_not_holds {c : ObjectCondition} {data : Bytes} {session : Option String}
    (o : Object) (h : c.holds (S.vault.record b key).metadata = false) :
    (storeObject E b key o data (some c) session).calm S = (some (.ok false), S) := by
  have hput : Vault.putObjectIf E b key o data c S.vault = (.ok false, S.vault) :=
    mutateIf_of_not_holds h
  exact calm_change_of hput

/-- **A write whose condition holds is carried out**, and the object can be looked up. -/
theorem calm_storeObject_of_holds (E : Env) {c : ObjectCondition} (o : Object) {data : Bytes}
    (session : Option String) (hB : S.vault.buckets[b]? = some B) (hsize : data.length = o.size)
    (h : c.holds (S.vault.record b key).metadata = true) :
    ∃ S' B' o', (storeObject E b key o data (some c) session).calm S = (some (.ok true), S') ∧
      Holds S' b key B' o' := by
  obtain ⟨V, hput⟩ := Vault.exists_putObject_ok E key hB hsize
  obtain ⟨B₁, hB₁, -, hV⟩ := Vault.putObject_ok hput
  have hputIf : Vault.putObjectIf E b key o data c S.vault = (.ok true, V) :=
    Vault.mutateIf_of_holds h hput
  refine ⟨_, B₁.setRecord key ((S.vault.record b key).put B₁.versioning
      (versionIdFor E B₁.versioning S.vault.drawn) data o),
    (o.withVersionId (versionIdFor E B₁.versioning S.vault.drawn)).serialized,
    calm_change_of hputIf, ?_⟩
  constructor
  · show V.buckets[b]? = _
    rw [hV]
    simp [Vault.draw, Vault.setRecord, hB₁]
  · rw [Bucket.record_setRecord, if_pos rfl]
    rfl

/-- A write whose bytes are not as many as it says fails. -/
theorem calm_storeObject_of_size (E : Env) {c : ObjectCondition} (o : Object) {data : Bytes}
    (session : Option String) (hB : S.vault.buckets[b]? = some B) (hsize : data.length ≠ o.size)
    (h : c.holds (S.vault.record b key).metadata = true) :
    ∃ e S', (storeObject E b key o data (some c) session).calm S = (some (.error e), S') := by
  obtain ⟨e, V, hput⟩ : ∃ e V, Vault.putObject E b key o data S.vault = (.error e, V) := by
    unfold Vault.putObject
    rw [hB]
    dsimp only
    rw [if_pos hsize]
    exact ⟨_, _, rfl⟩
  have hputIf : Vault.putObjectIf E b key o data c S.vault = (.error e, V) := by
    simp only [Vault.putObjectIf, Vault.mutateIf, Atomic.view_bind, h, if_true]
    exact Atomic.bind_of_error hput
  exact ⟨e, _, calm_change_of hputIf⟩

end Quiet

/-! ### Conditions -/

/-- The condition that stands for a generation. -/
def generationCondition (t : String) : ObjectCondition :=
  if t = "0" then .missing else .metadata "__sqrzl_gcs_generation" t

/-- The stored generation of an object is spelled as the text. -/
def Spelled (o : Object) (t : String) : Prop := o.metadata["__sqrzl_gcs_generation"]? = some t

instance (o : Object) (t : String) : Decidable (Spelled o t) := by
  unfold Spelled
  infer_instance

variable {o : Object} {t : String}

theorem holds_generationCondition :
    (generationCondition t).holds (some o) = true ↔ t ≠ "0" ∧ Spelled o t := by
  unfold generationCondition Spelled
  split
  · next h => simp [ObjectCondition.holds, h]
  · next h => simp [ObjectCondition.holds, h]

theorem not_holds_generationCondition (h : t = "0" ∨ ¬ Spelled o t) :
    (generationCondition t).holds (some o) = false := by
  rw [Bool.eq_false_iff, ne_eq, holds_generationCondition]
  tauto

theorem uploadCondition_expected :
    uploadCondition true ⟨some t, none⟩ = some (some (generationCondition t)) := by
  show (if t = "0" then some (some ObjectCondition.missing)
    else some (some (.metadata "__sqrzl_gcs_generation" t))) = _
  unfold generationCondition
  split
  · rfl
  · rfl

theorem generation_of_spelled (h : Spelled o t) : generation o = t := by
  rw [generation, h]
  rfl

theorem xmlMutationCondition_of_match {req : Request} {require : Bool} {c : Option ObjectCondition}
    (hmatch : req.header "x-goog-if-generation-match" = some t)
    (hmeta : req.header "x-goog-if-metageneration-match" = none)
    (h : xmlMutationCondition req require = .ok c) : c = some (generationCondition t) := by
  unfold xmlMutationCondition at h
  simp only [hmatch, hmeta, Option.isSome_none, Bool.and_false, Bool.false_and, Option.any_none,
    Bool.or_false, Bool.false_eq_true, if_false, Option.map_some, Option.map_none,
    Option.toList_some, Option.toList_none, List.append_nil] at h
  split at h
  · cases h
  · cases h
    rfl

/-! ### Responses -/

/-- A handler has refused a request for its precondition. -/
def RefusedForPrecondition (outcome : Option (Except Error Response)) : Prop :=
  ∃ response, outcome = some (.ok response) ∧ (response.status = 412 ∨ response.status = 304)

/-- A handler has carried out a request. -/
def Succeeded (outcome : Option (Except Error Response)) : Prop :=
  ∃ response, outcome = some (.ok response) ∧ (response.status = 200 ∨ response.status = 204)

/-- Responses to requests that are not admitted. -/
def Response.Unrelated (response : Response) : Prop :=
  response.status ≠ 412 ∧ response.status ≠ 304 ∧ response.status ≠ 200 ∧ response.status ≠ 204

theorem not_refused_of {response : Response} (h : response.status ≠ 412 ∧ response.status ≠ 304) :
    ¬ RefusedForPrecondition (some (.ok response)) := by
  rintro ⟨_, ⟨⟩, h' | h'⟩
  · exact h.1 h'
  · exact h.2 h'

theorem not_succeeded_of {response : Response} (h : response.status ≠ 200 ∧ response.status ≠ 204) :
    ¬ Succeeded (some (.ok response)) := by
  rintro ⟨_, ⟨⟩, h' | h'⟩
  · exact h.1 h'
  · exact h.2 h'

theorem unrelated_uploadMetadataErrorResponse (e : UploadMetadataError) :
    (uploadMetadataErrorResponse e).Unrelated := by
  cases e with
  | invalid message => exact ⟨nofun, nofun, nofun, nofun⟩
  | checksumMismatch message => exact ⟨nofun, nofun, nofun, nofun⟩
  | unsupported message => exact ⟨nofun, nofun, nofun, nofun⟩

/-- What a check refuses with. -/
def ErrorsIn {α : Type} (P : Response → Prop) (x : Except Response α) : Prop :=
  ∀ ⦃response⦄, x = .error response → P response

namespace ErrorsIn

variable {α β : Type} {P : Response → Prop} {x : Except Response α} {f : α → Except Response β}

theorem ok {a : α} : ErrorsIn P (.ok a : Except Response α) := nofun

theorem error {response : Response} (h : P response) :
    ErrorsIn P (.error response : Except Response α) := by
  rintro _ ⟨⟩
  exact h

theorem bind (hx : ErrorsIn P x) (hf : ∀ a, ErrorsIn P (f a)) : ErrorsIn P (x >>= f) := by
  cases x with
  | ok a => exact hf a
  | error response =>
    rintro _ ⟨⟩
    exact hx rfl

theorem refuseWhen {c : Prop} [Decidable c] {response : Response} (h : P response) :
    ErrorsIn P (refuseWhen c response) := by
  unfold Gcs.refuseWhen
  split
  · exact error h
  · exact ok

theorem mapError {ε : Type} {x : Except ε α} {g : ε → Response} (h : ∀ e, P (g e)) :
    ErrorsIn P (x.mapError g) := by
  cases x with
  | ok a => exact ok
  | error e => exact error (h e)

end ErrorsIn

theorem unrelated_of_invalidPreconditions {req : Request} {response : Response}
    (h : invalidPreconditions req = some response) : response.Unrelated := by
  unfold invalidPreconditions at h
  dsimp only at h
  split at h
  · cases h
    exact ⟨nofun, nofun, nofun, nofun⟩
  · cases h

theorem unrelated_of_invalidJsonMutationHeaders {req : Request} {response : Response}
    (h : invalidJsonMutationHeaders req = some response) : response.Unrelated := by
  unfold invalidJsonMutationHeaders at h
  split at h
  · cases h
    exact ⟨nofun, nofun, nofun, nofun⟩
  · cases h

theorem unrelated_of_refuseXmlObject {req : Request} {response : Response}
    (h : refuseXmlObject req = some response) : response.Unrelated := by
  unfold refuseXmlObject at h
  split at h
  · cases h
    exact ⟨nofun, nofun, nofun, nofun⟩
  · split at h
    · cases h
      exact ⟨nofun, nofun, nofun, nofun⟩
    · cases h

theorem errorsIn_checkJsonUpload {req : Request} :
    ErrorsIn Response.Unrelated (checkJsonUpload req) := by
  unfold checkJsonUpload invalidUploadPreconditions
  split
  · next hheaders => exact .error (unrelated_of_invalidJsonMutationHeaders hheaders)
  · cases hpre : invalidPreconditions req with
    | some response => exact .error (unrelated_of_invalidPreconditions hpre)
    | none =>
      simp only [Option.orElse_eq_orElse, Option.orElse_eq_or, Option.none_or]
      split
      · next hinvalid =>
        split at hinvalid
        · cases hinvalid
          exact .error ⟨nofun, nofun, nofun, nofun⟩
        · cases hinvalid
      · exact .ok

theorem errorsIn_refuseChecksum {E : Env} {expected : Option UInt32} {data : Bytes} :
    ErrorsIn Response.Unrelated (refuseChecksum E expected data) := by
  cases expected with
  | none => exact .ok
  | some expected => exact .refuseWhen (unrelated_uploadMetadataErrorResponse _)

theorem errorsIn_requireName {name : Option String} :
    ErrorsIn Response.Unrelated (requireName name) := by
  cases name with
  | none => exact .error ⟨nofun, nofun, nofun, nofun⟩
  | some name => exact .ok

/-- **What is asked of a request itself never decides on its precondition.** -/
theorem errorsIn_admitMediaUpload {E : Env} {C : Crates} {req : Request} :
    ErrorsIn Response.Unrelated (admitMediaUpload E C req) := by
  refine .bind (.refuseWhen ⟨nofun, nofun, nofun, nofun⟩) fun _ ↦ .bind errorsIn_checkJsonUpload fun _ ↦ ?_
  refine .bind (.mapError unrelated_uploadMetadataErrorResponse) fun _ ↦ ?_
  exact .bind errorsIn_refuseChecksum fun _ ↦ .bind errorsIn_requireName fun _ ↦ .ok

theorem errorsIn_admitMultipartUpload {E : Env} {C : Crates} {req : Request} :
    ErrorsIn Response.Unrelated (admitMultipartUpload E C req) := by
  refine .bind errorsIn_checkJsonUpload fun _ ↦ .bind (.refuseWhen ⟨nofun, nofun, nofun, nofun⟩) fun _ ↦ ?_
  refine .bind (.mapError unrelated_uploadMetadataErrorResponse) fun _ ↦ ?_
  refine .bind (.refuseWhen ⟨nofun, nofun, nofun, nofun⟩) fun _ ↦ ?_
  exact .bind errorsIn_refuseChecksum fun _ ↦ .bind errorsIn_requireName fun _ ↦ .ok

theorem errorsIn_checkXmlHashToken {C : Crates} {digests : Digests} {token : String} :
    ErrorsIn Response.Unrelated (checkXmlHashToken C digests token) := by
  intro response h
  unfold checkXmlHashToken at h
  dsimp only at h
  repeat' split at h
  all_goals try cases h
  all_goals exact ⟨nofun, nofun, nofun, nofun⟩

theorem errorsIn_foldlM {α β : Type} {P : Response → Prop} {f : β → α → Except Response β}
    (h : ∀ b a, ErrorsIn P (f b a)) (l : List α) (b : β) : ErrorsIn P (l.foldlM f b) := by
  induction l generalizing b with
  | nil => exact .ok
  | cons a l ih =>
    rw [List.foldlM_cons]
    exact .bind (h b a) ih

theorem errorsIn_admitXmlPut {E : Env} {C : Crates} {req : Request} :
    ErrorsIn Response.Unrelated (admitXmlPut E C req) := by
  unfold admitXmlPut
  split
  · exact .error ⟨nofun, nofun, nofun, nofun⟩
  refine .bind ?_ fun digests ↦ .bind ?_ fun _ ↦ .refuseWhen ⟨nofun, nofun, nofun, nofun⟩
  · unfold contentMd5
    split
    · exact .ok
    · split
      · exact .error ⟨nofun, nofun, nofun, nofun⟩
      · exact .ok
  · unfold googHash
    split
    · exact .ok
    · exact errorsIn_foldlM (fun _ _ ↦ errorsIn_checkXmlHashToken) _ _

theorem errorsIn_xmlMutationCondition {req : Request} {require : Bool} :
    ErrorsIn Response.Unrelated (xmlMutationCondition req require) := by
  intro response h
  unfold xmlMutationCondition at h
  dsimp only at h
  repeat' split at h
  all_goals try cases h
  all_goals exact ⟨nofun, nofun, nofun, nofun⟩

/-! ### Uploads -/

section Uploads

variable {E : Env} {C : Crates} {now : Time} {S : System} {b : String} {key : Text} {B : Bucket}
  {req : Request} {write : BlobWrite}

/-- An upload over an object that is not retained comes to its condition. -/
theorem calm_uploadBlob (h : Holds S b key B o) (hkeep : retainedIn now B o = false) :
    (uploadBlob E C now req b key write).calm S =
      ((putBlobOver E C now (some o) b key write).bind fun outcome ↦
        ret (uploadResponse C req b outcome)).calm S := by
  have hput : (putBlobWithGenerationMatch E C now b key write).calm S =
      (putBlobOver E C now (some o) b key write).calm S := by
    rw [putBlobWithGenerationMatch, calm_attempt_bind (calm_getObjectMetadata h)]
    dsimp only
    rw [calm_bind_ok (calm_objectIsRetained h.bucket o), hkeep]
    rfl
  rw [uploadBlob, calm_bind_ok (calm_existingObjectIsRetained h), hkeep]
  simp only [Bool.false_eq_true, if_false]
  rw [calm_bind, calm_bind, hput]

/-- **An upload with the stored generation is carried out.** -/
theorem calm_uploadBlob_of_spelled (E : Env) (C : Crates) (req : Request)
    (h : Holds S b key B o) (hkeep : retainedIn now B o = false)
    (hpre : write.preconditions = ⟨some t, none⟩) (ht : t ≠ "0") (hspelled : Spelled o t) :
    ∃ d S', (uploadBlob E C now req b key write).calm S = (some (.ok (.document 200 d)), S') := by
  have hholds : (generationCondition t).holds (S.vault.record b key).metadata = true := by
    rw [h.record]
    exact holds_generationCondition.2 ⟨ht, hspelled⟩
  obtain ⟨S', B', o', hstore, hafter⟩ := calm_storeObject_of_holds E
    (objectFor E C now (some o) key write.data write.contentType write.metadata
      (write.etag.getD (E.md5 write.data)) (E.crc32cAppend 0 write.data)) none h.bucket
    (rfl : write.data.length = _) hholds
  have hput : (putBlobOver E C now (some o) b key write).calm S = (some (.ok (.stored o')), S') := by
    rw [putBlobOver, hpre]
    simp only [Option.isSome_some, uploadCondition_expected]
    rw [calm_bind_ok hstore]
    simp only [if_true]
    rw [calm_bind_ok (calm_getObjectMetadata hafter), calm_ret]
  refine ⟨jsonBlobRecordMetadata C b o', S', ?_⟩
  rw [calm_uploadBlob h hkeep, calm_bind_ok hput, calm_ret, uploadResponse]

/-- **An upload with another text is refused**, and changes nothing. -/
theorem calm_uploadBlob_of_not_spelled (h : Holds S b key B o) (hkeep : retainedIn now B o = false)
    (hpre : write.preconditions = ⟨some t, none⟩) (hnot : t = "0" ∨ ¬ Spelled o t) :
    (uploadBlob E C now req b key write).calm S =
      (some (.ok (uploadPreconditionFailed (queryPreconditions req))), S) := by
  have hholds : (generationCondition t).holds (S.vault.record b key).metadata = false := by
    rw [h.record]
    exact not_holds_generationCondition hnot
  have hput : (putBlobOver E C now (some o) b key write).calm S =
      (some (.ok .preconditionFailed), S) := by
    rw [putBlobOver, hpre]
    simp only [Option.isSome_some, uploadCondition_expected]
    rw [calm_bind_ok (calm_storeObject_of_not_holds _ hholds)]
    rfl
  rw [calm_uploadBlob h hkeep, calm_bind_ok hput, calm_ret, uploadResponse]

end Uploads

/-! ### The XML API -/

section Xml

variable {E : Env} {C : Crates} {now : Time} {S : System} {b : String} {key : Text} {B : Bucket}
  {req : Request}

theorem calm_writeXmlObject_of_spelled (E : Env) (C : Crates) (now : Time) (req : Request)
    (h : Holds S b key B o) (ht : t ≠ "0")
    (hspelled : Spelled o t) :
    ∃ etag generation metageneration S',
      (writeXmlObject E C now req b key (some (generationCondition t))).calm S =
        (some (.ok (.written etag generation metageneration none)), S') := by
  have hholds : (generationCondition t).holds (S.vault.record b key).metadata = true := by
    rw [h.record]
    exact holds_generationCondition.2 ⟨ht, hspelled⟩
  obtain ⟨S', B', o', hstore, hafter⟩ := calm_storeObject_of_holds E
    (objectFor E C now (some o) key req.body
      ((req.header "content-type").getD "application/octet-stream") (metadataFromHeaders req)
      (E.md5 req.body) (E.crc32cAppend 0 req.body)) none h.bucket (rfl : req.body.length = _) hholds
  refine ⟨"\"" ++ o'.etag ++ "\"", generationFromMetadata o'.metadata,
    metagenerationFromMetadata o'.metadata, S', ?_⟩
  rw [writeXmlObject, calm_attempt_bind (calm_getObjectMetadata h)]
  dsimp only [Except.toOption]
  rw [calm_attempt_bind hstore]
  dsimp only
  rw [calm_attempt_bind (calm_getObjectMetadata hafter), calm_ret]

theorem calm_writeXmlObject_of_not_spelled (h : Holds S b key B o)
    (hnot : t = "0" ∨ ¬ Spelled o t) :
    (writeXmlObject E C now req b key (some (generationCondition t))).calm S =
      (some (.ok xmlPreconditionFailedResponse), S) := by
  have hholds : (generationCondition t).holds (S.vault.record b key).metadata = false := by
    rw [h.record]
    exact not_holds_generationCondition hnot
  rw [writeXmlObject, calm_attempt_bind (calm_getObjectMetadata h)]
  dsimp only [Except.toOption]
  rw [calm_attempt_bind (calm_storeObject_of_not_holds _ hholds)]
  rfl

/-- The deletion of an object that is there succeeds. -/
theorem exists_deleteObject_ok (E : Env) (now : Time) (h : Holds S b key B o) :
    ∃ V, Vault.deleteObject E now b key S.vault = (.ok (), V) := by
  have hrecord := h.record
  unfold Vault.deleteObject
  split
  · next hnone =>
    split
    · next hcurrent =>
      rw [KeyRecord.metadata, Option.isNone_iff_eq_none.1 hcurrent] at hrecord
      cases hrecord
    · exact ⟨_, rfl⟩
  · exact ⟨_, rfl⟩

theorem calm_removeObject_of_holds (E : Env) (now : Time) {c : ObjectCondition} (h : Holds S b key B o)
    (hholds : c.holds (some o) = true) :
    ∃ S', (removeObject E now b key (some c)).calm S = (some (.ok true), S') := by
  obtain ⟨V, hdelete⟩ := exists_deleteObject_ok E now h
  have hdeleteIf : Vault.deleteObjectIf E now b key c S.vault = (.ok true, V) :=
    Vault.mutateIf_of_holds (by rw [h.record, hholds]) hdelete
  exact ⟨_, calm_change_of hdeleteIf⟩

theorem calm_removeObject_of_not_holds {c : ObjectCondition} (h : Holds S b key B o)
    (hholds : c.holds (some o) = false) :
    (removeObject E now b key (some c)).calm S = (some (.ok false), S) := by
  have hdelete : Vault.deleteObjectIf E now b key c S.vault = (.ok false, S.vault) :=
    mutateIf_of_not_holds (by rw [h.record, hholds])
  exact calm_change_of hdelete

/-- An XML write or delete, of an object that is not retained, comes to its condition. -/
theorem calm_putXmlObject (h : Holds S b key B o) (hkeep : retainedIn now B o = false)
    (hadmitted : admitXmlPut E C req = .ok ()) {c : Option ObjectCondition}
    (hc : xmlMutationCondition req true = .ok c) :
    (putXmlObject E C now req b key).calm S = (writeXmlObject E C now req b key c).calm S := by
  rw [putXmlObject, hadmitted]
  dsimp only
  rw [calm_bind_ok (calm_existingObjectIsRetained h), hkeep]
  simp only [Bool.false_eq_true, if_false]
  rw [hc]

end Xml

/-! ### Deletion in the JSON API -/

section Json

variable {E : Env} {C : Crates} {now : Time} {S : System} {b : String} {key : Text} {B : Bucket}
  {req : Request}

theorem calm_checkedJsonBlob (h : Holds S b key B o) :
    (checkedJsonBlob req b key).calm S =
      (some (.ok (do
        checkCurrentGenerationSelector req o
        checkGcsPreconditions req o
        return o)), S) := by
  rw [checkedJsonBlob, calm_attempt_bind (calm_getObjectMetadata h)]
  dsimp only
  cases checkCurrentGenerationSelector req o with
  | error response => rfl
  | ok u =>
    dsimp only
    cases checkGcsPreconditions req o with
    | error response => rfl
    | ok u => rfl

theorem calm_currentPreconditionFailure (h : Holds S b key B o)
    (hcheck : checkGcsPreconditions req o = .ok ()) :
    (currentPreconditionFailure req b key).calm S =
      (some (.ok generationPreconditionFailed), S) := by
  rw [currentPreconditionFailure, calm_attempt_bind (calm_getObjectMetadata h)]
  dsimp only
  rw [hcheck]
  rfl

/-- **What the deletion of an object in the JSON API comes to**, when its checks are passed. -/
theorem calm_deleteJsonObject (h : Holds S b key B o) (hkeep : retainedIn now B o = false)
    (hselect : checkCurrentGenerationSelector req o = .ok ())
    (hcheck : checkGcsPreconditions req o = .ok ()) :
    ((jsonMutationCondition req o).holds (some o) = true →
      ∃ S', (deleteJsonObject E now req b key).calm S = (some (.ok (.empty 204)), S')) ∧
    ((jsonMutationCondition req o).holds (some o) = false →
      (deleteJsonObject E now req b key).calm S = (some (.ok generationPreconditionFailed), S)) := by
  have hblob : (checkedJsonBlob req b key).calm S = (some (.ok (.ok o)), S) := by
    rw [calm_checkedJsonBlob h, hselect, hcheck]
    rfl
  constructor
  · intro hholds
    obtain ⟨S', hremove⟩ := calm_removeObject_of_holds E now h hholds
    refine ⟨S', ?_⟩
    rw [deleteJsonObject, calm_bind_ok hblob]
    dsimp only
    rw [calm_bind_ok (calm_objectIsRetained h.bucket o), hkeep]
    simp only [Bool.false_eq_true, if_false]
    rw [calm_bind_ok hremove]
    rfl
  · intro hholds
    rw [deleteJsonObject, calm_bind_ok hblob]
    dsimp only
    rw [calm_bind_ok (calm_objectIsRetained h.bucket o), hkeep]
    simp only [Bool.false_eq_true, if_false]
    rw [calm_bind_ok (calm_removeObject_of_not_holds h hholds)]
    exact calm_currentPreconditionFailure h hcheck

theorem jsonMutationCondition_of_match (hmatch : req.queryParam "ifGenerationMatch" = some t)
    (hnot : req.queryParam "ifGenerationNotMatch" = none)
    (hmeta : req.queryParam "ifMetagenerationMatch" = none)
    (hmetaNot : req.queryParam "ifMetagenerationNotMatch" = none) :
    (jsonMutationCondition req o).holds (some o) = true ↔ Spelled o t := by
  have hcondition : jsonMutationCondition req o = .all [.metadata "__sqrzl_gcs_generation" t] := by
    unfold jsonMutationCondition
    rw [hmatch, hnot, hmeta, hmetaNot]
    rfl
  rw [hcondition, ObjectCondition.holds_all, List.forall_mem_singleton]
  simp [ObjectCondition.holds, Spelled]

theorem jsonMutationCondition_of_plain (hmatch : req.queryParam "ifGenerationMatch" = none)
    (hnot : req.queryParam "ifGenerationNotMatch" = none)
    (hmeta : req.queryParam "ifMetagenerationMatch" = none)
    (hmetaNot : req.queryParam "ifMetagenerationNotMatch" = none) :
    (jsonMutationCondition req o).holds (some o) = true ↔
      (∃ c, Spelled o c) ∧ (o.metadata["__sqrzl_gcs_metageneration"]?).isSome := by
  have hcondition : jsonMutationCondition req o =
      .all [.metadata "__sqrzl_gcs_generation" (generation o),
        .metadata "__sqrzl_gcs_metageneration" (metageneration o)] := by
    unfold jsonMutationCondition
    rw [hmatch, hnot, hmeta, hmetaNot]
    rfl
  rw [hcondition, ObjectCondition.holds_all]
  simp only [List.forall_mem_cons, List.not_mem_nil, false_imp_iff, implies_true, and_true,
    ObjectCondition.holds, Option.any_some, decide_eq_true_eq]
  unfold Spelled generation metageneration
  cases o.metadata["__sqrzl_gcs_generation"]? with
  | none => simp
  | some c =>
    cases o.metadata["__sqrzl_gcs_metageneration"]? with
    | none => simp
    | some m => simp

end Json

/-! ### Resumable uploads -/

section Resumable

variable {E : Env} {C : Crates} {now : Time} {S : System} {B : Bucket} {req : Request}
  {id : String} {session : ResumableSession}

theorem calm_lookup {α : Type} {g : System → α} : (lookup g).calm S = (some (.ok (g S)), S) := rfl

theorem calm_record {f : System → System} : (record f).calm S = (some (.ok ()), f S) := calm_mutation

theorem exists_calm_removeResumableSession (id : String) (S : System) :
    ∃ S', (removeResumableSession id).calm S = (some (.ok ()), S') := by
  refine ⟨System.unstage id (System.saveSession id none (System.cacheSession id none S)), ?_⟩
  rw [removeResumableSession, calm_bind_ok (a := ()) (t := System.cacheSession id none S) rfl,
    calm_bind_ok calm_record]
  exact calm_record

theorem errorsIn_checkUploadCrc32c :
    ErrorsIn Response.Unrelated (checkUploadCrc32c E C req session) := by
  have hunrelated : ∀ (json : Bool) (e : UploadMetadataError),
      (resumableChecksumError json e).Unrelated := by
    intro json e
    unfold resumableChecksumError
    split
    · exact unrelated_uploadMetadataErrorResponse e
    · cases e with
      | invalid message => exact ⟨nofun, nofun, nofun, nofun⟩
      | checksumMismatch message => exact ⟨nofun, nofun, nofun, nofun⟩
      | unsupported message => exact ⟨nofun, nofun, nofun, nofun⟩
  refine .bind (.mapError (hunrelated _)) fun _ ↦ .bind (.mapError (hunrelated _)) fun expected ↦ ?_
  cases expected with
  | none => exact .ok
  | some expected => exact .refuseWhen (hunrelated _ _)

/-- A publication, of a session whose bytes are all there, comes to its condition. -/
theorem calm_publishUpload (h : Holds S session.bucket session.key B o)
    (hB : Unprotected C now B) (hkeep : retainedIn now B o = false)
    (hcheck : checkUploadCrc32c E C req session = .ok ()) :
    (publishUpload E C now req id session).calm S =
      (publishOver E C now req id session (some o)).calm S := by
  rw [publishUpload, hcheck]
  dsimp only
  rw [calm_bind_ok (calm_foreignDataProtectionActive h.bucket hB)]
  simp only [Bool.false_eq_true, if_false]
  rw [calm_bind_ok (calm_existingObjectIsRetained h), hkeep]
  simp only [Bool.false_eq_true, if_false]
  rw [calm_attempt_bind (calm_getObjectMetadata h)]
  rfl

theorem status_uploadedResponse : (uploadedResponse E C session o).status = 200 := by
  unfold uploadedResponse
  split
  · rfl
  · rfl

theorem calm_composeUploadPayloads {uploaded : Object} {c : Option ObjectCondition} {data : Bytes}
    (hdata : composed session id S = some data) :
    (composeUploadPayloads E session id uploaded c).calm S =
      (storeObject E session.bucket session.key uploaded data c (some id)).calm S := by
  rw [composeUploadPayloads, calm_bind_ok calm_lookup, hdata]

theorem calm_composeUploadPayloads_none {uploaded : Object} {c : Option ObjectCondition}
    (hdata : composed session id S = none) :
    (composeUploadPayloads E session id uploaded c).calm S =
      (some (.error (.internalError "Failed to open staged upload item")), S) := by
  rw [composeUploadPayloads, calm_bind_ok calm_lookup, hdata]
  rfl

theorem not_refused_error {e : Error} : ¬ RefusedForPrecondition (some (.error e)) := by
  rintro ⟨_, ⟨⟩, -⟩

theorem not_succeeded_error {e : Error} : ¬ Succeeded (some (.error e)) := by
  rintro ⟨_, ⟨⟩, -⟩

/-- **A publication with the stored generation is not refused for it.** -/
theorem calm_publishOver_of_spelled (h : Holds S session.bucket session.key B o)
    (hpre : session.preconditions = ⟨some t, none⟩) (ht : t ≠ "0") (hspelled : Spelled o t) :
    ¬ RefusedForPrecondition ((publishOver E C now req id session (some o)).calm S).1 := by
  have hholds : (generationCondition t).holds (S.vault.record session.bucket session.key).metadata =
      true := by
    rw [h.record]
    exact holds_generationCondition.2 ⟨ht, hspelled⟩
  rw [publishOver, hpre]
  simp only [Option.isSome_some, uploadCondition_expected, calm_choose]
  cases hdata : composed session id S with
  | none =>
    rw [calm_bind_error (calm_composeUploadPayloads_none hdata)]
    exact not_refused_error
  | some data =>
    by_cases hsize : data.length = session.received
    · obtain ⟨S', B', o', hstore, hafter⟩ := calm_storeObject_of_holds E
        (uploadedObject E C now req session (some o) (E.uuid 0)) (some id) h.bucket hsize hholds
      obtain ⟨S'', hremove⟩ := exists_calm_removeResumableSession id S'
      rw [calm_bind_ok ((calm_composeUploadPayloads hdata).trans hstore)]
      dsimp only
      rw [calm_bind_ok (calm_getObjectMetadata hafter), calm_bind_ok hremove, calm_ret]
      refine not_refused_of ?_
      rw [status_uploadedResponse]
      decide
    · obtain ⟨e, S', hstore⟩ := calm_storeObject_of_size E
        (uploadedObject E C now req session (some o) (E.uuid 0)) (some id) h.bucket hsize hholds
      rw [calm_bind_error ((calm_composeUploadPayloads hdata).trans hstore)]
      exact not_refused_error

/-- **A publication with another text does not succeed**, and changes nothing. -/
theorem calm_publishOver_of_not_spelled (h : Holds S session.bucket session.key B o)
    (hpre : session.preconditions = ⟨some t, none⟩) (hnot : t = "0" ∨ ¬ Spelled o t) :
    ¬ Succeeded ((publishOver E C now req id session (some o)).calm S).1 ∧
      ((publishOver E C now req id session (some o)).calm S).2 = S := by
  have hholds : (generationCondition t).holds (S.vault.record session.bucket session.key).metadata =
      false := by
    rw [h.record]
    exact not_holds_generationCondition hnot
  rw [publishOver, hpre]
  simp only [Option.isSome_some, uploadCondition_expected, calm_choose]
  cases hdata : composed session id S with
  | none =>
    rw [calm_bind_error (calm_composeUploadPayloads_none hdata)]
    exact ⟨not_succeeded_error, rfl⟩
  | some data =>
    rw [calm_bind_ok ((calm_composeUploadPayloads hdata).trans
      (calm_storeObject_of_not_holds _ hholds))]
    refine ⟨not_succeeded_of ?_, rfl⟩
    show 412 ≠ 200 ∧ 412 ≠ 204
    decide

end Resumable

end Sqrzl.Gcs
