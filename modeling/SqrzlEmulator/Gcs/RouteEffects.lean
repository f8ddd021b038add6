import SqrzlEmulator.Gcs.ObjectEffects

/-!
# The effects of all routes

A request is for the key of its URL, for that of the upload it carries, or for that of the session
it continues (`intent`). **Whatever fails, a request changes this key and no other one**
(`does_handleRequest`).
-/

namespace Sqrzl.Gcs

open Prog S3

section Uploads

variable {E : Env} {C : Crates} {now : Time} {S : System} {b : String} {key : Text}
  {prior : List Event} {permit : List Event → Prop} {scope : Scope} {req : Request}

/-! ### Uploads of the JSON API -/

/-- The key of an upload in one request. -/
def uploadKey (E : Env) (C : Crates) (req : Request) : Option Text :=
  match req.queryParam "uploadType" with
  | some "media" => (admitMediaUpload E C req).toOption.map Prod.fst
  | some "multipart" => (admitMultipartUpload E C req).toOption.map Prod.fst
  | _ => none

theorem preconditions_of_admitMediaUpload {write : BlobWrite}
    (h : admitMediaUpload E C req = .ok (key, write)) :
    write.preconditions = queryPreconditions req := by
  obtain ⟨_, -, h⟩ := ok_of_bind h
  obtain ⟨_, -, h⟩ := ok_of_bind h
  obtain ⟨_, -, h⟩ := ok_of_bind h
  obtain ⟨_, -, h⟩ := ok_of_bind h
  obtain ⟨_, -, h⟩ := ok_of_bind h
  cases h
  rfl

theorem preconditions_of_admitMultipartUpload {write : BlobWrite}
    (h : admitMultipartUpload E C req = .ok (key, write)) :
    write.preconditions = queryPreconditions req := by
  obtain ⟨_, -, h⟩ := ok_of_bind h
  obtain ⟨_, -, h⟩ := ok_of_bind h
  obtain ⟨⟨metadata, contentType, data⟩, -, h⟩ := ok_of_bind h
  obtain ⟨_, -, h⟩ := ok_of_bind h
  obtain ⟨_, -, h⟩ := ok_of_bind h
  obtain ⟨_, -, h⟩ := ok_of_bind h
  cases h
  rfl

/-- An upload that is not admitted does nothing. -/
theorem does_uploadAdmitted {x : Except Response (Text × BlobWrite)}
    (hkey : ∀ key write, x = .ok (key, write) → write.preconditions = queryPreconditions req ∧
      scope = { key := some (b, key), stores := true } ∧
      permit = Intent.Permits now S.vault ⟨b, key, req.queryParam "ifGenerationMatch", 2⟩) :
    Does now permit scope prior (uploadAdmitted E C now req b x) S := by
  cases x with
  | error response => exact does_ret
  | ok admitted =>
    obtain ⟨key, write⟩ := admitted
    obtain ⟨hpre, rfl, rfl⟩ := hkey key write rfl
    have hguard : write.preconditions.expected = req.queryParam "ifGenerationMatch" := by
      rw [hpre]
      rfl
    rw [← hguard]
    exact does_uploadBlob

theorem looks_createResumableSession :
    Looks (createResumableSession E C now req b) S fun _ _ _ ↦ True := by
  unfold createResumableSession
  split
  · exact looks_ret trivial
  · exact looks_startSession

end Uploads

/-! ### Resumable uploads -/

section Sessions

variable {E : Env} {C : Crates} {now : Time} {S : System} {b id : String} {key : Text}
  {prior : List Event} {permit : List Event → Prop} {scope : Scope} {req : Request}
  {session : ResumableSession}

/-- The session that a request finds, in the memory of the adapter or in the store. -/
def System.openSession (S : System) (id : String) : Option ResumableSession :=
  S.cache[id]?.or S.sessions[id]?

theorem looks_removeResumableSession :
    Looks (removeResumableSession id) S fun r T _ ↦ r = .ok () → T.openSession id = none := by
  refine (looks_modify rfl rfl).bind ?_ ?_
  · rintro e T l ⟨⟨⟩, -⟩
  · rintro _ T l - ⟨-, rfl, -⟩
    refine (looks_record rfl rfl).bind (fun _ _ _ _ ↦ nofun) fun _ U _ _ hU ↦ ?_
    obtain rfl := hU rfl
    refine (looks_record rfl rfl).mono fun r W _ hW hr ↦ ?_
    obtain rfl := hW hr
    simp [System.openSession, System.unstage, System.saveSession, System.cacheSession]

/-- **A session that is loaded is the one that was open.** -/
theorem looks_loadResumableSession :
    Looks (loadResumableSession now id) S fun r _ _ ↦
      ∀ session, r = .ok (some session) → S.openSession id = some session := by
  have hcached : Looks (Prog.read fun S : System ↦ S.cache[id]? : Handler _) S fun r T l ↦
      r = .ok S.cache[id]? ∧ T = S ∧ l = [] :=
    wp_read.2 ⟨trivial, [], .refl S, rfl, rfl, rfl⟩
  refine hcached.bind (fun _ _ _ _ _ ↦ nofun) ?_
  rintro _ _ _ - ⟨⟨⟩, rfl, rfl⟩
  refine looks_lookup.bind (fun _ _ _ _ _ ↦ nofun) ?_
  rintro saved T l hl ⟨-, -, ⟨hsaved, -⟩ | hfailed⟩
  · cases hsaved
    dsimp only
    split
    · exact looks_removeResumableSession.bind (fun _ _ _ _ _ ↦ nofun) fun _ _ _ _ _ ↦ looks_ret nofun
    · exact looks_ret fun session hsession ↦ Except.ok.inj hsession
  · cases hfailed

/-- **The look for a cancellation keeps the session, or removes it.** -/
theorem looks_finishCancelledXmlUpload :
    Looks (finishCancelledXmlUpload now id) S fun r T _ ↦
      r = .ok false → T.openSession id = S.openSession id ∨ T.openSession id = none := by
  refine looks_lookup.bind (fun _ _ _ _ ↦ nofun) ?_
  rintro decision T l hl ⟨hcache, hsessions, -⟩
  cases decision with
  | none => exact looks_ret fun _ ↦ .inl (by rw [System.openSession, hcache, hsessions]; rfl)
  | some decision =>
    dsimp only
    split
    · exact looks_fail nofun
    · refine looks_removeResumableSession.bind (fun _ _ _ _ ↦ nofun) fun _ U l' hl' hremoved ↦ ?_
      have hgone : U.openSession id = none := hremoved rfl
      have hforget : ∀ W : System, W.cache = U.cache ∧ W.sessions = U.sessions →
          Looks ((Gcs.record (System.decide id none)).bind fun _ ↦ ret false : Handler Bool) W
            fun r X _ ↦ r = .ok false → X.openSession id = S.openSession id ∨ X.openSession id = none := by
        intro W hW
        refine (looks_record rfl rfl).bind (fun _ _ _ _ ↦ nofun) fun _ X _ _ hX ↦ ?_
        obtain rfl := hX rfl
        refine looks_ret fun _ ↦ .inr ?_
        rw [← hgone]
        show (W.cache[id]?).or W.sessions[id]? = _
        rw [hW.1, hW.2]
        rfl
      refine looks_getBucket.attempt_bind ?_
      rintro r W l'' - ⟨hcache', hsessions', -⟩
      have hW : W.cache = U.cache ∧ W.sessions = U.sessions := ⟨hcache', hsessions'⟩
      split
      · exact (hforget W hW).mono fun _ _ _ h ↦ h
      · exact looks_fail nofun
      · split
        · exact looks_ret nofun
        · exact (hforget W hW).mono fun _ _ _ h ↦ h

theorem looks_decideCancellation : Looks (decideCancellation id session) S fun _ _ _ ↦ True := by
  unfold decideCancellation
  split
  · refine looks_getBucket.bind (fun _ _ _ _ ↦ trivial) fun B _ _ _ _ ↦ ?_
    exact (looks_record rfl rfl).mono fun _ _ _ _ ↦ trivial
  · exact looks_ret trivial

theorem looks_cancelResumableUpload : Looks (cancelResumableUpload now id) S fun _ _ _ ↦ True := by
  refine looks_loadResumableSession.bind (fun _ _ _ _ ↦ trivial) fun session _ _ _ _ ↦ ?_
  cases session with
  | none => exact looks_ret trivial
  | some session =>
    refine looks_decideCancellation.bind (fun _ _ _ _ ↦ trivial) fun _ _ _ _ _ ↦ ?_
    exact looks_removeResumableSession.bind (fun _ _ _ _ ↦ trivial) fun _ _ _ _ _ ↦ looks_ret trivial

/-- The intent of a session. -/
def ResumableSession.intent (session : ResumableSession) : Intent :=
  ⟨session.bucket, session.key, session.ifGenerationMatch, 1⟩

theorem generation_uploadedObject {existing : Option Object} {etag : String} :
    generation (uploadedObject E C now req session existing etag) =
      following now (existing.map generation) := by
  show generation (objectFor E C now existing session.key [] session.contentType _ etag
    session.calculatedCrc32c) = _
  exact generation_objectFor

theorem does_publishOver {existing : Except Error Object} {l : List Event} {call : Call}
    (hretention : Unretained now S.vault session.bucket session.key ∨
      1 ≤ retentionFailures (l ++ prior))
    (hexisting : (∃ o, existing = .ok o ∧
        (S.vault.record session.bucket session.key).metadata = some o ∧ l = []) ∨
      (∃ e, existing = .error e ∧
        (S.vault.record session.bucket session.key).metadata = none ∧ l = []) ∨
      ((∃ e, existing = .error e) ∧ l = [.failed call])) :
    Does now (session.intent.Permits now S.vault) session.intent.scope (l ++ prior)
      (publishOver E C now req id session existing.toOption) S := by
  unfold publishOver
  cases hcondition : uploadCondition existing.toOption.isSome session.preconditions with
  | none => exact does_ret
  | some condition =>
    intro n
    refine Does.then_looks Intent.permits_append (looks_lookup.then_does ?_) fun written T ↦ ?_
    · intro data T l' hl' _
      cases data with
      | none => exact does_fail
      | some data =>
        rw [← hl'.permits]
        refine does_storeObject Intent.permits_append (fun hmeets ↦ ⟨?_, fun t ht ↦ ?_⟩) rfl ?_
        · refine hretention.imp hl'.unretained.2 fun hcount ↦ ?_
          rw [retentionFailures_append]
          exact hcount.trans (Nat.le_add_left ..)
        · exact matches_of_uploadCondition hcondition hmeets ht
        · rw [shownGeneration, hl'.shown]
          refine (following_lookup now hexisting).imp (fun hfollowing ↦ ?_) fun h ↦
            h.imp fun call hcall ↦ List.mem_append_right _ hcall
          exact generation_uploadedObject.trans hfollowing
    · cases written with
      | false => exact looks_ret trivial
      | true =>
        refine looks_getObjectMetadata.bind (fun _ _ _ _ ↦ trivial) fun _ _ _ _ _ ↦ ?_
        exact looks_removeResumableSession.bind (fun _ _ _ _ ↦ trivial)
          fun _ _ _ _ _ ↦ looks_ret trivial

theorem does_publishUpload :
    Does now (session.intent.Permits now S.vault) session.intent.scope prior
      (publishUpload E C now req id session) S := by
  unfold publishUpload
  split
  · exact does_ret
  · refine looks_foreignDataProtectionActive.then_does fun foreign T l hl _ ↦ ?_
    cases foreign with
    | true => exact does_ret
    | false =>
      refine looks_existingObjectIsRetained.then_does fun retained U l' hl' hretained ↦ ?_
      cases retained with
      | true => exact does_ret
      | false =>
        refine looks_getObjectMetadata.attempt_then_does ?_
        rintro existing W l'' hl'' ⟨-, -, hexisting⟩
        rw [← hl''.record] at hexisting
        rw [← hl.permits, ← hl'.permits, ← hl''.permits]
        refine does_publishOver ((hretained rfl).imp (fun hfree ↦ ?_) fun hcount ↦ ?_) hexisting
        · exact hl''.unretained.2 (hl'.unretained.2 hfree)
        · simp only [retentionFailures_append]
          omega

theorem does_continueUpload {final : Bool} :
    Does now (session.intent.Permits now S.vault) session.intent.scope prior
      (continueUpload E C now req id session final) S := by
  refine (looks_record rfl rfl).then_does fun _ T l hl _ ↦ ?_
  refine (looks_modify rfl rfl).then_does fun _ U l' hl' _ ↦ ?_
  split
  · exact does_ret
  · rw [← hl.permits, ← hl'.permits]
    exact does_publishUpload

variable {combine : UInt32 → UInt32 → ℕ → UInt32}

theorem does_takeRange {start last : ℕ} {total : Option ℕ} :
    Does now (session.intent.Permits now S.vault) session.intent.scope prior
      (takeRange E C now combine req id session start last total) S := by
  unfold takeRange
  split
  · exact does_ret
  · dsimp only
    split
    · refine (looks_record rfl rfl).then_does fun _ T l hl _ ↦ ?_
      rw [← hl.permits]
      exact does_continueUpload
    · exact does_continueUpload

/-- What a session may change. -/
theorem does_putResumableUpload
    (hsession : ∀ session, S.openSession id = some session →
      permit = session.intent.Permits now S.vault ∧ scope = session.intent.scope) :
    Does now permit scope prior (putResumableUpload E C now combine req id) S := by
  unfold putResumableUpload
  split
  · exact does_ret
  · refine looks_loadResumableSession.then_does fun session T l hl hloaded ↦ ?_
    cases session with
    | none => exact does_ret
    | some session =>
      obtain ⟨rfl, rfl⟩ := hsession session (hloaded session rfl)
      dsimp only
      split
      · exact does_ret
      · split
        · exact does_ret
        · exact does_ret
      · rw [← hl.permits]
        exact does_takeRange

/-- **Resumable uploads.** -/
theorem does_completeResumableUpload
    (hsession : ∀ session, S.openSession id = some session → req.method = .put →
      permit = session.intent.Permits now S.vault ∧ scope = session.intent.scope) :
    Does now permit scope prior (completeResumableUpload E C now combine req id) S := by
  unfold completeResumableUpload
  split
  · next hput =>
    refine looks_finishCancelledXmlUpload.then_does fun cancelled T l hl hcancelled ↦ ?_
    cases cancelled with
    | true => exact does_ret
    | false =>
      refine does_putResumableUpload fun session hT ↦ ?_
      rw [hl.permits]
      refine hsession session ?_ hput
      rcases hcancelled rfl with hkept | hgone
      · rw [← hkept]
        exact hT
      · rw [hgone] at hT
        cases hT
  · refine looks_finishCancelledXmlUpload.then_does fun cancelled T l hl _ ↦ ?_
    cases cancelled with
    | true => exact does_ret
    | false => exact looks_cancelResumableUpload.does
  · exact does_ret

end Sessions

/-! ### Buckets -/

/-- The settings of a bucket were changed, or it was created or deleted. No object is concerned. -/
structure Arranged (b : String) (V V' : Vault) : Prop where
  shown : ∀ b' key, shown V' b' key = shown V b' key
  policy : ∀ b', b' ≠ b → policy V' b' = policy V b'

section Buckets

variable {α β : Type} {C : Crates} {now : Time} {V V' V'' : Vault} {S T : System} {b : String}
  {B : Bucket} {prior : List Event} {permit : List Event → Prop} {scope : Scope} {req : Request}

theorem Arranged.refl (b : String) (V : Vault) : Arranged b V V :=
  ⟨fun _ _ ↦ rfl, fun _ _ ↦ rfl⟩

theorem Arranged.trans (h : Arranged b V V') (h' : Arranged b V' V'') : Arranged b V V'' :=
  ⟨fun b' key ↦ (h'.shown b' key).trans (h.shown b' key),
    fun b' hne ↦ (h'.policy b' hne).trans (h.policy b' hne)⟩

/-- A bucket is replaced by one in which the same objects are seen. -/
theorem arranged_set {B' : Option Bucket}
    (h : ∀ key, shown { V with buckets := V.buckets.set b B' } b key = shown V b key) :
    Arranged b V { V with buckets := V.buckets.set b B' } := by
  constructor
  · intro b' key
    by_cases hb : b' = b
    · rw [hb, h]
    · simp only [shown, Vault.record, Table.getElem?_set, if_neg hb]
  · intro b' hne
    simp only [policy, Table.getElem?_set, if_neg hne]

theorem arranged_createBucket (now : Time) (b : String) (V : Vault) :
    Arranged b V (Vault.createBucket now b V).2 ∧
      ((V.buckets[b]? = none) ∨
        ∃ e, Vault.createBucket now b V = (.error e, V)) := by
  rw [Vault.createBucket, Atomic.view_bind]
  cases hB : V.buckets[b]? with
  | some B =>
    have hmem : V.buckets.contains b = true := by
      rw [Std.ExtTreeMap.contains_eq_isSome_getElem?, hB]
      rfl
    rw [Atomic.refuseIf_bind_of hmem]
    exact ⟨.refl b V, .inr ⟨_, rfl⟩⟩
  | none =>
    have hmem : ¬ V.buckets.contains b = true := by
      rw [Std.ExtTreeMap.contains_eq_isSome_getElem?, hB]
      nofun
    rw [Atomic.refuseIf_bind_of_not hmem]
    refine ⟨arranged_set fun key ↦ ?_, .inl rfl⟩
    simp [shown, Vault.record, hB, Bucket.record]

theorem arranged_deleteBucket (b : String) (V : Vault) :
    Arranged b V (Vault.deleteBucket b V).2 ∧
      ((Vault.deleteBucket b V).2.buckets[b]? = none ∨ (Vault.deleteBucket b V).2 = V) := by
  rw [Vault.deleteBucket]
  cases hB : V.buckets[b]? with
  | none =>
    rw [Vault.getBucket_bind_of_none hB]
    exact ⟨.refl b V, .inr rfl⟩
  | some B =>
    rw [Vault.getBucket_bind_of_some hB]
    by_cases hempty : (B.objects.isEmpty && B.uploads.isEmpty) = true
    · rw [Atomic.refuseIf_bind_of_not (by rw [hempty]; nofun)]
      have hobjects : B.objects = ∅ := Std.ExtTreeMap.isEmpty_iff.1 (Bool.and_eq_true_iff.1 hempty).1
      refine ⟨arranged_set fun key ↦ ?_, .inl ?_⟩
      · simp [shown, Vault.record, hB, Bucket.record, hobjects]
      · show (V.buckets.set b none)[b]? = none
        rw [Table.getElem?_set, if_pos rfl]
    · rw [Atomic.refuseIf_bind_of (by rw [Bool.eq_false_iff.2 hempty]; rfl)]
      exact ⟨.refl b V, .inr rfl⟩

theorem arranged_updateBucketMetadata (now : Time) (b : String) (metadata : Table String String)
    (V : Vault) :
    Arranged b V (Vault.updateBucketMetadata now b metadata V).2 ∧
      (policy (Vault.updateBucketMetadata now b metadata V).2 b =
          some metadata["gcs_retention_seconds"]? ∨
        (Vault.updateBucketMetadata now b metadata V).1 ≠ .ok () ∧
          policy (Vault.updateBucketMetadata now b metadata V).2 b = policy V b) := by
  rw [Vault.updateBucketMetadata]
  cases hB : V.buckets[b]? with
  | none =>
    rw [Vault.getBucket_bind_of_none hB]
    exact ⟨.refl b V, .inr ⟨nofun, rfl⟩⟩
  | some B =>
    rw [Vault.getBucket_bind_of_some hB]
    refine ⟨arranged_set fun key ↦ ?_, .inl ?_⟩
    · simp [shown, Vault.record, hB, Bucket.record]
    · show ((V.buckets.set b (some _))[b]?).map _ = _
      rw [Table.getElem?_set, if_pos rfl]
      rfl

theorem arranged_setVersioning (now : Time) (b : String) (v : VersioningState) (V : Vault) :
    Arranged b V (Vault.setVersioning now b v V).2 ∧
      policy (Vault.setVersioning now b v V).2 b = policy V b := by
  rw [Vault.setVersioning]
  cases hB : V.buckets[b]? with
  | none =>
    rw [Vault.getBucket_bind_of_none hB]
    exact ⟨.refl b V, rfl⟩
  | some B =>
    rw [Vault.getBucket_bind_of_some hB]
    refine ⟨arranged_set fun key ↦ ?_, ?_⟩
    · rw [shown, Vault.record, Table.getElem?_set, if_pos rfl, shown, Vault.record, hB]
      show ((((B.objects.map fun _ (e : KeyRecord) ↦ e.assignNullVersionId)[key]?).getD
        {}).current).map _ = _
      rw [Std.ExtTreeMap.getElem?_map]
      show _ = ((B.objects[key]?.getD {}).current).map _
      cases B.objects[key]? with
      | none => rfl
      | some e =>
        show (e.current.map _).map _ = e.current.map _
        rw [Option.map_map]
        congr 1
        funext st
        dsimp only [Function.comp_apply]
        split
        · rfl
        · rfl
    · show ((V.buckets.set b (some _))[b]?).map _ = V.buckets[b]?.map _
      rw [Table.getElem?_set, if_pos rfl, hB]
      rfl

/-- A bucket was arranged, and calls may have failed. -/
structure Rearranged (b : String) (S T : System) (l : List Event) : Prop where
  vault : Arranged b S.vault T.vault
  log : T.log = l ++ S.log
  failed : ∀ e ∈ l, ∃ call, e = .failed call

theorem Looked.rearranged {l : List Event} (h : Looked S T l) (b : String) : Rearranged b S T l :=
  ⟨⟨h.shown, fun b' _ ↦ h.policy b'⟩, h.log, h.failed⟩

theorem Rearranged.trans {U : System} {l l' : List Event} (h : Rearranged b S T l)
    (h' : Rearranged b T U l') : Rearranged b S U (l' ++ l) where
  vault := h.vault.trans h'.vault
  log := by rw [h'.log, h.log, List.append_assoc]
  failed e he := (List.mem_append.1 he).elim (h'.failed e) (h.failed e)

/-- **No object is concerned**, and only the policy of one bucket. -/
theorem Rearranged.effect {l : List Event} (h : Rearranged b S T l)
    (hpolicy : PolicyChange scope (l ++ prior) S T b) : Effect now permit scope prior S T := by
  have hnone : ∀ b' key, l.filterMap (Event.storedAt b' key) = [] := by
    intro b' key
    rw [List.filterMap_eq_nil_iff]
    intro e he
    obtain ⟨call, rfl⟩ := h.failed e he
    rfl
  refine ⟨l, h.log, fun b' key ↦ .kept (h.vault.shown b' key) ?_, fun b' ↦ ?_⟩
  · rw [history, h.log, List.filterMap_append, hnone]
    rfl
  · by_cases hb : b' = b
    · exact hb ▸ hpolicy
    · exact .kept (h.vault.policy b' hb)

/-- A handler that arranges a bucket, with what is known of its result. -/
def Arranges (b : String) (p : Handler α) (S : System)
    (Q : Except Error α → Vault → List Event → Prop) : Prop :=
  wp (fun _ ↦ True) p (fun r T ↦ ∃ l, Rearranged b S T l ∧ Q r T.vault l) S

variable {p : Handler α} {f : α → Handler β} {Q : Except Error α → Vault → List Event → Prop}
  {R : Except Error β → Vault → List Event → Prop}

theorem arranges_ret {a : α} (h : Q (.ok a) S.vault []) : Arranges b (ret a) S Q :=
  ⟨trivial, [], (Looked.refl S).rearranged b, h⟩

theorem Looks.arranges {L : Except Error α → System → List Event → Prop} (h : Looks p S L)
    (hQ : ∀ r T l, Looked S T l → L r T l → Q r T.vault l) : Arranges b p S Q :=
  wp_mono h (fun _ ↦ id) fun r T _ ⟨l, hl, hr⟩ ↦ ⟨l, hl.rearranged b, hQ r T l hl hr⟩

theorem Arranges.bind (h : Arranges b p S Q)
    (herror : ∀ e V l, Q (.error e) V l → R (.error e) V l)
    (hok : ∀ a T l, Q (.ok a) T.vault l → Arranges b (f a) T fun r V l' ↦ R r V (l' ++ l)) :
    Arranges b (p.bind f) S R := by
  rw [Arranges, wp_bind]
  refine wp_mono h (fun _ ↦ id) fun r T _ ⟨l, hl, hq⟩ ↦ ?_
  cases r with
  | error e => exact ⟨l, hl, herror e _ l hq⟩
  | ok a =>
    exact wp_mono (hok a T l hq) (fun _ ↦ id) fun r U _ ⟨l', hl', hr⟩ ↦ ⟨_, hl.trans hl', hr⟩

theorem Arranges.attempt_bind {f : Except Error α → Handler β} (h : Arranges b p S Q)
    (hf : ∀ r T l, Q r T.vault l → Arranges b (f r) T fun r V l' ↦ R r V (l' ++ l)) :
    Arranges b (p.attempt.bind f) S R := by
  rw [Arranges, wp_bind, wp_attempt]
  refine wp_mono h (fun _ ↦ id) fun r T _ ⟨l, hl, hq⟩ ↦ ?_
  exact wp_mono (hf r T l hq) (fun _ ↦ id) fun r U _ ⟨l', hl', hr⟩ ↦ ⟨_, hl.trans hl', hr⟩

theorem Arranges.mono {Q' : Except Error α → Vault → List Event → Prop} (h : Arranges b p S Q)
    (hQ : ∀ r V l, Q r V l → Q' r V l) : Arranges b p S Q' :=
  wp_mono h (fun _ ↦ id) fun r T _ ⟨l, hl, hq⟩ ↦ ⟨l, hl, hQ r T.vault l hq⟩

/-- A call that arranges a bucket does it once, whether it fails or not. -/
theorem arranges_changeVault {m : VaultOp α} {r : Except Error α} {V : Vault}
    (hm : m S.vault = (r, V)) (harranged : Arranged b S.vault V) (hok : Q r V [])
    (hbefore : Q (.error ioError) S.vault [.failed .other])
    (hafter : Q (.error ioError) V [.failed .other]) : Arranges b (changeVault m) S Q := by
  have hdone : Rearranged b S (S.after (fun _ ↦ []) (r, V)) [] :=
    ⟨harranged, System.log_after _, nofun⟩
  have hafterwards : S.after (fun _ ↦ []) (m S.vault) = S.after (fun _ ↦ []) (r, V) :=
    congrArg (fun outcome : Except Error α × Vault ↦ S.after (fun _ ↦ []) outcome) hm
  refine wp_mutation.2 ?_
  rw [hafterwards, show (m S.vault).1 = r from congrArg Prod.fst hm]
  exact ⟨trivial, trivial, ⟨[], hdone, hok⟩, trivial,
    ⟨_, (Looked.note S .other).rearranged b, hbefore⟩, trivial,
    _, hdone.trans ((Looked.note _ .other).rearranged b), hafter⟩

theorem Arranges.does (h : Arranges b p S Q)
    (hpolicy : ∀ r T l, Q r T.vault l → PolicyChange scope (l ++ prior) S T b) :
    Does now permit scope prior p S :=
  wp_mono h (fun _ ↦ id) fun r T _ ⟨l, hl, hq⟩ ↦ hl.effect (hpolicy r T l hq)

/-! ### Policies -/

/-- The policy is as a payload says of the metadata of the bucket, or of none if these were not
found. Unless the update is `done`, it may be as before. -/
def PolicyFrom (b : String) (payload : Json) (V : Vault) (done : Prop) (V' : Vault) (l : List Event) :
    Prop :=
  (∃ metadata, ((∃ B, V.buckets[b]? = some B ∧ metadata = B.metadata) ∨ .failed .policy ∈ l) ∧
    policy V' b = some (withRetentionPolicy payload metadata)["gcs_retention_seconds"]?) ∨
  ¬ done ∧ policy V' b = policy V b

/-- The retention period does not depend on the other settings. -/
theorem withRetentionPolicy_set {payload : Json} {metadata : Table String String}
    {seconds : Option String} :
    (withRetentionPolicy payload (metadata.set "gcs_soft_delete_seconds"
      seconds))["gcs_retention_seconds"]? =
        (withRetentionPolicy payload metadata)["gcs_retention_seconds"]? := by
  unfold withRetentionPolicy
  split
  · simp
  · simp
  · split
    · simp
    · simp

theorem arranges_updateBucketMetadata {payload : Json} {metadata read : Table String String}
    {V : Vault} {l : List Event}
    (hread : (∃ B, V.buckets[b]? = some B ∧ read = B.metadata) ∨ .failed .policy ∈ l)
    (hkept : policy S.vault b = policy V b)
    (hmetadata : metadata["gcs_retention_seconds"]? =
      (withRetentionPolicy payload read)["gcs_retention_seconds"]?) :
    Arranges b (changeVault (Vault.updateBucketMetadata now b metadata)) S
      fun r V' l' ↦ PolicyFrom b payload V (r = .ok ()) V' (l' ++ l) := by
  obtain ⟨harranged, hpolicy⟩ := arranged_updateBucketMetadata now b metadata S.vault
  rcases hpolicy with hpolicy | ⟨hfailed, hpolicy⟩
  · have hfrom : ∀ done l', PolicyFrom b payload V done
        (Vault.updateBucketMetadata now b metadata S.vault).2 (l' ++ l) :=
      fun _ _ ↦ .inl ⟨read, hread.imp_right (List.mem_append_right _),
        hpolicy.trans (congrArg some hmetadata)⟩
    exact arranges_changeVault rfl harranged (hfrom _ _) (.inr ⟨nofun, hkept⟩) (hfrom _ _)
  · exact arranges_changeVault rfl harranged (.inr ⟨hfailed, hpolicy.trans hkept⟩)
      (.inr ⟨nofun, hkept⟩) (.inr ⟨nofun, hpolicy.trans hkept⟩)

theorem arranges_applyBucketDataProtection {payload : Json} :
    Arranges b (applyBucketDataProtection now b payload) S
      fun r V l ↦ PolicyFrom b payload S.vault (r = .ok ()) V l := by
  have hread : Arranges b (getBucketFor .other .policy b) S fun r V l ↦
      V.buckets = S.vault.buckets ∧ ∀ B, r = .ok B →
        (∃ B', S.vault.buckets[b]? = some B' ∧ B.metadata = B'.metadata) ∨ .failed .policy ∈ l := by
    refine looks_getBucketFor.arranges ?_
    rintro r T l hl ⟨-, -, ⟨B, rfl, hB, -⟩ | ⟨rfl, -⟩ | rfl | ⟨⟨e, rfl⟩, -⟩⟩
    · exact ⟨hl.buckets, fun B' hB' ↦ .inl ⟨B, hB, by rw [Except.ok.inj hB']⟩⟩
    · exact ⟨hl.buckets, fun _ h ↦ by cases h⟩
    · exact ⟨hl.buckets, fun _ _ ↦ .inr List.mem_cons_self⟩
    · exact ⟨hl.buckets, fun _ h ↦ by cases h⟩
  have hsame : ∀ V : Vault, V.buckets = S.vault.buckets → policy V b = policy S.vault b := by
    intro V hV
    rw [policy, hV, policy]
  refine hread.bind (fun e V _ hV ↦ .inr ⟨(fun h ↦ by cases h), hsame V hV.1⟩) fun B T l hT ↦ ?_
  have hB := hT.2 B rfl
  have hkept : policy T.vault b = policy S.vault b := hsame _ hT.1
  cases softDeleteSeconds payload with
  | none => exact arranges_updateBucketMetadata hB hkept rfl
  | some seconds =>
    obtain ⟨harranged, hpolicy⟩ := arranged_setVersioning now b .enabled T.vault
    have hversioning : Arranges b (changeVault (Vault.setVersioning now b .enabled)) T
        fun _ V _ ↦ policy V b = policy S.vault b :=
      arranges_changeVault rfl harranged (hpolicy.trans hkept) hkept (hpolicy.trans hkept)
    refine hversioning.bind (fun _ _ _ hV ↦ .inr ⟨(fun h ↦ by cases h), hV⟩) fun _ U l' hU ↦ ?_
    exact (arranges_updateBucketMetadata (hB.imp_right (List.mem_append_right l')) hU
      withRetentionPolicy_set).mono fun _ _ _ h ↦ by rwa [List.append_assoc]

/-! ### Handlers for buckets -/

/-- A bucket was not there, or its policy is as before. -/
def NewPolicy (b : String) (V V' : Vault) : Prop :=
  V.buckets[b]? = none ∨ policy V' b = policy V b

theorem arranges_createBucket :
    Arranges b (changeVault (Vault.createBucket now b)) S fun r V _ ↦
      NewPolicy b S.vault V ∧ (r = .ok () → S.vault.buckets[b]? = none) := by
  obtain ⟨harranged, hnone | ⟨e, he⟩⟩ := arranged_createBucket now b S.vault
  · exact arranges_changeVault rfl harranged ⟨.inl hnone, fun _ ↦ hnone⟩ ⟨.inl hnone, nofun⟩
      ⟨.inl hnone, nofun⟩
  · exact arranges_changeVault he (.refl b S.vault) ⟨.inr rfl, nofun⟩ ⟨.inr rfl, nofun⟩
      ⟨.inr rfl, nofun⟩

theorem arranges_deleteBucket :
    Arranges b (changeVault (Vault.deleteBucket b)) S fun _ V _ ↦
      V.buckets[b]? = none ∨ policy V b = policy S.vault b := by
  obtain ⟨harranged, hnone | hsame⟩ := arranged_deleteBucket b S.vault
  · exact arranges_changeVault rfl harranged (.inl hnone) (.inr rfl) (.inl hnone)
  · have hpolicy : policy (Vault.deleteBucket b S.vault).2 b = policy S.vault b :=
      congrArg (policy · b) hsame
    exact arranges_changeVault rfl harranged (.inr hpolicy) (.inr rfl) (.inr hpolicy)

theorem arranges_rollBackBucket : Arranges b (rollBackBucket b) S fun _ _ _ ↦ True :=
  arranges_deleteBucket.attempt_bind fun _ _ _ _ ↦ arranges_ret trivial

theorem does_createJsonBucket : Does now permit scope prior (createJsonBucket C now req) S := by
  unfold createJsonBucket
  split
  · exact does_ret
  · next payload _ =>
    split
    · exact does_ret
    · next b _ _ =>
      split
      · exact does_ret
      · have hcreate : ∀ p : Handler Response, Arranges b p S (fun _ V _ ↦ NewPolicy b S.vault V) →
            Does now permit scope prior p S :=
          fun p hp ↦ hp.does fun r T _ hT ↦ hT.elim .created .kept
        refine hcreate _ ?_
        refine arranges_createBucket.attempt_bind ?_
        rintro r T _ ⟨hnew, hnone⟩
        split
        · exact arranges_ret hnew
        · exact arranges_ret hnew
        · -- The bucket is new, so that nothing is asked of its policy any more.
          have hfree : ∀ (_ : Except Error Response) (V : Vault) (_ : List Event), True →
              NewPolicy b S.vault V := fun _ _ _ _ ↦ .inl (hnone rfl)
          refine Arranges.mono ?_ hfree
          refine arranges_applyBucketDataProtection.attempt_bind fun r U _ _ ↦ ?_
          cases r with
          | error e => exact arranges_rollBackBucket
          | ok _ =>
            have hread : Arranges b (getBucket .other b) U fun _ _ _ ↦ True :=
              looks_getBucket.arranges fun _ _ _ _ _ ↦ trivial
            refine hread.attempt_bind fun r W _ _ ↦ ?_
            cases r with
            | error e => exact arranges_rollBackBucket
            | ok B => exact arranges_ret trivial
    · exact does_ret

theorem does_createXmlBucket : Does now permit scope prior (createXmlBucket now req b) S := by
  unfold createXmlBucket
  split
  · exact does_ret
  · split
    · exact does_ret
    · refine Arranges.does (b := b) (Q := fun _ V _ ↦ NewPolicy b S.vault V)
        (arranges_createBucket.attempt_bind ?_) fun r T _ hT ↦ hT.elim .created .kept
      rintro r T _ ⟨hnew, -⟩
      split
      · exact arranges_ret hnew
      · exact arranges_ret hnew
      · exact arranges_ret hnew

theorem PolicyChange.of_deleted {l : List Event} (h : T.vault.buckets[b]? = none ∨
    policy T.vault b = policy S.vault b) : PolicyChange scope l S T b :=
  h.elim .deleted .kept

/-- Both deletions of a bucket are only answered behind the change. -/
theorem does_deleteBucket {refused : Response} {k : Except Error Unit → Handler Response}
    (hk : ∀ r, ∃ answer, k r = ret answer) :
    Does now permit scope prior ((foreignDataProtectionActive C now b).bind fun foreign ↦
      if foreign then ret refused else (changeVault (Vault.deleteBucket b)).attempt.bind k) S := by
  refine looks_foreignDataProtectionActive.then_does fun foreign T l _ _ ↦ ?_
  cases foreign with
  | true => exact does_ret
  | false =>
    refine Arranges.does (b := b) (Q := fun _ V _ ↦ V.buckets[b]? = none ∨
      policy V b = policy T.vault b) (arranges_deleteBucket.attempt_bind fun r U _ hU ↦ ?_)
      fun _ _ _ ↦ .of_deleted
    obtain ⟨answer, hanswer⟩ := hk r
    rw [hanswer]
    exact arranges_ret hU

theorem does_deleteJsonBucket : Does now permit scope prior (deleteJsonBucket C now b) S :=
  does_deleteBucket fun _ ↦ by split <;> exact ⟨_, rfl⟩

theorem does_deleteXmlBucket : Does now permit scope prior (deleteXmlBucket C now b) S :=
  does_deleteBucket fun _ ↦ by split <;> exact ⟨_, rfl⟩

theorem validateRetentionPolicy_of_ok {payload : Json}
    (h : validateBucketDataProtection req payload = .ok ()) :
    validateRetentionPolicy payload = .ok () := by
  obtain ⟨_, -, h⟩ := ok_of_bind h
  split at h
  · cases h
  · obtain ⟨_, hvalid, -⟩ := ok_of_bind h
    exact hvalid

/-- **An update that is answered with the bucket has written its policy.** -/
theorem arranges_patchBucketWith {payload : Json} :
    Arranges b (patchBucketWith now b payload) S fun r V l ↦
      PolicyFrom b payload S.vault (∃ response, r = .ok response ∧ response.status = 200) V l := by
  refine arranges_applyBucketDataProtection.attempt_bind fun r T l hT ↦ ?_
  cases r with
  | error e =>
    refine arranges_ret (hT.imp_right fun h ↦ ⟨?_, h.2⟩)
    rintro ⟨response, ⟨⟩, hstatus⟩
    cases hstatus
  | ok _ =>
    obtain ⟨metadata, hmetadata, hpolicy⟩ := hT.resolve_right fun h ↦ h.1 rfl
    have hread : Arranges b (getBucket .other b) T fun _ V l' ↦
        ∀ done, PolicyFrom b payload S.vault done V (l' ++ l) :=
      looks_getBucket.arranges fun _ U _ hl _ done ↦ .inl
        ⟨metadata, hmetadata.imp_right (List.mem_append_right _), (hl.policy b).trans hpolicy⟩
    refine hread.attempt_bind fun r U l' hU ↦ ?_
    split
    · exact arranges_ret (hU _)
    · exact arranges_ret (hU _)
    · exact arranges_ret (hU _)

theorem does_patchBucketWith {payload : Json} (hvalid : validateRetentionPolicy payload = .ok ())
    (hscope : scope.update = some (b, payload)) :
    Does now permit scope prior (patchBucketWith now b payload) S := by
  refine arranges_patchBucketWith.does fun r T l hT ↦ ?_
  rcases hT with ⟨metadata, ⟨B, hB, rfl⟩ | hmissing, hpolicy⟩ | ⟨-, hkept⟩
  · exact .updated payload hscope hvalid B hB hpolicy
  · exact .misread payload hscope (List.mem_append_left _ hmissing)
  · exact .kept hkept

theorem does_patchJsonBucket
    (hscope : ∀ payload, C.parseJson req.body = some payload → scope.update = some (b, payload)) :
    Does now permit scope prior (patchJsonBucket C now req b) S := by
  refine looks_getBucket.attempt_then_does fun r T l _ _ ↦ ?_
  split
  · exact does_ret
  · split
    · exact does_ret
    · next payload hpayload =>
      split
      · exact does_ret
      · next hvalid =>
        have hpolicy := validateRetentionPolicy_of_ok hvalid
        split
        · refine looks_foreignDataProtectionActive.then_does fun foreign U _ _ _ ↦ ?_
          cases foreign with
          | true => exact does_ret
          | false => exact does_patchBucketWith hpolicy (hscope payload hpayload)
        · exact does_patchBucketWith hpolicy (hscope payload hpayload)

theorem does_handleJsonBucketItem
    (hscope : ∀ payload, req.method = .patch → C.parseJson req.body = some payload →
      scope.update = some (b, payload)) :
    Does now permit scope prior (handleJsonBucketItem C now req b) S := by
  unfold handleJsonBucketItem
  split
  · refine looks_getBucket.attempt_then_does fun r T l _ _ ↦ ?_
    split
    · exact does_ret
    · exact does_ret
    · exact does_ret
  · exact does_deleteJsonBucket
  · next hmethod => exact does_patchJsonBucket fun payload ↦ hscope payload hmethod
  · exact does_ret

theorem does_handleXmlListing : Does now permit scope prior (handleXmlListing C now b) S := by
  refine looks_foreignDataProtectionActive.then_does fun foreign T l _ _ ↦ ?_
  cases foreign with
  | true => exact does_ret
  | false =>
    refine looks_getBucket.attempt_then_does fun r _ _ _ _ ↦ ?_
    cases r with
    | error e => exact does_ret
    | ok B => exact does_ret

theorem does_handleJsonListing : Does now permit scope prior (handleJsonListing C now b) S := by
  refine looks_foreignDataProtectionActive.then_does fun foreign T l _ _ ↦ ?_
  cases foreign with
  | true => exact does_ret
  | false =>
    refine looks_getBucket.attempt_then_does fun r _ _ _ _ ↦ ?_
    split
    · exact does_ret
    · exact does_ret
    · exact does_ret

end Buckets

/-! ### Routes -/

section Routes

variable (E : Env) (C : Crates)

/-- What a request is for: the key of its URL, that of the upload it carries, or that of the session
it continues. -/
def intent (target : Target) (req : Request) (S : System) : Option Intent :=
  match target with
  | .xmlObject b key => some ⟨b, key, req.header "x-goog-if-generation-match", 1⟩
  | .jsonObject b key => some ⟨b, key, req.queryParam "ifGenerationMatch", 1⟩
  | .jsonUpload b =>
    (uploadKey E C req).map fun key ↦ ⟨b, key, req.queryParam "ifGenerationMatch", 2⟩
  | .resumable id => (S.openSession id).map ResumableSession.intent
  | _ => none

/-- The update of a bucket that a request carries. -/
def bucketUpdate (target : Target) (req : Request) : Option (String × Json) :=
  match target with
  | .jsonBucket b =>
    if req.method = .patch then (C.parseJson req.body).map fun payload ↦ (b, payload) else none
  | _ => none

/-- Whether a request can store an object. -/
def writes (target : Target) (req : Request) : Bool :=
  match target with
  | .xmlObject _ _ => req.method = .put
  | .jsonUpload _ => true
  | .resumable _ => req.method = .put
  | _ => false

/-- What a request may change. -/
def scopeOf (target : Target) (req : Request) (S : System) : Scope where
  key := (intent E C target req S).map fun i ↦ (i.bucket, i.key)
  stores := writes target req
  update := bucketUpdate C target req

/-- What permits a request to change its key. -/
def Permitted (now : Time) (target : Target) (req : Request) (S : System) (l : List Event) : Prop :=
  ∀ i, intent E C target req S = some i → i.Permits now S.vault l

variable {E C} {now : Time} {combine : UInt32 → UInt32 → ℕ → UInt32} {S : System} {target : Target}
  {req : Request} {prior : List Event}

theorem permitted_of_intent {i : Intent} (h : intent E C target req S = some i) :
    Permitted E C now target req S = i.Permits now S.vault := by
  funext l
  refine propext ⟨fun hall ↦ hall i h, fun hi i' h' ↦ ?_⟩
  rw [h] at h'
  cases h'
  exact hi

theorem does_handleJsonUpload {b : String} :
    Does now (Permitted E C now (.jsonUpload b) req S) (scopeOf E C (.jsonUpload b) req S) prior
      (handleJsonUpload E C now req b) S := by
  unfold handleJsonUpload
  split
  · exact does_ret
  · refine looks_getBucket.attempt_then_does fun r T l hl _ ↦ ?_
    split
    · exact does_ret
    · exact does_fail
    · refine looks_foreignDataProtectionActive.then_does fun foreign U l' hl' _ ↦ ?_
      cases foreign with
      | true => exact does_ret
      | false =>
        have hupload : ∀ key, uploadKey E C req = some key →
            scopeOf E C (.jsonUpload b) req S = { key := some (b, key), stores := true } ∧
              Permitted E C now (.jsonUpload b) req S =
                Intent.Permits now U.vault ⟨b, key, req.queryParam "ifGenerationMatch", 2⟩ := by
          intro key hkey
          have hintent : intent E C (.jsonUpload b) req S =
              some ⟨b, key, req.queryParam "ifGenerationMatch", 2⟩ := by
            rw [intent, hkey]
            rfl
          refine ⟨?_, ?_⟩
          · rw [scopeOf, hintent]
            rfl
          · rw [permitted_of_intent hintent, hl'.permits, hl.permits]
        cases htype : req.queryParam "uploadType" with
        | none => exact does_ret
        | some type =>
          simp only [Bool.false_eq_true, if_false]
          split
          · next hmedia =>
            subst hmedia
            refine does_uploadAdmitted fun key write hadmitted ↦
              ⟨preconditions_of_admitMediaUpload hadmitted, hupload key ?_⟩
            rw [uploadKey, htype]
            simp only [hadmitted]
            rfl
          · split
            · next hmultipart =>
              subst hmultipart
              refine does_uploadAdmitted fun key write hadmitted ↦
                ⟨preconditions_of_admitMultipartUpload hadmitted, hupload key ?_⟩
              rw [uploadKey, htype]
              simp only [hadmitted]
              rfl
            · split
              · exact looks_createResumableSession.does
              · exact does_ret

/-- **What a request does, whatever fails.** -/
theorem does_handleRequest (prior : List Event) :
    Does now (Permitted E C now target req S) (scopeOf E C target req S) prior
      (handleRequest E C now combine target req) S := by
  cases target with
  | xmlBucket b =>
    unfold handleRequest
    dsimp only
    split
    · exact does_createXmlBucket
    · exact does_deleteXmlBucket
    · exact does_handleXmlListing
    · exact does_ret
  | xmlObject b key =>
    rw [permitted_of_intent rfl]
    exact does_handleXmlObject
  | jsonBuckets =>
    unfold handleRequest
    dsimp only
    split
    · exact does_ret
    · split
      · exact looks_lookup.then_does fun _ _ _ _ _ ↦ does_ret
      · exact does_createJsonBucket
      · exact does_ret
  | jsonBucket b =>
    refine does_handleJsonBucketItem fun payload hmethod hpayload ↦ ?_
    show bucketUpdate C (.jsonBucket b) req = some (b, payload)
    rw [bucketUpdate, if_pos hmethod, hpayload]
    rfl
  | jsonObjects b => exact does_handleJsonListing
  | jsonObject b key =>
    rw [permitted_of_intent rfl]
    exact does_handleJsonObject
  | jsonUpload b => exact does_handleJsonUpload
  | resumable id =>
    unfold handleRequest
    dsimp only
    split
    · exact does_ret
    refine does_completeResumableUpload fun session hsession hput ↦ ?_
    have hintent : intent E C (.resumable id) req S = some session.intent := by
      rw [intent, hsession]
      rfl
    refine ⟨permitted_of_intent hintent, ?_⟩
    rw [scopeOf, hintent, writes, decide_eq_true hput]
    rfl

end Routes

end Sqrzl.Gcs
