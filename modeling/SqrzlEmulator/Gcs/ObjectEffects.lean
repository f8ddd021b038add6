import SqrzlEmulator.Gcs.Effects

/-!
# The effects of requests for objects

A request is for one key at most (`Intent`). **It changes this key, and only with a permission**:
its retention check has found nothing, or as many of the reads of the check have failed as make it
useless; and if the request carries a generation, the current object has it.

The routes differ in how often they check: a write of the JSON API checks twice, every other one
once.
-/

namespace Sqrzl.Gcs

open Prog S3

/-! ### Intents -/

/-- What a request is for. -/
structure Intent where
  bucket : String
  key : Text
  /-- The generation that the current object has to have. -/
  guard : Option String
  /-- How many failed reads make a retention check useless. -/
  budget : ℕ

/-- There is no object under a key that is retained. -/
def Unretained (now : Time) (V : Vault) (b : String) (key : Text) : Prop :=
  ∀ B o, V.buckets[b]? = some B → (V.record b key).metadata = some o → retainedIn now B o = false

/-- The current object has the generation that a text asks for. -/
def Matches (V : Vault) (b : String) (key : Text) (t : String) : Prop :=
  t = "0" ∨ ∃ o, (V.record b key).metadata = some o ∧ generation o = t

namespace Intent

/-- The retention check of a request has found nothing, or was of no use. -/
def Unchecked (now : Time) (V : Vault) (i : Intent) (l : List Event) : Prop :=
  Unretained now V i.bucket i.key ∨ i.budget ≤ retentionFailures l

/-- What permits a request to change its key. -/
def Permits (now : Time) (V : Vault) (i : Intent) (l : List Event) : Prop :=
  i.Unchecked now V l ∧ ∀ t, i.guard = some t → Matches V i.bucket i.key t

/-- What a write with this intent may change. -/
def scope (i : Intent) : Scope := { key := some (i.bucket, i.key), stores := true }

variable {now : Time} {V : Vault} {i : Intent}

theorem permits_append (l l' : List Event) (h : i.Permits now V l') : i.Permits now V (l ++ l') :=
  ⟨h.1.imp_right fun hcount ↦ hcount.trans (by rw [retentionFailures_append]; omega), h.2⟩

end Intent

theorem Looked.permits {S T : System} {l : List Event} (h : Looked S T l) (now : Time) (i : Intent) :
    i.Permits now T.vault = i.Permits now S.vault := by
  funext l'
  simp only [Intent.Permits, Intent.Unchecked, Unretained, Matches, h.buckets, h.record]

section Reads

variable {E : Env} {C : Crates} {now : Time} {S : System} {b : String} {key : Text} {call : Call}

/-! ### Reads -/

/-- What a bucket is read as. -/
theorem getBucket_cases (b : String) (V : Vault) :
    (∃ B, (Vault.getBucket b V).1 = .ok B ∧ V.buckets[b]? = some B) ∨
      ((Vault.getBucket b V).1 = .error .bucketNotFound ∧ V.buckets[b]? = none) := by
  cases hB : V.buckets[b]? with
  | none => exact .inr ⟨by rw [Vault.getBucket, Atomic.find, hB], rfl⟩
  | some B => exact .inl ⟨B, by rw [Vault.getBucket, Atomic.find, hB], rfl⟩

theorem looks_getBucketFor {metadata : Call} :
    Looks (getBucketFor call metadata b) S fun r T l ↦ T.cache = S.cache ∧ T.sessions = S.sessions ∧
      ((∃ B, r = .ok B ∧ S.vault.buckets[b]? = some B ∧ l = []) ∨
        (r = .error .bucketNotFound ∧ S.vault.buckets[b]? = none ∧ l = []) ∨
        l = [.failed metadata] ∨ (∃ e, r = .error e) ∧ l = [.failed call]) := by
  refine wp_getBucketFor.2 ⟨trivial, ⟨[], .refl S, rfl, rfl, ?_⟩, ⟨trivial, fun e _ ↦ ?_⟩, trivial, ?_⟩
  · exact (getBucket_cases b S.vault).imp (fun ⟨B, hr, hB⟩ ↦ ⟨B, hr, hB, rfl⟩)
      fun ⟨hr, hB⟩ ↦ .inl ⟨hr, hB, rfl⟩
  · exact ⟨_, .note S call, rfl, rfl, .inr (.inr (.inr ⟨⟨e, rfl⟩, rfl⟩))⟩
  · exact ⟨_, .note S metadata, rfl, rfl, .inr (.inr (.inl rfl))⟩

theorem looks_getBucket :
    Looks (getBucket call b) S fun r T l ↦ T.cache = S.cache ∧ T.sessions = S.sessions ∧
      ((∃ B, r = .ok B ∧ S.vault.buckets[b]? = some B ∧ l = []) ∨
        (r = .error .bucketNotFound ∧ S.vault.buckets[b]? = none ∧ l = []) ∨
        l = [.failed call]) :=
  looks_getBucketFor.mono fun _ _ _ ⟨hcache, hsessions, h⟩ ↦
    ⟨hcache, hsessions, h.imp_right fun h ↦ h.imp_right fun h ↦ h.elim id And.right⟩

theorem looks_getObjectMetadata :
    Looks (getObjectMetadata call b key) S fun r T l ↦ T.cache = S.cache ∧ T.sessions = S.sessions ∧
      ((∃ o, r = .ok o ∧ (S.vault.record b key).metadata = some o ∧ l = []) ∨
        (∃ e, r = .error e ∧ (S.vault.record b key).metadata = none ∧ l = []) ∨
        ((∃ e, r = .error e) ∧ l = [.failed call])) := by
  refine looks_query.mono ?_
  rintro r T l ⟨hcache, hsessions, ⟨hr, hl⟩ | hfailed⟩
  · refine ⟨hcache, hsessions, ?_⟩
    cases hB : S.vault.buckets[b]? with
    | none =>
      refine .inr (.inl ⟨.bucketNotFound, ?_, ?_, hl⟩)
      · exact hr.trans (congrArg Prod.fst
          (Atomic.find_bind_of_none (g := fun V : Vault ↦ V.buckets[b]?) hB))
      · rw [Vault.record, hB]
        rfl
    | some B =>
      replace hr : r = (Vault.getObjectMetadata b key S.vault).1 := hr.trans (congrArg Prod.fst
        (Atomic.find_bind_of_some (g := fun V : Vault ↦ V.buckets[b]?) hB))
      cases ho : (S.vault.record b key).metadata with
      | none => exact .inr (.inl ⟨.keyNotFound, by rw [hr, Vault.getObjectMetadata, Atomic.find, ho],
          rfl, hl⟩)
      | some o => exact .inl ⟨o, by rw [hr, Vault.getObjectMetadata, Atomic.find, ho], rfl, hl⟩
  · exact ⟨hcache, hsessions, .inr (.inr hfailed)⟩

/-- **A retention check that lets an object go has looked at its bucket, or it has failed.** -/
theorem looks_objectIsRetained (o : Object) :
    Looks (objectIsRetained now b o) S fun r _ l ↦ r = .ok false →
      (∀ B, S.vault.buckets[b]? = some B → retainedIn now B o = false) ∨
        1 ≤ retentionFailures l := by
  refine looks_getBucket.attempt_bind ?_
  rintro r T l hl ⟨-, -, ⟨B, rfl, hB, rfl⟩ | ⟨rfl, hB, rfl⟩ | rfl⟩
  · refine looks_ret fun hr ↦ .inl fun B' hB' ↦ ?_
    rw [hB] at hB'
    cases hB'
    exact Except.ok.inj hr
  · refine looks_ret fun _ ↦ .inl fun B' hB' ↦ ?_
    rw [hB] at hB'
    cases hB'
  · cases r with
    | ok B => exact looks_ret fun _ ↦ .inr le_rfl
    | error e => exact looks_ret fun _ ↦ .inr le_rfl

theorem unretained_of_none (h : (S.vault.record b key).metadata = none) :
    Unretained now S.vault b key := by
  intro B o hB ho
  rw [h] at ho
  cases ho

theorem unretained_of {o : Object} (ho : (S.vault.record b key).metadata = some o)
    (h : ∀ B, S.vault.buckets[b]? = some B → retainedIn now B o = false) :
    Unretained now S.vault b key := by
  intro B o' hB ho'
  rw [ho] at ho'
  cases ho'
  exact h B hB

theorem looks_existingObjectIsRetained :
    Looks (existingObjectIsRetained now b key) S fun r _ l ↦ r = .ok false →
      Unretained now S.vault b key ∨ 1 ≤ retentionFailures l := by
  refine looks_getObjectMetadata.attempt_bind ?_
  rintro r T l hl ⟨-, -, ⟨o, rfl, ho, rfl⟩ | ⟨e, rfl, ho, rfl⟩ | ⟨⟨e, rfl⟩, rfl⟩⟩
  · refine (looks_objectIsRetained o).mono fun r U l' h hr ↦ ?_
    rw [List.append_nil]
    refine (h hr).imp_left fun hB ↦ unretained_of ho fun B hB' ↦ hB B ?_
    rw [hl.buckets]
    exact hB'
  · exact looks_ret fun _ ↦ .inl (unretained_of_none ho)
  · exact looks_ret fun _ ↦ .inr le_rfl

theorem looks_foreignDataProtectionActive :
    Looks (foreignDataProtectionActive C now b) S fun _ T _ ↦
      T.cache = S.cache ∧ T.sessions = S.sessions := by
  have hmodes : ∀ f : Except Error Bucket → Handler Bool, (∀ r, ∃ mode, f r = ret mode) →
      ∀ T : System, T.cache = S.cache ∧ T.sessions = S.sessions →
        Looks ((getBucket .other b).attempt.bind f) T fun _ U _ ↦
          U.cache = S.cache ∧ U.sessions = S.sessions := by
    intro f hf T hT
    refine looks_getBucket.attempt_bind ?_
    rintro r U l hl ⟨hcache, hsessions, -⟩
    obtain ⟨mode, hmode⟩ := hf r
    rw [hmode]
    exact looks_ret ⟨hcache.trans hT.1, hsessions.trans hT.2⟩
  refine looks_getBucket.attempt_bind ?_
  rintro r T l hl ⟨hcache, hsessions, -⟩
  cases r with
  | ok B =>
    dsimp only
    split
    · exact looks_ret ⟨hcache, hsessions⟩
    · exact hmodes _ (fun r ↦ by cases r <;> exact ⟨_, rfl⟩) T ⟨hcache, hsessions⟩
  | error e =>
    cases e with
    | bucketNotFound =>
      exact hmodes _ (fun r ↦ by cases r <;> exact ⟨_, rfl⟩) T ⟨hcache, hsessions⟩
    | _ => exact looks_ret ⟨hcache, hsessions⟩

end Reads

/-! ### Writes of the JSON API -/

section Writes

variable {E : Env} {C : Crates} {now : Time} {S : System} {b : String} {key : Text}
  {prior : List Event} {budget : ℕ} {req : Request}

theorem shownGeneration_eq (V : Vault) (b : String) (key : Text) :
    shownGeneration V b key = (V.record b key).metadata.map generation := by
  rw [shownGeneration, shown, KeyRecord.metadata, Option.map_map, Option.map_map]
  rfl

@[simp] theorem generation_objectFor {existing : Option Object} {data : Bytes} {contentType : String}
    {metadata : Table String String} {etag : String} {crc32c : UInt32} :
    generation (objectFor E C now existing key data contentType metadata etag crc32c) =
      following now (existing.map generation) := by
  have hstored : (objectFor E C now existing key data contentType metadata etag
      crc32c).metadata["__sqrzl_gcs_generation"]? = some (nextGeneration now existing) := by
    show (metadataWithGcsState C now metadata (nextGeneration now existing) "1" none)[_]? = _
    simp [metadataWithGcsState]
  rw [generation, hstored]
  rfl

/-- The object that was looked up is the current one, unless the lookup has failed. -/
theorem following_lookup (now : Time) {existing : Except Error Object} {l : List Event} {call : Call}
    (h : (∃ o, existing = .ok o ∧ (S.vault.record b key).metadata = some o ∧ l = []) ∨
      (∃ e, existing = .error e ∧ (S.vault.record b key).metadata = none ∧ l = []) ∨
      ((∃ e, existing = .error e) ∧ l = [.failed call])) :
    following now (existing.toOption.map generation) =
        following now (shownGeneration S.vault b key) ∨
      ∃ call, Event.failed call ∈ l ++ prior := by
  rw [shownGeneration_eq]
  rcases h with ⟨o, rfl, ho, -⟩ | ⟨e, rfl, ho, -⟩ | ⟨-, rfl⟩
  · rw [ho]
    exact .inl rfl
  · rw [ho]
    exact .inl rfl
  · exact .inr ⟨call, List.mem_cons_self⟩

theorem holds_generation {t : String} {o : Option Object}
    (h : (ObjectCondition.metadata "__sqrzl_gcs_generation" t).holds o = true) :
    ∃ o', o = some o' ∧ generation o' = t := by
  cases o with
  | none => cases h
  | some o =>
    have hspelled : Spelled o t := by simpa [ObjectCondition.holds, Spelled] using h
    exact ⟨o, rfl, generation_of_spelled hspelled⟩

/-- **A write that asks for a generation is made over the object that has it.** -/
theorem matches_of_uploadCondition {V : Vault} {existing : Bool} {pre : GenerationPreconditions}
    {condition : Option ObjectCondition} (hcondition : uploadCondition existing pre = some condition)
    (hmeets : Meets V b key condition) {t : String} (ht : pre.expected = some t) :
    Matches V b key t := by
  obtain ⟨expected, rejected⟩ := pre
  obtain rfl : expected = some t := ht
  cases rejected with
  | some rejected => cases hcondition
  | none =>
    rw [uploadCondition] at hcondition
    split at hcondition
    · next hzero => exact .inl hzero
    · cases hcondition
      exact .inr (holds_generation (hmeets _ rfl))

theorem does_putBlobOver {write : BlobWrite} (existing : Except Error Object) (l : List Event)
    (call : Call)
    (hretention : Unretained now S.vault b key ∨ budget ≤ retentionFailures (l ++ prior))
    (hexisting : (∃ o, existing = .ok o ∧ (S.vault.record b key).metadata = some o ∧ l = []) ∨
      (∃ e, existing = .error e ∧ (S.vault.record b key).metadata = none ∧ l = []) ∨
      ((∃ e, existing = .error e) ∧ l = [.failed call])) :
    Does now (Intent.Permits now S.vault ⟨b, key, write.preconditions.expected, budget⟩)
      { key := some (b, key), stores := true } (l ++ prior)
      (putBlobOver E C now existing.toOption b key write) S := by
  unfold putBlobOver
  dsimp only
  cases hcondition : uploadCondition existing.toOption.isSome write.preconditions with
  | none => exact does_ret
  | some condition =>
    refine Does.then_looks Intent.permits_append (does_storeObject Intent.permits_append
      (fun hmeets ↦ ⟨hretention, fun t ht ↦ matches_of_uploadCondition hcondition hmeets ht⟩) rfl
      (by rw [generation_objectFor]; exact following_lookup now hexisting)) fun written T ↦ ?_
    cases written with
    | false => exact looks_ret trivial
    | true =>
      exact looks_getObjectMetadata.bind (fun _ _ _ _ ↦ trivial) fun _ _ _ _ _ ↦ looks_ret trivial

/-- **A write of the JSON API checks the retention again.** -/
theorem does_putBlobWithGenerationMatch {write : BlobWrite} (budget : ℕ)
    (hretention : Unretained now S.vault b key ∨ budget ≤ retentionFailures prior) :
    Does now (Intent.Permits now S.vault ⟨b, key, write.preconditions.expected, budget + 1⟩)
      { key := some (b, key), stores := true } prior (putBlobWithGenerationMatch E C now b key write) S := by
  refine looks_getObjectMetadata.attempt_then_does ?_
  rintro r T l hl ⟨-, -, hr⟩
  have hr' : (∃ o, r = .ok o ∧ (T.vault.record b key).metadata = some o ∧ l = []) ∨
      (∃ e, r = .error e ∧ (T.vault.record b key).metadata = none ∧ l = []) ∨
      ((∃ e, r = .error e) ∧ l = [.failed .retention]) := by
    rw [hl.record]
    exact hr
  rw [← hl.permits]
  rcases hr with ⟨o, rfl, ho, rfl⟩ | ⟨e, rfl, ho, rfl⟩ | ⟨⟨e, rfl⟩, rfl⟩
  · refine (looks_objectIsRetained o).then_does fun retained U l' hl' hretained ↦ ?_
    cases retained with
    | true => exact does_ret
    | false =>
      rw [← hl'.permits]
      have ho' : (U.vault.record b key).metadata = some o := by
        rw [hl'.record, hl.record]
        exact ho
      refine does_putBlobOver (.ok o) [] .other ?_ (.inl ⟨o, rfl, ho', rfl⟩)
      rcases hretained rfl with hfree | hfailed
      · refine .inl (unretained_of ho' fun B hB ↦ hfree B ?_)
        rw [← hl'.buckets]
        exact hB
      · refine hretention.imp (fun hfree ↦ ?_) fun hcount ↦ ?_
        · simpa only [Unretained, hl'.buckets, hl'.record, hl.buckets, hl.record] using hfree
        · show budget + 1 ≤ retentionFailures (l' ++ prior)
          rw [retentionFailures_append]
          omega
  · exact does_putBlobOver _ _ _ (.inl (unretained_of_none (by rw [hl.record]; exact ho))) hr'
  · refine does_putBlobOver _ _ _ (hretention.imp (fun hfree ↦ ?_) fun hcount ↦ ?_) hr'
    · simpa only [Unretained, hl.buckets, hl.record] using hfree
    · have hone : retentionFailures [.failed .retention] = 1 := rfl
      rw [retentionFailures_append, hone]
      omega

theorem does_uploadBlob {write : BlobWrite} :
    Does now (Intent.Permits now S.vault ⟨b, key, write.preconditions.expected, 2⟩)
      { key := some (b, key), stores := true } prior (uploadBlob E C now req b key write) S := by
  refine looks_existingObjectIsRetained.then_does fun retained T l hl hretained ↦ ?_
  cases retained with
  | true => exact does_ret
  | false =>
    rw [← hl.permits]
    refine Does.then_looks Intent.permits_append (does_putBlobWithGenerationMatch 1 ?_)
      fun _ _ ↦ looks_ret trivial
    refine (hretained rfl).imp (fun hfree ↦ ?_) fun hcount ↦ ?_
    · simpa only [Unretained, hl.buckets, hl.record] using hfree
    · rw [retentionFailures_append]
      omega

end Writes

/-! ### The XML API -/

section Xml

variable {E : Env} {C : Crates} {now : Time} {S : System} {b : String} {key : Text}
  {prior : List Event} {scope : Scope} {req : Request}

/-- A condition that stands for a generation holds over the object that has it. -/
theorem matches_of_generationCondition {V : Vault} {t : String}
    (h : (generationCondition t).holds (V.record b key).metadata = true) : Matches V b key t := by
  rw [generationCondition] at h
  split at h
  · next hzero => exact .inl hzero
  · exact .inr (holds_generation h)

theorem matches_of_xmlMutationCondition {V : Vault} {require : Bool}
    {condition : Option ObjectCondition} (hcondition : xmlMutationCondition req require = .ok condition)
    (hmeets : Meets V b key condition) {t : String}
    (ht : req.header "x-goog-if-generation-match" = some t) : Matches V b key t := by
  cases hmeta : req.header "x-goog-if-metageneration-match" with
  | none =>
    obtain rfl := xmlMutationCondition_of_match ht hmeta hcondition
    exact matches_of_generationCondition (hmeets _ rfl)
  | some m =>
    unfold xmlMutationCondition at hcondition
    simp only [ht, hmeta] at hcondition
    split at hcondition
    · cases hcondition
    · split at hcondition
      · cases hcondition
      · cases hcondition
        have hall := ObjectCondition.holds_all.1 (hmeets _ rfl)
        exact matches_of_generationCondition (hall _ List.mem_cons_self)

theorem does_writeXmlObject {condition : Option ObjectCondition} {guard : Option String}
    (hretention : Unretained now S.vault b key ∨ 1 ≤ retentionFailures prior)
    (hguard : Meets S.vault b key condition → ∀ t, guard = some t → Matches S.vault b key t) :
    Does now (Intent.Permits now S.vault ⟨b, key, guard, 1⟩) { key := some (b, key), stores := true }
      prior (writeXmlObject E C now req b key condition) S := by
  refine looks_getObjectMetadata.attempt_then_does ?_
  rintro existing T l hl ⟨-, -, hexisting⟩
  rw [← hl.record] at hexisting
  refine Does.then_looks Intent.permits_append (Does.attempt (does_storeObject Intent.permits_append
    (fun hmeets ↦ ⟨?_, ?_⟩) rfl (by rw [generation_objectFor]; exact following_lookup now hexisting)))
    fun written U ↦ ?_
  · refine hretention.imp_right fun hcount ↦ ?_
    rw [retentionFailures_append]
    exact hcount.trans (Nat.le_add_left ..)
  · refine hguard fun c hc ↦ ?_
    rw [← hl.record]
    exact hmeets c hc
  · rcases written with e | written
    · exact looks_ret trivial
    · cases written with
      | false => exact looks_ret trivial
      | true =>
        refine looks_getObjectMetadata.attempt_bind fun r _ _ _ _ ↦ ?_
        cases r with
        | error e => exact looks_ret trivial
        | ok o => exact looks_ret trivial

theorem Looked.unretained {T : System} {l : List Event} (h : Looked S T l) :
    Unretained now T.vault b key ↔ Unretained now S.vault b key := by
  simp only [Unretained, h.buckets, h.record]

theorem Looked.matches {T : System} {l : List Event} (h : Looked S T l) {t : String} :
    Matches T.vault b key t ↔ Matches S.vault b key t := by
  simp only [Matches, h.record]

theorem does_putXmlObject :
    Does now (Intent.Permits now S.vault ⟨b, key, req.header "x-goog-if-generation-match", 1⟩)
      { key := some (b, key), stores := true } prior (putXmlObject E C now req b key) S := by
  unfold putXmlObject
  cases admitXmlPut E C req with
  | error response => exact does_ret
  | ok _ =>
    refine looks_existingObjectIsRetained.then_does fun retained T l hl hretained ↦ ?_
    cases retained with
    | true => exact does_ret
    | false =>
      simp only [Bool.false_eq_true, if_false]
      cases hcondition : xmlMutationCondition req true with
      | error response => exact does_ret
      | ok condition =>
        rw [← hl.permits]
        refine does_writeXmlObject ((hretained rfl).imp hl.unretained.2 fun hcount ↦ ?_)
          fun hmeets t ht ↦ matches_of_xmlMutationCondition hcondition hmeets ht
        rw [retentionFailures_append]
        omega

theorem does_deleteXmlObject (hscope : scope.key = some (b, key)) :
    Does now (Intent.Permits now S.vault ⟨b, key, req.header "x-goog-if-generation-match", 1⟩)
      scope prior (deleteXmlObject E now req b key) S := by
  refine looks_existingObjectIsRetained.then_does fun retained T l hl hretained ↦ ?_
  cases retained with
  | true => exact does_ret
  | false =>
    simp only [Bool.false_eq_true, if_false]
    cases hcondition : xmlMutationCondition req false with
    | error response => exact does_ret
    | ok condition =>
      rw [← hl.permits]
      refine Does.then_looks Intent.permits_append (Does.attempt (does_removeObject
        hscope Intent.permits_append fun hmeets ↦ ⟨(hretained rfl).imp hl.unretained.2 fun hcount ↦ ?_,
          fun t ht ↦ matches_of_xmlMutationCondition hcondition hmeets ht⟩)) fun r U ↦ ?_
      · rw [retentionFailures_append]
        exact hcount.trans (Nat.le_add_right ..)
      · rcases r with e | removed
        · exact looks_ret trivial
        · cases removed with
          | true => exact looks_ret trivial
          | false => exact looks_ret trivial

theorem looks_mediaOf {json : Bool} {o : Object} :
    Looks (mediaOf req b key json o) S fun _ _ _ ↦ True := by
  unfold mediaOf
  split
  · exact looks_ret trivial
  · dsimp only
    split
    · exact looks_ret trivial
    · split
      · exact looks_ret trivial
      · split
        · exact looks_ret trivial
        · refine looks_query.attempt_bind fun r _ _ _ _ ↦ ?_
          cases r with
          | error e => exact looks_ret trivial
          | ok o =>
            dsimp only
            split
            · exact looks_ret trivial
            · exact looks_ret trivial

theorem looks_objectMediaResponse : Looks (objectMediaResponse req b key) S fun _ _ _ ↦ True := by
  refine looks_getObjectMetadata.attempt_bind fun r _ _ _ _ ↦ ?_
  cases r with
  | error e => exact looks_ret trivial
  | ok o => exact looks_mediaOf

theorem looks_objectHeadResponse : Looks (objectHeadResponse b key) S fun _ _ _ ↦ True := by
  refine looks_getObjectMetadata.attempt_bind fun r _ _ _ _ ↦ ?_
  split
  · exact looks_ret trivial
  · exact looks_ret trivial
  · exact looks_ret trivial
  · exact looks_ret trivial

/-- The start of a session draws an identity, and writes a record. -/
theorem looks_startSession {status : ℕ} {session : ResumableSession} :
    Looks (startSession E status session) S fun _ _ _ ↦ True := by
  have hdraw : Looks (act none (fun S : System ↦ { S with vault := S.vault.draw (S.vault.drawn + 1) })
      (fun S ↦ E.uuid S.vault.drawn) : Handler String) S fun _ _ _ ↦ True :=
    wp_act.2 ⟨trivial, trivial, [], ⟨rfl, rfl, nofun⟩, trivial⟩
  refine hdraw.bind (fun _ _ _ _ ↦ trivial) fun id T l _ _ ↦ ?_
  refine (looks_record rfl rfl).bind (fun _ _ _ _ ↦ trivial) fun _ U _ _ _ ↦ ?_
  exact (looks_modify rfl rfl).bind (fun _ _ _ _ ↦ trivial) fun _ _ _ _ _ ↦ looks_ret trivial

theorem looks_createXmlResumableSession :
    Looks (createXmlResumableSession E now req b key) S fun _ _ _ ↦ True := by
  unfold createXmlResumableSession
  split
  · exact looks_ret trivial
  · split
    · exact looks_ret trivial
    · exact looks_startSession

/-- **Objects of the XML API.** -/
theorem does_handleXmlObject :
    Does now (Intent.Permits now S.vault ⟨b, key, req.header "x-goog-if-generation-match", 1⟩)
      { key := some (b, key), stores := decide (req.method = .put) } prior
      (handleXmlObject E C now req b key) S := by
  refine looks_foreignDataProtectionActive.then_does fun foreign T l hl _ ↦ ?_
  cases foreign with
  | true => exact does_ret
  | false =>
    refine looks_getBucket.attempt_then_does fun r U l' hl' _ ↦ ?_
    cases r with
    | error e => exact does_ret
    | ok B =>
      dsimp only
      split
      · exact does_ret
      · split
        · exact looks_createXmlResumableSession.does
        · rw [← hl.permits, ← hl'.permits]
          unfold xmlObjectMethod
          split
          · next hput =>
            rw [decide_eq_true hput]
            exact does_putXmlObject
          · exact looks_objectMediaResponse.does
          · exact looks_objectHeadResponse.does
          · exact does_deleteXmlObject rfl
          · exact does_ret

end Xml

/-! ### The JSON API -/

section Json

variable {E : Env} {C : Crates} {now : Time} {S : System} {b : String} {key : Text}
  {prior : List Event} {permit : List Event → Prop} {scope : Scope} {req : Request}

theorem looks_checkedJsonBlob :
    Looks (checkedJsonBlob req b key) S fun r _ _ ↦
      ∀ o, r = .ok (.ok o) → (S.vault.record b key).metadata = some o := by
  refine looks_getObjectMetadata.attempt_bind ?_
  rintro r T l hl ⟨-, -, ⟨o, rfl, ho, rfl⟩ | ⟨e, rfl, -, -⟩ | ⟨⟨e, rfl⟩, rfl⟩⟩
  · dsimp only
    split
    · exact looks_ret nofun
    · split
      · exact looks_ret nofun
      · refine looks_ret fun o' ho' ↦ ?_
        cases ho'
        exact ho
  · exact looks_ret nofun
  · exact looks_ret nofun

theorem looks_currentPreconditionFailure :
    Looks (currentPreconditionFailure req b key) S fun _ _ _ ↦ True := by
  refine looks_getObjectMetadata.attempt_bind fun r _ _ _ _ ↦ ?_
  cases r with
  | error e => exact looks_ret trivial
  | ok o =>
    dsimp only
    split
    · exact looks_ret trivial
    · exact looks_ret trivial

theorem looks_getJsonObject : Looks (getJsonObject E C req b key) S fun _ _ _ ↦ True := by
  refine looks_checkedJsonBlob.bind (fun _ _ _ _ ↦ trivial) fun r _ _ _ _ ↦ ?_
  cases r with
  | error response => exact looks_ret trivial
  | ok o =>
    dsimp only
    split
    · exact looks_mediaOf
    · exact looks_ret trivial

theorem matches_of_jsonMutationCondition {V : Vault} {o : Object} {t : String}
    (hmeets : Meets V b key (some (jsonMutationCondition req o)))
    (ht : req.queryParam "ifGenerationMatch" = some t) : Matches V b key t := by
  have hall := ObjectCondition.holds_all.1 (hmeets _ rfl)
  refine .inr (holds_generation (hall _ ?_))
  simp [ht]

theorem does_deleteJsonObject :
    Does now (Intent.Permits now S.vault ⟨b, key, req.queryParam "ifGenerationMatch", 1⟩)
      { key := some (b, key) } prior (deleteJsonObject E now req b key) S := by
  refine looks_checkedJsonBlob.then_does fun r T l hl hr ↦ ?_
  cases r with
  | error response => exact does_ret
  | ok o =>
    refine (looks_objectIsRetained o).then_does fun retained U l' hl' hretained ↦ ?_
    cases retained with
    | true => exact does_ret
    | false =>
      simp only [Bool.false_eq_true, if_false]
      rw [← hl.permits, ← hl'.permits]
      refine Does.then_looks Intent.permits_append (does_removeObject rfl Intent.permits_append
        fun hmeets ↦ ⟨(hretained rfl).imp (fun hfree ↦ ?_) fun hcount ↦ ?_,
          fun t ht ↦ matches_of_jsonMutationCondition hmeets ht⟩) fun removed V ↦ ?_
      · have ho : (T.vault.record b key).metadata = some o := by
          rw [hl.record]
          exact hr o rfl
        exact hl'.unretained.2 (unretained_of ho hfree)
      · rw [retentionFailures_append]
        exact hcount.trans (Nat.le_add_right ..)
      · cases removed with
        | true => exact looks_ret trivial
        | false => exact looks_currentPreconditionFailure

/-- A patch keeps the generation. -/
theorem generation_patched {o updated : Object} (h : patched C now req o = .ok updated) :
    updated.metadata["__sqrzl_gcs_generation"]? = some (generation o) := by
  have hmetadata : ∀ payload metadata, metadataPatchWithGcsState C now payload o = .ok metadata →
      metadata["__sqrzl_gcs_generation"]? = some (generation o) := by
    intro payload metadata hpatch
    obtain ⟨kept, -, hkept⟩ : ∃ kept, patchMetadata (publicMetadata o.metadata)
        (payload.get "metadata") = .ok kept ∧ metadataWithGcsState C now kept (generation o)
          (toString (saturatingSucc
            ((o.metadata["__sqrzl_gcs_metageneration"]?.bind parseU64).getD 1)))
          (some (gcsUpdated C o.metadata o.lastModified)) = metadata := by
      unfold metadataPatchWithGcsState at hpatch
      cases hkept : patchMetadata (publicMetadata o.metadata) (payload.get "metadata") with
      | error message =>
        rw [hkept] at hpatch
        cases hpatch
      | ok kept =>
        rw [hkept] at hpatch
        exact ⟨kept, rfl, Except.ok.inj hpatch⟩
    rw [← hkept]
    simp [metadataWithGcsState]
  unfold patched at h
  split at h
  · cases h
  · split at h
    · cases h
    · split at h
      · cases h
      · next metadata hpatch =>
        split at h
        · cases h
          exact hmetadata _ _ hpatch
        · cases h
          exact hmetadata _ _ hpatch
        · split at h
          · cases h
          · cases h
            exact hmetadata _ _ hpatch
        · cases h
  · cases h

/-- New metadata with the same generation change nothing of what is seen. -/
theorem changes_replaceObjectMetadata {V : Vault} {o updated : Object}
    (ho : (V.record b key).metadata = some o)
    (hgeneration : updated.metadata["__sqrzl_gcs_generation"]? = some (generation o)) :
    Touched b key V (Vault.replaceObjectMetadataIfUnchanged b key o updated V).2 ∧
      shown (Vault.replaceObjectMetadataIfUnchanged b key o updated V).2 b key = shown V b key := by
  obtain ⟨⟨data, o'⟩, hcurrent, rfl⟩ : ∃ st, (V.record b key).current = some st ∧ st.2 = o :=
    Option.map_eq_some_iff.1 ho
  obtain ⟨B, hB⟩ : ∃ B, V.buckets[b]? = some B := by
    cases hB : V.buckets[b]? with
    | none =>
      rw [Vault.record, hB] at hcurrent
      cases hcurrent
    | some B => exact ⟨B, rfl⟩
  rw [Vault.replaceObjectMetadata_eq hcurrent]
  refine ⟨touched_setRecord (n := V.drawn) hB, ?_⟩
  rw [shown, Vault.record_setRecord hB, if_pos ⟨rfl, rfl⟩, shown, hcurrent]
  simp only [Option.map_some, generation, hgeneration, Option.getD_some]

/-- A change that is not seen. -/
theorem Effect.of_unseen {T : System} (htouched : Touched b key S.vault T.vault)
    (hshown : shown T.vault b key = shown S.vault b key) (hlog : T.log = S.log) :
    Effect now permit scope prior S T := by
  refine ⟨[], hlog, fun b' key' ↦ .kept ?_ (by rw [hlog]), fun b' ↦ .kept (htouched.policy b')⟩
  by_cases hsame : b' = b ∧ key' = key
  · obtain ⟨rfl, rfl⟩ := hsame
    exact hshown
  · rw [shown, htouched.record b' key' hsame, shown]

/-- Nothing is logged of a change that says so. -/
theorem System.log_after {α : Type} (outcome : Except Error α × Vault) :
    (S.after (fun _ ↦ []) outcome).log = S.log := by
  obtain ⟨e | a, V⟩ := outcome
  · rfl
  · rfl

theorem does_patchJsonObject (hmono : ∀ l l', permit l' → permit (l ++ l')) :
    Does now permit scope prior (patchJsonObject C now req b key) S := by
  refine looks_checkedJsonBlob.then_does fun r T l hl hr ↦ ?_
  cases r with
  | error response => exact does_ret
  | ok o =>
    dsimp only
    cases hpatched : patched C now req o with
    | error response => exact does_ret
    | ok updated =>
      have ho : (T.vault.record b key).metadata = some o := by
        rw [hl.record]
        exact hr o rfl
      obtain ⟨htouched, hshown⟩ := changes_replaceObjectMetadata ho (generation_patched hpatched)
      refine Does.then_looks hmono (does_mutation hmono
        (.of_unseen htouched hshown (System.log_after _))) fun replaced U ↦ ?_
      cases replaced with
      | false => exact looks_currentPreconditionFailure
      | true =>
        exact looks_getObjectMetadata.bind (fun _ _ _ _ ↦ trivial) fun _ _ _ _ _ ↦ looks_ret trivial

/-- **Objects of the JSON API.** -/
theorem does_handleJsonObject :
    Does now (Intent.Permits now S.vault ⟨b, key, req.queryParam "ifGenerationMatch", 1⟩)
      { key := some (b, key) } prior (handleJsonObject E C now req b key) S := by
  refine looks_foreignDataProtectionActive.then_does fun foreign T l hl _ ↦ ?_
  cases foreign with
  | true => exact does_ret
  | false =>
    simp only [Bool.false_eq_true, if_false]
    rw [← hl.permits]
    unfold handleJsonObjectItem
    dsimp only
    split
    · exact does_ret
    · split
      · exact looks_getJsonObject.does
      · exact does_patchJsonObject Intent.permits_append
      · exact does_deleteJsonObject
      · exact does_ret

end Json

end Sqrzl.Gcs
