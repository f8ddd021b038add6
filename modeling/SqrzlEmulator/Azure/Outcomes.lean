import SqrzlEmulator.Azure.Sound

/-!
# The outcomes of the handlers

A handler is **refused**, and nothing that another request could see has changed, or it is carried
out, and its change of the state is one equation. There is one lemma for each handler: its second
case says what the guards have found, and what the state is afterwards.

A refused request may have drawn identities and filled a cache (`Untouched`); everything else is as
it was. What is written goes through `put_object`, whose own outcome is `Vault.putObject_ok`.
-/

namespace Sqrzl

open Prog Atomic

namespace Vault

variable {E : Env} {V V' : Vault} {b : String} {key : Text} {o : Object} {data : Bytes}

/-- A write of an object whose size is right is carried out, or does nothing. -/
theorem putObject_cases (E : Env) (b : String) (key : Text) (hsize : data.length = o.size) :
    (∃ e, putObject E b key o data V = (.error e, V)) ∨
      ∃ V', putObject E b key o data V = (.ok (), V') := by
  cases hB : V.buckets[b]? with
  | none =>
    rw [putObject, hB]
    exact Or.inl ⟨_, rfl⟩
  | some B => exact Or.inr (exists_putObject_ok E key hB hsize)

/-- A delete is carried out, or does nothing. -/
theorem deleteObject_outcome (E : Env) (now : Time) (b : String) (key : Text) (V : Vault) :
    (∃ e, deleteObject E now b key V = (.error e, V)) ∨
      ∃ V', deleteObject E now b key V = (.ok (), V') := by
  unfold deleteObject
  split
  · split
    · exact Or.inl ⟨_, rfl⟩
    · exact Or.inr ⟨_, rfl⟩
  · exact Or.inr ⟨_, rfl⟩

/-- A conditional operation is the operation, or nothing. -/
theorem mutateIf_outcome {c : ObjectCondition} {mutation : VaultOp Unit}
    (h : (∃ e, mutation V = (.error e, V)) ∨ ∃ V', mutation V = (.ok (), V')) :
    (∃ r, mutateIf b key c mutation V = (r, V) ∧ r ≠ .ok true) ∨
      ∃ V', mutation V = (.ok (), V') ∧ mutateIf b key c mutation V = (.ok true, V') := by
  by_cases hc : c.holds (V.record b key).metadata = true
  · rcases h with ⟨e, he⟩ | ⟨V', hV'⟩
    · refine Or.inl ⟨.error e, ?_, fun h ↦ by cases h⟩
      rw [mutateIf, view_bind, if_pos hc]
      exact bind_of_error he
    · exact Or.inr ⟨V', hV', mutateIf_of_holds hc hV'⟩
  · refine Or.inl ⟨.ok false, ?_, fun h ↦ by cases h⟩
    rw [mutateIf, view_bind, if_neg hc]
    rfl

/-- What is kept under a key after a write. -/
theorem record_of_putObject (b' : String) (key' : Text) {u : Unit}
    (h : putObject E b key o data V = (.ok u, V')) :
    ∃ B, V.buckets[b]? = some B ∧ V'.record b' key' =
      if b' = b ∧ key' = key then
        (V.record b key).put B.versioning (versionIdFor E B.versioning V.drawn) data o
      else V.record b' key' := by
  obtain ⟨B, hB, -, rfl⟩ := putObject_ok h
  exact ⟨B, hB, by rw [record_draw, record_setRecord hB]⟩

/-- What has been written is current. -/
theorem current_of_putObject {u : Unit} (h : putObject E b key o data V = (.ok u, V')) :
    ∃ id, (V'.record b key).current = some (data, (o.withVersionId id).serialized) := by
  obtain ⟨B, -, hrecord⟩ := record_of_putObject b key h
  rw [hrecord, if_pos ⟨rfl, rfl⟩]
  exact ⟨_, rfl⟩

end Vault

namespace Azure

/-! ### Requests that are refused -/

/-- **Nothing that can be seen has changed.** -/
structure Untouched (A A' : Adapter) : Prop where
  buckets : A'.vault.buckets = A.vault.buckets
  sessions : A'.sessions = A.sessions
  committed : A'.committed = A.committed
  deletions : A'.deletions = A.deletions
  items : A'.items = A.items
  sessionCache : A'.sessionCache = A.sessionCache
  committedBlocks : ∀ session, A'.committedBlocks session = A.committedBlocks session

instance : IsPreorder Adapter Untouched where
  refl _ := ⟨rfl, rfl, rfl, rfl, rfl, rfl, fun _ ↦ rfl⟩
  trans _ _ _ h h' := ⟨h'.buckets.trans h.buckets, h'.sessions.trans h.sessions,
    h'.committed.trans h.committed, h'.deletions.trans h.deletions, h'.items.trans h.items,
    h'.sessionCache.trans h.sessionCache,
    fun session ↦ (h'.committedBlocks session).trans (h.committedBlocks session)⟩

/-- A handler fails, and nothing has changed. -/
def Refused {α : Type} (m : Handler α) (A : Adapter) : Prop :=
  ∃ e A', m A = (.error e, A') ∧ Untouched A A'

section Combinators

variable {α β : Type} {m : Handler α} {f : α → Handler β} {A A' : Adapter} {E : Env} {session : String}

theorem Refused.of_eq {e : Refusal} (h : m A = (.error e, A)) : Refused m A :=
  ⟨e, A, h, refl_of Untouched A⟩

/-- What begins with a refusal is refused. -/
theorem Refused.bind (h : Refused m A) : Refused (m >>= f) A := by
  obtain ⟨e, A', hm, huntouched⟩ := h
  exact ⟨e, A', bind_of_error hm, huntouched⟩

/-- What goes on with a refusal from an untouched state is refused. -/
theorem Refused.after {a : α} (h : Refused (f a) A') (hm : m A = (.ok a, A'))
    (huntouched : Untouched A A') : Refused (m >>= f) A := by
  obtain ⟨e, A'', hf, huntouched'⟩ := h
  exact ⟨e, A'', (bind_of_ok hm).trans hf, trans_of Untouched huntouched huntouched'⟩

/-- A handler that begins by looking is refused there, or goes on. -/
theorem refused_or_of_readOnly (hm : ReadOnly m) :
    Refused (m >>= f) A ∨ ∃ a, m A = (.ok a, A) ∧ (m >>= f) A = f a A := by
  rcases hm.bind_eq_cases (f := f) (s := A) with ⟨e, he⟩ | hok
  · exact Or.inl (.of_eq he)
  · exact Or.inr hok

theorem untouched_draw {n : ℕ} : Untouched A { A with vault := A.vault.draw n } :=
  ⟨rfl, rfl, rfl, rfl, rfl, rfl, fun _ ↦ rfl⟩

theorem untouched_cacheCommitted : Untouched A (A.cacheCommitted session) where
  buckets := rfl
  sessions := rfl
  committed := rfl
  deletions := rfl
  items := rfl
  sessionCache := rfl
  committedBlocks session' := by
    rw [Adapter.committedBlocks, Adapter.cacheCommitted, Table.getElem?_set]
    split
    · next h => rw [h]; rfl
    · rfl

theorem Untouched.record (h : Untouched A A') {c : String} {k : Text} :
    A'.vault.record c k = A.vault.record c k := by
  rw [Vault.record, Vault.record, h.buckets]

theorem Untouched.blockSession (h : Untouched A A') : A'.blockSession session = A.blockSession session := by
  rw [Adapter.blockSession, Adapter.blockSession, h.sessionCache, h.sessions]

/-- **A conditional operation of the store** is refused, or is carried out. -/
theorem onVault_cases {op : VaultOp Bool} {mutation : VaultOp Unit} {f : Bool → Handler β}
    (hf : ∀ A, ∃ e, f false A = (.error e, A))
    (h : (∃ r, op A.vault = (r, A.vault) ∧ r ≠ .ok true) ∨
      ∃ V', mutation A.vault = (.ok (), V') ∧ op A.vault = (.ok true, V')) :
    Refused (onVault op >>= f) A ∨
      ∃ V', mutation A.vault = (.ok (), V') ∧ (onVault op >>= f) A = f true { A with vault := V' } := by
  rcases h with ⟨r, hr, hne⟩ | ⟨V', hV', hop⟩
  · refine Or.inl ?_
    have heq : onVault op A = (r.mapError serverError, A) := by rw [onVault, hr]
    cases r with
    | error e => exact .bind (.of_eq heq)
    | ok changed =>
      cases changed with
      | false =>
        obtain ⟨e, he⟩ := hf A
        exact ⟨e, A, (bind_of_ok heq).trans he, refl_of Untouched A⟩
      | true => exact absurd rfl hne
  · refine Or.inr ⟨V', hV', ?_⟩
    have heq : onVault op A = (.ok true, { A with vault := V' }) := by rw [onVault, hop]; rfl
    exact bind_of_ok heq

end Combinators

section Handlers

variable {E : Env} {C : Codec} {now : Time} {req : Request} {account c : String} {k : Text}
  {A : Adapter} {blob : Object}

/-! ### Mutations that read the blob -/

/-- A revision is refused, or is written. -/
theorem putIfEtag_cases (E : Env) (c : String) (k : Text) (etag : String) (hsize : blob.data.length = blob.size) :
    Refused (putIfEtag E c k etag blob) A ∨
      ∃ V', Vault.putObject E c k blob blob.data A.vault = (.ok (), V') ∧
        putIfEtag E c k etag blob A = (.ok (), { A with vault := V' }) :=
  onVault_cases (fun _ ↦ ⟨_, rfl⟩) (Vault.mutateIf_outcome (Vault.putObject_cases E c k hsize))

/-- A revision with a new identity is refused, or is written. -/
theorem newRevision_cases (E : Env) (c : String) (k : Text) (etag : String) (revise : String → Object)
    (hsize : ∀ etag, (revise etag).data.length = (revise etag).size) :
    Refused (newIdentity E >>= fun new ↦ putIfEtag E c k etag (revise new) >>= fun _ ↦
      (pure .empty : Handler Response)) A ∨
      ∃ new V', Vault.putObject E c k (revise new) (revise new).data
          (A.vault.draw (A.vault.drawn + 1)) = (.ok (), V') ∧
        (newIdentity E >>= fun new ↦ putIfEtag E c k etag (revise new) >>= fun _ ↦
          (pure .empty : Handler Response)) A = (.ok .empty, { A with vault := V' }) := by
  have hdraw : newIdentity E A =
      (.ok (E.uuid A.vault.drawn), { A with vault := A.vault.draw (A.vault.drawn + 1) }) := rfl
  rcases putIfEtag_cases E c k etag (A := { A with vault := A.vault.draw (A.vault.drawn + 1) })
    (hsize (E.uuid A.vault.drawn)) with hrefused | ⟨V', hV', hput⟩
  · exact Or.inl (.after hrefused.bind hdraw untouched_draw)
  · refine Or.inr ⟨_, V', hV', ?_⟩
    rw [bind_of_ok hdraw, bind_of_ok hput]
    rfl

/-- **The blob that a mutation starts from**, with its bytes. -/
theorem mutableBlob_current {extra : ℕ} (hsound : A.Sound E)
    (h : mutableBlob C now c k extra req A = (.ok blob, A)) :
    ∃ data o, (A.vault.record c k).current = some (data, o) ∧ KeyRecord.Fits k (data, o) ∧
      blob = { o with data := data } ∧ ensureMutationAllowed C now req blob = .ok () := by
  obtain ⟨⟨data, o, hcurrent, hbounded⟩, hallowed⟩ := mutableBlob_ok h
  obtain ⟨hfits, heq⟩ := boundedMutation_eq hsound hcurrent hbounded
  exact ⟨data, o, hcurrent, hfits, heq, hallowed⟩

/-- What a mutation writes: a revision of the current blob, which the guard has let through. -/
def Revises (E : Env) (C : Codec) (now : Time) (c : String) (k : Text) (req : Request)
    (m : Handler Response) (A : Adapter) (Q : Stored → Object → Prop) : Prop :=
  ∃ (st : Stored) (updated : Object) (V' : Vault), (A.vault.record c k).current = some st ∧
    ensureMutationAllowed C now req { st.2 with data := st.1 } = .ok () ∧
    Vault.putObject E c k updated updated.data (A.vault.draw (A.vault.drawn + 1)) = (.ok (), V') ∧
    m A = (.ok .empty, { A with vault := V' }) ∧
    updated.providerMetadata = st.2.providerMetadata ∧ Q st updated

theorem updateMetadata_cases (hsound : A.Sound E) :
    Refused (updateMetadata E C now c k req) A ∨
      Revises E C now c k req (updateMetadata E C now c k req) A fun st updated ↦
        updated.data = st.1 := by
  rcases refused_or_of_readOnly mutableBlob_readOnly with hrefused | ⟨blob, hblob, heq⟩
  · exact Or.inl hrefused
  obtain ⟨data, o, hcurrent, hfits, rfl, hallowed⟩ := mutableBlob_current hsound hblob
  have hsize : data.length = o.size := hfits.2.symm
  rcases newRevision_cases E c k o.etag
    (fun etag ↦ revised now etag { o with data := data, metadata := metadataFromHeaders req })
    (fun _ ↦ hsize) with ⟨e, A', hrest, huntouched⟩ | ⟨new, V', hV', hrest⟩
  · exact Or.inl ⟨e, A', heq.trans hrest, huntouched⟩
  · exact Or.inr ⟨(data, o), _, V', hcurrent, hallowed, hV', heq.trans hrest, rfl, rfl⟩

/-! ### Whole blobs -/

theorem putObjectUnder_outcome {condition : Option ObjectCondition} {V : Vault}
    (hsize : blob.data.length = blob.size) :
    (∃ r, putObjectUnder E c k blob condition V = (r, V) ∧ r ≠ .ok true) ∨
      ∃ V', Vault.putObject E c k blob blob.data V = (.ok (), V') ∧
        putObjectUnder E c k blob condition V = (.ok true, V') := by
  cases condition with
  | some condition => exact Vault.mutateIf_outcome (Vault.putObject_cases E c k hsize)
  | none =>
    rcases Vault.putObject_cases E c k hsize with ⟨e, he⟩ | ⟨V', hV'⟩
    · exact Or.inl ⟨.error e, bind_of_error he, nofun⟩
    · exact Or.inr ⟨V', hV', bind_of_ok hV'⟩

/-- **A blob is put** in the place of the current one, and its blocks are forgotten. -/
theorem putBlob_cases :
    Refused (putBlob E C now account c k req) A ∨
      ∃ put etag V', admitPutBlob C now c k req A = (.ok put, A) ∧
        Vault.putObject E c k (blobForType now k req etag put) (blobForType now k req etag put).data
          (A.vault.draw (A.vault.drawn + 1)) = (.ok (), V') ∧
        putBlob E C now account c k req A =
          (.ok .empty, (clearBlockUploadState (blobStateKey account c k) { A with vault := V' }).2) := by
  rcases refused_or_of_readOnly admitPutBlob_readOnly with hrefused | ⟨put, hput, heq⟩
  · exact Or.inl hrefused
  have hsize : (blobForType now k req (E.uuid A.vault.drawn) put).data.length =
      (blobForType now k req (E.uuid A.vault.drawn) put).size := by
    obtain ⟨metadata, hblob⟩ := blobForType_eq now k req (E.uuid A.vault.drawn) put
    rw [hblob]
    rfl
  rcases onVault_cases (A := { A with vault := A.vault.draw (A.vault.drawn + 1) })
    (f := fun written ↦ (do
      .refuseIf (!written) (unmet req)
      clearBlockUploadState (blobStateKey account c k)
      return .empty : Handler Response))
    (fun _ ↦ ⟨_, rfl⟩) (putObjectUnder_outcome hsize) with
      ⟨e, A', hrest, huntouched⟩ | ⟨V', hV', hrest⟩
  · exact Or.inl ⟨e, A', heq.trans hrest, trans_of Untouched untouched_draw huntouched⟩
  · exact Or.inr ⟨put, _, V', hput, hV', heq.trans hrest⟩

/-- A delete is refused, or is carried out. -/
theorem deleteCurrentBlob_cases {condition : Option ObjectCondition} :
    Refused (deleteCurrentBlob E now c k condition) A ∨
      ∃ V', Vault.deleteObject E now c k A.vault = (.ok (), V') ∧
        deleteCurrentBlob E now c k condition A = (.ok (), { A with vault := V' }) := by
  have hdelete := Vault.deleteObject_outcome E now c k A.vault
  cases condition with
  | some condition => exact onVault_cases (fun _ ↦ ⟨_, rfl⟩) (Vault.mutateIf_outcome hdelete)
  | none =>
    rcases hdelete with ⟨e, he⟩ | ⟨V', hV'⟩
    · refine Or.inl (.of_eq (e := serverError e) ?_)
      rw [deleteCurrentBlob, onVault, he]
      rfl
    · refine Or.inr ⟨V', hV', ?_⟩
      rw [deleteCurrentBlob, onVault, hV']
      rfl

/-- A version that may be deleted is deleted. -/
theorem deleteBlobVersion_of_ok {id : String} {version : Object} {e : KeyRecord}
    (hadmitted : (admitVersionDeletion C now c k id req A).1 = .ok version)
    (he : (A.vault.record c k).deleteVersion k id = .ok e) {B : Bucket}
    (hB : A.vault.buckets[c]? = some B) :
    deleteBlobVersion C now c k id req A =
      (.ok .empty, { A with vault := A.vault.setRecord c k e }) := by
  rw [Vault.record_eq hB] at he
  have hvault : onVault (Vault.deleteObjectVersion c k id) A =
      (.ok (), { A with vault := A.vault.setRecord c k e }) := by
    rw [onVault, Vault.deleteObjectVersion, Vault.getBucket_bind_of_some hB, he]
    rfl
  rw [deleteBlobVersion, bind_of_ok (Prod.ext hadmitted (admitVersionDeletion_readOnly A)),
    bind_of_ok hvault]
  rfl

/-- **The one version that is kept besides the current one is promoted** by a request that deletes
the current one. -/
theorem handleRequest_promotes (C : Codec) (now : Time) (G : Gate) (reads : Reads) (req : Request)
    (id id' : String) (data : Bytes) (hsound : A.Sound E) (hc : req.container = some c) (hk : req.blob = some k)
    (hrestype : req.queryParam "restype" ≠ some "container") (hpending : A.deletions[c]? = none)
    (hop : blobOperation req = .deleteBlob) (hid : req.queryParam "versionid" = some id)
    (hsnapshot : req.queryParam "snapshot" = none) (hadmitted : (admitRequest C now G req A).1 = .ok ())
    (hblob : (admitBlob G c req A).1 = .ok ())
    (hallowed : ((admitVersionDeletion C now c k id req A).1.toOption).isSome = true)
    (hvalid : validVersionId id = true)
    (hcurrent : (A.vault.record c k).current.map (·.2.versionId) = some (some id))
    (hkept : (A.vault.record c k).versions[id']?.map (fun st ↦ (st.1, st.2.isDeleteMarker)) =
      some (data, false))
    (hsingle : (A.vault.record c k).versions.toList.map Prod.fst = [id']) (hne : id' ≠ id) :
    ∃ o e, (A.vault.record c k).versions[id']? = some (data, o) ∧ e.current = some (data, o) ∧
      handleRequest E C now G reads req A =
        (.ok .empty, { A with vault := A.vault.setRecord c k e }) ∧
      ({ A with vault := A.vault.setRecord c k e }.vault.record c k) = e := by
  obtain ⟨⟨data', o'⟩, hst, hid'⟩ := Option.map_eq_some_iff.1 hcurrent
  obtain ⟨⟨data, o⟩, hversion, heq⟩ := Option.map_eq_some_iff.1 hkept
  obtain ⟨rfl, hmarker⟩ := Prod.mk.inj heq
  obtain ⟨B, hB⟩ := Vault.bucket_of_current hst
  obtain ⟨version, hversion'⟩ := Option.isSome_iff_exists.1 hallowed
  have hok : (admitVersionDeletion C now c k id req A).1 = .ok version := by
    cases hr : (admitVersionDeletion C now c k id req A).1 with
    | error e =>
      rw [hr] at hversion'
      cases hversion'
    | ok found =>
      rw [hr] at hversion'
      cases hversion'
      rfl
  have hdelete := (hsound.regular.record hB).deleteVersion_of_single hst hid' hvalid hversion
    (fun i st hi ↦ ?_) hne hmarker
  · refine ⟨o, ⟨some (data, o), ((A.vault.record c k).versions.set id none).set id' none⟩, hversion, rfl,
      ?_, ?_⟩
    · rw [handleRequest_blob_of_ok hc hk hrestype hpending hadmitted hblob, dispatchBlob, hop]
      dsimp only
      rw [handleDeletion, refuseIf_bind_of_not (by rw [hsnapshot]; exact fun h ↦ nomatch h.1),
        deleteBlob, hid]
      exact deleteBlobVersion_of_ok hok hdelete hB
    · exact (Vault.record_setRecord hB).trans (if_pos ⟨rfl, rfl⟩)
  · have hmem : i ∈ (A.vault.record c k).versions.toList.map Prod.fst :=
      List.mem_map.2 ⟨(i, st), Std.ExtTreeMap.mem_toList_iff_getElem?_eq_some.2 hi, rfl⟩
    rw [hsingle] at hmem
    exact List.mem_singleton.1 hmem

/-- **A version is deleted**, and what is kept under the key is what `delete_object_version`
leaves. -/
theorem deleteBlobVersion_cases {id : String} :
    Refused (deleteBlobVersion C now c k id req) A ∨
      ∃ version e, admitVersionDeletion C now c k id req A = (.ok version, A) ∧
        (A.vault.record c k).deleteVersion k id = .ok e ∧
        deleteBlobVersion C now c k id req A =
          (.ok .empty, { A with vault := A.vault.setRecord c k e }) := by
  rcases refused_or_of_readOnly admitVersionDeletion_readOnly with hrefused | ⟨version, hadmitted, heq⟩
  · exact Or.inl hrefused
  rcases Vault.deleteObjectVersion_cases c k id A.vault with ⟨e, he⟩ | ⟨B, e, hB, hdelete, hok⟩
  · have hvault : onVault (Vault.deleteObjectVersion c k id) A = (.error (serverError e), A) := by
      rw [onVault, he]
      rfl
    exact Or.inl (.of_eq (heq.trans (bind_of_error hvault)))
  · have hvault : onVault (Vault.deleteObjectVersion c k id) A =
        (.ok (), { A with vault := A.vault.setRecord c k e }) := by
      rw [onVault, hok]
      rfl
    refine Or.inr ⟨version, e, hadmitted, ?_, heq.trans (bind_of_ok hvault)⟩
    rw [Vault.record_eq hB]
    exact hdelete

/-! ### Blocks -/

/-- **A block is staged** under a new item. -/
theorem putBlock_cases :
    Refused (putBlock E C account c k req) A ∨
      ∃ id found, admitBlock C (blobStateKey account c k) c k req A = (.ok (id, found), A) ∧
        putBlock E C account c k req A =
          (.ok .empty, stageBlock (blobStateKey account c k) id
            ("uncommitted-" ++ E.uuid A.vault.drawn) found req.body
            { A with vault := A.vault.draw (A.vault.drawn + 1) }) := by
  rcases refused_or_of_readOnly admitBlock_readOnly with hrefused | ⟨⟨id, found⟩, hadmitted, heq⟩
  · exact Or.inl hrefused
  · exact Or.inr ⟨id, found, hadmitted, heq⟩

/-- The bytes of a list of blocks are those of their files. -/
theorem blockBytes_congr {A' : Adapter} {session : String} {blocks : List CommittedBlock}
    (h : ∀ block ∈ blocks, A'.item session block.item = A.item session block.item) :
    blockBytes session A' blocks = blockBytes session A blocks := by
  induction blocks with
  | nil => rfl
  | cons block blocks ih =>
    rw [blockBytes, blockBytes, h block List.mem_cons_self,
      ih fun block' hmem ↦ h block' (List.mem_cons_of_mem block hmem)]

theorem blockBytes_of_items (A A' : Adapter) {session : String} {blocks : List CommittedBlock}
    (h : A'.items = A.items) : blockBytes session A' blocks = blockBytes session A blocks := by
  refine blockBytes_congr fun block _ ↦ ?_
  rw [Adapter.item, Adapter.item, h]

/-- The composition of a blob is refused, or writes the bytes of its blocks. -/
theorem composeUploadPayloads_cases {β : Type} {session : String} {put : PutBlockList}
    {f : Bool → Handler β} (hf : ∀ A, ∃ e, f false A = (.error e, A))
    (hsize : ∀ data, blockBytes session A put.blocks = some data → data.length = blob.size) :
    Refused (composeUploadPayloads E session c k put blob >>= f) A ∨
      ∃ data V', blockBytes session A put.blocks = some data ∧
        Vault.putObject E c k blob data A.vault = (.ok (), V') ∧
        (composeUploadPayloads E session c k put blob >>= f) A = f true { A with vault := V' } := by
  cases hdata : blockBytes session A put.blocks with
  | none =>
    exact Or.inl (.bind (.of_eq (find_bind_of_none (g := fun A ↦ blockBytes session A put.blocks) hdata)))
  | some data =>
    have heq : composeUploadPayloads E session c k put blob A =
        onVault (Vault.putObjectIf E c k blob data put.condition) A :=
      find_bind_of_some (g := fun A ↦ blockBytes session A put.blocks) hdata
    have hput : (∃ r, Vault.putObjectIf E c k blob data put.condition A.vault = (r, A.vault) ∧
        r ≠ .ok true) ∨ ∃ V', Vault.putObject E c k blob data A.vault = (.ok (), V') ∧
          Vault.putObjectIf E c k blob data put.condition A.vault = (.ok true, V') :=
      Vault.mutateIf_outcome (Vault.putObject_cases E c k (hsize data hdata))
    rcases onVault_cases hf hput with ⟨e, A', hrest, huntouched⟩ | ⟨V', hV', hrest⟩
    · exact Or.inl ⟨e, A', (bind_congr heq).trans hrest, huntouched⟩
    · exact Or.inr ⟨data, V', rfl, hV', (bind_congr heq).trans hrest⟩

/-- **A list is committed**: the bytes of its blocks are written, and the list is recorded. -/
theorem putBlockList_cases (hsound : A.Sound E) :
    Refused (putBlockList E C now account c k req) A ∨
      ∃ references requested existing put etag data V',
        admitBlockList C now c k req A = (.ok (references, requested, existing), A) ∧
        resolveBlocks ((A.blockSession (blobStateKey account c k)).getD {})
          (A.committedBlocks (blobStateKey account c k)) references = .ok put.resolved ∧
        put.staged = (A.blockSession (blobStateKey account c k)).getD {} ∧
        put.existing = existing ∧
        blockBytes (blobStateKey account c k) A put.blocks = some data ∧
        Vault.putObject E c k (composedBlob now k req etag put) data
          (A.vault.draw (A.vault.drawn + 1)) = (.ok (), V') ∧
        putBlockList E C now account c k req A =
          (.ok .empty, recordCommitted (blobStateKey account c k) put
            { A.cacheCommitted (blobStateKey account c k) with vault := V' }) := by
  rcases refused_or_of_readOnly admitBlockList_readOnly with
    hrefused | ⟨⟨references, requested, existing⟩, hadmitted, heq⟩
  · exact Or.inl hrefused
  have hcached : Untouched A (A.cacheCommitted (blobStateKey account c k)) := untouched_cacheCommitted
  have hsound₁ : (A.cacheCommitted (blobStateKey account c k)).Sound E :=
    (loadCommittedBlocks_keeps (P := fun _ ↦ False) (ι := ⟨"", [], none, []⟩) A hsound).1
  rcases refused_or_of_readOnly (A := A.cacheCommitted (blobStateKey account c k))
    (m := resolveBlockList (blobStateKey account c k) references requested req existing)
    resolveBlockList_readOnly with ⟨e, A', hrest, huntouched⟩ | ⟨put, hput, hrest⟩
  · exact Or.inl ⟨e, A', heq.trans hrest, trans_of Untouched hcached huntouched⟩
  obtain ⟨hresolved, hstaged, hexisting⟩ := resolveBlockList_ok hput
  have hkept := kept_of_resolveBlockList hput
  rw [hcached.blockSession, hcached.committedBlocks] at hresolved
  rw [hcached.blockSession] at hstaged
  -- The blocks that are composed are as long as the blob is to be.
  have hsize : ∀ etag data, blockBytes (blobStateKey account c k) A put.blocks = some data →
      data.length = (composedBlob now k req etag put).size := by
    intro etag data hdata
    obtain ⟨metadata, hblob⟩ := composedBlob_eq now k req etag put
    rw [hblob]
    rw [← blockBytes_of_items A _ hcached.items] at hdata
    refine length_blockBytes hsound₁ (fun block hmem ↦ ?_) hdata
    obtain ⟨resolved, hresolved', rfl⟩ := List.mem_map.1 hmem
    exact hkept.2 resolved hresolved'
  have hbytes : blockBytes (blobStateKey account c k)
      { A.cacheCommitted (blobStateKey account c k) with vault := A.vault.draw (A.vault.drawn + 1) }
      put.blocks = blockBytes (blobStateKey account c k) A put.blocks := blockBytes_of_items A _ rfl
  rcases composeUploadPayloads_cases (E := E) (c := c) (k := k)
    (A := { A.cacheCommitted (blobStateKey account c k) with
      vault := A.vault.draw (A.vault.drawn + 1) })
    (f := fun written ↦ (do
      .refuseIf (!written) (unmet req)
      .update (recordCommitted (blobStateKey account c k) put)
      return .empty : Handler Response))
    (fun _ ↦ ⟨_, rfl⟩) (fun data hdata ↦ hsize (E.uuid A.vault.drawn) data
      (hbytes.symm.trans hdata)) with
      ⟨e, A', hfinal, huntouched⟩ | ⟨data, V', hdata, hV', hfinal⟩
  · refine Or.inl ⟨e, A', heq.trans (hrest.trans hfinal), trans_of Untouched hcached
      (trans_of Untouched untouched_draw huntouched)⟩
  · exact Or.inr ⟨references, requested, existing, put, _, data, V', hadmitted, hresolved, hstaged,
      hexisting, hbytes.symm.trans hdata, hV', heq.trans (hrest.trans hfinal)⟩

/-! ### Containers -/

/-- **A container is created** empty, where there is none. -/
theorem createContainer_cases (now : Time) (req : Request) :
    Refused (createContainer now c req) A ∨
      A.vault.buckets[c]? = none ∧ ∃ V', WithEmpty c A.vault V' ∧
        (createContainer now c req A).2 = { A with vault := V' } := by
  rcases refused_or_of_readOnly admitContainer_readOnly with
    hrefused | ⟨⟨versioning, days⟩, hadmitted, heq⟩
  · exact Or.inl hrefused
  have hfree := admitContainer_ok hadmitted
  refine Or.inr ⟨?_, _, createContainerIn_withEmpty now req versioning days hfree, ?_⟩
  · rwa [Std.ExtTreeMap.contains_eq_isSome_getElem?, Option.isSome_eq_false_iff,
      Option.isNone_iff_eq_none] at hfree
  · rw [createContainer, heq]
    dsimp only
    rcases hr : onVault (createContainerIn now c req versioning days) A with ⟨e | u, A'⟩
    · rw [bind_of_error hr]
      exact (congrArg Prod.snd hr).symm
    · rw [bind_of_ok hr]
      exact (congrArg Prod.snd hr).symm

end Handlers

end Azure

end Sqrzl
