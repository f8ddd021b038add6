import SqrzlEmulator.Azure.Containers

/-!
# What requests do to the adapter

The checks of a handler leave the state as it is (`ReadOnly`), so that what a request does is what
comes after its checks. **A request moves along a relation as soon as the deletions that it finishes
and the one operation that it is for do** (`handleRequest_moves`).
-/

namespace Sqrzl.Azure

open Prog Atomic

variable {E : Env} {C : Codec} {now : Time} {G : Gate} {reads : Reads} {req : Request}
  {account c : String} {k : Text} {A A' : Adapter}

/-! ### Checks -/

theorem conditionalBlob_readOnly : ReadOnly (conditionalBlob c k req) :=
  .bind .find fun _ ↦ .bind .refuseIf fun _ ↦ .pure

theorem admitAcquire_readOnly : ReadOnly (admitAcquire c k req) :=
  .bind conditionalBlob_readOnly fun _ ↦ .bind .refuseIf fun _ ↦ .pure

theorem admitLeaseHolder_readOnly : ReadOnly (admitLeaseHolder c k req) :=
  .bind conditionalBlob_readOnly fun _ ↦ .bind .ofExcept fun _ ↦ .pure

theorem admitBreak_readOnly : ReadOnly (admitBreak c k req) :=
  .bind conditionalBlob_readOnly fun _ ↦ .bind .refuseIf fun _ ↦ .pure

theorem admitPolicy_readOnly : ReadOnly (admitPolicy C now c k req) :=
  .bind .ofExcept fun _ ↦ .bind conditionalBlob_readOnly fun _ ↦ .bind .refuseIf fun _ ↦ .pure

theorem admitPolicyDeletion_readOnly : ReadOnly (admitPolicyDeletion c k req) :=
  .bind conditionalBlob_readOnly fun _ ↦ .bind .refuseIf fun _ ↦ .pure

theorem admitLegalHold_readOnly : ReadOnly (admitLegalHold c k req) :=
  .bind .ofExcept fun _ ↦ .bind conditionalBlob_readOnly fun _ ↦ .pure

theorem boundedMutationBlob_readOnly {extra : ℕ} : ReadOnly (boundedMutationBlob c k extra) :=
  .bind .find fun _ ↦ .ofExcept

theorem mutableBlob_readOnly {extra : ℕ} : ReadOnly (mutableBlob C now c k extra req) :=
  .bind boundedMutationBlob_readOnly fun _ ↦ .bind .ofExcept fun _ ↦ .bind .refuseIf fun _ ↦ .pure

theorem admitAppend_readOnly : ReadOnly (admitAppend C now c k req) :=
  .bind .refuseIf fun _ ↦ .bind .ofExcept fun _ ↦ .bind mutableBlob_readOnly fun _ ↦
    .bind .refuseIf fun _ ↦ .pure

theorem admitPage_readOnly : ReadOnly (admitPage C now c k req) :=
  .bind .ofExcept fun _ ↦ .bind .refuseIf fun _ ↦ .bind .ofExcept fun _ ↦
    .bind mutableBlob_readOnly fun _ ↦ .bind .refuseIf fun _ ↦ .bind .ofExcept fun _ ↦ .pure

theorem admitSnapshot_readOnly : ReadOnly (admitSnapshot c k req) :=
  .bind boundedMutationBlob_readOnly fun _ ↦ .bind .ofExcept fun _ ↦ .bind .refuseIf fun _ ↦ .pure

theorem admitOverwrite_readOnly : ReadOnly (admitOverwrite C now c k req) := by
  refine .bind .view fun existing ↦ ?_
  cases existing with
  | none => exact .bind .refuseIf fun _ ↦ .pure
  | some existing => exact .bind .find fun _ ↦ .bind .ofExcept fun _ ↦ .pure

theorem admitPutBlob_readOnly : ReadOnly (admitPutBlob C now c k req) :=
  .bind admitOverwrite_readOnly fun _ ↦ .bind .ofExcept fun _ ↦ .bind .refuseIf fun _ ↦
    .bind .ofExcept fun _ ↦ .bind .ofExcept fun _ ↦ .pure

theorem admitVersionDeletion_readOnly {id : String} :
    ReadOnly (admitVersionDeletion C now c k id req) :=
  .bind .view fun _ ↦ .bind .ofExcept fun _ ↦ .bind .ofExcept fun _ ↦ .bind .refuseIf fun _ ↦ .pure

theorem admitSnapshotDeletion_readOnly {key : Text} :
    ReadOnly (admitSnapshotDeletion C now c key req) :=
  .bind .find fun _ ↦ .bind .ofExcept fun _ ↦ .bind .refuseIf fun _ ↦ .pure

theorem admitDeletion_readOnly : ReadOnly (admitDeletion C now c k req) :=
  .bind .find fun _ ↦ .bind .ofExcept fun _ ↦ .bind .view fun _ ↦ .bind .refuseIf fun _ ↦
    .bind .refuseIf fun _ ↦ .bind .refuseIf fun _ ↦ .bind .ofExcept fun _ ↦ .pure

theorem admitBlockOn_readOnly : ReadOnly (admitBlockOn c k req) := by
  refine .bind .view fun existing ↦ ?_
  cases existing with
  | none => exact .refuseIf
  | some existing => exact .bind .ofExcept fun _ ↦ .bind .refuseIf fun _ ↦ .refuseIf

theorem admitBlock_readOnly {session : String} : ReadOnly (admitBlock C session c k req) :=
  .bind .refuseIf fun _ ↦ .bind .ofExcept fun _ ↦ .bind .ofExcept fun _ ↦
    .bind admitBlockOn_readOnly fun _ ↦ .bind .view fun _ ↦ .bind .refuseIf fun _ ↦
      .bind .refuseIf fun _ ↦ .pure

theorem admitListOn_readOnly : ReadOnly (admitListOn C now c k req) :=
  .bind admitOverwrite_readOnly fun _ ↦ .bind .refuseIf fun _ ↦ .bind .refuseIf fun _ ↦ .pure

theorem admitBlockList_readOnly : ReadOnly (admitBlockList C now c k req) :=
  .bind .ofExcept fun _ ↦ .bind .ofExcept fun _ ↦ .bind .ofExcept fun _ ↦
    .bind admitListOn_readOnly fun _ ↦ .pure

theorem resolveBlockList_readOnly {session : String} {references : List BlockReference}
    {requested : Option ObjectCondition} {existing : Option Object} :
    ReadOnly (resolveBlockList session references requested req existing) :=
  .bind .view fun _ ↦ .bind .view fun _ ↦ .bind .ofExcept fun _ ↦ .bind .refuseIf fun _ ↦ .pure

theorem admitListing_readOnly {selector : String} {session : Option BlockSession} :
    ReadOnly (admitListing c k selector session req) := by
  refine .bind .view fun existing ↦ ?_
  cases existing with
  | none => exact .refuseIf
  | some existing => exact .bind .refuseIf fun _ ↦ .bind .refuseIf fun _ ↦ .ofExcept

theorem admitContainer_readOnly : ReadOnly (admitContainer c req) :=
  .bind .refuseIf fun _ ↦ .bind .ofExcept fun _ ↦ .bind .view fun _ ↦ .bind .refuseIf fun _ ↦ .pure

theorem admitContainerDeletion_readOnly : ReadOnly (admitContainerDeletion C now c req) :=
  .bind .find fun _ ↦ .bind .refuseIf fun _ ↦ .bind .view fun _ ↦ .bind .refuseIf fun _ ↦ .ofExcept

theorem refuse_readOnly {response : Option Refusal} : ReadOnly (refuse response) := .ofExcept

theorem answer_readOnly : ReadOnly (answer reads req) := .bind .view fun _ ↦ .ofExcept

theorem fail_readOnly {α : Type} {e : Refusal} : ReadOnly (.fail e : Handler α) := fun _ ↦ rfl

theorem admitRequest_readOnly : ReadOnly (admitRequest C now G req) :=
  .bind .ofExcept fun _ ↦ .bind .refuseIf fun _ ↦ .bind refuse_readOnly fun _ ↦ .refuseIf

theorem admitBlobRequest_readOnly : ReadOnly (admitBlobRequest G req) :=
  .bind refuse_readOnly fun _ ↦ .bind .refuseIf fun _ ↦ .bind .view fun _ ↦ refuse_readOnly

theorem admitContainerRequest_readOnly : ReadOnly (admitContainerRequest G c req) :=
  .bind .view fun _ ↦ .bind refuse_readOnly fun _ ↦ .bind .view fun _ ↦ .bind .ofExcept fun _ ↦
    .bind .refuseIf fun _ ↦ .refuseIf

theorem admitBlob_readOnly : ReadOnly (admitBlob G c req) :=
  .bind .find fun _ ↦ .bind .view fun _ ↦ .bind .refuseIf fun _ ↦ admitBlobRequest_readOnly

/-! ### Operations that change only the store -/

/-- What the adapter keeps beside the store is as it was. -/
def OnlyVault (A A' : Adapter) : Prop := A' = { A with vault := A'.vault }

instance : IsPreorder Adapter OnlyVault where
  refl _ := rfl
  trans A A' A'' h h' := by
    rw [OnlyVault] at h h' ⊢
    rw [h', h]

theorem onVault_onlyVault {α : Type} {op : VaultOp α} : Moves OnlyVault (onVault op) := fun _ ↦ rfl

theorem newIdentity_onlyVault : Moves OnlyVault (newIdentity E) := fun _ ↦ rfl

theorem replaceBlobMetadata_onlyVault {observed updated : Object} :
    Moves OnlyVault (replaceBlobMetadata c k observed updated) :=
  .bind onVault_onlyVault fun _ ↦ .refuseIf

theorem putIfEtag_onlyVault {etag : String} {blob : Object} :
    Moves OnlyVault (putIfEtag E c k etag blob) :=
  .bind onVault_onlyVault fun _ ↦ .refuseIf

theorem deleteUnder_onlyVault {condition : ObjectCondition} :
    Moves OnlyVault (deleteUnder E now c k condition) :=
  .bind onVault_onlyVault fun _ ↦ .refuseIf

theorem proposedLeaseId_onlyVault : Moves OnlyVault (proposedLeaseId E req) := by
  unfold proposedLeaseId
  split
  · exact .pure
  · exact newIdentity_onlyVault

/-- Identities are drawn without a look at what is stored. -/
theorem proposedLeaseId_record {r : Except Refusal String} (h : proposedLeaseId E req A = (r, A')) :
    A'.vault.record c k = A.vault.record c k := by
  unfold proposedLeaseId at h
  cases hid : req.header "x-ms-proposed-lease-id" with
  | none =>
    rw [hid] at h
    cases h
    rfl
  | some id =>
    rw [hid] at h
    cases h
    rfl

theorem handleLease_onlyVault : Moves OnlyVault (handleLease E c k req) := by
  unfold handleLease
  dsimp only
  split
  · exact .bind admitAcquire_readOnly.moves fun _ ↦ .bind proposedLeaseId_onlyVault fun _ ↦
      .bind replaceBlobMetadata_onlyVault fun _ ↦ .pure
  split
  · exact .bind admitLeaseHolder_readOnly.moves fun _ ↦ .bind replaceBlobMetadata_onlyVault fun _ ↦
      .pure
  split
  · exact .bind admitLeaseHolder_readOnly.moves fun _ ↦ .bind replaceBlobMetadata_onlyVault fun _ ↦
      .pure
  split
  · exact .bind admitBreak_readOnly.moves fun _ ↦ .bind replaceBlobMetadata_onlyVault fun _ ↦
      .pure
  · exact .bind conditionalBlob_readOnly.moves fun _ ↦ fail_readOnly.moves

theorem putImmutabilityPolicy_onlyVault :
    Moves OnlyVault (putImmutabilityPolicy C now c k req) :=
  .bind admitPolicy_readOnly.moves fun _ ↦ .bind replaceBlobMetadata_onlyVault fun _ ↦
    .pure

theorem deleteImmutabilityPolicy_onlyVault : Moves OnlyVault (deleteImmutabilityPolicy c k req) :=
  .bind admitPolicyDeletion_readOnly.moves fun _ ↦ .bind replaceBlobMetadata_onlyVault fun _ ↦
    .pure

theorem putLegalHold_onlyVault : Moves OnlyVault (putLegalHold c k req) :=
  .bind admitLegalHold_readOnly.moves fun _ ↦ .bind replaceBlobMetadata_onlyVault fun _ ↦
    .pure

theorem updateMetadata_onlyVault : Moves OnlyVault (updateMetadata E C now c k req) :=
  .bind mutableBlob_readOnly.moves fun _ ↦ .bind newIdentity_onlyVault fun _ ↦
    .bind putIfEtag_onlyVault fun _ ↦ .pure

theorem appendBlock_onlyVault : Moves OnlyVault (appendBlock E C now c k req) :=
  .bind admitAppend_readOnly.moves fun _ ↦ .bind newIdentity_onlyVault fun _ ↦
    .bind putIfEtag_onlyVault fun _ ↦ .pure

theorem putPage_onlyVault : Moves OnlyVault (putPage E C now c k req) :=
  .bind admitPage_readOnly.moves fun _ ↦ .bind newIdentity_onlyVault fun _ ↦
    .bind putIfEtag_onlyVault fun _ ↦ .pure

theorem createSnapshot_onlyVault : Moves OnlyVault (createSnapshot E C now c k req) :=
  .bind admitSnapshot_readOnly.moves fun _ ↦ .bind newIdentity_onlyVault fun _ ↦
    .bind onVault_onlyVault fun _ ↦ .pure

theorem deleteSnapshots_onlyVault : ∀ keys, Moves OnlyVault (deleteSnapshots E now c keys)
  | [] => .pure
  | _ :: keys => .bind onVault_onlyVault fun _ ↦ deleteSnapshots_onlyVault keys

theorem deleteCurrentBlob_onlyVault {condition : Option ObjectCondition} :
    Moves OnlyVault (deleteCurrentBlob E now c k condition) := by
  cases condition with
  | none => exact onVault_onlyVault
  | some condition => exact deleteUnder_onlyVault

theorem deleteBlobVersion_onlyVault {id : String} :
    Moves OnlyVault (deleteBlobVersion C now c k id req) :=
  .bind admitVersionDeletion_readOnly.moves fun _ ↦ .bind onVault_onlyVault fun _ ↦
    .pure

theorem deleteBlobSnapshot_onlyVault {snapshot : String} :
    Moves OnlyVault (deleteBlobSnapshot E C now c k snapshot req) :=
  .bind admitSnapshotDeletion_readOnly.moves fun _ ↦ .bind deleteUnder_onlyVault fun _ ↦
    .pure

theorem composeUploadPayloads_onlyVault {session : String} {put : PutBlockList} {blob : Object} :
    Moves OnlyVault (composeUploadPayloads E session c k put blob) :=
  .bind ReadOnly.find.moves fun _ ↦ onVault_onlyVault

theorem createContainer_onlyVault : Moves OnlyVault (createContainer now c req) :=
  .bind admitContainer_readOnly.moves fun _ ↦ .bind onVault_onlyVault fun _ ↦ .pure

theorem purge_onlyVault : Moves OnlyVault (purge E now c) := by
  intro A
  unfold purge
  split
  · exact rfl
  · exact rfl
  · exact rfl

/-! ### Requests -/

section Moves

variable {R : Adapter → Adapter → Prop} [IsPreorder Adapter R]

theorem finishDeletions_moves (hfinish : ∀ c, Moves R (finishExpiredDeletion E C now c)) :
    ∀ names, Moves R (finishDeletions E C now names)
  | [] => .pure
  | c :: names => (hfinish c).bind fun _ ↦ finishDeletions_moves hfinish names

theorem resolveDeletion_moves (hfinish : ∀ c, Moves R (finishExpiredDeletion E C now c)) :
    Moves R (resolveDeletion E C now c req) :=
  (hfinish c).bind fun _ ↦ ReadOnly.moves (.bind .view fun _ ↦ .refuseIf)

theorem handleAccountRequest_moves (hfinish : ∀ c, Moves R (finishExpiredDeletion E C now c)) :
    Moves R (handleAccountRequest E C now reads req) :=
  .bind .refuseIf fun _ ↦ .bind ReadOnly.ofExcept.moves fun _ ↦
    .bind .view fun _ ↦ .bind (finishDeletions_moves hfinish _) fun _ ↦
      answer_readOnly.moves

theorem handleContainerRequest_moves (hcreate : Moves R (createContainer now c req))
    (hdelete : Moves R (deleteContainer C now c req)) :
    Moves R (handleContainerRequest C now G reads c req) := by
  refine .bind admitContainerRequest_readOnly.moves fun _ ↦ ?_
  split
  · exact hcreate
  · exact hdelete
  · exact answer_readOnly.moves
  · exact answer_readOnly.moves
  · exact fail_readOnly.moves

/-- A request about a blob finds its container. -/
theorem admitBlob_ok {u : Unit} (h : admitBlob G c req A = (.ok u, A')) :
    ∃ B, A.vault.buckets[c]? = some B := by
  obtain ⟨B, hB, -⟩ := find_bind_ok.1 h
  exact ⟨B, hB⟩

/-- **A request** finishes deletions, and then carries out one operation. -/
theorem handleRequest_moves_from (hfinish : ∀ c, Moves R (finishExpiredDeletion E C now c))
    (hcreate : ∀ c, req.container = some c → Moves R (createContainer now c req))
    (hdelete : ∀ c, req.container = some c → Moves R (deleteContainer C now c req))
    (hblob : ∀ c k A₁ B, req.container = some c → req.blob = some k →
      resolveDeletion E C now c req A = (.ok (), A₁) → A₁.vault.buckets[c]? = some B →
        R A₁ (dispatchBlob E C now reads req.account c k req A₁).2) :
    R A (handleRequest E C now G reads req A).2 := by
  refine admitRequest_readOnly.bind_moves fun _ _ ↦ ?_
  cases hc : req.container with
  | none => exact handleAccountRequest_moves hfinish A
  | some c =>
    refine bind_moves (resolveDeletion_moves hfinish A) fun _ A₁ hresolve ↦ ?_
    unfold handleResource
    by_cases hrestype : req.queryParam "restype" = some "container"
    · rw [if_pos hrestype]
      exact handleContainerRequest_moves (hcreate c hc) (hdelete c hc) A₁
    · rw [if_neg hrestype]
      cases hk : req.blob with
      | none => exact fail_readOnly.moves A₁
      | some k =>
        refine admitBlob_readOnly.bind_moves fun _ h ↦ ?_
        obtain ⟨B, hB⟩ := admitBlob_ok h
        exact hblob c k A₁ B hc hk hresolve hB

theorem handleRequest_moves (hfinish : ∀ c, Moves R (finishExpiredDeletion E C now c))
    (hcreate : ∀ c, req.container = some c → Moves R (createContainer now c req))
    (hdelete : ∀ c, req.container = some c → Moves R (deleteContainer C now c req))
    (hblob : ∀ c k, req.container = some c → req.blob = some k →
      Moves R (dispatchBlob E C now reads req.account c k req)) :
    Moves R (handleRequest E C now G reads req) :=
  fun _ ↦ handleRequest_moves_from hfinish hcreate hdelete fun c k A₁ _ hc hk _ _ ↦ hblob c k hc hk A₁

/-- **A request about a blob** finishes the deletion of its container, and then carries out its
operation. -/
theorem handleRequest_blob_moves (hc : req.container = some c) (hk : req.blob = some k)
    (hrestype : req.queryParam "restype" ≠ some "container")
    (hresolve : R A (resolveDeletion E C now c req A).2)
    (hdispatch : ∀ A₁, resolveDeletion E C now c req A = (.ok (), A₁) →
      R A₁ (dispatchBlob E C now reads req.account c k req A₁).2) :
    R A (handleRequest E C now G reads req A).2 := by
  refine admitRequest_readOnly.bind_moves fun _ _ ↦ ?_
  rw [hc]
  refine bind_moves hresolve fun _ A₁ hA₁ ↦ ?_
  rw [handleResource, if_neg hrestype, hk]
  exact admitBlob_readOnly.bind_moves fun _ _ ↦ hdispatch A₁ hA₁

end Moves

/-- A request about a blob that succeeds is one whose operation does, after the deletions. -/
theorem handleRequest_blob_ok {r : Response} (hc : req.container = some c) (hk : req.blob = some k)
    (hrestype : req.queryParam "restype" ≠ some "container")
    (h : handleRequest E C now G reads req A = (.ok r, A')) :
    ∃ A₁ B, resolveDeletion E C now c req A = (.ok (), A₁) ∧ A₁.vault.buckets[c]? = some B ∧
      dispatchBlob E C now reads req.account c k req A₁ = (.ok r, A') := by
  rw [handleRequest, hc] at h
  obtain ⟨_, A₀, hadmitted, hrest⟩ := bind_ok.1 h
  obtain rfl : A₀ = A := by rw [← admitRequest_readOnly A, hadmitted]
  obtain ⟨_, A₁, hresolve, hresource⟩ := bind_ok.1 hrest
  rw [handleResource, if_neg hrestype, hk] at hresource
  obtain ⟨_, A₂, hblob, hdispatch⟩ := bind_ok.1 hresource
  obtain rfl : A₂ = A₁ := by rw [← admitBlob_readOnly A₁, hblob]
  obtain ⟨B, hB⟩ := admitBlob_ok hblob
  exact ⟨A₂, B, hresolve, hB, hdispatch⟩

/-- Where no deletion is pending, a request does not finish one. -/
theorem resolveDeletion_of_none (h : A.deletions[c]? = none) :
    resolveDeletion E C now c req A = (.ok (), A) := by
  have hfinish : finishExpiredDeletion E C now c A = (.ok false, A) := by
    rw [finishExpiredDeletion, view_bind, h]
    rfl
  have hpending : A.deletions.contains c = false := by
    rw [Std.ExtTreeMap.contains_eq_isSome_getElem?, h]
    rfl
  rw [resolveDeletion, bind_of_ok hfinish, view_bind, hpending]
  rfl

/-- **Where no deletion is pending**, a request about a blob is refused, or is its operation. -/
theorem handleRequest_blob_eq (hc : req.container = some c) (hk : req.blob = some k)
    (hrestype : req.queryParam "restype" ≠ some "container") (h : A.deletions[c]? = none) :
    (∃ e, handleRequest E C now G reads req A = (.error e, A)) ∨
      admitRequest C now G req A = (.ok (), A) ∧ admitBlob G c req A = (.ok (), A) ∧
        handleRequest E C now G reads req A = dispatchBlob E C now reads req.account c k req A := by
  rw [handleRequest, hc]
  rcases admitRequest_readOnly.bind_eq_cases (s := A) with hrefused | ⟨_, hadmitted, heq⟩
  · exact Or.inl hrefused
  rw [heq]
  dsimp only
  rw [bind_of_ok (resolveDeletion_of_none h), handleResource, if_neg hrestype, hk]
  rcases admitBlob_readOnly.bind_eq_cases (s := A) with hrefused | ⟨_, hblob, heq⟩
  · exact Or.inl hrefused
  · exact Or.inr ⟨hadmitted, hblob, heq⟩

/-- A request about a blob that is let through is its operation. -/
theorem handleRequest_blob_of_ok (hc : req.container = some c) (hk : req.blob = some k)
    (hrestype : req.queryParam "restype" ≠ some "container") (h : A.deletions[c]? = none)
    (hadmitted : (admitRequest C now G req A).1 = .ok ()) (hblob : (admitBlob G c req A).1 = .ok ()) :
    handleRequest E C now G reads req A = dispatchBlob E C now reads req.account c k req A := by
  rw [handleRequest, hc, bind_of_ok (Prod.ext hadmitted (admitRequest_readOnly A))]
  dsimp only
  rw [bind_of_ok (resolveDeletion_of_none h), handleResource, if_neg hrestype, hk]
  exact bind_of_ok (Prod.ext hblob (admitBlob_readOnly A))

/-- Where no deletion is pending, a request to create a container is refused, or is just that. -/
theorem handleRequest_create_eq (hc : req.container = some c) (hmethod : req.method = .put)
    (hrestype : req.queryParam "restype" = some "container") (h : A.deletions[c]? = none) :
    (∃ e, handleRequest E C now G reads req A = (.error e, A)) ∨
      handleRequest E C now G reads req A = createContainer now c req A := by
  rw [handleRequest, hc]
  rcases admitRequest_readOnly.bind_eq_cases (s := A) with hrefused | ⟨_, -, heq⟩
  · exact Or.inl hrefused
  rw [heq]
  dsimp only
  rw [bind_of_ok (resolveDeletion_of_none h), handleResource, if_pos hrestype,
    handleContainerRequest, hmethod]
  rcases admitContainerRequest_readOnly.bind_eq_cases (s := A) with hrefused | ⟨_, -, heq⟩
  · exact Or.inl hrefused
  · exact Or.inr heq

section Moves

variable {R : Adapter → Adapter → Prop} [IsPreorder Adapter R]

end Moves

end Sqrzl.Azure
