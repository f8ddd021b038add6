import SqrzlEmulator.Azure.Effects

/-!
# What the operations on a blob leave alone

An operation on a blob writes under the key of the blob; a snapshot is written under a key of its
own, and a delete with `x-ms-delete-snapshots` removes what is under the keys of the snapshots.
**Everything else in the store is as it was** (`dispatchBlob_frame`): the records of the other keys,
and what a container keeps beside its objects.

`Touches` are the keys that an operation on a blob may write under.
-/

namespace Sqrzl

open Prog Atomic

namespace Vault

/-! ### Frames of the store -/

/-- What a bucket keeps beside its objects. -/
def settings (V : Vault) (b : String) : Option Bucket :=
  V.buckets[b]?.map fun B ↦ { B with objects := ∅ }

/-- **The store is the same outside `K`**: under the other keys, and in what the buckets keep beside
their objects. -/
structure Frame (K : String → Text → Prop) (V V' : Vault) : Prop where
  record : ∀ b key, ¬ K b key → V'.record b key = V.record b key
  settings : ∀ b, V'.settings b = V.settings b

section Operations

variable {E : Env} {now : Time} {K : String → Text → Prop} {V : Vault} {b : String} {key : Text}

instance : IsPreorder Vault (Frame K) where
  refl _ := ⟨fun _ _ _ ↦ rfl, fun _ ↦ rfl⟩
  trans _ _ _ h h' := ⟨fun b key hK ↦ (h'.record b key hK).trans (h.record b key hK),
    fun b ↦ (h'.settings b).trans (h.settings b)⟩

theorem frame_setRecord (hK : K b key) (e : KeyRecord) : Frame K V (V.setRecord b key e) where
  record b' key' hne := by
    cases hB : V.buckets[b]? with
    | none => rw [setRecord, hB, Option.map_none, ← hB, Table.set_getElem?]
    | some B =>
      rw [record_setRecord hB, if_neg]
      rintro ⟨rfl, rfl⟩
      exact hne hK
  settings b' := by
    rw [Vault.settings, Vault.settings, setRecord, Table.getElem?_set]
    split
    · next h =>
      rw [h, Option.map_map]
      rfl
    · rfl

theorem frame_draw {n : ℕ} : Frame K V (V.draw n) := ⟨fun _ _ _ ↦ rfl, fun _ ↦ rfl⟩

theorem putObject_frame {o : Object} {data : Bytes} (hK : K b key) :
    Moves (Frame K) (putObject E b key o data) := by
  intro V
  unfold putObject
  split
  · exact refl_of (Frame K) V
  · dsimp only
    split
    · exact trans_of (Frame K) (frame_setRecord hK _) frame_draw
    · exact trans_of (Frame K) (frame_setRecord hK _) frame_draw

theorem deleteObject_frame (hK : K b key) : Moves (Frame K) (deleteObject E now b key) := by
  intro V
  unfold deleteObject
  split
  · split
    · exact refl_of (Frame K) V
    · exact frame_setRecord hK _
  · exact trans_of (Frame K) (frame_setRecord hK _) frame_draw

theorem mutateIf_frame {c : ObjectCondition} {mutation : VaultOp Unit}
    (h : Moves (Frame K) mutation) : Moves (Frame K) (mutateIf b key c mutation) := by
  refine .bind .view fun metadata ↦ ?_
  split
  · exact .bind h fun _ ↦ .pure
  · exact .pure

theorem deleteObjectVersion_frame {id : String} (hK : K b key) :
    Moves (Frame K) (deleteObjectVersion b key id) :=
  .bind ReadOnly.find.moves fun _ ↦ .bind ReadOnly.ofExcept.moves fun e ↦
    .update fun _ ↦ frame_setRecord hK e

theorem replaceObjectMetadata_frame {observed updated : Object} (hK : K b key) :
    Moves (Frame K) (replaceObjectMetadataIfUnchanged b key observed updated) := by
  refine .bind .view fun current ↦ ?_
  split
  · exact .pure
  · dsimp only
    split
    · exact .pure
    · exact .bind (.update fun _ ↦ frame_setRecord hK _) fun _ ↦ .pure

end Operations

end Vault

namespace Azure

/-! ### Frames of the adapter -/

/-- **The store is the same outside `K`**, and no deletion of a container is accepted or
forgotten. -/
structure Frame (K : String → Text → Prop) (A A' : Adapter) : Prop where
  vault : Vault.Frame K A.vault A'.vault
  deletions : A'.deletions = A.deletions

section Operations

variable {E : Env} {C : Codec} {now : Time} {reads : Reads} {req : Request} {account c : String}
  {k : Text} {K : String → Text → Prop} {A : Adapter}

instance : IsPreorder Adapter (Frame K) where
  refl _ := ⟨refl_of (Vault.Frame K) _, rfl⟩
  trans _ _ _ h h' := ⟨trans_of (Vault.Frame K) h.vault h'.vault, h'.deletions.trans h.deletions⟩

theorem onVault_frame {α : Type} {op : VaultOp α} (h : Moves (Vault.Frame K) op) :
    Moves (Frame K) (onVault op) :=
  fun A ↦ ⟨h A.vault, rfl⟩

/-- An operation of the store that succeeds in a handler has succeeded in the store. -/
theorem onVault_ok {α : Type} {op : VaultOp α} {a : α} {A' : Adapter}
    (h : onVault op A = (.ok a, A')) : op A.vault = (.ok a, A'.vault) := by
  obtain ⟨hresult, rfl⟩ := Prod.mk.inj h
  cases hop : (op A.vault).1 with
  | error e =>
    rw [hop] at hresult
    cases hresult
  | ok a' =>
    rw [hop] at hresult
    cases hresult
    exact Prod.ext hop rfl

theorem newIdentity_frame : Moves (Frame K) (newIdentity E) := fun _ ↦ ⟨Vault.frame_draw, rfl⟩

theorem replaceBlobMetadata_frame {observed updated : Object} (hK : K c k) :
    Moves (Frame K) (replaceBlobMetadata c k observed updated) :=
  .bind (onVault_frame (Vault.replaceObjectMetadata_frame hK)) fun _ ↦ .refuseIf

theorem putIfEtag_frame {etag : String} {blob : Object} (hK : K c k) :
    Moves (Frame K) (putIfEtag E c k etag blob) :=
  .bind (onVault_frame (Vault.mutateIf_frame (Vault.putObject_frame hK))) fun _ ↦
    .refuseIf

theorem deleteUnder_frame {condition : ObjectCondition} (hK : K c k) :
    Moves (Frame K) (deleteUnder E now c k condition) :=
  .bind (onVault_frame (Vault.mutateIf_frame (Vault.deleteObject_frame hK))) fun _ ↦
    .refuseIf

theorem proposedLeaseId_frame : Moves (Frame K) (proposedLeaseId E req) := by
  unfold proposedLeaseId
  split
  · exact .pure
  · exact newIdentity_frame

theorem handleLease_frame (hK : K c k) : Moves (Frame K) (handleLease E c k req) := by
  unfold handleLease
  dsimp only
  split
  · exact .bind admitAcquire_readOnly.moves fun _ ↦ .bind proposedLeaseId_frame fun _ ↦
      .bind (replaceBlobMetadata_frame hK) fun _ ↦ .pure
  split
  · exact .bind admitLeaseHolder_readOnly.moves fun _ ↦ .bind (replaceBlobMetadata_frame hK) fun _ ↦
      .pure
  split
  · exact .bind admitLeaseHolder_readOnly.moves fun _ ↦ .bind (replaceBlobMetadata_frame hK) fun _ ↦
      .pure
  split
  · exact .bind admitBreak_readOnly.moves fun _ ↦ .bind (replaceBlobMetadata_frame hK) fun _ ↦
      .pure
  · exact .bind conditionalBlob_readOnly.moves fun _ ↦ fail_readOnly.moves

theorem clearBlockUploadState_frame {session : String} :
    Moves (Frame K) (clearBlockUploadState session) :=
  .update fun A ↦ ⟨refl_of (Vault.Frame K) A.vault, rfl⟩

theorem putBlob_frame (hK : K c k) : Moves (Frame K) (putBlob E C now account c k req) := by
  refine .bind admitPutBlob_readOnly.moves fun put ↦ .bind newIdentity_frame fun etag ↦
    .bind (onVault_frame ?_) fun _ ↦ .bind .refuseIf fun _ ↦
      .bind clearBlockUploadState_frame fun _ ↦ .pure
  unfold putObjectUnder
  split
  · exact Vault.mutateIf_frame (Vault.putObject_frame hK)
  · exact .bind (Vault.putObject_frame hK) fun _ ↦ .pure

theorem putBlock_frame : Moves (Frame K) (putBlock E C account c k req) :=
  .bind admitBlock_readOnly.moves fun _ ↦ .bind newIdentity_frame fun _ ↦
    .bind (.update fun A ↦ ⟨refl_of (Vault.Frame K) A.vault, rfl⟩) fun _ ↦ .pure

theorem loadCommittedBlocks_frame {session : String} :
    Moves (Frame K) (loadCommittedBlocks session) :=
  fun A ↦ ⟨refl_of (Vault.Frame K) A.vault, rfl⟩

theorem recordCommitted_frame {session : String} {put : PutBlockList} :
    Frame K A (recordCommitted session put A) := by
  unfold recordCommitted retainItems
  dsimp only
  split
  · exact ⟨refl_of (Vault.Frame K) A.vault, rfl⟩
  · exact ⟨refl_of (Vault.Frame K) A.vault, rfl⟩

theorem putBlockList_frame (hK : K c k) :
    Moves (Frame K) (putBlockList E C now account c k req) := by
  refine .bind admitBlockList_readOnly.moves fun _ ↦ .bind loadCommittedBlocks_frame fun _ ↦
    .bind resolveBlockList_readOnly.moves fun put ↦ .bind newIdentity_frame fun etag ↦
      .bind ?_ fun _ ↦ .bind .refuseIf fun _ ↦
        .bind (.update fun A ↦ recordCommitted_frame) fun _ ↦ .pure
  exact .bind ReadOnly.find.moves fun _ ↦
    onVault_frame (Vault.mutateIf_frame (Vault.putObject_frame hK))

theorem deleteSnapshots_frame : ∀ keys : List Text, (∀ key ∈ keys, K c key) →
    Moves (Frame K) (deleteSnapshots E now c keys)
  | [], _ => .pure
  | key :: keys, hK => .bind (onVault_frame (Vault.deleteObject_frame (hK key List.mem_cons_self)))
      fun _ ↦ deleteSnapshots_frame keys fun key hkey ↦ hK key (List.mem_cons_of_mem _ hkey)

/-! ### Operations on a blob -/

/-- The operations that write under the key of the blob. A block is staged beside the objects. -/
def BlobOperation.writes : BlobOperation → Bool
  | .readBlob | .getBlockList | .putBlock | .unsupportedVerb | .unsupportedSubresource => false
  | _ => true

/-- **The keys that an operation on a blob may write under**: its own; that of the snapshot which is
made or deleted; and those of all its snapshots, where the request says to delete them. -/
inductive Touches (C : Codec) (now : Time) (c : String) (k : Text) (req : Request) :
    String → Text → Prop
  | blob (hwrites : (blobOperation req).writes = true) : Touches C now c k req c k
  | newSnapshot (hoperation : blobOperation req = .snapshot) :
      Touches C now c k req c (snapshotStorageKey C k (C.timestamp now))
  | snapshot {snapshot : String} (hoperation : blobOperation req = .deleteBlob)
      (hversion : req.queryParam "versionid" = none)
      (hsnapshot : req.queryParam "snapshot" = some snapshot) :
      Touches C now c k req c (snapshotStorageKey C k snapshot)
  | snapshots {key : Text} (hoperation : blobOperation req = .deleteBlob)
      (hversion : req.queryParam "versionid" = none) (hsnapshot : req.queryParam "snapshot" = none)
      (hmode : (req.header "x-ms-delete-snapshots").isSome)
      (hkey : snapshotKeysOf C k <+: key) : Touches C now c k req c key

/-- Only the container of the blob is written to. -/
theorem Touches.container {c' : String} {key : Text} (h : Touches C now c k req c' key) :
    c' = c := by
  cases h <;> rfl

/-- Snapshots are found by what their keys begin with. -/
theorem prefix_of_mem_snapshotKeys {key : Text} (h : key ∈ snapshotKeys C c k A) :
    snapshotKeysOf C k <+: key := by
  obtain ⟨o, -, ho⟩ := List.mem_filterMap.1 h
  split at ho
  · next hstart =>
    cases ho
    exact List.isPrefixOf_iff_prefix.1 hstart
  · cases ho

/-- A blob is deleted with its snapshots only if the request says so. -/
theorem admitDeletion_snapshots {deletion : DeleteBlob} {A' : Adapter}
    (h : admitDeletion C now c k req A = (.ok deletion, A')) :
    ∀ key ∈ deletion.snapshots, snapshotKeysOf C k <+: key ∧
      (req.header "x-ms-delete-snapshots").isSome := by
  obtain ⟨blob, -, h⟩ := find_bind_ok.1 h
  obtain ⟨_, -, h⟩ := ofExcept_bind_ok.1 h
  rw [view_bind] at h
  obtain ⟨hmode, h⟩ := refuseIf_bind_ok.1 h
  obtain ⟨-, h⟩ := refuseIf_bind_ok.1 h
  obtain ⟨-, h⟩ := refuseIf_bind_ok.1 h
  obtain ⟨condition, -, h⟩ := ofExcept_bind_ok.1 h
  obtain ⟨rfl, -⟩ := pure_ok.1 h
  refine fun key hkey ↦ ⟨prefix_of_mem_snapshotKeys hkey, ?_⟩
  by_contra hnone
  refine hmode ⟨?_, by simpa using hnone⟩
  cases hsnapshots : snapshotKeys C c k A with
  | nil =>
    rw [hsnapshots] at hkey
    cases hkey
  | cons _ _ => rfl

theorem deleteBlob_frame (hoperation : blobOperation req = .deleteBlob) :
    Moves (Frame (Touches C now c k req)) (deleteBlob E C now account c k req) := by
  have hblob : Touches C now c k req c k := .blob (by rw [hoperation]; rfl)
  unfold deleteBlob
  split
  · next id _ _ =>
    exact .bind admitVersionDeletion_readOnly.moves fun _ ↦
      .bind (onVault_frame (Vault.deleteObjectVersion_frame hblob)) fun _ ↦ .pure
  · next snapshot hversion hsnapshot =>
    exact .bind admitSnapshotDeletion_readOnly.moves fun _ ↦
      .bind (deleteUnder_frame (.snapshot hoperation hversion hsnapshot)) fun _ ↦
        .pure
  · next hversion hsnapshot =>
    refine fun A ↦ admitDeletion_readOnly.bind_moves fun deletion h ↦ ?_
    have hsnapshots : ∀ key ∈ deletion.snapshots, Touches C now c k req c key := fun key hkey ↦
      have ⟨hstart, hmode⟩ := admitDeletion_snapshots h key hkey
      .snapshots hoperation hversion hsnapshot hmode hstart
    split
    · exact Moves.bind (deleteSnapshots_frame _ hsnapshots) (fun _ ↦ .pure) A
    · refine Moves.bind ?_ (fun _ ↦ .bind (deleteSnapshots_frame _ hsnapshots) fun _ ↦
        .bind clearBlockUploadState_frame fun _ ↦ .pure) A
      unfold deleteCurrentBlob
      split
      · exact deleteUnder_frame hblob
      · exact onVault_frame (Vault.deleteObject_frame hblob)

/-- **An operation on a blob leaves everything else alone.** -/
theorem dispatchBlob_frame :
    Moves (Frame (Touches C now c k req)) (dispatchBlob E C now reads account c k req) := by
  have hblob {operation : BlobOperation} (h : blobOperation req = operation)
      (hwrites : operation.writes = true) : Touches C now c k req c k := .blob (h ▸ hwrites)
  unfold dispatchBlob
  cases hop : blobOperation req with
  | putBlob => exact putBlob_frame (hblob hop rfl)
  | readBlob => exact answer_readOnly.moves
  | deleteBlob => exact .bind .refuseIf fun _ ↦ deleteBlob_frame hop
  | lease => exact handleLease_frame (hblob hop rfl)
  | snapshot =>
    exact .bind admitSnapshot_readOnly.moves fun _ ↦ .bind newIdentity_frame fun _ ↦
      .bind (onVault_frame (Vault.putObject_frame (.newSnapshot hop))) fun _ ↦ .pure
  | putPolicy =>
    exact .bind admitPolicy_readOnly.moves fun _ ↦
      .bind (replaceBlobMetadata_frame (hblob hop rfl)) fun _ ↦ .pure
  | deletePolicy =>
    exact .bind admitPolicyDeletion_readOnly.moves fun _ ↦
      .bind (replaceBlobMetadata_frame (hblob hop rfl)) fun _ ↦ .pure
  | legalHold =>
    exact .bind admitLegalHold_readOnly.moves fun _ ↦
      .bind (replaceBlobMetadata_frame (hblob hop rfl)) fun _ ↦ .pure
  | putBlock => exact putBlock_frame
  | putBlockList => exact putBlockList_frame (hblob hop rfl)
  | updateMetadata =>
    exact .bind mutableBlob_readOnly.moves fun _ ↦ .bind newIdentity_frame fun _ ↦
      .bind (putIfEtag_frame (hblob hop rfl)) fun _ ↦ .pure
  | getBlockList =>
    exact .bind ReadOnly.ofExcept.moves fun _ ↦ .bind loadCommittedBlocks_frame fun _ ↦
      .bind .view fun _ ↦ .bind admitListing_readOnly.moves fun _ ↦
        .pure
  | appendBlock =>
    exact .bind admitAppend_readOnly.moves fun _ ↦ .bind newIdentity_frame fun _ ↦
      .bind (putIfEtag_frame (hblob hop rfl)) fun _ ↦ .pure
  | putPage =>
    exact .bind admitPage_readOnly.moves fun _ ↦ .bind newIdentity_frame fun _ ↦
      .bind (putIfEtag_frame (hblob hop rfl)) fun _ ↦ .pure
  | unsupportedVerb => exact fail_readOnly.moves
  | unsupportedSubresource => exact fail_readOnly.moves

end Operations

/-! ### Deletions of other containers -/

/-- **A container is as it was**, and so is its pending deletion. -/
structure Away (c : String) (A A' : Adapter) : Prop where
  bucket : A'.vault.buckets[c]? = A.vault.buckets[c]?
  deletion : A'.deletions[c]? = A.deletions[c]?

section Containers

variable {E : Env} {C : Codec} {now : Time} {req : Request} {c c' : String} {A : Adapter}

instance : IsPreorder Adapter (Away c) where
  refl _ := ⟨rfl, rfl⟩
  trans _ _ _ h h' := ⟨h'.bucket.trans h.bucket, h'.deletion.trans h.deletion⟩

theorem Away.record {A' : Adapter} (h : Away c A A') (key : Text) :
    A'.vault.record c key = A.vault.record c key := by
  rw [Vault.record, Vault.record, h.bucket]

theorem purgeContainer_away (hne : c ≠ c') :
    Moves (fun V V' ↦ V'.buckets[c]? = V.buckets[c]?) (purgeContainer E now c') := by
  have hset (V : Vault) (B : Option Bucket) : (V.buckets.set c' B)[c]? = V.buckets[c]? := by
    rw [Table.getElem?_set, if_neg hne]
  have : IsPreorder Vault fun V V' ↦ V'.buckets[c]? = V.buckets[c]? :=
    { refl := fun _ ↦ rfl, trans := fun _ _ _ h h' ↦ h'.trans h }
  have hobject (key : Text) : Moves (fun V V' ↦ V'.buckets[c]? = V.buckets[c]?)
      (Vault.deleteObject E now c' key) := by
    intro V
    unfold Vault.deleteObject
    split
    · split
      · rfl
      · exact hset V _
    · exact hset V _
  have hobjects : ∀ keys, Moves (fun V V' ↦ V'.buckets[c]? = V.buckets[c]?)
      (deleteObjects E now c' keys) := by
    intro keys
    induction keys with
    | nil => exact .pure
    | cons key keys ih => exact .bind (hobject key) fun _ ↦ ih
  have hversions : ∀ versions, Moves (fun V V' ↦ V'.buckets[c]? = V.buckets[c]?)
      (deleteVersions c' versions) := by
    intro versions
    induction versions with
    | nil => exact .pure
    | cons version versions ih =>
      rw [deleteVersions]
      cases version.versionId with
      | none => exact ih
      | some id =>
        exact .bind (.bind ReadOnly.find.moves fun _ ↦ .bind ReadOnly.ofExcept.moves fun _ ↦
          .update fun V ↦ hset V _) fun _ ↦ ih
  exact .bind (.bind ReadOnly.find.moves fun _ ↦ .update fun V ↦ hset V _) fun _ ↦
    .bind .view fun _ ↦ .bind (hobjects _) fun _ ↦ .bind .view fun _ ↦
      .bind (hversions _) fun _ ↦ .bind ReadOnly.find.moves fun _ ↦ .bind .refuseIf
        fun _ ↦ .update fun V ↦ hset V _

theorem finishExpiredDeletion_away (hne : c ≠ c') :
    Moves (Away c) (finishExpiredDeletion E C now c') := by
  have hforget (A : Adapter) : Away c A (forgetDeletion c' A) :=
    ⟨rfl, by rw [forgetDeletion, Table.getElem?_set, if_neg hne]⟩
  have hpurge : Moves (Away c) (purge E now c') := by
    intro A
    have hvault : (purgeContainer E now c' A.vault).2.buckets[c]? = A.vault.buckets[c]? :=
      purgeContainer_away hne A.vault
    unfold purge
    split
    all_goals
      next h =>
        rw [h] at hvault
        exact ⟨hvault, rfl⟩
  refine .bind .view fun purgeAfter ↦ ?_
  split
  · exact .pure
  · split
    · exact .pure
    · refine .bind .view fun immutable ↦ ?_
      split
      · exact .bind (.update hforget) fun _ ↦ .pure
      · exact .bind hpurge fun _ ↦ .bind (.update hforget) fun _ ↦ .pure

/-- A request for another container does not finish the deletion of this one. -/
theorem resolveDeletion_away (hne : c ≠ c') : Moves (Away c) (resolveDeletion E C now c' req) :=
  .bind (finishExpiredDeletion_away hne) fun _ ↦ ReadOnly.moves (.bind .view fun _ ↦ .refuseIf)

/-- **A request gets past the pending deletion** of its container only if there is none any more. -/
theorem resolveDeletion_ok {A' : Adapter} {u : Unit}
    (h : resolveDeletion E C now c req A = (.ok u, A')) : A'.deletions[c]? = none := by
  obtain ⟨finished, A₁, hfinish, hpending⟩ := bind_ok.1 h
  rw [view_bind] at hpending
  obtain ⟨hnot, rfl⟩ := refuseIf_ok.1 hpending
  cases finished with
  | false =>
    have hcontains : A₁.deletions.contains c = false :=
      Bool.eq_false_of_not_eq_true fun hc ↦ hnot (by rw [hc]; rfl)
    rwa [Std.ExtTreeMap.contains_eq_isSome_getElem?, Option.isSome_eq_false_iff,
      Option.isNone_iff_eq_none] at hcontains
  | true =>
    rw [finishExpiredDeletion, view_bind] at hfinish
    cases hdeletion : A.deletions[c]? with
    | none =>
      rw [hdeletion] at hfinish
      cases (pure_ok.1 hfinish).1
    | some purgeAfter =>
      rw [hdeletion] at hfinish
      dsimp only at hfinish
      split at hfinish
      · cases (pure_ok.1 hfinish).1
      · rw [view_bind] at hfinish
        split at hfinish
        · obtain ⟨_, _, -, hreturn⟩ := bind_ok.1 hfinish
          cases (pure_ok.1 hreturn).1
        · obtain ⟨_, A₂, -, hforget⟩ := bind_ok.1 hfinish
          obtain ⟨-, rfl⟩ := Prod.mk.inj hforget
          rw [forgetDeletion, Table.getElem?_set, if_pos rfl]

end Containers

end Azure

end Sqrzl
