import SqrzlEmulator.Azure.Admission
import SqrzlEmulator.Azure.KnownBlocks

/-!
# What requests keep

An adapter that has only seen requests is **sound**: its store is regular, and a block that is kept
for a blob has an item of its own, whose file is as long as the block says (`Adapter.Sound`).

A `Protection` is a property of the provider metadata of a blob that the guards of the handlers see,
and that only `put_legal_hold` can take away. **A request that starts from a sound adapter leaves a
sound one, and every version that is protected where it was** (`handleRequest_keeps`), unless it

* clears the hold that protects the version,
* deletes it as a snapshot of another blob, or
* writes a snapshot over it.

The property that nothing has is a protection too, for which there are no such requests; what is
said about soundness alone is this case.
-/

namespace Sqrzl.Azure

open Prog Atomic

/-! ### Sound adapters -/

/-- **A sound adapter.** -/
structure Adapter.Sound (E : Env) (A : Adapter) : Prop where
  regular : A.vault.Regular E
  /-- The item of a block has a name that has been drawn. -/
  named : ∀ session block, A.HasBlock session block →
    ∃ m, m < A.vault.drawn ∧ block.item = "uncommitted-" ++ E.uuid m
  /-- The file of a block is as long as the block. -/
  sized : ∀ session block data, A.HasBlock session block →
    A.item session block.item = some data → data.length = block.size

theorem Adapter.Sound.empty {E : Env} : Adapter.Sound E {} where
  regular := Vault.Regular.empty
  named session block h := by
    rcases h with ⟨found, hfound, -⟩ | ⟨blocks, hblocks, -⟩
    · simp at hfound
    · simp at hblocks
  sized session block data h := by
    rcases h with ⟨found, hfound, -⟩ | ⟨blocks, hblocks, -⟩
    · simp at hfound
    · simp at hblocks

/-! ### Protected versions -/

/-- A version of a blob, or a snapshot: where it is, its identity and its bytes. -/
structure Item where
  container : String
  key : Text
  id : Option String
  data : Bytes

namespace Item

/-- The version is there, and has the property `P`. -/
def Held (P : Table String String → Prop) (ι : Item) (A : Adapter) : Prop :=
  A.vault.Holds P ι.container ι.key ι.id ι.data

/-- The version is the current one of its key, and has the property `P`. -/
def IsCurrent (P : Table String String → Prop) (ι : Item) (A : Adapter) : Prop :=
  ∃ o, (A.vault.record ι.container ι.key).current = some (ι.data, o) ∧ o.versionId = ι.id ∧
    P o.providerMetadata

end Item

/-- The entries of the provider metadata that protect a blob. -/
def protectionKeys : List String :=
  ["azure_legal_hold", "azure_immutability_mode", "azure_immutability_until"]

/-- **A property of the provider metadata that the guards see**, and that no request but one that
puts a legal hold takes away. -/
structure Protection (C : Codec) (now : Time) (P : Table String String → Prop) : Prop where
  marker : ¬ P KeyRecord.markerMetadata
  immutable : ∀ blob : Object, P blob.providerMetadata → isImmutable C now blob = true
  set : ∀ metadata name value, name ∉ protectionKeys → P metadata → P (metadata.set name value)
  putPolicy : ∀ metadata text mode until_, C.parseRfc2822 text = some until_ → now < until_ →
    (metadata["azure_immutability_mode"]? = some "Locked" → mode = "Locked") → P metadata →
      P ((metadata.set "azure_immutability_until" (some text)).set "azure_immutability_mode" (some mode))
  deletePolicy : ∀ metadata, metadata["azure_immutability_mode"]? ≠ some "Locked" → P metadata →
    P ((metadata.set "azure_immutability_until" none).set "azure_immutability_mode" none)
  putHold : ∀ metadata, P metadata → P (metadata.set "azure_legal_hold" (some "true"))

/-- Nothing is protected. -/
theorem Protection.never {C : Codec} {now : Time} : Protection C now fun _ ↦ False where
  marker := id
  immutable _ h := h.elim
  set _ _ _ _ h := h.elim
  putPolicy _ _ _ _ _ _ _ h := h.elim
  deletePolicy _ _ h := h.elim
  putHold _ h := h.elim

/-- The adapter stays sound, and the version stays where it is. -/
def Keeps (E : Env) (P : Table String String → Prop) (ι : Item) (A A' : Adapter) : Prop :=
  A.Sound E → A'.Sound E ∧ (ι.Held P A → ι.Held P A')

instance {E : Env} {P : Table String String → Prop} {ι : Item} : IsPreorder Adapter (Keeps E P ι) where
  refl _ h := ⟨h, id⟩
  trans _ _ _ h h' hsound := by
    obtain ⟨hsound₁, hheld₁⟩ := h hsound
    obtain ⟨hsound₂, hheld₂⟩ := h' hsound₁
    exact ⟨hsound₂, hheld₂ ∘ hheld₁⟩

/-- Soundness may be used on the way. -/
theorem keeps_of_sound {E : Env} {P : Table String String → Prop} {ι : Item} {A A' : Adapter}
    (h : A.Sound E → Keeps E P ι A A') : Keeps E P ι A A' :=
  fun hsound ↦ h hsound hsound

section Operations

variable {E : Env} {C : Codec} {now : Time} {G : Gate} {reads : Reads} {req : Request}
  {account c : String} {k : Text} {A A' : Adapter} {P : Table String String → Prop} {ι : Item}
  {blob : Object} {session : String}

/-! ### Operations of the store -/

/-- Blocks are sound in a state with the same blocks, or fewer. -/
theorem Adapter.Sound.of_blocks (h : A.Sound E) (hregular : A'.vault.Regular E)
    (hdrawn : A.vault.drawn ≤ A'.vault.drawn) (hblocks : BlocksFrom (fun _ _ ↦ False) A A')
    (hitems : ∀ session name data, A'.item session name = some data →
      A.item session name = some data) : A'.Sound E where
  regular := hregular
  named session block hblock := by
    obtain ⟨m, hm, hitem⟩ := h.named session block ((hblocks session block hblock).resolve_right id)
    exact ⟨m, hm.trans_le hdrawn, hitem⟩
  sized session block data hblock hitem :=
    h.sized session block data ((hblocks session block hblock).resolve_right id)
      (hitems session block.item data hitem)

theorem keeps_of_onlyVault (h : OnlyVault A A')
    (hV : Vault.Keeps E P ι.container ι.key ι.id ι.data A.vault A'.vault) :
    Keeps E P ι A A' := by
  intro hsound
  obtain ⟨hregular, hdrawn, hheld⟩ := hV hsound.regular
  refine ⟨hsound.of_blocks hregular hdrawn h.blocksFrom ?_, hheld⟩
  intro session name data hitem
  rw [h] at hitem
  exact hitem

theorem onVault_keeps {α : Type} {op : VaultOp α}
    (h : Vault.Keeps E P ι.container ι.key ι.id ι.data A.vault (op A.vault).2) :
    Keeps E P ι A (onVault op A).2 :=
  keeps_of_onlyVault (onVault_onlyVault A) h

theorem newIdentity_keeps : Moves (Keeps E P ι) (newIdentity E) :=
  fun A ↦ keeps_of_onlyVault (newIdentity_onlyVault A) (Vault.draw_keeps (Nat.le_succ _))

theorem proposedLeaseId_keeps : Moves (Keeps E P ι) (proposedLeaseId E req) := by
  unfold proposedLeaseId
  split
  · exact .pure
  · exact newIdentity_keeps

theorem replaceBlobMetadata_keeps {data : Bytes} {updated : Object}
    (hcurrent : (A.vault.record c k).current = some (data, blob))
    (hkept : ι.container = c → ι.key = k → blob.versionId = ι.id → data = ι.data →
      P blob.providerMetadata → P updated.providerMetadata) :
    Keeps E P ι A (replaceBlobMetadata c k blob updated A).2 :=
  bind_moves (onVault_keeps (Vault.replaceObjectMetadata_keeps hcurrent hkept))
    fun _ _ _ ↦ ReadOnly.refuseIf.moves _

/-- The current version is not one that is to be kept. -/
theorem not_isCurrent {data : Bytes} {o : Object}
    (hcurrent : (A.vault.record c k).current = some (data, o)) (ho : ¬ P o.providerMetadata)
    (hc : ι.container = c) (hk : ι.key = k) : ¬ ι.IsCurrent P A := by
  rintro ⟨o', ho', -, hP⟩
  rw [hc, hk, hcurrent] at ho'
  cases ho'
  exact ho hP

/-! ### Edits of blobs -/

/-- A blob with other provider metadata. -/
def withProviderMetadata (metadata : Table String String) (blob : Object) : Object :=
  { blob with providerMetadata := metadata }

/-- Edits touch nothing but the provider metadata. -/
theorem inheritLease_eq (existing : Option Object) (blob : Object) :
    ∃ metadata, inheritLease existing blob = withProviderMetadata metadata blob := by
  cases existing with
  | none => exact ⟨blob.providerMetadata, rfl⟩
  | some source =>
    rw [inheritLease, preserveActiveLease]
    split
    · refine List.foldlRecOn (motive := fun blob' ↦ ∃ metadata, blob' =
        withProviderMetadata metadata blob) leaseKeys _ ⟨blob.providerMetadata, rfl⟩ ?_
      rintro blob' ⟨metadata, rfl⟩ name -
      cases source.providerMetadata[name]? with
      | none => exact ⟨metadata, rfl⟩
      | some value => exact ⟨_, rfl⟩
    · exact ⟨blob.providerMetadata, rfl⟩

theorem setContentProperties_eq (req : Request) (blob : Object) :
    ∃ metadata, setContentProperties req blob = withProviderMetadata metadata blob := by
  refine List.foldlRecOn (motive := fun blob' ↦ ∃ metadata, blob' =
    withProviderMetadata metadata blob) contentProperties _ ⟨blob.providerMetadata, rfl⟩ ?_
  rintro blob' ⟨metadata, rfl⟩ ⟨header, name⟩ -
  dsimp only
  split
  · exact ⟨_, rfl⟩
  · exact ⟨metadata, rfl⟩

theorem blobForType_eq (now : Time) (k : Text) (req : Request) (etag : String) (put : PutBlob) :
    ∃ metadata, blobForType now k req etag put = withProviderMetadata metadata
      (Object.newWithMetadataAndEtag now k
        (if put.type = "PageBlob" then List.replicate put.pageLength 0 else req.body) (contentType req)
        (metadataFromHeaders req) etag) := by
  obtain ⟨metadata, hlease⟩ := inheritLease_eq put.existing (setContentProperties req
    (edit "azure_blob_type" (some put.type) (Object.newWithMetadataAndEtag now k
      (if put.type = "PageBlob" then List.replicate put.pageLength 0 else req.body) (contentType req)
      (metadataFromHeaders req) etag)))
  obtain ⟨metadata', hcontent⟩ := setContentProperties_eq req
    (edit "azure_blob_type" (some put.type) (Object.newWithMetadataAndEtag now k
      (if put.type = "PageBlob" then List.replicate put.pageLength 0 else req.body) (contentType req)
      (metadataFromHeaders req) etag))
  exact ⟨metadata, by rw [blobForType, hlease, hcontent]; rfl⟩

theorem composedBlob_eq (now : Time) (k : Text) (req : Request) (etag : String) (put : PutBlockList) :
    ∃ metadata, composedBlob now k req etag put = withProviderMetadata metadata
      { Object.newWithMetadataAndEtag now k [] (contentType req) (metadataFromHeaders req) etag with
        size := put.size } := by
  obtain ⟨metadata, hlease⟩ := inheritLease_eq put.existing (setContentProperties req
    (edit "azure_blob_type" (some "BlockBlob") { Object.newWithMetadataAndEtag now k []
      (contentType req) (metadataFromHeaders req) etag with size := put.size }))
  obtain ⟨metadata', hcontent⟩ := setContentProperties_eq req
    (edit "azure_blob_type" (some "BlockBlob") { Object.newWithMetadataAndEtag now k []
      (contentType req) (metadataFromHeaders req) etag with size := put.size })
  exact ⟨metadata, by rw [composedBlob, hlease, hcontent]; rfl⟩

/-! ### Blocks -/

/-- The files of a session that are replaced. -/
theorem item_setItems {files : Table String Bytes} {session' name : String} :
    (A.setItems session files).item session' name =
      if session' = session then files[name]? else A.item session' name := by
  rw [Adapter.item, Adapter.setItems, Table.getElem?_set]
  by_cases hsession : session' = session
  · rw [if_pos hsession, if_pos hsession]
    by_cases hempty : files.isEmpty = true
    · rw [if_pos hempty, Std.ExtTreeMap.isEmpty_iff.1 hempty, Std.ExtTreeMap.getElem?_empty]
      rfl
    · rw [if_neg hempty]
      rfl
  · rw [if_neg hsession, if_neg hsession, Adapter.item]

/-- Only the files that are named are retained. -/
theorem item_retainItems {names : List String} {session' name : String} :
    (retainItems session names A).item session' name =
      if session' = session ∧ names.contains name = false then none else A.item session' name := by
  unfold retainItems
  cases hfiles : A.items[session]? with
  | none =>
    dsimp only
    split
    · next h => rw [Adapter.item, h.1, hfiles]; rfl
    · rfl
  | some files =>
    dsimp only
    rw [item_setItems, Std.ExtTreeMap.getElem?_filter']
    by_cases hsession : session' = session
    · subst hsession
      rw [if_pos rfl, Adapter.item, hfiles, Option.bind_some]
      cases hname : names.contains name with
      | false =>
        rw [if_pos ⟨rfl, rfl⟩, Option.filter_eq_none_iff]
        exact fun _ _ h ↦ Bool.false_ne_true (hname ▸ h)
      | true =>
        rw [if_neg fun h ↦ Bool.false_ne_true h.2.symm]
        cases files[name]? with
        | none => rfl
        | some data => exact Option.filter_some_pos rfl
    · rw [if_neg hsession, if_neg fun h ↦ hsession h.1]

theorem clearBlockUploadState_keeps : Moves (Keeps E P ι) (clearBlockUploadState session) := by
  intro A hsound
  refine ⟨hsound.of_blocks hsound.regular le_rfl (clearBlockUploadState_blocks A) ?_, id⟩
  intro session' name data hitem
  rw [Adapter.item] at hitem ⊢
  replace hitem : ((A.items.set session none)[session']?.bind fun files ↦ files[name]?) = some data :=
    hitem
  rw [Table.getElem?_set] at hitem
  split at hitem
  · cases hitem
  · exact hitem

theorem loadCommittedBlocks_keeps : Moves (Keeps E P ι) (loadCommittedBlocks session) :=
  fun A hsound ↦ ⟨hsound.of_blocks hsound.regular le_rfl (loadCommittedBlocks_blocks A)
    fun _ _ _ hitem ↦ hitem, id⟩

theorem recordCommitted_keeps {put : PutBlockList} (hput : put.Kept session A) :
    Keeps E P ι A (recordCommitted session put A) := by
  have hvault : (recordCommitted session put A).vault = A.vault := by
    unfold recordCommitted
    dsimp only
    unfold retainItems
    split
    · rfl
    · rfl
  intro hsound
  refine ⟨hsound.of_blocks (hvault ▸ hsound.regular) (hvault ▸ le_rfl)
    (recordCommitted_blocks hput.1 hput.2) ?_, fun hheld ↦ ?_⟩
  · intro session' name data hitem
    rw [recordCommitted, item_retainItems] at hitem
    split at hitem
    · cases hitem
    · exact hitem
  · rw [Item.Held, hvault]
    exact hheld

/-- The files of a session in which a block is staged. -/
theorem item_stageBlock {id item session' name : String} {data : Bytes} {found : BlockSession} :
    (stageBlock session id item found data A).item session' name =
      if session' = session ∧ name = item then some data else A.item session' name := by
  show (A.setItems session _).item session' name = _
  rw [item_setItems, Table.getElem?_set]
  by_cases hsession : session' = session
  · subst hsession
    rw [if_pos rfl]
    by_cases hname : name = item
    · rw [if_pos hname, if_pos ⟨rfl, hname⟩]
    · rw [if_neg hname, if_neg fun h ↦ hname h.2, Adapter.item]
      cases A.items[session']? with
      | none => simp
      | some files => rfl
  · rw [if_neg hsession, if_neg fun h ↦ hsession h.1]

/-- A block that is staged has an item of its own, and its file is as long as it says. -/
theorem stageBlock_sound {id : String} {data : Bytes} {found : BlockSession} (hsound : A.Sound E)
    (hfound : ∀ id staged, found.blocks[id]? = some staged →
      A.HasBlock session ⟨id, staged.item, staged.size⟩) :
    (stageBlock session id ("uncommitted-" ++ E.uuid A.vault.drawn) found data
      { A with vault := A.vault.draw (A.vault.drawn + 1) }).Sound E where
  regular := hsound.regular.draw (Nat.le_succ _)
  named session' block h := by
    rcases stageBlock_hasBlock (A := { A with vault := A.vault.draw (A.vault.drawn + 1) }) hfound h
      with hblock | ⟨rfl, rfl⟩
    · obtain ⟨m, hm, hitem⟩ := hsound.named session' block hblock
      exact ⟨m, hm.trans (Nat.lt_succ_self _), hitem⟩
    · exact ⟨A.vault.drawn, Nat.lt_succ_self _, rfl⟩
  sized session' block data' h hitem := by
    rw [item_stageBlock] at hitem
    rcases stageBlock_hasBlock (A := { A with vault := A.vault.draw (A.vault.drawn + 1) }) hfound h
      with hblock | ⟨rfl, rfl⟩
    · obtain ⟨m, hm, hname⟩ := hsound.named session' block hblock
      -- The new item has a new name.
      have hne : block.item ≠ "uncommitted-" ++ E.uuid A.vault.drawn := by
        rw [hname]
        intro heq
        exact hm.ne (E.uuid_injective (by simpa using heq))
      rw [if_neg fun h ↦ hne h.2] at hitem
      exact hsound.sized session' block data' hblock hitem
    · rw [if_pos ⟨rfl, rfl⟩] at hitem
      cases hitem
      rfl

theorem putBlock_keeps : Moves (Keeps E P ι) (putBlock E C account c k req) := by
  refine fun A ↦ keeps_of_sound fun hsound ↦ admitBlock_readOnly.bind_moves fun ⟨id, found⟩ hadmitted ↦ ?_
  obtain ⟨-, hfound⟩ := admitBlock_ok hadmitted
  intro _
  exact ⟨stageBlock_sound hsound fun id staged hstaged ↦ hasBlock_of_found hfound hstaged, fun h ↦ h⟩

theorem getBlockList_keeps : Moves (Keeps E P ι) (getBlockList account c k req) :=
  .bind ReadOnly.ofExcept.moves fun _ ↦ .bind loadCommittedBlocks_keeps fun _ ↦
    .bind .view fun _ ↦ .bind admitListing_readOnly.moves fun _ ↦ .pure

/-- The bytes of a list of blocks are as many as the blocks say. -/
theorem length_blockBytes {blocks : List CommittedBlock} {data : Bytes} (hsound : A.Sound E)
    (hblocks : ∀ block ∈ blocks, A.HasBlock session block) (h : blockBytes session A blocks = some data) :
    data.length = (blocks.map (·.size)).sum := by
  induction blocks generalizing data with
  | nil =>
    cases h
    rfl
  | cons block blocks ih =>
    rw [blockBytes] at h
    obtain ⟨first, hfirst, hothers⟩ := Option.bind_eq_some_iff.1 h
    obtain ⟨rest, hrest, hdata⟩ := Option.bind_eq_some_iff.1 hothers
    cases hdata
    have hlength := hsound.sized session block first (hblocks block List.mem_cons_self) hfirst
    rw [List.length_append, hlength,
      ih (fun block' hmem ↦ hblocks block' (List.mem_cons_of_mem block hmem)) hrest, List.map_cons,
      List.sum_cons]

section Protected

variable (hP : Protection C now P)

include hP

/-- A write over a version that need not be kept, or that is kept by versioning. -/
theorem putObject_keeps {data : Bytes} {o : Object} (ho : KeyRecord.Fits k (data, o))
    (hkept : ι.container = c → ι.key = k →
      A.vault.buckets[c]?.bind (·.versioning) = some .enabled ∨ ¬ ι.IsCurrent P A) :
    Vault.Keeps E P ι.container ι.key ι.id ι.data A.vault
      (Vault.putObject E c k o data A.vault).2 := by
  refine Vault.putObject_keeps hP.marker ho fun _ hc hk ↦ ?_
  rw [hc]
  refine (hkept hc hk).imp_right fun hnot o' hcurrent hid hprotected ↦ hnot ⟨o', ?_, hid, hprotected⟩
  rw [hc, hcurrent]

/-- A delete of a version that need not be kept. -/
theorem deleteObject_keeps (hkept : ι.container = c → ι.key = k → ¬ ι.IsCurrent P A) :
    Vault.Keeps E P ι.container ι.key ι.id ι.data A.vault (Vault.deleteObject E now c k A.vault).2 := by
  refine Vault.deleteObject_keeps hP.marker fun _ hc hk ↦ Or.inr ?_
  exact fun o hcurrent hid hprotected ↦ hkept hc hk ⟨o, hcurrent, hid, hprotected⟩

/-- A blob that may be changed is not protected. -/
theorem not_protected_of_allowed {u : Unit} (h : ensureMutationAllowed C now req blob = .ok u) :
    ¬ P blob.providerMetadata := by
  intro hprotected
  have himmutable := (ensureMutationAllowed_ok h).1
  rw [hP.immutable blob hprotected] at himmutable
  cases himmutable

/-! ### Leases, policies and holds -/

theorem setLeaseState_protected {lease duration : Option String} {state status : String}
    (h : P blob.providerMetadata) :
    P (setLeaseState lease state status duration blob).providerMetadata := by
  refine hP.set _ _ _ (by decide) (hP.set _ _ _ (by decide) (hP.set _ _ _ (by decide) ?_))
  exact hP.set _ _ _ (by decide) h

theorem handleLease_keeps : Moves (Keeps E P ι) (handleLease E c k req) := by
  unfold handleLease
  dsimp only
  split
  · refine fun A ↦ admitAcquire_readOnly.bind_moves fun blob h ↦ ?_
    obtain ⟨⟨data, hcurrent⟩, -⟩ := admitAcquire_ok h
    refine bind_moves (proposedLeaseId_keeps A) fun id A₁ h₁ ↦ ?_
    have hcurrent₁ : (A₁.vault.record c k).current = some (data, blob) := by
      rw [proposedLeaseId_record h₁, hcurrent]
    exact bind_moves (replaceBlobMetadata_keeps hcurrent₁ fun _ _ _ _ h ↦
      setLeaseState_protected hP h) fun _ _ _ ↦ Moves.pure _
  split
  · refine fun A ↦ admitLeaseHolder_readOnly.bind_moves fun blob h ↦ ?_
    obtain ⟨⟨data, hcurrent⟩, -⟩ := admitLeaseHolder_ok h
    exact bind_moves (replaceBlobMetadata_keeps hcurrent fun _ _ _ _ h ↦ h)
      fun _ _ _ ↦ Moves.pure _
  split
  · refine fun A ↦ admitLeaseHolder_readOnly.bind_moves fun blob h ↦ ?_
    obtain ⟨⟨data, hcurrent⟩, -⟩ := admitLeaseHolder_ok h
    exact bind_moves (replaceBlobMetadata_keeps hcurrent fun _ _ _ _ h ↦
      setLeaseState_protected hP h) fun _ _ _ ↦ Moves.pure _
  split
  · refine fun A ↦ admitBreak_readOnly.bind_moves fun blob h ↦ ?_
    obtain ⟨⟨data, hcurrent⟩, -⟩ := admitBreak_ok h
    exact bind_moves (replaceBlobMetadata_keeps hcurrent fun _ _ _ _ h ↦
      setLeaseState_protected hP h) fun _ _ _ ↦ Moves.pure _
  · exact .bind conditionalBlob_readOnly.moves fun _ ↦ fail_readOnly.moves

theorem putImmutabilityPolicy_keeps : Moves (Keeps E P ι) (putImmutabilityPolicy C now c k req) := by
  refine fun A ↦ admitPolicy_readOnly.bind_moves fun ⟨blob, text, mode⟩ h ↦ ?_
  obtain ⟨⟨data, hcurrent⟩, ⟨until_, htext, hfuture⟩, hmode⟩ := admitPolicy_ok h
  exact bind_moves (replaceBlobMetadata_keeps hcurrent fun _ _ _ _ h ↦
    hP.putPolicy _ text mode until_ htext hfuture hmode h) fun _ _ _ ↦ Moves.pure _

theorem deleteImmutabilityPolicy_keeps :
    Moves (Keeps E P ι) (deleteImmutabilityPolicy c k req) := by
  refine fun A ↦ admitPolicyDeletion_readOnly.bind_moves fun blob h ↦ ?_
  obtain ⟨⟨data, hcurrent⟩, hmode⟩ := admitPolicyDeletion_ok h
  exact bind_moves (replaceBlobMetadata_keeps hcurrent fun _ _ _ _ h ↦ hP.deletePolicy _ hmode h)
    fun _ _ _ ↦ Moves.pure _

/-- A legal hold that is put protects; one that is cleared must not be that of the version. -/
theorem putLegalHold_keeps (hclear : req.header "x-ms-legal-hold" = some "false" →
      ι.container = c → ι.key = k → ι.IsCurrent P A →
        ∀ o, (A.vault.record c k).current = some (ι.data, o) → P o.providerMetadata →
          P (o.providerMetadata.set "azure_legal_hold" (some "false"))) :
    Keeps E P ι A (putLegalHold c k req A).2 := by
  refine admitLegalHold_readOnly.bind_moves fun ⟨blob, hold⟩ h ↦ ?_
  obtain ⟨⟨data, hcurrent⟩, hheader, hvalue⟩ := admitLegalHold_ok h
  refine bind_moves (replaceBlobMetadata_keeps hcurrent fun hc hk hid hdata hprotected ↦ ?_)
    fun _ _ _ ↦ Moves.pure _
  rcases hvalue with rfl | rfl
  · exact hP.putHold _ hprotected
  · subst hdata
    refine hclear hheader hc hk ⟨blob, ?_, hid, hprotected⟩ blob hcurrent hprotected
    rw [hc, hk, hcurrent]

/-! ### Mutations and snapshots -/

/-- A mutation that the guards have let through replaces a version that is not protected. -/
theorem putIfEtag_keeps {etag : String} {o : Object} {data : Bytes}
    (hcurrent : (A.vault.record c k).current = some (data, o)) (ho : ¬ P o.providerMetadata)
    (hblob : KeyRecord.Fits k (blob.data, blob)) : Keeps E P ι A (putIfEtag E c k etag blob A).2 := by
  refine bind_moves (onVault_keeps (Vault.mutateIf_keeps ?_)) fun _ _ _ ↦ ReadOnly.refuseIf.moves _
  exact putObject_keeps hP hblob fun hc hk ↦ Or.inr (not_isCurrent hcurrent ho hc hk)

omit hP in
/-- The bytes that a handler reads of the current blob are all of them. -/
theorem boundedMutation_eq {extra : ℕ} {data : Bytes} {o : Object} (hsound : A.Sound E)
    (hcurrent : (A.vault.record c k).current = some (data, o))
    (h : boundedMutation extra (data, o) = .ok blob) :
    KeyRecord.Fits k (data, o) ∧ blob = { o with data := data } := by
  obtain ⟨B, hB⟩ := Vault.bucket_of_current hcurrent
  obtain ⟨hfits, -⟩ := (hsound.regular.record hB).current data o hcurrent
  exact ⟨hfits, boundedMutation_ok hfits.2 h⟩

/-- **The blob that a mutation starts from** is the current one, with its bytes, and is not
protected. -/
theorem mutableBlob_eq {extra : ℕ} (hsound : A.Sound E)
    (h : mutableBlob C now c k extra req A = (.ok blob, A')) :
    ∃ data o, (A.vault.record c k).current = some (data, o) ∧ ¬ P o.providerMetadata ∧
      KeyRecord.Fits k (data, o) ∧ blob = { o with data := data } := by
  obtain ⟨⟨data, o, hcurrent, hbounded⟩, hallowed⟩ := mutableBlob_ok h
  obtain ⟨hfits, rfl⟩ := boundedMutation_eq hsound hcurrent hbounded
  exact ⟨data, o, hcurrent, not_protected_of_allowed hP hallowed, hfits, rfl⟩

theorem updateMetadata_keeps : Moves (Keeps E P ι) (updateMetadata E C now c k req) := by
  refine fun A ↦ keeps_of_sound fun hsound ↦ mutableBlob_readOnly.bind_moves fun blob h ↦ ?_
  obtain ⟨data, o, hcurrent, ho, hfits, rfl⟩ := mutableBlob_eq hP hsound h
  refine bind_moves (newIdentity_keeps A) fun etag A₁ h₁ ↦ ?_
  cases h₁
  exact bind_moves (putIfEtag_keeps hP hcurrent ho hfits) fun _ _ _ ↦ Moves.pure _

theorem appendBlock_keeps : Moves (Keeps E P ι) (appendBlock E C now c k req) := by
  refine fun A ↦ keeps_of_sound fun hsound ↦ admitAppend_readOnly.bind_moves fun blob h ↦ ?_
  obtain ⟨A₀, h⟩ := admitAppend_ok h
  obtain ⟨data, o, hcurrent, ho, hfits, rfl⟩ := mutableBlob_eq hP hsound h
  refine bind_moves (newIdentity_keeps A) fun etag A₁ h₁ ↦ ?_
  cases h₁
  exact bind_moves (putIfEtag_keeps hP hcurrent ho ⟨hfits.1, rfl⟩) fun _ _ _ ↦ Moves.pure _

omit hP in
/-- Pages are replaced by as many bytes. -/
theorem length_overwritePages {data pages : Bytes} {start : ℕ}
    (h : start + pages.length ≤ data.length) : (overwritePages data pages start).length = data.length := by
  rw [overwritePages, List.length_append, List.length_append, List.length_take, List.length_drop]
  omega

omit hP in
/-- A page that has been admitted is replaced by as many bytes. -/
theorem length_page {data : Bytes} {clear : Bool} {start last : ℕ} (hle : start ≤ last)
    (hbody : clear = false → req.body.length = last - start + 1) (hlast : last < data.length) :
    (overwritePages data (if clear then List.replicate (last - start + 1) 0 else req.body)
      start).length = data.length := by
  have hpages : (if clear then List.replicate (last - start + 1) 0 else req.body).length =
      last - start + 1 := by
    cases clear with
    | true => exact List.length_replicate
    | false => exact hbody rfl
  refine length_overwritePages ?_
  rw [hpages]
  omega

theorem putPage_keeps : Moves (Keeps E P ι) (putPage E C now c k req) := by
  refine fun A ↦ keeps_of_sound fun hsound ↦
    admitPage_readOnly.bind_moves fun ⟨blob, clear, start, last⟩ h ↦ ?_
  obtain ⟨⟨A₀, h⟩, hle, hbody, hlast⟩ := admitPage_ok h
  obtain ⟨data, o, hcurrent, ho, hfits, rfl⟩ := mutableBlob_eq hP hsound h
  refine bind_moves (newIdentity_keeps A) fun etag A₁ h₁ ↦ ?_
  cases h₁
  exact bind_moves (putIfEtag_keeps hP hcurrent ho
    ⟨hfits.1, hfits.2.trans (length_page hle hbody hlast).symm⟩) fun _ _ _ ↦ Moves.pure _

/-- A snapshot is written under a key of its own, which must not be that of the version. -/
theorem createSnapshot_keeps
    (hover : ι.container = c → ι.key = snapshotStorageKey C k (C.timestamp now) → ¬ ι.IsCurrent P A) :
    Keeps E P ι A (createSnapshot E C now c k req A).2 := by
  refine keeps_of_sound fun hsound ↦ admitSnapshot_readOnly.bind_moves fun blob h ↦ ?_
  obtain ⟨⟨data, o, hcurrent, hbounded⟩, -⟩ := admitSnapshot_ok h
  obtain ⟨hfits, rfl⟩ := boundedMutation_eq hsound hcurrent hbounded
  refine bind_moves (newIdentity_keeps A) fun etag A₁ h₁ ↦ ?_
  cases h₁
  refine bind_moves (onVault_keeps ?_) fun _ _ _ ↦ Moves.pure _
  refine putObject_keeps hP ⟨?_, ?_⟩ fun hc hk ↦ Or.inr fun hnot ↦ hover hc hk hnot
  · unfold snapshotOf
    dsimp only
    split
    · rfl
    · rfl
  · unfold snapshotOf
    dsimp only
    split
    · exact hfits.2
    · exact hfits.2

/-! ### Whole blobs -/

/-- A version that is overwritten is not protected, or is kept. -/
theorem kept_of_admitOverwrite {existing : Option Object}
    (h : admitOverwrite C now c k req A = (.ok existing, A')) (hc : ι.container = c) (hk : ι.key = k) :
    A.vault.buckets[c]?.bind (·.versioning) = some .enabled ∨ ¬ ι.IsCurrent P A := by
  obtain ⟨hexisting, hallowed⟩ := admitOverwrite_ok h
  by_cases hcurrent : ι.IsCurrent P A
  · obtain ⟨o, ho, -, hprotected⟩ := hcurrent
    rw [hc, hk] at ho
    have hsome : existing = some o := by
      rw [hexisting, KeyRecord.metadata, ho]
      rfl
    obtain ⟨B, hB, hguard⟩ := hallowed o hsome
    rcases (ensureVersionCreatingOverwriteAllowed_ok hguard).1 with hversioning | himmutable
    · refine Or.inl ?_
      rw [hB]
      exact versioning_of_azureVersioningEnabled hversioning
    · rw [hP.immutable o hprotected] at himmutable
      cases himmutable
  · exact Or.inr hcurrent

omit hP in
theorem putObjectUnder_keeps {condition : Option ObjectCondition} {V : Vault}
    (h : Vault.Keeps E P ι.container ι.key ι.id ι.data V (Vault.putObject E c k blob blob.data V).2) :
    Vault.Keeps E P ι.container ι.key ι.id ι.data V (putObjectUnder E c k blob condition V).2 := by
  cases condition with
  | none => exact bind_moves h fun _ _ _ ↦ Moves.pure _
  | some condition => exact Vault.mutateIf_keeps h

theorem putBlob_keeps : Moves (Keeps E P ι) (putBlob E C now account c k req) := by
  refine fun A ↦ admitPutBlob_readOnly.bind_moves fun put h ↦ ?_
  obtain ⟨A₀, hoverwrite⟩ := admitPutBlob_ok h
  refine bind_moves (newIdentity_keeps A) fun etag A₁ h₁ ↦ ?_
  cases h₁
  refine bind_moves (onVault_keeps (putObjectUnder_keeps ?_)) fun _ _ _ ↦
    ReadOnly.refuseIf.bind_moves fun _ _ ↦
      bind_moves (clearBlockUploadState_keeps _) fun _ _ _ ↦ Moves.pure _
  have hkept := kept_of_admitOverwrite (ι := ι) hP hoverwrite
  refine putObject_keeps hP ?_ fun hc hk ↦ hkept hc hk
  obtain ⟨metadata, heq⟩ := blobForType_eq now k req (E.uuid A.vault.drawn) put
  rw [heq]
  exact ⟨rfl, rfl⟩

/-- **A list that is committed** replaces a version that is not protected, or that is kept. -/
theorem composeUploadPayloads_keeps {put : PutBlockList} {etag : String} (hsound : A.Sound E)
    (hput : put.Kept session A)
    (hkept : ι.container = c → ι.key = k →
      A.vault.buckets[c]?.bind (·.versioning) = some .enabled ∨ ¬ ι.IsCurrent P A) :
    Keeps E P ι A
      (composeUploadPayloads E session c k put (composedBlob now k req etag put) A).2 := by
  refine ReadOnly.find.bind_moves fun data hdata ↦ onVault_keeps (Vault.mutateIf_keeps ?_)
  refine putObject_keeps hP ?_ hkept
  obtain ⟨metadata, heq⟩ := composedBlob_eq now k req etag put
  rw [heq]
  refine ⟨rfl, ?_⟩
  refine (length_blockBytes hsound (fun block hmem ↦ ?_) (find_ok.1 hdata).1).symm
  obtain ⟨resolved, hresolved, rfl⟩ := List.mem_map.1 hmem
  exact hput.2 resolved hresolved

theorem putBlockList_keeps : Moves (Keeps E P ι) (putBlockList E C now account c k req) := by
  refine fun A ↦ admitBlockList_readOnly.bind_moves fun ⟨references, requested, existing⟩ h ↦ ?_
  obtain ⟨A₀, hoverwrite⟩ := admitBlockList_ok h
  have hkept := kept_of_admitOverwrite (ι := ι) hP hoverwrite
  refine bind_moves (loadCommittedBlocks_keeps A) fun committed A₁ h₁ ↦ ?_
  cases h₁
  refine resolveBlockList_readOnly.bind_moves fun put hput ↦ ?_
  have hput₁ := kept_of_resolveBlockList hput
  refine bind_moves (newIdentity_keeps _) fun etag A₂ h₂ ↦ ?_
  have hput₂ := hput₁.onlyVault (h₂ ▸ newIdentity_onlyVault (E := E) _)
  cases h₂
  refine bind_moves (keeps_of_sound fun hsound ↦ composeUploadPayloads_keeps hP hsound hput₂
    fun hc hk ↦ hkept hc hk) fun written A₃ h₃ ↦ ?_
  have hput₃ := hput₂.onlyVault (h₃ ▸ composeUploadPayloads_onlyVault _)
  refine ReadOnly.refuseIf.bind_moves fun _ _ ↦ ?_
  exact bind_moves (recordCommitted_keeps hput₃) fun _ _ _ ↦ Moves.pure _

/-! ### Deletions -/

theorem deleteUnder_keeps {condition : ObjectCondition}
    (hkept : ι.container = c → ι.key = k → ¬ ι.IsCurrent P A) :
    Keeps E P ι A (deleteUnder E now c k condition A).2 :=
  bind_moves (onVault_keeps (Vault.mutateIf_keeps (deleteObject_keeps hP hkept)))
    fun _ _ _ ↦ ReadOnly.refuseIf.moves _

theorem deleteCurrentBlob_keeps {condition : Option ObjectCondition}
    (hkept : ι.container = c → ι.key = k → ¬ ι.IsCurrent P A) :
    Keeps E P ι A (deleteCurrentBlob E now c k condition A).2 := by
  cases condition with
  | none => exact onVault_keeps (deleteObject_keeps hP hkept)
  | some condition => exact deleteUnder_keeps hP hkept

omit hP in
/-- A delete makes nothing current. -/
theorem deleteObject_notCurrent :
    Moves (fun A A' ↦ ¬ ι.IsCurrent P A → ¬ ι.IsCurrent P A')
      (onVault (Vault.deleteObject E now c k)) := by
  rintro A hnot ⟨o, ho, hid, hprotected⟩
  exact hnot ⟨o, Vault.current_of_deleteObject ho, hid, hprotected⟩

omit hP in
theorem deleteCurrentBlob_notCurrent {condition : Option ObjectCondition} :
    Moves (fun A A' ↦ ¬ ι.IsCurrent P A → ¬ ι.IsCurrent P A')
      (deleteCurrentBlob E now c k condition) := by
  cases condition with
  | none => exact deleteObject_notCurrent
  | some condition =>
    refine .bind (fun A ↦ ?_) fun _ ↦ .refuseIf
    rcases Vault.mutateIf_cases (V := A.vault) (b := c) condition (Vault.deleteObject E now c k) with
      heq | heq
    · rw [onVault, Vault.deleteObjectIf, heq]
      exact deleteObject_notCurrent A
    · rw [onVault, Vault.deleteObjectIf, heq]
      exact id

/-- Snapshots are deleted without a look at them. -/
theorem deleteSnapshots_keeps (keys : List Text)
    (hkept : ι.container = c → ι.key ∈ keys → ¬ ι.IsCurrent P A) :
    Keeps E P ι A (deleteSnapshots E now c keys A).2 := by
  induction keys generalizing A with
  | nil => exact Moves.pure A
  | cons key keys ih =>
    refine bind_moves (onVault_keeps (deleteObject_keeps hP fun hc hk ↦ hkept hc ?_))
      fun _ A₁ h₁ ↦ ih fun hc hmem hcurrent ↦ ?_
    · rw [hk]
      exact List.mem_cons_self
    · have hnot : ¬ ι.IsCurrent P (onVault (Vault.deleteObject E now c key) A).2 :=
        deleteObject_notCurrent A (hkept hc (List.mem_cons_of_mem key hmem))
      rw [h₁] at hnot
      exact hnot hcurrent

theorem deleteBlobVersion_keeps {id : String} :
    Moves (Keeps E P ι) (deleteBlobVersion C now c k id req) := by
  refine fun A ↦ admitVersionDeletion_readOnly.bind_moves fun version h ↦ ?_
  obtain ⟨⟨data, hstored⟩, hallowed⟩ := admitVersionDeletion_ok h
  refine bind_moves (onVault_keeps (Vault.deleteObjectVersion_keeps fun hregular hheld hc hk hid ↦ ?_))
    fun _ _ _ ↦ Moves.pure _
  -- The version that is deleted is the one that the guard has seen.
  rw [Vault.Holds, hc, hk, hid] at hheld
  cases hB : A.vault.buckets[c]? with
  | none =>
    rw [Vault.stored, hB] at hstored
    cases hstored
  | some B =>
    rw [Vault.stored, hB] at hstored
    rw [Vault.record_eq hB] at hheld
    have hfound : (B.record k).version id = .ok (data, version) := hstored
    exact not_protected_of_allowed hP hallowed ((hregular c B hB k).version_of_holds hheld hfound).2

theorem deleteBlobSnapshot_keeps {snapshot : String} :
    Moves (Keeps E P ι) (deleteBlobSnapshot E C now c k snapshot req) := by
  refine fun A ↦ admitSnapshotDeletion_readOnly.bind_moves fun selected h ↦ ?_
  obtain ⟨⟨data, hcurrent⟩, hallowed⟩ := admitSnapshotDeletion_ok h
  exact bind_moves (deleteUnder_keeps hP fun hc hk ↦
    not_isCurrent hcurrent (not_protected_of_allowed hP hallowed) hc hk) fun _ _ _ ↦
      Moves.pure _

/-- A blob that is deleted is not protected; its snapshots must not be the version. -/
theorem deleteWholeBlob_keeps
    (hsnapshots : (req.header "x-ms-delete-snapshots").isSome → ι.container = c →
      ι.key ∈ snapshotKeys C c k A → ¬ ι.IsCurrent P A) :
    Keeps E P ι A (deleteWholeBlob E C now account c k req A).2 := by
  refine admitDeletion_readOnly.bind_moves fun deletion h ↦ ?_
  obtain ⟨⟨data, blob, hcurrent, hallowed⟩, hkeys, hmode⟩ := admitDeletion_ok h
  have hblob := fun hc hk ↦
    not_isCurrent (ι := ι) hcurrent (not_protected_of_allowed hP hallowed) hc hk
  have hkept : ι.container = c → ι.key ∈ deletion.snapshots → ¬ ι.IsCurrent P A := by
    intro hc hmem
    refine hsnapshots (hmode fun hnil ↦ ?_) hc (hkeys ▸ hmem)
    rw [hnil] at hmem
    cases hmem
  split
  · exact bind_moves (deleteSnapshots_keeps hP _ hkept) fun _ _ _ ↦ Moves.pure _
  · refine bind_moves (deleteCurrentBlob_keeps hP hblob) fun _ A₁ h₁ ↦ ?_
    refine bind_moves (deleteSnapshots_keeps hP _ fun hc hmem hcurrent₁ ↦ ?_) fun _ _ _ ↦
      bind_moves (clearBlockUploadState_keeps _) fun _ _ _ ↦ Moves.pure _
    have hnot : ¬ ι.IsCurrent P (deleteCurrentBlob E now c k deletion.condition A).2 :=
      deleteCurrentBlob_notCurrent A (hkept hc hmem)
    rw [h₁] at hnot
    exact hnot hcurrent₁

/-! ### Containers -/

/-- **A container with a protected version is seen to have one.** -/
theorem containerHasImmutableBlob_of_held (hsound : A.Sound E) (hheld : ι.Held P A) :
    containerHasImmutableBlob C now ι.container A = true := by
  cases hB : A.vault.buckets[ι.container]? with
  | none =>
    rw [Item.Held, Vault.Holds, Vault.record, hB] at hheld
    rcases hheld with ⟨o, ho, -⟩ | ⟨i, o, -, ho, -⟩
    · cases ho
    · simp at ho
  | some B =>
    rw [Item.Held, Vault.Holds, Vault.record_eq hB] at hheld
    have hregular := hsound.regular ι.container B hB ι.key
    rw [containerHasImmutableBlob, hB, Option.any_some, Bool.or_eq_true]
    -- What is found under the key is an entry of the table.
    cases he : B.objects[ι.key]? with
    | none =>
      rw [Bucket.record, he] at hheld
      rcases hheld with ⟨o, ho, -⟩ | ⟨i, o, -, ho, -⟩
      · cases ho
      · simp at ho
    | some e =>
      have hrecord : B.record ι.key = e := by rw [Bucket.record, he, Option.getD_some]
      have hentry : (ι.key, e) ∈ B.objects.toList :=
        Std.ExtTreeMap.mem_toList_iff_getElem?_eq_some.2 he
      rw [hrecord] at hheld hregular
      rcases hheld with ⟨o, ho, -, hprotected⟩ | ⟨i, o, -, ho, hprotected⟩
      · refine Or.inl (List.any_eq_true.2 ⟨o, ?_, hP.immutable o hprotected⟩)
        refine List.mem_filterMap.2 ⟨(ι.key, e), hentry, ?_⟩
        rw [KeyRecord.metadata, ho]
        rfl
      · refine Or.inr (List.any_eq_true.2 ⟨o, ?_, hP.immutable o hprotected⟩)
        exact List.mem_flatMap.2 ⟨(ι.key, e), hentry, hregular.mem_list ho⟩

/-- A version that stays whatever becomes of a container. -/
theorem deleteObjects_keeps (hfree : ι.container = c → ∀ metadata, ¬ P metadata) :
    ∀ keys, Moves (Vault.Keeps E P ι.container ι.key ι.id ι.data) (deleteObjects E now c keys)
  | [] => .pure
  | key :: keys => by
    refine .bind (fun V ↦ Vault.deleteObject_keeps hP.marker fun hold hc _ ↦ ?_) fun _ ↦
      deleteObjects_keeps hfree keys
    exact absurd hc (Vault.ne_of_holds hfree hold)

omit hP in
theorem deleteVersions_keeps (hfree : ι.container = c → ∀ metadata, ¬ P metadata) :
    ∀ versions, Moves (Vault.Keeps E P ι.container ι.key ι.id ι.data) (deleteVersions c versions)
  | [] => .pure
  | version :: versions => by
    rw [deleteVersions]
    cases version.versionId with
    | none => exact deleteVersions_keeps hfree versions
    | some id =>
      refine .bind (fun V ↦ Vault.deleteObjectVersion_keeps fun _ hold hc ↦ ?_) fun _ ↦
        deleteVersions_keeps hfree versions
      exact absurd hc (Vault.ne_of_holds hfree hold)

theorem purge_keeps (hfree : ι.container = c → ∀ metadata, ¬ P metadata) :
    Moves (Keeps E P ι) (purge E now c) := by
  intro A
  have hpurge : Vault.Keeps E P ι.container ι.key ι.id ι.data A.vault
      (purgeContainer E now c A.vault).2 :=
    Moves.bind (Vault.suspend_keeps hfree) (fun _ ↦ .bind .view fun _ ↦
      .bind (deleteObjects_keeps hP hfree _) fun _ ↦ .bind .view fun _ ↦
        .bind (deleteVersions_keeps hfree _) fun _ ↦ Vault.deleteBucket_keeps hfree) A.vault
  refine keeps_of_onlyVault (purge_onlyVault A) ?_
  unfold purge
  split
  · next heq =>
    rw [heq] at hpurge
    exact hpurge
  · next heq =>
    rw [heq] at hpurge
    exact hpurge
  · next heq =>
    rw [heq] at hpurge
    exact hpurge

omit hP in
theorem forgetDeletion_keeps {A : Adapter} : Keeps E P ι A (forgetDeletion c A) :=
  fun hsound ↦ ⟨hsound.of_blocks hsound.regular le_rfl (fun _ _ h ↦ Or.inl h) fun _ _ _ h ↦ h, id⟩

/-- **A container with a protected version is not purged.** -/
theorem finishExpiredDeletion_keeps : Moves (Keeps E P ι) (finishExpiredDeletion E C now c) := by
  refine fun A ↦ ReadOnly.view.bind_moves fun found hfound ↦ ?_
  cases found with
  | none => exact Moves.pure A
  | some purgeAfter =>
    dsimp only
    split
    · exact Moves.pure A
    · refine ReadOnly.view.bind_moves fun immutable himmutable ↦ ?_
      obtain rfl : containerHasImmutableBlob C now c A = immutable :=
        Except.ok.inj (Prod.mk.inj himmutable).1
      split
      · exact bind_moves forgetDeletion_keeps fun _ _ _ ↦ Moves.pure _
      · next hnone =>
        refine bind_moves (fun hsound ↦ ?_) fun _ A₁ _ ↦ bind_moves forgetDeletion_keeps fun _ _ _ ↦
          Moves.pure _
        by_cases hc : ι.container = c
        · -- Nothing in the container is protected.
          refine ⟨(purge_keeps (ι := ι) (C := C) .never (fun _ _ h ↦ h) A hsound).1, fun hheld ↦ ?_⟩
          subst hc
          exact absurd (containerHasImmutableBlob_of_held hP hsound hheld) hnone
        · exact purge_keeps hP (fun h ↦ absurd h hc) A hsound

end Protected

/-- A store with a new container that is empty. -/
def WithEmpty (c : String) (V V' : Vault) : Prop :=
  ∃ B : Bucket, V' = { V with buckets := V.buckets.set c (some B) } ∧ ∀ key, B.record key = {}

theorem setVersioning_withEmpty {V : Vault} {v : VersioningState} :
    Moves (fun V₁ V₂ ↦ WithEmpty c V V₁ → WithEmpty c V V₂) (Vault.setVersioning now c v) := by
  rintro V₁ ⟨B, rfl, hB⟩
  have hfound : (V.buckets.set c (some B))[c]? = some B := by rw [Table.getElem?_set, if_pos rfl]
  rw [Vault.setVersioning_eq (V := { V with buckets := V.buckets.set c (some B) }) hfound]
  refine ⟨_, congrArg (Vault.mk · V.drawn) (Table.set_set ..), fun key ↦ ?_⟩
  rw [Bucket.record, Vault.record_map_assignNull, hB key]
  rfl

theorem updateBucketMetadata_withEmpty {V : Vault} {metadata : Table String String} :
    Moves (fun V₁ V₂ ↦ WithEmpty c V V₁ → WithEmpty c V V₂)
      (Vault.updateBucketMetadata now c metadata) := by
  rintro V₁ ⟨B, rfl, hB⟩
  have hfound : (V.buckets.set c (some B))[c]? = some B := by rw [Table.getElem?_set, if_pos rfl]
  rw [Vault.updateBucketMetadata,
    Vault.getBucket_bind_of_some (V := { V with buckets := V.buckets.set c (some B) }) hfound]
  exact ⟨_, congrArg (Vault.mk · V.drawn) (Table.set_set ..), hB⟩

/-- A container that is created is empty. -/
theorem createContainerIn_withEmpty (now : Time) (req : Request) (versioning : Bool)
    (days : Option ℕ) {V : Vault} (hnone : V.buckets.contains c = false) :
    WithEmpty c V (createContainerIn now c req versioning days V).2 := by
  have hcreate : Vault.createBucket now c V =
      (.ok (), { V with buckets := V.buckets.set c (some { createdAt := now, modifiedAt := now }) }) := by
    rw [Vault.createBucket, view_bind, refuseIf_bind_of_not (by rw [hnone]; exact Bool.false_ne_true)]
    rfl
  have hempty : WithEmpty c V
      { V with buckets := V.buckets.set c (some { createdAt := now, modifiedAt := now }) } := by
    refine ⟨_, rfl, fun key ↦ ?_⟩
    rw [Bucket.record, Std.ExtTreeMap.getElem?_empty]
    rfl
  rw [createContainerIn, bind_of_ok hcreate]
  split
  · exact Moves.bind setVersioning_withEmpty (fun _ ↦ updateBucketMetadata_withEmpty) _ hempty
  · exact updateBucketMetadata_withEmpty _ hempty

theorem admitContainer_ok {modes : Bool × Option ℕ} (h : admitContainer c req A = (.ok modes, A')) :
    A.vault.buckets.contains c = false := by
  obtain ⟨-, hmodes⟩ := refuseIf_bind_ok.1 h
  obtain ⟨_, -, htaken⟩ := ofExcept_bind_ok.1 hmodes
  rw [view_bind] at htaken
  obtain ⟨hfree, -⟩ := refuseIf_bind_ok.1 htaken
  exact Bool.eq_false_of_not_eq_true hfree

/-- **Nothing is lost by a new container.** -/
theorem createContainer_keeps : Moves (Keeps E P ι) (createContainer now c req) := by
  refine fun A ↦ admitContainer_readOnly.bind_moves fun ⟨versioning, days⟩ h ↦ ?_
  have hfree := admitContainer_ok h
  refine bind_moves (onVault_keeps fun hregular ↦ ?_) fun _ _ _ ↦ Moves.pure _
  obtain ⟨B, heq, hB⟩ := createContainerIn_withEmpty now req versioning days hfree
  rw [heq]
  refine ⟨hregular.set le_rfl fun B' hB' key ↦ ?_, le_rfl, fun hold ↦ hold.setBucket ?_⟩
  · cases hB'
    rw [hB key]
    exact KeyRecord.Regular.empty
  · rintro rfl
    rw [Vault.Holds, Vault.record] at hold
    rw [Std.ExtTreeMap.contains_eq_isSome_getElem?, Option.isSome_eq_false_iff,
      Option.isNone_iff_eq_none] at hfree
    rw [hfree] at hold
    rcases hold with ⟨o, ho, -⟩ | ⟨i, o, -, ho, -⟩
    · cases ho
    · simp at ho

theorem deleteContainer_keeps : Moves (Keeps E P ι) (deleteContainer C now c req) := by
  refine .bind admitContainerDeletion_readOnly.moves fun _ ↦ .bind (.update fun A hsound ↦ ?_)
    fun _ ↦ .pure
  exact ⟨hsound.of_blocks hsound.regular le_rfl (fun _ _ h ↦ Or.inl h) fun _ _ _ h ↦ h, id⟩

/-! ### Requests -/

/-- A request that clears the hold of a version, which is the current one, and leaves it
unprotected. -/
def ClearsHold (P : Table String String → Prop) (ι : Item) (req : Request) (A : Adapter) : Prop :=
  req.container = some ι.container ∧ req.blob = some ι.key ∧ blobOperation req = .legalHold ∧
    req.header "x-ms-legal-hold" = some "false" ∧
    ∃ o, (A.vault.record ι.container ι.key).current = some (ι.data, o) ∧ o.versionId = ι.id ∧
      P o.providerMetadata ∧ ¬ P (o.providerMetadata.set "azure_legal_hold" (some "false"))

/-- A request that deletes a protected snapshot together with the blob that it is of. -/
def DeletesSnapshot (C : Codec) (P : Table String String → Prop) (ι : Item) (req : Request)
    (A : Adapter) : Prop :=
  req.container = some ι.container ∧ blobOperation req = .deleteBlob ∧
    req.queryParam "versionid" = none ∧ req.queryParam "snapshot" = none ∧
    (req.header "x-ms-delete-snapshots").isSome ∧
    ∃ k, req.blob = some k ∧ ι.key ∈ snapshotKeys C ι.container k A ∧ ι.IsCurrent P A

/-- A request that makes a snapshot under the key of a protected one, which has been made at the
same time. -/
def OverwritesSnapshot (C : Codec) (now : Time) (P : Table String String → Prop) (ι : Item)
    (req : Request) (A : Adapter) : Prop :=
  req.container = some ι.container ∧ blobOperation req = .snapshot ∧
    ∃ k, req.blob = some k ∧ ι.key = snapshotStorageKey C k (C.timestamp now) ∧ ι.IsCurrent P A

/-- A request that takes a protected version away, or its protection. -/
def Spoils (C : Codec) (now : Time) (P : Table String String → Prop) (ι : Item) (req : Request)
    (A : Adapter) : Prop :=
  ClearsHold P ι req A ∨ DeletesSnapshot C P ι req A ∨ OverwritesSnapshot C now P ι req A

/-- **An operation on a blob** keeps what is protected. -/
theorem dispatchBlob_keeps (hP : Protection C now P) (hc : req.container = some c)
    (hk : req.blob = some k) (hspares : ¬ Spoils C now P ι req A) :
    Keeps E P ι A (dispatchBlob E C now reads req.account c k req A).2 := by
  unfold dispatchBlob
  cases hop : blobOperation req with
  | putBlob => exact putBlob_keeps hP A
  | readBlob => exact answer_readOnly.moves A
  | deleteBlob =>
    refine ReadOnly.refuseIf.bind_moves fun _ _ ↦ ?_
    unfold deleteBlob
    cases hversion : req.queryParam "versionid" with
    | some id => exact deleteBlobVersion_keeps hP A
    | none =>
      cases hsnapshot : req.queryParam "snapshot" with
      | some snapshot => exact deleteBlobSnapshot_keeps hP A
      | none =>
        refine deleteWholeBlob_keeps hP fun hmode hic hmem hcurrent ↦ hspares (Or.inr (Or.inl ?_))
        subst hic
        exact ⟨hc, hop, hversion, hsnapshot, hmode, k, hk, hmem, hcurrent⟩
  | lease => exact handleLease_keeps hP A
  | snapshot =>
    refine createSnapshot_keeps hP fun hic hik hcurrent ↦ hspares (Or.inr (Or.inr ?_))
    subst hic
    exact ⟨hc, hop, k, hk, hik, hcurrent⟩
  | putPolicy => exact putImmutabilityPolicy_keeps hP A
  | deletePolicy => exact deleteImmutabilityPolicy_keeps hP A
  | legalHold =>
    refine putLegalHold_keeps hP fun hheader hic hik hcurrent o ho hprotected ↦ ?_
    by_contra hcleared
    refine hspares (Or.inl ⟨hic ▸ hc, hik ▸ hk, hop, hheader, o, ?_, ?_, hprotected, hcleared⟩)
    · rw [hic, hik, ho]
    · obtain ⟨o', ho', hid, -⟩ := hcurrent
      rw [hic, hik, ho] at ho'
      cases ho'
      exact hid
  | putBlock => exact putBlock_keeps A
  | putBlockList => exact putBlockList_keeps hP A
  | updateMetadata => exact updateMetadata_keeps hP A
  | getBlockList => exact getBlockList_keeps A
  | appendBlock => exact appendBlock_keeps hP A
  | putPage => exact putPage_keeps hP A
  | unsupportedVerb => exact fail_readOnly.moves A
  | unsupportedSubresource => exact fail_readOnly.moves A

/-- Nothing is spoilt that is not protected. -/
theorem not_spoils_never : ¬ Spoils C now (fun _ ↦ False) ι req A := by
  rintro (⟨-, -, -, -, o, -, -, h, -⟩ | ⟨-, -, -, -, -, k, -, -, o, -, -, h⟩ | ⟨-, -, k, -, -, o, -, -, h⟩)
  · exact h
  · exact h
  · exact h

/-- **Requests leave sound adapters.** -/
theorem handleRequest_sound : Moves (fun A A' ↦ A.Sound E → A'.Sound E)
    (handleRequest E C now G reads req) := by
  have hkeeps : Moves (Keeps E (fun _ ↦ False) (⟨"", [], none, []⟩ : Item))
      (handleRequest E C now G reads req) :=
    handleRequest_moves (fun _ ↦ finishExpiredDeletion_keeps .never) (fun _ _ ↦ createContainer_keeps)
      (fun _ _ ↦ deleteContainer_keeps) fun c k hc hk _ ↦ dispatchBlob_keeps .never hc hk not_spoils_never
  exact fun A hsound ↦ (hkeeps A hsound).1

/-- Where a version is protected, a request does not find its container purged. -/
theorem resolveDeletion_vault (hP : Protection C now P) (hsound : A.Sound E) (hheld : ι.Held P A)
    {u : Unit} (h : resolveDeletion E C now ι.container req A = (.ok u, A')) : A'.vault = A.vault := by
  obtain ⟨finished, A₁, hfinish, hrest⟩ := bind_ok.1 h
  rw [view_bind] at hrest
  obtain ⟨-, rfl⟩ := refuseIf_ok.1 hrest
  have himmutable := containerHasImmutableBlob_of_held hP hsound hheld
  rw [finishExpiredDeletion, view_bind] at hfinish
  cases hdeletion : A.deletions[ι.container]? with
  | none =>
    rw [hdeletion] at hfinish
    obtain ⟨-, rfl⟩ := pure_ok.1 hfinish
    rfl
  | some purgeAfter =>
    rw [hdeletion] at hfinish
    dsimp only at hfinish
    by_cases hdue : purgeAfter > now
    · rw [if_pos hdue] at hfinish
      obtain ⟨-, rfl⟩ := pure_ok.1 hfinish
      rfl
    · rw [if_neg hdue, view_bind, himmutable, if_pos rfl, update_bind] at hfinish
      obtain ⟨-, rfl⟩ := pure_ok.1 hfinish
      rfl

/-- **A request keeps what is protected**, unless it is one that takes it away. -/
theorem handleRequest_keeps (hP : Protection C now P) (hsound : A.Sound E) (hheld : ι.Held P A)
    (hspares : ¬ Spoils C now P ι req A) : ι.Held P (handleRequest E C now G reads req A).2 := by
  have hkeeps : Keeps E P ι A (handleRequest E C now G reads req A).2 := by
    refine handleRequest_moves_from (fun _ ↦ finishExpiredDeletion_keeps hP)
      (fun _ _ ↦ createContainer_keeps) (fun _ _ ↦ deleteContainer_keeps)
      fun c k A₁ B hc hk hresolve _ ↦ dispatchBlob_keeps hP hc hk ?_
    -- The state in which the operation starts has the same store, if it is about this container.
    by_cases hic : c = ι.container
    · subst hic
      have hvault := resolveDeletion_vault hP hsound hheld hresolve
      intro hspoils
      refine hspares ?_
      simpa only [Spoils, ClearsHold, DeletesSnapshot, OverwritesSnapshot, Item.IsCurrent, snapshotKeys,
        hvault] using hspoils
    · have hne : req.container ≠ some ι.container := by
        rw [hc]
        exact fun h ↦ hic (Option.some.inj h)
      rintro (⟨h, -⟩ | ⟨h, -⟩ | ⟨h, -⟩)
      · exact hne h
      · exact hne h
      · exact hne h
  exact (hkeeps hsound).2 hheld

/-! ### Runs -/

/-- What is cached is forgotten, and nothing else. -/
theorem restart_keeps : Keeps E P ι A A.restart := by
  refine fun hsound ↦ ⟨hsound.of_blocks hsound.regular le_rfl ?_ fun _ _ _ h ↦ h, id⟩
  rintro session block (⟨found, hfound | hfound, hblock⟩ | ⟨blocks, hblocks | hblocks, hblock⟩)
  · simp [Adapter.restart] at hfound
  · exact Or.inl (Or.inl ⟨found, Or.inr hfound, hblock⟩)
  · simp [Adapter.restart] at hblocks
  · exact Or.inl (Or.inr ⟨blocks, Or.inr hblocks, hblock⟩)

theorem apply_sound {step : Step} (hsound : A.Sound E) : (step.apply E C G reads A).Sound E := by
  cases step with
  | request now req => exact handleRequest_sound A hsound
  | restart =>
    exact (restart_keeps (P := fun _ ↦ False) (ι := ⟨"", [], none, []⟩) hsound).1

/-- **Every adapter that a run leads to is sound.** -/
theorem run_sound {steps : List Step} (hsound : A.Sound E) : (A.run E C G reads steps).Sound E := by
  induction steps generalizing A with
  | nil => exact hsound
  | cons step steps ih => exact ih (apply_sound hsound)

theorem run_append {steps steps' : List Step} :
    A.run E C G reads (steps ++ steps') = (A.run E C G reads steps).run E C G reads steps' :=
  List.foldl_append

theorem run_concat {steps : List Step} :
    A.run E C G reads (steps ++ [.request now req]) =
      (handleRequest E C now G reads req (A.run E C G reads steps)).2 :=
  run_append

/-- A step at a given time. -/
def Step.At (now : Time) : Step → Prop
  | .request time _ => time = now
  | .restart => True

/-- **A protected version stays in a run** at a fixed time whose requests do not take it away. -/
theorem run_keeps (hP : Protection C now P) {steps : List Step} (hsound : A.Sound E)
    (hheld : ι.Held P A) (htime : ∀ step ∈ steps, step.At now)
    (hspares : ∀ before after req, steps = before ++ .request now req :: after →
      ¬ Spoils C now P ι req (A.run E C G reads before)) :
    ι.Held P (A.run E C G reads steps) := by
  induction steps generalizing A with
  | nil => exact hheld
  | cons step steps ih =>
    have hheld₁ : ι.Held P (step.apply E C G reads A) := by
      cases step with
      | restart => exact (restart_keeps hsound).2 hheld
      | request time req =>
        obtain rfl : time = now := htime _ List.mem_cons_self
        exact handleRequest_keeps hP hsound hheld (hspares [] steps req rfl)
    refine ih (apply_sound hsound) hheld₁ (fun step' hmem ↦ htime step' (List.mem_cons_of_mem step hmem)) ?_
    rintro before after req rfl
    exact hspares (step :: before) after req rfl

end Operations

end Sqrzl.Azure
