import SqrzlEmulator.Azure.Outcomes

/-!
# Block lists describe blobs

`put_block_list` makes a blob of blocks and records the list, and `get_block_list` shows it later as
the blocks of the blob. The list and the blob are in different places, and each is changed by
requests that do not look at the other.

**In every run of requests about one blob, the committed list is empty or its blocks are the bytes
of the current blob** (`Faithful`), with one exception. `delete_blob` of the current version makes
an older one current and leaves the list as it is, so that the list is that of a version that is
gone (`promoted_version_keeps_list`). `StrandsBlocks` is what such a request does.

A list that is committed stores the bytes that its references stand for, and a list that is refused
changes nothing (`block_lists_describe_blobs`).
-/

namespace Sqrzl.Azure

open Prog Atomic

/-! ### The type of a blob -/

section BlobType

variable {req : Request} {blob : Object}

theorem blobType_edit {name : String} {value : Option String} (h : name ≠ "azure_blob_type") :
    blobType (edit name value blob) = blobType blob := by
  rw [blobType, edit, Table.getElem?_set, if_neg fun heq ↦ h heq.symm]
  rfl

theorem blobType_inheritLease (existing : Option Object) :
    blobType (inheritLease existing blob) = blobType blob := by
  cases existing with
  | none => rfl
  | some source =>
    rw [inheritLease, preserveActiveLease]
    split
    · refine List.foldlRecOn (motive := fun blob' ↦ blobType blob' = blobType blob) leaseKeys _ rfl ?_
      intro blob' hblob' name hname
      cases source.providerMetadata[name]? with
      | none => exact hblob'
      | some value =>
        refine (blobType_edit ?_).trans hblob'
        rintro rfl
        exact absurd hname (by decide)
    · rfl

theorem blobType_setContentProperties : blobType (setContentProperties req blob) = blobType blob := by
  refine List.foldlRecOn (motive := fun blob' ↦ blobType blob' = blobType blob) contentProperties _ rfl ?_
  rintro blob' hblob' ⟨header, name⟩ hname
  dsimp only
  split
  · refine (blobType_edit ?_).trans hblob'
    rintro rfl
    revert hname
    simp [contentProperties]
  · exact hblob'

theorem blobType_composedBlob {now : Time} {k : Text} {etag : String} {put : PutBlockList} :
    blobType (composedBlob now k req etag put) = "BlockBlob" := by
  rw [composedBlob, blobType_inheritLease, blobType_setContentProperties, blobType, edit,
    Table.getElem?_set, if_pos rfl]
  rfl

end BlobType

/-! ### The invariant -/

/-- **The committed list describes the blob.** The caches agree with what is stored, and there is
nothing but the blob in its container. -/
structure Faithful (account c : String) (k : Text) (A : Adapter) : Prop where
  pending : A.deletions[c]? = none
  alone : ∀ key, key ≠ k → (A.vault.record c key).current = none
  session : A.blockSession (blobStateKey account c k) = A.sessions[blobStateKey account c k]?
  committed : A.committedBlocks (blobStateKey account c k) =
    A.committed[blobStateKey account c k]?.getD []
  bytes : A.committedBlocks (blobStateKey account c k) ≠ [] →
    ∃ data o, (A.vault.record c k).current = some (data, o) ∧ blobType o = "BlockBlob" ∧
      blockBytes (blobStateKey account c k) A (A.committedBlocks (blobStateKey account c k)) = some data

section Invariant

variable {E : Env} {C : Codec} {now : Time} {G : Gate} {reads : Reads} {req : Request}
  {account c : String} {k : Text} {A A' : Adapter}

theorem Faithful.empty : Faithful account c k {} where
  pending := Std.ExtTreeMap.getElem?_empty
  alone key _ := by
    rw [Vault.record, Std.ExtTreeMap.getElem?_empty]
    rfl
  session := by
    rw [Adapter.blockSession, Std.ExtTreeMap.getElem?_empty]
    rfl
  committed := by
    rw [Adapter.committedBlocks, Std.ExtTreeMap.getElem?_empty]
    rfl
  bytes h := by
    refine absurd ?_ h
    rw [Adapter.committedBlocks, Std.ExtTreeMap.getElem?_empty]
    rfl

/-- **After a restart** what has been cached is read again. -/
theorem Faithful.restart (h : Faithful account c k A) : Faithful account c k A.restart := by
  have hsession : A.restart.blockSession (blobStateKey account c k) =
      A.sessions[blobStateKey account c k]? := by
    rw [Adapter.blockSession, Adapter.restart, Std.ExtTreeMap.getElem?_empty]
    rfl
  have hcommitted : A.restart.committedBlocks (blobStateKey account c k) =
      A.committed[blobStateKey account c k]?.getD [] := by
    rw [Adapter.committedBlocks, Adapter.restart, Std.ExtTreeMap.getElem?_empty]
    rfl
  refine ⟨h.pending, h.alone, hsession, hcommitted, fun hne ↦ ?_⟩
  rw [hcommitted, ← h.committed] at hne ⊢
  obtain ⟨data, o, hcurrent, htype, hbytes⟩ := h.bytes hne
  exact ⟨data, o, hcurrent, htype, (blockBytes_of_items A A.restart rfl).trans hbytes⟩

theorem Faithful.untouched (h : Faithful account c k A) (hA : Untouched A A') :
    Faithful account c k A' where
  pending := hA.deletions ▸ h.pending
  alone key hkey := hA.record ▸ h.alone key hkey
  session := by
    rw [hA.blockSession, hA.sessions]
    exact h.session
  committed := by
    rw [hA.committedBlocks, hA.committed]
    exact h.committed
  bytes hne := by
    rw [hA.committedBlocks] at hne ⊢
    rw [hA.record, blockBytes_of_items A A' hA.items]
    exact h.bytes hne

/-- A change of the store that keeps the bytes of a block blob. -/
theorem Faithful.vault (h : Faithful account c k A) {V : Vault}
    (halone : ∀ key, key ≠ k → (V.record c key).current = none)
    (hkept : A.committedBlocks (blobStateKey account c k) ≠ [] →
      ∀ data o, (A.vault.record c k).current = some (data, o) → blobType o = "BlockBlob" →
        ∃ o', (V.record c k).current = some (data, o') ∧ blobType o' = "BlockBlob") :
    Faithful account c k { A with vault := V } where
  pending := h.pending
  alone := halone
  session := h.session
  committed := h.committed
  bytes hne := by
    obtain ⟨data, o, hcurrent, htype, hbytes⟩ := h.bytes hne
    obtain ⟨o', hcurrent', htype'⟩ := hkept hne data o hcurrent htype
    exact ⟨data, o', hcurrent', htype', (blockBytes_of_items A { A with vault := V } rfl).trans hbytes⟩

/-- **Where the blocks are forgotten** there is nothing to be described. -/
theorem Faithful.cleared (h : Faithful account c k A) {V : Vault}
    (halone : ∀ key, key ≠ k → (V.record c key).current = none) :
    Faithful account c k
      (clearBlockUploadState (blobStateKey account c k) { A with vault := V }).2 := by
  have hcommitted : (clearBlockUploadState (blobStateKey account c k)
      { A with vault := V }).2.committedBlocks (blobStateKey account c k) = [] := by
    show (((A.committedCache.set (blobStateKey account c k) none)[blobStateKey account c k]?) <|>
      ((A.committed.set (blobStateKey account c k) none)[blobStateKey account c k]?)).getD [] = []
    rw [Table.getElem?_set, if_pos rfl, Table.getElem?_set, if_pos rfl]
    rfl
  refine ⟨h.pending, halone, ?_, ?_, fun hne ↦ absurd hcommitted hne⟩
  · show (((A.sessionCache.set (blobStateKey account c k) none)[blobStateKey account c k]?) <|> _) = _
    rw [Table.getElem?_set, if_pos rfl]
    rfl
  · rw [hcommitted]
    show [] = ((A.committed.set (blobStateKey account c k) none)[blobStateKey account c k]?).getD []
    rw [Table.getElem?_set, if_pos rfl]
    rfl

/-! ### Operations -/

theorem alone_of_putObject {o : Object} {data : Bytes} {V V' : Vault} {u : Unit}
    (h : Vault.putObject E c k o data V = (.ok u, V'))
    (halone : ∀ key, key ≠ k → (V.record c key).current = none) :
    ∀ key, key ≠ k → (V'.record c key).current = none := by
  intro key hkey
  obtain ⟨B, -, hrecord⟩ := Vault.record_of_putObject c key h
  rw [hrecord, if_neg fun hsame ↦ hkey hsame.2]
  exact halone key hkey

theorem putBlob_faithful (h : Faithful account c k A) :
    Faithful account c k (putBlob E C now account c k req A).2 := by
  rcases putBlob_cases (E := E) (C := C) with ⟨e, A', heq, hA'⟩ | ⟨put, etag, V', -, hV', heq⟩
  · rw [heq]
    exact h.untouched hA'
  · rw [heq]
    exact h.cleared (alone_of_putObject hV' h.alone)

/-- Metadata are written with the bytes that are there. -/
theorem updateMetadata_faithful (hsound : A.Sound E) (h : Faithful account c k A) :
    Faithful account c k (updateMetadata E C now c k req A).2 := by
  rcases updateMetadata_cases (C := C) hsound with
    ⟨e, A', heq, hA'⟩ | ⟨⟨data, o⟩, updated, V', hcurrent, -, hV', heq, hmetadata, hdata⟩
  · rw [heq]
    exact h.untouched hA'
  · rw [heq]
    refine h.vault (alone_of_putObject hV' h.alone) fun _ data' o' ho' htype ↦ ?_
    rw [hcurrent] at ho'
    cases ho'
    obtain ⟨id, hupdated⟩ := Vault.current_of_putObject hV'
    rw [hdata] at hupdated
    exact ⟨_, hupdated, (congrArg (·["azure_blob_type"]?.getD "BlockBlob") hmetadata).trans htype⟩

/-- There are no snapshots where there is nothing but the blob. -/
theorem snapshotKeys_eq_nil (hsound : A.Sound E) (h : Faithful account c k A) :
    snapshotKeys C c k A = [] := by
  rw [snapshotKeys]
  cases hB : A.vault.buckets[c]? with
  | none => rfl
  | some B =>
    refine List.filterMap_eq_nil_iff.2 fun o ho ↦ ?_
    obtain ⟨⟨key, e⟩, hmem, hmetadata⟩ := List.mem_filterMap.1 ho
    have he : B.record key = e := by
      rw [Bucket.record, Std.ExtTreeMap.mem_toList_iff_getElem?_eq_some.1 hmem]
      rfl
    obtain ⟨⟨data, o'⟩, hcurrent, rfl⟩ := Option.map_eq_some_iff.1 hmetadata
    have hcurrent' : (A.vault.record c key).current = some (data, o') := by
      rw [Vault.record_eq hB, he]
      exact hcurrent
    obtain rfl : key = k := by
      by_contra hne
      rw [h.alone key hne] at hcurrent'
      cases hcurrent'
    have hkey := ((hsound.regular.record hB).current data o' hcurrent').1.1
    -- The keys of the snapshots of a blob are longer than that of the blob.
    refine if_neg fun hstart ↦ ?_
    have hle := (List.isPrefixOf_iff_prefix.1 hstart).length_le
    have hlong := C.length_le_urlSafe key
    rw [hkey] at hle
    simp only [snapshotKeysOf, List.length_append, List.length_cons] at hle
    omega

theorem deleteWholeBlob_faithful (hsound : A.Sound E) (h : Faithful account c k A) :
    Faithful account c k (deleteWholeBlob E C now account c k req A).2 := by
  rcases refused_or_of_readOnly (m := admitDeletion C now c k req) admitDeletion_readOnly with
    ⟨e, A', heq, hA'⟩ | ⟨deletion, hadmitted, heq⟩
  · rw [deleteWholeBlob, heq]
    exact h.untouched hA'
  obtain ⟨-, hkeys, -⟩ := admitDeletion_ok hadmitted
  rw [snapshotKeys_eq_nil hsound h] at hkeys
  rw [deleteWholeBlob, heq, hkeys]
  split
  · exact h
  · rcases deleteCurrentBlob_cases (E := E) (A := A) with ⟨e, A', hdelete, hA'⟩ | ⟨V', hV', hdelete⟩
    · rw [bind_of_error hdelete]
      exact h.untouched hA'
    · rw [bind_of_ok hdelete]
      refine h.cleared fun key hkey ↦ Option.eq_none_iff_forall_not_mem.2 fun st hst ↦ ?_
      have hst' : ((Vault.deleteObject E now c k A.vault).2.record c key).current = some st := by
        rw [hV']
        exact hst
      have hold := Vault.current_of_deleteObject hst'
      rw [h.alone key hkey] at hold
      cases hold

/-- The deletion of a version **leaves the list behind**: it is the current version of a blob that
has a committed list, and what becomes current is not a block blob with the same bytes. -/
def LeavesList (C : Codec) (now : Time) (account c : String) (k : Text) (id : String) (req : Request)
    (A : Adapter) : Prop :=
  ∃ version e data o, admitVersionDeletion C now c k id req A = (.ok version, A) ∧
    (A.vault.record c k).deleteVersion k id = .ok e ∧
    (A.vault.record c k).current = some (data, o) ∧ o.versionId = some id ∧
    A.committedBlocks (blobStateKey account c k) ≠ [] ∧
    ∀ o', e.current = some (data, o') → blobType o' ≠ "BlockBlob"

theorem deleteBlobVersion_faithful {id : String} (h : Faithful account c k A)
    (hspared : ¬ LeavesList C now account c k id req A) :
    Faithful account c k (deleteBlobVersion C now c k id req A).2 := by
  rcases deleteBlobVersion_cases (C := C) with
    ⟨e, A', heq, hA'⟩ | ⟨version, e, hadmitted, hdelete, heq⟩
  · rw [heq]
    exact h.untouched hA'
  rw [heq]
  have hB : ∃ B, A.vault.buckets[c]? = some B := by
    obtain ⟨⟨data, hstored⟩, -⟩ := admitVersionDeletion_ok hadmitted
    cases hB : A.vault.buckets[c]? with
    | none =>
      rw [Vault.stored, hB] at hstored
      cases hstored
    | some B => exact ⟨B, rfl⟩
  obtain ⟨B, hB⟩ := hB
  have hrecord : ∀ key, (A.vault.setRecord c k e).record c key =
      if c = c ∧ key = k then e else A.vault.record c key := fun key ↦ Vault.record_setRecord hB
  refine h.vault (fun key hkey ↦ ?_) fun hne data o hcurrent htype ↦ ?_
  · rw [hrecord, if_neg fun hsame ↦ hkey hsame.2]
    exact h.alone key hkey
  rw [hrecord, if_pos ⟨rfl, rfl⟩]
  by_cases hcurrentId : o.versionId = some id
  · by_contra hnone
    refine hspared ⟨version, e, data, o, hadmitted, hdelete, hcurrent, hcurrentId, hne, ?_⟩
    exact fun o' ho' htype' ↦ hnone ⟨o', ho', htype'⟩
  · rcases KeyRecord.deleteVersion_cases hdelete with ⟨rfl, -⟩ | ⟨-, hgone⟩ | ⟨-, -, -, -, -, -, -, -, -, hgone, -⟩
    · exact ⟨o, hcurrent, htype⟩
    · exact absurd (hgone data o hcurrent) hcurrentId
    · exact absurd (hgone data o hcurrent) hcurrentId

/-- Without a container there is no blob, and no list. -/
theorem createContainer_faithful (h : Faithful account c k A) :
    Faithful account c k (createContainer now c req A).2 := by
  rcases createContainer_cases now req (c := c) (A := A) with
    ⟨e, A', heq, hA'⟩ | ⟨hnone, V', ⟨B, rfl, hB⟩, heq⟩
  · rw [heq]
    exact h.untouched hA'
  rw [heq]
  refine h.vault (fun key _ ↦ ?_) fun _ data o hcurrent _ ↦ ?_
  · rw [Vault.record, Table.getElem?_set, if_pos rfl]
    exact congrArg KeyRecord.current (hB key)
  · rw [Vault.record, hnone] at hcurrent
    cases hcurrent

/-- A block is staged under a name that no block of the list has. -/
theorem putBlock_faithful (hsound : A.Sound E) (h : Faithful account c k A) :
    Faithful account c k (putBlock E C account c k req A).2 := by
  rcases putBlock_cases (E := E) (C := C) with ⟨e, A', heq, hA'⟩ | ⟨id, found, -, heq⟩
  · rw [heq]
    exact h.untouched hA'
  rw [heq]
  refine ⟨h.pending, h.alone, ?_, h.committed, fun hne ↦ ?_⟩
  · show ((A.sessionCache.set (blobStateKey account c k) _)[blobStateKey account c k]? <|> _) =
      (A.sessions.set (blobStateKey account c k) _)[blobStateKey account c k]?
    rw [Table.getElem?_set, if_pos rfl, Table.getElem?_set, if_pos rfl]
    rfl
  · obtain ⟨data, o, hcurrent, htype, hbytes⟩ := h.bytes hne
    refine ⟨data, o, hcurrent, htype, (blockBytes_congr fun block hblock ↦ ?_).trans hbytes⟩
    rw [item_stageBlock, if_neg]
    · rfl
    rintro ⟨-, hname⟩
    obtain ⟨m, hm, hitem⟩ := hsound.named _ block (Adapter.hasBlock_of_committed hblock)
    rw [hitem] at hname
    exact hm.ne (E.uuid_injective (by simpa using hname))

/-! ### Lists that are committed -/

section Recorded

variable {session : String} {put : PutBlockList}

/-- A list that is recorded is the committed one, and its files are retained. -/
theorem recordCommitted_eq :
    recordCommitted session put A = { (A.setCommitted session put.blocks).setSession session
        (if put.remaining.blocks.isEmpty then none else some put.remaining) with
      items := (recordCommitted session put A).items } := by
  unfold recordCommitted
  dsimp only
  unfold retainItems
  split
  · rfl
  · rfl

theorem committedBlocks_recordCommitted :
    (recordCommitted session put A).committedBlocks session = put.blocks := by
  rw [recordCommitted_eq]
  show ((A.committedCache.set session (some put.blocks))[session]? <|> _).getD [] = put.blocks
  rw [Table.getElem?_set, if_pos rfl]
  rfl

theorem blockBytes_recordCommitted :
    blockBytes session (recordCommitted session put A) put.blocks =
      blockBytes session A put.blocks := by
  refine blockBytes_congr fun block hblock ↦ ?_
  rw [recordCommitted, item_retainItems, if_neg]
  · rfl
  rintro ⟨-, hcontains⟩
  refine Bool.false_ne_true (hcontains.symm.trans (List.contains_iff_mem.2 ?_))
  exact List.mem_append_left _ (List.mem_map.2 ⟨block, hblock, rfl⟩)

end Recorded

theorem putBlockList_faithful (hsound : A.Sound E) (h : Faithful account c k A) :
    Faithful account c k (putBlockList E C now account c k req A).2 := by
  rcases putBlockList_cases (C := C) hsound with ⟨e, A', heq, hA'⟩ |
    ⟨references, requested, existing, put, etag, data, V', -, -, -, -, hdata, hV', heq⟩
  · rw [heq]
    exact h.untouched hA'
  rw [heq]
  refine ⟨?_, ?_, ?_, ?_, fun _ ↦ ?_⟩
  · rw [recordCommitted_eq]
    exact h.pending
  · rw [recordCommitted_eq]
    exact alone_of_putObject hV' h.alone
  · rw [recordCommitted_eq]
    show ((A.sessionCache.set (blobStateKey account c k) _)[blobStateKey account c k]? <|>
        (A.sessions.set (blobStateKey account c k) _)[blobStateKey account c k]?) =
      (A.sessions.set (blobStateKey account c k) _)[blobStateKey account c k]?
    rw [Table.getElem?_set, if_pos rfl, Table.getElem?_set, if_pos rfl]
    split
    · rfl
    · rfl
  · rw [committedBlocks_recordCommitted, recordCommitted_eq]
    show put.blocks =
      ((A.committed.set (blobStateKey account c k) (some put.blocks))[blobStateKey account c k]?).getD []
    rw [Table.getElem?_set, if_pos rfl]
    rfl
  · rw [committedBlocks_recordCommitted, blockBytes_recordCommitted]
    obtain ⟨id, hcurrent⟩ := Vault.current_of_putObject hV'
    have htype : blobType (composedBlob now k req etag put) = "BlockBlob" := blobType_composedBlob
    refine ⟨data, ((composedBlob now k req etag put).withVersionId id).serialized, ?_, htype, ?_⟩
    · rw [recordCommitted_eq]
      exact hcurrent
    · rw [← hdata]
      exact blockBytes_of_items A _ rfl

/-! ### Requests and runs -/

/-- A request that is let through **strands the blocks** of its blob. -/
def StrandsBlocks (C : Codec) (now : Time) (G : Gate) (account c : String) (k : Text) (req : Request)
    (A : Adapter) : Prop :=
  blobOperation req = .deleteBlob ∧ admitRequest C now G req A = (.ok (), A) ∧
    admitBlob G c req A = (.ok (), A) ∧
    ∃ id, req.queryParam "versionid" = some id ∧ LeavesList C now account c k id req A

/-- A request about the blob: Put Blob, Put Block, Put Block List, Set Metadata, Delete Blob or
Delete version. -/
def AboutBlob (account c : String) (k : Text) (req : Request) : Prop :=
  req.account = account ∧ req.container = some c ∧ req.blob = some k ∧
    req.queryParam "restype" ≠ some "container" ∧ req.queryParam "snapshot" = none ∧
    blobOperation req ∈ [.putBlob, .putBlock, .putBlockList, .updateMetadata, .deleteBlob]

/-- A step of a run about one blob: a restart, a request that creates its container, or one about
the blob. -/
def Step.OnBlob (account c : String) (k : Text) : Step → Prop
  | .restart => True
  | .request _ req =>
    (req.container = some c ∧ req.method = .put ∧ req.queryParam "restype" = some "container") ∨
      AboutBlob account c k req

theorem handleDeletion_faithful (hsound : A.Sound E) (h : Faithful account c k A)
    (hsnapshot : req.queryParam "snapshot" = none)
    (hspared : ∀ id, req.queryParam "versionid" = some id → ¬ LeavesList C now account c k id req A) :
    Faithful account c k (handleDeletion E C now account c k req A).2 := by
  rw [handleDeletion, refuseIf_bind_of_not (by rw [hsnapshot]; exact fun h ↦ by cases h.1), deleteBlob,
    hsnapshot]
  cases hid : req.queryParam "versionid" with
  | none => exact deleteWholeBlob_faithful hsound h
  | some id => exact deleteBlobVersion_faithful h (hspared id hid)

/-- **A request about the blob** keeps the description, unless it strands the blocks. -/
theorem handleRequest_faithful (hsound : A.Sound E) (h : Faithful account c k A)
    (habout : AboutBlob account c k req) (hspared : ¬ StrandsBlocks C now G account c k req A) :
    Faithful account c k (handleRequest E C now G reads req A).2 := by
  obtain ⟨rfl, hc, hk, hrestype, hsnapshot, hop⟩ := habout
  rcases handleRequest_blob_eq (E := E) hc hk hrestype h.pending with
    ⟨e, heq⟩ | ⟨hadmitted, hblob, heq⟩
  · rw [heq]
    exact h
  rw [heq, dispatchBlob]
  simp only [List.mem_cons, List.not_mem_nil, or_false] at hop
  rcases hop with hop | hop | hop | hop | hop
  · rw [hop]
    exact putBlob_faithful h
  · rw [hop]
    exact putBlock_faithful hsound h
  · rw [hop]
    exact putBlockList_faithful hsound h
  · rw [hop]
    exact updateMetadata_faithful hsound h
  · rw [hop]
    refine handleDeletion_faithful hsound h hsnapshot fun id hid hleaves ↦ ?_
    exact hspared ⟨hop, hadmitted, hblob, id, hid, hleaves⟩

theorem apply_faithful {step : Step} (hsound : A.Sound E) (h : Faithful account c k A)
    (hon : step.OnBlob account c k)
    (hspared : ∀ now req, step = .request now req → ¬ StrandsBlocks C now G account c k req A) :
    Faithful account c k (step.apply E C G reads A) := by
  cases step with
  | restart => exact h.restart
  | request now req =>
    rcases hon with ⟨hc, hmethod, hrestype⟩ | habout
    · show Faithful account c k (handleRequest E C now G reads req A).2
      rcases handleRequest_create_eq (E := E) hc hmethod hrestype h.pending with ⟨e, heq⟩ | heq
      · rw [heq]
        exact h
      · rw [heq]
        exact createContainer_faithful h
    · exact handleRequest_faithful hsound h habout (hspared now req rfl)

/-- **In a run about one blob** its committed list describes it. -/
theorem run_faithful {steps : List Step} (hsound : A.Sound E) (h : Faithful account c k A)
    (hon : ∀ step ∈ steps, step.OnBlob account c k)
    (hspared : ∀ before now req after, steps = before ++ .request now req :: after →
      ¬ StrandsBlocks C now G account c k req (A.run E C G reads before)) :
    Faithful account c k (A.run E C G reads steps) := by
  induction steps generalizing A with
  | nil => exact h
  | cons step steps ih =>
    have h₁ : Faithful account c k (step.apply E C G reads A) := by
      refine apply_faithful hsound h (hon step List.mem_cons_self) ?_
      rintro now req rfl
      exact hspared [] now req steps rfl
    refine ih (apply_sound hsound) h₁ (fun step' hmem ↦ hon step' (List.mem_cons_of_mem step hmem)) ?_
    rintro before now req after rfl
    exact hspared (step :: before) now req after rfl

/-! ### What a list stores -/

/-- **The bytes that a reference stands for**: those of the staged block with its id, of the
committed one, or of the staged one and else of the committed one. -/
def designatedBytes (session : String) (A : Adapter) (reference : BlockReference) : Option Bytes :=
  let staged := ((A.blockSession session).bind (·.blocks[reference.id]?)).map (·.item)
  let committed := (committedBlock (A.committedBlocks session) reference.id).map (·.item)
  (match reference.selector with
    | .latest => staged <|> committed
    | .committed => committed
    | .uncommitted => staged).bind (A.item session)

theorem designatedBytes_of_resolveBlock {session : String} {reference : BlockReference}
    {block : CommittedBlock × Bool}
    (h : resolveBlock ((A.blockSession session).getD {}) (A.committedBlocks session) reference =
      some block) : designatedBytes session A reference = A.item session block.1.item := by
  have hstaged : ((A.blockSession session).getD {}).blocks[reference.id]? =
      (A.blockSession session).bind (·.blocks[reference.id]?) := by
    cases A.blockSession session with
    | none => exact Std.ExtTreeMap.getElem?_empty
    | some found => rfl
  rw [resolveBlock, hstaged] at h
  rw [designatedBytes]
  cases hs : (A.blockSession session).bind (·.blocks[reference.id]?) with
  | none =>
    rw [hs] at h
    cases hc : committedBlock (A.committedBlocks session) reference.id with
    | none =>
      rw [hc] at h
      cases hsel : reference.selector <;> rw [hsel] at h <;> cases h
    | some found =>
      rw [hc] at h
      cases hsel : reference.selector <;> rw [hsel] at h <;> cases h <;> rfl
  | some found =>
    rw [hs] at h
    cases hc : committedBlock (A.committedBlocks session) reference.id with
    | none =>
      rw [hc] at h
      cases hsel : reference.selector <;> rw [hsel] at h <;> cases h <;> rfl
    | some found' =>
      rw [hc] at h
      cases hsel : reference.selector <;> rw [hsel] at h <;> cases h <;> rfl

/-- The bytes of the blocks of a list are those that its references stand for, in order. -/
theorem blockBytes_of_resolveBlocks {session : String} {references : List BlockReference}
    {resolved : List (CommittedBlock × Bool)}
    (h : resolveBlocks ((A.blockSession session).getD {}) (A.committedBlocks session) references =
      .ok resolved) :
    blockBytes session A (resolved.map Prod.fst) =
      (references.mapM (designatedBytes session A)).map List.flatten := by
  induction references generalizing resolved with
  | nil =>
    cases h
    rfl
  | cons reference references ih =>
    rw [resolveBlocks] at h
    cases hblock : resolveBlock ((A.blockSession session).getD {}) (A.committedBlocks session)
        reference with
    | none =>
      rw [hblock] at h
      cases h
    | some block =>
      rw [hblock] at h
      cases hrest : resolveBlocks ((A.blockSession session).getD {}) (A.committedBlocks session)
          references with
      | error e =>
        rw [hrest] at h
        cases h
      | ok rest =>
        rw [hrest] at h
        cases h
        rw [List.map_cons, blockBytes, ih hrest, List.mapM_cons,
          designatedBytes_of_resolveBlock hblock]
        cases A.item session block.1.item with
        | none => rfl
        | some data =>
          cases references.mapM (designatedBytes session A) with
          | none => rfl
          | some rest => rfl

/-- **A list that is committed** stores the bytes that its references stand for. -/
theorem putBlockList_stores {r : Response} (hsound : A.Sound E)
    (h : putBlockList E C now account c k req A = (.ok r, A')) :
    ∃ references data o, C.parseBlockList req.body = .ok references ∧
      (references.mapM (designatedBytes (blobStateKey account c k) A)).map List.flatten = some data ∧
      (A'.vault.record c k).current = some (data, o) := by
  rcases putBlockList_cases (C := C) hsound with ⟨e, A', heq, -⟩ |
    ⟨references, requested, existing, put, etag, data, V', hadmitted, hresolved, -, -, hdata, hV', heq⟩
  · rw [heq] at h
    cases h
  · rw [heq] at h
    cases h
    obtain ⟨id, hcurrent⟩ := Vault.current_of_putObject hV'
    refine ⟨references, data, ((composedBlob now k req etag put).withVersionId id).serialized,
      admitBlockList_references hadmitted, ?_, ?_⟩
    · rw [← blockBytes_of_resolveBlocks hresolved]
      exact hdata
    · rw [recordCommitted_eq]
      exact hcurrent

/-- **A list that is refused** changes nothing. -/
theorem putBlockList_refused {e : Refusal} (hsound : A.Sound E)
    (h : putBlockList E C now account c k req A = (.error e, A')) : Untouched A A' := by
  rcases putBlockList_cases (C := C) hsound with ⟨e, A', heq, hA'⟩ |
    ⟨_, _, _, _, _, _, _, -, -, -, -, -, -, heq⟩
  · rw [heq] at h
    cases h
    exact hA'
  · rw [heq] at h
    cases h

end Invariant

/-- **What the block lists of a blob say.** -/
structure ListsDescribe (E : Env) (C : Codec) (G : Gate) (reads : Reads) (account c : String) (k : Text)
    (A : Adapter) : Prop where
  /-- The blocks of the committed list are the bytes of the current block blob. -/
  bytes : A.committedBlocks (blobStateKey account c k) ≠ [] →
    ∃ data o, (A.vault.record c k).current = some (data, o) ∧ blobType o = "BlockBlob" ∧
      blockBytes (blobStateKey account c k) A (A.committedBlocks (blobStateKey account c k)) = some data
  absent : (A.vault.record c k).current = none → A.committedBlocks (blobStateKey account c k) = []
  /-- A list that is accepted stores what its references stand for. -/
  stored : ∀ now req r A', AboutBlob account c k req → blobOperation req = .putBlockList →
    handleRequest E C now G reads req A = (.ok r, A') →
      ∃ references data o, C.parseBlockList req.body = .ok references ∧
        (references.mapM (designatedBytes (blobStateKey account c k) A)).map List.flatten = some data ∧
        (A'.vault.record c k).current = some (data, o)
  /-- A list that is refused changes nothing. -/
  refused : ∀ now req e A', AboutBlob account c k req → blobOperation req = .putBlockList →
    handleRequest E C now G reads req A = (.error e, A') → Untouched A A'

/-- **Block lists describe blobs**, in every run of requests about one blob and of restarts in which
no request strands the blocks. -/
theorem block_lists_describe_blobs (E : Env) (C : Codec) (G : Gate) (reads : Reads) (account c : String)
    (k : Text) (steps : List Step) (hon : ∀ step ∈ steps, step.OnBlob account c k)
    (hspared : ∀ before now req after, steps = before ++ .request now req :: after →
      ¬ StrandsBlocks C now G account c k req (Adapter.run E C G reads {} before)) :
    ListsDescribe E C G reads account c k (Adapter.run E C G reads {} steps) := by
  have hsound : (Adapter.run E C G reads {} steps).Sound E := run_sound .empty
  have hfaithful : Faithful account c k (Adapter.run E C G reads {} steps) :=
    run_faithful .empty .empty hon hspared
  refine ⟨hfaithful.bytes, fun hnone ↦ ?_, ?_, ?_⟩
  · by_contra hne
    obtain ⟨data, o, hcurrent, -⟩ := hfaithful.bytes hne
    rw [hnone] at hcurrent
    cases hcurrent
  · rintro now req r A' ⟨rfl, hc, hk, hrestype, -, -⟩ hop h
    rcases handleRequest_blob_eq hc hk hrestype hfaithful.pending with ⟨e, heq⟩ | ⟨-, -, heq⟩
    · rw [heq] at h
      cases h
    · rw [heq, dispatchBlob, hop] at h
      exact putBlockList_stores hsound h
  · rintro now req e A' ⟨rfl, hc, hk, hrestype, -, -⟩ hop h
    rcases handleRequest_blob_eq hc hk hrestype hfaithful.pending with ⟨e', heq⟩ | ⟨-, -, heq⟩
    · rw [heq] at h
      cases h
      exact refl_of Untouched _
    · rw [heq, dispatchBlob, hop] at h
      exact putBlockList_refused hsound h

/-! ### Two runs -/

/-- External functions for which every document is a list of the one block that `Codec.simple`
knows. -/
def Codec.oneBlock : Codec :=
  { Codec.simple with
    readXml := fun _ ↦ [some (.start "BlockList".toList true), some (.start "Latest".toList true),
      some (.text "AA==".toList), some (.stop "Latest".toList), some (.stop "BlockList".toList)] }

/-- A block is staged and committed in a container that keeps versions. -/
def committedOnce : List Step :=
  [.request 0 (containerRequest .put [("x-sqrzl-azure-versioning-enabled", "true")]),
    .request 0 (blobRequest .put [("comp", "block"), ("blockid", "AA==")] [] [1]),
    .request 0 (blobRequest .put [("comp", "blocklist")] [] [])]

/-- Another block with the same id is staged and committed. -/
def recommitting : List Step :=
  committedOnce ++
    [.request 0 (blobRequest .put [("comp", "block"), ("blockid", "AA==")] [] [2]),
      .request 0 (blobRequest .put [("comp", "blocklist")] [] [])]

/-- The request that deletes the second version. -/
def deletesCurrent : Request := blobRequest .delete [("versionid", "uuuuuu")] [] []

/-- Then the current version is deleted. -/
def committedTwice : List Step := recommitting ++ [.request 0 deletesCurrent]

theorem onBlob_containerRequest {headers : List (String × String)} :
    (Step.request 0 (containerRequest .put headers)).OnBlob "account" "box" ['b'] := by
  refine Or.inl ⟨rfl, rfl, ?_⟩
  show (entries [("restype", "container")])["restype"]? = some "container"
  decide

theorem onBlob_blobRequest {method : Method} {query headers : List (String × String)} {body : Bytes}
    (hrestype : (entries query)["restype"]? = none) (hsnapshot : (entries query)["snapshot"]? = none)
    (hop : blobOperation (blobRequest method query headers body) ∈
      [.putBlob, .putBlock, .putBlockList, .updateMetadata, .deleteBlob]) :
    (Step.request 0 (blobRequest method query headers body)).OnBlob "account" "box" ['b'] := by
  refine Or.inr ⟨rfl, rfl, rfl, fun h ↦ ?_, hsnapshot, hop⟩
  rw [Request.queryParam, blobRequest, hrestype] at h
  cases h

theorem onBlob_committedTwice : ∀ step ∈ committedTwice, step.OnBlob "account" "box" ['b'] := by
  intro step hstep
  simp only [committedTwice, recommitting, committedOnce, List.cons_append, List.nil_append,
    List.mem_cons, List.not_mem_nil, or_false] at hstep
  rcases hstep with rfl | rfl | rfl | rfl | rfl | rfl
  · exact onBlob_containerRequest
  all_goals exact onBlob_blobRequest (by decide) (by decide) (by decide)

/-- A block is staged and committed, and the adapter is started again. -/
def committedBefore : List Step := committedOnce ++ [.restart]

/-- A block list is committed, and describes the blob after a restart. -/
theorem committed_list_describes :
    ListsDescribe .simple .oneBlock .opened noReads "account" "box" ['b']
      (Adapter.run .simple .oneBlock .opened noReads {} committedBefore) := by
  refine block_lists_describe_blobs .simple .oneBlock .opened noReads "account" "box" ['b']
    committedBefore ?_ ?_
  · intro step hstep
    rcases List.mem_append.1 hstep with hstep | hstep
    · exact onBlob_committedTwice step (List.mem_append_left _ (List.mem_append_left _ hstep))
    · cases List.mem_singleton.1 hstep
      exact trivial
  · rintro before now req after hsteps ⟨hop, -⟩
    have hmem : Step.request now req ∈ committedBefore := by
      rw [hsteps]
      exact List.mem_append_right _ List.mem_cons_self
    simp only [committedBefore, committedOnce, List.cons_append, List.nil_append, List.mem_cons, List.not_mem_nil,
      or_false, Step.request.injEq, reduceCtorEq] at hmem
    rcases hmem with ⟨-, rfl⟩ | ⟨-, rfl⟩ | ⟨-, rfl⟩
    all_goals
      revert hop
      decide

/-- The second version is current and has a list, the first one is kept, and the request is let
through. -/
def Recommitted (A : Adapter) : Prop :=
  (A.deletions["box"]? = none ∧ (admitRequest .oneBlock 0 .opened deletesCurrent A).1 = .ok () ∧
    (admitBlob .opened "box" deletesCurrent A).1 = .ok () ∧
    ((admitVersionDeletion .oneBlock 0 "box" ['b'] "uuuuuu" deletesCurrent A).1.toOption).isSome =
      true) ∧
  ((A.vault.record "box" ['b']).current.map (·.2.versionId) = some (some "uuuuuu") ∧
    (A.vault.record "box" ['b']).versions["uuu"]?.map (fun st ↦ (st.1, st.2.isDeleteMarker)) =
      some ([1], false) ∧
    (A.vault.record "box" ['b']).versions.toList.map Prod.fst = ["uuu"]) ∧
  A.committedBlocks (blobStateKey "account" "box" ['b']) ≠ [] ∧
  blockBytes (blobStateKey "account" "box" ['b']) A
    (A.committedBlocks (blobStateKey "account" "box" ['b'])) = some [2]

theorem Recommitted.not_describes {A : Adapter} (h : Recommitted A) (hsound : A.Sound .simple) :
    ¬ ListsDescribe .simple .oneBlock .opened noReads "account" "box" ['b']
      (handleRequest .simple .oneBlock 0 .opened noReads deletesCurrent A).2 := by
  intro hdescribe
  obtain ⟨⟨hpending, hadmitted, hblob, hallowed⟩, ⟨hcurrent, hkept, hsingle⟩, hne, hbytes⟩ := h
  obtain ⟨o, e, -, he, heq, hrecord⟩ := handleRequest_promotes .oneBlock 0 .opened noReads deletesCurrent
    "uuuuuu" "uuu" [1] hsound rfl rfl (by decide) hpending (by decide)
    (by decide) (by decide) hadmitted hblob hallowed (by decide) hcurrent hkept
    hsingle (by decide)
  rw [heq] at hdescribe
  obtain ⟨data, o', hst, -, hdata⟩ := hdescribe.bytes hne
  rw [hrecord, he] at hst
  cases hst
  have hdata' := (blockBytes_of_items A { A with vault := A.vault.setRecord "box" ['b'] e } rfl).symm.trans
    hdata
  cases hbytes.symm.trans hdata'

theorem recommitted_recommitting :
    Recommitted (Adapter.run .simple .oneBlock .opened noReads {} recommitting) := by
  unfold Recommitted
  decide +kernel

/-- **The version that is promoted has the list of the one that was deleted.** -/
theorem promoted_version_keeps_list :
    (∀ step ∈ committedTwice, step.OnBlob "account" "box" ['b']) ∧
    ¬ ListsDescribe .simple .oneBlock .opened noReads "account" "box" ['b']
      (Adapter.run .simple .oneBlock .opened noReads {} committedTwice) := by
  refine ⟨onBlob_committedTwice, ?_⟩
  rw [committedTwice, run_concat]
  exact recommitted_recommitting.not_describes (run_sound .empty)

end Sqrzl.Azure
