import SqrzlEmulator.Azure.Effects

/-!
# The blocks that are kept for a blob

The blocks of a blob are kept under the names of its account, its container and its own, in the
provider state and in the caches of the adapter (`HasBlock`). They come from `put_block`: **a
request can only bring in a block that it stages itself** (`BlocksFrom`, `handleRequest_blocks`).
What `get_block_list` returns and what `put_block_list` makes a blob of are blocks that are kept.
-/

namespace Sqrzl.Azure

open Prog Atomic

/-! ### Blocks -/

namespace Adapter

/-- A block that is kept for a blob: staged or committed, in the store or in a cache. -/
def HasBlock (session : String) (block : CommittedBlock) (A : Adapter) : Prop :=
  (∃ found, (A.sessionCache[session]? = some found ∨ A.sessions[session]? = some found) ∧
    found.blocks[block.id]? = some ⟨block.item, block.size⟩) ∨
  ∃ blocks, (A.committedCache[session]? = some blocks ∨ A.committed[session]? = some blocks) ∧
    block ∈ blocks

variable {A : Adapter} {session : String} {block : CommittedBlock}

theorem hasBlock_of_staged {found : BlockSession} (hfound : A.blockSession session = some found)
    (hblock : found.blocks[block.id]? = some ⟨block.item, block.size⟩) : A.HasBlock session block := by
  refine Or.inl ⟨found, ?_, hblock⟩
  rw [blockSession] at hfound
  cases hcache : A.sessionCache[session]? with
  | none =>
    rw [hcache] at hfound
    exact Or.inr hfound
  | some cached =>
    rw [hcache] at hfound
    exact Or.inl hfound

theorem hasBlock_of_committed (h : block ∈ A.committedBlocks session) : A.HasBlock session block := by
  rw [committedBlocks] at h
  cases hcache : A.committedCache[session]? with
  | none =>
    rw [hcache] at h
    cases hstored : A.committed[session]? with
    | none =>
      rw [hstored] at h
      cases h
    | some blocks =>
      rw [hstored] at h
      exact Or.inr ⟨blocks, Or.inr hstored, h⟩
  | some blocks =>
    rw [hcache] at h
    exact Or.inr ⟨blocks, Or.inl hcache, h⟩

end Adapter

/-- **New blocks have the ids that `N` allows**; the others have been there before. -/
def BlocksFrom (N : String → String → Prop) (A A' : Adapter) : Prop :=
  ∀ session block, A'.HasBlock session block → A.HasBlock session block ∨ N session block.id

instance {N : String → String → Prop} : IsPreorder Adapter (BlocksFrom N) where
  refl _ _ _ := Or.inl
  trans _ _ _ h h' session block hblock := by
    rcases h' session block hblock with hblock | hnew
    · exact h session block hblock
    · exact Or.inr hnew

/-- A change of the tables of one blob. -/
theorem blocksFrom_of_tables {N : String → String → Prop} {A A' : Adapter}
    (hsessions : ∀ session found, A'.sessionCache[session]? = some found ∨
      A'.sessions[session]? = some found → ∀ id staged, found.blocks[id]? = some staged →
        A.HasBlock session ⟨id, staged.item, staged.size⟩ ∨ N session id)
    (hcommitted : ∀ session blocks, A'.committedCache[session]? = some blocks ∨
      A'.committed[session]? = some blocks → ∀ block ∈ blocks, A.HasBlock session block) :
    BlocksFrom N A A' := by
  rintro session block (⟨found, hfound, hblock⟩ | ⟨blocks, hblocks, hblock⟩)
  · exact hsessions session found hfound block.id _ hblock
  · exact Or.inl (hcommitted session blocks hblocks block hblock)

section Handlers

variable {E : Env} {C : Codec} {now : Time} {G : Gate} {reads : Reads} {req : Request}
  {account c : String} {k : Text} {A A' : Adapter} {N : String → String → Prop} {session : String}

/-! ### Operations that bring in no blocks -/

theorem OnlyVault.blocksFrom (h : OnlyVault A A') : BlocksFrom N A A' := by
  rw [h]
  exact fun _ _ hblock ↦ Or.inl hblock

theorem moves_blocksFrom {α : Type} {m : Handler α} (h : Moves OnlyVault m) :
    Moves (BlocksFrom N) m :=
  h.mono fun _ _ ↦ OnlyVault.blocksFrom

theorem clearBlockUploadState_blocks : Moves (BlocksFrom N) (clearBlockUploadState session) := by
  refine .update fun A ↦ blocksFrom_of_tables ?_ ?_
  · intro session' found hfound id staged hstaged
    simp only [Table.getElem?_set] at hfound
    split at hfound
    · rcases hfound with h | h
      · cases h
      · cases h
    · exact Or.inl (Or.inl ⟨found, hfound, hstaged⟩)
  · intro session' blocks hblocks block hblock
    simp only [Table.getElem?_set] at hblocks
    split at hblocks
    · rcases hblocks with h | h
      · cases h
      · cases h
    · exact Or.inr ⟨blocks, hblocks, hblock⟩

theorem putBlob_blocks : Moves (BlocksFrom N) (putBlob E C now account c k req) :=
  .bind admitPutBlob_readOnly.moves fun _ ↦ .bind (moves_blocksFrom newIdentity_onlyVault) fun _ ↦
    .bind (moves_blocksFrom onVault_onlyVault) fun _ ↦ .bind .refuseIf fun _ ↦
      .bind clearBlockUploadState_blocks fun _ ↦ .pure

theorem deleteWholeBlob_blocks : Moves (BlocksFrom N) (deleteWholeBlob E C now account c k req) := by
  refine .bind admitDeletion_readOnly.moves fun deletion ↦ ?_
  split
  · exact .bind (moves_blocksFrom (deleteSnapshots_onlyVault _)) fun _ ↦ .pure
  · exact .bind (moves_blocksFrom deleteCurrentBlob_onlyVault) fun _ ↦
      .bind (moves_blocksFrom (deleteSnapshots_onlyVault _)) fun _ ↦ .bind clearBlockUploadState_blocks fun _ ↦ .pure

theorem deleteBlob_blocks : Moves (BlocksFrom N) (deleteBlob E C now account c k req) := by
  unfold deleteBlob
  split
  · exact moves_blocksFrom deleteBlobVersion_onlyVault
  · exact moves_blocksFrom deleteBlobSnapshot_onlyVault
  · exact deleteWholeBlob_blocks

theorem finishExpiredDeletion_blocks : Moves (BlocksFrom N) (finishExpiredDeletion E C now c) := by
  refine .bind .view fun found ↦ ?_
  cases found with
  | none => exact .pure
  | some purgeAfter =>
    dsimp only
    split
    · exact .pure
    · refine .bind .view fun immutable ↦ ?_
      split
      · exact .bind (.update fun _ _ _ h ↦ Or.inl h) fun _ ↦ .pure
      · exact .bind (moves_blocksFrom purge_onlyVault) fun _ ↦
          .bind (.update fun _ _ _ h ↦ Or.inl h) fun _ ↦ .pure

/-! ### Block lists -/

theorem loadCommittedBlocks_blocks : Moves (BlocksFrom N) (loadCommittedBlocks session) := by
  intro A
  refine blocksFrom_of_tables (fun session' found hfound id staged hstaged ↦
    Or.inl (Or.inl ⟨found, hfound, hstaged⟩)) ?_
  intro session' blocks hblocks block hblock
  rcases hblocks with hcache | hstored
  · simp only [loadCommittedBlocks, Adapter.cacheCommitted, Table.getElem?_set] at hcache
    split at hcache
    · next hsession =>
      subst hsession
      cases hcache
      exact Adapter.hasBlock_of_committed hblock
    · exact Or.inr ⟨blocks, Or.inl hcache, hblock⟩
  · exact Or.inr ⟨blocks, Or.inr hstored, hblock⟩

theorem getBlockList_blocks : Moves (BlocksFrom N) (getBlockList account c k req) :=
  .bind ReadOnly.ofExcept.moves fun _ ↦ .bind loadCommittedBlocks_blocks fun _ ↦
    .bind .view fun _ ↦ .bind admitListing_readOnly.moves fun _ ↦ .pure

/-- A reference stands for a block that is kept, under its own id. -/
theorem resolveBlock_hasBlock {reference : BlockReference} {block : CommittedBlock × Bool}
    (h : resolveBlock ((A.blockSession session).getD {}) (A.committedBlocks session) reference =
      some block) : A.HasBlock session block.1 ∧ block.1.id = reference.id := by
  have hstaged : ∀ block, (((A.blockSession session).getD {}).blocks[reference.id]?.map fun block ↦
      ((⟨reference.id, block.item, block.size⟩ : CommittedBlock), true)) = some block →
      A.HasBlock session block.1 ∧ block.1.id = reference.id := by
    intro block h
    obtain ⟨staged, hstaged, rfl⟩ := Option.map_eq_some_iff.1 h
    refine ⟨?_, rfl⟩
    cases hfound : A.blockSession session with
    | none =>
      rw [hfound] at hstaged
      simp at hstaged
    | some found =>
      rw [hfound] at hstaged
      exact Adapter.hasBlock_of_staged hfound hstaged
  have hcommitted : ∀ block, ((committedBlock (A.committedBlocks session) reference.id).map fun block ↦
      ((⟨reference.id, block.item, block.size⟩ : CommittedBlock), false)) = some block →
      A.HasBlock session block.1 ∧ block.1.id = reference.id := by
    intro block h
    obtain ⟨found, hfound, rfl⟩ := Option.map_eq_some_iff.1 h
    have hid : found.id = reference.id := by simpa using List.find?_some hfound
    have hmem := List.mem_reverse.1 (List.mem_of_find?_eq_some hfound)
    refine ⟨?_, rfl⟩
    rw [← hid]
    exact Adapter.hasBlock_of_committed hmem
  unfold resolveBlock at h
  dsimp only at h
  split at h
  · exact hstaged block h
  · exact hcommitted block h
  · rw [Option.orElse_eq_orElse, Option.orElse_eq_or, Option.or_eq_some_iff] at h
    rcases h with h | ⟨-, h⟩
    · exact hstaged block h
    · exact hcommitted block h

theorem resolveBlocks_hasBlock {references : List BlockReference}
    {resolved : List (CommittedBlock × Bool)}
    (h : resolveBlocks ((A.blockSession session).getD {}) (A.committedBlocks session) references =
      .ok resolved) :
    (∀ block ∈ resolved, A.HasBlock session block.1) ∧
      ∀ reference ∈ references, ∃ block, A.HasBlock session block ∧ block.id = reference.id := by
  induction references generalizing resolved with
  | nil =>
    cases h
    exact ⟨nofun, nofun⟩
  | cons reference references ih =>
    rw [resolveBlocks] at h
    cases hblock : resolveBlock ((A.blockSession session).getD {}) (A.committedBlocks session)
        reference with
    | none =>
      rw [hblock] at h
      cases h
    | some block =>
      rw [hblock] at h
      cases hrest : resolveBlocks ((A.blockSession session).getD {}) (A.committedBlocks session)
          references with
      | error e =>
        rw [hrest] at h
        cases h
      | ok rest =>
        rw [hrest] at h
        cases h
        obtain ⟨hresolved, hreferences⟩ := ih hrest
        obtain ⟨hhas, hid⟩ := resolveBlock_hasBlock hblock
        constructor
        · rintro block' (_ | ⟨_, hmem⟩)
          · exact hhas
          · exact hresolved block' hmem
        · rintro reference' (_ | ⟨_, hmem⟩)
          · exact ⟨block.1, hhas, hid⟩
          · exact hreferences reference' hmem

/-- What a session holds is kept. -/
theorem hasBlock_of_found {found : BlockSession} (h : found = (A.blockSession session).getD {})
    {id : String} {staged : StagedBlock} (hstaged : found.blocks[id]? = some staged) :
    A.HasBlock session ⟨id, staged.item, staged.size⟩ := by
  rw [h] at hstaged
  cases hsession : A.blockSession session with
  | none =>
    rw [hsession] at hstaged
    simp at hstaged
  | some found =>
    rw [hsession] at hstaged
    exact Adapter.hasBlock_of_staged hsession hstaged

theorem resolveBlockList_ok {references : List BlockReference} {requested : Option ObjectCondition}
    {existing : Option Object} {put : PutBlockList}
    (h : resolveBlockList session references requested req existing A = (.ok put, A')) :
    resolveBlocks ((A.blockSession session).getD {}) (A.committedBlocks session) references =
      .ok put.resolved ∧ put.staged = (A.blockSession session).getD {} ∧ put.existing = existing := by
  rw [resolveBlockList, view_bind, view_bind] at h
  obtain ⟨resolved, hresolved, h⟩ := ofExcept_bind_ok.1 h
  obtain ⟨-, h⟩ := refuseIf_bind_ok.1 h
  obtain ⟨rfl, -⟩ := pure_ok.1 h
  exact ⟨hresolved, rfl, rfl⟩

/-- What is recorded is made of blocks that have been kept. -/
theorem recordCommitted_blocks {put : PutBlockList}
    (hstaged : ∀ id staged, put.staged.blocks[id]? = some staged →
      A.HasBlock session ⟨id, staged.item, staged.size⟩)
    (hresolved : ∀ block ∈ put.resolved, A.HasBlock session block.1) :
    BlocksFrom N A (recordCommitted session put A) := by
  have htables : ∀ A : Adapter, ∀ names, BlocksFrom N A (retainItems session names A) := by
    intro A names session' block h
    unfold retainItems at h
    split at h
    · exact Or.inl h
    · exact Or.inl h
  refine trans_of (BlocksFrom N) (blocksFrom_of_tables ?_ ?_) (htables _ _)
  · intro session' found hfound id staged hblock
    simp only [Adapter.setSession, Adapter.setCommitted, Table.getElem?_set] at hfound
    split at hfound
    · next hsession =>
      rw [or_self] at hfound
      subst hsession
      split at hfound
      · cases hfound
      · cases hfound
        refine Or.inl (hstaged id staged ?_)
        rw [PutBlockList.remaining, Std.ExtTreeMap.getElem?_filter', Option.filter_eq_some_iff]
          at hblock
        exact hblock.1
    · exact Or.inl (Or.inl ⟨found, hfound, hblock⟩)
  · intro session' blocks hblocks block hblock
    simp only [Adapter.setSession, Adapter.setCommitted, Table.getElem?_set] at hblocks
    split at hblocks
    · next hsession =>
      rw [or_self] at hblocks
      subst hsession
      cases hblocks
      obtain ⟨resolved, hmem, rfl⟩ := List.mem_map.1 hblock
      exact hresolved resolved hmem
    · exact Or.inr ⟨blocks, hblocks, hblock⟩

/-- The blocks of a list are kept until the list is recorded. -/
def PutBlockList.Kept (session : String) (put : PutBlockList) (A : Adapter) : Prop :=
  (∀ id staged, put.staged.blocks[id]? = some staged →
    A.HasBlock session ⟨id, staged.item, staged.size⟩) ∧
  ∀ block ∈ put.resolved, A.HasBlock session block.1

theorem kept_of_resolveBlockList {references : List BlockReference}
    {requested : Option ObjectCondition} {existing : Option Object} {put : PutBlockList}
    (h : resolveBlockList session references requested req existing A = (.ok put, A')) :
    put.Kept session A := by
  obtain ⟨hresolved, hstaged, -⟩ := resolveBlockList_ok h
  exact ⟨fun id staged hblock ↦ hasBlock_of_found hstaged hblock,
    (resolveBlocks_hasBlock hresolved).1⟩

theorem PutBlockList.Kept.onlyVault {put : PutBlockList} (h : put.Kept session A)
    (hA : OnlyVault A A') : put.Kept session A' := by
  rw [hA]
  exact h

theorem putBlockList_blocks : Moves (BlocksFrom N) (putBlockList E C now account c k req) := by
  refine .bind admitBlockList_readOnly.moves fun ⟨references, requested, existing⟩ ↦
    .bind loadCommittedBlocks_blocks fun _ A ↦ resolveBlockList_readOnly.bind_moves fun put hput ↦ ?_
  -- Between the look at the blocks and the record only the store changes.
  have hkept := kept_of_resolveBlockList hput
  refine bind_moves (moves_blocksFrom newIdentity_onlyVault A) fun etag A₁ h₁ ↦ ?_
  have hkept₁ := hkept.onlyVault (h₁ ▸ newIdentity_onlyVault (E := E) A)
  refine bind_moves (moves_blocksFrom composeUploadPayloads_onlyVault A₁) fun written A₂ h₂ ↦ ?_
  have hkept₂ := hkept₁.onlyVault (h₂ ▸ composeUploadPayloads_onlyVault A₁)
  refine ReadOnly.refuseIf.bind_moves fun _ _ ↦ ?_
  exact bind_moves (recordCommitted_blocks hkept₂.1 hkept₂.2) fun _ _ _ ↦ Moves.pure _

/-! ### Staging a block -/

theorem requestedBlock_ok {id : String} {length : ℕ} (h : requestedBlock C req = .ok (id, length)) :
    req.queryParam "blockid" = some id := by
  unfold requestedBlock at h
  split at h
  · cases h
  · next id' hid =>
    split at h
    · cases h
    · split at h
      · cases h
      · cases h
        exact hid

theorem admitBlock_ok {id : String} {found : BlockSession}
    (h : admitBlock C session c k req A = (.ok (id, found), A')) :
    req.queryParam "blockid" = some id ∧ found = (A.blockSession session).getD {} := by
  rw [admitBlock] at h
  obtain ⟨-, h⟩ := refuseIf_bind_ok.1 h
  obtain ⟨-, -, h⟩ := ofExcept_bind_ok.1 h
  obtain ⟨⟨id', length⟩, hid, hrest⟩ := ofExcept_bind_ok.1 h
  obtain ⟨_, A₁, hon, hfound⟩ := bind_ok.1 hrest
  obtain rfl : A₁ = A := by rw [← admitBlockOn_readOnly A, hon]
  rw [view_bind] at hfound
  obtain ⟨-, hlength⟩ := refuseIf_bind_ok.1 hfound
  obtain ⟨-, hcount⟩ := refuseIf_bind_ok.1 hlength
  obtain ⟨heq, -⟩ := pure_ok.1 hcount
  obtain ⟨rfl, rfl⟩ := Prod.mk.inj heq
  exact ⟨requestedBlock_ok hid, rfl⟩

/-- Staging brings in one block. -/
theorem stageBlock_hasBlock {id item : String} {found : BlockSession} {data : Bytes}
    (hfound : ∀ id staged, found.blocks[id]? = some staged →
      A.HasBlock session ⟨id, staged.item, staged.size⟩) {session' : String} {block : CommittedBlock}
    (h : (stageBlock session id item found data A).HasBlock session' block) :
    A.HasBlock session' block ∨ session' = session ∧ block = ⟨id, item, data.length⟩ := by
  rcases h with ⟨found', hfound', hblock⟩ | hcommitted
  · simp only [stageBlock, Adapter.setSession, Adapter.setItems, Table.getElem?_set] at hfound'
    split at hfound'
    · next hsession =>
      rw [or_self] at hfound'
      subst hsession
      cases hfound'
      rw [Table.getElem?_set] at hblock
      split at hblock
      · next hid =>
        obtain ⟨id', item', size'⟩ := block
        cases hblock
        cases hid
        exact Or.inr ⟨rfl, rfl⟩
      · exact Or.inl (hfound block.id _ hblock)
    · exact Or.inl (Or.inl ⟨found', hfound', hblock⟩)
  · exact Or.inl (Or.inr hcommitted)

theorem stageBlock_blocks {id item : String} {found : BlockSession} {data : Bytes}
    (hfound : ∀ id staged, found.blocks[id]? = some staged →
      A.HasBlock session ⟨id, staged.item, staged.size⟩) (hN : N session id) :
    BlocksFrom N A (stageBlock session id item found data A) := by
  intro session' block h
  rcases stageBlock_hasBlock hfound h with hblock | ⟨rfl, rfl⟩
  · exact Or.inl hblock
  · exact Or.inr hN

/-- **A staged block has the id that the request names.** -/
theorem putBlock_blocks
    (hN : ∀ id, req.queryParam "blockid" = some id → N (blobStateKey account c k) id) :
    Moves (BlocksFrom N) (putBlock E C account c k req) := by
  refine fun A ↦ admitBlock_readOnly.bind_moves fun ⟨id, found⟩ hadmitted ↦ ?_
  obtain ⟨hid, hfound⟩ := admitBlock_ok hadmitted
  refine bind_moves (moves_blocksFrom newIdentity_onlyVault A) fun name A₁ h₁ ↦ ?_
  obtain rfl : A₁ = _ := (Prod.mk.inj h₁).2.symm
  refine bind_moves (stageBlock_blocks (fun id staged hstaged ↦ ?_) (hN id hid)) fun _ _ _ ↦
    Moves.pure _
  exact hasBlock_of_found (A := A) hfound hstaged

/-! ### Requests -/

/-- A request that stages a block with this id for this blob. -/
def StagesId (req : Request) (session id : String) : Prop :=
  blobOperation req = .putBlock ∧ req.queryParam "blockid" = some id ∧
    ∃ c k, req.container = some c ∧ req.blob = some k ∧ session = blobStateKey req.account c k

theorem dispatchBlob_blocks (hc : req.container = some c) (hk : req.blob = some k) :
    Moves (BlocksFrom (StagesId req)) (dispatchBlob E C now reads req.account c k req) := by
  unfold dispatchBlob
  split
  · exact putBlob_blocks
  · exact answer_readOnly.moves
  · exact .bind .refuseIf fun _ ↦ deleteBlob_blocks
  · exact moves_blocksFrom handleLease_onlyVault
  · exact moves_blocksFrom createSnapshot_onlyVault
  · exact moves_blocksFrom putImmutabilityPolicy_onlyVault
  · exact moves_blocksFrom deleteImmutabilityPolicy_onlyVault
  · exact moves_blocksFrom putLegalHold_onlyVault
  · next hop => exact putBlock_blocks fun id hid ↦ ⟨hop, hid, c, k, hc, hk, rfl⟩
  · exact putBlockList_blocks
  · exact moves_blocksFrom updateMetadata_onlyVault
  · exact getBlockList_blocks
  · exact moves_blocksFrom appendBlock_onlyVault
  · exact moves_blocksFrom putPage_onlyVault
  · exact fail_readOnly.moves
  · exact fail_readOnly.moves

/-- **A request brings in no block but the one that it stages.** -/
theorem handleRequest_blocks :
    Moves (BlocksFrom (StagesId req)) (handleRequest E C now G reads req) := by
  refine handleRequest_moves (fun _ ↦ finishExpiredDeletion_blocks)
    (fun _ _ ↦ moves_blocksFrom createContainer_onlyVault) (fun c hc ↦ ?_)
    fun c k hc hk ↦ dispatchBlob_blocks hc hk
  exact .bind admitContainerDeletion_readOnly.moves fun _ ↦
    .bind (.update fun _ _ _ h ↦ Or.inl h) fun _ ↦ .pure

/-! ### What requests see of the blocks -/

/-- `get_block_list` returns blocks that are kept for the blob. -/
theorem getBlockList_hasBlock {committed : List CommittedBlock}
    {uncommitted : List (String × StagedBlock)}
    (h : getBlockList account c k req A = (.ok (.blockList committed uncommitted), A')) :
    (∀ block ∈ committed, A.HasBlock (blobStateKey account c k) block) ∧
      ∀ entry ∈ uncommitted,
        A.HasBlock (blobStateKey account c k) ⟨entry.1, entry.2.item, entry.2.size⟩ := by
  obtain ⟨selector, -, hload⟩ := ofExcept_bind_ok.1 h
  obtain ⟨blocks, A₁, hloaded, hview⟩ := bind_ok.1 hload
  obtain ⟨hblocks, rfl⟩ := Prod.mk.inj hloaded
  obtain rfl := Except.ok.inj hblocks
  rw [view_bind] at hview
  obtain ⟨_, A₂, -, hpure⟩ := bind_ok.1 hview
  obtain ⟨hlists, -⟩ := pure_ok.1 hpure
  obtain ⟨rfl, rfl⟩ := Response.blockList.inj hlists
  constructor
  · intro block hblock
    split at hblock
    · cases hblock
    · exact Adapter.hasBlock_of_committed hblock
  · intro entry hentry
    split at hentry
    · cases hentry
    · cases hfound : A.blockSession (blobStateKey account c k) with
      | none =>
        have hnone : (A.cacheCommitted (blobStateKey account c k)).blockSession
            (blobStateKey account c k) = none := hfound
        rw [hnone] at hentry
        cases hentry
      | some found =>
        have hsome : (A.cacheCommitted (blobStateKey account c k)).blockSession
            (blobStateKey account c k) = some found := hfound
        rw [hsome] at hentry
        refine Adapter.hasBlock_of_staged hfound ?_
        exact Std.ExtTreeMap.mem_toList_iff_getElem?_eq_some.1 hentry

theorem requestedBlockList_ok {references : List BlockReference}
    (h : requestedBlockList C req = .ok references) : C.parseBlockList req.body = .ok references := by
  unfold requestedBlockList at h
  split at h
  · cases h
  · next found hfound =>
    split at h
    · cases h
    · split at h
      · cases h
        exact hfound
      · cases h

theorem admitBlockList_references {references : List BlockReference}
    {requested : Option ObjectCondition} {existing : Option Object}
    (h : admitBlockList C now c k req A = (.ok (references, requested, existing), A')) :
    C.parseBlockList req.body = .ok references := by
  obtain ⟨_, -, hlist⟩ := ofExcept_bind_ok.1 h
  obtain ⟨references', hreferences, hcondition⟩ := ofExcept_bind_ok.1 hlist
  obtain ⟨_, -, hon⟩ := ofExcept_bind_ok.1 hcondition
  obtain ⟨_, _, -, hpure⟩ := bind_ok.1 hon
  obtain ⟨heq, -⟩ := pure_ok.1 hpure
  obtain ⟨rfl, -⟩ := Prod.mk.inj heq
  exact requestedBlockList_ok hreferences

/-- `put_block_list` succeeds only with the ids of blocks that are kept for the blob. -/
theorem putBlockList_hasBlock {r : Response}
    (h : putBlockList E C now account c k req A = (.ok r, A')) :
    ∃ references, C.parseBlockList req.body = .ok references ∧ ∀ reference ∈ references,
      ∃ block, A.HasBlock (blobStateKey account c k) block ∧ block.id = reference.id := by
  obtain ⟨⟨references, requested, existing⟩, A₀, hadmitted, hload⟩ := bind_ok.1 h
  obtain rfl : A₀ = A := by rw [← admitBlockList_readOnly A, hadmitted]
  obtain ⟨blocks, A₁, hloaded, hresolve⟩ := bind_ok.1 hload
  obtain ⟨put, A₂, hput, -⟩ := bind_ok.1 hresolve
  refine ⟨references, admitBlockList_references hadmitted, fun reference hmem ↦ ?_⟩
  obtain ⟨block, hblock, hid⟩ :=
    (resolveBlocks_hasBlock (resolveBlockList_ok hput).1).2 reference hmem
  refine ⟨block, ?_, hid⟩
  have hmoves : BlocksFrom (fun _ _ ↦ False) A₀ (loadCommittedBlocks (blobStateKey account c k) A₀).2 :=
    loadCommittedBlocks_blocks A₀
  rw [hloaded] at hmoves
  exact (hmoves _ block hblock).resolve_right id

end Handlers

end Sqrzl.Azure
