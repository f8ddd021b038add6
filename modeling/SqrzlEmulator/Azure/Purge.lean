import SqrzlEmulator.Azure.KnownBlocks

/-!
# What is left of a deleted container

A step of a run can only bring in a block that its own request stages, so that every block that a
run ends with was there before it or was staged in it (`run_hasBlock`).

The purge of a container deletes its objects and their versions. It does not look at the blocks, and
so nothing of the blocks is left behind exactly when nothing was there to be left: no blob name of
the container had a block, staged or committed, when the deletion was finished.
-/

namespace Sqrzl.Azure

open Prog Atomic

/-! ### Steps and runs -/

section Runs

variable (E : Env) (C : Codec) (G : Gate) (reads : Reads)

/-- **A step that stages a block**: a `put_block` request for the blob, with the id of the block,
which is kept for the blob from then on. -/
def Stages (A : Adapter) (step : Step) (session : String) (block : CommittedBlock) : Prop :=
  ∃ now req, step = .request now req ∧ StagesId req session block.id ∧
    ¬ A.HasBlock session block ∧ (step.apply E C G reads A).HasBlock session block

/-- A run in which a block is staged. -/
def StagedIn (A : Adapter) (steps : List Step) (session : String) (block : CommittedBlock) : Prop :=
  ∃ before step after, steps = before ++ step :: after ∧
    Stages E C G reads (A.run E C G reads before) step session block

variable {E C G reads} {A : Adapter} {steps : List Step} {session : String} {block : CommittedBlock}

theorem apply_hasBlock {step : Step} (h : (step.apply E C G reads A).HasBlock session block) :
    A.HasBlock session block ∨ Stages E C G reads A step session block := by
  by_cases hbefore : A.HasBlock session block
  · exact Or.inl hbefore
  cases step with
  | restart =>
    rcases h with ⟨found, hfound | hfound, hblock⟩ | ⟨blocks, hblocks | hblocks, hblock⟩
    · simp [Step.apply, Adapter.restart] at hfound
    · exact Or.inl (Or.inl ⟨found, Or.inr hfound, hblock⟩)
    · simp [Step.apply, Adapter.restart] at hblocks
    · exact Or.inl (Or.inr ⟨blocks, Or.inr hblocks, hblock⟩)
  | request now req =>
    rcases handleRequest_blocks A session block h with hblock | hnew
    · exact Or.inl hblock
    · exact Or.inr ⟨now, req, rfl, hnew, hbefore, h⟩

/-- **Every block has been there from the start, or was staged in the run.** -/
theorem run_hasBlock (h : (A.run E C G reads steps).HasBlock session block) :
    A.HasBlock session block ∨ StagedIn E C G reads A steps session block := by
  induction steps generalizing A with
  | nil => exact Or.inl h
  | cons step steps ih =>
    rcases ih h with hblock | ⟨before, step', after, rfl, hstages⟩
    · rcases apply_hasBlock hblock with hblock | hstages
      · exact Or.inl hblock
      · exact Or.inr ⟨[], step, steps, rfl, hstages⟩
    · exact Or.inr ⟨step :: before, step', after, rfl, hstages⟩

/-- A deletion that is finished brings in no blocks. -/
theorem hasBlock_of_resolveDeletion {c : String} {now : Time} {req : Request} {u : Unit}
    {A₁ : Adapter} (h : resolveDeletion E C now c req A = (.ok u, A₁))
    (hblock : A₁.HasBlock session block) : A.HasBlock session block := by
  have hmoves : BlocksFrom (fun _ _ ↦ False) A (resolveDeletion E C now c req A).2 :=
    resolveDeletion_moves (fun _ ↦ finishExpiredDeletion_blocks) A
  rw [h] at hmoves
  exact (hmoves session block hblock).resolve_right id

/-! ### Deleted containers -/

variable (E C G reads)

/-- A step that finishes the deletion of a container: the deletion was due, nothing in the container
was protected, and the record of the deletion is gone. -/
def FinishesDeletion (A : Adapter) (step : Step) (c : String) : Prop :=
  ∃ now req purgeAfter, step = .request now req ∧ A.deletions[c]? = some purgeAfter ∧
    purgeAfter ≤ now ∧ containerHasImmutableBlob C now c A = false ∧
    (step.apply E C G reads A).deletions[c]? = none

/-- No blob name of a container has a block. -/
def NoBlocks (c : String) (A : Adapter) : Prop :=
  ∀ account k block, ¬ A.HasBlock (blobStateKey account c k) block

/-- A run in which the deletion of a container is only finished when no blob name of it has a
block. -/
def PurgedClean (c : String) (steps : List Step) : Prop :=
  ∀ before step after, steps = before ++ step :: after →
    FinishesDeletion E C G reads (Adapter.run E C G reads {} before) step c →
      NoBlocks c (Adapter.run E C G reads {} before)

/-- **What requests see of the blocks of a container has been staged since** the state `A`: the
blocks that `get_block_list` returns, and the ids with which `put_block_list` succeeds. -/
def OnlyStagedSince (A : Adapter) (since : List Step) (c : String) : Prop :=
  ∀ now req k, req.container = some c → req.blob = some k →
    req.queryParam "restype" ≠ some "container" →
    (blobOperation req = .getBlockList → ∀ committed uncommitted A',
      handleRequest E C now G reads req (A.run E C G reads since) =
        (.ok (.blockList committed uncommitted), A') →
      (∀ block ∈ committed, StagedIn E C G reads A since (blobStateKey req.account c k) block) ∧
      ∀ entry ∈ uncommitted, StagedIn E C G reads A since (blobStateKey req.account c k)
        ⟨entry.1, entry.2.item, entry.2.size⟩) ∧
    (blobOperation req = .putBlockList → ∀ response A',
      handleRequest E C now G reads req (A.run E C G reads since) = (.ok response, A') →
      ∃ references, C.parseBlockList req.body = .ok references ∧ ∀ reference ∈ references,
        ∃ block, StagedIn E C G reads A since (blobStateKey req.account c k) block ∧
          block.id = reference.id)

/-- **A deleted container leaves no blocks behind** if none is there when the deletion is
finished. -/
theorem deleted_container_forgets_blocks (steps before after : List Step) (step : Step) (c : String)
    (hclean : PurgedClean E C G reads c steps) (hsteps : steps = before ++ step :: after)
    (hfinished : FinishesDeletion E C G reads (Adapter.run E C G reads {} before) step c) :
    OnlyStagedSince E C G reads (Adapter.run E C G reads {} before) (step :: after) c := by
  have hnone := hclean before step after hsteps hfinished
  intro now req k hc hk hrestype
  have hstaged : ∀ block A₁, resolveDeletion E C now c req ((Adapter.run E C G reads {} before).run
      E C G reads (step :: after)) = (.ok (), A₁) →
      A₁.HasBlock (blobStateKey req.account c k) block →
      StagedIn E C G reads (Adapter.run E C G reads {} before) (step :: after)
        (blobStateKey req.account c k) block := by
    intro block A₁ hresolve hblock
    exact (run_hasBlock (hasBlock_of_resolveDeletion hresolve hblock)).resolve_left
      (hnone req.account k block)
  constructor
  · intro hop committed uncommitted A' h
    obtain ⟨A₁, B, hresolve, -, hdispatch⟩ := handleRequest_blob_ok hc hk hrestype h
    rw [dispatchBlob, hop] at hdispatch
    obtain ⟨hcommitted, huncommitted⟩ := getBlockList_hasBlock hdispatch
    exact ⟨fun block hblock ↦ hstaged block A₁ hresolve (hcommitted block hblock),
      fun entry hentry ↦ hstaged _ A₁ hresolve (huncommitted entry hentry)⟩
  · intro hop response A' h
    obtain ⟨A₁, B, hresolve, -, hdispatch⟩ := handleRequest_blob_ok hc hk hrestype h
    rw [dispatchBlob, hop] at hdispatch
    obtain ⟨references, hparse, hreferences⟩ := putBlockList_hasBlock hdispatch
    refine ⟨references, hparse, fun reference hmem ↦ ?_⟩
    obtain ⟨block, hblock, hid⟩ := hreferences reference hmem
    exact ⟨block, hstaged block A₁ hresolve hblock, hid⟩

variable {E C G reads}

/-- Without `put_block` there are no blocks. -/
theorem noBlocks_of_noPutBlock {c : String}
    (h : ∀ now req, .request now req ∈ steps → blobOperation req ≠ .putBlock) :
    NoBlocks c (Adapter.run E C G reads {} steps) := by
  intro account k block hblock
  rcases run_hasBlock hblock with hempty | ⟨before, step, after, hsteps, now, req, rfl, hstages, -⟩
  · rcases hempty with ⟨found, hfound, -⟩ | ⟨blocks, hblocks, -⟩
    · simp at hfound
    · simp at hblocks
  · refine h now req ?_ hstages.1
    rw [hsteps]
    exact List.mem_append_right _ List.mem_cons_self

end Runs

/-! ### A run -/

/-- A container is created. -/
def createBox : Step := .request 0 (containerRequest .put [])

/-- A container is deleted, at once. -/
def deleteBox : Step := .request 0 (containerRequest .delete [("x-sqrzl-azure-delete-delay-ms", "0")])

/-- A block is staged. -/
def stageInBox : Step := .request 0 (blobRequest .put [("comp", "block"), ("blockid", "AA==")] [] [7])

/-- A container that is deleted before anything is staged leaves nothing behind. -/
theorem deleted_empty_container_forgets_blocks :
    PurgedClean .simple .simple .opened noReads "box" [createBox, deleteBox, createBox, stageInBox] ∧
    FinishesDeletion .simple .simple .opened noReads
      (Adapter.run .simple .simple .opened noReads {} [createBox, deleteBox]) createBox "box" ∧
    OnlyStagedSince .simple .simple .opened noReads
      (Adapter.run .simple .simple .opened noReads {} [createBox, deleteBox]) [createBox, stageInBox]
      "box" := by
  have hclean : PurgedClean .simple .simple .opened noReads "box"
      [createBox, deleteBox, createBox, stageInBox] := by
    intro before step after hsteps _
    refine noBlocks_of_noPutBlock fun now req hmem ↦ ?_
    have htake : before = [createBox, deleteBox, createBox, stageInBox].take before.length := by
      rw [hsteps, List.take_left]
    have hlength : before.length ≤ 3 := by
      have := congrArg List.length hsteps
      rw [List.length_append, List.length_cons] at this
      simp only [List.length_cons, List.length_nil] at this
      omega
    have hfirst : Step.request now req ∈ [createBox, deleteBox, createBox] := by
      rw [htake] at hmem
      exact List.take_subset_take_left [createBox, deleteBox, createBox, stageInBox] hlength hmem
    have hcreate : blobOperation (containerRequest .put []) ≠ .putBlock := by decide
    have hdelete : blobOperation (containerRequest .delete
        [("x-sqrzl-azure-delete-delay-ms", "0")]) ≠ .putBlock := by decide
    rcases List.mem_cons.1 hfirst with h | h
    · cases h
      exact hcreate
    rcases List.mem_cons.1 h with h | h
    · cases h
      exact hdelete
    · cases List.mem_singleton.1 h
      exact hcreate
  have hfinished : FinishesDeletion .simple .simple .opened noReads
      (Adapter.run .simple .simple .opened noReads {} [createBox, deleteBox]) createBox "box" :=
    ⟨0, _, 0, rfl, by decide, le_rfl, by decide, by decide⟩
  exact ⟨hclean, hfinished, deleted_container_forgets_blocks _ _ _ _ _ [createBox, deleteBox]
    [stageInBox] createBox "box" hclean rfl hfinished⟩

/-- What `get_block_list` returns for a blob of the new container. -/
def listStaged : Request := blobRequest .get [("comp", "blocklist"), ("blocklisttype", "uncommitted")] [] []

/-- **A block that was staged before the deletion of its container is listed in the new one.** -/
theorem staged_block_survives_deletion :
    FinishesDeletion .simple .simple .opened noReads
      (Adapter.run .simple .simple .opened noReads {} [createBox, stageInBox, deleteBox]) createBox
      "box" ∧
    ¬ OnlyStagedSince .simple .simple .opened noReads
      (Adapter.run .simple .simple .opened noReads {} [createBox, stageInBox, deleteBox]) [createBox]
      "box" := by
  refine ⟨⟨0, _, 0, rfl, by decide, le_rfl, by decide, by decide⟩, fun h ↦ ?_⟩
  have hlisted : (handleRequest .simple .simple 0 .opened noReads listStaged
      ((Adapter.run .simple .simple .opened noReads {} [createBox, stageInBox, deleteBox]).run .simple
        .simple .opened noReads [createBox])).1 =
      .ok (.blockList [] [("AA==", ⟨"uncommitted-u", 1⟩)]) := by
    decide
  obtain ⟨before, step, after, hsteps, now, req, rfl, hstages, -⟩ :=
    ((h 0 listStaged ['b'] rfl rfl (by decide)).1 (by decide) [] _ _
      (Prod.ext hlisted rfl)).2 _ List.mem_cons_self
  -- The only step since the deletion creates a container.
  have hcreate : Step.request now req ∈ [createBox] := by
    rw [hsteps]
    exact List.mem_append_right _ List.mem_cons_self
  cases List.mem_singleton.1 hcreate
  have hoperation : blobOperation (containerRequest .put []) ≠ .putBlock := by decide
  exact hoperation hstages.1

end Sqrzl.Azure
