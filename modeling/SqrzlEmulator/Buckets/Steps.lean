import SqrzlEmulator.Prog.Faults
import SqrzlEmulator.Storage.Regular

/-!
# The storage calls of a bucket, step by step

`create_bucket`, `get_bucket`, `enable_versioning`, `suspend_versioning` and
`update_bucket_metadata` of the store, as the steps that reach the disk, **each of which can fail**.
A step has a name: the call of the request that it belongs to (`Call`), and what it does there
(`Stage`). Without a failure the calls do what the calls of the vault do (`createBucket_calm` and
the theorems beside it).

The settings of a bucket are its versioning state and its metadata. What a call does to them is said
by cases, one for each way in which it can end. **A failed call may have changed them**: the marker
is written before the objects are, and the metadata before the identity.

The texts of the errors are left out.
-/

namespace Sqrzl.Activation

open Prog Faulty

/-! ### Steps -/

/-- The storage calls that a request makes, by what it makes them for. -/
inductive Call where
  /-- The lookups that a request begins with. -/
  | lookBucket
  | lookObjects
  | lookModes
  /-- `create_bucket` -/
  | create
  /-- The lookup that `create_namespace` ends with. -/
  | readCreated
  /-- `enable_versioning` and `suspend_versioning` -/
  | switch
  /-- The lookup of the metadata that is to be replaced. -/
  | readMetadata
  /-- `update_bucket_metadata` -/
  | writeMetadata
  /-- The lookup that a request ends with. -/
  | readBack
  deriving DecidableEq

/-- The steps of a storage call. -/
inductive Stage where
  /-- What is there is read. -/
  | read
  /-- The directory of a bucket is made. -/
  | directory
  /-- `.bucket.name` is written. -/
  | name
  /-- The identity of a bucket is written. -/
  | identity
  /-- The versioning marker is written. -/
  | marker
  /-- The metadata of an object is written. -/
  | object (key : Text)
  /-- The metadata of a bucket is written. -/
  | metadata
  deriving DecidableEq

/-- A step of a request. -/
structure Step where
  call : Call
  stage : Stage
  deriving DecidableEq

/-- A step that fails. -/
abbrev StorageFault : Type := Fault Step

/-- A store one step of which is going to fail. -/
abbrev World : Type := Faulty Step Vault

/-- The calls of such a store. -/
abbrev StoreOp (α : Type) : Type := Atomic Error World α

/-- What a step fails with. -/
def storageFault : Error := .internalError "storage step failed"

/-- Change a bucket, if there is one. -/
def changeBucket (b : String) (f : Bucket → Bucket) (V : Vault) : Vault :=
  { V with buckets := V.buckets.set b (V.buckets[b]?.map f) }

section Calls

variable (c : Call) (now : Time) (b : String)

/-- A step of the call. -/
def stage (s : Stage) (f : Vault → Vault) : StoreOp Unit := step storageFault ⟨c, s⟩ f

/-- `get_bucket` -/
def getBucket : StoreOp Bucket := do
  let B ← .find .bucketNotFound fun W : World ↦ W.state.buckets[b]?
  stage c .read id
  return B

/-- `create_bucket`, at the time `now`. A bucket whose identity could not be written is removed, but
not one whose name could not be written. -/
def createBucket : StoreOp Unit := do
  .refuseIf (← .view fun W : World ↦ W.state.buckets.contains b) .bucketAlreadyExists
  stage c .directory fun V ↦ { V with buckets := V.buckets.set b (some {}) }
  stage c .name id
  match ← .attempt (ε := Error) (stage c .identity
    (changeBucket b fun B ↦ { B with createdAt := now, modifiedAt := now })) with
  | .ok () => return ()
  | .error e =>
    lift (ε := Error) (.update fun V ↦ { V with buckets := V.buckets.set b none })
    .fail e

/-- `assign_null_version_ids_to_unversioned_objects`, for the objects that are still to come. -/
def assignNullVersionIds : List Text → StoreOp Unit
  | [] => return ()
  | key :: keys => do
    stage c (.object key) (changeBucket b fun B ↦
      { B with objects := B.objects.set key (B.objects[key]?.map (·.assignNullVersionId)) })
    assignNullVersionIds keys

/-- `enable_versioning` and `suspend_versioning`, at the time `now`. -/
def setVersioning (v : VersioningState) : StoreOp Unit := do
  let B ← .find .bucketNotFound fun W : World ↦ W.state.buckets[b]?
  stage c .marker (changeBucket b fun B ↦ { B with versioning := some v })
  stage c .read id
  assignNullVersionIds c b B.objects.keys
  if B.versioning = some v then return ()
  else stage c .identity (changeBucket b fun B ↦ { B with modifiedAt := now })

/-- `update_bucket_metadata`, at the time `now`. -/
def updateBucketMetadata (metadata : Table String String) : StoreOp Unit := do
  let B ← getBucket c b
  if B.metadata = metadata then return ()
  else
    stage c .metadata (changeBucket b fun B ↦ { B with metadata := metadata })
    stage c .identity (changeBucket b fun B ↦ { B with modifiedAt := now })

end Calls

/-! ### Settings -/

/-- The versioning state and the metadata of a bucket. -/
abbrev Settings : Type := Option VersioningState × Table String String

/-- `Bucket`, without what it holds. -/
def ofBucket (B : Bucket) : Settings := (B.versioning, B.metadata)

/-- The settings of the buckets. -/
def settings (V : Vault) (b : String) : Option Settings := V.buckets[b]?.map ofBucket

/-- **The buckets that there are, their versioning states and their metadata are as they were.** -/
def Kept (V V' : Vault) : Prop := ∀ b, settings V' b = settings V b

/-- Nothing is in the bucket. -/
def vacant (B : Bucket) : Bool := B.objects.isEmpty && B.uploads.isEmpty

/-- A bucket has been given settings, and nothing else has been done to it that shows. -/
structure Wrote (V : Vault) (b : String) (s : Settings) (V' : Vault) : Prop where
  others : ∀ b' ≠ b, V'.buckets[b']? = V.buckets[b']?
  target : ∃ B B', V.buckets[b]? = some B ∧ V'.buckets[b]? = some B' ∧ ofBucket B' = s ∧
    vacant B' = vacant B

/-- A bucket that was not there is there, with these settings, and is empty. -/
structure Made (V : Vault) (b : String) (s : Settings) (V' : Vault) : Prop where
  absent : V.buckets[b]? = none
  others : ∀ b' ≠ b, V'.buckets[b']? = V.buckets[b']?
  target : ∃ B', V'.buckets[b]? = some B' ∧ ofBucket B' = s ∧ vacant B'

section Settings

variable {V V' V'' : Vault} {b : String} {s s' : Settings} {B : Bucket} {f : Bucket → Bucket}

theorem Kept.refl : Kept V V := fun _ ↦ rfl

theorem changeBucket_getElem? (b' : String) :
    (changeBucket b f V).buckets[b']? =
      if b' = b then V.buckets[b]?.map f else V.buckets[b']? := by
  rw [changeBucket, Table.getElem?_set]

/-- A change that leaves what is in a bucket gives the bucket its settings. -/
theorem wrote_changeBucket (hB : V.buckets[b]? = some B) (hvacant : vacant (f B) = vacant B) :
    Wrote V b (ofBucket (f B)) (changeBucket b f V) where
  others b' hne := by rw [changeBucket_getElem?, if_neg hne]
  target := ⟨B, f B, hB, by rw [changeBucket_getElem?, if_pos rfl, hB]; rfl, rfl, hvacant⟩

/-- One change after the other. -/
theorem Wrote.trans (h : Wrote V b s V') (h' : Wrote V' b s' V'') : Wrote V b s' V'' := by
  obtain ⟨B, B₁, hB, hB₁, -, hvacant⟩ := h.target
  obtain ⟨B₁', B₂, hB₁', hB₂, hs, hvacant'⟩ := h'.target
  obtain rfl : B₁' = B₁ := Option.some.inj (hB₁'.symm.trans hB₁)
  exact ⟨fun b' hne ↦ (h'.others b' hne).trans (h.others b' hne),
    B, B₂, hB, hB₂, hs, hvacant'.trans hvacant⟩

/-- A bucket can be given the settings that it has. -/
theorem Wrote.self (hB : V.buckets[b]? = some B) : Wrote V b (ofBucket B) V :=
  ⟨fun _ _ ↦ rfl, B, B, hB, hB, rfl, rfl⟩

/-- **The settings are kept exactly where a bucket is given those that it had.** -/
theorem Wrote.kept_iff (h : Wrote V b s V') (hB : V.buckets[b]? = some B) :
    Kept V V' ↔ ofBucket B = s := by
  obtain ⟨B₀, B', hB₀, hB', hs, -⟩ := h.target
  obtain rfl : B₀ = B := Option.some.inj (hB₀.symm.trans hB)
  constructor
  · intro hkept
    have hb := hkept b
    rw [settings, settings, hB', hB₀, Option.map_some, Option.map_some, hs] at hb
    exact (Option.some.inj hb).symm
  · intro hs' b'
    rcases eq_or_ne b' b with rfl | hne
    · rw [settings, settings, hB', hB₀, Option.map_some, Option.map_some, hs, hs']
    · rw [settings, settings, h.others b' hne]

theorem Made.wrote (h : Made V b s V') (h' : Wrote V' b s' V'') : Made V b s' V'' := by
  obtain ⟨B₁, hB₁, -, hvacant⟩ := h.target
  obtain ⟨B₁', B₂, hB₁', hB₂, hs, hvacant'⟩ := h'.target
  obtain rfl : B₁' = B₁ := Option.some.inj (hB₁'.symm.trans hB₁)
  exact ⟨h.absent, fun b' hne ↦ (h'.others b' hne).trans (h.others b' hne), B₂, hB₂, hs,
    hvacant'.trans hvacant⟩

/-- A bucket that was made has not been there. -/
theorem Made.not_kept (h : Made V b s V') : ¬ Kept V V' := by
  intro hkept
  obtain ⟨B, hB, -⟩ := h.target
  have hb := hkept b
  rw [settings, settings, hB, h.absent] at hb
  cases hb

/-- **To remove a bucket that was made undoes its making.** -/
theorem Made.removed (h : Made V b s V') :
    Kept V { V' with buckets := V'.buckets.set b none } := by
  intro b'
  rw [settings, settings, Table.getElem?_set]
  rcases eq_or_ne b' b with rfl | hne
  · rw [if_pos rfl, h.absent]
  · rw [if_neg hne, h.others b' hne]

/-- A bucket that was made can be deleted. -/
theorem Made.deleteBucket (h : Made V b s V') :
    Vault.deleteBucket b V' = (.ok (), { V' with buckets := V'.buckets.set b none }) := by
  obtain ⟨B, hB, -, hvacant⟩ := h.target
  have hempty : ¬ (!(B.objects.isEmpty && B.uploads.isEmpty)) = true := by
    rw [vacant] at hvacant
    simp [hvacant]
  rw [Vault.deleteBucket, Vault.getBucket_bind_of_some hB]
  exact Atomic.refuseIf_bind_of_not hempty

end Settings

/-! ### What the calls do -/

/-- The creation of a bucket fails at a step that leaves no bucket: the directory was not made, or
it was removed again. -/
def Uncreated (x : StorageFault) : Prop :=
  x.step.stage = .identity ∨ (x.step.stage = .directory ∧ x.done = false)

/-- The versioning state is as it was, since the marker was not written. -/
def Unmarked (x : StorageFault) : Prop := x.step.stage = .marker ∧ x.done = false

/-- The metadata are as they were, since they were not written. -/
def Unwritten (x : StorageFault) : Prop :=
  x.step.stage = .read ∨ (x.step.stage = .metadata ∧ x.done = false)

section Calls

variable {c : Call} {now : Time} {b : String} {W : World}

/-- A step of a call is made, or it is the one that fails. -/
theorem stage_cases (c : Call) (s : Stage) (f : Vault → Vault) (W : World) :
    stage c s f W = (.ok (), W.withState (f W.state)) ∨
      ∃ x, W.fault = some x ∧ x.step = ⟨c, s⟩ ∧
        stage c s f W =
          (.error storageFault, ⟨if x.done then f W.state else W.state, none, true⟩) :=
  step_cases

/-- **A lookup changes nothing**, whether it finds a bucket, finds none, or fails. -/
theorem getBucket_cases (c : Call) (b : String) (W : World) :
    (W.state.buckets[b]? = none ∧ getBucket c b W = (.error .bucketNotFound, W)) ∨
    (∃ B, W.state.buckets[b]? = some B ∧ getBucket c b W = (.ok B, W)) ∨
    ∃ B x, W.state.buckets[b]? = some B ∧ W.fault = some x ∧ x.step = ⟨c, .read⟩ ∧
      getBucket c b W = (.error storageFault, ⟨W.state, none, true⟩) := by
  rw [getBucket]
  rcases hB : W.state.buckets[b]? with - | B
  · exact Or.inl ⟨rfl, Atomic.find_bind_of_none (g := fun W : World ↦ W.state.buckets[b]?) hB⟩
  · rw [Atomic.find_bind_of_some (g := fun W : World ↦ W.state.buckets[b]?) hB]
    rcases stage_cases c .read id W with h | ⟨x, hx, hstep, h⟩
    · exact Or.inr (Or.inl ⟨B, rfl, Atomic.bind_of_ok h⟩)
    · refine Or.inr (Or.inr ⟨B, x, rfl, hx, hstep, ?_⟩)
      rw [Atomic.bind_of_error h, id, ite_self]

/-- **The creation of a bucket** ends with a bucket, with none, or with the directory of one. -/
theorem createBucket_cases (c : Call) (now : Time) (b : String) (W : World) :
    createBucket c now b W = (.error .bucketAlreadyExists, W) ∨
    (∃ V', Made W.state b (none, ∅) V' ∧ createBucket c now b W = (.ok (), W.withState V')) ∨
    ∃ x V', W.fault = some x ∧ x.step.call = c ∧ (Kept W.state V' ↔ Uncreated x) ∧
      createBucket c now b W = (.error storageFault, ⟨V', none, true⟩) := by
  rw [createBucket, Atomic.view_bind]
  by_cases hin : W.state.buckets.contains b
  · exact Or.inl (Atomic.refuseIf_bind_of hin)
  have hnone : W.state.buckets[b]? = none := by
    rw [← Option.not_isSome_iff_eq_none, Std.ExtTreeMap.isSome_getElem?_iff_mem,
      Std.ExtTreeMap.mem_iff_contains]
    exact hin
  rw [Atomic.refuseIf_bind_of_not hin]
  set V₁ : Vault := { W.state with buckets := W.state.buckets.set b (some {}) } with hV₁
  have hV₁b : V₁.buckets[b]? = some {} := by rw [hV₁, Table.getElem?_set, if_pos rfl]
  have hmade : Made W.state b (none, ∅) V₁ :=
    ⟨hnone, fun b' hne ↦ by rw [hV₁, Table.getElem?_set, if_neg hne], {}, hV₁b, rfl, rfl⟩
  have hidentity : Wrote V₁ b (none, ∅)
      (changeBucket b (fun B ↦ { B with createdAt := now, modifiedAt := now }) V₁) :=
    wrote_changeBucket (f := fun B ↦ { B with createdAt := now, modifiedAt := now }) hV₁b rfl
  rcases stage_cases c .directory (fun V ↦ { V with buckets := V.buckets.set b (some {}) }) W with
    h | ⟨x, hx, hstep, h⟩
  · rw [Atomic.bind_of_ok h]
    rcases stage_cases c .name id (W.withState V₁) with h' | ⟨x, hx, hstep, h'⟩
    · rw [Atomic.bind_of_ok h', Atomic.attempt_bind]
      rcases stage_cases c .identity (changeBucket b fun B ↦
        { B with createdAt := now, modifiedAt := now }) (W.withState V₁) with
          h'' | ⟨x, hx, hstep, h''⟩
      · rw [id, state_withState, withState_withState, h'']
        exact Or.inr (Or.inl ⟨_, hmade.wrote hidentity, rfl⟩)
      · rw [id, state_withState, withState_withState, h'']
        have hmade' : Made W.state b (none, ∅) (if x.done then changeBucket b (fun B ↦
            { B with createdAt := now, modifiedAt := now }) V₁ else V₁) := by
          split
          · exact hmade.wrote hidentity
          · exact hmade
        exact Or.inr (Or.inr ⟨x, _, hx, by rw [hstep], iff_of_true hmade'.removed
          (Or.inl (by rw [hstep])), rfl⟩)
    · refine Or.inr (Or.inr ⟨x, V₁, hx, by rw [hstep], iff_of_false hmade.not_kept ?_, ?_⟩)
      · rintro (hs | ⟨hs, -⟩)
        · rw [hstep] at hs
          cases hs
        · rw [hstep] at hs
          cases hs
      · rw [Atomic.bind_of_error h', id, ite_self]
        rfl
  · refine Or.inr (Or.inr ⟨x, _, hx, by rw [hstep], ?_, Atomic.bind_of_error h⟩)
    cases hdone : x.done with
    | false => exact iff_of_true Kept.refl (Or.inr ⟨by rw [hstep], hdone⟩)
    | true =>
      refine iff_of_false hmade.not_kept ?_
      rintro (hs | ⟨-, hs⟩)
      · rw [hstep] at hs
        cases hs
      · rw [hdone] at hs
        cases hs

theorem isEmpty_changeObject (objects : Table Text KeyRecord) (key : Text)
    (f : KeyRecord → KeyRecord) :
    (objects.set key (objects[key]?.map f)).isEmpty = objects.isEmpty := by
  rw [Bool.eq_iff_iff, Std.ExtTreeMap.isEmpty_iff, Std.ExtTreeMap.isEmpty_iff, Table.eq_empty_iff,
    Table.eq_empty_iff]
  refine forall_congr' fun key' ↦ not_congr ?_
  rw [Table.getElem?_set]
  split
  · next h => rw [h, Option.isSome_map]
  · rfl

/-- **The objects are rewritten one by one**, which does not show in the settings, however far it
gets. -/
theorem assignNullVersionIds_cases (c : Call) (b : String) (keys : List Text) :
    ∀ {W : World} {B : Bucket}, W.state.buckets[b]? = some B →
      (∃ V', Wrote W.state b (ofBucket B) V' ∧
        assignNullVersionIds c b keys W = (.ok (), W.withState V')) ∨
      ∃ x key V', W.fault = some x ∧ x.step = ⟨c, .object key⟩ ∧ Wrote W.state b (ofBucket B) V' ∧
        assignNullVersionIds c b keys W = (.error storageFault, ⟨V', none, true⟩) := by
  induction keys with
  | nil => exact fun {W B} hB ↦ Or.inl ⟨W.state, .self hB, rfl⟩
  | cons key keys ih =>
    intro W B hB
    let f : Bucket → Bucket := fun B ↦
      { B with objects := B.objects.set key (B.objects[key]?.map (·.assignNullVersionId)) }
    have hf : Wrote W.state b (ofBucket B) (changeBucket b f W.state) := by
      refine wrote_changeBucket (f := f) hB ?_
      rw [vacant, vacant, isEmpty_changeObject]
    rw [assignNullVersionIds]
    rcases stage_cases c (.object key) (changeBucket b f) W with h | ⟨x, hx, hstep, h⟩
    · rw [Atomic.bind_of_ok h]
      have hB' : (W.withState (changeBucket b f W.state)).state.buckets[b]? = some (f B) := by
        rw [state_withState, changeBucket_getElem?, if_pos rfl, hB]
        rfl
      rcases ih hB' with ⟨V', hV', h'⟩ | ⟨x, key', V', hx, hstep, hV', h'⟩
      · exact Or.inl ⟨V', hf.trans hV', h'⟩
      · exact Or.inr ⟨x, key', V', hx, hstep, hf.trans hV', h'⟩
    · refine Or.inr ⟨x, key, _, hx, hstep, ?_, Atomic.bind_of_error h⟩
      split
      · exact hf
      · exact .self hB

/-- **The switch of the versioning state** may fail when the state has been switched. -/
theorem setVersioning_cases (c : Call) (now : Time) (b : String) (v : VersioningState) (W : World) :
    (W.state.buckets[b]? = none ∧ setVersioning c now b v W = (.error .bucketNotFound, W)) ∨
    (∃ B V', W.state.buckets[b]? = some B ∧ Wrote W.state b (some v, B.metadata) V' ∧
      setVersioning c now b v W = (.ok (), W.withState V')) ∨
    ∃ B x V', W.state.buckets[b]? = some B ∧ W.fault = some x ∧ x.step.call = c ∧
      ((Unmarked x ∧ V' = W.state) ∨ (¬ Unmarked x ∧ Wrote W.state b (some v, B.metadata) V')) ∧
      setVersioning c now b v W = (.error storageFault, ⟨V', none, true⟩) := by
  rw [setVersioning]
  rcases hB : W.state.buckets[b]? with - | B
  · exact Or.inl ⟨rfl, Atomic.find_bind_of_none (g := fun W : World ↦ W.state.buckets[b]?) hB⟩
  refine Or.inr ?_
  rw [Atomic.find_bind_of_some (g := fun W : World ↦ W.state.buckets[b]?) hB]
  let f : Bucket → Bucket := fun B ↦ { B with versioning := some v }
  have hf : Wrote W.state b (some v, B.metadata) (changeBucket b f W.state) :=
    wrote_changeBucket (f := f) hB rfl
  rcases stage_cases c .marker (changeBucket b f) W with h | ⟨x, hx, hstep, h⟩
  -- The marker has been written, and every later failure leaves the new state.
  · have hlate : ∀ {x : StorageFault} {s : Stage}, x.step = ⟨c, s⟩ → s ≠ .marker →
        ¬ Unmarked x := by
      rintro x s hstep hs ⟨hmarker, -⟩
      rw [hstep] at hmarker
      exact hs hmarker
    rw [Atomic.bind_of_ok h]
    rcases stage_cases c .read id (W.withState (changeBucket b f W.state)) with
      h' | ⟨x, hx, hstep, h'⟩
    · rw [Atomic.bind_of_ok h', id, state_withState, withState_withState]
      have hB' : (W.withState (changeBucket b f W.state)).state.buckets[b]? = some (f B) := by
        rw [state_withState, changeBucket_getElem?, if_pos rfl, hB]
        rfl
      rcases assignNullVersionIds_cases c b B.objects.keys hB' with
        ⟨V', hV', h''⟩ | ⟨x, key, V', hx, hstep, hV', h''⟩
      · rw [Atomic.bind_of_ok h'', withState_withState]
        have hall : Wrote W.state b (some v, B.metadata) V' := hf.trans hV'
        by_cases hsame : B.versioning = some v
        · rw [if_pos hsame]
          exact Or.inl ⟨B, V', rfl, hall, rfl⟩
        · rw [if_neg hsame]
          obtain ⟨-, B', -, hB'', hs, -⟩ := hall.target
          have hlast : Wrote W.state b (some v, B.metadata)
              (changeBucket b (fun B ↦ { B with modifiedAt := now }) V') := by
            refine hall.trans ?_
            rw [← hs]
            exact wrote_changeBucket (f := fun B ↦ { B with modifiedAt := now }) hB'' rfl
          rcases stage_cases c .identity (changeBucket b fun B ↦ { B with modifiedAt := now })
            (W.withState V') with h₃ | ⟨x, hx, hstep, h₃⟩
          · exact Or.inl ⟨B, _, rfl, hlast, h₃⟩
          · refine Or.inr ⟨B, x, _, rfl, hx, by rw [hstep],
              Or.inr ⟨hlate hstep (by decide), ?_⟩, h₃⟩
            split
            · exact hlast
            · exact hall
      · exact Or.inr ⟨B, x, V', rfl, hx, by rw [hstep],
          Or.inr ⟨hlate hstep (fun heq ↦ by cases heq), hf.trans hV'⟩, Atomic.bind_of_error h''⟩
    · refine Or.inr ⟨B, x, _, rfl, hx, by rw [hstep], Or.inr ⟨hlate hstep (by decide), ?_⟩,
        Atomic.bind_of_error h'⟩
      rw [id, ite_self]
      exact hf
  · refine Or.inr ⟨B, x, _, rfl, hx, by rw [hstep], ?_, Atomic.bind_of_error h⟩
    cases hdone : x.done with
    | false => exact Or.inl ⟨⟨by rw [hstep], hdone⟩, rfl⟩
    | true =>
      refine Or.inr ⟨?_, hf⟩
      rintro ⟨-, hfalse⟩
      rw [hdone] at hfalse
      cases hfalse

/-- **The update of the metadata** may fail when the metadata have been written; it writes only
metadata that are not there yet. -/
theorem updateBucketMetadata_cases (c : Call) (now : Time) (b : String)
    (metadata : Table String String) (W : World) :
    (W.state.buckets[b]? = none ∧
      updateBucketMetadata c now b metadata W = (.error .bucketNotFound, W)) ∨
    (∃ B V', W.state.buckets[b]? = some B ∧ Wrote W.state b (B.versioning, metadata) V' ∧
      updateBucketMetadata c now b metadata W = (.ok (), W.withState V')) ∨
    ∃ B x V', W.state.buckets[b]? = some B ∧ W.fault = some x ∧ x.step.call = c ∧
      ((Unwritten x ∧ V' = W.state) ∨
        (¬ Unwritten x ∧ B.metadata ≠ metadata ∧ Wrote W.state b (B.versioning, metadata) V')) ∧
      updateBucketMetadata c now b metadata W = (.error storageFault, ⟨V', none, true⟩) := by
  rw [updateBucketMetadata]
  rcases getBucket_cases c b W with ⟨hB, h⟩ | ⟨B, hB, h⟩ | ⟨B, x, hB, hx, hstep, h⟩
  · exact Or.inl ⟨hB, Atomic.bind_of_error h⟩
  · refine Or.inr ?_
    rw [Atomic.bind_of_ok h]
    by_cases hsame : B.metadata = metadata
    · rw [if_pos hsame, ← hsame]
      exact Or.inl ⟨B, W.state, hB, .self hB, rfl⟩
    rw [if_neg hsame]
    let f : Bucket → Bucket := fun B ↦ { B with metadata := metadata }
    have hf : Wrote W.state b (B.versioning, metadata) (changeBucket b f W.state) :=
      wrote_changeBucket (f := f) hB rfl
    rcases stage_cases c .metadata (changeBucket b f) W with h' | ⟨x, hx, hstep, h'⟩
    · rw [Atomic.bind_of_ok h']
      obtain ⟨-, B', -, hB', hs, -⟩ := hf.target
      have hlast : Wrote W.state b (B.versioning, metadata)
          (changeBucket b (fun B ↦ { B with modifiedAt := now }) (changeBucket b f W.state)) := by
        refine hf.trans ?_
        rw [← hs]
        exact wrote_changeBucket (f := fun B ↦ { B with modifiedAt := now }) hB' rfl
      rcases stage_cases c .identity (changeBucket b fun B ↦ { B with modifiedAt := now })
        (W.withState (changeBucket b f W.state)) with h'' | ⟨x, hx, hstep, h''⟩
      · exact Or.inl ⟨B, _, hB, hlast, h''⟩
      · refine Or.inr ⟨B, x, _, hB, hx, by rw [hstep], Or.inr ⟨?_, hsame, ?_⟩, h''⟩
        · rintro (hs' | ⟨hs', -⟩)
          · rw [hstep] at hs'
            cases hs'
          · rw [hstep] at hs'
            cases hs'
        · split
          · exact hlast
          · exact hf
    · refine Or.inr ⟨B, x, _, hB, hx, by rw [hstep], ?_, Atomic.bind_of_error h'⟩
      cases hdone : x.done with
      | false => exact Or.inl ⟨Or.inr ⟨by rw [hstep], hdone⟩, rfl⟩
      | true =>
        refine Or.inr ⟨?_, hsame, hf⟩
        rintro (hs | ⟨-, hfalse⟩)
        · rw [hstep] at hs
          cases hs
        · rw [hdone] at hfalse
          cases hfalse
  · exact Or.inr (Or.inr ⟨B, x, W.state, hB, hx, by rw [hstep],
      Or.inl ⟨Or.inl (by rw [hstep]), rfl⟩, Atomic.bind_of_error h⟩)

end Calls

/-! ### Where nothing fails -/

section Calm

variable {c : Call} {now : Time} {b : String} {W : World}

theorem stage_bind_calm {α : Type} {s : Stage} {f : Vault → Vault} {g : Unit → StoreOp α}
    (h : W.fault = none) : (stage c s f >>= g) W = g () (W.withState (f W.state)) :=
  step_bind_of_none h

theorem getBucket_calm (h : W.fault = none) : getBucket c b W = lift (Vault.getBucket b) W := by
  rcases getBucket_cases c b W with ⟨hB, h'⟩ | ⟨B, hB, h'⟩ | ⟨B, x, hB, hx, hstep, h'⟩
  · rw [h', lift, Vault.getBucket, Atomic.find, hB, withState_state]
  · rw [h', lift, Vault.getBucket, Atomic.find, hB, withState_state]
  · rw [h] at hx
    cases hx

theorem createBucket_calm (h : W.fault = none) :
    createBucket c now b W = lift (Vault.createBucket now b) W := by
  rw [createBucket, Atomic.view_bind, lift, Vault.createBucket, Atomic.view_bind]
  by_cases hin : W.state.buckets.contains b
  · rw [Atomic.refuseIf_bind_of hin, Atomic.refuseIf_bind_of hin, withState_state]
  have hW : ∀ V, (W.withState V).fault = none := fun _ ↦ h
  rw [Atomic.refuseIf_bind_of_not hin, Atomic.refuseIf_bind_of_not hin, stage_bind_calm h,
    stage_bind_calm (hW _), withState_withState, Atomic.attempt_bind, stage, step_of_none (hW _),
    changeBucket]
  simp only [id, state_withState, withState_withState, Table.getElem?_set, if_pos, Option.map_some,
    Table.set_set]
  rfl

theorem assignNullVersionIds_calm (keys : List Text) :
    ∀ {W : World} {B : Bucket}, W.fault = none → keys.Nodup → W.state.buckets[b]? = some B →
      ∃ objects, assignNullVersionIds c b keys W = (.ok (), W.withState
        { W.state with buckets := W.state.buckets.set b (some { B with objects := objects }) }) ∧
        ∀ key, objects[key]? =
          if key ∈ keys then B.objects[key]?.map (·.assignNullVersionId) else B.objects[key]? := by
  induction keys with
  | nil =>
    intro W B _ _ hB
    refine ⟨B.objects, ?_, fun key ↦ (if_neg List.not_mem_nil).symm⟩
    rw [Table.set_eq_self W.state.buckets hB]
    rfl
  | cons key keys ih =>
    intro W B h hnodup hB
    obtain ⟨hnew, hnodup⟩ := List.nodup_cons.1 hnodup
    let B₁ : Bucket :=
      { B with objects := B.objects.set key (B.objects[key]?.map (·.assignNullVersionId)) }
    let V₁ : Vault := { W.state with buckets := W.state.buckets.set b (some B₁) }
    have hB₁ : (W.withState V₁).state.buckets[b]? = some B₁ := by
      rw [state_withState, Table.getElem?_set, if_pos rfl]
    obtain ⟨objects, hrun, hobjects⟩ := ih (W := W.withState V₁) h hnodup hB₁
    refine ⟨objects, ?_, fun key' ↦ ?_⟩
    · rw [assignNullVersionIds, stage_bind_calm h, changeBucket, hB]
      refine Eq.trans hrun ?_
      rw [state_withState, withState_withState, Table.set_set]
    · rw [hobjects key', Table.getElem?_set]
      rcases eq_or_ne key' key with rfl | hne
      · rw [if_neg hnew, if_pos rfl, if_pos List.mem_cons_self]
      · rw [if_neg hne]
        exact if_congr (by rw [List.mem_cons, or_iff_right hne]) rfl rfl

theorem setVersioning_calm {v : VersioningState} (h : W.fault = none) :
    setVersioning c now b v W = lift (Vault.setVersioning now b v) W := by
  rw [lift]
  rcases hB : W.state.buckets[b]? with - | B
  · rw [Vault.setVersioning_of_none hB, setVersioning, withState_state]
    exact Atomic.find_bind_of_none (g := fun W : World ↦ W.state.buckets[b]?) hB
  have hW : ∀ V, (W.withState V).fault = none := fun _ ↦ h
  rw [Vault.setVersioning_eq hB, setVersioning,
    Atomic.find_bind_of_some (g := fun W : World ↦ W.state.buckets[b]?) hB, stage_bind_calm h,
    stage_bind_calm (hW _), id, state_withState, withState_withState]
  let B₁ : Bucket := { B with versioning := some v }
  have hV₁ : changeBucket b (fun B ↦ { B with versioning := some v }) W.state =
      { W.state with buckets := W.state.buckets.set b (some B₁) } := by
    rw [changeBucket, hB]
    rfl
  rw [hV₁]
  obtain ⟨objects, hrun, hobjects⟩ := assignNullVersionIds_calm (c := c) (b := b)
    (W := W.withState { W.state with buckets := W.state.buckets.set b (some B₁) }) (B := B₁)
    B.objects.keys h (Table.nodup_keys B.objects)
    (by rw [state_withState, Table.getElem?_set, if_pos rfl])
  have hall : objects = B.objects.map fun _ e ↦ e.assignNullVersionId := by
    refine Std.ExtTreeMap.ext_getElem? fun key ↦ ?_
    rw [hobjects key, Std.ExtTreeMap.getElem?_map]
    split
    · rfl
    · next hkey =>
      rw [Table.mem_keys, Option.not_isSome_iff_eq_none] at hkey
      exact hkey.trans (by rw [hkey, Option.map_none])
  rw [Atomic.bind_of_ok hrun, state_withState, withState_withState, Table.set_set, hall]
  by_cases hsame : B.versioning = some v
  · rw [if_pos hsame, if_pos hsame]
    rfl
  · rw [if_neg hsame, if_neg hsame, stage, step_of_none (hW _), changeBucket]
    simp only [state_withState, withState_withState, Table.getElem?_set, if_pos, Option.map_some,
      Table.set_set]
    rfl

theorem updateBucketMetadata_calm {metadata : Table String String} (h : W.fault = none) :
    updateBucketMetadata c now b metadata W =
      lift (Vault.updateBucketMetadata now b metadata) W := by
  rw [lift]
  rcases hB : W.state.buckets[b]? with - | B
  · rcases updateBucketMetadata_cases c now b metadata W with ⟨-, hrun⟩ | ⟨B, V', hB', -⟩ |
      ⟨B, x, V', hB', -⟩
    · rw [hrun, Vault.updateBucketMetadata, Vault.getBucket_bind_of_none hB, withState_state]
    · rw [hB] at hB'
      cases hB'
    · rw [hB] at hB'
      cases hB'
  have hget : getBucket c b W = (.ok B, W) := by
    rw [getBucket_calm h, lift, Vault.getBucket, Atomic.find, hB, withState_state]
  rw [Vault.updateBucketMetadata, Vault.getBucket_bind_of_some hB, updateBucketMetadata,
    Atomic.bind_of_ok hget, Vault.setBucket, Atomic.update]
  by_cases hsame : B.metadata = metadata
  · rw [if_pos hsame, if_pos hsame, ← hsame, Table.set_eq_self W.state.buckets hB]
    rfl
  · have hW : ∀ V, (W.withState V).fault = none := fun _ ↦ h
    rw [if_neg hsame, if_neg hsame, stage_bind_calm h, stage, step_of_none (hW _), changeBucket,
      changeBucket]
    simp only [state_withState, withState_withState, Table.getElem?_set, if_pos, Option.map_some,
      Table.set_set, hB]

end Calm

end Sqrzl.Activation
