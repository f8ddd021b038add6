import SqrzlEmulator.Storage.Records

/-!
# Stores in which every version has its own identity

What the operations of the store do to the versions of all keys (`Vault.Regular`), and to one
version that somebody wants to keep (`Vault.Holds`). **An operation only touches the key that it is
for**, so that a version of another key is where it was; a version of this key stays unless the
operation is one that takes it away.
-/

namespace Sqrzl

open Prog Atomic

namespace Vault

/-- **Every key of every bucket is regular.** -/
def Regular (E : Env) (V : Vault) : Prop :=
  ∀ (b : String) (B : Bucket), V.buckets[b]? = some B →
    ∀ key, (B.record key).Regular E B.versioning V.drawn key

/-- A version of a key of a bucket. -/
def Holds (P : Table String String → Prop) (b : String) (key : Text) (id : Option String)
    (data : Bytes) (V : Vault) : Prop :=
  (V.record b key).Holds P id data

variable {E : Env} {V V' : Vault} {b b' : String} {key key' : Text} {B : Bucket} {e : KeyRecord}
  {o : Object} {data data' : Bytes} {n : ℕ} {now : Time} {P : Table String String → Prop}
  {id : Option String}

theorem Regular.empty : Regular E {} := fun b B h ↦ by simp at h

theorem Regular.record (h : V.Regular E) (hB : V.buckets[b]? = some B) :
    (V.record b key).Regular E B.versioning V.drawn key := by
  rw [record_eq hB]
  exact h b B hB key

/-- A bucket that is replaced, where its keys are regular. -/
theorem Regular.set (h : V.Regular E) {B' : Option Bucket} (hn : V.drawn ≤ n)
    (hB' : ∀ B, B' = some B → ∀ key, (B.record key).Regular E B.versioning n key) :
    Regular E { buckets := V.buckets.set b B', drawn := n } := by
  intro b' B hB key
  replace hB : (V.buckets.set b B')[b']? = some B := hB
  rw [Table.getElem?_set] at hB
  split at hB
  · exact hB' B hB key
  · exact (h b' B hB key).mono hn

theorem Regular.draw (h : V.Regular E) (hn : V.drawn ≤ n) : (V.draw n).Regular E :=
  fun b B hB key ↦ (h b B hB key).mono hn

theorem Regular.setRecord (h : V.Regular E) (hB : V.buckets[b]? = some B) (hn : V.drawn ≤ n)
    (he : e.Regular E B.versioning n key) : ((V.setRecord b key e).draw n).Regular E := by
  refine h.set hn fun B' hB' key' ↦ ?_
  rw [hB] at hB'
  cases hB'
  rw [Bucket.record_setRecord]
  split
  · next hkey =>
    subst hkey
    exact he
  · exact (h b B hB key').mono hn

/-- What is held elsewhere is not touched. -/
theorem Holds.setRecord (h : V.Holds P b key id data) (hB : V.buckets[b']? = some B)
    (he : b = b' → key = key' → e.Holds P id data) :
    ((V.setRecord b' key' e).draw n).Holds P b key id data := by
  rw [Holds, record_draw, record_setRecord hB]
  split
  · next hsame => exact he hsame.1 hsame.2
  · exact h

/-! ### Operations -/

/-- A write whose size is right leaves a regular store. -/
theorem Regular.putObject (h : V.Regular E) (ho : KeyRecord.Fits key (data, o)) :
    (putObject E b key o data V).2.Regular E := by
  unfold Vault.putObject
  cases hB : V.buckets[b]? with
  | none => exact h
  | some B =>
    dsimp only
    rw [if_neg (not_not.2 ho.2.symm)]
    exact h.setRecord hB KeyRecord.le_drawnFor ((h b B hB key).put ho)

theorem Holds.putObject (hP : ¬ P KeyRecord.markerMetadata) (h : V.Regular E)
    (hold : V.Holds P b key id data) (ho : data'.length = o.size)
    (hkept : b = b' → key = key' → V.buckets[b]?.bind (·.versioning) = some .enabled ∨
      ∀ o, (V.record b key).current = some (data, o) → o.versionId = id → ¬ P o.providerMetadata) :
    (putObject E b' key' o data' V).2.Holds P b key id data := by
  unfold Vault.putObject
  cases hB : V.buckets[b']? with
  | none => exact hold
  | some B =>
    dsimp only
    rw [if_neg (not_not.2 ho)]
    refine hold.setRecord hB fun hb hkey ↦ ?_
    subst hb hkey
    rw [hB, record_eq hB] at hkept
    rw [Holds, record_eq hB] at hold
    exact (h b B hB key).holds_put hP hold (hkept rfl rfl)

theorem Regular.deleteObject (h : V.Regular E) : (deleteObject E now b key V).2.Regular E := by
  unfold Vault.deleteObject
  cases hB : V.buckets[b]? with
  | none =>
    dsimp only [Option.bind_none]
    split
    · exact h
    · intro b' B' hB'
      replace hB' : (V.buckets.set b (V.buckets[b]?.map _))[b']? = some B' := hB'
      rw [hB, Option.map_none, Table.set_eq_self _ hB] at hB'
      exact h b' B' hB'
  | some B =>
    rw [Option.bind_some]
    cases hv : B.versioning with
    | none =>
      dsimp only
      split
      · exact h
      · exact h.setRecord (n := V.drawn) hB le_rfl KeyRecord.Regular.empty
    | some v =>
      dsimp only
      have hregular := h b B hB key
      rw [hv] at hregular
      refine h.setRecord hB KeyRecord.le_drawnFor ?_
      rw [hv, record_eq hB]
      refine hregular.delete ?_
      cases v with
      | enabled => rfl
      | suspended => rfl

theorem Holds.deleteObject (hP : ¬ P KeyRecord.markerMetadata) (h : V.Regular E)
    (hold : V.Holds P b key id data)
    (hkept : b = b' → key = key' → V.buckets[b]?.bind (·.versioning) = some .enabled ∨
      ∀ o, (V.record b key).current = some (data, o) → o.versionId = id → ¬ P o.providerMetadata) :
    (deleteObject E now b' key' V).2.Holds P b key id data := by
  unfold Vault.deleteObject
  cases hB : V.buckets[b']? with
  | none =>
    dsimp only [Option.bind_none]
    split
    · exact hold
    · rw [Holds, Vault.record, Vault.setRecord, hB, Option.map_none, Table.set_eq_self _ hB]
      exact hold
  | some B =>
    rw [Option.bind_some]
    cases hv : B.versioning with
    | none =>
      dsimp only
      split
      · exact hold
      · refine hold.setRecord (n := V.drawn) hB fun hb hkey ↦ ?_
        subst hb hkey
        have hregular := h b B hB key
        rw [hv] at hregular
        rw [hB, Option.bind_some, hv] at hkept
        rcases hkept rfl rfl with hcases | hnot
        · cases hcases
        · rw [Holds, record_eq hB] at hold
          rw [record_eq hB] at hnot
          obtain ⟨i, o, -, -, hversion, -⟩ := hregular.holds_snapshot hP hold (Or.inr hnot)
          have hempty := hregular.unversioned rfl
          simp [KeyRecord.snapshot, hempty] at hversion
    | some v =>
      dsimp only
      refine hold.setRecord hB fun hb hkey ↦ ?_
      subst hb hkey
      have hregular := h b B hB key
      rw [hv] at hregular
      rw [hB, Option.bind_some, hv, record_eq hB] at hkept
      rw [Holds, record_eq hB] at hold
      rw [record_eq hB]
      refine hregular.holds_delete hP hold ((hkept rfl rfl).imp_left Option.some.inj) ?_
      cases v with
      | enabled => rfl
      | suspended => rfl

/-- A delete makes nothing current. -/
theorem current_of_deleteObject {st : Stored}
    (h : ((Vault.deleteObject E now b' key' V).2.record b key).current = some st) :
    (V.record b key).current = some st := by
  unfold Vault.deleteObject at h
  cases hB : V.buckets[b']? with
  | none =>
    rw [hB] at h
    dsimp only [Option.bind_none] at h
    split at h
    · exact h
    · rw [record, Vault.setRecord, hB, Option.map_none, Table.set_eq_self _ hB] at h
      exact h
  | some B =>
    rw [hB, Option.bind_some] at h
    cases hv : B.versioning with
    | none =>
      rw [hv] at h
      dsimp only at h
      split at h
      · exact h
      · rw [record_setRecord hB] at h
        split at h
        · cases h
        · exact h
    | some v =>
      rw [hv] at h
      dsimp only at h
      rw [record_draw, record_setRecord hB] at h
      split at h
      · cases h
      · exact h

/-- A conditional operation is the operation, or nothing. -/
theorem mutateIf_cases (c : ObjectCondition) (mutation : VaultOp Unit) :
    (mutateIf b key c mutation V).2 = (mutation V).2 ∨ (mutateIf b key c mutation V).2 = V := by
  rw [mutateIf, Atomic.view_bind]
  split
  · refine Or.inl ?_
    rw [Atomic.bind_eq, Atomic.bind]
    rcases mutation V with ⟨e | u, t⟩
    · rfl
    · rfl
  · exact Or.inr rfl

/-- The deletion of a version succeeds and replaces what is kept under the key, or does nothing. -/
theorem deleteObjectVersion_cases (b : String) (key : Text) (id : String) (V : Vault) :
    (∃ e, deleteObjectVersion b key id V = (.error e, V)) ∨
      ∃ B e, V.buckets[b]? = some B ∧ (B.record key).deleteVersion key id = .ok e ∧
        deleteObjectVersion b key id V = (.ok (), V.setRecord b key e) := by
  rw [deleteObjectVersion]
  cases hB : V.buckets[b]? with
  | none => exact Or.inl ⟨_, getBucket_bind_of_none hB⟩
  | some B =>
    rw [getBucket_bind_of_some hB]
    cases he : (B.record key).deleteVersion key id with
    | error e => exact Or.inl ⟨e, rfl⟩
    | ok e => exact Or.inr ⟨B, e, rfl, he, rfl⟩

theorem Regular.deleteObjectVersion {i : String} (h : V.Regular E) :
    (deleteObjectVersion b key i V).2.Regular E := by
  rcases deleteObjectVersion_cases b key i V with ⟨e, heq⟩ | ⟨B, e, hB, he, heq⟩
  · rw [heq]
    exact h
  · rw [heq]
    exact h.setRecord (n := V.drawn) hB le_rfl ((h b B hB key).deleteVersion he)

/-- A version stays when another one is deleted. -/
theorem Holds.deleteObjectVersion {i : String} (h : V.Regular E) (hold : V.Holds P b key id data)
    (hne : b = b' → key = key' → id ≠ some i) :
    (deleteObjectVersion b' key' i V).2.Holds P b key id data := by
  rcases deleteObjectVersion_cases b' key' i V with ⟨e, heq⟩ | ⟨B, e, hB, he, heq⟩
  · rw [heq]
    exact hold
  · rw [heq]
    refine hold.setRecord (n := V.drawn) hB fun hb hkey ↦ ?_
    subst hb hkey
    rw [Holds, record_eq hB] at hold
    exact (h b B hB key).holds_deleteVersion hold (hne rfl rfl) he

theorem bucket_of_current (h : (V.record b key).current = some (data, o)) :
    ∃ B, V.buckets[b]? = some B := by
  cases hB : V.buckets[b]? with
  | none =>
    rw [record, hB] at h
    cases h
  | some B => exact ⟨B, rfl⟩

theorem Regular.replaceObjectMetadata {updated : Object} (h : V.Regular E)
    (hcurrent : (V.record b key).current = some (data, o)) :
    (replaceObjectMetadataIfUnchanged b key o updated V).2.Regular E := by
  obtain ⟨B, hB⟩ := bucket_of_current hcurrent
  rw [replaceObjectMetadata_eq hcurrent]
  exact h.setRecord (n := V.drawn) hB le_rfl ((h.record hB).rewrite hcurrent rfl rfl rfl)

/-- New metadata destroy nothing, if what they are for still has what is asked for. -/
theorem Holds.replaceObjectMetadata {updated : Object} (hold : V.Holds P b key id data)
    (hcurrent : (V.record b' key').current = some (data', o))
    (hkept : b = b' → key = key' → o.versionId = id → data' = data → P o.providerMetadata →
      P updated.providerMetadata) :
    (replaceObjectMetadataIfUnchanged b' key' o updated V).2.Holds P b key id data := by
  obtain ⟨B, hB⟩ := bucket_of_current hcurrent
  rw [replaceObjectMetadata_eq hcurrent]
  refine hold.setRecord (n := V.drawn) hB fun hb hkey ↦ ?_
  subst hb hkey
  rcases hold with ⟨o', ho', hid, hP⟩ | hkept'
  · rw [hcurrent] at ho'
    cases ho'
    exact Or.inl ⟨_, rfl, hid, hkept rfl rfl hid rfl hP⟩
  · exact Or.inr hkept'

/-! ### Whole buckets -/

theorem setVersioning_eq {v : VersioningState} (hB : V.buckets[b]? = some B) :
    setVersioning now b v V = (.ok (), { V with buckets := V.buckets.set b (some { B with
      versioning := some v
      modifiedAt := if B.versioning = some v then B.modifiedAt else now
      objects := B.objects.map fun _ e ↦ e.assignNullVersionId }) }) := by
  rw [setVersioning, getBucket_bind_of_some hB]
  rfl

theorem setVersioning_of_none {v : VersioningState} (hB : V.buckets[b]? = none) :
    setVersioning now b v V = (.error .bucketNotFound, V) := by
  rw [setVersioning, getBucket_bind_of_none hB]

theorem record_map_assignNull :
    (B.objects.map fun _ e ↦ e.assignNullVersionId)[key]?.getD {} =
      (B.record key).assignNullVersionId := by
  rw [Std.ExtTreeMap.getElem?_map, Bucket.record]
  cases B.objects[key]? with
  | none => rfl
  | some e => rfl

/-- Versioning is suspended. -/
theorem Regular.suspend (h : V.Regular E) : (setVersioning now b .suspended V).2.Regular E := by
  cases hB : V.buckets[b]? with
  | none =>
    rw [setVersioning_of_none hB]
    exact h
  | some B =>
    rw [setVersioning_eq hB]
    refine h.set (n := V.drawn) le_rfl fun B' hB' key ↦ ?_
    cases hB'
    rw [Bucket.record, record_map_assignNull]
    exact (h b B hB key).suspend

/-- A bucket that is deleted held nothing. -/
theorem deleteBucket_cases (b : String) (V : Vault) :
    (∃ e, deleteBucket b V = (.error e, V)) ∨
      deleteBucket b V = (.ok (), { V with buckets := V.buckets.set b none }) := by
  rw [deleteBucket]
  cases hB : V.buckets[b]? with
  | none => exact Or.inl ⟨_, getBucket_bind_of_none hB⟩
  | some B =>
    rw [getBucket_bind_of_some hB]
    by_cases hnonempty : (!(B.objects.isEmpty && B.uploads.isEmpty)) = true
    · exact Or.inl ⟨_, refuseIf_bind_of hnonempty⟩
    · exact Or.inr (refuseIf_bind_of_not hnonempty)

theorem Regular.deleteBucket (h : V.Regular E) : (Vault.deleteBucket b V).2.Regular E := by
  rcases deleteBucket_cases b V with ⟨e, heq⟩ | heq
  · rw [heq]
    exact h
  · rw [heq]
    exact h.set le_rfl nofun

/-! ### What operations keep -/

/-- **Versions get lost by no operation of this kind**: the store stays regular, identities are not
drawn twice, and the version that is asked for stays. -/
def Keeps (E : Env) (P : Table String String → Prop) (b : String) (key : Text) (id : Option String)
    (data : Bytes) (V V' : Vault) : Prop :=
  V.Regular E → V'.Regular E ∧ V.drawn ≤ V'.drawn ∧
    (V.Holds P b key id data → V'.Holds P b key id data)

instance : IsPreorder Vault (Keeps E P b key id data) where
  refl _ h := ⟨h, le_rfl, fun hold ↦ hold⟩
  trans _ _ _ h h' hregular := by
    obtain ⟨hregular₁, hdrawn₁, hold₁⟩ := h hregular
    obtain ⟨hregular₂, hdrawn₂, hold₂⟩ := h' hregular₁
    exact ⟨hregular₂, hdrawn₁.trans hdrawn₂, fun hold ↦ hold₂ (hold₁ hold)⟩

theorem putObject_keeps (hP : ¬ P KeyRecord.markerMetadata) (ho : KeyRecord.Fits key' (data', o))
    (hkept : V.Holds P b key id data → b = b' → key = key' →
      V.buckets[b]?.bind (·.versioning) = some .enabled ∨
        ∀ o, (V.record b key).current = some (data, o) → o.versionId = id → ¬ P o.providerMetadata) :
    Keeps E P b key id data V (putObject E b' key' o data' V).2 := by
  intro h
  refine ⟨h.putObject ho, ?_, fun hold ↦ hold.putObject hP h ho.2.symm (hkept hold)⟩
  unfold Vault.putObject
  cases V.buckets[b']? with
  | none => exact le_rfl
  | some B =>
    dsimp only
    split
    · exact KeyRecord.le_drawnFor
    · exact KeyRecord.le_drawnFor

theorem deleteObject_keeps (hP : ¬ P KeyRecord.markerMetadata)
    (hkept : V.Holds P b key id data → b = b' → key = key' →
      V.buckets[b]?.bind (·.versioning) = some .enabled ∨
        ∀ o, (V.record b key).current = some (data, o) → o.versionId = id → ¬ P o.providerMetadata) :
    Keeps E P b key id data V (deleteObject E now b' key' V).2 := by
  intro h
  refine ⟨h.deleteObject, ?_, fun hold ↦ hold.deleteObject hP h (hkept hold)⟩
  unfold Vault.deleteObject
  cases V.buckets[b']?.bind (·.versioning) with
  | none =>
    dsimp only
    split
    · exact le_rfl
    · exact le_rfl
  | some v => exact KeyRecord.le_drawnFor

theorem mutateIf_keeps {c : ObjectCondition} {mutation : VaultOp Unit}
    (h : Keeps E P b key id data V (mutation V).2) :
    Keeps E P b key id data V (mutateIf b' key' c mutation V).2 := by
  rcases mutateIf_cases c mutation with heq | heq
  · rw [heq]
    exact h
  · rw [heq]
    exact refl_of (Keeps E P b key id data) V

theorem deleteObjectVersion_keeps {i : String}
    (hne : V.Regular E → V.Holds P b key id data → b = b' → key = key' → id ≠ some i) :
    Keeps E P b key id data V (deleteObjectVersion b' key' i V).2 := by
  intro h
  refine ⟨h.deleteObjectVersion, ?_, fun hold ↦ hold.deleteObjectVersion h (hne h hold)⟩
  rcases deleteObjectVersion_cases b' key' i V with ⟨e, heq⟩ | ⟨B, e, hB, he, heq⟩
  · rw [heq]
  · rw [heq]
    exact le_rfl

theorem replaceObjectMetadata_keeps {updated : Object}
    (hcurrent : (V.record b' key').current = some (data', o))
    (hkept : b = b' → key = key' → o.versionId = id → data' = data → P o.providerMetadata →
      P updated.providerMetadata) :
    Keeps E P b key id data V (replaceObjectMetadataIfUnchanged b' key' o updated V).2 := by
  intro h
  refine ⟨h.replaceObjectMetadata hcurrent, ?_, fun hold ↦ hold.replaceObjectMetadata hcurrent hkept⟩
  rw [replaceObjectMetadata_eq hcurrent]
  exact le_rfl

theorem draw_keeps (hn : V.drawn ≤ n) : Keeps E P b key id data V (V.draw n) :=
  fun h ↦ ⟨h.draw hn, hn, fun hold ↦ hold⟩

/-! ### Whole buckets -/

/-- What is held in one bucket is held whatever another one becomes. -/
theorem Holds.setBucket {B' : Option Bucket} (hold : V.Holds P b key id data) (hne : b ≠ b') :
    Holds P b key id data { V with buckets := V.buckets.set b' B' } := by
  rw [Holds, record, Table.getElem?_set, if_neg hne]
  exact hold

section Purge

variable (hfree : b = b' → ∀ metadata, ¬ P metadata)

include hfree

/-- Nothing is held in a bucket that is purged. -/
theorem ne_of_holds (hold : V.Holds P b key id data) : b ≠ b' := by
  intro hb
  rcases hold with ⟨o, -, -, ho⟩ | ⟨i, o, -, -, ho⟩
  · exact hfree hb _ ho
  · exact hfree hb _ ho

theorem suspend_keeps : Moves (Keeps E P b key id data) (setVersioning now b' .suspended) := by
  intro V h
  refine ⟨h.suspend, ?_, fun hold ↦ ?_⟩
  · cases hB : V.buckets[b']? with
    | none => rw [setVersioning_of_none hB]
    | some B => rw [setVersioning_eq hB]
  · cases hB : V.buckets[b']? with
    | none =>
      rw [setVersioning_of_none hB]
      exact hold
    | some B =>
      rw [setVersioning_eq hB]
      exact hold.setBucket (ne_of_holds hfree hold)

theorem deleteBucket_keeps : Moves (Keeps E P b key id data) (deleteBucket b') := by
  intro V h
  rcases deleteBucket_cases b' V with ⟨e, heq⟩ | heq
  · rw [heq]
    exact refl_of (Keeps E P b key id data) V h
  · refine ⟨h.deleteBucket, ?_, fun hold ↦ ?_⟩
    · rw [heq]
    · rw [heq]
      exact hold.setBucket (ne_of_holds hfree hold)

end Purge

end Vault

end Sqrzl
