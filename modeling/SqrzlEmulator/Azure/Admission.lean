import SqrzlEmulator.Azure.Effects
import SqrzlEmulator.Storage.Regular

/-!
# What the checks of a handler have found

A handler that goes on after its checks has **seen the blob that it is about to change**: it is the
current version of its key, in the state that the change starts from, and the guards that the
handler asks (`ensure_lease_allows`, `ensure_mutation_allowed`,
`ensure_version_creating_overwrite_allowed`) have let it through.
-/

namespace Sqrzl.Azure

open Prog Atomic

variable {C : Codec} {now : Time} {req : Request} {c : String} {k : Text} {A A' : Adapter}
  {blob : Object}

/-! ### Guards -/

/-- A mutation that is allowed is of a blob that is not protected, by the holder of its lease. -/
theorem ensureMutationAllowed_ok {u : Unit} (h : ensureMutationAllowed C now req blob = .ok u) :
    isImmutable C now blob = false ∧ ensureLeaseAllows req blob = .ok () := by
  unfold ensureMutationAllowed at h
  split at h
  · cases h
  · next himmutable => exact ⟨Bool.eq_false_of_not_eq_true himmutable, h⟩

/-- An overwrite that is allowed is of a blob that is not protected, or keeps it as a version. -/
theorem ensureVersionCreatingOverwriteAllowed_ok {versioning : Bool} {u : Unit}
    (h : ensureVersionCreatingOverwriteAllowed C now req blob versioning = .ok u) :
    (versioning = true ∨ isImmutable C now blob = false) ∧ ensureLeaseAllows req blob = .ok () := by
  unfold ensureVersionCreatingOverwriteAllowed at h
  split at h
  · next hboth => exact ⟨Or.inl (Bool.and_eq_true_iff.1 hboth).2, h⟩
  · obtain ⟨himmutable, hlease⟩ := ensureMutationAllowed_ok h
    exact ⟨Or.inr himmutable, hlease⟩

theorem versioning_of_azureVersioningEnabled {B : Bucket} (h : azureVersioningEnabled B = true) :
    B.versioning = some .enabled :=
  of_decide_eq_true (Bool.and_eq_true_iff.1 h).2

/-! ### The blob that is there -/

theorem current_of_metadata (h : (A.vault.record c k).metadata = some blob) :
    ∃ data, (A.vault.record c k).current = some (data, blob) := by
  obtain ⟨⟨data, _⟩, hcurrent, rfl⟩ := Option.map_eq_some_iff.1 h
  exact ⟨data, hcurrent⟩

theorem conditionalBlob_ok (h : conditionalBlob c k req A = (.ok blob, A')) :
    ∃ data, (A.vault.record c k).current = some (data, blob) := by
  obtain ⟨found, hfound, hrest⟩ := find_bind_ok.1 h
  obtain ⟨-, hpure⟩ := refuseIf_bind_ok.1 hrest
  obtain ⟨rfl, -⟩ := pure_ok.1 hpure
  exact current_of_metadata hfound

theorem admitAcquire_ok (h : admitAcquire c k req A = (.ok blob, A')) :
    (∃ data, (A.vault.record c k).current = some (data, blob)) ∧ hasActiveLease blob = false := by
  obtain ⟨found, A₁, hfound, hrest⟩ := bind_ok.1 h
  obtain ⟨hlease, hpure⟩ := refuseIf_bind_ok.1 hrest
  obtain ⟨rfl, -⟩ := pure_ok.1 hpure
  exact ⟨conditionalBlob_ok hfound, Bool.eq_false_of_not_eq_true hlease⟩

theorem admitLeaseHolder_ok (h : admitLeaseHolder c k req A = (.ok blob, A')) :
    (∃ data, (A.vault.record c k).current = some (data, blob)) ∧
      ensureLeaseAllows req blob = .ok () := by
  obtain ⟨found, A₁, hfound, hrest⟩ := bind_ok.1 h
  obtain ⟨_, hlease, hpure⟩ := ofExcept_bind_ok.1 hrest
  obtain ⟨rfl, -⟩ := pure_ok.1 hpure
  exact ⟨conditionalBlob_ok hfound, hlease⟩

theorem admitBreak_ok (h : admitBreak c k req A = (.ok blob, A')) :
    (∃ data, (A.vault.record c k).current = some (data, blob)) ∧ hasActiveLease blob = true := by
  obtain ⟨found, A₁, hfound, hrest⟩ := bind_ok.1 h
  obtain ⟨hlease, hpure⟩ := refuseIf_bind_ok.1 hrest
  obtain ⟨rfl, -⟩ := pure_ok.1 hpure
  refine ⟨conditionalBlob_ok hfound, ?_⟩
  simpa using hlease

/-- A policy that is put is in the future, and does not weaken a locked one. -/
theorem admitPolicy_ok {text mode : String} (h : admitPolicy C now c k req A = (.ok (blob, text, mode), A')) :
    (∃ data, (A.vault.record c k).current = some (data, blob)) ∧
      (∃ until_, C.parseRfc2822 text = some until_ ∧ now < until_) ∧
      (blob.providerMetadata["azure_immutability_mode"]? = some "Locked" → mode = "Locked") := by
  obtain ⟨⟨text', until_, mode'⟩, hpolicy, hrest⟩ := ofExcept_bind_ok.1 h
  obtain ⟨found, A₁, hfound, hrest'⟩ := bind_ok.1 hrest
  obtain ⟨hweaker, hpure⟩ := refuseIf_bind_ok.1 hrest'
  obtain ⟨heq, -⟩ := pure_ok.1 hpure
  cases heq
  refine ⟨conditionalBlob_ok hfound, ⟨until_, ?_⟩, fun hlocked ↦ ?_⟩
  · unfold requestedPolicy at hpolicy
    split at hpolicy
    · cases hpolicy
    · split at hpolicy
      · cases hpolicy
      · next htime =>
        dsimp only at hpolicy
        split at hpolicy
        · cases hpolicy
          obtain ⟨hparse, hfuture⟩ := Option.filter_eq_some_iff.1 htime
          exact ⟨hparse, of_decide_eq_true hfuture⟩
        · cases hpolicy
  · by_contra hmode
    exact hweaker ⟨hlocked, Or.inl hmode⟩

theorem admitPolicyDeletion_ok (h : admitPolicyDeletion c k req A = (.ok blob, A')) :
    (∃ data, (A.vault.record c k).current = some (data, blob)) ∧
      blob.providerMetadata["azure_immutability_mode"]? ≠ some "Locked" := by
  obtain ⟨found, A₁, hfound, hrest⟩ := bind_ok.1 h
  obtain ⟨hmode, hpure⟩ := refuseIf_bind_ok.1 hrest
  obtain ⟨rfl, -⟩ := pure_ok.1 hpure
  exact ⟨conditionalBlob_ok hfound, hmode⟩

theorem admitLegalHold_ok {hold : String} (h : admitLegalHold c k req A = (.ok (blob, hold), A')) :
    (∃ data, (A.vault.record c k).current = some (data, blob)) ∧
      req.header "x-ms-legal-hold" = some hold ∧ (hold = "true" ∨ hold = "false") := by
  obtain ⟨hold', hheader, hrest⟩ := ofExcept_bind_ok.1 h
  obtain ⟨found, A₁, hfound, hpure⟩ := bind_ok.1 hrest
  obtain ⟨heq, -⟩ := pure_ok.1 hpure
  cases heq
  refine ⟨conditionalBlob_ok hfound, ?_⟩
  split at hheader
  · cases hheader
  · next hsome =>
    split at hheader
    · next hvalue =>
      cases hheader
      exact ⟨hsome, hvalue⟩
    · cases hheader

/-! ### Blobs that are read -/

theorem readRange_all {data : Bytes} (hsize : blob.size = data.length) (hne : blob.size ≠ 0)
    (hmax : blob.size ≤ maxMaterialized) :
    readRange (data, blob) 0 (some (maxMaterialized - 1)) = .ok data := by
  unfold readRange
  dsimp only
  have hlast : min (maxMaterialized - 1) (blob.size - 1) = blob.size - 1 := by omega
  rw [if_neg (by omega), Option.getD_some, hlast, if_neg (by omega), if_neg (by omega), List.drop_zero,
    List.take_of_length_le (by omega)]

/-- The bytes that a mutation starts from are those of the blob. -/
theorem boundedMutation_ok {extra : ℕ} {data : Bytes} {o : Object} (hsize : o.size = data.length)
    (h : boundedMutation extra (data, o) = .ok blob) : blob = { o with data := data } := by
  unfold boundedMutation at h
  dsimp only at h
  split at h
  · cases h
  · next hmax =>
    split at h
    · next hzero =>
      cases h
      rw [hzero] at hsize
      rw [List.length_eq_zero_iff.1 hsize.symm]
    · next hne =>
      rw [readRange_all hsize hne (by omega)] at h
      cases h
      rfl

theorem boundedMutationBlob_ok {extra : ℕ}
    (h : boundedMutationBlob c k extra A = (.ok blob, A')) :
    ∃ data o, (A.vault.record c k).current = some (data, o) ∧
      boundedMutation extra (data, o) = .ok blob := by
  obtain ⟨⟨data, o⟩, hcurrent, hrest⟩ := find_bind_ok.1 h
  exact ⟨data, o, hcurrent, (ofExcept_ok.1 hrest).1⟩

/-- **The blob that a mutation starts from** is the current one, and the guards have let it
through. -/
theorem mutableBlob_ok {extra : ℕ} (h : mutableBlob C now c k extra req A = (.ok blob, A')) :
    (∃ data o, (A.vault.record c k).current = some (data, o) ∧
      boundedMutation extra (data, o) = .ok blob) ∧
    ensureMutationAllowed C now req blob = .ok () := by
  obtain ⟨found, A₁, hfound, hrest⟩ := bind_ok.1 h
  obtain ⟨_, hallowed, hrest'⟩ := ofExcept_bind_ok.1 hrest
  obtain ⟨-, hpure⟩ := refuseIf_bind_ok.1 hrest'
  obtain ⟨rfl, -⟩ := pure_ok.1 hpure
  exact ⟨boundedMutationBlob_ok hfound, hallowed⟩

theorem admitAppend_ok (h : admitAppend C now c k req A = (.ok blob, A')) :
    ∃ A₁, mutableBlob C now c k req.body.length req A = (.ok blob, A₁) := by
  obtain ⟨-, hchecksum⟩ := refuseIf_bind_ok.1 h
  obtain ⟨_, -, hblob⟩ := ofExcept_bind_ok.1 hchecksum
  obtain ⟨found, A₁, hfound, hrest⟩ := bind_ok.1 hblob
  obtain ⟨-, hpure⟩ := refuseIf_bind_ok.1 hrest
  obtain ⟨rfl, -⟩ := pure_ok.1 hpure
  exact ⟨A₁, hfound⟩

theorem validatePageWrite_ok {clear : Bool} {start last : ℕ} {u : Unit}
    (h : validatePageWrite req blob clear start last = .ok u) :
    (clear = false → req.body.length = last - start + 1) ∧ last < blob.data.length := by
  unfold validatePageWrite at h
  split at h
  · cases h
  · next hlength =>
    split at h
    · cases h
    · next hlast =>
      rw [not_or] at hlength
      refine ⟨fun hclear ↦ ?_, not_le.1 hlast⟩
      by_contra hne
      exact hlength.1 ⟨by rw [hclear]; rfl, hne⟩

theorem parseWriteRange_le {header : String} {start last : ℕ}
    (h : parseWriteRange header = some (start, last)) : start ≤ last := by
  simp only [parseWriteRange, Option.bind_eq_bind, Option.bind_eq_some_iff] at h
  obtain ⟨_, -, ⟨first, second⟩, -, start', -, last', -, _, hle, heq⟩ := h
  cases heq
  by_contra hlt
  rw [guard, if_neg hlt] at hle
  cases hle

theorem requestedPages_ok {clear : Bool} {start last : ℕ}
    (h : requestedPages req = .ok (clear, start, last)) : start ≤ last := by
  cases hparse : (requestedRange req).bind parseWriteRange with
  | none =>
    simp only [requestedPages, hparse, Bind.bind, Except.bind] at h
    grind
  | some range =>
    obtain ⟨header, -, hrange⟩ := Option.bind_eq_some_iff.1 hparse
    have hle : range.1 ≤ range.2 := parseWriteRange_le hrange
    simp only [requestedPages, hparse, Bind.bind, Except.bind] at h
    grind

theorem admitPage_ok {clear : Bool} {start last : ℕ}
    (h : admitPage C now c k req A = (.ok (blob, clear, start, last), A')) :
    (∃ A₁, mutableBlob C now c k 0 req A = (.ok blob, A₁)) ∧ start ≤ last ∧
      (clear = false → req.body.length = last - start + 1) ∧ last < blob.data.length := by
  obtain ⟨⟨clear', start', last'⟩, hpages, hrest⟩ := ofExcept_bind_ok.1 h
  obtain ⟨-, hchecksum⟩ := refuseIf_bind_ok.1 hrest
  obtain ⟨_, -, hblob⟩ := ofExcept_bind_ok.1 hchecksum
  obtain ⟨found, A₁, hfound, hrest⟩ := bind_ok.1 hblob
  obtain ⟨-, hvalidate⟩ := refuseIf_bind_ok.1 hrest
  obtain ⟨_, hvalid, hpure⟩ := ofExcept_bind_ok.1 hvalidate
  obtain ⟨heq, -⟩ := pure_ok.1 hpure
  cases heq
  exact ⟨⟨A₁, hfound⟩, requestedPages_ok hpages, validatePageWrite_ok hvalid⟩

theorem admitSnapshot_ok (h : admitSnapshot c k req A = (.ok blob, A')) :
    (∃ data o, (A.vault.record c k).current = some (data, o) ∧
      boundedMutation 0 (data, o) = .ok blob) ∧ ensureLeaseAllows req blob = .ok () := by
  obtain ⟨found, A₁, hfound, hrest⟩ := bind_ok.1 h
  obtain ⟨_, hlease, hrest'⟩ := ofExcept_bind_ok.1 hrest
  obtain ⟨-, hpure⟩ := refuseIf_bind_ok.1 hrest'
  obtain ⟨rfl, -⟩ := pure_ok.1 hpure
  exact ⟨boundedMutationBlob_ok hfound, hlease⟩

/-! ### Blobs that are overwritten -/

/-- **A blob that is overwritten** is the current one, if there is one, and the guard has let it
through. -/
theorem admitOverwrite_ok {existing : Option Object}
    (h : admitOverwrite C now c k req A = (.ok existing, A')) :
    existing = (A.vault.record c k).metadata ∧ ∀ blob, existing = some blob →
      ∃ B, A.vault.buckets[c]? = some B ∧
        ensureVersionCreatingOverwriteAllowed C now req blob (azureVersioningEnabled B) = .ok () := by
  rw [admitOverwrite, view_bind] at h
  cases hmetadata : (A.vault.record c k).metadata with
  | none =>
    rw [hmetadata] at h
    obtain ⟨-, hpure⟩ := refuseIf_bind_ok.1 h
    obtain ⟨rfl, -⟩ := pure_ok.1 hpure
    exact ⟨rfl, nofun⟩
  | some found =>
    rw [hmetadata] at h
    obtain ⟨B, hB, hrest⟩ := find_bind_ok.1 h
    obtain ⟨_, hallowed, hpure⟩ := ofExcept_bind_ok.1 hrest
    obtain ⟨rfl, -⟩ := pure_ok.1 hpure
    refine ⟨rfl, fun blob hblob ↦ ⟨B, hB, ?_⟩⟩
    cases hblob
    exact hallowed

theorem admitPutBlob_ok {put : PutBlob} (h : admitPutBlob C now c k req A = (.ok put, A')) :
    ∃ A₁, admitOverwrite C now c k req A = (.ok put.existing, A₁) := by
  obtain ⟨existing, A₁, hexisting, hrest⟩ := bind_ok.1 h
  obtain ⟨⟨type, length⟩, -, hbody⟩ := ofExcept_bind_ok.1 hrest
  obtain ⟨-, hchecksum⟩ := refuseIf_bind_ok.1 hbody
  obtain ⟨_, -, hcondition⟩ := ofExcept_bind_ok.1 hchecksum
  obtain ⟨_, -, hpure⟩ := ofExcept_bind_ok.1 hcondition
  obtain ⟨rfl, -⟩ := pure_ok.1 hpure
  exact ⟨A₁, hexisting⟩

theorem admitBlockList_ok {references : List BlockReference} {requested : Option ObjectCondition}
    {existing : Option Object}
    (h : admitBlockList C now c k req A = (.ok (references, requested, existing), A')) :
    ∃ A₁, admitOverwrite C now c k req A = (.ok existing, A₁) := by
  obtain ⟨_, -, hlist⟩ := ofExcept_bind_ok.1 h
  obtain ⟨_, -, hcondition⟩ := ofExcept_bind_ok.1 hlist
  obtain ⟨_, -, hon⟩ := ofExcept_bind_ok.1 hcondition
  obtain ⟨found, A₁, hfound, hpure⟩ := bind_ok.1 hon
  obtain ⟨heq, -⟩ := pure_ok.1 hpure
  cases heq
  obtain ⟨existing', A₂, hexisting, hrest⟩ := bind_ok.1 hfound
  obtain ⟨-, htype⟩ := refuseIf_bind_ok.1 hrest
  obtain ⟨-, hpure'⟩ := refuseIf_bind_ok.1 htype
  obtain ⟨rfl, -⟩ := pure_ok.1 hpure'
  exact ⟨A₂, hexisting⟩

/-! ### Blobs that are deleted -/

theorem admitVersionDeletion_ok {id : String}
    (h : admitVersionDeletion C now c k id req A = (.ok blob, A')) :
    (∃ data, A.vault.stored c k (some id) = .ok (data, blob)) ∧
      ensureMutationAllowed C now req blob = .ok () := by
  rw [admitVersionDeletion, view_bind] at h
  obtain ⟨⟨data, version⟩, hfound, hrest⟩ := ofExcept_bind_ok.1 h
  obtain ⟨_, hallowed, hrest'⟩ := ofExcept_bind_ok.1 hrest
  obtain ⟨-, hpure⟩ := refuseIf_bind_ok.1 hrest'
  obtain ⟨rfl, -⟩ := pure_ok.1 hpure
  refine ⟨⟨data, ?_⟩, hallowed⟩
  cases hstored : A.vault.stored c k (some id) with
  | error e =>
    rw [hstored] at hfound
    cases hfound
  | ok st =>
    rw [hstored] at hfound
    cases hfound
    rfl

theorem admitSnapshotDeletion_ok {key : Text}
    (h : admitSnapshotDeletion C now c key req A = (.ok blob, A')) :
    (∃ data, (A.vault.record c key).current = some (data, blob)) ∧
      ensureMutationAllowed C now req blob = .ok () := by
  obtain ⟨found, hfound, hrest⟩ := find_bind_ok.1 h
  obtain ⟨_, hallowed, hrest'⟩ := ofExcept_bind_ok.1 hrest
  obtain ⟨-, hpure⟩ := refuseIf_bind_ok.1 hrest'
  obtain ⟨rfl, -⟩ := pure_ok.1 hpure
  exact ⟨current_of_metadata hfound, hallowed⟩

theorem admitDeletion_ok {deletion : DeleteBlob}
    (h : admitDeletion C now c k req A = (.ok deletion, A')) :
    (∃ data blob, (A.vault.record c k).current = some (data, blob) ∧
      ensureMutationAllowed C now req blob = .ok ()) ∧
    deletion.snapshots = snapshotKeys C c k A ∧
    (deletion.snapshots ≠ [] → (req.header "x-ms-delete-snapshots").isSome) := by
  obtain ⟨found, hfound, hrest⟩ := find_bind_ok.1 h
  obtain ⟨_, hallowed, hview⟩ := ofExcept_bind_ok.1 hrest
  rw [view_bind] at hview
  obtain ⟨hpresent, hmode⟩ := refuseIf_bind_ok.1 hview
  obtain ⟨-, honly⟩ := refuseIf_bind_ok.1 hmode
  obtain ⟨-, hcondition⟩ := refuseIf_bind_ok.1 honly
  obtain ⟨_, -, hpure⟩ := ofExcept_bind_ok.1 hcondition
  obtain ⟨rfl, -⟩ := pure_ok.1 hpure
  obtain ⟨data, hcurrent⟩ := current_of_metadata hfound
  refine ⟨⟨data, found, hcurrent, hallowed⟩, rfl, fun hne ↦ ?_⟩
  by_contra hnone
  refine hpresent ⟨?_, ?_⟩
  · simpa using hne
  · simpa using hnone

end Sqrzl.Azure
