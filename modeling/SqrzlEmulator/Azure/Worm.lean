import SqrzlEmulator.Azure.Directories
import SqrzlEmulator.Azure.Sound

/-!
# Write once, read many

A version of a blob, or a snapshot of one, is protected when its provider metadata carry a legal
hold, or a locked immutability policy that has not expired. **At a fixed time the bytes of a
protected version stay readable**, as the current version of their key or by their identity, until
the hold that protects them is cleared.

The guards look at the metadata in the directory that they find, and the directory of a key is found
by a hash of the key that is not compared with it: a snapshot whose key has the identity of another
protected blob would be written over it. What is read is therefore what is in the directories, and it
is asked that no two keys in use have the same identity.

Two requests are excepted. `delete_blob` with `x-ms-delete-snapshots` looks at the blob and not at
the snapshots that it deletes with it, and `create_snapshot` writes over a snapshot that has been
made at the same time. The first one is all that it takes to lose a snapshot under a legal hold
(`protected_snapshot_deleted`).
-/

namespace Sqrzl.Azure

open Prog Atomic

/-! ### Protection -/

/-- **Protected metadata**, at the time `now`: a legal hold, or a locked policy in the future. -/
def Protected (C : Codec) (now : Time) (metadata : Table String String) : Prop :=
  metadata["azure_legal_hold"]? = some "true" ∨
    metadata["azure_immutability_mode"]? = some "Locked" ∧
      ∃ text until_, metadata["azure_immutability_until"]? = some text ∧
        (C.parseRfc3339 text <|> C.parseRfc2822 text) = some until_ ∧ now < until_

section Protection

variable {C : Codec} {now : Time} {metadata : Table String String}

/-- Entries that are not about protection do not matter. -/
theorem Protected.set {name : String} {value : Option String} (hname : name ∉ protectionKeys)
    (h : Protected C now metadata) : Protected C now (metadata.set name value) := by
  have hget : ∀ key ∈ protectionKeys, (metadata.set name value)[key]? = metadata[key]? := by
    intro key hkey
    rw [Table.getElem?_set, if_neg]
    rintro rfl
    exact hname hkey
  rw [Protected, hget _ (by decide), hget _ (by decide), hget _ (by decide)]
  exact h

/-- The guards see what is protected. -/
theorem Protected.isImmutable {blob : Object} (h : Protected C now blob.providerMetadata) :
    isImmutable C now blob = true := by
  rw [Azure.isImmutable, Bool.or_eq_true]
  rcases h with hhold | ⟨hmode, text, until_, htext, huntil, hfuture⟩
  · refine Or.inl ?_
    rw [hasLegalHold, hhold]
    rfl
  · refine Or.inr ?_
    have hretention : retentionUntil C blob = some until_ := by
      rw [retentionUntil, htext]
      exact huntil
    rw [hmode, htext]
    dsimp only
    rw [if_pos (Or.inr rfl), hretention]
    exact decide_eq_true hfuture

/-- A policy that is put leaves what is protected protected: it is in the future, and locked if the
one before it was. -/
theorem Protected.putPolicy {text mode : String} {until_ : Time}
    (htext : C.parseRfc2822 text = some until_) (hfuture : now < until_)
    (hmode : metadata["azure_immutability_mode"]? = some "Locked" → mode = "Locked")
    (h : Protected C now metadata) :
    Protected C now ((metadata.set "azure_immutability_until" (some text)).set
      "azure_immutability_mode" (some mode)) := by
  rcases h with hhold | ⟨hlocked, -⟩
  · refine Or.inl ?_
    rw [Table.getElem?_set, if_neg (by decide), Table.getElem?_set, if_neg (by decide)]
    exact hhold
  · refine Or.inr ⟨?_, text, until_, ?_, ?_, hfuture⟩
    · rw [Table.getElem?_set, if_pos rfl, hmode hlocked]
    · rw [Table.getElem?_set, if_neg (by decide), Table.getElem?_set, if_pos rfl]
    · rw [C.parseRfc3339_of_rfc2822 text until_ htext, htext]
      rfl

/-- **Protection** is a property that the guards see. -/
theorem protection_protected : Protection C now (Protected C now) where
  marker h := by
    rcases h with hhold | ⟨hmode, -⟩
    · rw [KeyRecord.markerMetadata, Table.getElem?_set, if_neg (by decide)] at hhold
      simp at hhold
    · rw [KeyRecord.markerMetadata, Table.getElem?_set, if_neg (by decide)] at hmode
      simp at hmode
  immutable _ := Protected.isImmutable
  set _ _ _ := Protected.set
  putPolicy _ _ _ _ := Protected.putPolicy
  deletePolicy metadata hmode h := by
    refine Or.inl ?_
    rw [Table.getElem?_set, if_neg (by decide), Table.getElem?_set, if_neg (by decide)]
    exact h.resolve_right fun hlocked ↦ hmode hlocked.1
  putHold metadata _ := by
    refine Or.inl ?_
    rw [Table.getElem?_set, if_pos rfl]

end Protection

/-! ### Runs -/

/-- The bytes of a version can be read from the directory of their key, as the current version or by
their identity. -/
def Item.Readable (E : Env) (ι : Item) (A : Adapter) : Prop :=
  (∃ o, A.vault.storedIn E ι.container ι.key none = .ok (ι.data, o)) ∨
    ∃ id o, ι.id = some id ∧ A.vault.storedIn E ι.container ι.key (some id) = .ok (ι.data, o)

/-- What is held is kept under its key, as the current version or by its identity. -/
theorem stored_of_held {E : Env} {C : Codec} {now : Time} {P : Table String String → Prop} {ι : Item}
    {A : Adapter} (hP : Protection C now P) (hsound : A.Sound E) (hheld : ι.Held P A) :
    (∃ o, A.vault.stored ι.container ι.key none = .ok (ι.data, o)) ∨
      ∃ id o, ι.id = some id ∧ A.vault.stored ι.container ι.key (some id) = .ok (ι.data, o) := by
  cases hB : A.vault.buckets[ι.container]? with
  | none =>
    rw [Item.Held, Vault.Holds, Vault.record, hB] at hheld
    rcases hheld with ⟨o, ho, -⟩ | ⟨i, o, -, ho, -⟩
    · cases ho
    · simp at ho
  | some B =>
    rw [Item.Held, Vault.Holds, Vault.record_eq hB] at hheld
    rcases (hsound.regular ι.container B hB ι.key).readable_of_holds hP.marker hheld with
      ⟨o, ho⟩ | ⟨i, o, hid, ho⟩
    · refine Or.inl ⟨o, ?_⟩
      rw [Vault.stored, Vault.record_eq hB, ho]
      rfl
    · refine Or.inr ⟨i, o, hid, ?_⟩
      rw [Vault.stored, hB]
      exact ho

variable (E : Env) (C : Codec) (G : Gate) (reads : Reads)

/-- Something is kept under the key of what is held. -/
theorem record_ne_of_held {P : Table String String → Prop} {ι : Item} {A : Adapter}
    (hheld : ι.Held P A) : A.vault.record ι.container ι.key ≠ {} := by
  intro hnone
  rw [Item.Held, Vault.Holds, hnone] at hheld
  rcases hheld with ⟨o, ho, -⟩ | ⟨i, o, -, ho, -⟩
  · cases ho
  · simp at ho

/-- **Protected bytes stay readable** in every run at a fixed time, until the hold that protects
them is cleared, if no request deletes them as a snapshot of its blob or makes a snapshot over
them, and no two keys in use in the container have the same identity. -/
theorem protected_version_readable (now : Time) (before after : List Step) (ι : Item)
    (hprotected : ι.Held (Protected C now) (Adapter.run E C G reads {} before))
    (htime : ∀ step ∈ after, step.At now)
    (hhold : ∀ first last req, after = first ++ .request now req :: last →
      ¬ ClearsHold (Protected C now) ι req (Adapter.run E C G reads {} (before ++ first)))
    (hsnapshots : ∀ first last req, after = first ++ .request now req :: last →
      ¬ DeletesSnapshot C (Protected C now) ι req (Adapter.run E C G reads {} (before ++ first)) ∧
      ¬ OverwritesSnapshot C now (Protected C now) ι req
        (Adapter.run E C G reads {} (before ++ first)))
    (hfree : E.CollisionFree ι.container (keysInUse E C G reads {} (before ++ after) ι.container)) :
    ι.Readable E (Adapter.run E C G reads {} (before ++ after)) ∧
      ι.Held (Protected C now) (Adapter.run E C G reads {} (before ++ after)) := by
  have hrun : ∀ steps, Adapter.run E C G reads {} (before ++ steps) =
      (Adapter.run E C G reads {} before).run E C G reads steps := fun _ ↦ run_append
  have hsound : (Adapter.run E C G reads {} before).Sound E := run_sound .empty
  have hheld : ι.Held (Protected C now) (Adapter.run E C G reads {} (before ++ after)) := by
    rw [hrun]
    refine run_keeps protection_protected hsound hprotected htime ?_
    rintro first last req hafter (hclears | hdeletes | hoverwrites)
    · exact hhold first last req hafter (hrun first ▸ hclears)
    · exact (hsnapshots first last req hafter).1 (hrun first ▸ hdeletes)
    · exact (hsnapshots first last req hafter).2 (hrun first ▸ hoverwrites)
  have hread := storedIn_run hfree (record_ne_of_held hheld)
  refine ⟨?_, hheld⟩
  rcases stored_of_held protection_protected (run_sound .empty) hheld with ⟨o, ho⟩ | ⟨id, o, hid, ho⟩
  · exact Or.inl ⟨o, (hread none).trans ho⟩
  · exact Or.inr ⟨id, o, hid, (hread (some id)).trans ho⟩

/-! ### Two runs -/

/-- A request about the blob `b` of the container `box`, at the time zero. -/
def onBlob (method : Method) (query headers : List (String × String)) (body : Bytes) : Step :=
  .request 0 (blobRequest method query headers body)

/-- A blob is put, and a legal hold on it. -/
def heldBlob : List Step :=
  [.request 0 (containerRequest .put []), onBlob .put [] [("x-ms-blob-type", "BlockBlob")] [7],
    onBlob .put [("comp", "legalhold")] [("x-ms-legal-hold", "true")] []]

/-- The current version of a key, if it is under a legal hold. -/
theorem held_of_current {ι : Item} {A : Adapter} {C : Codec} {now : Time}
    (h : (A.vault.record ι.container ι.key).current.map (fun st ↦
      (st.1, st.2.versionId, st.2.providerMetadata["azure_legal_hold"]?)) =
        some (ι.data, ι.id, some "true")) : ι.Held (Protected C now) A := by
  obtain ⟨⟨data, o⟩, hcurrent, heq⟩ := Option.map_eq_some_iff.1 h
  obtain ⟨rfl, hrest⟩ := Prod.mk.inj heq
  obtain ⟨hid, hhold⟩ := Prod.mk.inj hrest
  exact Or.inl ⟨o, hcurrent, hid, Or.inl hhold⟩

/-- The blob under a legal hold. -/
def heldItem : Item := ⟨"box", ['b'], none, [7]⟩

theorem step_of_singleton {now : Time} {first last : List Step} {step : Step} {req : Request}
    (h : [step] = first ++ .request now req :: last) : first = [] ∧ step = .request now req := by
  cases first with
  | nil => exact ⟨rfl, (List.cons.inj h).1⟩
  | cons head tail =>
    have hlength := congrArg List.length h
    simp at hlength

/-- A blob under a legal hold is still there after an attempt to delete it. -/
theorem held_blob_readable :
    heldItem.Readable .simple (Adapter.run .simple .simple .opened noReads {}
      (heldBlob ++ [onBlob .delete [] [] []])) := by
  refine (protected_version_readable .simple .simple .opened noReads 0 heldBlob [onBlob .delete [] [] []]
    heldItem (held_of_current (by decide +kernel)) ?_ ?_ ?_ Env.simple_collisionFree).1
  · intro step hstep
    cases List.mem_singleton.1 hstep
    exact rfl
  · rintro first last req h ⟨-, -, hop, -⟩
    cases (step_of_singleton h).2
    revert hop
    decide +kernel
  · rintro first last req h
    cases (step_of_singleton h).2
    refine ⟨fun hdeletes ↦ ?_, fun hoverwrites ↦ ?_⟩
    · obtain ⟨-, -, -, -, hmode, -⟩ := hdeletes
      revert hmode
      decide +kernel
    · obtain ⟨-, hop, -⟩ := hoverwrites
      revert hop
      decide +kernel

/-- The snapshot of the blob under a legal hold. -/
def heldSnapshot : Item :=
  ⟨"box", "__sqrzl_azure_snapshot__/Yg/1970-01-01T00:00:00.000000Z".toList, none, [7]⟩

/-- **A snapshot under a legal hold is deleted with its blob.** The hold of the blob itself has been
cleared; that of the snapshot has not. -/
theorem protected_snapshot_deleted :
    heldSnapshot.Held (Protected .simple 0) (Adapter.run .simple .simple .opened noReads {}
      (heldBlob ++ [onBlob .put [("comp", "snapshot")] [] []])) ∧
    (∀ step ∈ [onBlob .put [("comp", "legalhold")] [("x-ms-legal-hold", "false")] [],
        onBlob .delete [] [("x-ms-delete-snapshots", "include")] []],
      step.At 0 ∧ ∀ req A, step = .request 0 req →
        ¬ ClearsHold (Protected .simple 0) heldSnapshot req A) ∧
    ¬ heldSnapshot.Readable .simple (Adapter.run .simple .simple .opened noReads {}
      (heldBlob ++ [onBlob .put [("comp", "snapshot")] [] [],
        onBlob .put [("comp", "legalhold")] [("x-ms-legal-hold", "false")] [],
        onBlob .delete [] [("x-ms-delete-snapshots", "include")] []])) := by
  refine ⟨held_of_current (by decide +kernel), ?_, ?_⟩
  · intro step hstep
    have hblob : (some ['b'] : Option Text) ≠ some heldSnapshot.key := by decide
    rcases List.mem_cons.1 hstep with rfl | hstep
    · refine ⟨rfl, ?_⟩
      rintro req A h ⟨-, hk, -⟩
      cases h
      exact hblob hk
    · cases List.mem_singleton.1 hstep
      refine ⟨rfl, ?_⟩
      rintro req A h ⟨-, hk, -⟩
      cases h
      exact hblob hk
  · have hgone : ((Adapter.run .simple .simple .opened noReads {}
      (heldBlob ++ [onBlob .put [("comp", "snapshot")] [] [],
        onBlob .put [("comp", "legalhold")] [("x-ms-legal-hold", "false")] [],
        onBlob .delete [] [("x-ms-delete-snapshots", "include")] []])).vault.record
          heldSnapshot.container heldSnapshot.key).current = none := by
      rw [← Option.isNone_iff_eq_none]
      decide +kernel
    rintro (⟨o, ho⟩ | ⟨id, o, hid, -⟩)
    · rw [Vault.storedIn_eq Env.simple_collisionFree, Vault.stored, hgone] at ho
      cases ho
    · cases hid

end Sqrzl.Azure
