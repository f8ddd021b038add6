import SqrzlEmulator.Azure.Containers
import SqrzlEmulator.Storage.Directories

/-!
# The keys that a run uses

A blob and its snapshots are kept in directories of the store, which are named by a hash of container
and key. What a run does to the files is what it does to the keys **as long as no two keys that it
uses have the same identity** (`Env.CollisionFree`): the keys that something is kept under at some
point of the run, and the keys that its requests name.
-/

namespace Sqrzl.Azure

/-- The keys of a container that a request names: that of the blob, that of the snapshot that it asks
for, and that of the snapshot that it makes. -/
def Request.keys (C : Codec) (now : Time) (c : String) (req : Request) : Set Text :=
  {key | req.container = some c ∧ ∃ k, req.blob = some k ∧
    (key = k ∨ (∃ t, req.queryParam "snapshot" = some t ∧ key = snapshotStorageKey C k t) ∨
      blobOperation req = .snapshot ∧ key = snapshotStorageKey C k (C.timestamp now))}

section Runs

variable (E : Env) (C : Codec) (G : Gate) (reads : Reads)

/-- **The keys in use** in a container during a run: what something is kept under before or after one
of its steps, and what its requests name. -/
def keysInUse (A : Adapter) (steps : List Step) (c : String) : Set Text :=
  {key | ∃ first last, steps = first ++ last ∧
    (key ∈ (A.run E C G reads first).vault.used c ∨
      ∃ now req rest, last = .request now req :: rest ∧ key ∈ req.keys C now c)}

variable {E C G reads} {A : Adapter} {steps : List Step} {c : String} {k : Text}

/-- What is kept after a run is kept under a key in use. -/
theorem used_subset_keysInUse :
    (A.run E C G reads steps).vault.used c ⊆ keysInUse E C G reads A steps c :=
  fun _ hkey ↦ ⟨steps, [], (List.append_nil _).symm, Or.inl hkey⟩

/-- **What is read from the directory of a key** after a run is what is kept under the key, if no two
keys that the run has used have the same identity. -/
theorem storedIn_run (hfree : E.CollisionFree c (keysInUse E C G reads A steps c))
    (hk : (A.run E C G reads steps).vault.record c k ≠ {}) (version : Option String) :
    (A.run E C G reads steps).vault.storedIn E c k version =
      (A.run E C G reads steps).vault.stored c k version := by
  refine Vault.storedIn_eq (hfree.mono ?_)
  rintro key (rfl | hkey)
  · exact used_subset_keysInUse (Vault.mem_used hk)
  · exact used_subset_keysInUse hkey

end Runs

end Sqrzl.Azure
