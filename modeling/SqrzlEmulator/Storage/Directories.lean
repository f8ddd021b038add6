import SqrzlEmulator.Storage.Vault

/-!
# The directories of the objects

The store keeps an object in a directory of its bucket, under the name that `compute_object_id`
makes from a hash of 64 bits of the bucket and the key. Nothing compares the key of a request with
that of the object in the directory, so that **two keys with one identity share an object**. A
`Vault` keeps what belongs to a key under the key.

As long as no two keys in use have the same identity (`Env.CollisionFree`), the two agree: the
directory of a key holds what the vault keeps under it (`Vault.directory_eq`), and what is written
under a key is written to its directory and to no other (`Vault.directory_setRecord`). Statements
about keys are statements about the files under this condition only.
-/

namespace Sqrzl

/-- **No two of the keys have the same identity** in the bucket. -/
def Env.CollisionFree (E : Env) (b : String) (keys : Set Text) : Prop :=
  Set.InjOn (E.computeObjectId b) keys

theorem Env.CollisionFree.mono {E : Env} {b : String} {keys keys' : Set Text} (hle : keys' ⊆ keys)
    (h : E.CollisionFree b keys) : E.CollisionFree b keys' :=
  Set.InjOn.mono hle h

/-- An identity that spells out the key is that of no other key. -/
theorem Env.simple_collisionFree {b : String} {keys : Set Text} :
    Env.simple.CollisionFree b keys :=
  fun _ _ _ _ h ↦ String.ofList_injective h

namespace Vault

variable {E : Env} {V : Vault} {b b' : String} {key : Text} {e : KeyRecord} {B : Bucket} {id : String}

/-- The keys of a bucket that something is kept under. -/
def used (V : Vault) (b : String) : Set Text :=
  {key | (V.buckets[b]?.bind (·.objects[key]?)).isSome}

/-- What the store has in the directory of an identity. -/
def directory (E : Env) (V : Vault) (b id : String) : KeyRecord :=
  (V.buckets[b]?.bind fun B ↦ Table.underHash (E.computeObjectId b) B.objects id).getD {}

/-- The current object of a key or one of its versions, as it is read from the directory of the
key. -/
def storedIn (E : Env) (V : Vault) (b : String) (key : Text) (version : Option String) :
    Except Error Stored :=
  match version with
  | none => orError .keyNotFound (V.directory E b (E.computeObjectId b key)).current
  | some id => (orError .bucketNotFound V.buckets[b]?).bind fun _ ↦
      (V.directory E b (E.computeObjectId b key)).version id

theorem record_eq_getD : V.record b key = (V.buckets[b]?.bind (·.objects[key]?)).getD {} := by
  rw [record]
  cases V.buckets[b]? <;> rfl

/-- A key that something is read under is in use. -/
theorem mem_used (h : V.record b key ≠ {}) : key ∈ V.used b := by
  by_contra hnot
  rw [used, Set.mem_ofPred_eq, Option.not_isSome_iff_eq_none] at hnot
  rw [record_eq_getD, hnot] at h
  exact h rfl

/-- The keys in use in a bucket are those of its table. -/
theorem used_of_bucket (hB : V.buckets[b]? = some B) :
    V.used b = {key | (B.objects[key]?).isSome} := by
  rw [used, hB]
  rfl

/-- **The directory of a key** holds what is kept under the key. -/
theorem directory_eq (hfree : E.CollisionFree b (insert key (V.used b))) :
    V.directory E b (E.computeObjectId b key) = V.record b key := by
  cases hB : V.buckets[b]? with
  | none => rw [directory, record, hB, Option.bind_none, Option.map_none]
  | some B =>
    rw [used_of_bucket hB] at hfree
    rw [directory, record, hB, Option.bind_some, Table.underHash_hash hfree, Option.map_some,
      Option.getD_some, Bucket.record]

/-- **What is written under a key** is written to its directory, and to no other. -/
theorem directory_setRecord (hfree : E.CollisionFree b (insert key (V.used b)))
    (hB : V.buckets[b]? = some B) : (V.setRecord b key e).directory E b' id =
      if b' = b ∧ id = E.computeObjectId b key then e else V.directory E b' id := by
  rw [directory, directory, setRecord, Table.getElem?_set]
  by_cases hb : b' = b
  · subst hb
    rw [used_of_bucket hB] at hfree
    rw [if_pos rfl, hB, Option.map_some, Option.bind_some, Option.bind_some, Bucket.setRecord,
      Table.underHash_set hfree]
    by_cases hid : id = E.computeObjectId b' key
    · rw [if_pos hid, if_pos (And.intro rfl hid)]
      cases hempty : e.isEmpty with
      | true => exact (KeyRecord.eq_empty hempty).symm
      | false => rfl
    · rw [if_neg hid, if_neg fun h ↦ hid h.2]
  · rw [if_neg hb, if_neg fun h ↦ hb h.1]

/-- What is read from the directory of a key is what is kept under the key. -/
theorem storedIn_eq {version : Option String} (hfree : E.CollisionFree b (insert key (V.used b))) :
    V.storedIn E b key version = V.stored b key version := by
  cases version with
  | none => rw [storedIn, stored, directory_eq hfree]
  | some id =>
    rw [storedIn, stored, directory_eq hfree]
    cases hB : V.buckets[b]? with
    | none => rfl
    | some B =>
      rw [record_eq hB]
      rfl

end Vault

end Sqrzl
