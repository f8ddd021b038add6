import SqrzlEmulator.Prog.TwoRuns
import SqrzlEmulator.Storage.Vault

/-!
# Stores with hidden bytes

Some objects of a store are hidden from an observer: **their bytes are not seen**, and everything else
of them is. `Vault.conceal` is the store with the hidden bytes blotted out, so many of them as there
are, and two stores that are the same after that are `Vault.Twin`s.

The operations of the store pass on what they find, so that from twins they lead to twins
(`blind_putObject`, `blind_deleteObject` and the others). What is read of an object is the same in
twins unless the object is hidden (`Twin.stored`), and then it differs in its bytes only.
-/

namespace Sqrzl

open Prog Atomic

/-! ### Blotting out -/

/-- What is stored, with its bytes blotted out. -/
def blank (st : Stored) : Stored := (List.replicate st.1.length 0, st.2)

theorem blank_eq_iff {st st' : Stored} :
    blank st = blank st' ↔ st.1.length = st'.1.length ∧ st.2 = st'.2 := by
  simp [blank, List.replicate_inj]

namespace KeyRecord

variable {E : Env} {e : KeyRecord} {h : Bool} {v : Option VersioningState} {key : Text}

/-- A key with the bytes of all its versions blotted out. -/
def blank (e : KeyRecord) : KeyRecord where
  current := e.current.map Sqrzl.blank
  versions := e.versions.map fun _ ↦ Sqrzl.blank

/-- A key that may be hidden. -/
def hide (h : Bool) (e : KeyRecord) : KeyRecord := if h then e.blank else e

/-- What is blotted out of a key that may be hidden. -/
def veil (h : Bool) (st : Stored) : Stored := if h then Sqrzl.blank st else st

@[simp] theorem veil_snd {st : Stored} : (veil h st).2 = st.2 := by
  cases h <;> rfl

@[simp] theorem length_veil {st : Stored} : (veil h st).1.length = st.1.length := by
  cases h
  · rfl
  · exact List.length_replicate

/-- Blotting out twice is blotting out once. -/
@[simp] theorem veil_veil {st : Stored} : veil h (veil h st) = veil h st := by
  cases h
  · rfl
  · exact blank_eq_iff.2 ⟨List.length_replicate, rfl⟩

@[simp] theorem hide_current : (e.hide h).current = e.current.map (veil h) := by
  cases h
  · exact Option.map_id'.symm
  · rfl

theorem getElem?_hide {id : String} : (e.hide h).versions[id]? = e.versions[id]?.map (veil h) := by
  cases h
  · exact Option.map_id'.symm
  · exact Std.ExtTreeMap.getElem?_map

theorem ext_getElem? {e' : KeyRecord} (hcurrent : e.current = e'.current)
    (hversions : ∀ id : String, e.versions[id]? = e'.versions[id]?) : e = e' := by
  obtain ⟨current, versions⟩ := e
  obtain ⟨current', versions'⟩ := e'
  cases hcurrent
  cases Std.ExtTreeMap.ext_getElem? hversions
  rfl

@[simp] theorem hide_empty : ({} : KeyRecord).hide h = {} := by
  refine ext_getElem? ?_ fun id ↦ ?_
  · simp
  · simp [getElem?_hide]

/-- The metadata of the current version are not hidden. -/
@[simp] theorem hide_metadata : (e.hide h).metadata = e.metadata := by
  simp [metadata, Function.comp_def]

@[simp] theorem hide_isEmpty : (e.hide h).isEmpty = e.isEmpty := by
  have hversions : (e.hide h).versions.isEmpty = e.versions.isEmpty := by
    rw [Bool.eq_iff_iff, Std.ExtTreeMap.isEmpty_iff, Std.ExtTreeMap.isEmpty_iff,
      Table.eq_empty_iff, Table.eq_empty_iff]
    simp [getElem?_hide]
  rw [isEmpty, isEmpty, hversions, hide_current, Option.isNone_map]

/-- The versions of a key are listed alike. -/
@[simp] theorem hide_list : (e.hide h).list key = e.list key := by
  have hkept : (e.hide h).versions.toList.filterMap (fun version ↦
        if version.2.2.key = key then some version.2.2 else none) =
      e.versions.toList.filterMap fun version ↦
        if version.2.2.key = key then some version.2.2 else none := by
    cases h
    · rfl
    · rw [hide, if_pos rfl, blank, Std.ExtTreeMap.toList_map, List.filterMap_map]
      rfl
  rw [list, list, hide_metadata]
  simp only [hkept]

/-- A version that is kept is blotted out with the current one. -/
theorem hide_snapshot : (e.snapshot v).hide h = (e.hide h).snapshot v := by
  unfold snapshot
  cases v with
  | none => rfl
  | some v =>
    rw [hide_current]
    cases hcurrent : e.current with
    | none => rfl
    | some st =>
      rw [Option.map_some]
      simp only [veil_snd]
      split
      · refine ext_getElem? ?_ fun id ↦ ?_
        · simp
        · rw [getElem?_hide, Table.getElem?_set, Table.getElem?_set, getElem?_hide]
          split
          · cases h <;> rfl
          · rfl
      · rfl

/-- What is written does not depend on the bytes that were there. -/
theorem hide_put {id : Option String} {data : Bytes} {o : Object} :
    (e.put v id data o).hide h = ((e.hide h).put v id data o).hide h := by
  refine ext_getElem? ?_ fun id' ↦ ?_
  · simp [put]
  · rw [getElem?_hide, getElem?_hide, put, put, ← hide_snapshot]
    dsimp only
    split
    · rw [Table.getElem?_set, Table.getElem?_set, getElem?_hide]
      split
      · rfl
      · simp [Function.comp_def]
    · simp [getElem?_hide, Function.comp_def]

/-- Neither does a delete. -/
theorem hide_delete {v : VersioningState} {id : String} {marker : Object} :
    (e.delete v id marker).hide h = (e.hide h).delete v id marker := by
  refine ext_getElem? (by simp [delete]) fun id' ↦ ?_
  rw [getElem?_hide, delete, delete, ← hide_snapshot, Table.getElem?_set, Table.getElem?_set,
    getElem?_hide]
  split
  · cases h <;> rfl
  · rfl

/-- A version is read alike, apart from its bytes. -/
theorem hide_version {id : String} :
    (e.hide h).version id = (e.version id).map (veil h) := by
  unfold version
  split
  · rfl
  rw [getElem?_hide]
  cases e.versions[id]? with
  | some st => cases h <;> rfl
  | none =>
    rw [hide_current]
    cases e.current with
    | none => rfl
    | some st =>
      by_cases hid : st.2.versionId = some id
      · cases h <;> simp [veil, Sqrzl.blank, hid, Except.map]
      · cases h <;> simp [veil, Sqrzl.blank, hid, Except.map]

end KeyRecord

/-! ### Stores -/

/-- A bucket with the bytes of the hidden keys blotted out. -/
def Bucket.conceal (hidden : Text → Bool) (B : Bucket) : Bucket :=
  { B with objects := B.objects.map fun key e ↦ e.hide (hidden key) }

theorem Bucket.record_conceal {hidden : Text → Bool} {B : Bucket} {key : Text} :
    (B.conceal hidden).record key = (B.record key).hide (hidden key) := by
  rw [record, record, conceal, Std.ExtTreeMap.getElem?_map]
  cases B.objects[key]? with
  | none => exact KeyRecord.hide_empty.symm
  | some e => rfl

/-- A property of the metadata is one of some current object, or of none. -/
theorem Bucket.any_metadata_conceal {hidden : Text → Bool} {B : Bucket} {p : Object → Bool} :
    ((B.conceal hidden).objects.toList.any fun entry ↦ entry.2.metadata.any p) =
      B.objects.toList.any fun entry ↦ entry.2.metadata.any p := by
  rw [conceal, Std.ExtTreeMap.toList_map, List.any_map]
  simp [Function.comp_def]

namespace Vault

variable {E : Env} {hidden : String → Text → Bool} {V W : Vault} {b : String} {key : Text}
  {B : Bucket} {e : KeyRecord} {now : Time}

/-- A store with the bytes of the hidden keys blotted out. -/
def conceal (hidden : String → Text → Bool) (V : Vault) : Vault :=
  { V with buckets := V.buckets.map fun b B ↦ B.conceal (hidden b) }

theorem getElem?_conceal :
    (V.conceal hidden).buckets[b]? = V.buckets[b]?.map (Bucket.conceal (hidden b)) :=
  Std.ExtTreeMap.getElem?_map

theorem record_conceal : (V.conceal hidden).record b key = (V.record b key).hide (hidden b key) := by
  rw [record, record, getElem?_conceal]
  cases V.buckets[b]? with
  | none => exact KeyRecord.hide_empty.symm
  | some B => exact Bucket.record_conceal

theorem conceal_setRecord : (V.setRecord b key e).conceal hidden =
    (V.conceal hidden).setRecord b key (e.hide (hidden b key)) := by
  have hbucket (B : Bucket) : (B.setRecord key e).conceal (hidden b) =
      (B.conceal (hidden b)).setRecord key (e.hide (hidden b key)) := by
    rw [Bucket.conceal, Bucket.setRecord, Bucket.setRecord, Bucket.conceal, KeyRecord.hide_isEmpty]
    congr 1
    refine Std.ExtTreeMap.ext_getElem? fun key' ↦ ?_
    rw [Std.ExtTreeMap.getElem?_map, Table.getElem?_set, Table.getElem?_set,
      Std.ExtTreeMap.getElem?_map]
    split
    · next heq =>
      subst heq
      split <;> rfl
    · rfl
  rw [conceal, setRecord, setRecord, getElem?_conceal, conceal]
  congr 1
  refine Std.ExtTreeMap.ext_getElem? fun b' ↦ ?_
  rw [Std.ExtTreeMap.getElem?_map, Table.getElem?_set, Table.getElem?_set,
    Std.ExtTreeMap.getElem?_map]
  split
  · next heq =>
    subst heq
    cases V.buckets[b']? with
    | none => rfl
    | some B => exact congrArg some (hbucket B)
  · rfl

theorem conceal_draw {n : ℕ} : (V.draw n).conceal hidden = (V.conceal hidden).draw n := rfl

theorem conceal_setUpload {u : String} {upload : Option Upload} :
    (V.setUpload b u upload).conceal hidden = (V.conceal hidden).setUpload b u upload := by
  rw [conceal, setUpload, setUpload, getElem?_conceal, conceal]
  congr 1
  refine Std.ExtTreeMap.ext_getElem? fun b' ↦ ?_
  rw [Std.ExtTreeMap.getElem?_map, Table.getElem?_set, Table.getElem?_set,
    Std.ExtTreeMap.getElem?_map]
  split
  · next heq =>
    subst heq
    cases V.buckets[b']? <;> rfl
  · rfl

/-- **Two stores that differ in hidden bytes only.** -/
def Twin (hidden : String → Text → Bool) (V W : Vault) : Prop :=
  V.conceal hidden = W.conceal hidden

namespace Twin

variable (h : Twin hidden V W)

include h

theorem bucket (b : String) : V.buckets[b]?.map (Bucket.conceal (hidden b)) =
    W.buckets[b]?.map (Bucket.conceal (hidden b)) := by
  rw [← getElem?_conceal, ← getElem?_conceal, show V.conceal hidden = W.conceal hidden from h]

/-- What does not change when bytes are blotted out is the same in the buckets of twins. -/
theorem bucket_congr {α : Type} (b : String) (f : Bucket → α)
    (hf : ∀ B, f (B.conceal (hidden b)) = f B) :
    V.buckets[b]?.map f = W.buckets[b]?.map f := by
  have hmap : ∀ o : Option Bucket, o.map f = (o.map (Bucket.conceal (hidden b))).map f := by
    intro o
    cases o with
    | none => rfl
    | some B => exact congrArg some (hf B).symm
  rw [hmap, hmap W.buckets[b]?, h.bucket]

theorem record (b : String) (key : Text) :
    (V.record b key).hide (hidden b key) = (W.record b key).hide (hidden b key) := by
  rw [← record_conceal, ← record_conceal, show V.conceal hidden = W.conceal hidden from h]

theorem drawn : V.drawn = W.drawn :=
  (congrArg Vault.drawn h :)

theorem metadata (b : String) (key : Text) :
    (V.record b key).metadata = (W.record b key).metadata := by
  rw [← KeyRecord.hide_metadata, h.record, KeyRecord.hide_metadata]

theorem list (b : String) (key : Text) :
    (V.record b key).list key = (W.record b key).list key := by
  rw [← KeyRecord.hide_list (h := hidden b key), h.record, KeyRecord.hide_list]

/-- A bucket that is in one of them is in the other one. -/
theorem exists_bucket (hB : V.buckets[b]? = some B) :
    ∃ B', W.buckets[b]? = some B' ∧ B.conceal (hidden b) = B'.conceal (hidden b) := by
  have hbucket := h.bucket b
  rw [hB, Option.map_some] at hbucket
  obtain ⟨B', hB', heq⟩ := Option.map_eq_some_iff.1 hbucket.symm
  exact ⟨B', hB', heq.symm⟩

theorem no_bucket (hB : V.buckets[b]? = none) : W.buckets[b]? = none := by
  have hbucket := h.bucket b
  rw [hB, Option.map_none] at hbucket
  exact Option.map_eq_none_iff.1 hbucket.symm

/-- What replaces a key leads to twins if it is the same after blotting out. -/
theorem setRecord {e e' : KeyRecord} (he : e.hide (hidden b key) = e'.hide (hidden b key)) :
    Twin hidden (V.setRecord b key e) (W.setRecord b key e') := by
  rw [Twin, conceal_setRecord, conceal_setRecord, show V.conceal hidden = W.conceal hidden from h, he]

theorem draw (n : ℕ) : Twin hidden (V.draw n) (W.draw n) := by
  rw [Twin, conceal_draw, conceal_draw, show V.conceal hidden = W.conceal hidden from h]

theorem setUpload {u : String} {upload : Option Upload} :
    Twin hidden (V.setUpload b u upload) (W.setUpload b u upload) := by
  rw [Twin, conceal_setUpload, conceal_setUpload, show V.conceal hidden = W.conceal hidden from h]

/-- **What is read of an object** is the same in twins, apart from its bytes. -/
theorem veil_stored (b : String) (key : Text) (version : Option String) :
    (V.stored b key version).map (KeyRecord.veil (hidden b key)) =
      (W.stored b key version).map (KeyRecord.veil (hidden b key)) := by
  have hconceal : ∀ V : Vault, (V.stored b key version).map (KeyRecord.veil (hidden b key)) =
      (V.conceal hidden).stored b key version := by
    intro V
    cases version with
    | none =>
      rw [stored, stored, record_conceal, KeyRecord.hide_current]
      cases (V.record b key).current <;> rfl
    | some id =>
      rw [stored, stored, getElem?_conceal]
      cases V.buckets[b]? with
      | none => rfl
      | some B =>
        show Except.map _ ((B.record key).version id) = ((B.conceal (hidden b)).record key).version id
        rw [Bucket.record_conceal, KeyRecord.hide_version]
  rw [hconceal, hconceal, show V.conceal hidden = W.conceal hidden from h]

/-- **What is read of an object that is not hidden** is the same in twins. -/
theorem stored (hseen : hidden b key = false) (version : Option String) :
    V.stored b key version = W.stored b key version := by
  have hveil := h.veil_stored b key version
  have hid : ∀ r : Except Error Stored, r.map (KeyRecord.veil (hidden b key)) = r := by
    intro r
    rw [hseen]
    cases r <;> rfl
  rwa [hid, hid] at hveil

end Twin

/-! ### Operations -/

variable {u : String} {n : ℕ} {o : Object} {data : Bytes} {c : ObjectCondition}

/-- A write leads from twins to twins. -/
theorem blind_putObject : Blind (Twin hidden) (putObject E b key o data) := by
  intro V W h
  unfold putObject
  cases hB : V.buckets[b]? with
  | none =>
    rw [h.no_bucket hB]
    exact ⟨rfl, h⟩
  | some B =>
    obtain ⟨B', hB', hsame⟩ := h.exists_bucket hB
    have hversioning : B.versioning = B'.versioning := (congrArg Bucket.versioning hsame :)
    have hrecord : (B.record key).hide (hidden b key) = (B'.record key).hide (hidden b key) := by
      rw [← Vault.record_eq hB, ← Vault.record_eq hB', h.record]
    rw [hB']
    dsimp only
    rw [hversioning, h.drawn]
    split
    · refine ⟨rfl, (h.setRecord ?_).draw _⟩
      rw [KeyRecord.hide_snapshot, KeyRecord.hide_snapshot, hrecord]
    · refine ⟨rfl, (h.setRecord ?_).draw _⟩
      rw [KeyRecord.hide_put, hrecord, ← KeyRecord.hide_put]

/-- What is done under a condition on the metadata leads from twins to twins if it does so without
the condition. -/
theorem blind_mutateIf {mutation : VaultOp Unit} (hm : Blind (Twin hidden) mutation) :
    Blind (Twin hidden) (mutateIf b key c mutation) := by
  refine .bind (.view fun V W h ↦ h.metadata b key) fun metadata ↦ ?_
  split
  · exact .bind hm fun _ ↦ .pure
  · exact .pure

/-- A delete leads from twins to twins. -/
theorem blind_deleteObject : Blind (Twin hidden) (deleteObject E now b key) := by
  intro V W h
  have hversioning : V.buckets[b]?.bind (·.versioning) = W.buckets[b]?.bind (·.versioning) := by
    have hjoin : ∀ o : Option Bucket, o.bind (·.versioning) = (o.map Bucket.versioning).join := by
      intro o
      cases o <;> rfl
    rw [hjoin, hjoin, h.bucket_congr b Bucket.versioning fun _ ↦ rfl]
  unfold deleteObject
  rw [hversioning]
  split
  · have hnone : (V.record b key).current.isNone = (W.record b key).current.isNone := by
      have hmetadata := congrArg Option.isNone (h.metadata b key)
      rwa [KeyRecord.metadata, KeyRecord.metadata, Option.isNone_map, Option.isNone_map] at hmetadata
    rw [hnone]
    split
    · exact ⟨rfl, h⟩
    · exact ⟨rfl, h.setRecord rfl⟩
  · dsimp only
    rw [h.drawn]
    refine ⟨rfl, (h.setRecord ?_).draw _⟩
    rw [KeyRecord.hide_delete, KeyRecord.hide_delete, h.record]

/-- A bucket is found in both, or in neither. -/
theorem alike_getBucket_bind {α : Type} {f : Bucket → VaultOp α} (h : Twin hidden V W)
    (hf : ∀ B B', B.conceal (hidden b) = B'.conceal (hidden b) →
      Alike (Twin hidden) (f B V) (f B' W)) :
    Alike (Twin hidden) ((getBucket b >>= f) V) ((getBucket b >>= f) W) := by
  cases hB : V.buckets[b]? with
  | none =>
    rw [getBucket, find_bind_of_none (g := fun V : Vault ↦ V.buckets[b]?) hB,
      find_bind_of_none (g := fun V : Vault ↦ V.buckets[b]?) (h.no_bucket hB)]
    exact ⟨rfl, h⟩
  | some B =>
    obtain ⟨B', hB', hsame⟩ := h.exists_bucket hB
    rw [getBucket, find_bind_of_some (g := fun V : Vault ↦ V.buckets[b]?) hB,
      find_bind_of_some (g := fun V : Vault ↦ V.buckets[b]?) hB']
    exact hf B B' hsame

/-- An upload is found alike. -/
theorem blind_getUpload : Blind (Twin hidden) (getUpload b u) := by
  refine fun V W h ↦ alike_getBucket_bind h fun B B' hsame ↦ .ofExcept ?_ h
  rw [show B.uploads = B'.uploads from (congrArg Bucket.uploads hsame :)]

/-- A part is put in place alike. -/
theorem blind_uploadPart : Blind (Twin hidden) (uploadPart E now b u n data) := by
  unfold uploadPart
  refine fun _ _ h ↦ alike_getBucket_bind h fun _ _ _ ↦ ?_
  refine (Blind.refuseIf _ _ h).bind fun _ _ _ _ _ h ↦ (blind_getUpload _ _ h).bind ?_
  refine fun upload _ _ _ _ h ↦ (Blind.refuseIf _ _ h).bind fun _ _ _ _ _ h ↦ ?_
  exact ⟨rfl, h.setUpload⟩

end Vault

end Sqrzl
