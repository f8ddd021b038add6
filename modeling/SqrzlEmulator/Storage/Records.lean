import SqrzlEmulator.Storage.Vault

/-!
# Versions of a key

What the operations of the store do to the versions of one key, without looking at what the versions
are. In every record that the operations can build, **each version has an identity of its own**
(`KeyRecord.Regular`), and a version is found again under its identity, as the current one or as one
of the kept ones, whatever happens to the others (`KeyRecord.Holds`).

* A write keeps the current version only where versioning is on; the kept ones stay.
* A delete is a write in this respect, of a marker.
* The deletion of a version takes away the version that it names, and may make a kept one current.
-/

namespace Sqrzl

namespace KeyRecord

variable {E : Env} {v : Option VersioningState} {n n' : ℕ} {key : Text} {e e' : KeyRecord}
  {data : Bytes} {o : Object}

/-! ### Identities -/

/-- An identity that a version can have when `n` identities have been drawn. -/
def Drawn (E : Env) (n : ℕ) (id : String) : Prop := ∃ m, m < n ∧ id = E.uuid m

theorem Drawn.mono {id : String} (h : Drawn E n id) (hn : n ≤ n') : Drawn E n' id := by
  obtain ⟨m, hm, rfl⟩ := h
  exact ⟨m, hm.trans_le hn, rfl⟩

theorem not_drawn_uuid : ¬ Drawn E n (E.uuid n) := by
  rintro ⟨m, hm, hid⟩
  exact absurd (E.uuid_injective hid) hm.ne'

theorem not_drawn_null : ¬ Drawn E n "null" := by
  rintro ⟨m, -, hid⟩
  exact E.uuid_ne_null m hid.symm

theorem Drawn.valid {id : String} (h : Drawn E n id) : validVersionId id = true := by
  obtain ⟨m, -, rfl⟩ := h
  exact E.uuid_valid m

/-- A marker with the identity `null`, as a delete in a bucket with suspended versioning leaves
it. -/
def IsNullMarker (E : Env) (key : Text) (o : Object) : Prop :=
  ∃ t, o = (deleteMarker E t key "null").serialized

/-- The identity of the current version, by the versioning of the bucket. -/
def CurrentId (E : Env) (n : ℕ) : Option VersioningState → Option String → Prop
  | none, id => id = none
  | some .enabled, id => ∃ i, id = some i ∧ Drawn E n i
  | some .suspended, id => ∃ i, id = some i ∧ (Drawn E n i ∨ i = "null")

theorem CurrentId.mono {id : Option String} (h : CurrentId E n v id) (hn : n ≤ n') :
    CurrentId E n' v id := by
  match v, h with
  | none, h => exact h
  | some .enabled, ⟨i, hi, hd⟩ => exact ⟨i, hi, hd.mono hn⟩
  | some .suspended, ⟨i, hi, hd⟩ => exact ⟨i, hi, hd.imp_left fun h ↦ h.mono hn⟩

/-- What is known of a version of a key. -/
def Fits (key : Text) (st : Stored) : Prop := st.2.key = key ∧ st.2.size = st.1.length

/-- **Each version has an identity of its own**, and none is from the future. -/
structure Regular (E : Env) (v : Option VersioningState) (n : ℕ) (key : Text) (e : KeyRecord) :
    Prop where
  current : ∀ data o, e.current = some (data, o) →
    Fits key (data, o) ∧ CurrentId E n v o.versionId ∧ e.versions[History.keptId o]? = none
  version : ∀ id data o, e.versions[id]? = some (data, o) →
    Fits key (data, o) ∧ o.versionId = some id ∧ (Drawn E n id ∨ id = "null" ∧ IsNullMarker E key o)
  unversioned : v = none → e.versions = ∅

theorem Regular.empty : Regular E v n key {} where
  current _ _ h := nomatch h
  version id data o h := by simp at h
  unversioned _ := rfl

theorem Regular.mono (h : Regular E v n key e) (hn : n ≤ n') : Regular E v n' key e where
  current data o hcurrent := by
    obtain ⟨hfits, hid, hnone⟩ := h.current data o hcurrent
    exact ⟨hfits, hid.mono hn, hnone⟩
  version id data o hversion := by
    obtain ⟨hfits, hid, hdrawn⟩ := h.version id data o hversion
    exact ⟨hfits, hid, hdrawn.imp_left fun h ↦ h.mono hn⟩
  unversioned := h.unversioned

/-! ### Keeping the current version -/

/-- A version is kept under its identity. -/
theorem snapshot_of_enabled (hcurrent : e.current = some (data, o)) :
    e.snapshot (some .enabled) =
      let kept := (o.withVersionId (some (History.keptId o))).serialized
      { e with versions := e.versions.set (History.keptId o) (some (data, kept)) } := by
  simp only [snapshot, hcurrent, true_or, if_true]

/-- What is kept is the current version, or has been kept before. -/
theorem snapshot_versions {id : String} {st : Stored} (h : (e.snapshot v).versions[id]? = some st) :
    e.versions[id]? = some st ∨ ∃ data o, e.current = some (data, o) ∧ id = History.keptId o ∧
      st = (data, (o.withVersionId (some id)).serialized) ∧ v.isSome ∧
      (v = some .enabled ∨ id ≠ "null") := by
  unfold snapshot at h
  split at h
  · next v' data o hcurrent =>
    split at h
    · next hkeep =>
      rw [Table.getElem?_set] at h
      split at h
      · next hid =>
        subst hid
        exact Or.inr ⟨data, o, hcurrent, rfl, (Option.some.inj h).symm, rfl,
          hkeep.imp_left fun h ↦ congrArg some h⟩
      · exact Or.inl h
    · exact Or.inl h
  · exact Or.inl h

/-- What has been kept stays, as the identities differ. -/
theorem Regular.snapshot_of_version (h : Regular E v n key e) {id : String} {st : Stored}
    (hversion : e.versions[id]? = some st) : (e.snapshot v).versions[id]? = some st := by
  unfold snapshot
  split
  · next v' data o hcurrent =>
    split
    · have hne : id ≠ History.keptId o := by
        rintro rfl
        rw [(h.current data o hcurrent).2.2] at hversion
        cases hversion
      rw [Table.getElem?_set, if_neg hne, hversion]
    · exact hversion
  · exact hversion

/-- The identity of a current version is one that has been drawn, or `null`. -/
theorem Regular.keptId_drawn (h : Regular E v n key e) (hcurrent : e.current = some (data, o))
    (hv : v.isSome) : o.versionId = some (History.keptId o) ∧
      (Drawn E n (History.keptId o) ∨ History.keptId o = "null" ∧ v = some .suspended) := by
  obtain ⟨-, hid, -⟩ := h.current data o hcurrent
  match v, hid with
  | some .enabled, ⟨i, hi, hd⟩ =>
    rw [History.keptId, hi, Option.getD_some]
    exact ⟨rfl, Or.inl hd⟩
  | some .suspended, ⟨i, hi, hd⟩ =>
    rw [History.keptId, hi, Option.getD_some]
    exact ⟨rfl, hd.imp_right fun h ↦ ⟨h, rfl⟩⟩

theorem Regular.snapshot_version (h : Regular E v n key e) {id : String}
    (hversion : (e.snapshot v).versions[id]? = some (data, o)) :
    Fits key (data, o) ∧ o.versionId = some id ∧ (Drawn E n id ∨ id = "null" ∧ IsNullMarker E key o) := by
  rcases snapshot_versions hversion with hold | ⟨data', o', hcurrent, rfl, hst, hv, hkeep⟩
  · exact h.version id data o hold
  · cases hst
    refine ⟨(h.current data o' hcurrent).1, rfl, Or.inl ?_⟩
    rcases (h.keptId_drawn hcurrent hv).2 with hdrawn | ⟨hnull, hsuspended⟩
    · exact hdrawn
    · rcases hkeep with henabled | hne
      · rw [hsuspended] at henabled
        cases henabled
      · exact absurd hnull hne

/-! ### Writes -/

theorem put_versions {id : Option String} {id' : String} :
    (e.put v id data o).versions[id']? =
      if id = some "null" ∧ id' = "null" then none else (e.snapshot v).versions[id']? := by
  unfold put
  by_cases hid : id = some "null"
  · simp [hid]
  · simp [hid]

theorem le_drawnFor : n ≤ drawnFor v n := by
  unfold drawnFor
  split
  · exact Nat.le_succ n
  · exact le_rfl

/-- **Writes keep identities apart.** -/
theorem Regular.put (h : Regular E v n key e) (ho : Fits key (data, o)) :
    Regular E v (drawnFor v n) key (e.put v (versionIdFor E v n) data o) where
  current data' o' hcurrent := by
    obtain ⟨rfl, rfl⟩ := Prod.mk.inj (Option.some.inj hcurrent)
    refine ⟨ho, ?_, ?_⟩
    · match v with
      | none => exact rfl
      | some .enabled => exact ⟨E.uuid n, rfl, n, Nat.lt_succ_self n, rfl⟩
      | some .suspended => exact ⟨"null", rfl, Or.inr rfl⟩
    · rw [put_versions]
      match v, h with
      | none, h =>
        rw [if_neg (by simp [versionIdFor])]
        have hempty := h.unversioned rfl
        simp [KeyRecord.snapshot, hempty]
      | some .enabled, h =>
        rw [if_neg (by simp [versionIdFor, E.uuid_ne_null])]
        show (e.snapshot _).versions[E.uuid n]? = none
        cases hversion : (e.snapshot (some .enabled)).versions[E.uuid n]? with
        | none => rfl
        | some st =>
          rcases (h.snapshot_version hversion).2.2 with hdrawn | ⟨hnull, -⟩
          · exact absurd hdrawn not_drawn_uuid
          · exact absurd hnull (E.uuid_ne_null n)
      | some .suspended, h => exact if_pos ⟨rfl, rfl⟩
  version id data' o' hversion := by
    rw [put_versions] at hversion
    split at hversion
    · cases hversion
    · obtain ⟨hfits, hid, hdrawn⟩ := h.snapshot_version hversion
      exact ⟨hfits, hid, hdrawn.imp_left fun h ↦ h.mono le_drawnFor⟩
  unversioned hv := by
    refine Std.ExtTreeMap.ext_getElem? fun id ↦ ?_
    subst hv
    rw [put_versions, if_neg (by simp [versionIdFor])]
    simp [KeyRecord.snapshot, h.unversioned rfl]

/-! ### Deletes -/

/-- The identity of the marker that a delete leaves. -/
theorem markerId_cases {v : VersioningState} {id : String} (hid : versionIdFor E (some v) n = some id) :
    (v = .enabled ∧ id = E.uuid n) ∨ (v = .suspended ∧ id = "null") := by
  cases v with
  | enabled => exact Or.inl ⟨rfl, (Option.some.inj hid).symm⟩
  | suspended => exact Or.inr ⟨rfl, (Option.some.inj hid).symm⟩

/-- **Deletes keep identities apart.** -/
theorem Regular.delete {v : VersioningState} {id : String} {t : Time}
    (h : Regular E (some v) n key e) (hid : versionIdFor E (some v) n = some id) :
    Regular E (some v) (drawnFor (some v) n) key (e.delete v id (deleteMarker E t key id)) where
  current _ _ hcurrent := nomatch hcurrent
  version id' data' o' hversion := by
    replace hversion : ((e.snapshot (some v)).versions.set id
      (some ([], (deleteMarker E t key id).serialized)))[id']? = some (data', o') := hversion
    rw [Table.getElem?_set] at hversion
    split at hversion
    · next heq =>
      cases hversion
      refine ⟨⟨rfl, rfl⟩, congrArg some heq.symm, ?_⟩
      rcases markerId_cases hid with ⟨rfl, rfl⟩ | ⟨rfl, rfl⟩
      · exact Or.inl ⟨n, Nat.lt_succ_self n, heq⟩
      · exact Or.inr ⟨heq, t, rfl⟩
    · obtain ⟨hfits, hid', hdrawn⟩ := h.snapshot_version hversion
      exact ⟨hfits, hid', hdrawn.imp_left fun h ↦ h.mono le_drawnFor⟩
  unversioned := nofun

/-! ### Listing versions -/

/-- An accumulator that keeps its value or takes the element has a value that has been seen. -/
theorem foldl_eq_some {f : Option Object → Object → Option Object}
    (hf : ∀ acc y, f acc y = acc ∨ f acc y = some y) (rest : List Object) (acc : Option Object)
    (h : rest.foldl f acc = some o) : acc = some o ∨ o ∈ rest := by
  induction rest generalizing acc with
  | nil => exact .inl h
  | cons y rest ih =>
    rcases ih _ h with hacc | hmem
    · rcases hf acc y with hkept | htaken
      · exact .inl (hkept.symm.trans hacc)
      · rw [htaken] at hacc
        exact .inr (Option.some.inj hacc ▸ List.mem_cons_self)
    · exact .inr (List.mem_cons_of_mem y hmem)

/-- The latest version is one of the versions. -/
theorem mem_of_latestVersion {l : List Object} (h : latestVersion l = some o) : o ∈ l := by
  refine (foldl_eq_some (fun acc y ↦ ?_) l none h).resolve_left fun h ↦ by cases h
  cases acc with
  | none => exact .inr rfl
  | some latest =>
    dsimp only
    split
    · exact .inl rfl
    · exact .inr rfl

/-- What is listed, before it is sorted. -/
def listed (key : Text) (e : KeyRecord) : List Object :=
  (e.metadata.filter fun o ↦ o.key = key && o.versionId.isSome).toList ++
    e.versions.toList.filterMap fun version ↦
      if version.2.2.key = key then some version.2.2 else none

/-- What is listed is the current version, or one of those kept. -/
theorem mem_list_cases (h : o ∈ e.list key) :
    (∃ data, e.current = some (data, o) ∧ o.versionId.isSome) ∨
      ∃ (id : String) (data : Bytes), e.versions[id]? = some (data, o) := by
  have hmem := (List.destutter_sublist ..).subset h
  rw [List.mem_mergeSort, List.mem_append] at hmem
  rcases hmem with hcurrent | hkept
  · rw [Option.mem_toList, Option.filter_eq_some_iff] at hcurrent
    obtain ⟨hmetadata, hlisted⟩ := hcurrent
    obtain ⟨⟨data, o'⟩, hst, rfl⟩ := Option.map_eq_some_iff.1 hmetadata
    exact Or.inl ⟨data, hst, (Bool.and_eq_true_iff.1 hlisted).2⟩
  · obtain ⟨⟨id, data, o'⟩, hentry, ho⟩ := List.mem_filterMap.1 hkept
    dsimp only at ho
    split at ho
    · cases ho
      exact Or.inr ⟨id, data, Std.ExtTreeMap.mem_toList_iff_getElem?_eq_some.1 hentry⟩
    · cases ho

/-- Every version is filed under its own identity. -/
structure Keyed (key : Text) (e : KeyRecord) : Prop where
  current : ∀ data o, e.current = some (data, o) → o.key = key ∧
    ∀ id, o.versionId = some id → validVersionId id = true ∧ e.versions[id]? = none
  version : ∀ id data o, e.versions[id]? = some (data, o) →
    o.key = key ∧ o.versionId = some id ∧ validVersionId id = true

theorem Regular.keyed (h : Regular E v n key e) : Keyed key e where
  current data o hcurrent := by
    obtain ⟨hfits, hid, hfresh⟩ := h.current data o hcurrent
    refine ⟨hfits.1, fun id ho ↦ ⟨?_, ?_⟩⟩
    · rw [ho] at hid
      match v, hid with
      | some .enabled, ⟨i, hi, hdrawn⟩ =>
        cases hi
        exact hdrawn.valid
      | some .suspended, ⟨i, hi, hdrawn⟩ =>
        cases hi
        rcases hdrawn with hdrawn | rfl
        · exact hdrawn.valid
        · decide
    · rwa [History.keptId, ho] at hfresh
  version id data o hversion := by
    obtain ⟨hfits, hid, hdrawn⟩ := h.version id data o hversion
    refine ⟨hfits.1, hid, ?_⟩
    rcases hdrawn with hdrawn | ⟨rfl, -⟩
    · exact hdrawn.valid
    · decide

/-- The versions that are kept have different identities. -/
theorem Keyed.pairwise_kept (h : Keyed key e) :
    (e.versions.toList.filterMap fun version ↦
      if version.2.2.key = key then some version.2.2 else none).Pairwise
        fun l r ↦ l.versionId ≠ r.versionId := by
  have hid : ∀ {entry o}, entry ∈ e.versions.toList →
      (if entry.2.2.key = key then some entry.2.2 else none) = some o →
        o.versionId = some entry.1 := by
    rintro ⟨id, data, o'⟩ o hentry ho
    split at ho
    · cases ho
      exact (h.version id data o' (Std.ExtTreeMap.mem_toList_iff_getElem?_eq_some.1 hentry)).2.1
    · cases ho
  refine List.pairwise_filterMap.2 (e.versions.distinct_keys_toList.imp_of_mem ?_)
  intro entry entry' hentry hentry' hne o ho o' ho' heq
  rw [hid hentry ho, hid hentry' ho', Option.some.injEq] at heq
  exact hne (heq ▸ Std.ReflCmp.compare_self)

/-- The versions that are listed have different identities. -/
theorem Keyed.pairwise_listed (h : Keyed key e) :
    (e.listed key).Pairwise fun l r ↦ l.versionId ≠ r.versionId := by
  refine List.pairwise_append.2 ⟨?_, h.pairwise_kept, ?_⟩
  · cases e.metadata.filter fun o ↦ o.key = key && o.versionId.isSome with
    | none => exact List.Pairwise.nil
    | some o => exact List.pairwise_singleton _ o
  · intro o ho o' ho' heq
    rw [Option.mem_toList, Option.filter_eq_some_iff] at ho
    obtain ⟨⟨data, _⟩, hcurrent, rfl⟩ := Option.map_eq_some_iff.1 ho.1
    obtain ⟨⟨id, data', o''⟩, hentry, hkept⟩ := List.mem_filterMap.1 ho'
    dsimp only at hkept
    split at hkept
    · cases hkept
      have hversion := Std.ExtTreeMap.mem_toList_iff_getElem?_eq_some.1 hentry
      have hfresh := ((h.current data _ hcurrent).2 id
        (heq.trans (h.version id data' o' hversion).2.1)).2
      rw [hversion] at hfresh
      cases hfresh
    · cases hkept

/-- **Nothing that is listed is dropped**: neighbours differ in their identities. -/
theorem Keyed.list_eq (h : Keyed key e) :
    e.list key = (e.listed key).mergeSort fun l r ↦ (compare l.versionId r.versionId).isLE := by
  have hsorted : ((e.listed key).mergeSort fun l r ↦ (compare l.versionId r.versionId).isLE).Pairwise
      fun l r ↦ l.versionId ≠ r.versionId :=
    ((List.mergeSort_perm _ _).pairwise_iff Ne.symm).2 h.pairwise_listed
  exact List.destutter_of_isChain _ _ hsorted.isChain

/-- **Every kept version is listed.** -/
theorem Regular.mem_list (h : Regular E v n key e) {id : String}
    (hversion : e.versions[id]? = some (data, o)) : o ∈ e.list key := by
  rw [h.keyed.list_eq, List.mem_mergeSort]
  refine List.mem_append_right _ (List.mem_filterMap.2 ⟨(id, data, o), ?_, ?_⟩)
  · exact Std.ExtTreeMap.mem_toList_iff_getElem?_eq_some.2 hversion
  · exact if_pos (h.version id data o hversion).1.1

/-! ### Deleting a version -/

/-- What the deletion of a version does. -/
theorem deleteVersion_cases {id : String} (h : e.deleteVersion key id = .ok e') :
    (e' = { e with versions := e.versions.set id none } ∧
      ∀ data o, e.current = some (data, o) → o.versionId ≠ some id) ∨
    (e' = { current := none, versions := e.versions.set id none } ∧
      ∀ data o, e.current = some (data, o) → o.versionId = some id) ∨
    ∃ (o : Object) (id' : String) (data : Bytes) (o' : Object),
      o ∈ e.list key ∧ o.versionId = some id' ∧ id' ≠ id ∧ o.isDeleteMarker = false ∧
      e.versions[id']? = some (data, o') ∧
      (∀ data o, e.current = some (data, o) → o.versionId = some id) ∧
      e' = { current := some (data, o), versions := (e.versions.set id none).set id' none } := by
  unfold deleteVersion at h
  dsimp only at h
  split at h
  · cases h
  split at h
  · cases h
  split at h
  · next hclear =>
    have hcurrent : ∀ data o, e.current = some (data, o) → o.versionId = some id := by
      intro data o hcurrent
      simpa [metadata, hcurrent] using hclear
    cases hpromoted : e.promoted key id with
    | none =>
      rw [hpromoted] at h
      cases h
      exact Or.inr (Or.inl ⟨rfl, hcurrent⟩)
    | some o =>
      rw [hpromoted] at h
      dsimp only at h
      obtain ⟨hlatest, hmarker⟩ := Option.filter_eq_some_iff.1 hpromoted
      obtain ⟨hmem, hne⟩ := List.mem_filter.1 (mem_of_latestVersion hlatest)
      cases hid : o.versionId with
      | none =>
        rw [hid] at h
        cases h
      | some id' =>
        rw [hid] at h
        dsimp only at h
        cases hversion : e.versions[id']? with
        | none =>
          rw [hversion] at h
          cases h
        | some st =>
          rw [hversion] at h
          cases h
          refine Or.inr (Or.inr ⟨o, id', st.1, st.2, hmem, hid, ?_, by simpa using hmarker, hversion,
            hcurrent, rfl⟩)
          rw [hid] at hne
          simpa using hne
  · next hkeep =>
    cases h
    refine Or.inl ⟨rfl, fun data o hcurrent ↦ ?_⟩
    simpa [metadata, hcurrent] using hkeep

/-- Among several versions there is a latest one. -/
theorem exists_latestVersion {l : List Object} (h : l ≠ []) : ∃ o, latestVersion l = some o := by
  obtain ⟨first, rest, rfl⟩ := List.exists_cons_of_ne_nil h
  rw [latestVersion, List.foldl_cons]
  refine List.foldlRecOn (motive := fun latest ↦ ∃ o, latest = some o) rest _ ⟨first, rfl⟩ ?_
  rintro _ ⟨latest, rfl⟩ o -
  dsimp only
  split
  · exact ⟨latest, rfl⟩
  · exact ⟨o, rfl⟩

/-- **The only version that is kept is promoted** when the current one is deleted. -/
theorem Regular.deleteVersion_of_single (h : Regular E v n key e) {id id' : String} {data' : Bytes}
    {o' : Object} (hcurrent : e.current = some (data, o)) (hid : o.versionId = some id)
    (hvalid : validVersionId id = true) (hkept : e.versions[id']? = some (data', o'))
    (hsingle : ∀ (i : String) (st : Stored), e.versions[i]? = some st → i = id') (hne : id' ≠ id)
    (hmarker : o'.isDeleteMarker = false) :
    e.deleteVersion key id =
      .ok ⟨some (data', o'), (e.versions.set id none).set id' none⟩ := by
  have hid' : o'.versionId = some id' := (h.version id' data' o' hkept).2.1
  have hpromoted : e.promoted key id = some o' := by
    have hmem : o' ∈ (e.list key).filter (·.versionId ≠ some id) := by
      refine List.mem_filter.2 ⟨h.mem_list hkept, ?_⟩
      rw [hid']
      exact decide_eq_true fun heq ↦ hne (Option.some.inj heq)
    obtain ⟨latest, hlatest⟩ := exists_latestVersion (List.ne_nil_of_mem hmem)
    obtain ⟨hlisted, hother⟩ := List.mem_filter.1 (mem_of_latestVersion hlatest)
    obtain rfl : latest = o' := by
      rcases mem_list_cases hlisted with ⟨data'', hst, -⟩ | ⟨i, data'', hst⟩
      · rw [hcurrent] at hst
        cases hst
        exact absurd hid (of_decide_eq_true hother)
      · obtain rfl := hsingle i _ hst
        rw [hkept] at hst
        cases hst
        rfl
    rw [promoted, hlatest, Option.filter_some_pos]
    rw [hmarker]
    rfl
  have hdeleting : e.metadata.any (·.versionId = some id) = true := by
    rw [metadata, hcurrent]
    exact decide_eq_true hid
  simp only [KeyRecord.deleteVersion, hvalid, hdeleting, hpromoted, hid', hkept, Bool.not_true,
    Bool.and_false, Bool.true_or, Bool.false_eq_true, if_false, if_true]

/-- A version that is deleted was there. -/
theorem found_of_deleteVersion {id : String} (h : e.deleteVersion key id = .ok e') :
    (e.versions[id]?).isSome ∨ ∃ data o, e.current = some (data, o) ∧ o.versionId = some id := by
  unfold deleteVersion at h
  dsimp only at h
  split at h
  · cases h
  split at h
  · cases h
  · next hfound =>
    rw [Bool.and_eq_true, not_and_or, Bool.not_eq_true', Bool.not_eq_false, Bool.not_eq_true',
      Bool.not_eq_false] at hfound
    rcases hfound with hkept | hcurrent
    · refine Or.inl ?_
      rw [Std.ExtTreeMap.isSome_getElem?_eq_contains]
      exact hkept
    · refine Or.inr ?_
      cases hst : e.current with
      | none => simp [metadata, hst] at hcurrent
      | some st =>
        rw [metadata, hst] at hcurrent
        exact ⟨st.1, st.2, rfl, of_decide_eq_true hcurrent⟩

/-- The version that is promoted is one of those kept. -/
theorem Regular.promoted_eq (h : Regular E v n key e) {id id' : String} {o o' : Object}
    (hmem : o ∈ e.list key) (hid : o.versionId = some id') (hne : id' ≠ id)
    (hversion : e.versions[id']? = some (data, o'))
    (hcurrent : ∀ data o, e.current = some (data, o) → o.versionId = some id) : o' = o := by
  rcases mem_list_cases hmem with ⟨data', hst, -⟩ | ⟨id'', data', hst⟩
  · rw [hcurrent data' o hst, Option.some.injEq] at hid
    exact absurd hid.symm hne
  · have hid'' := (h.version id'' data' o hst).2.1
    rw [hid, Option.some.injEq] at hid''
    subst hid''
    rw [hversion] at hst
    exact (Prod.mk.inj (Option.some.inj hst)).2

/-- Without versioning there are no versions to delete. -/
theorem Regular.versioned_of_deleteVersion {id : String} (h : Regular E v n key e)
    (he : e.deleteVersion key id = .ok e') : ∃ v', v = some v' := by
  rcases v with _ | v
  · rcases found_of_deleteVersion he with hkept | ⟨data, o, hcurrent, hid⟩
    · rw [h.unversioned rfl] at hkept
      simp at hkept
    · have hnone : o.versionId = none := (h.current data o hcurrent).2.1
      rw [hnone] at hid
      cases hid
  · exact ⟨v, rfl⟩

/-- **Deleting a version keeps identities apart.** -/
theorem Regular.deleteVersion {id : String} (h : Regular E v n key e)
    (he : e.deleteVersion key id = .ok e') : Regular E v n key e' := by
  obtain ⟨v, rfl⟩ := h.versioned_of_deleteVersion he
  have hversions : ∀ (id' : String) (st : Stored), (e.versions.set id none)[id']? = some st →
      e.versions[id']? = some st := by
    intro id' st hst
    rw [Table.getElem?_set] at hst
    split at hst
    · cases hst
    · exact hst
  rcases deleteVersion_cases he with ⟨rfl, -⟩ | ⟨rfl, -⟩ |
    ⟨o, id', data, o', hmem, hid, hne, hmarker, hversion, hcurrent, rfl⟩
  · refine ⟨fun data o hcurrent ↦ ?_, fun id' data o hst ↦ h.version id' data o (hversions _ _ hst),
      nofun⟩
    obtain ⟨hfits, hid, hfresh⟩ := h.current data o hcurrent
    refine ⟨hfits, hid, ?_⟩
    rw [Table.getElem?_set]
    split
    · rfl
    · exact hfresh
  · exact ⟨nofun, fun id' data o hst ↦ h.version id' data o (hversions _ _ hst), nofun⟩
  · obtain rfl := h.promoted_eq hmem hid hne hversion hcurrent
    obtain ⟨hfits, -, hdrawn⟩ := h.version id' data o' hversion
    refine ⟨fun data' o'' hst ↦ ?_, fun id'' data' o'' hst ↦ ?_, nofun⟩
    · cases hst
      refine ⟨hfits, ?_, ?_⟩
      · rcases hdrawn with hdrawn | ⟨rfl, t, ht⟩
        · cases v with
          | enabled => exact ⟨id', hid, hdrawn⟩
          | suspended => exact ⟨id', hid, Or.inl hdrawn⟩
        · -- A marker is not promoted.
          rw [ht] at hmarker
          cases hmarker
      · rw [History.keptId, hid, Option.getD_some, Table.getElem?_set, if_pos rfl]
    · rw [Table.getElem?_set] at hst
      split at hst
      · cases hst
      · exact h.version id'' data' o'' (hversions _ _ hst)

/-! ### Rewriting the current version -/

/-- New metadata do not touch identities. -/
theorem Regular.rewrite (h : Regular E v n key e) {o' : Object} (hcurrent : e.current = some (data, o))
    (hkey : o'.key = o.key) (hsize : o'.size = o.size) (hid : o'.versionId = o.versionId) :
    Regular E v n key { e with current := some (data, o') } where
  current data' o'' hst := by
    cases hst
    obtain ⟨hfits, hcid, hfresh⟩ := h.current data o hcurrent
    refine ⟨⟨hkey.trans hfits.1, hsize.trans hfits.2⟩, hid.symm ▸ hcid, ?_⟩
    rw [History.keptId, hid]
    exact hfresh
  version := h.version
  unversioned := h.unversioned

/-- Versioning is suspended. -/
theorem Regular.suspend (h : Regular E v n key e) :
    Regular E (some .suspended) n key e.assignNullVersionId where
  current data' o' hst := by
    obtain ⟨⟨data, o⟩, hcurrent, hassign⟩ := Option.map_eq_some_iff.1 hst
    obtain ⟨hfits, hcid, hfresh⟩ := h.current data o hcurrent
    dsimp only at hassign
    split at hassign
    · next hnone =>
      cases hassign
      refine ⟨hfits, ⟨"null", rfl, Or.inr rfl⟩, ?_⟩
      rw [History.keptId, Option.isNone_iff_eq_none.1 hnone] at hfresh
      exact hfresh
    · next hsome =>
      cases hassign
      refine ⟨hfits, ?_, hfresh⟩
      match v, hcid with
      | none, hcid => exact absurd (by rw [hcid]; rfl) hsome
      | some .enabled, ⟨i, hi, hdrawn⟩ => exact ⟨i, hi, Or.inl hdrawn⟩
      | some .suspended, hcid => exact hcid
  version := h.version
  unversioned := nofun

/-! ### Versions that stay -/

/-- A version with this identity and these bytes, with provider metadata that satisfy `P`. -/
def Holds (P : Table String String → Prop) (id : Option String) (data : Bytes) (e : KeyRecord) : Prop :=
  (∃ o, e.current = some (data, o) ∧ o.versionId = id ∧ P o.providerMetadata) ∨
    ∃ (i : String) (o : Object), id = some i ∧ e.versions[i]? = some (data, o) ∧ P o.providerMetadata

/-- The provider metadata of a delete marker. -/
def markerMetadata : Table String String := (∅ : Table String String).set "s3_delete_marker" (some "true")

section Holds

variable {P : Table String String → Prop} {id : Option String} (hP : ¬ P markerMetadata)

include hP

/-- A version that is kept has an identity that has been drawn, as the others are markers. -/
theorem Regular.drawn_of_kept (h : Regular E v n key e) {i : String}
    (hversion : e.versions[i]? = some (data, o)) (ho : P o.providerMetadata) : Drawn E n i := by
  rcases (h.version i data o hversion).2.2 with hdrawn | ⟨-, t, rfl⟩
  · exact hdrawn
  · exact absurd ho hP

/-- **A version stays** when the current one is kept, or when it is not the current one. -/
theorem Regular.holds_snapshot (h : Regular E v n key e) (hold : e.Holds P id data)
    (hkept : v = some .enabled ∨ ∀ o, e.current = some (data, o) → o.versionId = id →
      ¬ P o.providerMetadata) :
    ∃ (i : String) (o : Object), id = some i ∧ Drawn E n i ∧
      (e.snapshot v).versions[i]? = some (data, o) ∧ P o.providerMetadata := by
  rcases hold with ⟨o, hcurrent, hid, ho⟩ | ⟨i, o, hid, hversion, ho⟩
  · rcases hkept with rfl | hnot
    · obtain ⟨hsome, hdrawn⟩ := h.keptId_drawn hcurrent rfl
      refine ⟨History.keptId o, (o.withVersionId (some (History.keptId o))).serialized,
        hid.symm.trans hsome, ?_, ?_, ho⟩
      · rcases hdrawn with hdrawn | ⟨-, henabled⟩
        · exact hdrawn
        · cases henabled
      · rw [snapshot_of_enabled hcurrent]
        show (e.versions.set _ _)[_]? = _
        rw [Table.getElem?_set, if_pos rfl]
    · exact absurd ho (hnot o hcurrent hid)
  · exact ⟨i, o, hid, h.drawn_of_kept hP hversion ho, h.snapshot_of_version hversion, ho⟩

theorem Regular.holds_put (h : Regular E v n key e) (hold : e.Holds P id data)
    (hkept : v = some .enabled ∨ ∀ o, e.current = some (data, o) → o.versionId = id →
      ¬ P o.providerMetadata) {id' : Option String} {data' : Bytes} {o' : Object} :
    (e.put v id' data' o').Holds P id data := by
  obtain ⟨i, o, hid, hdrawn, hversion, ho⟩ := h.holds_snapshot hP hold hkept
  refine Or.inr ⟨i, o, hid, ?_, ho⟩
  rw [put_versions, if_neg]
  · exact hversion
  · rintro ⟨-, rfl⟩
    exact not_drawn_null hdrawn

theorem Regular.holds_delete {v : VersioningState} (h : Regular E (some v) n key e)
    (hold : e.Holds P id data)
    (hkept : v = .enabled ∨ ∀ o, e.current = some (data, o) → o.versionId = id →
      ¬ P o.providerMetadata) {id' : String} {marker : Object}
    (hid' : versionIdFor E (some v) n = some id') : (e.delete v id' marker).Holds P id data := by
  obtain ⟨i, o, hid, hdrawn, hversion, ho⟩ :=
    h.holds_snapshot hP hold (hkept.imp_left (congrArg some))
  refine Or.inr ⟨i, o, hid, ?_, ho⟩
  show ((e.snapshot (some v)).versions.set id' _)[i]? = _
  rw [Table.getElem?_set, if_neg]
  · exact hversion
  · rintro rfl
    rcases markerId_cases hid' with ⟨-, rfl⟩ | ⟨-, rfl⟩
    · exact not_drawn_uuid hdrawn
    · exact not_drawn_null hdrawn

omit hP in
/-- A version stays when another one is deleted. -/
theorem Regular.holds_deleteVersion (h : Regular E v n key e) (hold : e.Holds P id data)
    {id' : String} (hne : id ≠ some id') (he : e.deleteVersion key id' = .ok e') :
    e'.Holds P id data := by
  have hversions : ∀ i : String, id = some i → (e.versions.set id' none)[i]? = e.versions[i]? := by
    intro i hi
    rw [Table.getElem?_set, if_neg]
    rintro rfl
    exact hne hi
  rcases deleteVersion_cases he with ⟨rfl, hcurrent⟩ | ⟨rfl, hcurrent⟩ |
    ⟨o, i', data', o', hmem, hid', hne', hmarker, hversion, hcurrent, rfl⟩
  · rcases hold with hold | ⟨i, o, hid, hst, ho⟩
    · exact Or.inl hold
    · exact Or.inr ⟨i, o, hid, (hversions i hid).trans hst, ho⟩
  · rcases hold with ⟨o, hst, hid, ho⟩ | ⟨i, o, hid, hst, ho⟩
    · exact absurd (hid.symm.trans (hcurrent data o hst)) hne
    · exact Or.inr ⟨i, o, hid, (hversions i hid).trans hst, ho⟩
  · obtain rfl := h.promoted_eq hmem hid' hne' hversion hcurrent
    rcases hold with ⟨o, hst, hid, ho⟩ | ⟨i, o, hid, hst, ho⟩
    · exact absurd (hid.symm.trans (hcurrent data o hst)) hne
    · by_cases hi : i = i'
      · -- The version is the one that becomes current.
        subst hi
        rw [hversion] at hst
        cases hst
        exact Or.inl ⟨o', rfl, hid'.trans hid.symm, ho⟩
      · refine Or.inr ⟨i, o, hid, ?_, ho⟩
        show ((e.versions.set id' none).set i' none)[i]? = _
        rw [Table.getElem?_set, if_neg hi, hversions i hid, hst]

omit hP in
/-- **A version that is there is found** under its identity. -/
theorem Regular.version_of_holds (h : Regular E v n key e) {i : String} (hold : e.Holds P (some i) data)
    {st : Stored} (hst : e.version i = .ok st) : st.1 = data ∧ P st.2.providerMetadata := by
  unfold KeyRecord.version at hst
  split at hst
  · cases hst
  rcases hold with ⟨o, hcurrent, hid, ho⟩ | ⟨i', o, hid, hversion, ho⟩
  · have hfresh := (h.current data o hcurrent).2.2
    rw [History.keptId, hid, Option.getD_some] at hfresh
    rw [hfresh, hcurrent] at hst
    dsimp only at hst
    rw [if_pos hid] at hst
    cases hst
    exact ⟨rfl, ho⟩
  · cases hid
    rw [hversion] at hst
    cases hst
    exact ⟨rfl, ho⟩

/-- A version that is there can be read, as the current one or by its identity. -/
theorem Regular.readable_of_holds (h : Regular E v n key e) (hold : e.Holds P id data) :
    (∃ o, e.current = some (data, o)) ∨ ∃ i o, id = some i ∧ e.version i = .ok (data, o) := by
  rcases hold with ⟨o, hcurrent, -⟩ | ⟨i, o, hid, hversion, ho⟩
  · exact Or.inl ⟨o, hcurrent⟩
  · refine Or.inr ⟨i, o.withVersionId (some i), hid, ?_⟩
    have hvalid := (h.drawn_of_kept hP hversion ho).valid
    rw [KeyRecord.version, hvalid, hversion]
    rfl

end Holds

end KeyRecord

end Sqrzl
