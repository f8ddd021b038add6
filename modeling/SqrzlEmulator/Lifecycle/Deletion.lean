import SqrzlEmulator.Lifecycle.Noncurrent

/-!
# Keys that stay deleted

What a lifecycle pass does to one key. An object that is current is `Still` current until a rule
deletes it, and the key is `Away` from then on.

A delete in a bucket with versions leaves the object below a marker, and a rule for noncurrent
versions may remove the marker. The key stays deleted as long as **whatever expires the marker expires
the versions with bytes below it**: this is what `Away` says of a key that is deleted, and `Still` of
the marker that a delete would leave.
-/

namespace Sqrzl

/-- The same object in another storage class. -/
def Object.inClass (o : Object) (storageClass : String) : Object :=
  { o with storageClass := storageClass }

namespace KeyRecord

variable {key : Text} {e e' : KeyRecord} {data : Bytes} {o : Object} {now : Time} {C : S3.Codec}
  {D : ℕ → Prop} {days : ℕ} {id : String}

/-- A version of the key, the current one or one before it. -/
def Has (e : KeyRecord) (st : Stored) : Prop :=
  e.current = some st ∨ ∃ id : String, e.versions[id]? = some st

/-! ### Keys of which an object is current -/

/-- The object is current, whatever its storage class is now. `D` are the ages at which rules expire
the noncurrent versions of the key once it is deleted. -/
structure Still (C : S3.Codec) (now : Time) (D : ℕ → Prop) (key : Text) (data : Bytes) (o : Object)
    (e : KeyRecord) : Prop where
  keyed : Keyed key e
  /-- All versions are from before the pass. -/
  before : ∀ st, e.Has st → st.2.lastModified ≤ now
  current : ∃ c, e.current = some (data, o.inClass c)
  /-- What expires a marker of this pass expires the versions before the object. -/
  covered : ∀ (id : String) (st : Stored), e.versions[id]? = some st → st.2.isDeleteMarker = false → ∀ days, D days →
    Lifecycle.expirable C now days st.2 = true ∨ 0 < days

/-- The key is deleted, and what expires the marker expires the versions with bytes. -/
structure Away (C : S3.Codec) (now : Time) (D : ℕ → Prop) (key : Text) (e : KeyRecord) : Prop where
  keyed : Keyed key e
  absent : e.current = none
  covered : ∀ x ∈ e.list key, x.isDeleteMarker = false → ∀ days, D days →
    Lifecycle.expirable C now days x = true ∨
      ∃ m, latestVersion (e.list key) = some m ∧ m.isDeleteMarker = true ∧
        Lifecycle.expirable C now days m = false

/-! ### Rules for noncurrent versions -/

theorem Expired.entry_of_some {p : Object → Bool} {l : List Object} {st : Stored}
    (h : Expired key p l e e') (hst : e'.entry id = some st) : e.entry id = some st := by
  by_cases hgone : ∃ o ∈ l, p o = true ∧ o.versionId = some id ∧ some id ≠ e.currentVersionId
  · obtain ⟨x, hx, hp, hid, hne⟩ := hgone
    rw [h.gone x hx hp (hid ▸ hne) id hid] at hst
    cases hst
  · rw [← h.kept id fun x hx hp hid ↦ by_contra fun hne ↦ hgone ⟨x, hx, hp, hid, hne⟩, hst]

theorem Expired.version_of_some {p : Object → Bool} {l : List Object} {st : Stored}
    (h : Expired key p l e e') (hk : Keyed key e) (hcurrent : e.current ≠ none)
    (hst : e'.versions[id]? = some st) : e.versions[id]? = some st := by
  have hentry := h.entry_of_some (h.keyed.entry_eq_some.2 (.inl hst))
  refine (hk.entry_eq_some.1 hentry).resolve_right fun ⟨hst₀, hid⟩ ↦ ?_
  -- the current version is not among those before it
  rw [((h.keyed.current st.1 st.2 ((h.current hcurrent).trans hst₀)).2 id hid).2] at hst
  cases hst

/-- An object that is current stays current. -/
theorem Still.expired {p : Object → Bool} {l : List Object} (h : Still C now D key data o e)
    (hexpired : Expired key p l e e') : Still C now D key data o e' where
  keyed := hexpired.keyed
  before st hst := by
    obtain ⟨c, hcurrent⟩ := h.current
    rcases hst with hst | ⟨id, hst⟩
    · exact h.before st (.inl (hexpired.current (by simp [hcurrent]) ▸ hst))
    · exact h.before st (.inr ⟨id, hexpired.version_of_some h.keyed (by simp [hcurrent]) hst⟩)
  current := by
    obtain ⟨c, hcurrent⟩ := h.current
    exact ⟨c, by rw [hexpired.current (by simp [hcurrent]), hcurrent]⟩
  covered id st hst := by
    obtain ⟨c, hcurrent⟩ := h.current
    exact h.covered id st (hexpired.version_of_some h.keyed (by simp [hcurrent]) hst)

/-- A marker that is younger than the pass expires only under a rule for everything noncurrent. -/
theorem eq_zero_of_expirable_marker {m : Object} (hm : now < m.lastModified)
    (h : Lifecycle.expirable C now days m = true) : days = 0 := by
  have hdays := of_decide_eq_true (Bool.and_eq_true_iff.1 h).1
  have hnum : Lifecycle.numDays m.lastModified now ≤ 0 := by
    have hneg := Int.tdiv_nonneg (Int.sub_nonneg_of_le (Int.ofNat_le.2 hm.le))
      (b := 86400000000000) (by decide)
    rw [← Int.neg_sub, Int.neg_tdiv] at hneg
    exact Int.nonpos_of_neg_nonneg hneg
  omega

theorem expirable_of_old {x : Object} (hold : x.lastModified ≤ now)
    (hunprotected : Lifecycle.objectHasActiveDataProtection C now x = false) :
    Lifecycle.expirable C now 0 x = true := by
  have hnum : 0 ≤ Lifecycle.numDays x.lastModified now := 
    Int.tdiv_nonneg (Int.sub_nonneg_of_le (Int.ofNat_le.2 hold)) (by decide)
  simp [Lifecycle.expirable, Lifecycle.shouldExpireNoncurrentVersion, hnum, hunprotected]

/-- What is listed of a deleted key when noncurrent versions have expired. -/
theorem Expired.mem_list {p : Object → Bool} {l : List Object} {x : Object}
    (h : Expired key p l e e') (hk : Keyed key e) (hl : l.Perm (e.list key)) (hnone : e.current = none) :
    x ∈ e'.list key ↔ x ∈ e.list key ∧ p x = false := by
  rw [h.keyed.mem_list, hk.mem_list]
  constructor
  · rintro ⟨id, data, hx⟩
    have hx₀ := h.entry_of_some hx
    refine ⟨⟨id, data, hx₀⟩, ?_⟩
    rw [Bool.eq_false_iff]
    intro hp
    have hid := (hk.versionId_of_entry hx₀).1
    rw [h.gone x (hl.mem_iff.2 (hk.mem_list.2 ⟨id, data, hx₀⟩)) hp
      (by rw [hid, currentVersionId_of_none hnone]; simp) id hid] at hx
    cases hx
  · rintro ⟨⟨id, data, hx⟩, hp⟩
    refine ⟨id, data, ?_⟩
    rw [h.kept id fun y hy hpy hid ↦ ?_, hx]
    have heq : y = x := hk.list_inj (hl.mem_iff.1 hy) (hk.mem_list.2 ⟨id, data, hx⟩)
      (hid.trans (hk.versionId_of_entry hx).1.symm)
    rw [heq, hp] at hpy
    cases hpy

/-- The latest version stays the latest when others go. -/
theorem latestVersion_of_subset {m : Object} (hk' : Keyed key e')
    (hsub : ∀ x ∈ e'.list key, x ∈ e.list key) (hm : latestVersion (e.list key) = some m)
    (hm' : m ∈ e'.list key) : latestVersion (e'.list key) = some m := by
  rw [latestVersion_eq_some_iff fun x hx y hy ↦ hk'.list_inj hx hy]
  exact ⟨hm', fun x hx ↦ (latestVersion_spec hm).2 x (hsub x hx)⟩

/-- **What is deleted stays deleted** when noncurrent versions expire. -/
theorem Away.expired {l : List Object} (h : Away C now D key e) (hdays : D days)
    (hexpired : Expired key (Lifecycle.expirable C now days) l e e') (hl : l.Perm (e.list key)) :
    Away C now D key e' := by
  have hmem := fun x ↦ hexpired.mem_list (x := x) h.keyed hl h.absent
  -- with a version with bytes that is left, the marker is left, and it is still the latest
  have hmarker : ∀ x ∈ e'.list key, x.isDeleteMarker = false → ∃ m,
      latestVersion (e.list key) = some m ∧ latestVersion (e'.list key) = some m ∧
        m.isDeleteMarker = true := by
    intro x hx hbytes
    obtain ⟨hx₀, hkept⟩ := (hmem x).1 hx
    obtain ⟨m, hm, hmark, hm'⟩ := (h.covered x hx₀ hbytes days hdays).resolve_left (by simp [hkept])
    refine ⟨m, hm, latestVersion_of_subset hexpired.keyed (fun y hy ↦ ((hmem y).1 hy).1) hm
      ((hmem m).2 ⟨mem_of_latestVersion hm, hm'⟩), hmark⟩
  refine ⟨hexpired.keyed, ?_, fun x hx hbytes days' hdays' ↦ ?_⟩
  · by_cases hany : ∃ x ∈ l, Lifecycle.expirable C now days x = true
    · have hsettled := hexpired.settled h.absent hany
      cases hlatest : (latestVersion (e'.list key)).filter (!·.isDeleteMarker) with
      | none =>
        rw [Settled, hlatest] at hsettled
        exact Option.map_eq_none_iff.1 hsettled
      | some x =>
        obtain ⟨hx, hbytes⟩ := Option.filter_eq_some_iff.1 hlatest
        obtain ⟨m, -, hm, hmark⟩ := hmarker x (mem_of_latestVersion hx) (by simpa using hbytes)
        rw [hx] at hm
        cases hm
        simp [hmark] at hbytes
    · refine hexpired.absent h.absent fun x hx ↦ ?_
      rw [Bool.eq_false_iff]
      exact fun hp ↦ hany ⟨x, hx, hp⟩
  · obtain ⟨m, hm, hm', hmark⟩ := hmarker x hx hbytes
    refine (h.covered x ((hmem x).1 hx).1 hbytes days' hdays').imp_right ?_
    rintro ⟨m₀, hm₀, -, hkept⟩
    rw [hm] at hm₀
    cases hm₀
    exact ⟨m, hm', hmark, hkept⟩

/-! ### Deletes -/

variable {E : Env} {v : VersioningState} {t : Time}

/-- What is kept after a delete: the marker, the version that was current, and those before it. -/
theorem entry_delete {i : String} {st : Stored}
    (h : (e.delete v id (deleteMarker E t key id)).entry i = some st) :
    (i = id ∧ st = ([], (deleteMarker E t key id).serialized)) ∨ (i ≠ id ∧ (e.versions[i]? = some st ∨
      ∃ data x, e.current = some (data, x) ∧ i = History.keptId x ∧
        st = (data, (x.withVersionId (some i)).serialized))) := by
  have hversions : ((e.snapshot (some v)).versions.set id
      (some ([], (deleteMarker E t key id).serialized)))[i]? = some st := by
    simpa [entry, delete] using h
  rw [Table.getElem?_set] at hversions
  split at hversions
  · next hid => exact .inl ⟨hid, (Option.some.inj hversions).symm⟩
  · next hne =>
    refine .inr ⟨hne, ?_⟩
    rcases snapshot_versions hversions with hold | ⟨data, x, hcurrent, hid, hst, -⟩
    · exact .inl hold
    · exact .inr ⟨data, x, hcurrent, hid, hst⟩

theorem isDeleteMarker_deleteMarker (E : Env) (t : Time) (key : Text) (id : String) :
    (deleteMarker E t key id).serialized.isDeleteMarker = true := by
  simp [deleteMarker, Object.isDeleteMarker, Object.serialized]

theorem entry_delete_marker : (e.delete v id (deleteMarker E t key id)).entry id =
    some ([], (deleteMarker E t key id).serialized) := by
  simp [entry, delete]

theorem Keyed.delete (h : Keyed key e) (hid : validVersionId id = true) :
    Keyed key (e.delete v id (deleteMarker E t key id)) where
  current := nofun
  version i data x hx := by
    have hentry : (e.delete v id (deleteMarker E t key id)).entry i = some (data, x) := by
      rw [entry, hx]
      rfl
    rcases entry_delete hentry with ⟨rfl, hst⟩ | ⟨-, hold | ⟨data', y, hcurrent, rfl, hst⟩⟩
    · cases hst
      exact ⟨rfl, rfl, hid⟩
    · exact h.version i data x hold
    · cases hst
      obtain ⟨hkey, hids⟩ := h.current data y hcurrent
      refine ⟨hkey, rfl, ?_⟩
      cases hy : y.versionId with
      | none =>
        rw [History.keptId, hy]
        decide
      | some j =>
        rw [History.keptId, hy]
        exact (hids j hy).1

/-- **A delete puts the current object below a marker.** -/
theorem Still.delete (h : Still C now D key data o e) (hid : validVersionId id = true) (ht : now < t)
    (hunprotected : Lifecycle.objectHasActiveDataProtection C now o = false) :
    Away C now D key (e.delete v id (deleteMarker E t key id)) := by
  obtain ⟨c, hcurrent⟩ := h.current
  have hkeyed : Keyed key (e.delete v id (deleteMarker E t key id)) := h.keyed.delete hid
  have hold : o.lastModified ≤ now := h.before _ (.inl hcurrent)
  have hlatest : latestVersion ((e.delete v id (deleteMarker E t key id)).list key) =
      some (deleteMarker E t key id).serialized := by
    rw [latestVersion_eq_some_iff fun x hx y hy ↦ hkeyed.list_inj hx hy]
    refine ⟨hkeyed.mem_list.2 ⟨id, [], entry_delete_marker⟩, fun x hx ↦ ?_⟩
    obtain ⟨i, data', hi⟩ := hkeyed.mem_list.1 hx
    rcases entry_delete hi with ⟨-, hst⟩ | ⟨-, hst | ⟨data'', y, hy, -, hst⟩⟩
    · cases hst
      simp
    · exact isLE_of_lastModified_lt ((h.before (data', x) (.inr ⟨i, hst⟩)).trans_lt ht)
    · rw [hcurrent] at hy
      cases hy
      cases hst
      exact isLE_of_lastModified_lt (hold.trans_lt ht)
  refine ⟨hkeyed, rfl, fun x hx hbytes days hdays ↦ ?_⟩
  -- the marker does not expire, unless everything noncurrent does
  have hmarker : 0 < days → ∃ m, latestVersion ((e.delete v id (deleteMarker E t key id)).list key) =
      some m ∧ m.isDeleteMarker = true ∧ Lifecycle.expirable C now days m = false := by
    intro hpos
    refine ⟨_, hlatest, isDeleteMarker_deleteMarker E t key id, ?_⟩
    rw [Bool.eq_false_iff]
    exact fun hp ↦ hpos.ne' (eq_zero_of_expirable_marker ht hp)
  obtain ⟨i, data', hi⟩ := hkeyed.mem_list.1 hx
  rcases entry_delete hi with ⟨-, hst⟩ | ⟨-, hst | ⟨data'', y, hy, -, hst⟩⟩
  · cases hst
    rw [isDeleteMarker_deleteMarker] at hbytes
    cases hbytes
  · exact (h.covered i _ hst hbytes days hdays).imp_right hmarker
  · rw [hcurrent] at hy
    cases hy
    cases hst
    rcases Nat.eq_zero_or_pos days with rfl | hpos
    · exact .inl (expirable_of_old hold hunprotected)
    · exact .inr (hmarker hpos)

/-- A delete without versioning leaves nothing. -/
theorem Away.empty : Away C now D key {} := by
  have hkeyed : Keyed key {} := ⟨nofun, fun id data o h ↦ by simp at h⟩
  refine ⟨hkeyed, rfl, fun x hx ↦ ?_⟩
  obtain ⟨id, data, hentry⟩ := hkeyed.mem_list.1 hx
  simp [entry] at hentry

/-! ### Transitions -/

/-- The record with its current version in another storage class. -/
def moveTo (c : String) (e : KeyRecord) : KeyRecord :=
  { e with current := e.current.map fun st ↦ (st.1, st.2.inClass c) }

theorem current_moveTo {c : String} {x : Object} (h : (e.moveTo c).current = some (data, x)) :
    ∃ y, e.current = some (data, y) ∧ x = y.inClass c := by
  obtain ⟨⟨data', y⟩, hy, heq⟩ := Option.map_eq_some_iff.1 h
  cases heq
  exact ⟨y, hy, rfl⟩

theorem Keyed.moveTo {c : String} (h : Keyed key e) : Keyed key (e.moveTo c) where
  current data x hx := by
    obtain ⟨y, hy, rfl⟩ := current_moveTo hx
    exact h.current data y hy
  version := h.version

theorem Still.moveTo {c : String} (h : Still C now D key data o e) :
    Still C now D key data o (e.moveTo c) where
  keyed := h.keyed.moveTo
  before st hst := by
    rcases hst with hst | hst
    · have hmoved : (e.moveTo c).current = some (st.1, st.2) := hst
      obtain ⟨y, hy, heq⟩ := current_moveTo hmoved
      rw [heq]
      exact h.before (st.1, y) (.inl hy)
    · exact h.before st (.inr hst)
  current := by
    obtain ⟨c', hcurrent⟩ := h.current
    exact ⟨c, by rw [KeyRecord.moveTo, hcurrent]; rfl⟩
  covered := h.covered

end KeyRecord

end Sqrzl
