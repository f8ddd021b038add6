import SqrzlEmulator.Storage.KeyCalls

/-!
# Deleting a version selects the right current object

`delete_object_version` removes one version of a key and may promote another one. **In every state
that is reached**, it returns, it succeeds exactly when there is such a version, and then

* the version is gone from the history and from the place of the current object;
* every other version is where it was, or has become current; its identity, its bytes and its
  metadata are the same;
* when no other object is current, the latest of the remaining versions becomes current, unless it
  is a delete marker; when another object is current, it stays.
-/

namespace Sqrzl

open Prog KeyRecord

namespace History

variable {key : Text} {H : History} {id : String}

/-- `st` is the version `j`, the current one or one before it. -/
def Entry (H : History) (j : String) (st : Stored) : Prop :=
  H.versions j = some st ∨ H.current = some st ∧ st.2.versionId = some j

theorem has_iff_entry : H.Has id ↔ ∃ st, H.Entry id st := by
  constructor
  · rintro (hversion | ⟨data, o, hcurrent, hid⟩)
    · obtain ⟨st, hst⟩ := Option.isSome_iff_exists.1 hversion
      exact ⟨st, .inl hst⟩
    · exact ⟨(data, o), .inr ⟨hcurrent, hid⟩⟩
  · rintro ⟨st, hversion | ⟨hcurrent, hid⟩⟩
    · exact .inl (by rw [hversion]; rfl)
    · exact .inr ⟨st.1, st.2, hcurrent, hid⟩

/-- `H'` is `H` without the version `id`, and with the right current object. -/
structure Without (id : String) (H H' : History) : Prop where
  removed : ¬ H'.Has id
  others : ∀ j ≠ id, ∀ st, H'.Entry j st ↔ H.Entry j st
  kept : ∀ data o, H.current = some (data, o) → o.versionId ≠ some id → H'.current = H.current
  none_left : H.Leaves id → (∀ j ≠ id, H.versions j = none) → H'.current = none
  latest : H.Leaves id → ∀ st, H.Latest id st →
    (∀ st', H.Latest id st' → st' = st) ∧
      H'.current = if st.2.isDeleteMarker then none else some st

/-- **There is one latest version.** -/
theorem Latest.unique (hsound : H.Sound key) {st st' : Stored} (h : H.Latest id st)
    (h' : H.Latest id st') : st' = st := by
  obtain ⟨j, hj, hst, hmax⟩ := h
  obtain ⟨j', hj', hst', hmax'⟩ := h'
  have heq : byTime st'.2 st.2 = .eq :=
    Std.OrientedCmp.isLE_antisymm (hmax j' st' hj' hst') (hmax' j st hj hst)
  have hid := versionId_eq_of_byTime heq
  obtain rfl : j = j' := Option.some.inj
    ((hsound.version j st.1 st.2 hst).2.1.symm.trans
      (hid.symm.trans (hsound.version j' st'.1 st'.2 hst').2.1))
  exact Option.some.inj (hst'.symm.trans hst)

theorem Leaves.entry_iff (h : H.Leaves id) {j : String} (hj : j ≠ id) {st : Stored} :
    H.Entry j st ↔ H.versions j = some st := by
  refine ⟨fun hentry ↦ hentry.resolve_right ?_, .inl⟩
  rintro ⟨hcurrent, hid⟩
  exact hj (Option.some.inj (hid.symm.trans (h st.1 st.2 hcurrent)))

/-- The deletion of a version without a promotion. -/
theorem without_of_none (hentry : H.Leaves id ∨ ∃ data o, H.current = some (data, o) ∧
      o.versionId ≠ some id)
    (hlatest : H.Leaves id → ∀ st, H.Latest id st → (∀ st', H.Latest id st' → st' = st) ∧
      st.2.isDeleteMarker = true) :
    H.Without id (H.deleteVersion id none (H.clears id)) := by
  have hversions : ∀ j ≠ id, (H.deleteVersion id none (H.clears id)).versions j = H.versions j := by
    intro j hj
    rw [versions_deleteVersion, if_neg (by simp [hj])]
  have hcleared : H.Leaves id → (H.deleteVersion id none (H.clears id)).current = none := by
    intro hleaves
    rw [current_deleteVersion, clears_iff.2 hleaves]
    rfl
  have hother : ∀ data o, H.current = some (data, o) → o.versionId ≠ some id →
      (H.deleteVersion id none (H.clears id)).current = H.current := by
    intro data o hcurrent hne
    have hclears : H.clears id = false := by
      rw [← Bool.not_eq_true, clears_iff]
      exact fun hleaves ↦ hne (hleaves data o hcurrent)
    rw [current_deleteVersion, hclears]
    rfl
  refine ⟨?_, fun j hj st ↦ ?_, hother, fun hleaves _ ↦ hcleared hleaves,
    fun hleaves st hst ↦ ⟨(hlatest hleaves st hst).1, ?_⟩⟩
  · rintro (hversion | ⟨data, o, hcurrent, hid⟩)
    · rw [versions_deleteVersion, if_pos (.inl rfl)] at hversion
      cases hversion
    · obtain hleaves | ⟨data', o', hcurrent', hne⟩ := hentry
      · cases (hcleared hleaves).symm.trans hcurrent
      · rw [hother data' o' hcurrent' hne, hcurrent'] at hcurrent
        cases hcurrent
        exact hne hid
  · obtain hleaves | ⟨data', o', hcurrent', hne⟩ := hentry
    · rw [hleaves.entry_iff hj, Entry, hversions j hj, hcleared hleaves]
      simp
    · rw [Entry, Entry, hversions j hj, hother data' o' hcurrent' hne]
  · rw [hcleared hleaves, if_pos (hlatest hleaves st hst).2]

/-- **The deletion of a version leaves the others**, one of them promoted. -/
theorem Promotes.without {promoted : Option Stored} (hsound : H.Sound key)
    (h : H.Promotes id promoted) : H.Without id (H.deleteVersion id promoted (H.clears id)) := by
  cases h with
  | other hcurrent hne =>
    exact without_of_none (.inr ⟨_, _, hcurrent, hne⟩)
      fun hleaves ↦ absurd (hleaves _ _ hcurrent) hne
  | nothing hleaves hnone =>
    refine without_of_none (.inl hleaves) fun _ st hlatest ↦ ?_
    obtain ⟨j, hj, hst, -⟩ := hlatest
    cases (hnone j hj).symm.trans hst
  | @marker st hleaves hlatest hmarker =>
    refine without_of_none (.inl hleaves) fun _ st' h' ↦ ?_
    obtain rfl := hlatest.unique hsound h'
    exact ⟨fun st' h' ↦ hlatest.unique hsound h', hmarker⟩
  | @version st hleaves hlatest hmarker =>
    have ⟨j, hj, hst, _⟩ := hlatest
    have hid := (hsound.version j st.1 st.2 hst).2.1
    have hcurrent : (H.deleteVersion id (some st) (H.clears id)).current = some st := rfl
    have hversions : ∀ k, (H.deleteVersion id (some st) (H.clears id)).versions k =
        if k = id ∨ k = j then none else H.versions k := by
      intro k
      rw [versions_deleteVersion, Option.bind_some, hid]
      simp [eq_comm]
    refine ⟨?_, fun k hk st' ↦ ?_, fun data o hst' hne ↦ absurd (hleaves data o hst') hne,
      fun _ hnone ↦ ?_, fun _ st' h' ↦ ?_⟩
    · rintro (hversion | ⟨data, o, hst', hid'⟩)
      · rw [hversions, if_pos (.inl rfl)] at hversion
        cases hversion
      · cases hcurrent.symm.trans hst'
        exact hj (Option.some.inj (hid.symm.trans hid'))
    · rw [hleaves.entry_iff hk, Entry, hversions, hcurrent]
      by_cases hkj : k = j
      · subst hkj
        rw [if_pos (.inr rfl), hst]
        refine ⟨fun hentry ↦ hentry.elim nofun And.left, fun heq ↦ .inr ⟨heq, ?_⟩⟩
        rw [← Option.some.inj heq]
        exact hid
      · rw [if_neg (by simp [hk, hkj])]
        refine ⟨fun hentry ↦ hentry.resolve_right ?_, .inl⟩
        rintro ⟨heq, hid'⟩
        cases Option.some.inj heq
        exact hkj (Option.some.inj (hid'.symm.trans hid))
    · cases (hnone j hj).symm.trans hst
    · obtain rfl := hlatest.unique hsound h'
      refine ⟨fun st' h' ↦ hlatest.unique hsound h', ?_⟩
      rw [hcurrent, hmarker]
      rfl

end History

/-! ### The call -/

section Call

variable {E : Env} {b : String} {key : Text} {s : Store}
  {allowed : ObjectCall → BucketState → Prop}

/-- **Deleting a version selects the right current object.** In every state that is reached, the
call returns. It succeeds exactly when there is such a version, and removes that one alone;
otherwise it fails with `NoSuchVersion`, and what the bucket holds is as before, up to the files of
a publication that was still to be carried out. -/
theorem delete_object_version_selects_current (h : Reached E b key allowed s)
    (hbucket : ((Store.bucket E b).get s).dir.isSome) (id : String) :
    ∃ H, Keeps E b key ((Store.bucket E b).get s) H ∧
      (∃ r t, (deleteObjectVersion E b key id).Returns s r t) ∧
      ∀ r t, (deleteObjectVersion E b key id).Returns s r t →
        (r = .ok () ∧ H.Has id ∧
          ∃ H', Keeps E b key ((Store.bucket E b).get t) H' ∧ H.Without id H') ∨
        (r = .error .noSuchVersion ∧ ¬ H.Has id ∧ Keeps E b key ((Store.bucket E b).get t) H ∧
          ∃ x, (Store.bucket E b).get t = withObject E b key x ((Store.bucket E b).get s)) := by
  obtain ⟨hfree, H, hH⟩ := h.keeps
  have hwp : wp (fun _ ↦ True) (deleteObjectVersionLocked E b key id) (fun r t ↦
      (r = .ok () ∧ H.Has id ∧ ∃ H', Keeps E b key t H' ∧ H.Without id H') ∨
        (r = .error .noSuchVersion ∧ ¬ H.Has id ∧ Keeps E b key t H ∧
          ∃ x, t = withObject E b key x ((Store.bucket E b).get s)))
      ((Store.bucket E b).get s) := by
    refine wp_deleteObjectVersionLocked hbucket hH.ready hH.sound
      (fun y a promoted t hhas hpromotes hy ht ↦
        .inl ⟨rfl, hhas, _, ?_, hpromotes.without hH.sound⟩)
      fun hnot x hx ↦ .inr ⟨rfl, hnot, hH.recovered hx, x, rfl⟩
    have hnext : Keeps E b key ((withObject E b key y ((Store.bucket E b).get s)).remember a
        ((Store.bucket E b).get s).drawn) (H.deleteVersion id promoted (H.clears id)) :=
      hH.next (.deleteVersion hhas hpromotes) hy.ready (objectIdDir_get_withObject y)
        (versioning_withObject y) le_rfl
    rcases ht with rfl | rfl
    · exact hnext.congr (fun h ↦ h) (fun h ↦ h) le_rfl
    · exact hnext.congr (fun h ↦ h) (fun h ↦ h) le_rfl
  refine ⟨H, hH, ?_, fun r t hret ↦ (returns_onObject hfree hret hwp).2⟩
  exact exists_returns_of_wp (wp_onObject (I := fun _ ↦ True) (J := fun _ ↦ True)
    (Q := fun _ _ ↦ True) hfree (fun _ _ _ ↦ trivial)
    (wp_mono hwp (fun _ h ↦ h) fun _ _ _ _ _ _ ↦ trivial))

end Call

/-- A store with one bucket that is empty and has versioning enabled. -/
def versionedStore : Store where
  root := (∅ : Table String BucketDir).set (Env.simple.bucketDirName "b")
    (some { name := some "b", versioning := some .enabled })

theorem dir_versionedStore : ((Store.bucket .simple "b").get versionedStore).dir =
    some { name := some "b", versioning := some .enabled } := by
  show ((∅ : Table String BucketDir).set _ _)[Env.simple.bucketDirName "b"]? = _
  rw [Table.getElem?_set, if_pos rfl]

theorem isSome_versionedStore : ((Store.bucket .simple "b").get versionedStore).dir.isSome := by
  rw [dir_versionedStore]
  rfl

theorem objectIdDir_versionedStore :
    (objectIdDir .simple "b" ['k']).get ((Store.bucket .simple "b").get versionedStore) = none := by
  rw [objectIdDir, BucketState.objectLens_get, dir_versionedStore]
  exact Std.ExtTreeMap.getElem?_empty

/-- An object of one byte, as the only version of its key. -/
theorem exists_one_version (allowed : ObjectCall → BucketState → Prop) (x : UInt8)
    (hallowed : allowed (.current (.putObject (oneByte x)))
      ((Store.bucket .simple "b").get versionedStore)) :
    ∃ s H data, Reached .simple "b" ['k'] allowed s ∧
      ((Store.bucket .simple "b").get s).dir.isSome ∧
      ((Store.bucket .simple "b").get s).dir.bind (·.versioning) = some .enabled ∧
      Keeps .simple "b" ['k'] ((Store.bucket .simple "b").get s) H ∧
      H.current = some (data, ((oneByte x).withVersionId (some "u")).serialized) ∧
      H.versions = fun _ ↦ none := by
  have hfresh : Reached .simple "b" ['k'] allowed versionedStore :=
    .fresh rfl objectIdDir_versionedStore
  have hnamed : (ObjectCall.current (.putObject (oneByte x))).Named ['k'] := by
    rintro _ ⟨⟩
    rfl
  obtain ⟨r, s, hret, hs, ⟨H, hH, heffect⟩, hdir, hv⟩ :=
    hfresh.exists_call isSome_versionedStore (keeps_of_none objectIdDir_versionedStore) _ hnamed
      hallowed
  rw [dir_versionedStore] at hv
  obtain ⟨-, rfl⟩ := heffect.of_fits rfl
  refine ⟨s, _, (oneByte x).data, hs, hdir, hv, hH, ?_, funext fun j ↦ ?_⟩
  · rw [dir_versionedStore]
    rfl
  · rw [History.versions_put, History.snapshot_of_none rfl]
    exact ite_self none

/-- The only version of a key is deleted. -/
theorem delete_object_version_only : ∃ s H t H',
    Keeps .simple "b" ['k'] ((Store.bucket .simple "b").get s) H ∧ H.Has "u" ∧
      (deleteObjectVersion .simple "b" ['k'] "u").Returns s (.ok ()) t ∧
      Keeps .simple "b" ['k'] ((Store.bucket .simple "b").get t) H' ∧ H.Without "u" H' ∧
      H'.current = none := by
  obtain ⟨s, K, data, hs, hbucket, -, hK, hcurrent, hversions⟩ :=
    exists_one_version (fun _ _ ↦ True) 97 trivial
  obtain ⟨H, hH, ⟨r, t, hret⟩, hall⟩ := delete_object_version_selects_current hs hbucket "u"
  obtain rfl := hK.unique hH
  have hhas : H.Has "u" := .inr ⟨_, _, hcurrent, rfl⟩
  have hleaves : H.Leaves "u" := by
    intro data' o' h
    cases hcurrent.symm.trans h
    rfl
  obtain ⟨rfl, -, H', hH', hwithout⟩ | ⟨-, hnot, -⟩ := hall r t hret
  · exact ⟨s, H, t, H', hH, hhas, hret, hH', hwithout, hwithout.none_left hleaves fun j _ ↦ by
      rw [hversions]⟩
  · exact absurd hhas hnot

end Sqrzl
