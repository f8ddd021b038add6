import SqrzlEmulator.Lifecycle.Rules
import SqrzlEmulator.Storage.Records

/-!
# The versions of a key and the latest of them

A record is `Keyed` when each of its versions is filed under its own identity. For such a record the
list of versions is known (`Keyed.mem_list`), the latest version of a list is the one that is
largest in the order of times and identities (`latestVersion_eq_some_iff`), and **what the deletion
of a version leaves is determined by what is listed**: `Keyed.deleteVersion` says so in one place,
and nothing after it unfolds the deletion.
-/

namespace Sqrzl

namespace KeyRecord

variable {key : Text} {e e' : KeyRecord} {data : Bytes} {o : Object} {id : String}

/-! ### The latest version -/

/-- The order in which versions are the latest: by their times, then by their identities. -/
def byTime (l r : Object) : Ordering :=
  compareLex (compareOn Object.lastModified) (compareOn Object.versionId) l r

instance : Std.TransCmp byTime :=
  inferInstanceAs (Std.TransCmp (compareLex (compareOn Object.lastModified)
    (compareOn Object.versionId)))

theorem byTime_swap (l r : Object) : byTime l r = (byTime r l).swap := Std.OrientedCmp.eq_swap

@[simp] theorem byTime_self (o : Object) : byTime o o = .eq := Std.ReflCmp.compare_self

theorem versionId_eq_of_byTime {l r : Object} (h : byTime l r = .eq) : l.versionId = r.versionId := by
  have hboth : compare l.lastModified r.lastModified = .eq ∧ compare l.versionId r.versionId = .eq :=
    Ordering.then_eq_eq.1 h
  exact Std.LawfulEqOrd.eq_of_compare hboth.2

theorem isLE_of_lastModified_lt {l r : Object} (h : l.lastModified < r.lastModified) :
    (byTime l r).isLE := by
  have hlt : compare l.lastModified r.lastModified = .lt := Nat.compare_eq_lt.2 h
  simp [byTime, compareLex, compareOn, hlt]

/-- Adding a version at the end: it is the latest, unless the latest before it is later. -/
theorem latestVersion_concat {l : List Object} : latestVersion (l ++ [o]) =
    match latestVersion l with
    | none => some o
    | some p => if byTime p o = .gt then some p else some o := by
  rw [latestVersion, List.foldl_append]
  rfl

/-- **The latest version is the largest one.** -/
theorem latestVersion_spec {l : List Object} (h : latestVersion l = some o) :
    o ∈ l ∧ ∀ x ∈ l, (byTime x o).isLE := by
  induction l using List.reverseRecOn generalizing o with
  | nil => cases h
  | append_singleton l p ih =>
    rw [latestVersion_concat] at h
    cases hl : latestVersion l with
    | none =>
      rw [hl] at h
      cases h
      have hnil : l = [] := by
        by_contra hne
        obtain ⟨q, hq⟩ := exists_latestVersion hne
        rw [hl] at hq
        cases hq
      subst hnil
      simp
    | some q =>
      rw [hl] at h
      obtain ⟨hmem, hmax⟩ := ih hl
      dsimp only at h
      split at h
      · next hgt =>
        cases h
        refine ⟨List.mem_append_left _ hmem, fun x hx ↦ ?_⟩
        rcases List.mem_append.1 hx with hx | hx
        · exact hmax x hx
        · obtain rfl := List.mem_singleton.1 hx
          rw [byTime_swap, hgt]
          rfl
      · next hgt =>
        cases h
        refine ⟨by simp, fun x hx ↦ ?_⟩
        rcases List.mem_append.1 hx with hx | hx
        · refine Std.TransCmp.isLE_trans (hmax x hx) ?_
          cases hc : byTime q p with
          | gt => exact absurd hc hgt
          | lt => rfl
          | eq => rfl
        · obtain rfl := List.mem_singleton.1 hx
          simp

/-- There is only one latest version when the identities are different. -/
theorem latestVersion_eq_some_iff {l : List Object}
    (hl : ∀ x ∈ l, ∀ y ∈ l, x.versionId = y.versionId → x = y) :
    latestVersion l = some o ↔ o ∈ l ∧ ∀ x ∈ l, (byTime x o).isLE := by
  refine ⟨latestVersion_spec, fun ⟨hmem, hmax⟩ ↦ ?_⟩
  obtain ⟨p, hp⟩ := exists_latestVersion (List.ne_nil_of_mem hmem)
  obtain ⟨hpmem, hpmax⟩ := latestVersion_spec hp
  have heq : byTime p o = .eq := by
    have hle := hmax p hpmem
    have hge := hpmax o hmem
    rw [byTime_swap] at hge
    cases hc : byTime p o with
    | eq => rfl
    | lt =>
      rw [hc] at hge
      cases hge
    | gt =>
      rw [hc] at hle
      cases hle
  rw [hp, hl p hpmem o hmem (versionId_eq_of_byTime heq)]

theorem latestVersion_congr {l l' : List Object}
    (hl : ∀ x ∈ l, ∀ y ∈ l, x.versionId = y.versionId → x = y) (h : ∀ x, x ∈ l ↔ x ∈ l') :
    latestVersion l = latestVersion l' := by
  refine Option.ext fun o ↦ ?_
  have hl' : ∀ x ∈ l', ∀ y ∈ l', x.versionId = y.versionId → x = y := fun x hx y hy ↦
    hl x ((h x).2 hx) y ((h y).2 hy)
  simp only [latestVersion_eq_some_iff hl, latestVersion_eq_some_iff hl', h]

/-! ### Records with their versions under their identities -/

/-- The version of a record with an identity, current or not. -/
def entry (e : KeyRecord) (id : String) : Option Stored :=
  e.versions[id]? <|> e.current.filter fun st ↦ st.2.versionId = some id

theorem Keyed.entry_eq_some (h : Keyed key e) {st : Stored} : e.entry id = some st ↔
    e.versions[id]? = some st ∨ (e.current = some st ∧ st.2.versionId = some id) := by
  unfold entry
  cases hversion : e.versions[id]? with
  | none => simp [Option.filter_eq_some_iff]
  | some st' =>
    refine ⟨fun heq ↦ .inl heq, fun hcases ↦ hcases.elim (fun heq ↦ heq) ?_⟩
    rintro ⟨hcurrent, hid⟩
    rw [((h.current st.1 st.2 hcurrent).2 id hid).2] at hversion
    cases hversion

theorem Keyed.versionId_of_entry (h : Keyed key e) {st : Stored} (hst : e.entry id = some st) :
    st.2.versionId = some id ∧ st.2.key = key ∧ validVersionId id = true := by
  rcases h.entry_eq_some.1 hst with hst | ⟨hst, hid⟩
  · obtain ⟨hkey, hid, hvalid⟩ := h.version id st.1 st.2 hst
    exact ⟨hid, hkey, hvalid⟩
  · obtain ⟨hkey, hids⟩ := h.current st.1 st.2 hst
    exact ⟨hid, hkey, (hids id hid).1⟩

/-- **What is listed are the versions of the record.** -/
theorem Keyed.mem_list (h : Keyed key e) :
    o ∈ e.list key ↔ ∃ id data, e.entry id = some (data, o) := by
  rw [h.list_eq, List.mem_mergeSort, listed, List.mem_append]
  constructor
  · rintro (hcurrent | hkept)
    · rw [Option.mem_toList, Option.filter_eq_some_iff] at hcurrent
      obtain ⟨⟨data, o'⟩, hst, rfl⟩ := Option.map_eq_some_iff.1 hcurrent.1
      obtain ⟨id, hid⟩ := Option.isSome_iff_exists.1 (Bool.and_eq_true_iff.1 hcurrent.2).2
      exact ⟨id, data, h.entry_eq_some.2 (.inr ⟨hst, hid⟩)⟩
    · obtain ⟨⟨id, data, o'⟩, hentry, ho⟩ := List.mem_filterMap.1 hkept
      dsimp only at ho
      split at ho
      · cases ho
        exact ⟨id, data, h.entry_eq_some.2
          (.inl (Std.ExtTreeMap.mem_toList_iff_getElem?_eq_some.1 hentry))⟩
      · cases ho
  · rintro ⟨id, data, hentry⟩
    obtain ⟨hid, hkey, -⟩ := h.versionId_of_entry hentry
    rcases h.entry_eq_some.1 hentry with hversion | ⟨hcurrent, -⟩
    · refine .inr (List.mem_filterMap.2 ⟨(id, data, o), ?_, if_pos hkey⟩)
      exact Std.ExtTreeMap.mem_toList_iff_getElem?_eq_some.2 hversion
    · refine .inl (Option.mem_toList.2 (Option.filter_eq_some_iff.2 ⟨?_, ?_⟩))
      · rw [metadata, hcurrent]
        rfl
      · have hsome : o.versionId = some id := hid
        have hkey : o.key = key := hkey
        simp [hsome, hkey]

/-- The identity of a version determines it. -/
theorem Keyed.list_inj (h : Keyed key e) {x y : Object} (hx : x ∈ e.list key) (hy : y ∈ e.list key)
    (hid : x.versionId = y.versionId) : x = y := by
  obtain ⟨i, data, hi⟩ := h.mem_list.1 hx
  obtain ⟨j, data', hj⟩ := h.mem_list.1 hy
  have hij : some i = some j :=
    ((h.versionId_of_entry hi).1.symm.trans hid).trans (h.versionId_of_entry hj).1
  cases hij
  rw [hi] at hj
  cases hj
  rfl

/-! ### Deleting a version -/

/-- The current version is the latest one, unless that is a delete marker. -/
def Settled (key : Text) (e : KeyRecord) : Prop :=
  e.metadata = (latestVersion (e.list key)).filter (!·.isDeleteMarker)

/-- The versions that are listed when the version `id` is gone. -/
theorem Keyed.mem_list_of_entry (h : Keyed key e) (h' : Keyed key e')
    (hentry : ∀ i, e'.entry i = if i = id then none else e.entry i) :
    o ∈ e'.list key ↔ o ∈ (e.list key).filter (·.versionId ≠ some id) := by
  rw [h'.mem_list, List.mem_filter, h.mem_list]
  constructor
  · rintro ⟨i, data, hi⟩
    rw [hentry] at hi
    split at hi
    · cases hi
    · next hne =>
      refine ⟨⟨i, data, hi⟩, decide_eq_true fun hid ↦ hne ?_⟩
      rw [(h.versionId_of_entry hi).1] at hid
      exact Option.some.inj hid
  · rintro ⟨⟨i, data, hi⟩, hid⟩
    refine ⟨i, data, ?_⟩
    have hne : i ≠ id := by
      rintro rfl
      exact of_decide_eq_true hid (h.versionId_of_entry hi).1
    rw [hentry, if_neg hne, hi]

/-- Another version than the current one is removed, and nothing else changes. -/
theorem Keyed.deleteVersion_of_current (h : Keyed key e) (hcurrent : e.current = some (data, o))
    (hne : o.versionId ≠ some id) (hid : (e.entry id).isSome) :
    e.deleteVersion key id = .ok { e with versions := e.versions.set id none } := by
  obtain ⟨st, hst⟩ := Option.isSome_iff_exists.1 hid
  have hversion : e.versions[id]? = some st := by
    refine (h.entry_eq_some.1 hst).resolve_right ?_
    rintro ⟨heq, hst⟩
    rw [hcurrent] at heq
    cases heq
    exact hne hst
  have hvalid := (h.versionId_of_entry hst).2.2
  have hcontains : e.versions.contains id = true := by
    rw [← Std.ExtTreeMap.isSome_getElem?_eq_contains, hversion]
    rfl
  have hother : e.metadata.any (·.versionId = some id) = false := by
    simp [metadata, hcurrent, hne]
  simp [deleteVersion, hvalid, hcontains, hother, hcurrent]

/-- A record without one of its versions, where the current one is another. -/
theorem Keyed.remove (h : Keyed key e) (hne : ∀ data o, e.current = some (data, o) →
    o.versionId ≠ some id) : Keyed key { e with versions := e.versions.set id none } ∧
      ∀ i, entry { e with versions := e.versions.set id none } i = if i = id then none else e.entry i := by
  have hset : ∀ (i : String), (e.versions.set id none)[i]? = if i = id then none else e.versions[i]? :=
    fun i ↦ Table.getElem?_set ..
  refine ⟨⟨fun data o hcurrent ↦ ?_, fun i data o hi ↦ ?_⟩, fun i ↦ ?_⟩
  · obtain ⟨hkey, hids⟩ := h.current data o hcurrent
    refine ⟨hkey, fun i hi ↦ ⟨(hids i hi).1, ?_⟩⟩
    show (e.versions.set id none)[i]? = none
    rw [hset]
    split
    · rfl
    · exact (hids i hi).2
  · replace hi : (e.versions.set id none)[i]? = some (data, o) := hi
    rw [hset] at hi
    split at hi
    · cases hi
    · exact h.version i data o hi
  · simp only [entry, hset]
    by_cases hi : i = id
    · rw [if_pos hi, if_pos hi, hi]
      cases hcurrent : e.current with
      | none => rfl
      | some st => simp [hne st.1 st.2 hcurrent]
    · rw [if_neg hi, if_neg hi]

/-- When there is no current version, or it is the one that is deleted, the latest of the others
becomes current, unless it is a delete marker. -/
theorem Keyed.deleteVersion_of_absent (h : Keyed key e)
    (hcurrent : ∀ data o, e.current = some (data, o) → o.versionId = some id)
    (hid : (e.entry id).isSome) : ∃ e', e.deleteVersion key id = .ok e' ∧ Keyed key e' ∧
      (∀ i, e'.entry i = if i = id then none else e.entry i) ∧
      e'.metadata = e.promoted key id := by
  obtain ⟨st, hst⟩ := Option.isSome_iff_exists.1 hid
  have hvalid := (h.versionId_of_entry hst).2.2
  -- without the current version, the record is the same up to what is deleted
  let cleared : KeyRecord := { e with current := none }
  have hcleared : Keyed key cleared := ⟨(fun _ _ h ↦ by cases h), h.version⟩
  have hentry : ∀ i, i ≠ id → cleared.entry i = e.entry i := by
    intro i hi
    simp only [entry, cleared]
    cases hc : e.current with
    | none => rfl
    | some st =>
      have hother : st.2.versionId ≠ some i := by
        rw [hcurrent st.1 st.2 hc]
        simpa using Ne.symm hi
      rw [Option.filter_some, if_neg (by simpa using hother)]
      simp
  obtain ⟨hremoved, hremovedEntry⟩ := @Keyed.remove key cleared id hcleared (fun _ _ h ↦ by cases h)
  have hfound : (!e.versions.contains id && !e.metadata.any (·.versionId = some id)) = false := by
    rcases h.entry_eq_some.1 hst with hversion | ⟨hc, hstid⟩
    · rw [← Std.ExtTreeMap.isSome_getElem?_eq_contains, hversion]
      rfl
    · simp [metadata, hc, hstid]
  have hreplace : (e.metadata.any (·.versionId = some id) || e.current.isNone) = true := by
    cases hc : e.current with
    | none => simp
    | some st => simp [metadata, hc, hcurrent st.1 st.2 hc]
  cases hpromoted : e.promoted key id with
  | none =>
    refine ⟨{ current := none, versions := e.versions.set id none }, ?_, hremoved, fun i ↦ ?_, rfl⟩
    · simp only [deleteVersion, hvalid, hfound, hreplace, hpromoted, Bool.not_true,
        Bool.false_eq_true, if_false, if_true]
    · refine (hremovedEntry i).trans ?_
      split
      · rfl
      · next hi => exact hentry i hi
  | some o =>
    obtain ⟨hlatest, -⟩ := Option.filter_eq_some_iff.1 hpromoted
    obtain ⟨hmem, hother⟩ := List.mem_filter.1 (mem_of_latestVersion hlatest)
    obtain ⟨i, data, hi⟩ := h.mem_list.1 hmem
    obtain ⟨hoid, hokey, hivalid⟩ := h.versionId_of_entry hi
    replace hoid : o.versionId = some i := hoid
    have hne : i ≠ id := by
      rintro rfl
      exact of_decide_eq_true hother hoid
    have hversion : e.versions[i]? = some (data, o) := by
      refine (h.entry_eq_some.1 hi).resolve_right ?_
      rintro ⟨hc, -⟩
      rw [hcurrent data o hc] at hoid
      exact hne (Option.some.inj hoid).symm
    refine ⟨{ current := some (data, o), versions := (e.versions.set id none).set i none }, ?_, ?_,
      fun j ↦ ?_, rfl⟩
    · simp only [deleteVersion, hvalid, hfound, hreplace, hpromoted, hoid, hversion, Bool.not_true,
        Bool.false_eq_true, if_false, if_true]
    · obtain ⟨hpromotedKeyed, -⟩ := @Keyed.remove key _ i hremoved (fun _ _ h ↦ by cases h)
      refine ⟨fun data' o' ho' ↦ ?_, hpromotedKeyed.version⟩
      cases ho'
      refine ⟨hokey, fun j hj ↦ ?_⟩
      rw [hoid] at hj
      cases hj
      exact ⟨hivalid, by simp⟩
    · by_cases hj : j = i
      · subst hj
        rw [if_neg hne, hi]
        simp [entry, hoid]
      · have hjo : o.versionId ≠ some j := by
          rw [hoid]
          simpa using Ne.symm hj
        simp only [entry, Table.getElem?_set, if_neg hj, Option.filter_some, hjo, decide_false,
          Bool.false_eq_true, if_false]
        by_cases hjid : j = id
        · rw [if_pos hjid, if_pos hjid]
          rfl
        · rw [if_neg hjid, if_neg hjid, ← entry, ← hentry j hjid]
          simp [entry, cleared]

/-- **What the deletion of a version does**: the version is gone, the others are as they were, and
the current version stays, or the latest one takes its place. -/
theorem Keyed.deleteVersion (h : Keyed key e) (hid : (e.entry id).isSome) :
    ∃ e', e.deleteVersion key id = .ok e' ∧ Keyed key e' ∧
      (∀ i, e'.entry i = if i = id then none else e.entry i) ∧
      (∀ data o, e.current = some (data, o) → o.versionId ≠ some id → e'.current = e.current) ∧
      (e.current = none → Settled key e') ∧ (Settled key e → Settled key e') := by
  by_cases hother : ∃ data o, e.current = some (data, o) ∧ o.versionId ≠ some id
  · obtain ⟨data, o, hcurrent, hne⟩ := hother
    have hcurrents : ∀ data' o', e.current = some (data', o') → o'.versionId ≠ some id := by
      intro data' o' h'
      rw [hcurrent] at h'
      cases h'
      exact hne
    obtain ⟨hkeyed, hentry⟩ := h.remove hcurrents
    refine ⟨_, h.deleteVersion_of_current hcurrent hne hid, hkeyed, hentry, fun _ _ _ _ ↦ rfl,
      fun hnone ↦ ?_, fun hsettled ↦ ?_⟩
    · rw [hcurrent] at hnone
      cases hnone
    · -- the latest version has not been removed
      have hmetadata : e.metadata = some o := by
        rw [metadata, hcurrent]
        rfl
      rw [Settled, hmetadata] at hsettled
      obtain ⟨hlatest, hmarker⟩ := Option.filter_eq_some_iff.1 hsettled.symm
      obtain ⟨hmem, hmax⟩ := latestVersion_spec hlatest
      have hlatest' : latestVersion
          (list key { e with versions := e.versions.set id none }) = some o := by
        rw [latestVersion_eq_some_iff fun x hx y hy ↦ hkeyed.list_inj hx hy]
        refine ⟨(h.mem_list_of_entry hkeyed hentry).2 (List.mem_filter.2 ⟨hmem, decide_eq_true hne⟩),
          fun x hx ↦ hmax x (List.mem_filter.1 ((h.mem_list_of_entry hkeyed hentry).1 hx)).1⟩
      rw [Settled, hlatest', Option.filter_some, if_pos hmarker]
      exact hmetadata
  · have hcurrents : ∀ data o, e.current = some (data, o) → o.versionId = some id := by
      intro data o hcurrent
      by_contra hne
      exact hother ⟨data, o, hcurrent, hne⟩
    obtain ⟨e', he', hkeyed, hentry, hmetadata⟩ := h.deleteVersion_of_absent hcurrents hid
    have hsettled : Settled key e' := by
      rw [Settled, hmetadata, promoted]
      congr 1
      refine latestVersion_congr (fun x hx y hy ↦ h.list_inj (List.mem_filter.1 hx).1
        (List.mem_filter.1 hy).1) fun x ↦ (h.mem_list_of_entry hkeyed hentry).symm
    exact ⟨e', he', hkeyed, hentry, fun data o hc hne ↦ absurd (hcurrents data o hc) hne,
      fun _ ↦ hsettled, fun _ ↦ hsettled⟩

end KeyRecord

end Sqrzl
