import SqrzlEmulator.Lifecycle.Versions

/-!
# Steps of the operations on versions

What the programs of `Storage.VersionStore` and the programs that rewrite metadata do to the history
of a key. They start from a directory in which at most one decision is pending (`Ready`), and they
leave one in which none is pending (`Settled`).

## The listing

`listObjectVersionsForKeyLocked` goes through the directories of the versions in any order, recovers
each of them, and then sorts what it has found and drops neighbours with the same identity. What it
returns is therefore described by its members alone (`Lists`): a version that shares its identity
with another one may be missing, **every version with an identity of its own is there**.
-/

namespace Sqrzl

open Prog KeyRecord

section Rules

variable {E : Env} {b : String} {key : Text} {s : BucketState} {H : History} {id : String}

/-! ### Directories of versions -/

theorem stored_of_versionStands {v : Option Directory} {st : Option Stored} (h : VersionStands v st)
    (hv : DirKind.Law.NoJournal versionDirs v) :
    v.bind (·.pair.blob) = st.map Prod.fst ∧ v.bind (·.pair.metadata) = st.map Prod.snd := by
  have hslot : (v.map (·.pair.slot)).getD {} = .ofStored st := by
    rw [← h.current]
    cases v with
    | none => rfl
    | some v =>
      rw [DirKind.Law.view, DirKind.Law.resolve_of_none (hv v rfl)]
      rfl
  cases v with
  | none => cases st with
    | none => exact ⟨rfl, rfl⟩
    | some st => exact absurd (congrArg Slot.blob hslot) (by simp [Slot.ofStored])
  | some v => cases st with
    | none => exact ⟨congrArg Slot.blob hslot, congrArg Slot.metadata hslot⟩
    | some st => exact ⟨congrArg Slot.blob hslot, congrArg Slot.metadata hslot⟩

@[simp] theorem ObjectDir.versionAt_default (id : String) :
    (default : ObjectDir).versionAt id = none :=
  congrFun (objectDirsLaw .simple).versionAt_default id

theorem versionIdDir_get (id : String) : (versionIdDir E b key id).get s =
    (((objectIdDir E b key).get s).getD default).versionAt id :=
  rfl

/-- The directory of a version in a settled directory stands for the version. -/
theorem Settled.versionAt {x : Option ObjectDir} (h : Settled E x H) (id : String) :
    VersionStands ((x.getD default).versionAt id) (H.versions id) ∧
      DirKind.Law.NoJournal versionDirs ((x.getD default).versionAt id) := by
  cases x with
  | none =>
    rw [Option.getD_none, ObjectDir.versionAt_default]
    exact ⟨h.shows.versions id, by rintro _ ⟨⟩⟩
  | some d =>
    have hview := view_of_journal_none (E := E) h.files.1
    have hversions := h.shows.versions id
    have hcalm := h.calm id
    rw [hview] at hversions hcalm
    exact ⟨hversions.of_bare, fun v hv ↦ hcalm v.bare (congrArg (Option.map Directory.bare) hv)⟩

theorem versionBlob_withObject {x : Option ObjectDir} (h : Settled E x H) :
    versionBlob E b key id (withObject E b key x s) = (H.versions id).map Prod.fst := by
  rw [versionBlob, versionIdDir_get, objectIdDir_get_withObject]
  exact (stored_of_versionStands (h.versionAt id).1 (h.versionAt id).2).1

theorem versionMetadata_withObject {x : Option ObjectDir} (h : Settled E x H) :
    versionMetadata E b key id (withObject E b key x s) = (H.versions id).map Prod.snd := by
  rw [versionMetadata, versionIdDir_get, objectIdDir_get_withObject]
  exact (stored_of_versionStands (h.versionAt id).1 (h.versionAt id).2).2

/-- Recovering the directory of a version of a settled directory changes no version. -/
theorem wp_recoverVersion {Q : Except Error Unit → BucketState → Prop} {x : Option ObjectDir}
    (h : Settled E x H) (hQ : ∀ y, Settled E y H → Q (.ok ()) (withObject E b key y s)) :
    wp (fun _ ↦ True) (recoverAt E versionDirs (versionIdDir E b key id)) Q
      (withObject E b key x s) := by
  have hget : (versionIdDir E b key id).get (withObject E b key x s) =
      (x.getD default).versionAt id := by
    rw [versionIdDir_get, objectIdDir_get_withObject]
  have hset : ∀ d v, x = some d → (versionIdDir E b key id).set v (withObject E b key x s) =
      withObject E b key (some ((ObjectDir.versionLens id).set v d)) s := by
    rintro d v rfl
    rw [versionIdDir, versionLens_set (objectIdDir_get_withObject _), objectIdDir_set_eq,
      withObject_withObject]
  obtain ⟨hstands, hj⟩ := h.versionAt id
  have hsound : versionDirsLaw.SoundAt hideAll ((versionIdDir E b key id).get
      (withObject E b key x s)) := by
    rw [hget]
    exact hstands.sound
  refine DirKind.Law.wp_recoverAt (fun v hv ↦ ?_) hsound (fun _ ↦ ⟨trivial, hQ x h⟩)
    (fun _ _ _ _ ↦ trivial) fun v hsome hvj _ hpub ↦ ?_
  · rw [hget] at hv
    cases x with
    | none => simp at hv
    | some d => rw [hset d _ rfl, ObjectDir.versionLens_set_self (d := d) hv]
  · rw [hget] at hsome hpub
    cases x with
    | none => simp at hsome
    | some d =>
      have hv : VersionStands (some v) (H.versions id) := by
        refine versionStands_of_noJournal hvj ?_
        have hc := congrArg Public.current hpub
        exact hc.trans hstands.current
      have hsettled : Settled E (some ((ObjectDir.versionLens id).set (some v) d))
          (H.setVersion id (H.versions id)) := h.setVersion hv (by rintro _ ⟨⟩; exact hvj)
      rw [History.setVersion_self rfl] at hsettled
      rw [hset d _ rfl]
      exact hQ _ hsettled

/-! ### Listings -/

/-- What a listing of the versions of a key returns, up to the order. -/
structure Lists (key : Text) (H : History) (l : List Object) : Prop where
  sound : ∀ o ∈ l, (∃ data, H.current = some (data, o) ∧ o.versionId.isSome) ∨
    ∃ id data, H.versions id = some (data, o)
  complete : ∀ id data o, H.versions id = some (data, o) → o.key = key →
    (∀ data' o', H.current = some (data', o') → o'.versionId ≠ o.versionId) →
    (∀ id' data' o', H.versions id' = some (data', o') → o'.versionId = o.versionId → o' = o) →
    o ∈ l

/-- An element that agrees with no other one survives. -/
theorem mem_destutter_of_unique {α β : Type} [DecidableEq β] {f : α → β} {o : α} {l : List α}
    (ho : o ∈ l) (hunique : ∀ p ∈ l, f p = f o → p = o) :
    o ∈ l.destutter fun l r ↦ f l ≠ f r := by
  cases l with
  | nil => cases ho
  | cons a l =>
    rw [List.destutter_cons']
    induction l generalizing a with
    | nil => exact ho
    | cons c l ih =>
      rcases List.mem_cons.1 ho with rfl | hrest
      · exact List.mem_destutter' _ _ _
      by_cases heq : f a = f c
      · rw [List.destutter'_cons_neg _ (not_not.2 heq)]
        have hmem : o ∈ a :: l := by
          rcases List.mem_cons.1 hrest with rfl | hl
          · exact List.mem_cons.2 (.inl (hunique a List.mem_cons_self heq).symm)
          · exact List.mem_cons_of_mem a hl
        refine ih a hmem fun p hp ↦ hunique p ?_
        exact (List.mem_cons.1 hp).elim (fun h ↦ h ▸ List.mem_cons_self)
          fun h ↦ List.mem_cons_of_mem a (List.mem_cons_of_mem c h)
      · rw [List.destutter'_cons_pos _ heq]
        exact List.mem_cons_of_mem a (ih c hrest fun p hp ↦ hunique p (List.mem_cons_of_mem a hp))

/-- A version has a directory. -/
theorem Settled.mem_keys {d : ObjectDir} (h : Settled E (some d) H) {st : Stored}
    (hst : H.versions id = some st) : id ∈ (d.versions.getD ∅).keys := by
  have hblob := (stored_of_versionStands (h.versionAt id).1 (h.versionAt id).2).1
  rw [hst, Option.getD_some] at hblob
  rw [Table.mem_keys]
  cases hv : (d.versions.getD ∅)[id]? with
  | some v => rfl
  | none =>
    rw [ObjectDir.versionAt, hv] at hblob
    cases hblob

/-- What has been collected when the versions `ids` are still to be looked at. -/
structure Collected (key : Text) (H : History) (start : List Object) (ids : List String)
    (l : List Object) : Prop where
  sound : ∀ o ∈ l, o ∈ start ∨ ∃ id data, H.versions id = some (data, o)
  complete : ∀ id data o, H.versions id = some (data, o) → o.key = key → id ∈ ids ∨ o ∈ l

theorem Collected.next {start l : List Object} {ids : List String}
    (h : Collected key H start (id :: ids) l) :
    Collected key H start ids
      (l ++ (((H.versions id).map Prod.snd).filter fun o ↦ o.key = key).toList) where
  sound o ho := by
    rcases List.mem_append.1 ho with ho | ho
    · exact h.sound o ho
    · rw [Option.mem_toList, Option.filter_eq_some_iff] at ho
      obtain ⟨⟨data, o'⟩, hst, rfl⟩ := Option.map_eq_some_iff.1 ho.1
      exact .inr ⟨id, data, hst⟩
  complete id' data o hst hkey := by
    rcases h.complete id' data o hst hkey with hmem | hmem
    · rcases List.mem_cons.1 hmem with rfl | hmem
      · refine .inr (List.mem_append_right _ ?_)
        rw [Option.mem_toList, hst]
        simp [hkey]
      · exact .inl hmem
    · exact .inr (List.mem_append_left _ hmem)

/-- Sorting what has been collected and dropping doubles gives a listing. -/
theorem Collected.lists {l : List Object} {start : List Object}
    (hstart : ∀ o, o ∈ start ↔
      ∃ data, H.current = some (data, o) ∧ o.key = key ∧ o.versionId.isSome)
    (h : Collected key H start [] l) : Lists key H
      ((l.mergeSort fun l r ↦ (compare l.versionId r.versionId).isLE).destutter
        fun l r ↦ l.versionId ≠ r.versionId) where
  sound o ho := by
    have hmem := (List.destutter_sublist ..).subset ho
    rw [List.mem_mergeSort] at hmem
    rcases h.sound o hmem with hcurrent | hkept
    · obtain ⟨data, hdata, -, hid⟩ := (hstart o).1 hcurrent
      exact .inl ⟨data, hdata, hid⟩
    · exact .inr hkept
  complete id data o hst hkey hcurrent hversions := by
    have hmem : o ∈ l := (h.complete id data o hst hkey).resolve_left List.not_mem_nil
    refine mem_destutter_of_unique (f := Object.versionId) (List.mem_mergeSort.2 hmem)
      fun p hp heq ↦ ?_
    rw [List.mem_mergeSort] at hp
    rcases h.sound p hp with hp | ⟨id', data', hp⟩
    · obtain ⟨data', hdata, -, -⟩ := (hstart p).1 hp
      exact absurd heq (hcurrent data' p hdata)
    · exact hversions id' data' p hp heq

theorem wp_listObjectVersionsForKeyLocked {Q : Except Error (List Object) → BucketState → Prop}
    (hdir : s.dir.isSome) (h : Ready E ((objectIdDir E b key).get s) H)
    (hQ : ∀ x l, Settled E x H → Lists key H l → Q (.ok l) (withObject E b key x s)) :
    wp (fun _ ↦ True) (listObjectVersionsForKeyLocked E b key) Q s := by
  simp only [listObjectVersionsForKeyLocked, bind_eq, pure_eq, wp_bind, wp_read]
  refine ⟨trivial, ?_⟩
  rw [Option.isNone_eq_false_iff.2 hdir]
  simp only [Bool.false_eq_true, if_false, wp_bind]
  refine wp_recoverObjectDir (J := fun _ ↦ True) hdir h (fun _ _ ↦ trivial) fun x hx _ ↦ ?_
  rw [wp_read, objectIdDir_get_withObject]
  refine ⟨trivial, ?_⟩
  cases x with
  | none =>
    refine ⟨trivial, hQ none [] hx ⟨(fun _ h ↦ by cases h), fun id data o hst ↦ ?_⟩⟩
    have hblob := (stored_of_versionStands (hx.versionAt id).1 (hx.versionAt id).2).1
    rw [hst, Option.getD_none, ObjectDir.versionAt_default] at hblob
    cases hblob
  | some d =>
    simp only [Option.isNone_some, Bool.false_eq_true, if_false, wp_bind, wp_read,
      objectIdDir_get_withObject, objectMetadata_withObject hx, Option.bind_some]
    refine ⟨trivial, trivial, wp_shuffled trivial fun ids hids ↦ ?_⟩
    have hstart : ∀ o, o ∈ ((H.current.map Prod.snd).filter
        fun o ↦ decide (o.key = key) && o.versionId.isSome).toList ↔
        ∃ data, H.current = some (data, o) ∧ o.key = key ∧ o.versionId.isSome := by
      intro o
      rw [Option.mem_toList, Option.filter_eq_some_iff, Option.map_eq_some_iff]
      constructor
      · rintro ⟨⟨⟨data, o'⟩, hst, rfl⟩, hkey⟩
        simp only [Bool.and_eq_true, decide_eq_true_eq] at hkey
        exact ⟨data, hst, hkey⟩
      · rintro ⟨data, hst, hkey⟩
        refine ⟨⟨(data, o), hst, rfl⟩, ?_⟩
        simpa using hkey
    refine wp_foldEach (J := fun ids l t ↦ (∃ y, Settled E y H ∧ t = withObject E b key y s) ∧
      Collected key H _ ids l) ?_ ?_ ids ⟨⟨some d, hx, rfl⟩, fun o ho ↦ .inl ho,
        fun id data o hst _ ↦ .inl (hids.mem_iff.2 (hx.mem_keys hst))⟩
    · rintro id ids l _ ⟨⟨y, hy, rfl⟩, hl⟩
      simp only [wp_bind]
      refine wp_recoverVersion hy fun z hz ↦ ?_
      rw [wp_read, versionMetadata_withObject hz]
      exact ⟨trivial, trivial, ⟨z, hz, rfl⟩, hl.next⟩
    · rintro l _ ⟨⟨y, hy, rfl⟩, hl⟩
      exact ⟨trivial, trivial, hQ y _ hy (hl.lists hstart)⟩

/-! ### Deleting a version -/

/-- The record of the deletion of a version. -/
def History.deleteVersionChange (id : String) (promoted : Option Stored) (clearCurrent : Bool) :
    Change where
  publish := promoted.isSome
  clearCurrent := clearCurrent && promoted.isNone
  removeVersions := id :: (promoted.bind fun st ↦ st.2.versionId).toList
  marker := none

/-- Remove a version, and make another one current if there is one to be promoted. -/
def History.deleteVersion (id : String) (promoted : Option Stored) (clearCurrent : Bool)
    (H : History) : History :=
  H.change (deleteVersionChange id promoted clearCurrent) promoted

/-- A version as a payload: staging it does not touch the versions. -/
theorem frames_versionBlob (E : Env) (b : String) (key : Text) (id : String) :
    (Payload.stored (versionBlob E b key id)).Frames (objectDirsLaw E) hideAll
      (objectIdDir E b key) := by
  intro s d hj hview
  have hbare : ∀ v : Option Directory, (v.map Directory.bare).bind (·.pair.blob) =
      v.bind (·.pair.blob) := fun v ↦ by cases v <;> rfl
  have hseen : (d.versionAt id).map Directory.bare =
      ((((objectIdDir E b key).get s).getD default).versionAt id).map Directory.bare := by
    have hversions := congrFun (congrArg Public.versions hview) id
    cases hx : (objectIdDir E b key).get s with
    | none =>
      rw [hx] at hversions
      rw [Option.getD_none, ObjectDir.versionAt_default]
      exact hversions.symm
    | some d' =>
      rw [hx, view_of_journal_none (hj d' hx)] at hversions
      exact hversions.symm
  rw [versionBlob, versionBlob, versionIdDir_get, versionIdDir_get, Lens.get_set, Option.getD_some,
    ← hbare, hseen, hbare]

theorem wp_replaceVersion {Q : Except Error Unit → BucketState → Prop} {x : Option ObjectDir}
    {promoted : Option Stored} {clearCurrent : Bool} (hx : Settled E x H)
    (hid : validVersionId id = true)
    (hpromoted : ∀ data o, promoted = some (data, o) → o.serialized = o ∧ data.length = o.size ∧
      ∃ id', o.versionId = some id' ∧ validVersionId id' = true ∧
        H.versions id' = some (data, o))
    (hQ : ∀ y a, Settled E y (H.deleteVersion id promoted clearCurrent) → y.isSome →
      Q (.ok ()) ((withObject E b key y s).remember a s.drawn)) :
    wp (fun _ ↦ True) (replaceVersion E b key id (promoted.map Prod.snd) clearCurrent) Q
      (withObject E b key x s) := by
  have hready : Ready E ((objectIdDir E b key).get (withObject E b key x s)) H := by
    rw [objectIdDir_get_withObject]
    exact hx.ready
  cases promoted with
  | none =>
    have hst : Staged (withObject E b key x s) none none := rfl
    refine wp_changeHistory (J := fun _ ↦ True) (H := H)
      (r := History.deleteVersionChange id none clearCurrent) ?_ rfl hready (fun _ _ h ↦ by cases h) hst
      ⟨⟨(fun h ↦ by cases h), fun id' hid' ↦ ?_, fun _ h ↦ by cases h⟩, fun h ↦ by cases h⟩ (fun _ _ _ _ ↦ trivial) fun y hy hsome ↦ ?_
    · simp [History.deleteVersionChange]
    · obtain rfl : id' = id := by simpa [History.deleteVersionChange] using hid'
      exact hid
    · rw [withObject_withObject]
      exact hQ y s.azureProtectionPossible hy hsome
  | some st =>
    obtain ⟨data, o⟩ := st
    obtain ⟨hplain, hsize, id', hid', hvalid, hversion⟩ := hpromoted data o rfl
    simp only [replaceVersion, Option.map_some, hid', bind_eq, wp_bind]
    refine wp_admitAzureProtection (J := fun _ ↦ True) trivial fun a ↦ ?_
    have hblob : versionBlob E b key id' ((withObject E b key x s).remember a
        (withObject E b key x s).drawn) = some data := by
      show versionBlob E b key id' (withObject E b key x s) = _
      rw [versionBlob_withObject hx, hversion]
      rfl
    have hst : Staged ((withObject E b key x s).remember a (withObject E b key x s).drawn)
        (some (o, .stored (versionBlob E b key id'))) (some (data, o)) :=
      ⟨data, hblob, by rw [hplain]⟩
    refine wp_changeHistory (J := fun _ ↦ True) (H := H)
      (r := History.deleteVersionChange id (some (data, o)) clearCurrent) ?_ rfl hready ?_ hst
      ⟨⟨fun _ ↦ ⟨?_, rfl⟩, fun j hj ↦ ?_, fun _ h ↦ by cases h⟩,
        fun _ ↦ ⟨data, o, rfl, hsize⟩⟩ (fun _ _ _ _ ↦ trivial) fun y hy hsome ↦ ?_
    · simp [History.deleteVersionChange, hid']
    · rintro _ _ ⟨⟩
      refine ⟨?_, frames_versionBlob E b key id'⟩
      show DirKind.Law.NoJournal (objectDirs E) ((objectIdDir E b key).get (withObject E b key x s))
      rw [objectIdDir_get_withObject]
      exact hx.noJournal
    · simp [History.deleteVersionChange]
    · have hj : j = id ∨ j = id' := by simpa [History.deleteVersionChange, hid'] using hj
      rcases hj with rfl | rfl
      · exact hid
      · exact hvalid
    · rw [withObject_remember, withObject_withObject]
      exact hQ y a hy hsome

/-! ### Filed histories -/

/-- What is stored as a version of a key: its object names the key, its size is the length of its
bytes, and the bytes are not part of its metadata. -/
structure Whole (key : Text) (st : Stored) : Prop where
  key : st.2.key = key
  size : st.1.length = st.2.size
  serialized : st.2.serialized = st.2

/-- **Every version is whole and filed under its own identity.** The current version may be among
the versions before it, too: a snapshot of it is left there when the operation that took it
fails. -/
structure History.Sound (key : Text) (H : History) : Prop where
  current : ∀ data o, H.current = some (data, o) → Whole key (data, o) ∧
    ∀ id, o.versionId = some id → validVersionId id = true
  version : ∀ id data o, H.versions id = some (data, o) → Whole key (data, o) ∧
    o.versionId = some id ∧ validVersionId id = true

/-- The current version can only be the version `id`. -/
def History.Leaves (id : String) (H : History) : Prop :=
  ∀ data o, H.current = some (data, o) → o.versionId = some id

/-- The greatest version in time, and by its identity, of those that are left without `id`. -/
def History.Latest (id : String) (H : History) (st : Stored) : Prop :=
  ∃ j, j ≠ id ∧ H.versions j = some st ∧
    ∀ k st', k ≠ id → H.versions k = some st' → (byTime st'.2 st.2).isLE

/-- The listing finds the version to be promoted. -/
theorem Lists.latest {l : List Object} (hl : Lists key H l) (hsound : H.Sound key)
    (hleaves : H.Leaves id) :
    (latestVersion (l.filter (·.versionId ≠ some id)) = none ∧ ∀ j ≠ id, H.versions j = none) ∨
      ∃ st, H.Latest id st ∧ latestVersion (l.filter (·.versionId ≠ some id)) = some st.2 := by
  have hmem : ∀ o, o ∈ l.filter (·.versionId ≠ some id) ↔
      ∃ j data, j ≠ id ∧ H.versions j = some (data, o) := by
    intro o
    rw [List.mem_filter, decide_eq_true_eq]
    constructor
    · rintro ⟨ho, hne⟩
      rcases hl.sound o ho with ⟨data, hcurrent, -⟩ | ⟨j, data, hj⟩
      · exact absurd (hleaves data o hcurrent) hne
      · refine ⟨j, data, ?_, hj⟩
        rintro rfl
        exact hne (hsound.version j data o hj).2.1
    · rintro ⟨j, data, hne, hj⟩
      obtain ⟨hwhole, hid, -⟩ := hsound.version j data o hj
      have hother : o.versionId ≠ some id := by
        rw [hid]
        exact fun h ↦ hne (Option.some.inj h)
      refine ⟨hl.complete j data o hj hwhole.key (fun data' o' hcurrent heq ↦ ?_)
        fun j' data' o' hj' heq ↦ ?_, hother⟩
      · exact hother (heq.symm.trans (hleaves data' o' hcurrent))
      · obtain rfl : j' = j := Option.some.inj
          ((hsound.version j' data' o' hj').2.1.symm.trans (heq.trans hid))
        cases hj.symm.trans hj'
        rfl
  cases hlatest : latestVersion (l.filter (·.versionId ≠ some id)) with
  | none =>
    refine .inl ⟨rfl, fun j hne ↦ ?_⟩
    cases hj : H.versions j with
    | none => rfl
    | some st =>
      obtain ⟨o, ho⟩ := exists_latestVersion (List.ne_nil_of_mem ((hmem st.2).2 ⟨j, st.1, hne, hj⟩))
      rw [hlatest] at ho
      cases ho
  | some o =>
    obtain ⟨ho, hmax⟩ := latestVersion_spec hlatest
    obtain ⟨j, data, hne, hj⟩ := (hmem o).1 ho
    refine .inr ⟨(data, o), ⟨j, hne, hj, fun k st' hk hst' ↦ ?_⟩, rfl⟩
    exact hmax st'.2 ((hmem st'.2).2 ⟨k, st'.1, hk, hst'⟩)

/-- What is promoted when the version `id` is deleted. -/
inductive History.Promotes (id : String) (H : History) : Option Stored → Prop
  | other {data : Bytes} {o : Object} (hcurrent : H.current = some (data, o))
      (hne : o.versionId ≠ some id) : Promotes id H none
  | nothing (hleaves : H.Leaves id) (hnone : ∀ j ≠ id, H.versions j = none) : Promotes id H none
  | marker {st : Stored} (hleaves : H.Leaves id) (hlatest : H.Latest id st)
      (hmarker : st.2.isDeleteMarker = true) : Promotes id H none
  | version {st : Stored} (hleaves : H.Leaves id) (hlatest : H.Latest id st)
      (hmarker : st.2.isDeleteMarker = false) : Promotes id H (some st)

/-- A version is among those before the current one, or is the current one. -/
def History.Has (id : String) (H : History) : Prop :=
  (H.versions id).isSome ∨ ∃ data o, H.current = some (data, o) ∧ o.versionId = some id

/-- Whether a history keeps a current version when the version `id` is deleted. -/
def History.clears (id : String) (H : History) : Bool :=
  H.current.all fun st ↦ st.2.versionId = some id

theorem History.clears_iff : H.clears id = true ↔ H.Leaves id := by
  rw [clears, Option.all_eq_true]
  exact ⟨fun h data o ho ↦ by simpa using h _ ho, fun h st hst ↦ by simpa using h st.1 st.2 hst⟩

theorem History.not_has (h : ¬ H.Has id) : H.versions id = none ∧
    ∀ data o, H.current = some (data, o) → o.versionId ≠ some id := by
  refine ⟨?_, fun data o hcurrent hid ↦ h (.inr ⟨data, o, hcurrent, hid⟩)⟩
  cases hv : H.versions id with
  | none => rfl
  | some st => exact absurd (.inl (by rw [hv]; rfl)) h

/-- What is promoted can be published. -/
theorem History.Promotes.publishable {promoted : Option Stored} (h : H.Promotes id promoted)
    (hsound : H.Sound key) : ∀ data o, promoted = some (data, o) → o.serialized = o ∧
      data.length = o.size ∧ ∃ id', o.versionId = some id' ∧ validVersionId id' = true ∧
        H.versions id' = some (data, o) := by
  rintro data o rfl
  cases h with
  | version hleaves hlatest hmarker =>
    obtain ⟨j, -, hj, -⟩ := hlatest
    obtain ⟨hwhole, hid, hvalid⟩ := hsound.version j data o hj
    exact ⟨hwhole.serialized, hwhole.size, j, hid, hvalid, hj⟩

/-- What a deletion leaves of the directory: nothing, if the history is empty. -/
theorem Settled.empty_of_no_entries {d : ObjectDir} (h : Settled E (some d) H)
    (hcurrent : H.current = none) (hempty : (d.versions.getD ∅).isEmpty = true) : d.Vacant := by
  have hversions : H.versions = fun _ ↦ none := by
    funext id
    cases hst : H.versions id with
    | none => rfl
    | some st =>
      have hmem := h.mem_keys hst
      rw [Std.ExtTreeMap.isEmpty_iff.1 hempty] at hmem
      simp at hmem
  have hH : H = {} := History.ext hcurrent hversions
  rw [hH] at h
  exact settled_empty_iff.1 h

theorem wp_indexAfterDelete {Q : Except Error Unit → BucketState → Prop} {y : Option ObjectDir}
    {a : Option Bool} {n : ℕ} (hy : Settled E y H) (hsome : y.isSome)
    (hQ : ∀ z t, Settled E z H → (t = ((withObject E b key z s).remember a n).insertKey key ∨
      t = ((withObject E b key z s).remember a n).removeKey key) → Q (.ok ()) t) :
    wp (fun _ ↦ True) (indexAfterDelete E b key) Q ((withObject E b key y s).remember a n) := by
  obtain ⟨d, rfl⟩ := Option.isSome_iff_exists.1 hsome
  simp only [indexAfterDelete, bind_eq, pure_eq, wp_bind, wp_read]
  refine ⟨trivial, ?_⟩
  rw [show objectBlob E b key ((withObject E b key (some d) s).remember a n) =
    H.current.map Prod.fst from objectBlob_withObject hy]
  cases hcurrent : H.current with
  | some st => exact wp_modify.2 ⟨trivial, trivial, hQ (some d) _ hy (.inl rfl)⟩
  | none =>
    simp only [Option.map_none, Option.isSome_none, Bool.false_eq_true, if_false, wp_bind,
      wp_modify, wp_read]
    refine ⟨trivial, trivial, trivial, ?_⟩
    have hget : (objectIdDir E b key).get (((withObject E b key (some d) s).remember a n).removeKey
        key) = some d := objectIdDir_get_withObject (some d)
    rw [hget, Option.bind_some]
    cases hempty : (d.versions.getD ∅).isEmpty with
    | false => exact ⟨trivial, hQ (some d) _ hy (.inr rfl)⟩
    | true =>
      have hvacant := hy.empty_of_no_entries hcurrent hempty
      have hH : H = {} := by
        refine History.ext hcurrent (funext fun j ↦ ?_)
        cases hst : H.versions j with
        | none => rfl
        | some st =>
          have hmem := hy.mem_keys hst
          rw [Std.ExtTreeMap.isEmpty_iff.1 hempty] at hmem
          simp at hmem
      refine wp_removeObjectDir (I := fun _ ↦ True) hget ?_ hvacant (fun _ _ ↦ trivial) trivial ?_
      · exact congrArg (fun t : BucketState ↦ (t.remember a n).removeKey key)
          (withObject_withObject (some d) (some d))
      · refine hQ none _ (hH ▸ settled_none) (.inr ?_)
        exact congrArg (fun t : BucketState ↦ (t.remember a n).removeKey key)
          (withObject_withObject none (some d))

theorem wp_deleteVersionBeside {Q : Except Error Unit → BucketState → Prop} {x : Option ObjectDir}
    (hx : Settled E x H) (hsound : H.Sound key) (hvalid : validVersionId id = true)
    (hok : ∀ y a promoted t, H.Has id → H.Promotes id promoted →
      Settled E y (H.deleteVersion id promoted (H.clears id)) →
      (t = ((withObject E b key y s).remember a s.drawn).insertKey key ∨
        t = ((withObject E b key y s).remember a s.drawn).removeKey key) → Q (.ok ()) t)
    (herr : ¬ H.Has id → Q (.error .noSuchVersion) (withObject E b key x s)) :
    wp (fun _ ↦ True) (deleteVersionBeside E b key id (H.current.map Prod.snd)) Q
      (withObject E b key x s) := by
  have hdeleting : (H.current.map Prod.snd).any (·.versionId = some id) = true ↔
      ∃ data o, H.current = some (data, o) ∧ o.versionId = some id := by
    cases hcurrent : H.current with
    | none => simp
    | some st =>
      rw [Option.map_some, Option.any_some, decide_eq_true_eq]
      refine ⟨fun hid ↦ ⟨st.1, st.2, rfl, hid⟩, ?_⟩
      rintro ⟨data, o, ⟨⟩, hid⟩
      exact hid
  have hclears : ((H.current.map Prod.snd).any (·.versionId = some id) ||
      (H.current.map Prod.snd).isNone) = H.clears id := by
    unfold History.clears
    cases H.current with
    | none => rfl
    | some st => simp
  have hfinish : ∀ {z : Option ObjectDir} {promoted : Option Stored}, H.Has id → Settled E z H →
      H.Promotes id promoted → wp (fun _ ↦ True)
        ((replaceVersion E b key id (promoted.map Prod.snd) (H.clears id)).bind fun _ ↦
          indexAfterDelete E b key) Q (withObject E b key z s) := by
    intro z promoted hin hz hpromotes
    rw [wp_bind]
    refine wp_replaceVersion hz hvalid (hpromotes.publishable hsound) fun y a hy hsome ↦ ?_
    exact wp_indexAfterDelete hy hsome fun w t hw ht ↦ hok w a promoted t hin hpromotes hw ht
  simp only [deleteVersionBeside, bind_eq, wp_bind, wp_read, hclears]
  refine ⟨trivial, ?_⟩
  rw [versionBlob_withObject hx, Option.isSome_map]
  by_cases hin : H.Has id
  · have hfound : (!(H.versions id).isSome &&
        !(H.current.map Prod.snd).any (·.versionId = some id)) = false := by
      rcases hin with hversion | hcurrent
      · rw [hversion]
        rfl
      · rw [hdeleting.2 hcurrent, Bool.not_true, Bool.and_false]
    rw [hfound]
    simp only [Bool.false_eq_true, if_false]
    by_cases hleaves : H.Leaves id
    · rw [if_pos (History.clears_iff.2 hleaves), wp_bind]
      refine wp_listObjectVersionsForKeyLocked rfl
        (by rw [objectIdDir_get_withObject]; exact hx.ready) fun z l hz hl ↦ ?_
      rw [withObject_withObject]
      rcases hl.latest hsound hleaves with ⟨hnone, hothers⟩ | ⟨st, hlatest, hsome⟩
      · have hdone := hfinish hin hz (.nothing hleaves hothers)
        show wp _ ((ret (latestVersion _)).bind _) _ _
        rw [hnone]
        exact hdone
      · show wp _ ((ret (latestVersion _)).bind _) _ _
        rw [hsome]
        cases hmarker : st.2.isDeleteMarker with
        | true =>
          have hfilter : (some st.2).filter (!·.isDeleteMarker) = none := by simp [hmarker]
          have hdone := hfinish hin hz (.marker hleaves hlatest hmarker)
          show wp _
            ((replaceVersion E b key id ((some st.2).filter (!·.isDeleteMarker)) _).bind _) _ _
          rw [hfilter]
          exact hdone
        | false =>
          have hfilter : (some st.2).filter (!·.isDeleteMarker) = some st.2 := by simp [hmarker]
          have hdone := hfinish hin hz (.version hleaves hlatest hmarker)
          show wp _
            ((replaceVersion E b key id ((some st.2).filter (!·.isDeleteMarker)) _).bind _) _ _
          rw [hfilter]
          exact hdone
    · rw [if_neg fun h ↦ hleaves (History.clears_iff.1 h)]
      unfold History.Leaves at hleaves
      push Not at hleaves
      obtain ⟨data, o, hcurrent, hne⟩ := hleaves
      exact hfinish hin hx (.other hcurrent hne)
  · obtain ⟨hversion, hcurrent⟩ := History.not_has hin
    have hmissing : (!(H.versions id).isSome &&
        !(H.current.map Prod.snd).any (·.versionId = some id)) = true := by
      rw [hversion, Option.isSome_none, Bool.not_false, Bool.true_and, Bool.not_eq_true',
        ← Bool.not_eq_true, hdeleting]
      rintro ⟨data, o, hst, hid⟩
      exact hcurrent data o hst hid
    rw [if_pos hmissing, wp_bind]
    exact ⟨trivial, herr hin⟩

/-- **Deleting a version removes it, and promotes the latest version that is left if the current one
is gone.** It fails exactly when there is no such version. -/
theorem wp_deleteObjectVersionLocked {Q : Except Error Unit → BucketState → Prop}
    (hdir : s.dir.isSome) (h : Ready E ((objectIdDir E b key).get s) H) (hsound : H.Sound key)
    (hok : ∀ y a promoted t, H.Has id → H.Promotes id promoted →
      Settled E y (H.deleteVersion id promoted (H.clears id)) →
      (t = ((withObject E b key y s).remember a s.drawn).insertKey key ∨
        t = ((withObject E b key y s).remember a s.drawn).removeKey key) → Q (.ok ()) t)
    (herr : ¬ H.Has id → ∀ x, Ready E x H → Q (.error .noSuchVersion) (withObject E b key x s)) :
    wp (fun _ ↦ True) (deleteObjectVersionLocked E b key id) Q s := by
  have hhas : H.Has id → validVersionId id = true := by
    rintro (hversion | ⟨data, o, hcurrent, hid⟩)
    · obtain ⟨st, hst⟩ := Option.isSome_iff_exists.1 hversion
      exact (hsound.version id st.1 st.2 hst).2.2
    · exact (hsound.current data o hcurrent).2 id hid
  simp only [deleteObjectVersionLocked, bind_eq, wp_bind, wp_read]
  refine ⟨trivial, ?_⟩
  rw [Option.isNone_eq_false_iff.2 hdir]
  simp only [Bool.false_eq_true, if_false]
  cases hvalid : validVersionId id with
  | false =>
    have hself : withObject E b key ((objectIdDir E b key).get s) s = s :=
      BucketState.objectLens_set_get hdir
    refine ⟨trivial, hself ▸ herr (fun hin ↦ ?_) _ h⟩
    rw [hhas hin] at hvalid
    cases hvalid
  | true =>
    simp only [Bool.not_true, Bool.false_eq_true, if_false, wp_bind]
    refine wp_recoverObjectDir (J := fun _ ↦ True) hdir h (fun _ _ ↦ trivial) fun x hx _ ↦ ?_
    rw [wp_attempt]
    refine wp_readObjectMetadataLocked (J := fun _ ↦ True) rfl
      (by rw [objectIdDir_get_withObject]; exact hx.ready) (fun _ _ ↦ trivial) fun y hy _ ↦ ?_
    rw [withObject_withObject]
    have hrest := wp_deleteVersionBeside (b := b) (s := s) (Q := Q) hy hsound hvalid hok
      fun hnot ↦ herr hnot y hy.ready
    rw [History.metadata]
    cases hcurrent : H.current with
    | none =>
      rw [hcurrent] at hrest
      exact hrest
    | some st =>
      rw [hcurrent] at hrest
      exact hrest

end Rules

end Sqrzl
