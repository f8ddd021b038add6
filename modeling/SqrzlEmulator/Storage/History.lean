import SqrzlEmulator.Storage.Publish

/-!
# The history of an object

What the directory of an object is for: it keeps the **current version and the versions before it**,
each with its bytes and its metadata. `History` is that, without files, journals or temporaries, and
`History.change` is what a publication makes of it.

* `Stands x H`: whatever decisions are pending in the directory `x` and in the directories of its
  versions, carrying them out gives `H`. This survives a kill at any step.
* `Settled x H`: the same, and no decision is pending. This holds between operations.

## The rules

The programs that operations are made of, as steps from one history to the next: `wp_publishObject`
for `publish_pair` and `change_history` on the directory of an object, `wp_writeVersionSnapshot` for
`publish_pair` on the directory of a version, `wp_rewriteMetadata` for a metadata file that is
replaced in place, and `wp_removeObjectDir` for the removal of a directory that holds nothing any
more. They speak of any state that the directory is a part of.
-/

namespace Sqrzl

open Prog

/-! ### Histories -/

/-- What is stored as one version: its bytes and its metadata. -/
abbrev Stored : Type := Bytes × Object

/-- The current version and the versions before it, delete markers among them. -/
@[ext] structure History where
  current : Option Stored := none
  versions : String → Option Stored := fun _ ↦ none

/-- The files of a version. -/
def Slot.ofStored : Option Stored → Slot
  | none => {}
  | some (b, o) => ⟨some b, some o⟩

/-- What a publication makes of a history. -/
def History.change (r : Change) (staged : Option Stored) (H : History) : History where
  current := if r.publish then staged else if r.clearCurrent then none else H.current
  versions id :=
    if r.markerId = some id then r.marker.map fun m ↦ ([], m.serialized)
    else if id ∈ r.removeVersions then none else H.versions id

/-- The temporaries of all versions are hidden. -/
def hideAll : String → Bool := fun _ ↦ true

/-- The directory of a version, if it exists, stands for a version. -/
structure VersionStands (v : Option Directory) (st : Option Stored) : Prop where
  sound : versionDirsLaw.SoundAt hideAll v
  current : (versionDirsLaw.view hideAll v).current = .ofStored st

/-- The files of an object, seen as a history. -/
structure Public.Shows (P : Public) (H : History) : Prop where
  current : P.current = .ofStored H.current
  versions : ∀ id, VersionStands (P.versions id) (H.versions id)

/-- No decision is pending in the directories of the versions. -/
def Public.Calm (P : Public) : Prop :=
  ∀ id, DirKind.Law.NoJournal versionDirs (P.versions id)

/-- The directory of an object, if it exists, stands for a history. -/
structure Stands (E : Env) (x : Option ObjectDir) (H : History) : Prop where
  sound : (objectDirsLaw E).SoundAt hideAll x
  shows : ((objectDirsLaw E).view hideAll x).Shows H

/-- The directory of an object, if it exists, holds a history, and no decision is pending. -/
structure Settled (E : Env) (x : Option ObjectDir) (H : History) : Prop where
  noJournal : DirKind.Law.NoJournal (objectDirs E) x
  shows : ((objectDirsLaw E).view hideAll x).Shows H
  calm : ((objectDirsLaw E).view hideAll x).Calm

/-- The directory of an object stands for a history, and at most its own journal is pending. -/
structure Ready (E : Env) (x : Option ObjectDir) (H : History) : Prop where
  stands : Stands E x H
  calm : ((objectDirsLaw E).view hideAll x).Calm

theorem Settled.stands {E : Env} {x : Option ObjectDir} {H : History} (h : Settled E x H) :
    Stands E x H :=
  ⟨fun d hd ↦ DirKind.Law.sound_of_none (h.noJournal d hd), h.shows⟩

theorem Settled.ready {E : Env} {x : Option ObjectDir} {H : History} (h : Settled E x H) :
    Ready E x H :=
  ⟨h.stands, h.calm⟩

/-! ### Changes -/

section Change

variable {P : Public} {H : History} {r : Change} {stage : Slot} {st : Option Stored}

theorem versionStands_none : VersionStands none none :=
  ⟨by rintro _ ⟨⟩, rfl⟩

/-- A directory that does not exist holds no history. -/
theorem settled_none {E : Env} : Settled E none {} := by
  refine ⟨?_, ⟨rfl, fun _ ↦ versionStands_none⟩, ?_⟩
  · rintro _ ⟨⟩
  · rintro _ _ ⟨⟩

theorem versionStands_of_noJournal {v : Directory} (hv : v.journal = none)
    (hst : v.pair.slot = .ofStored st) : VersionStands (some v) st where
  sound := by
    rintro _ ⟨⟩
    exact DirKind.Law.sound_of_none hv
  current := by
    rw [DirKind.Law.view, DirKind.Law.resolve_of_none hv]
    exact hst

/-- Temporaries do not count. -/
theorem VersionStands.bare {v : Option Directory} (h : VersionStands v st) :
    VersionStands (v.map Directory.bare) st := by
  cases v with
  | none => exact h
  | some v =>
    refine ⟨?_, h.current⟩
    rintro _ ⟨⟩
    exact h.sound v rfl

theorem VersionStands.of_bare {v : Option Directory} (h : VersionStands (v.map Directory.bare) st) :
    VersionStands v st := by
  cases v with
  | none => exact h
  | some v =>
    refine ⟨?_, h.current⟩
    rintro _ ⟨⟩
    exact h.sound v.bare rfl

theorem Public.Shows.apply (h : P.Shows H) (hcalm : P.Calm)
    (hst : r.publish = true → stage = .ofStored st) :
    (r.apply hideAll stage P).Shows (H.change r st) where
  current := by
    simp only [Change.apply, History.change]
    split
    · next hp => exact hst hp
    · split
      · rfl
      · exact h.current
  versions id := by
    show VersionStands ((r.applyVersion id (P.versions id)).map Directory.bare) _
    simp only [History.change]
    split
    · next hid =>
      obtain ⟨marker, hm, hmid⟩ : ∃ marker, r.marker = some marker ∧ marker.versionId = some id :=
        Option.bind_eq_some_iff.1 hid
      rw [Change.applyVersion_marker hm hmid, hm]
      refine versionStands_of_noJournal ?_ rfl
      show ((if id ∈ r.removeVersions then none else P.versions id).getD {}).journal = none
      split
      · rfl
      · cases hv : P.versions id with
        | none => rfl
        | some v => exact hcalm id v hv
    · next hid =>
      rw [Change.applyVersion_of_ne hid]
      split
      · exact versionStands_none
      · exact (h.versions id).bare

theorem Public.Calm.apply (hcalm : P.Calm) : (r.apply hideAll stage P).Calm := by
  intro id v' hv'
  obtain ⟨v, hv, rfl⟩ := Option.map_eq_some_iff.1
    (show (r.applyVersion id (P.versions id)).map Directory.bare = some v' from hv')
  show v.journal = none
  by_cases hid : r.markerId = some id
  · obtain ⟨marker, hm, hmid⟩ : ∃ marker, r.marker = some marker ∧ marker.versionId = some id :=
      Option.bind_eq_some_iff.1 hid
    rw [Change.applyVersion_marker hm hmid, Option.some.injEq] at hv
    rw [← hv]
    show ((if id ∈ r.removeVersions then none else P.versions id).getD {}).journal = none
    split
    · rfl
    · cases hw : P.versions id with
      | none => rfl
      | some w => exact hcalm id w hw
  · rw [Change.applyVersion_of_ne hid] at hv
    split at hv
    · cases hv
    · exact hcalm id v hv

end Change

/-! ### Publishing into the directory of an object -/

section Rules

variable {σ : Type} {E : Env} {dir : Lens σ (Option ObjectDir)} {s : σ} {H : History}
  {I : σ → Prop}

/-- What a publication stages. -/
def Staged (s : σ) (staged : Option (Object × Payload σ)) (st : Option Stored) : Prop :=
  match staged with
  | none => st = none
  | some (o, payload) => ∃ b, payload.bytes o s = some b ∧ st = some (b, o.serialized)

/-- What `validate_publication` checks. -/
structure Change.Valid (r : Change) (st : Option Stored) : Prop extends r.WellFormed where
  staged : r.publish = true → ∃ b o, st = some (b, o) ∧ b.length = o.size

theorem staged_of_stagedPair {staged : Option (Object × Payload σ)} {p : Pair}
    (h : stagedPair s staged = some p) :
    ∃ st, Staged s staged st ∧ p.slot = .ofStored st := by
  cases staged with
  | none =>
    obtain rfl : {} = p := Option.some.inj h
    exact ⟨none, rfl, rfl⟩
  | some x =>
    obtain ⟨b, hb, rfl⟩ := Option.map_eq_some_iff.1 h
    exact ⟨_, ⟨b, hb, rfl⟩, rfl⟩

theorem validate_iff_valid {r : Change} {p : Pair} {st : Option Stored}
    (h : p.slot = .ofStored st) : r.validate (some p) = .ok () ↔ r.Valid st := by
  rw [Change.validate_eq_ok_iff]
  have hp : p.Complete ↔ ∃ b o, st = some (b, o) ∧ b.length = o.size := by
    obtain ⟨blob, metadata, temps⟩ := p
    rcases st with _ | ⟨b, o⟩
    · obtain ⟨rfl, rfl⟩ := Slot.mk.injEq .. ▸ h
      simp [Pair.Complete]
    · obtain ⟨rfl, rfl⟩ := Slot.mk.injEq .. ▸ h
      simp [Pair.Complete]
  constructor
  · rintro ⟨hw, hst⟩
    refine ⟨hw, fun hpub ↦ hp.1 ?_⟩
    obtain ⟨q, hq, hc⟩ := hst hpub
    rwa [Option.some.inj hq]
  · rintro ⟨hw, hst⟩
    exact ⟨hw, fun hpub ↦ ⟨p, rfl, hp.2 (hst hpub)⟩⟩

/-- **`publish_pair` and `change_history` take one history to the next.** The call succeeds exactly
when its payload can be read and its record is valid, and wherever it is stopped, the directory
stands for the history before it or for the one after it. -/
theorem wp_publishObject {Q : Except Error Unit → σ → Prop} {parents : Op σ Unit} {r : Change}
    {staged : Option (Object × Payload σ)} (hs : ∀ d, dir.get s = some d → dir.set (some d) s = s)
    (hstands : Stands E (dir.get s) H) (hcalm : ((objectDirsLaw E).view hideAll (dir.get s)).Calm)
    (hj : ∀ o source, staged = some (o, .stored source) →
      DirKind.Law.NoJournal (objectDirs E) (dir.get s))
    (hquiet : parents.Quiet)
    (hpar : dir.get s = none → wp I parents (fun r s₁ ↦ r = .ok () ∧
      ∀ d, dir.set (some d) s₁ = dir.set (some d) s) s)
    (hframe : ∀ o payload, staged = some (o, payload) →
      payload.Frames (objectDirsLaw E) hideAll dir)
    (hold : ∀ x s', Stands E x H → s' = s ∨ s' = stagedRest s staged → I (dir.set x s'))
    (hnew : ∀ x st, Stands E x (H.change r st) → Staged s staged st → r.Valid st →
      I (dir.set x (stagedRest s staged)))
    (hok : ∀ x st, Settled E x (H.change r st) → Staged s staged st → r.Valid st →
      x.isSome → Q (.ok ()) (dir.set x (stagedRest s staged)))
    (herr : ∀ e x s', Settled E x H → (∀ st, Staged s staged st → ¬ r.Valid st) →
      s' = s ∨ s' = stagedRest s staged → Q (.error e) (dir.set x s')) :
    wp I (publishRecord E (objectDirs E) dir parents r staged) Q s := by
  have hdone : ∀ {p}, stagedPair s staged = some p → r.validate (some p) = .ok () →
      ∃ st, Staged s staged st ∧ r.Valid st ∧ ∀ P, P = r.apply hideAll p.slot
        ((objectDirsLaw E).view hideAll (dir.get s)) → P.Shows (H.change r st) ∧ P.Calm := by
    intro p hp hv
    obtain ⟨st, hst, hslot⟩ := staged_of_stagedPair hp
    refine ⟨st, hst, (validate_iff_valid hslot).1 hv, ?_⟩
    rintro _ rfl
    exact ⟨hstands.shows.apply hcalm fun _ ↦ hslot, hcalm.apply⟩
  refine wp_of_record [] (wp_record_publishRecord (L := objectDirsLaw E) hideAll hs hstands.sound hj
    rfl hquiet hpar hframe trivial (fun _ _ ↦ rfl) ?_ ?_ ?_ ?_)
  · intro d s' hs' hsound hres
    refine hold (some d) s' ⟨?_, ?_⟩ hs'
    · rintro _ ⟨⟩
      exact hsound
    · rw [DirKind.Law.view, hres]
      exact hstands.shows
  · intro p hp hv d hsound hres
    obtain ⟨st, hst, hvalid, hP⟩ := hdone hp hv
    refine hnew (some d) st ⟨?_, (hP _ hres).1⟩ hst hvalid
    rintro _ ⟨⟩
    exact hsound
  · intro p hp hv d hjd hpub
    obtain ⟨st, hst, hvalid, hP⟩ := hdone hp hv
    have hview : (objectDirsLaw E).view hideAll (some d) = _ :=
      (DirKind.Law.resolve_of_none hjd).trans hpub
    refine hok (some d) st ⟨?_, (hP _ hview).1, (hP _ hview).2⟩ hst hvalid rfl
    rintro _ ⟨⟩
    exact hjd
  · intro e hbad d s' hs' hjd hpub
    have hview : (objectDirsLaw E).view hideAll (some d) = _ :=
      (DirKind.Law.resolve_of_none hjd).trans hpub
    refine herr e (some d) s' ⟨?_, ?_, ?_⟩ (fun st hst hvalid ↦ ?_) hs'
    · rintro _ ⟨⟩
      exact hjd
    · rw [hview]
      exact hstands.shows
    · rw [hview]
      exact hcalm
    · cases hstaged : staged with
      | none =>
        rw [hstaged] at hst
        obtain rfl : st = none := hst
        exact hbad {} (by rw [hstaged]; rfl) ((validate_iff_valid rfl).2 hvalid)
      | some x =>
        rw [hstaged] at hst
        obtain ⟨b, hb, rfl⟩ := hst
        refine hbad { blob := some b, metadata := some x.1.serialized } ?_
          ((validate_iff_valid rfl).2 hvalid)
        rw [hstaged]
        exact congrArg (Option.map _) hb

/-! ### Recovering the directory of an object -/

theorem wp_recoverObject {Q : Except Error Unit → σ → Prop} (hs : dir.set (dir.get s) s = s)
    (h : Stands E (dir.get s) H) (hcalm : ((objectDirsLaw E).view hideAll (dir.get s)).Calm)
    (hI : ∀ x, Stands E x H → x.isSome = (dir.get s).isSome → I (dir.set x s))
    (hQ : ∀ x, Settled E x H → x.isSome = (dir.get s).isSome → Q (.ok ()) (dir.set x s)) :
    wp I (recoverAt E (objectDirs E) dir) Q s := by
  have hIs : I s := hs ▸ hI _ h rfl
  refine DirKind.Law.wp_recoverAt (L := objectDirsLaw E) (fun d hd ↦ hd ▸ hs) h.sound (fun hx ↦ ?_)
    (fun d hsome hsound hres ↦ ?_) fun d hsome hj _ hpub ↦ ?_
  · refine ⟨hIs, hs ▸ hQ _ ⟨fun d hd ↦ ?_, h.shows, hcalm⟩ rfl⟩
    exact absurd (hx.symm.trans hd) (by simp)
  · refine hI (some d) ⟨?_, ?_⟩ hsome.symm
    · rintro _ ⟨⟩
      exact hsound
    · rw [DirKind.Law.view, hres]
      exact h.shows
  · have hview : (objectDirsLaw E).view hideAll (some d) = _ :=
      (DirKind.Law.resolve_of_none hj).trans hpub
    refine hQ (some d) ⟨?_, ?_, ?_⟩ hsome.symm
    · rintro _ ⟨⟩
      exact hj
    · rw [hview]
      exact h.shows
    · rw [hview]
      exact hcalm

/-! ### Replacing the metadata of the current version -/

theorem view_of_journal_none {d : ObjectDir} (hj : d.files.journal = none) :
    (objectDirsLaw E).view hideAll (some d) =
      { current := d.files.pair.slot, versions := fun j ↦ (d.versionAt j).map Directory.bare } :=
  DirKind.Law.resolve_of_none hj

theorem Settled.files {d : ObjectDir} (h : Settled E (some d) H) :
    d.files.journal = none ∧ d.files.pair.slot = .ofStored H.current := by
  have hj : d.files.journal = none := h.noJournal d rfl
  have hc := h.shows.current
  rw [view_of_journal_none hj] at hc
  exact ⟨hj, hc⟩

theorem Settled.setFiles {d : ObjectDir} {f : Directory} {st : Option Stored}
    (h : Settled E (some d) H) (hj : f.journal = none) (hst : f.pair.slot = .ofStored st) :
    Settled E (some { d with files := f }) { H with current := st } := by
  have hview := view_of_journal_none (E := E) h.files.1
  have hview' := view_of_journal_none (E := E) (d := { d with files := f }) hj
  have hversions := h.shows.versions
  have hcalm := h.calm
  rw [hview] at hversions hcalm
  refine ⟨?_, ⟨?_, fun id ↦ ?_⟩, fun id ↦ ?_⟩
  · rintro _ ⟨⟩
    exact hj
  · rw [hview']
    exact hst
  · rw [hview']
    exact hversions id
  · rw [hview']
    exact hcalm id

theorem wp_writeObjectMetadata {Q : Except Error Unit → σ → Prop} {d : ObjectDir} {b : Bytes}
    {o o' : Object} (hd : dir.get s = some d) (hs : dir.set (some d) s = s)
    (h : Settled E (some d) H) (hcur : H.current = some (b, o'))
    (hI : ∀ x, Settled E x H ∨ Settled E x { H with current := some (b, o.serialized) } →
      I (dir.set x s))
    (hok : ∀ x, Settled E x { H with current := some (b, o.serialized) } → x.isSome →
      Q (.ok ()) (dir.set x s)) :
    wp I (writeObjectMetadata E dir o) Q s := by
  obtain ⟨hj, hslot⟩ := h.files
  have hget : ((dir.comp .existing).comp ObjectDir.filesLens).get s = d.files := by
    show ((dir.get s).getD default).files = _
    rw [hd]
    rfl
  have hset : ∀ f, ((dir.comp .existing).comp ObjectDir.filesLens).set f s =
      dir.set (some { d with files := f }) s := by
    intro f
    show dir.set (some { (dir.get s).getD default with files := f }) s = _
    rw [hd]
    rfl
  have hold : ∀ f : Directory, f.journal = none → f.pair.slot = d.files.pair.slot →
      I (dir.set (some { d with files := f }) s) :=
    fun f hfj hf ↦ hI _ (.inl (h.setFiles hfj (hf.trans hslot)))
  have hblob : d.files.pair.blob = some b := by
    rw [hcur] at hslot
    exact congrArg Slot.blob hslot
  refine wp_zoom ?_ ?_
  · rw [hget, hset, hs]
  · simp only [hget, hset]
    refine wp_atomicWrite (hold _ hj rfl) (fun t ↦ hold _ hj rfl) fun t ↦ ⟨_, rfl, ?_, ?_⟩
    · exact hI _ (.inr (h.setFiles hj (Slot.ext hblob rfl)))
    · exact hok _ (h.setFiles hj (Slot.ext hblob rfl)) rfl

/-! ### Publishing into the directory of a version -/

/-- A history with one of its versions replaced. -/
def History.setVersion (id : String) (st : Option Stored) (H : History) : History :=
  { H with versions := fun j ↦ if j = id then st else H.versions j }

theorem History.setVersion_self {id : String} {st : Option Stored} (h : H.versions id = st) :
    H.setVersion id st = H := by
  refine History.ext rfl (funext fun j ↦ ?_)
  simp only [setVersion]
  split
  · next hj => rw [hj, h]
  · rfl

theorem view_setVersion {d : ObjectDir} (hj : d.files.journal = none) (id : String)
    (v : Option Directory) :
    (objectDirsLaw E).view hideAll (some ((ObjectDir.versionLens id).set v d)) =
      { current := ((objectDirsLaw E).view hideAll (some d)).current
        versions := fun j ↦ if j = id then v.map Directory.bare
          else ((objectDirsLaw E).view hideAll (some d)).versions j } := by
  have hj' : ((ObjectDir.versionLens id).set v d).files.journal = none := hj
  rw [view_of_journal_none hj, view_of_journal_none hj']
  refine Public.ext rfl (funext fun j ↦ ?_)
  show (((ObjectDir.versionLens id).set v d).versionAt j).map Directory.bare = _
  rw [ObjectDir.versionAt_set]
  exact apply_ite (Option.map Directory.bare) _ _ _

theorem Settled.stands_setVersion {d : ObjectDir} {id : String} {v : Option Directory}
    {st : Option Stored} (h : Settled E (some d) H) (hv : VersionStands v st) :
    Stands E (some ((ObjectDir.versionLens id).set v d)) (H.setVersion id st) := by
  have hj : d.files.journal = none := h.noJournal d rfl
  refine ⟨?_, ?_⟩
  · rintro _ ⟨⟩
    exact DirKind.Law.sound_of_none hj
  · rw [view_setVersion hj]
    refine ⟨h.shows.current, fun j ↦ ?_⟩
    simp only [History.setVersion]
    split
    · exact hv.bare
    · exact h.shows.versions j

theorem Settled.setVersion {d : ObjectDir} {id : String} {v : Option Directory}
    {st : Option Stored} (h : Settled E (some d) H) (hv : VersionStands v st)
    (hvj : DirKind.Law.NoJournal versionDirs v) :
    Settled E (some ((ObjectDir.versionLens id).set v d)) (H.setVersion id st) := by
  have hj : d.files.journal = none := h.noJournal d rfl
  refine ⟨?_, (h.stands_setVersion hv).shows, ?_⟩
  · rintro _ ⟨⟩
    exact hj
  · rw [view_setVersion hj]
    intro j w hw
    simp only at hw
    split at hw
    · obtain ⟨u, hu, rfl⟩ := Option.map_eq_some_iff.1 hw
      exact hvj u hu
    · exact h.calm j w hw

/-- The directory of a version, in the directory of an object that exists. -/
theorem versionLens_set {d : ObjectDir} (hd : dir.get s = some d) (id : String)
    (v : Option Directory) :
    (versionLens dir id).set v s = dir.set (some ((ObjectDir.versionLens id).set v d)) s := by
  show dir.set (some ((ObjectDir.versionLens id).set v ((dir.get s).getD default))) s = _
  rw [hd]
  rfl

theorem versionLens_get {d : ObjectDir} (hd : dir.get s = some d) (id : String) :
    (versionLens dir id).get s = d.versionAt id := by
  show (ObjectDir.versionLens id).get ((dir.get s).getD default) = _
  rw [hd]
  rfl

/-- What a settled directory holds of a version. -/
theorem Settled.versionStands {d : ObjectDir} (h : Settled E (some d) H) (id : String) :
    VersionStands (d.versionAt id) (H.versions id) := by
  have hvers := h.shows.versions id
  rw [view_of_journal_none (h.noJournal d rfl)] at hvers
  exact hvers.of_bare

/-- A directory for versions that has just been made changes nothing. -/
theorem Settled.stands_madeVersions {d : ObjectDir} (h : Settled E (some d) H)
    (hv : d.versions = none) : Stands E (some { d with versions := some ∅ }) H := by
  have hj : d.files.journal = none := h.noJournal d rfl
  have hempty : ({ d with versions := some ∅ } : ObjectDir).versionAt = d.versionAt := by
    funext j
    simp [ObjectDir.versionAt, hv]
  refine ⟨?_, ?_⟩
  · rintro _ ⟨⟩
    exact DirKind.Law.sound_of_none hj
  · have hsame := view_of_journal_none (E := E) (d := { d with versions := some ∅ }) hj
    rw [hempty, ← view_of_journal_none (E := E) hj] at hsame
    rw [hsame]
    exact h.shows

/-- What a snapshot publishes: the bytes of the current version. -/
theorem stagedPair_snapshot {d : ObjectDir} {o : Object} {b : Bytes} (hd : dir.get s = some d)
    (hblob : d.files.pair.blob = some b) :
    stagedPair s (some (o, Payload.stored fun s ↦ (dir.get s).bind (·.files.pair.blob))) =
      some { blob := some b, metadata := some o.serialized } := by
  simp [stagedPair, Payload.bytes, hd, hblob]

/-- **A snapshot adds the current version to the versions.** -/
theorem wp_writeVersionSnapshot {Q : Except Error Unit → σ → Prop} {parents : Op σ Unit}
    {d : ObjectDir} {id : String} {b : Bytes} {o o' : Object}
    (hd : dir.get s = some d) (hs : dir.set (some d) s = s) (h : Settled E (some d) H)
    (hcur : H.current = some (b, o')) (hsize : b.length = o.size) (hpar : parents.Quiet)
    (hold : ∀ x, Stands E x H → I (dir.set x s))
    (hnew : ∀ x, Stands E x (H.setVersion id
      (some (b, (o.withVersionId (some id)).serialized))) → I (dir.set x s))
    (hok : ∀ x, Settled E x (H.setVersion id
      (some (b, (o.withVersionId (some id)).serialized))) → x.isSome →
      Q (.ok ()) (dir.set x s)) :
    wp I (writeVersionSnapshot E dir parents id o) Q s := by
  have hj : d.files.journal = none := h.noJournal d rfl
  have hview := view_of_journal_none (E := E) hj
  have hvj : DirKind.Law.NoJournal versionDirs (d.versionAt id) := by
    intro v hv
    refine h.calm id v.bare ?_
    rw [hview]
    exact congrArg (Option.map Directory.bare) hv
  have hver := h.versionStands id
  have hblob : d.files.pair.blob = some b := by
    have hc := h.shows.current
    rw [hview, hcur] at hc
    exact congrArg Slot.blob hc
  have hget := versionLens_get hd id
  have hstaged := stagedPair_snapshot (o := o.withVersionId (some id)) hd hblob
  have hstands : ∀ {v st}, versionDirsLaw.Sound hideAll v →
      (versionDirsLaw.resolve hideAll v).current = .ofStored st → VersionStands (some v) st := by
    intro v st hsound hres
    refine ⟨?_, hres⟩
    rintro _ ⟨⟩
    exact hsound
  refine wp_of_record [] ?_
  unfold writeVersionSnapshot publishPair
  refine wp_record_publishRecord (L := versionDirsLaw) hideAll ?_ ?_ ?_ rfl ?_ ?_ ?_ ⟨rfl, rfl⟩
    (by rintro _ ⟨⟩) ?_ ?_ ?_ ?_
  · intro v hv
    rw [versionLens_set hd, ObjectDir.versionLens_set_self (hget ▸ hv), hs]
  · rw [hget]
    exact hver.sound
  · rw [hget]
    exact fun _ _ _ ↦ hvj
  · exact quiet_createDirectoryDurable (quiet_createDirectoryDurable hpar)
  · intro hnone
    rw [hget] at hnone
    have hIs : I s := hs ▸ hold _ h.stands
    have hversions : ((dir.comp .existing).comp ObjectDir.versionsLens).get s = d.versions := by
      show ((dir.get s).getD default).versions = _
      rw [hd]
      rfl
    refine wp_createDirectoryDurable hIs (fun _ ↦ ⟨rfl, fun _ ↦ rfl⟩) fun hv ↦ ?_
    rw [hversions] at hv
    have hmade : ((dir.comp .existing).comp ObjectDir.versionsLens).set (some default) s =
        dir.set (some { d with versions := some ∅ }) s := by
      show dir.set (some { (dir.get s).getD default with versions := some default }) s = _
      rw [hd]
      rfl
    refine wp_createDirectoryDurable hIs (fun _ ↦ ?_) fun h ↦ absurd (hd.symm.trans h) (by simp)
    rw [hmade]
    refine ⟨hold _ (h.stands_madeVersions hv), rfl, fun v ↦ ?_⟩
    rw [versionLens_set (Lens.get_set ..), versionLens_set hd, Lens.set_set]
    show dir.set (some { d with versions := some ((∅ : Table String Directory).set id _) }) s =
      dir.set (some { d with versions := some ((d.versions.getD ∅).set id _) }) s
    rw [hv]
    rfl
  · rintro _ _ ⟨⟩ t v - -
    show (dir.get (dir.set (some ((ObjectDir.versionLens id).set (some v)
      ((dir.get t).getD default))) t)).bind _ = (dir.get t).bind _
    rw [Lens.get_set]
    cases dir.get t <;> rfl
  · rintro v s' hs' hsound hres
    obtain rfl : s' = s := hs'.elim (fun h ↦ h) fun h ↦ h
    rw [versionLens_set hd]
    refine hold _ ?_
    have hver' : VersionStands (some v) (H.versions id) := by
      refine hstands hsound ?_
      rw [hres, hget]
      exact hver.current
    have hv : Stands E _ (H.setVersion id _) := h.stands_setVersion hver'
    rwa [History.setVersion_self rfl] at hv
  · rintro p hp - v hsound hres
    show I ((versionLens dir id).set (some v) s)
    rw [versionLens_set hd]
    refine hnew _ (h.stands_setVersion (hstands hsound ?_))
    obtain rfl := Option.some.inj (hstaged.symm.trans hp)
    rw [hres]
    rfl
  · rintro p hp - v hvj' hpub
    show Q (.ok ()) ((versionLens dir id).set (some v) s)
    rw [versionLens_set hd]
    refine hok _ (h.setVersion (versionStands_of_noJournal hvj' ?_) ?_) rfl
    · obtain rfl := Option.some.inj (hstaged.symm.trans hp)
      exact congrArg Public.current hpub
    · rintro _ ⟨⟩
      exact hvj'
  · intro e hbad
    have hstored : (Pair.mk (some b) (some (o.withVersionId (some id)).serialized) ∅).slot =
        .ofStored (some (b, (o.withVersionId (some id)).serialized)) := rfl
    refine absurd ((validate_iff_valid hstored).2
      ⟨⟨fun _ ↦ ⟨rfl, rfl⟩, ?_, ?_⟩, fun _ ↦ ⟨_, _, rfl, hsize⟩⟩) (hbad
      { blob := some b, metadata := some (o.withVersionId (some id)).serialized } ?_)
    · rintro _ hmem
      simp at hmem
    · rintro _ ⟨⟩
    · exact hstaged

/-! ### Removing a directory that holds nothing -/

/-- A directory without a body, metadata or journal. -/
def Directory.Vacant (d : Directory) : Prop := d.journal = none ∧ d.pair.slot = {}

/-- The directory of an object that holds nothing. -/
def ObjectDir.Vacant (d : ObjectDir) : Prop :=
  d.files.Vacant ∧ ∀ id v, d.versionAt id = some v → v.Vacant

theorem removalClosed_vacant : RemovalClosed Directory.Vacant := by
  rintro d e ⟨hj, hp⟩
  refine ⟨?_, fun id p ↦ ⟨hj, hp⟩⟩
  obtain ⟨hb, hm⟩ := Slot.mk.injEq .. ▸ hp
  rcases e with (_ | _ | _) | name | id
  · exact ⟨hj, Slot.ext rfl hm⟩
  · exact ⟨hj, Slot.ext hb rfl⟩
  · exact ⟨rfl, hp⟩
  · exact ⟨hj, hp⟩
  · exact ⟨hj, hp⟩

theorem settled_empty_iff {d : ObjectDir} : Settled E (some d) {} ↔ d.Vacant := by
  constructor
  · intro h
    have hj : d.files.journal = none := h.noJournal d rfl
    have hview := view_of_journal_none (E := E) hj
    refine ⟨⟨hj, ?_⟩, fun id v hv ↦ ?_⟩
    · have hc := h.shows.current
      rw [hview] at hc
      exact hc
    · have hbare : ((objectDirsLaw E).view hideAll (some d)).versions id = some v.bare := by
        rw [hview]
        exact congrArg (Option.map Directory.bare) hv
      have hvj : v.bare.journal = none := h.calm id v.bare hbare
      have hc := (h.shows.versions id).current
      rw [hbare, DirKind.Law.view, DirKind.Law.resolve_of_none hvj] at hc
      exact ⟨hvj, hc⟩
  · rintro ⟨⟨hj, hp⟩, hv⟩
    have hview := view_of_journal_none (E := E) hj
    refine ⟨?_, ⟨?_, fun id ↦ ?_⟩, fun id w hw ↦ ?_⟩
    · rintro _ ⟨⟩
      exact hj
    · rw [hview]
      exact hp
    · rw [hview]
      cases hvd : d.versionAt id with
      | none =>
        simp only [hvd]
        exact versionStands_none
      | some v =>
        simp only [hvd]
        exact versionStands_of_noJournal (hv id v hvd).1 (hv id v hvd).2
    · rw [hview] at hw
      obtain ⟨v, hvd, rfl⟩ := Option.map_eq_some_iff.1 hw
      exact (hv id v hvd).1

theorem wp_removeVersions {I : ObjectDir → Prop} {Q : Except Error Unit → ObjectDir → Prop}
    {message : String} {d : ObjectDir} (hd : d.Vacant) (hI : ∀ d', d'.Vacant → d'.files = d.files → I d')
    (hQ : ∀ d', d'.Vacant → d'.files = d.files → Q (.ok ()) d') :
    wp I (removeVersions message) Q d := by
  have hset : ∀ d' : ObjectDir, d'.Vacant → ∀ id v, (∀ w, v = some w → Directory.Vacant w) →
      ((ObjectDir.versionLens id).set v d').Vacant := by
    intro d' hd' id v hv
    refine ⟨hd'.1, fun j w hw ↦ ?_⟩
    rw [ObjectDir.versionAt_set] at hw
    split at hw
    · exact hv w hw
    · exact hd'.2 j w hw
  simp only [removeVersions, bind_eq, wp_bind, wp_read]
  have hId := hI d hd rfl
  refine ⟨hId, wp_shuffled hId fun ids hids ↦ ?_⟩
  have hnodup : ids.Nodup := hids.nodup_iff.2 (Table.nodup_keys _)
  -- What is still on the list is still there.
  refine wp_forEach (J := fun xs d' ↦ xs.Nodup ∧ d'.Vacant ∧ d'.files = d.files ∧
    ∀ id ∈ xs, (d'.versionAt id).isSome) ?_ ?_ ids ?_
  · rintro id xs d' ⟨hnd, hd', hf, hmem⟩
    obtain ⟨v, hv⟩ := Option.isSome_iff_exists.1 (hmem id (List.mem_cons_self ..))
    have hgone : ((ObjectDir.versionLens id).set none d').Vacant :=
      hset d' hd' id none (by rintro _ ⟨⟩)
    refine wp_removeVersionDir removalClosed_vacant hv (hd'.2 id v hv) (fun v' hv' ↦ ?_) ?_ ?_
    · exact hI _ (hset d' hd' id _ (by rintro _ ⟨⟩; exact hv')) hf
    · exact hI _ hgone hf
    · refine ⟨hnd.of_cons, hgone, hf, fun j hj ↦ ?_⟩
      have hne : j ≠ id := by
        rintro rfl
        exact (List.nodup_cons.1 hnd).1 hj
      rw [ObjectDir.versionAt_set, if_neg hne]
      exact hmem j (List.mem_cons_of_mem _ hj)
  · rintro d' ⟨-, hd', hf, -⟩
    have hnone : ({ d' with versions := none } : ObjectDir).Vacant :=
      ⟨hd'.1, fun id v hv ↦ by simp [ObjectDir.versionAt] at hv⟩
    exact ⟨hI d' hd' hf, wp_sys_some rfl (hI d' hd' hf) (hI _ hnone hf) (hQ _ hnone hf)⟩
  · refine ⟨hnodup, hd, rfl, fun id hid ↦ ?_⟩
    rw [hids.mem_iff, Table.mem_keys] at hid
    exact hid

theorem wp_removeObjectDir {Q : Except Error Unit → σ → Prop} {message : String} {d : ObjectDir}
    (hd : dir.get s = some d) (hs : dir.set (some d) s = s) (h : d.Vacant)
    (hI : ∀ d', ObjectDir.Vacant d' → I (dir.set (some d') s)) (hnone : I (dir.set none s))
    (hQ : Q (.ok ()) (dir.set none s)) : wp I (removeObjectDir message dir) Q s := by
  have hIs : I s := hs ▸ hI d h
  simp only [removeObjectDir, bind_eq, wp_bind, wp_sysRead, hd]
  refine ⟨hIs, wp_shuffled hIs fun entries hperm ↦ wp_zoom_existing hd hs ?_⟩
  have hnodup : entries.Nodup := by
    refine hperm.nodup_iff.2 (List.Nodup.append (d.files.nodup_entries.map fun _ _ ↦ Option.some.inj)
      ?_ ?_)
    · split <;> simp
    · split <;> simp [List.disjoint_left]
  refine wp_forEach (J := fun xs d' ↦ xs.Nodup ∧ d'.Vacant ∧
    ∀ e, some e ∈ xs → d'.files.Has e) ?_ ?_ entries ?_
  · rintro x xs d' ⟨hnd, hd', hmem⟩
    have hrest : ∀ e, some e ∈ xs → d'.files.Has e := fun e he ↦ hmem e (List.mem_cons_of_mem _ he)
    cases x with
    | none =>
      refine wp_removeVersions hd' (fun d'' h'' _ ↦ hI d'' h'') fun d'' h'' hf ↦ ?_
      exact ⟨hnd.of_cons, h'', by rw [hf]; exact hrest⟩
    | some e =>
      obtain ⟨hrem, hstage⟩ := removalClosed_vacant d'.files e hd'.1
      refine wp_zoom rfl (wp_removeEntry (hmem e (List.mem_cons_self ..)) (hI _ hd')
        (hI _ ⟨hrem, hd'.2⟩) (fun id p _ ↦ hI _ ⟨hstage id p, hd'.2⟩) ?_)
      refine ⟨hnd.of_cons, ⟨hrem, hd'.2⟩, fun e' he' ↦ Directory.has_remove.2 ⟨hrest e' he', ?_⟩⟩
      rintro rfl
      exact (List.nodup_cons.1 hnd).1 he'
  · rintro d' ⟨-, hd', -⟩
    refine ⟨hI d' hd', ?_⟩
    refine wp_sys_some rfl (hI d' hd') ?_ ?_
    · rw [Lens.set_set]; exact hnone
    · rw [Lens.set_set]; exact hQ
  · refine ⟨hnodup, h, fun e he ↦ Directory.mem_entries.1 ?_⟩
    rw [hperm.mem_iff] at he
    rcases List.mem_append.1 he with he | he
    · simpa using he
    · split at he <;> simp at he

end Rules

end Sqrzl
