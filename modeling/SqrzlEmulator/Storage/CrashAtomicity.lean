import SqrzlEmulator.Storage.Publish

/-!
# Publications are crash-atomic

A call of `publish_pair` or `change_history` may be killed in front of any of its file-system steps,
and so may the recovery that follows it, any number of times. **The first recovery that runs to its
end finds the old generation or the new one**, and the event of the journal's rename tells which.

The world of a call is the directory of the object and everything else. A payload is in memory, or
it is spooled somewhere else, or it is a stored file; a stored file may be one of the public files
of the directory itself, as when a historical version is promoted.
-/

namespace Sqrzl

open Prog

/-! ### Calls -/

/-- What readers see of the directory of an object, if it exists. -/
@[ext] structure Generation where
  current : Slot
  versions : String → Option Slot

/-- The current object and the versions. -/
def published (x : Option ObjectDir) : Generation where
  current := (x.map (·.files.pair.slot)).getD {}
  versions id := (x.bind (·.versionAt id)).map (·.pair.slot)

/-- The object directory, as a part of a world. -/
@[simps] def objectDir (ρ : Type) : Lens (Option ObjectDir × ρ) (Option ObjectDir) where
  get s := s.1
  set x s := (x, s.2)
  get_set _ _ := rfl
  set_set _ _ _ := rfl

/-- Where the bytes of a publication come from. -/
inductive Source (ρ : Type) where
  | inMemory
  | spooled (take : ρ → Option (Bytes × ρ))
  | stored (source : Generation → ρ → Option Bytes)

/-- A source, as a payload of the world. -/
def Source.payload {ρ : Type} : Source ρ → Payload (Option ObjectDir × ρ)
  | .inMemory => .inMemory
  | .spooled take => .spooled fun s ↦ (take s.2).map fun y ↦ (y.1, (s.1, y.2))
  | .stored source => .stored fun s ↦ source (published s.1) s.2

/-- The calls that change the generation of an object. -/
inductive Call (ρ : Type) where
  | publishPair (o : Object) (source : Source ρ)
  | changeHistory (promoted : Option (Object × (Generation → ρ → Option Bytes)))
      (removeVersions : List String) (marker : Option Object) (clearCurrent : Bool)

namespace Call

variable {ρ : Type} {E : Env}

/-- The program of a call. -/
def run (E : Env) : Call ρ → Op (Option ObjectDir × ρ) Unit
  | publishPair o source =>
    Sqrzl.publishPair E (objectDirs E) (objectDir ρ) (.ret ()) o source.payload
  | changeHistory promoted removeVersions marker clearCurrent =>
    Sqrzl.changeHistory E (objectDir ρ)
      (promoted.map fun x ↦ (x.1, fun s ↦ x.2 (published s.1) s.2)) removeVersions marker
      clearCurrent

/-- The delete marker that a call writes. -/
def markerId : Call ρ → Option String
  | publishPair _ _ => none
  | changeHistory _ _ marker _ => marker.bind (·.versionId)

/-- The versions that a call retires. -/
def retires : Call ρ → List String
  | publishPair o _ => if o.versionId = some "null" then ["null"] else []
  | changeHistory _ removeVersions _ _ => removeVersions

/-- The recovery of the object directory. -/
def recover (E : Env) (ρ : Type) : Op (Option ObjectDir × ρ) Unit :=
  recoverAt E (objectDirs E) (objectDir ρ)

theorem run_eq (c : Call ρ) : ∃ change staged,
    c.run E = publishRecord E (objectDirs E) (objectDir ρ) (.ret ()) change staged ∧
    change.markerId = c.markerId ∧ change.removeVersions = c.retires ∧
    ∀ o payload, staged = some (o, payload) → ∃ source : Source ρ, payload = source.payload := by
  cases c with
  | publishPair o source =>
    refine ⟨⟨true, false,
      if o.versionId = some "null" && !(objectDirs E).inVersions then ["null"] else [], none⟩,
      some (o, source.payload), rfl, rfl, by simp [retires], ?_⟩
    rintro _ _ ⟨⟩
    exact ⟨source, rfl⟩
  | changeHistory promoted removeVersions marker clearCurrent =>
    refine ⟨_, _, rfl, rfl, rfl, ?_⟩
    cases promoted with
    | none => simp
    | some x =>
      rintro _ _ ⟨⟩
      exact ⟨.stored x.2, rfl⟩

end Call

/-! ### From what a directory stands for to what is seen -/

/-- The directory of a version, if the object and the version exist. -/
def versionDir (x : Option ObjectDir) (id : String) : Option Directory := x.bind (·.versionAt id)

/-- An object directory that has no journal, if it exists. -/
def NoJournal (x : Option ObjectDir) : Prop := ∀ d, x = some d → d.files.journal = none

section Seen

variable {ρ : Type} {E : Env} {hide : String → Bool} {x y : Option ObjectDir}

theorem view_of_noJournal (h : NoJournal x) : (objectDirsLaw E).view hide x =
    { current := (published x).current, versions := fun id ↦ seen hide id (versionDir x id) } := by
  cases x with
  | none =>
    refine Public.ext rfl (funext fun id ↦ ?_)
    simp [DirKind.Law.view, versionDir, seen]
  | some d => exact DirKind.Law.resolve_of_none (h d rfl)

theorem published_eq_of_seen (hide : String → Bool)
    (hc : (published x).current = (published y).current)
    (hv : ∀ id, seen hide id (versionDir x id) = seen hide id (versionDir y id)) :
    published x = published y := by
  refine Generation.ext hc (funext fun id ↦ ?_)
  have hslot : ∀ z : Option Directory, (seen hide id z).map (·.pair.slot) = z.map (·.pair.slot) := by
    rintro (_ | v) <;> simp only [seen] <;> split <;> rfl
  have h := congrArg (Option.map fun v : Directory ↦ v.pair.slot) (hv id)
  rwa [hslot, hslot] at h

theorem published_eq_of_view (hx : NoJournal x) (hy : NoJournal y)
    (h : (objectDirsLaw E).view hide x = (objectDirsLaw E).view hide y) :
    published x = published y := by
  rw [view_of_noJournal hx, view_of_noJournal hy] at h
  exact published_eq_of_seen hide (congrArg Public.current h) fun id ↦
    congrArg (fun P : Public ↦ P.versions id) h

theorem versionDir_eq_of_view (hx : NoJournal x) (hy : NoJournal y)
    (h : (objectDirsLaw E).view hide x = (objectDirsLaw E).view hide y) {id : String}
    (hid : hide id = false) : versionDir x id = versionDir y id := by
  rw [view_of_noJournal hx, view_of_noJournal hy] at h
  have hv := congrArg (fun P : Public ↦ P.versions id) h
  simpa [seen, hid] using hv

/-- Sources lie outside of the directory, or are public files of it. -/
theorem Source.frames (source : Source ρ) :
    source.payload.Frames (objectDirsLaw E) hide (objectDir ρ) := by
  cases source with
  | inMemory => trivial
  | spooled take =>
    rintro x ⟨y, s⟩
    simp only [objectDir_set, Option.map_map]
    rfl
  | stored source =>
    rintro s d hx hv
    rw [view_of_noJournal hx] at hv
    have hpub : published (some d) = published s.1 :=
      published_eq_of_seen hide (congrArg Public.current hv).symm fun id ↦
        (congrArg (fun P : Public ↦ P.versions id) hv).symm
    simp only [objectDir_set, hpub]

end Seen

/-! ### Every run of a call, and of the recoveries after it -/

section Runs

variable {ρ : Type} {E : Env} {hide : String → Bool}

/-- What a change makes of the directory, when its payload can be read and its record passes the
validation. -/
def Decided (E : Env) (hide : String → Bool) (change : Change)
    (staged : Option (Object × Payload (Option ObjectDir × ρ))) (s : Option ObjectDir × ρ)
    (x : Option ObjectDir) : Prop :=
  ∃ p, stagedPair s staged = some p ∧ change.validate (some p) = .ok () ∧
    (objectDirsLaw E).view hide x =
      change.apply hide p.slot ((objectDirsLaw E).view hide s.1)

/-- A call, on either side of its decision. -/
theorem wp_record_call {change : Change}
    {staged : Option (Object × Payload (Option ObjectDir × ρ))} {s : Option ObjectDir × ρ}
    (hj : NoJournal s.1) (hm : ∀ id, change.markerId = some id → hide id = true)
    (hsrc : ∀ o payload, staged = some (o, payload) → ∃ src : Source ρ, payload = src.payload) :
    wp (fun y ↦ (objectDirsLaw E).SoundAt hide y.2.1 ∧
        (Event.journalCommitted ∉ y.1 →
          (objectDirsLaw E).view hide y.2.1 = (objectDirsLaw E).view hide s.1) ∧
        (Event.journalCommitted ∈ y.1 → Decided E hide change staged s y.2.1))
      (record (publishRecord E (objectDirs E) (objectDir ρ) (.ret ()) change staged))
      (fun r y ↦ NoJournal y.2.1 ∧ (r = .ok () ↔ Event.journalCommitted ∈ y.1) ∧
        ((∃ x, Decided E hide change staged s x) → r = .ok ())) ([], s) := by
  have hcommitted : Event.journalCommitted ∈ ([] ++ [.journalCommitted] : List Event) := by simp
  refine wp_record_publishRecord (L := objectDirsLaw E) hide
    (fun _ h ↦ Prod.ext h.symm rfl)
    (fun d hd ↦ DirKind.Law.sound_of_none (hj d hd)) (fun _ _ _ ↦ hj) rfl trivial
    (fun hs ↦ ⟨⟨?_, fun _ ↦ rfl, by simp⟩, rfl, fun _ ↦ rfl⟩) ?_ trivial hm ?_ ?_ ?_ ?_
  · exact fun d hd ↦ absurd (hs.symm.trans hd) (by simp)
  · intro o payload h
    obtain ⟨src, rfl⟩ := hsrc o payload h
    exact src.frames
  · intro d s' _ h1 h2
    exact ⟨by rintro _ ⟨⟩; exact h1, fun _ ↦ h2, by simp⟩
  · intro p hp hv d h1 h2
    exact ⟨by rintro _ ⟨⟩; exact h1, fun h ↦ absurd hcommitted h, fun _ ↦ ⟨p, hp, hv, h2⟩⟩
  · intro p hp hv d h1 h2
    exact ⟨by rintro _ ⟨⟩; exact h1, by simp, fun _ ↦ rfl⟩
  · intro e hbad d s' _ h1 h2
    refine ⟨by rintro _ ⟨⟩; exact h1, by simp, ?_⟩
    rintro ⟨x, p, hp, hv, -⟩
    exact absurd hv (hbad p hp)

/-- Stopped recoveries change nothing of what the directory stands for. -/
theorem view_of_recoveries {t u : Option ObjectDir × ρ}
    (hu : Relation.ReflTransGen (Call.recover E ρ).Stops t u)
    (ht : (objectDirsLaw E).SoundAt hide t.1) :
    (objectDirsLaw E).SoundAt hide u.1 ∧
      (objectDirsLaw E).view hide u.1 = (objectDirsLaw E).view hide t.1 := by
  induction hu with
  | refl => exact ⟨ht, rfl⟩
  | @tail v w _ hstop ih =>
    have hwp : wp (fun w ↦ (objectDirsLaw E).SoundAt hide w.1 ∧
        (objectDirsLaw E).view hide w.1 = (objectDirsLaw E).view hide t.1)
        (Call.recover E ρ) (fun _ _ ↦ True) v := by
      refine DirKind.Law.wp_recoverAt (fun _ h ↦ Prod.ext h.symm rfl) ih.1 (fun _ ↦ ⟨ih, trivial⟩)
        (fun d _ h1 h2 ↦ ⟨?_, h2.trans ih.2⟩) fun _ _ _ _ _ ↦ trivial
      rintro _ ⟨⟩
      exact h1
    exact hstop.of_wp hwp

/-- A recovery that runs to its end. -/
theorem recover_completes {u : Option ObjectDir × ρ} (hu : (objectDirsLaw E).SoundAt hide u.1) :
    (Call.recover E ρ).Completes u fun _ v ↦ NoJournal v.1 ∧
      (∀ d, v.1 = some d → d.files.Clean) ∧
      (objectDirsLaw E).view hide v.1 = (objectDirsLaw E).view hide u.1 :=
  completes_of_wp (I := fun _ ↦ True) <| DirKind.Law.wp_recoverAt (fun _ h ↦ Prod.ext h.symm rfl) hu
    (fun h ↦ ⟨trivial, fun d hd ↦ absurd (h.symm.trans hd) (by simp),
      fun d hd ↦ absurd (h.symm.trans hd) (by simp), rfl⟩) (fun _ _ _ _ ↦ trivial)
    fun d _ h1 h2 h3 ↦ ⟨by rintro _ ⟨⟩; exact h1, by rintro _ ⟨⟩; exact h2,
      (DirKind.Law.resolve_of_none h1).trans h3⟩

end Runs

/-! ### Crash atomicity -/

/-- The directory of a marker has no journal of its own, if its identity is new or was retired by
the same record. -/
theorem journal_of_decided {ρ : Type} {E : Env} {hide : String → Bool} {change : Change}
    {staged : Option (Object × Payload (Option ObjectDir × ρ))} {s : Option ObjectDir × ρ}
    {x : Option ObjectDir} {id : String} {v : Directory} (hs : NoJournal s.1) (hx : NoJournal x)
    (h : Decided E hide change staged s x) (hid : change.markerId = some id)
    (hhide : hide id = true) (hnew : id ∈ change.removeVersions ∨ versionDir s.1 id = none)
    (hv : versionDir x id = some v) : v.journal = none := by
  obtain ⟨p, -, -, hview⟩ := h
  rw [view_of_noJournal hs, view_of_noJournal hx] at hview
  have hver := congrArg (fun P : Public ↦ (P.versions id).map Directory.journal) hview
  obtain ⟨marker, hm, hmid⟩ := Option.bind_eq_some_iff.1 hid
  have hkept : (if id ∈ change.removeVersions then none else seen hide id (versionDir s.1 id)) =
      none := by
    rcases hnew with hr | hn
    · simp [hr]
    · simp [hn, seen]
  simp only [Change.apply, Change.applyVersion_marker hm hmid, hkept] at hver
  simpa [seen, hhide, hv, Directory.bare] using hver

/-- **A stopped publication is recovered to the old generation or to the new one.** Whatever step
the call was stopped at, and however often the recovery was stopped and begun again, the recovery
that runs to its end leaves the generation from before the call when the journal had not been put in
place, and what the completed call gives when it had. No stage and no temporary is left in the
directory of the object, and none has been added to the directory of a version, with one exception:
the directory of a delete marker whose writing was interrupted. There they stay until that directory
is recovered, as it is at startup. -/
theorem publication_crash_atomic (E : Env) {ρ : Type} (c : Call ρ) {s t u : Option ObjectDir × ρ}
    {evs : List Event} (hj : NoJournal s.1) (hx : (c.run E).Exec s evs t none)
    (hu : Relation.ReflTransGen (Call.recover E ρ).Stops t u) :
    (Call.recover E ρ).Completes u fun _ v ↦
      (∀ d, v.1 = some d → d.files.Clean) ∧
      (Event.journalCommitted ∉ evs → published v.1 = published s.1 ∧
        ∀ id, c.markerId ≠ some id → versionDir v.1 id = versionDir s.1 id) ∧
      (Event.journalCommitted ∈ evs →
        ((c.run E).Completes s fun _ w ↦ published v.1 = published w.1 ∧
          ∀ id, c.markerId ≠ some id → versionDir v.1 id = versionDir w.1 id) ∧
        ∀ id vd, c.markerId = some id → versionDir v.1 id = some vd →
          id ∈ c.retires ∨ versionDir s.1 id = none →
          (recoverPublication E versionDirs).Completes vd fun _ vd' ↦
            vd'.Clean ∧ vd'.pair.slot = vd.pair.slot) := by
  obtain ⟨change, staged, hrun, hmarker, hretires, hsrc⟩ := c.run_eq (E := E)
  let hide : String → Bool := fun id ↦ decide (c.markerId = some id)
  have hhide : ∀ id, change.markerId = some id → hide id = true := by simp [hide, hmarker]
  have hshown : ∀ id, c.markerId ≠ some id → hide id = false := by simp [hide]
  have hwp := wp_record_call (E := E) hj hhide hsrc
  rw [← hrun] at hwp
  obtain ⟨⟨hsound, hold, hnew⟩, -⟩ := (hx.record []).of_wp hwp
  obtain ⟨hsound', hview⟩ := view_of_recoveries hu hsound
  obtain ⟨hex, hall⟩ := recover_completes hsound'
  refine ⟨hex, fun r v hv ↦ ?_⟩
  obtain ⟨a, rfl, hvj, hclean, hvv⟩ := hall r v hv
  have hvt := hvv.trans hview
  refine ⟨a, rfl, hclean, fun hnot ↦ ?_, fun hin ↦ ⟨⟨?_, ?_⟩, ?_⟩⟩
  · have hvs := hvt.trans (hold (by simpa using hnot))
    exact ⟨published_eq_of_view hvj hj hvs, fun id hid ↦
      versionDir_eq_of_view hvj hj hvs (hshown id hid)⟩
  · exact exists_returns_of_wp (I := fun _ ↦ True) (Q := fun _ _ ↦ True)
      (wp_of_record [] (wp_mono hwp (fun _ _ ↦ trivial) fun _ _ _ _ ↦ trivial))
  · -- The completed call ends in what the record decides, and so does the recovery.
    obtain ⟨p, hp, hval, hpub⟩ := hnew (by simpa using hin)
    rintro r w ⟨evs', hw⟩
    obtain ⟨⟨-, -, hdec⟩, hq⟩ := (hw.record []).of_wp hwp
    obtain ⟨hwj, hiff, hok⟩ := hq r rfl
    have hr : r = .ok () := hok ⟨t.1, p, hp, hval, hpub⟩
    obtain ⟨p', hp', -, hwv⟩ := hdec (hiff.1 hr)
    obtain rfl : p = p' := Option.some.inj (hp.symm.trans hp')
    have hvw := hvt.trans (hpub.trans hwv.symm)
    exact ⟨(), hr, published_eq_of_view hvj hwj hvw, fun id hid ↦
      versionDir_eq_of_view hvj hwj hvw (hshown id hid)⟩
  · intro id vd hid hvd hfresh
    obtain ⟨p, hp, hval, hpub⟩ := hnew (by simpa using hin)
    have hvdj : vd.journal = none := journal_of_decided (E := E) hj hvj
      ⟨p, hp, hval, hvt.trans hpub⟩ (hmarker.trans hid) (hhide id (hmarker.trans hid))
      (hretires ▸ hfresh) hvd
    refine completes_of_wp (I := fun _ ↦ True) (DirKind.Law.wp_recoverPublication
      (L := versionDirsLaw) hide (DirKind.Law.sound_of_none hvdj) (fun _ _ _ ↦ trivial) ?_)
    intro vd' _ hclean' hpub'
    rw [DirKind.Law.resolve_of_none hvdj] at hpub'
    exact ⟨hclean', congrArg Public.current hpub'⟩

/-- A deletion that leaves a delete marker. -/
def exampleDeletion : Call Unit :=
  .changeHistory none [] (some { Object.newWithMetadataAndEtag 0 ['k'] [] "" ∅ "" with
    versionId := some "m" }) true

/-- The deletion, stopped right after it created the temporary for the body of its marker. -/
def stoppedDeletion : Option ObjectDir × Unit :=
  (exampleDeletion.run .simple).crashAfter [] 13 (none, ())

theorem stoppedDeletion_recovered : ∃ v, (Call.recover .simple Unit).Returns stoppedDeletion (.ok ()) v ∧
    ∀ d, v.1 = some d → d.files.Clean := by
  obtain ⟨evs, hx⟩ := (exampleDeletion.run .simple).stops_crashAfter [] 13 (none, ())
  obtain ⟨⟨r, v, hv⟩, hall⟩ :=
    publication_crash_atomic .simple exampleDeletion (fun _ h ↦ by cases h) hx .refl
  obtain ⟨⟨⟩, rfl, hclean, -⟩ := hall r v hv
  exact ⟨v, hv, hclean⟩

/-- Recovering the object does not look into the directory of the marker. -/
theorem marker_temporary_survives : ¬ ∀ (c : Call Unit) (s t v : Option ObjectDir × Unit),
    s.1 = none → (c.run .simple).Stops s t → (Call.recover .simple Unit).Returns t (.ok ()) v →
    ∀ d, v.1 = some d → d.files.Clean ∧ ∀ id vd, d.versionAt id = some vd → vd.Clean := by
  intro h
  have hstop : (exampleDeletion.run .simple).Stops (none, ()) stoppedDeletion :=
    (exampleDeletion.run .simple).stops_crashAfter [] 13 (none, ())
  have hrec : (Call.recover .simple Unit).Returns stoppedDeletion (.ok ())
      ((Call.recover .simple Unit).run [5, 6, 7] stoppedDeletion).2 := returns_run (by rfl)
  have hclean := h exampleDeletion (none, ()) _ _ rfl hstop hrec _ rfl
  have htemps := congrArg Std.ExtTreeMap.keys (hclean.2 "m" _ rfl).2
  revert htemps
  decide

end Sqrzl
