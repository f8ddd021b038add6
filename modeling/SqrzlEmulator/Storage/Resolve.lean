import SqrzlEmulator.Storage.PublicationSteps

/-!
# What a directory stands for

The journal of a directory is a decision that may not have been carried out yet. `resolve` is what
the directory **stands for**: its public files when there is no journal, and otherwise the files
that carrying out the journal would give. It is the abstraction function of the publication
protocol:

* recovery, wherever it is stopped, never changes `resolve`, and a completed recovery leaves a
  directory whose public files are what it stood for (`wp_recoverPublication`);
* of all the steps of a publication, **only the rename of the journal** changes `resolve`
  (`wp_record_commitPublication`).

Everything else, the links, the unlinks and the removal of directories entry by entry, stutters.

## Hidden temporaries

The interrupted write of a delete marker leaves a temporary in the directory of that version, and
recovering the object does not look there. `resolve` therefore takes a predicate `hide`: of the
versions that it selects the temporaries are dropped, and of all others it sees everything. A record
may only write markers that are hidden.
-/

namespace Sqrzl

open Prog

variable {δ : Type} [Inhabited δ]

/-- What the proofs use of a kind of directory. -/
structure DirKind.Law (K : DirKind δ) where
  /-- The directories of its versions. -/
  versionAt : δ → String → Option Directory
  set_get : ∀ d, K.files.set (K.files.get d) d = d
  versionAt_set : ∀ x d, versionAt (K.files.set x d) = versionAt d
  files_default : K.files.get default = {}
  versionAt_default : versionAt default = fun _ ↦ none
  /-- The records that the directory can carry out. -/
  Admits : Change → Prop
  quiet_history : ∀ r, (K.history r).Quiet
  wp_history : ∀ {r : Change} {d : δ} {I : δ → Prop} {Q : Except Error Unit → δ → Prop},
    r.WellFormed → Admits r →
    (∀ d', r.Partly (K.files.get d) (K.files.get d') (versionAt d) (versionAt d') → I d') →
    (∀ d', r.Fully (K.files.get d) (K.files.get d') (versionAt d) (versionAt d') → Q (.ok ()) d') →
    wp I (K.history r) Q d

/-- The directories of objects. -/
def objectDirsLaw (E : Env) : (objectDirs E).Law where
  versionAt := ObjectDir.versionAt
  set_get _ := rfl
  versionAt_set _ _ := rfl
  files_default := rfl
  versionAt_default := by
    funext id
    simp [ObjectDir.versionAt, show (default : ObjectDir).versions = none from rfl]
  Admits _ := True
  quiet_history _ := quiet_applyHistoryChanges
  wp_history hr _ hI hQ := wp_applyHistoryChanges hr hI hQ

/-- The directories of versions. -/
def versionDirsLaw : versionDirs.Law where
  versionAt _ _ := none
  set_get _ := rfl
  versionAt_set _ _ := rfl
  files_default := rfl
  versionAt_default := rfl
  Admits r := r.clearCurrent = false ∧ r.marker = none
  quiet_history _ := trivial
  wp_history := by
    rintro r d I Q - ⟨hc, hm⟩ hI hQ
    refine ⟨hI d ⟨rfl, rfl, fun _ ↦ rfl, fun _ ↦ rfl⟩, hQ d ⟨⟨rfl, rfl, fun _ ↦ rfl, fun _ ↦ rfl⟩,
      by simp [hc], fun id ↦ .inl ?_⟩⟩
    simp [Change.applyVersion, hm]

/-! ### The abstraction -/

/-- What readers see of the directory of an object: the current object and its versions. -/
@[ext] structure Public where
  current : Slot := {}
  versions : String → Option Directory := fun _ ↦ none

/-- Drop the temporaries of the versions that are hidden. -/
def seen (hide : String → Bool) (id : String) (v : Option Directory) : Option Directory :=
  if hide id then v.map Directory.bare else v

/-- What a record makes of the public files. -/
def Change.apply (r : Change) (hide : String → Bool) (stage : Slot) (P : Public) : Public where
  current := if r.publish then stage else if r.clearCurrent then {} else P.current
  versions id := seen hide id (r.applyVersion id (P.versions id))

variable {K : DirKind δ} (L : K.Law) (hide : String → Bool)

/-- The public files. -/
def DirKind.Law.public (d : δ) : Public where
  current := (K.files.get d).pair.slot
  versions id := seen hide id (L.versionAt d id)

/-- What the directory stands for. -/
def DirKind.Law.resolve (d : δ) : Public :=
  match (K.files.get d).journal with
  | none => L.public hide d
  | some r => r.apply hide (((K.files.get d).stages[r.stage]?).getD {}).slot (L.public hide d)

/-- The journal, if there is one, can be carried out. -/
def DirKind.Law.Sound (d : δ) : Prop :=
  ∀ r, (K.files.get d).journal = some r → r.WellFormed ∧ L.Admits r.toChange ∧
    (∀ id, r.markerId = some id → hide id = true) ∧
    ∃ p, (K.files.get d).stages[r.stage]? = some p ∧ (r.publish = true → p.Complete)

theorem seen_applyVersion_seen (r : Change) (id : String) (v : Option Directory) :
    seen hide id (r.applyVersion id (seen hide id v)) = seen hide id (r.applyVersion id v) := by
  unfold seen
  cases hide id with
  | false => rfl
  | true =>
    by_cases hid : id ∈ r.removeVersions
    · simp [Change.applyVersion, hid]
    · simp only [Change.applyVersion, hid, if_true, if_false]
      cases r.marker with
      | none => cases v <;> rfl
      | some marker => dsimp only; split <;> cases v <;> rfl

theorem Change.apply_public (r : Change) (stage : Slot) (d : δ) :
    r.apply hide stage (L.public hide d) =
      { current := if r.publish then stage else if r.clearCurrent then {} else
          (K.files.get d).pair.slot
        versions := fun id ↦ seen hide id (r.applyVersion id (L.versionAt d id)) } :=
  Public.ext rfl (funext fun _ ↦ seen_applyVersion_seen _ _ _ _)

namespace DirKind.Law

variable {L hide} {E : Env} {d : δ} {r : Publication} {I : δ → Prop}
  {Q : Except Error Unit → δ → Prop}

theorem resolve_of_none (h : (K.files.get d).journal = none) :
    L.resolve hide d = L.public hide d := by
  simp [resolve, h]

theorem sound_of_none (h : (K.files.get d).journal = none) : L.Sound hide d := by
  simp [Sound, h]

/-- Without a journal only the public files count. -/
theorem resolve_set_of_none {x : Directory} (h : (K.files.get d).journal = none)
    (hx : x.journal = none) (hp : x.pair.slot = (K.files.get d).pair.slot) :
    L.resolve hide (K.files.set x d) = L.resolve hide d := by
  rw [resolve_of_none h, resolve_of_none (by simpa using hx)]
  simp [DirKind.Law.public, hp, L.versionAt_set]

/-! ### Carrying out a record -/

/-- The record `r` with the stage `p` is being carried out, towards `P`. -/
structure Pending (L : K.Law) (hide : String → Bool) (r : Publication) (p : Pair) (P : Public)
    (d : δ) : Prop where
  journal : (K.files.get d).journal = some r
  stage : (K.files.get d).stages[r.stage]? = some p
  apply : r.apply hide p.slot (L.public hide d) = P

variable {p : Pair} {P : Public}

theorem Pending.resolve (h : L.Pending hide r p P d) : L.resolve hide d = P := by
  simp [DirKind.Law.resolve, h.journal, h.stage, h.apply]

theorem Pending.files (h : L.Pending hide r p P d) {x : Directory}
    (hj : x.journal = (K.files.get d).journal) (hs : x.stages = (K.files.get d).stages)
    (hp : r.publish = true ∨ x.pair.slot = (K.files.get d).pair.slot) :
    L.Pending hide r p P (K.files.set x d) where
  journal := by simp [hj, h.journal]
  stage := by simp [hs, h.stage]
  apply := by
    rw [← h.apply, Change.apply_public, Change.apply_public, L.versionAt_set, Lens.get_set]
    rcases hp with hp | hp
    · simp [hp]
    · rw [hp]

theorem Pending.partly (h : L.Pending hide r p P d) {d' : δ}
    (hd : r.Partly (K.files.get d) (K.files.get d') (L.versionAt d) (L.versionAt d')) :
    L.Pending hide r p P d' where
  journal := hd.journal.trans h.journal
  stage := by rw [hd.stages, h.stage]
  apply := by
    rw [← h.apply, Change.apply_public, Change.apply_public]
    simp only [hd.versions]
    cases hc : r.clearCurrent with
    | true => simp
    | false => rw [hd.slot hc]

/-- Once a record is carried out, the public files are what it stood for. -/
theorem Pending.fully (h : L.Pending hide r p P d) (hr : r.WellFormed)
    (hm : ∀ id, r.markerId = some id → hide id = true)
    (hpub : r.publish = true → (K.files.get d).pair.slot = p.slot) {d' : δ}
    (hd : r.Fully (K.files.get d) (K.files.get d') (L.versionAt d) (L.versionAt d')) :
    L.public hide d' = P := by
  rw [← h.apply, Change.apply_public]
  refine Public.ext ?_ (funext fun id ↦ ?_)
  · simp only [DirKind.Law.public, hd.current]
    cases hp : r.publish with
    | true => simp [hr.publish hp, hpub hp]
    | false => simp
  · simp only [DirKind.Law.public]
    rcases hd.version id with hv | ⟨hid, hv⟩
    · rw [hv]
    · simp only [seen, hm id hid, if_true, ← hv, Option.map_map]
      rfl

theorem wp_applyPublication (hs : L.Sound hide d) (hj : (K.files.get d).journal = some r)
    (hI : ∀ d', L.Sound hide d' → L.resolve hide d' = L.resolve hide d → I d')
    (hQ : ∀ d', (K.files.get d').journal = none → L.resolve hide d' = L.resolve hide d →
      Q (.ok ()) d') :
    wp I (applyPublication E K) Q d := by
  obtain ⟨hr, hadm, hm, p, hst, hcomplete⟩ := hs r hj
  generalize hP : L.resolve hide d = P at hI hQ
  have hpend : L.Pending hide r p P d := ⟨hj, hst, by simpa [resolve, hj, hst] using hP⟩
  have hIp : ∀ d', L.Pending hide r p P d' → I d' := by
    refine fun d' h ↦ hI d' ?_ h.resolve
    intro r' hr'
    obtain rfl : r = r' := Option.some.inj (h.journal.symm.trans hr')
    exact ⟨hr, hadm, hm, p, h.stage, hcomplete⟩
  have hvalid : r.validate ((K.files.get d).stages[r.stage]?) = .ok () :=
    Change.validate_eq_ok_iff.2 ⟨hr, fun hp ↦ ⟨p, hst, hcomplete hp⟩⟩
  -- The history, the journal and the stage.
  have hrest : ∀ d', L.Pending hide r p P d' →
      (r.publish = true → (K.files.get d').pair.slot = p.slot) →
      wp I ((K.history r.toChange).bind fun _ ↦
        (zoom K.files <| sys (.internalError "Failed to retire publication journal") fun d ↦
          some (d.unlink (.file .journal))).bind fun _ ↦
        zoom K.files (removeStage "Failed to clean committed publication" r.stage)) Q d' := by
    intro d' h hpub
    simp only [wp_bind]
    refine L.wp_history hr hadm (fun d'' hd ↦ hIp _ (h.partly hd)) fun d'' hd ↦ ?_
    have h'' := h.partly hd.toPartly
    have hdone : ∀ x : Directory, x.journal = none → x.pair.slot = (K.files.get d'').pair.slot →
        L.resolve hide (K.files.set x d'') = P := by
      intro x hx hp
      rw [resolve_of_none (by simpa using hx), ← h.fully hr hm hpub hd]
      simp [DirKind.Law.public, hp, L.versionAt_set]
    have hIn : ∀ x : Directory, x.journal = none → x.pair.slot = (K.files.get d'').pair.slot →
        I (K.files.set x d'') := fun x hx hp ↦
      hI _ (sound_of_none (by simpa using hx)) (hdone x hx hp)
    refine wp_zoom (L.set_get _) (wp_sys_some rfl ?_ (hIn _ rfl rfl) ?_)
    · rw [L.set_get]; exact hIp _ h''
    refine wp_zoom (L.set_get _) ?_
    simp only [Lens.get_set, Lens.set_set]
    refine wp_removeStage (by simp [Directory.unlink, h''.stage]) (fun q ↦ hIn _ rfl rfl) ?_
    exact hQ _ (by simp [Directory.unlink]) (hdone _ rfl rfl)
  simp only [applyPublication, validatePublication, bind_eq, wp_bind, wp_sysRead, hj] at hrest ⊢
  refine ⟨hIp d hpend, wp_zoom (L.set_get _) ?_⟩
  simp only [wp_bind, wp_read, wp_ofExcept, hvalid, L.set_get]
  refine ⟨hIp d hpend, hIp d hpend, ?_⟩
  split
  · next hp =>
    obtain ⟨o, b, hmeta, hblob, -⟩ := hcomplete hp
    have hIt : ∀ x : Directory, x.journal = (K.files.get d).journal →
        x.stages = (K.files.get d).stages → L.Pending hide r p P (K.files.set x d) :=
      fun x hj hs ↦ hpend.files hj hs (.inl hp)
    simp only [wp_bind]
    refine wp_zoom (L.set_get _) ?_
    refine wp_publishStagedFile (c := .bytes b) (by simp [hst, Pair.content, hblob]) ?_
      (fun t ↦ hIp _ (hIt _ rfl rfl)) fun t ↦ ⟨_, rfl, hIp _ (hIt _ rfl rfl), ?_⟩
    · rw [L.set_get]; exact hIp d hpend
    refine wp_zoom (L.set_get _) ?_
    simp only [Lens.get_set, Lens.set_set]
    refine wp_publishStagedFile (c := .object o) (by simp [hst, Pair.content, hmeta]) ?_
      (fun t ↦ hIp _ (hIt _ rfl rfl)) fun t ↦ ⟨_, rfl, hIp _ (hIt _ rfl rfl), ?_⟩
    · exact hIp _ (hIt _ rfl rfl)
    refine hrest _ (hIt _ rfl rfl) fun _ ↦ ?_
    simp [Pair.slot, hblob, hmeta]
  · next hp => simpa only [wp_bind] using hrest d hpend fun h ↦ absurd h hp

theorem quiet_applyPublication (L : K.Law) : (applyPublication E K).Quiet := by
  have hrest : ∀ r : Publication, ((K.history r.toChange).bind fun _ ↦
      (zoom K.files <| sys (.internalError "Failed to retire publication journal") fun d ↦
        some (d.unlink (.file .journal))).bind fun _ ↦
      zoom K.files (removeStage "Failed to clean committed publication" r.stage)).Quiet :=
    fun r ↦ (L.quiet_history _).bind fun _ ↦ (quiet_sys _ _).zoom.bind fun _ ↦
      quiet_removeStage.zoom
  refine (quiet_sysRead _ _).bind fun r ↦ ?_
  refine (Quiet.zoom ((quiet_read _).bind fun _ ↦ quiet_ofExcept _)).bind fun _ ↦ ?_
  split
  · exact quiet_publishStagedFile.zoom.bind fun _ ↦ quiet_publishStagedFile.zoom.bind fun _ ↦
      hrest r
  · exact hrest r

/-! ### Recovery -/

/-- **Recovery keeps what a directory stands for, at every step, and ends with its public files
being just that.** -/
theorem wp_recoverPublication (hide : String → Bool) (hs : L.Sound hide d)
    (hI : ∀ d', L.Sound hide d' → L.resolve hide d' = L.resolve hide d → I d')
    (hQ : ∀ d', (K.files.get d').journal = none → (K.files.get d').Clean →
      L.public hide d' = L.resolve hide d → Q (.ok ()) d') :
    wp I (recoverPublication E K) Q d := by
  have hclean : ∀ d', (K.files.get d').journal = none → L.resolve hide d' = L.resolve hide d →
      wp I (zoom K.files cleanUncommittedStages) Q d' := by
    intro d' hj hres
    refine wp_zoom (L.set_get _) (wp_cleanUncommittedStages ?_ ?_)
    · intro x hxj hxp
      exact hI _ (sound_of_none (by simpa [hj] using hxj))
        ((resolve_set_of_none hj (hxj.trans hj) hxp).trans hres)
    · intro x hxj hxp hx
      have hnone : (K.files.get (K.files.set x d')).journal = none := by simpa [hj] using hxj
      refine hQ _ hnone (by simpa using hx) ?_
      rw [← resolve_of_none hnone, resolve_set_of_none hj (hxj.trans hj) hxp, hres]
  simp only [recoverPublication, bind_eq, wp_bind, wp_read]
  refine ⟨hI d hs rfl, ?_⟩
  cases hj : (K.files.get d).journal with
  | none => exact hclean d hj rfl
  | some r =>
    simp only [Option.isSome_some, if_true, wp_bind]
    exact wp_applyPublication hs hj hI hclean

theorem quiet_recoverPublication (L : K.Law) : (recoverPublication E K).Quiet := by
  refine (quiet_read _).bind fun b ↦ ?_
  cases b
  · exact quiet_cleanUncommittedStages.zoom
  · exact L.quiet_applyPublication.bind fun _ ↦ quiet_cleanUncommittedStages.zoom

/-! ### Publication -/

theorem quiet_validatePublication : (validatePublication r).Quiet :=
  (quiet_read _).bind fun _ ↦ quiet_ofExcept _

/-- Committing a record whose stage is in place. The events of the run tell on which side of the
decision it is. -/
theorem wp_record_commitPublication (hide : String → Bool) {I : List Event × δ → Prop}
    {Q : Except Error Unit → List Event × δ → Prop} {es : List Event}
    (hj : (K.files.get d).journal = none) (hst : (K.files.get d).stages[r.stage]? = some p)
    (hadm : L.Admits r.toChange) (hm : ∀ id, r.markerId = some id → hide id = true)
    (hold : ∀ d', (K.files.get d').journal = none → L.public hide d' = L.public hide d → I (es, d'))
    (hnew : r.validate (some p) = .ok () → ∀ d', L.Sound hide d' → L.resolve hide d' =
      r.apply hide p.slot (L.public hide d) →
      I (es ++ [.journalCommitted], d'))
    (hok : r.validate (some p) = .ok () → ∀ d', (K.files.get d').journal = none →
      L.public hide d' = r.apply hide p.slot (L.public hide d) →
      Q (.ok ()) (es ++ [.journalCommitted], d'))
    (herr : ∀ e, r.validate (some p) = .error e → ∀ d', (K.files.get d').journal = none →
      L.public hide d' = L.public hide d → Q (.error e) (es, d')) :
    wp I (record (commitPublication E K r)) Q (es, d) := by
  have hd : I (es, d) := hold d hj rfl
  have hset : ∀ x : Directory, x.journal = none → x.pair.slot = (K.files.get d).pair.slot →
      (K.files.get (K.files.set x d)).journal = none ∧
        L.public hide (K.files.set x d) = L.public hide d := fun x hx hp ↦
    ⟨by simpa using hx, by simp [DirKind.Law.public, hp, L.versionAt_set]⟩
  simp only [commitPublication, bind_eq, record_bind, record_onError, wp_bind, wp_onError]
  refine (wp_record_of_quiet quiet_validatePublication.zoom).2 (wp_zoom (L.set_get d) ?_)
  simp only [validatePublication, bind_eq, wp_bind, wp_read, wp_ofExcept, L.set_get, hst]
  refine ⟨hd, hd, ?_⟩
  cases hv : r.validate (some p) with
  | error e =>
    refine (wp_record_of_quiet quiet_cleanUncommittedStages.zoom).2 (wp_zoom (L.set_get d) ?_)
    refine wp_cleanUncommittedStages (fun x hxj hxp ↦ ?_) fun x hxj hxp _ ↦ ?_
    · obtain ⟨h1, h2⟩ := hset x (hxj.trans hj) hxp
      exact hold _ h1 h2
    · obtain ⟨h1, h2⟩ := hset x (hxj.trans hj) hxp
      exact ⟨hold _ h1 h2, herr e hv _ h1 h2⟩
  | ok u =>
    obtain ⟨hr, hcomplete⟩ := Change.validate_eq_ok_iff.1 hv
    refine ⟨hd, ?_⟩
    simp only [record_attempt, record_bind, wp_attempt, wp_bind]
    refine wp_record_zoom (L.set_get d) ?_
    rw [← L.set_get d] at hd
    refine wp_record_atomicWrite hd (fun t ↦ ?_) fun temp ↦ ⟨_, rfl, ?_⟩
    · obtain ⟨h1, h2⟩ := hset (Directory.tempsLens.set t (K.files.get d)) hj rfl
      exact hold _ h1 h2
    -- The journal is in place: the directory now stands for the new generation.
    generalize hx : ({ Directory.tempsLens.set _ (K.files.get d) with journal := some r } :
      Directory) = x
    have hxj : x.journal = some r := by rw [← hx]
    have hxs : x.stages[r.stage]? = some p := by rw [← hx]; exact hst
    have hres : L.resolve hide (K.files.set x d) =
        r.apply hide p.slot (L.public hide d) := by
      simp only [DirKind.Law.resolve, Lens.get_set, hxj, hxs, Option.getD_some, Change.apply_public,
        L.versionAt_set]
      rw [← hx]
      rfl
    have hsound : L.Sound hide (K.files.set x d) := by
      intro r' hr'
      obtain rfl : r = r' := by simpa [hxj] using hr'
      exact ⟨hr, hadm, hm, p, by simpa using hxs, fun hp ↦ by simpa using hcomplete hp⟩
    refine ⟨hnew hv _ hsound hres, (wp_record_of_quiet L.quiet_applyPublication).2 ?_⟩
    refine wp_applyPublication (r := r) hsound (by simpa using hxj) (fun d' h1 h2 ↦ ?_)
      fun d' h1 h2 ↦ ⟨?_, ?_⟩
    · exact hnew hv _ h1 (h2.trans hres)
    · exact hnew hv _ (sound_of_none h1) (h2.trans hres)
    · exact hok hv _ h1 ((resolve_of_none h1).symm.trans (h2.trans hres))

/-! ### Directories that need not exist -/

/-- What a directory stands for that need not exist. -/
def view (L : K.Law) (hide : String → Bool) : Option δ → Public
  | none => {}
  | some d => L.resolve hide d

/-- A directory that does not exist is as good as an empty one. -/
theorem public_default : L.public hide default = {} := by
  refine Public.ext ?_ (funext fun id ↦ ?_)
  · simp [DirKind.Law.public, L.files_default, Pair.slot]
  · simp [DirKind.Law.public, L.versionAt_default, seen]

/-- The journal of a directory that need not exist. -/
def NoJournal (K : DirKind δ) (x : Option δ) : Prop := ∀ d, x = some d → (K.files.get d).journal = none

/-- The journal, if the directory and the journal exist, can be carried out. -/
def SoundAt (L : K.Law) (hide : String → Bool) (x : Option δ) : Prop :=
  ∀ d, x = some d → L.Sound hide d

variable {σ : Type} {dir : Lens σ (Option δ)} {s : σ}

theorem wp_recoverAt {I : σ → Prop} {Q : Except Error Unit → σ → Prop}
    (hs : ∀ d, dir.get s = some d → dir.set (some d) s = s) (hsound : L.SoundAt hide (dir.get s))
    (hnone : dir.get s = none → I s ∧ Q (.ok ()) s)
    (hI : ∀ d, (dir.get s).isSome → L.Sound hide d → L.resolve hide d = L.view hide (dir.get s) →
      I (dir.set (some d) s))
    (hQ : ∀ d, (dir.get s).isSome → (K.files.get d).journal = none → (K.files.get d).Clean →
      L.public hide d = L.view hide (dir.get s) → Q (.ok ()) (dir.set (some d) s)) :
    wp I (recoverAt E K dir) Q s := by
  simp only [recoverAt, bind_eq, pure_eq, wp_bind, wp_read]
  cases hx : dir.get s with
  | none =>
    obtain ⟨hd, hq⟩ := hnone hx
    exact ⟨hd, hd, hq⟩
  | some d =>
    rw [hx] at hI hQ hsound
    have hd : I s := hs d hx ▸ hI d rfl (hsound d rfl) rfl
    refine ⟨hd, wp_zoom_existing hx (hs d hx) (wp_recoverPublication hide (hsound d rfl) ?_ ?_)⟩
    · exact fun d' h1 h2 ↦ hI d' rfl h1 h2
    · exact fun d' h1 h2 h3 ↦ hQ d' rfl h1 h2 h3

theorem quiet_recoverAt (L : K.Law) : (recoverAt E K dir).Quiet := by
  refine (quiet_read _).bind fun b ↦ ?_
  cases b
  · exact quiet_ret _
  · exact L.quiet_recoverPublication.zoom

end DirKind.Law

end Sqrzl
