import SqrzlEmulator.Storage.Resolve

/-!
# Publishing into a directory

The rule for `publish_pair` and `change_history` as programs of a whole state, of which the
directory is a part. Their payload may come from elsewhere in the state: a spooled file is moved
away, and a stored one is linked. `Payload.Frames` is what is needed of it: it lies outside of the
directory, or it is one of the public files.
-/

namespace Sqrzl

open Prog

variable {δ σ : Type} [Inhabited δ] {K : DirKind δ} {L : K.Law} {hide : String → Bool}
  {dir : Lens σ (Option δ)} {E : Env} {s : σ}

/-! ### Payloads -/

namespace Payload

/-- The bytes of a payload. -/
def bytes (o : Object) (s : σ) : Payload σ → Option Bytes
  | .inMemory => some o.data
  | .spooled take => (take s).map Prod.fst
  | .stored source => source s

/-- What is left when a payload has been staged. -/
def rest (s : σ) : Payload σ → σ
  | .spooled take => ((take s).map Prod.snd).getD s
  | _ => s

/-- A payload is not a private file of the directory. -/
def Frames (L : K.Law) (hide : String → Bool) (dir : Lens σ (Option δ)) : Payload σ → Prop
  | .inMemory => True
  | .spooled take => ∀ x s, take (dir.set x s) = (take s).map fun y ↦ (y.1, dir.set x y.2)
  | .stored source => ∀ s d, DirKind.Law.NoJournal K (dir.get s) →
      L.view hide (dir.get s) = L.public hide d → source (dir.set (some d) s) = source s

end Payload

/-- A generation to be staged, if there is one, as the pair that it becomes. -/
def stagedPair (s : σ) : Option (Object × Payload σ) → Option Pair
  | none => some {}
  | some (o, payload) =>
    (payload.bytes o s).map fun b ↦ { blob := some b, metadata := some o.serialized }

/-- What is left when the generation has been staged. -/
def stagedRest (s : σ) : Option (Object × Payload σ) → σ
  | none => s
  | some (_, payload) => payload.rest s

theorem Change.validate_congr {r : Change} {p q : Pair} (h : p.slot = q.slot) :
    r.validate (some p) = r.validate (some q) := by
  simp only [Pair.slot, Slot.mk.injEq] at h
  simp [Change.validate, h.1, h.2]

/-- A directory with one of its stages replaced. -/
def stageAt (K : DirKind δ) (id : String) (p : Option Pair) (d : δ) : δ :=
  K.files.set ((Directory.stageLens id).set p (K.files.get d)) d

theorem stageLens_set (id : String) (p : Option Pair) (d : δ) :
    (stageLens K dir id).set p (dir.set (some d) s) = dir.set (some (stageAt K id p d)) s := by
  simp [stageLens, stageAt]

theorem stageLens_get (id : String) (d : δ) :
    (stageLens K dir id).get (dir.set (some d) s) = (K.files.get d).stages[id]? := by
  simp [stageLens]

omit [Inhabited δ] in
@[simp] theorem stageAt_stageAt (id : String) (p q : Option Pair) (d : δ) :
    stageAt K id p (stageAt K id q d) = stageAt K id p d := by
  simp [stageAt]

omit [Inhabited δ] in
@[simp] theorem get_stageAt (id : String) (p : Option Pair) (d : δ) :
    (K.files.get (stageAt K id p d)).stages[id]? = p := by
  simp [stageAt]

omit [Inhabited δ] in
@[simp] theorem journal_stageAt (id : String) (p : Option Pair) (d : δ) :
    (K.files.get (stageAt K id p d)).journal = (K.files.get d).journal := by
  simp [stageAt]

@[simp] theorem public_stageAt (id : String) (p : Option Pair) (d : δ) :
    L.public hide (stageAt K id p d) = L.public hide d := by
  simp [stageAt, DirKind.Law.public, L.versionAt_set]

/-- Writing a file of a stage. -/
theorem wp_zoom_stage {I : σ → Prop} {Q : Except Error Unit → σ → Prop} {id : String} {d : δ}
    {p : Pair} {name : FileName} {c : Content}
    (hI : ∀ q, I (dir.set (some (stageAt K id (some q) d)) s))
    (hQ : ∀ t, ∃ q, Pair.place { p with temps := t } name c = some q ∧
      Q (.ok ()) (dir.set (some (stageAt K id (some q) d)) s)) :
    wp I (zoom ((stageLens K dir id).comp .existing)
      (atomicWrite E Pair.tempsLens none name c Pair.place)) Q
      (dir.set (some (stageAt K id (some p) d)) s) := by
  refine wp_zoom_existing (v := p) (by simp [stageLens_get]) (by simp [stageLens_set]) ?_
  simp only [stageLens_set, stageAt_stageAt]
  refine wp_atomicWrite (hI _) (fun t ↦ hI _) fun t ↦ ?_
  obtain ⟨q, hq, hQ⟩ := hQ (p.temps.set t none)
  exact ⟨q, hq, hI _, hQ⟩

theorem placeInStage_eq (id : String) (q : Pair) (d : δ) (c : Content) :
    placeInStage K dir id (dir.set (some (stageAt K id (some q) d)) s) c =
      (q.place .blob c).map fun stage ↦ dir.set (some (stageAt K id (some stage) d)) s := by
  simp [placeInStage, stageLens_get, stageLens_set]

theorem stageTemps_set (id : String) (t : Table String Content) (q : Pair) (d : δ) :
    (((stageLens K dir id).comp .existing).comp Pair.tempsLens).set t
      (dir.set (some (stageAt K id (some q) d)) s) =
    dir.set (some (stageAt K id (some { q with temps := t }) d)) s := by
  simp only [Lens.comp_set, Lens.comp_get, stageLens_get, stageLens_set, get_stageAt,
    stageAt_stageAt, Lens.existing_get, Lens.existing_set, Option.getD_some]
  rfl

/-- Putting the bytes of a payload into a fresh stage. -/
theorem wp_stagePayload {I : σ → Prop} {Q : Except Error Unit → σ → Prop} {id : String} {d : δ}
    {o : Object} {payload : Payload σ} (hframe : payload.Frames L hide dir)
    (hj : ∀ source, payload = .stored source → DirKind.Law.NoJournal K (dir.get s))
    (hd : L.view hide (dir.get s) = L.public hide d)
    (hI : ∀ q s', s' = s ∨ s' = payload.rest s → I (dir.set (some (stageAt K id (some q) d)) s'))
    (hok : ∀ b t, payload.bytes o s = some b →
      Q (.ok ()) (dir.set (some (stageAt K id (some { blob := some b, temps := t }) d))
        (payload.rest s)))
    (herr : ∀ e, payload.bytes o s = none → ∀ q,
      Q (.error e) (dir.set (some (stageAt K id (some q) d)) s)) :
    wp I (stagePayload E K dir id o payload) Q (dir.set (some (stageAt K id (some {}) d)) s) := by
  cases payload with
  | inMemory =>
    exact wp_zoom_stage (fun q ↦ hI q s (.inl rfl)) fun t ↦ ⟨_, rfl, hok o.data t rfl⟩
  | spooled take =>
    have htake : ∀ q, take (dir.set (some (stageAt K id (some q) d)) s) =
        (take s).map fun y ↦ (y.1, dir.set (some (stageAt K id (some q) d)) y.2) := fun q ↦
      hframe (some (stageAt K id (some q) d)) s
    simp only [stagePayload, bind_eq, wp_bind, wp_sys]
    refine ⟨hI _ s (.inl rfl), ?_⟩
    cases ht : take s with
    | none =>
      simp only [htake, ht, Option.map_none]
      exact herr _ (by simp [Payload.bytes, ht]) _
    | some y =>
      obtain ⟨b, s'⟩ := y
      have hrest : (Payload.spooled take).rest s = s' := by simp [Payload.rest, ht]
      have hok' : ∀ t, I (dir.set (some (stageAt K id (some { blob := some b, temps := t }) d)) s') ∧
          Q (.ok ()) (dir.set (some (stageAt K id (some { blob := some b, temps := t }) d)) s') := by
        intro t
        rw [← hrest]
        exact ⟨hI _ _ (.inr rfl), hok b t (by simp [Payload.bytes, ht])⟩
      simp only [ht, Option.map_some] at htake
      -- Copying leaves the payload where it is until it is removed.
      have hcopied : wp I ((atomicCopy E (((stageLens K dir id).comp .existing).comp Pair.tempsLens)
            (fun s ↦ (take s).map fun y ↦ .bytes y.1) (placeInStage K dir id)).bind fun _ ↦
            sys (.internalError "Failed to remove spooled payload") fun s ↦ (take s).map Prod.snd) Q
          (dir.set (some (stageAt K id (some {}) d)) s) := by
        rw [wp_bind]
        refine wp_atomicCopy (c := .bytes b) (by simp [htake]) (hI _ s (.inl rfl)) (fun t ↦ ?_)
          fun t ↦ ?_
        · rw [stageTemps_set]
          exact hI _ s (.inl rfl)
        · rw [stageTemps_set, placeInStage_eq]
          refine ⟨_, rfl, hI _ s (.inl rfl), ?_⟩
          rw [wp_sys, htake]
          exact ⟨hI _ s (.inl rfl), hok' _⟩
      simp only [htake, Option.map_some]
      refine ⟨hI _ s (.inl rfl), ?_⟩
      rintro (_ | n)
      · refine ⟨hI _ s (.inl rfl), ?_⟩
        simp only [htake, Option.bind_some, placeInStage_eq, Pair.place, Option.map_some]
        exact hok' _
      · exact hcopied
  | stored source =>
    have hsource : source (dir.set (some (stageAt K id (some {}) d)) s) = source s :=
      hframe s (stageAt K id (some {}) d) (hj source rfl) (by simpa using hd)
    have hI' : ∀ q, I (dir.set (some (stageAt K id (some q) d)) s) := fun q ↦ hI q s (.inl rfl)
    cases hb : source s with
    | none =>
      refine wp_hardLinkOrCopy_none (by simp [hsource, hb]) (hI' _) (fun t ↦ ?_) fun e t ↦ ?_
      · rw [stageTemps_set]; exact hI' _
      · rw [stageTemps_set]; exact herr e hb _
    | some b =>
      refine wp_hardLinkOrCopy (c := .bytes b) (by simp [hsource, hb]) (hI' _) (fun t ↦ ?_) ?_
        fun t ↦ ?_
      · rw [stageTemps_set]; exact hI' _
      · rw [placeInStage_eq]
        exact ⟨_, rfl, hI' _, hok b ∅ hb⟩
      · rw [stageTemps_set, placeInStage_eq]
        exact ⟨_, rfl, hI' _, hok b _ hb⟩

theorem quiet_stagePayload {id : String} {o : Object} {payload : Payload σ} :
    (stagePayload E K dir id o payload).Quiet := by
  cases payload with
  | inMemory => exact quiet_atomicWrite.zoom
  | spooled take =>
    refine (quiet_sys _ _).bind fun _ ↦ ?_
    rintro (_ | n)
    · exact ⟨rfl, fun _ ↦ trivial, quiet_atomicCopy.bind fun _ ↦ quiet_sys _ _⟩
    · exact quiet_atomicCopy.bind fun _ ↦ quiet_sys _ _
  | stored source => exact quiet_hardLinkOrCopy

/-! ### Directories that do not exist yet -/

/-- A directory without journal and stages, that stands for `P`. -/
structure Fresh (L : K.Law) (hide : String → Bool) (P : Public) (d : δ) : Prop where
  journal : (K.files.get d).journal = none
  stages : (K.files.get d).stages = ∅
  view : L.public hide d = P

theorem Fresh.sound {P : Public} {d : δ} (h : Fresh L hide P d) : L.Sound hide d :=
  DirKind.Law.sound_of_none h.journal

theorem Fresh.resolve {P : Public} {d : δ} (h : Fresh L hide P d) : L.resolve hide d = P :=
  (DirKind.Law.resolve_of_none h.journal).trans h.view

theorem fresh_default : Fresh L hide {} default where
  journal := by rw [L.files_default]
  stages := by rw [L.files_default]
  view := DirKind.Law.public_default

theorem wp_createDirectoryDurable {I : σ → Prop} {Q : Except Error Unit → σ → Prop}
    {parents : Op σ Unit} (hI : I s) (hsome : (dir.get s).isSome → Q (.ok ()) s)
    (hnone : dir.get s = none → wp I parents (fun r t ↦ match r with
      | .ok _ => I (dir.set (some default) t) ∧ Q (.ok ()) (dir.set (some default) t)
      | .error e => Q (.error e) t) s) :
    wp I (createDirectoryDurable dir parents) Q s := by
  simp only [createDirectoryDurable, bind_eq, pure_eq, wp_bind, wp_read]
  refine ⟨hI, ?_⟩
  cases hx : dir.get s with
  | some d => exact ⟨hI, hsome (by rw [hx]; rfl)⟩
  | none =>
    simp only [Option.isNone_none, if_true, wp_bind]
    refine wp_mono (hnone hx) (fun _ ↦ id) ?_
    rintro (e | u) t ht h
    · exact h
    · exact wp_sys_some rfl ht h.1 h.2

theorem quiet_createDirectoryDurable {parents : Op σ Unit} (h : parents.Quiet) : (createDirectoryDurable dir parents).Quiet := by
  refine (quiet_read _).bind fun b ↦ ?_
  cases b
  · exact quiet_ret _
  · exact h.bind fun _ ↦ quiet_sys _ _

/-- `recover_publication` and `create_directory_durable`, as `publish_pair` and `change_history`
begin. -/
theorem wp_recoverAt_createDirectory {I : σ → Prop} {Q : Except Error Unit → σ → Prop}
    {parents : Op σ Unit} (hs : ∀ d, dir.get s = some d → dir.set (some d) s = s)
    (hsound : L.SoundAt hide (dir.get s))
    (hpar : dir.get s = none → wp I parents (fun r s₁ ↦ r = .ok () ∧
      ∀ d, dir.set (some d) s₁ = dir.set (some d) s) s)
    (hold : ∀ d, L.Sound hide d → L.resolve hide d = L.view hide (dir.get s) →
      I (dir.set (some d) s))
    (hQ : ∀ d, Fresh L hide (L.view hide (dir.get s)) d → Q (.ok ()) (dir.set (some d) s)) :
    wp I ((recoverAt E K dir).bind fun _ ↦ createDirectoryDurable dir parents) Q s := by
  rw [wp_bind]
  refine DirKind.Law.wp_recoverAt hs hsound (fun hx ↦ ?_) (fun d' _ ↦ hold d') fun d' _ h1 h2 h3 ↦ ?_
  · have hparents := hpar hx
    have hI := inv_of_wp hparents
    rw [hx] at hold hQ
    refine ⟨hI, wp_createDirectoryDurable hI (fun h ↦ absurd h (by simp [hx])) fun _ ↦ ?_⟩
    refine wp_mono hparents (fun _ ↦ id) ?_
    rintro _ s₁ - ⟨rfl, h₁⟩
    simp only [h₁]
    exact ⟨hold _ (fresh_default (L := L)).sound fresh_default.resolve, hQ _ fresh_default⟩
  · have hfresh : Fresh L hide (L.view hide (dir.get s)) d' := ⟨h1, h2.1, h3⟩
    exact wp_createDirectoryDurable (hold d' hfresh.sound hfresh.resolve) (fun _ ↦ hQ d' hfresh)
      fun h ↦ absurd h (by simp)

theorem quiet_recoverAt_createDirectory {parents : Op σ Unit} (L : K.Law) (hpar : parents.Quiet) :
    ((recoverAt E K dir).bind fun _ ↦ createDirectoryDurable dir parents).Quiet :=
  L.quiet_recoverAt.bind fun _ ↦ quiet_createDirectoryDurable hpar

/-! ### The protocol -/

/-- **Only the rename of the journal changes what the directory stands for.** Until the event of
that rename the directory stands for what it stood for before, from then on for the changed
generation; and the call succeeds exactly when its payload can be read and its record passes the
validation. -/
theorem wp_record_publishRecord (hide : String → Bool) {I : List Event × σ → Prop}
    {Q : Except Error Unit → List Event × σ → Prop} {es : List Event} {parents : Op σ Unit}
    {change : Change} {staged : Option (Object × Payload σ)} {P : Public}
    (hs : ∀ d, dir.get s = some d → dir.set (some d) s = s) (hsound : L.SoundAt hide (dir.get s))
    (hj : ∀ o source, staged = some (o, .stored source) → DirKind.Law.NoJournal K (dir.get s))
    (hP : L.view hide (dir.get s) = P) (hquiet : parents.Quiet)
    (hpar : dir.get s = none → wp (fun t ↦ I (es, t)) parents (fun r s₁ ↦ r = .ok () ∧
      ∀ d, dir.set (some d) s₁ = dir.set (some d) s) s)
    (hframe : ∀ o payload, staged = some (o, payload) → payload.Frames L hide dir)
    (hadm : L.Admits change) (hm : ∀ id, change.markerId = some id → hide id = true)
    (hold : ∀ d s', s' = s ∨ s' = stagedRest s staged → L.Sound hide d → L.resolve hide d = P →
      I (es, dir.set (some d) s'))
    (hnew : ∀ p, stagedPair s staged = some p → change.validate (some p) = .ok () → ∀ d,
      L.Sound hide d → L.resolve hide d = change.apply hide p.slot P →
      I (es ++ [.journalCommitted], dir.set (some d) (stagedRest s staged)))
    (hok : ∀ p, stagedPair s staged = some p → change.validate (some p) = .ok () → ∀ d,
      (K.files.get d).journal = none → L.public hide d = change.apply hide p.slot P →
      Q (.ok ()) (es ++ [.journalCommitted], dir.set (some d) (stagedRest s staged)))
    (herr : ∀ e, (∀ p, stagedPair s staged = some p → change.validate (some p) ≠ .ok ()) →
      ∀ d s', s' = s ∨ s' = stagedRest s staged → (K.files.get d).journal = none →
      L.public hide d = P → Q (.error e) (es, dir.set (some d) s')) :
    wp I (record (publishRecord E K dir parents change staged)) Q (es, s) := by
  have hstart := fun {Q : Except Error Unit → List Event × σ → Prop} hQ ↦
    (wp_record_of_quiet (Q := Q) (quiet_recoverAt_createDirectory (E := E) L hquiet)).2
      (wp_recoverAt_createDirectory (I := fun t ↦ I (es, t)) hs hsound hpar
        (fun d h1 h2 ↦ hold d s (.inl rfl) h1 (h2.trans hP)) hQ)
  simp only [publishRecord, bind_eq]
  rw [← bind_assoc, record_bind, wp_bind]
  refine hstart fun d hd n ↦ ?_
  rw [hP] at hd
  generalize hid : E.uuid n = id
  have hstage : ∀ q, (K.files.get (stageAt K id q d)).journal = none ∧
      L.public hide (stageAt K id q d) = P := fun q ↦ ⟨by simp [hd.journal], by simp [hd.view]⟩
  have hI : ∀ q s', s' = s ∨ s' = stagedRest s staged →
      I (es, dir.set (some (stageAt K id (some q) d)) s') := fun q s' hs' ↦
    hold _ s' hs' (DirKind.Law.sound_of_none (hstage _).1)
      ((DirKind.Law.resolve_of_none (hstage _).1).trans (hstage _).2)
  -- The stage is complete and only the decision is missing.
  have hcommit : ∀ p q, stagedPair s staged = some p → q.slot = p.slot →
      wp I (record (zoom (dir.comp .existing) (commitPublication E K { change with stage := id }))) Q
        (es, dir.set (some (stageAt K id (some q) d)) (stagedRest s staged)) := by
    intro p q hp hq
    have hvq : change.validate (some q) = change.validate (some p) := Change.validate_congr hq
    refine wp_record_zoom (by simp) ?_
    simp only [Lens.comp_get, Lens.get_set, Lens.existing_get, Option.getD_some, Lens.comp_set,
      Lens.existing_set, Lens.set_set]
    refine DirKind.Law.wp_record_commitPublication (L := L) hide (p := q) (hstage _).1
      (by simp) hadm hm ?_ ?_ ?_ ?_
    · intro d' h1 h2
      refine hold d' _ (.inr rfl) (DirKind.Law.sound_of_none h1) ?_
      rw [DirKind.Law.resolve_of_none h1, h2, (hstage _).2]
    · intro hv d' h1 h2
      rw [(hstage _).2, hq] at h2
      exact hnew p hp (hvq ▸ hv) d' h1 h2
    · intro hv d' h1 h2
      rw [(hstage _).2, hq] at h2
      exact hok p hp (hvq ▸ hv) d' h1 h2
    · intro e hv d' h1 h2
      refine herr e (fun p' hp' ↦ ?_) d' _ (.inr rfl) h1 (h2.trans (hstage _).2)
      obtain rfl : p = p' := Option.some.inj (hp.symm.trans hp')
      rw [← hvq, show change.validate (some q) = .error e from hv]
      simp
  simp only [hid, record_bind, wp_bind]
  refine (wp_record_of_quiet (quiet_sys _ _)).2 ?_
  refine wp_sys_some (t := dir.set (some (stageAt K id (some {}) d)) s) ?_
    (hold d s (.inl rfl) hd.sound hd.resolve) (hI _ s (.inl rfl)) ?_
  · rw [stageLens_get, stageLens_set, hd.stages]
    rfl
  cases staged with
  | none => exact hcommit {} {} rfl rfl
  | some x =>
    obtain ⟨o, payload⟩ := x
    simp only [record_bind, wp_bind]
    refine (wp_record_of_quiet quiet_stagePayload).2 ?_
    refine wp_stagePayload (hframe o payload rfl) (fun src h ↦ hj o src (by rw [h]))
      (hP.trans hd.view.symm) hI ?_ ?_
    · intro b t hb
      refine (wp_record_of_quiet quiet_atomicWrite.zoom).2 ?_
      refine wp_zoom_stage (fun q ↦ hI q _ (.inr rfl)) fun t ↦ ⟨_, rfl, ?_⟩
      exact hcommit { blob := some b, metadata := some o.serialized } _ (by simp [stagedPair, hb])
        rfl
    · intro e hb q
      exact herr e (by simp [stagedPair, hb]) _ s (.inl rfl) (hstage _).1 (hstage _).2

end Sqrzl
