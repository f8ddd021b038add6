import Mathlib.Data.List.Nodup
import SqrzlEmulator.Storage.Publication

/-!
# The steps of a publication

One rule for each program of `Publication.lean` up to `apply_history_changes`: what every directory
that it passes through looks like, and what it looks like in the end. Each rule has the form "the
crash invariant `I` holds of every directory of such a shape, and the postcondition `Q` of every
directory of such another shape", so that a caller names the shapes and never unfolds a program.

## What is overwritten anyway

Retiring a version and writing a delete marker take many steps, and each of them may be the last.
`Change.applyVersion` says what a record makes of the directory of a version in the end; it
ignores what it is going to overwrite, and so **no step changes it** (`Change.Partly`). That is
what makes carrying out a record again, from any point, harmless.
-/

namespace Sqrzl

open Prog

/-! ### What a record means -/

/-- A body and its metadata. -/
@[ext] structure Slot where
  blob : Option Bytes := none
  metadata : Option Object := none

/-- What readers see of a pair. -/
def Pair.slot (p : Pair) : Slot := ⟨p.blob, p.metadata⟩

/-- A version directory without the temporaries in it. -/
def Directory.bare (d : Directory) : Directory := { d with pair := { d.pair with temps := ∅ } }

/-- The identity of the delete marker that a record writes. -/
def Change.markerId (r : Change) : Option String := r.marker.bind (·.versionId)

/-- What a record makes of the directory of a version. -/
def Change.applyVersion (r : Change) (id : String) (v : Option Directory) :
    Option Directory :=
  let kept := if id ∈ r.removeVersions then none else v
  match r.marker with
  | none => kept
  | some marker =>
    if marker.versionId = some id then
      some (Directory.pairLens.set { blob := some [], metadata := some marker.serialized }
        (kept.getD {}))
    else
      kept

/-! ### Records that pass their validation -/

/-- What `validate_publication` checks of the record itself. -/
structure Change.WellFormed (r : Change) : Prop where
  publish : r.publish = true → r.clearCurrent = false ∧ r.marker = none
  removeVersions : ∀ id ∈ r.removeVersions, validVersionId id = true
  marker : ∀ m, r.marker = some m → ∃ id, m.versionId = some id ∧ validVersionId id = true ∧
    m.size = 0 ∧ r.clearCurrent = true

/-- What `validate_publication` checks of the stage. -/
def Pair.Complete (p : Pair) : Prop :=
  ∃ o b, p.metadata = some o ∧ p.blob = some b ∧ b.length = o.size

theorem Change.wellFormed_of_validate {r : Change} {stage : Option Pair}
    (h : r.validate stage = .ok ()) : r.WellFormed := by
  obtain ⟨pub, clr, rem, mk⟩ := r
  simp only [Change.validate, pure, Except.pure, Bind.bind, Except.bind, throw, throwThe,
    MonadExceptOf.throw] at h
  split at h
  · simp at h
  split at h
  · next hconflict hrem =>
    refine ⟨?_, by simpa using hrem, ?_⟩
    · rintro ⟨⟩
      simpa using hconflict
    · rintro m ⟨⟩
      obtain ⟨key, data, size, etag, ct, lm, vid, sc, md, tags, acl, pm⟩ := m
      cases vid with
      | none => simp at h
      | some id =>
        by_cases hv : validVersionId id = true
        · by_cases hm : size = 0
          · cases clr <;> simp_all
          · simp [hv, hm] at h
        · simp [hv] at h
  · simp at h

theorem Change.validate_eq_ok_iff {r : Change} {stage : Option Pair} :
    r.validate stage = .ok () ↔
      r.WellFormed ∧ (r.publish = true → ∃ p, stage = some p ∧ p.Complete) := by
  constructor
  · intro h
    have hw := wellFormed_of_validate h
    refine ⟨hw, fun hp ↦ ?_⟩
    have hall : r.removeVersions.all validVersionId = true := by simpa using hw.removeVersions
    obtain ⟨hclr, hmk⟩ := hw.publish hp
    simp only [Change.validate, hp, hall, hclr, hmk] at h
    cases hs : stage with
    | none => simp [hs, throw, throwThe, MonadExceptOf.throw] at h
    | some p =>
      refine ⟨p, rfl, ?_⟩
      cases hm : p.metadata with
      | none => simp [hs, hm, throw, throwThe, MonadExceptOf.throw] at h
      | some o =>
        cases hb : p.blob with
        | none => simp [hs, hm, hb, throw, throwThe, MonadExceptOf.throw] at h
        | some b =>
          refine ⟨o, b, hm, hb, ?_⟩
          by_contra hne
          simp [hs, hm, hb, hne, throw, throwThe, MonadExceptOf.throw] at h
  · rintro ⟨hw, hst⟩
    have hall : r.removeVersions.all validVersionId = true := by simpa using hw.removeVersions
    cases hp : r.publish with
    | true =>
      obtain ⟨p, rfl, o, b, hm, hb, hl⟩ := hst hp
      obtain ⟨hclr, hmk⟩ := hw.publish hp
      simp [Change.validate, hall, hp, hclr, hmk, hm, hb, hl, pure, Except.pure]
    | false =>
      cases hmk : r.marker with
      | none => simp [Change.validate, hall, hp, hmk, pure, Except.pure]
      | some m =>
        obtain ⟨id, hid, hv, hsz, hclr⟩ := hw.marker m hmk
        simp [Change.validate, hall, hp, hmk, hid, hv, hsz, hclr, pure, Except.pure]

/-! ### File helpers -/

section Files

variable {σ : Type} {E : Env} {T : Lens σ (Table String Content)} {I : σ → Prop}
  {Q : Except Error Unit → σ → Prop} {s : σ} {c : Content}

theorem wp_record_atomicWriteAs {γ : Type} {T : Lens σ (Table String γ)} {empty c : γ}
    {I : List Event × σ → Prop} {Q : Except Error Unit → _ → Prop} {es : List Event}
    {ev : Option Event} {file : String} {place : σ → γ → Option σ} (hs : I (es, s))
    (htemp : ∀ t, I (es, T.set t s))
    (hplace : ∀ temp, ∃ s', place (T.set ((T.get s).set temp none) s) c = some s' ∧
      I (es ++ ev.toList, s') ∧ Q (.ok ()) (es ++ ev.toList, s')) :
    wp I (record (atomicWriteAs E T ev file empty c place)) Q (es, s) := by
  intro n
  generalize htn : "." ++ file ++ "." ++ E.uuid n ++ ".tmp" = temp
  obtain ⟨s', hp, hI, hQ⟩ := hplace temp
  simp [htn, record_onError, record_bind, record, sys, wp, hs, htemp, hp, hI, hQ]

theorem wp_atomicWriteAs {γ : Type} {T : Lens σ (Table String γ)} {empty c : γ}
    {ev : Option Event} {file : String} {place : σ → γ → Option σ} (hs : I s)
    (htemp : ∀ t, I (T.set t s))
    (hplace : ∀ temp, ∃ s', place (T.set ((T.get s).set temp none) s) c = some s' ∧
      I s' ∧ Q (.ok ()) s') :
    wp I (atomicWriteAs E T ev file empty c place) Q s :=
  wp_of_record [] (wp_record_atomicWriteAs hs htemp hplace)

theorem wp_record_atomicWrite {I : List Event × σ → Prop} {Q : Except Error Unit → _ → Prop}
    {es : List Event} {ev : Option Event} {name : FileName}
    {place : σ → FileName → Content → Option σ} (hs : I (es, s)) (htemp : ∀ t, I (es, T.set t s))
    (hplace : ∀ temp, ∃ s', place (T.set ((T.get s).set temp none) s) name c = some s' ∧
      I (es ++ ev.toList, s') ∧ Q (.ok ()) (es ++ ev.toList, s')) :
    wp I (record (atomicWrite E T ev name c place)) Q (es, s) :=
  wp_record_atomicWriteAs hs htemp hplace

theorem wp_atomicWrite {ev : Option Event} {name : FileName}
    {place : σ → FileName → Content → Option σ} (hs : I s) (htemp : ∀ t, I (T.set t s))
    (hplace : ∀ temp, ∃ s', place (T.set ((T.get s).set temp none) s) name c = some s' ∧
      I s' ∧ Q (.ok ()) s') :
    wp I (atomicWrite E T ev name c place) Q s :=
  wp_atomicWriteAs hs htemp hplace

theorem wp_atomicCopy {source : σ → Option Content} {place : σ → Content → Option σ}
    (hc : source s = some c) (hs : I s) (htemp : ∀ t, I (T.set t s))
    (hplace : ∀ temp, ∃ s', place (T.set ((T.get s).set temp none) s) c = some s' ∧
      I s' ∧ Q (.ok ()) s') :
    wp I (atomicCopy E T source place) Q s := by
  intro n
  generalize htn : ".copy-" ++ E.uuid n ++ ".tmp" = temp
  obtain ⟨s', hp, hI, hQ⟩ := hplace temp
  simp [htn, sys, wp, hc, hs, htemp, hp, hI, hQ]

theorem wp_hardLinkOrCopy {source : σ → Option Content} {place : σ → Content → Option σ}
    (hc : source s = some c) (hs : I s) (htemp : ∀ t, I (T.set t s))
    (hlink : ∃ s', place s c = some s' ∧ I s' ∧ Q (.ok ()) s')
    (hplace : ∀ temp, ∃ s', place (T.set ((T.get s).set temp none) s) c = some s' ∧
      I s' ∧ Q (.ok ()) s') :
    wp I (hardLinkOrCopy E T source place) Q s := by
  obtain ⟨s', hp, hI, hQ⟩ := hlink
  rintro (_ | n)
  · simp [hc, hs, hp, hI, hQ]
  · exact wp_atomicCopy hc hs htemp hplace

/-- Linking a file that is not there fails, and leaves nothing behind. -/
theorem wp_hardLinkOrCopy_none {source : σ → Option Content} {place : σ → Content → Option σ}
    (hc : source s = none) (hs : I s) (htemp : ∀ t, I (T.set t s))
    (hQ : ∀ e t, Q (.error e) (T.set t s)) :
    wp I (hardLinkOrCopy E T source place) Q s := by
  have hcopy : wp I (atomicCopy E T source place) Q s := by
    intro n
    simp [hc, hs, htemp, hQ]
  rintro (_ | n)
  · simp [hc, hs, hcopy]
  · exact hcopy

@[simp] theorem quiet_atomicWrite {name : FileName}
    {place : σ → FileName → Content → Option σ} :
    (atomicWrite E T none name c place).Quiet := fun _ ↦
  Quiet.onError ((quiet_sys _ _).bind fun _ ↦ (quiet_sys _ _).bind fun _ ↦
    ⟨rfl, fun _ ↦ trivial, trivial⟩) (quiet_sys _ _)

@[simp] theorem quiet_atomicCopy {source : σ → Option Content} {place : σ → Content → Option σ} :
    (atomicCopy E T source place).Quiet := fun _ ↦
  Quiet.onError ((quiet_sys _ _).bind fun _ ↦ quiet_sys _ _) (quiet_sys _ _)

@[simp] theorem quiet_hardLinkOrCopy {source : σ → Option Content}
    {place : σ → Content → Option σ} : (hardLinkOrCopy E T source place).Quiet := by
  rintro (_ | n)
  · exact ⟨rfl, fun _ ↦ trivial, quiet_atomicCopy⟩
  · exact quiet_atomicCopy

end Files

theorem wp_publishStagedFile {E : Env} {I : Directory → Prop}
    {Q : Except Error Unit → Directory → Prop} {d : Directory} {stage : String} {name : FileName}
    {c : Content} (hc : (d.stages[stage]?.bind fun p ↦ p.content name) = some c) (hd : I d)
    (htemp : ∀ t, I (Directory.tempsLens.set t d))
    (hplace : ∀ t, ∃ d', (Directory.tempsLens.set t d).place name c = some d' ∧
      I d' ∧ Q (.ok ()) d') :
    wp I (publishStagedFile E stage name) Q d := by
  intro n
  generalize htn : ".published-" ++ E.uuid n ++ ".tmp" = temp
  simp only [htn, bind_eq, wp_bind]
  have hrename : ∀ t : Table String Content, wp I
      (sys (.internalError "Failed to publish staged object generation") fun d ↦
        d.pair.temps[temp]?.bind
          ((Directory.tempsLens.set (d.pair.temps.set temp none) d).place name) : Op Directory Unit)
      Q (Directory.tempsLens.set (t.set temp (some c)) d) := by
    intro t
    obtain ⟨d', hp, hI, hQ⟩ := hplace (t.set temp none)
    have hfound : ((Directory.tempsLens.set (t.set temp (some c)) d).pair.temps[temp]?.bind
        ((Directory.tempsLens.set ((t.set temp (some c)).set temp none)
          (Directory.tempsLens.set (t.set temp (some c)) d)).place name)) = some d' := by
      simpa using hp
    exact wp_sys_some hfound (htemp _) hI hQ
  refine wp_hardLinkOrCopy hc hd htemp ⟨_, rfl, htemp _, hrename _⟩ fun t ↦ ⟨_, rfl, ?_, ?_⟩
  · exact htemp _
  · exact hrename _

@[simp] theorem quiet_publishStagedFile {E : Env} {stage : String} {name : FileName} :
    (publishStagedFile E stage name).Quiet :=
  fun _ ↦ quiet_hardLinkOrCopy.bind fun _ ↦ quiet_sys _ _

/-! ### Removal -/

section Removal

variable {I : Directory → Prop} {Q : Except Error Unit → Directory → Prop} {d : Directory}
  {message : String}

theorem wp_removeStage {id : String} (hstage : (d.stages[id]?).isSome)
    (hI : ∀ p, I { d with stages := d.stages.set id p })
    (hQ : Q (.ok ()) { d with stages := d.stages.set id none }) :
    wp I (removeStage message id) Q d := by
  obtain ⟨stage, hst⟩ := Option.isSome_iff_exists.1 hstage
  have hd : I d := by simpa [← hst] using hI (some stage)
  simp only [removeStage, bind_eq, wp_bind, wp_sysRead, hst]
  refine ⟨hd, wp_shuffled hd fun l _ ↦ ?_⟩
  refine wp_forEach (J := fun _ d' ↦ ∃ p, d' = { d with stages := d.stages.set id (some p) }) ?_ ?_
    _ ?_
  · rintro e _ _ ⟨p, rfl⟩
    exact wp_sys_some (t := { d with stages := d.stages.set id (some (p.unlink e)) }) (by simp)
      (hI _) (hI _) ⟨_, rfl⟩
  · rintro _ ⟨p, rfl⟩
    exact ⟨hI _, wp_sys_some (by simp) (hI _) (hI _) hQ⟩
  · exact ⟨stage, by rw [← hst, Table.set_getElem?]⟩

/-- A directory without one of its entries. -/
def Directory.remove (d : Directory) : Entry → Directory
  | .stage id => { d with stages := d.stages.set id none }
  | e => d.unlink e

/-- Whether a directory has an entry. -/
def Directory.Has (d : Directory) : Entry → Prop
  | .file .blob => d.pair.blob.isSome
  | .file .metadata => d.pair.metadata.isSome
  | .file .journal => d.journal.isSome
  | .temp name => (d.pair.temps[name]?).isSome
  | .stage id => (d.stages[id]?).isSome

theorem Directory.mem_entries {d : Directory} {e : Entry} : e ∈ d.entries ↔ d.Has e := by
  cases e with
  | file name => cases name <;> simp [entries, Pair.entries, Has]
  | temp name => simp [entries, Pair.entries, Has]
  | stage id => simp [entries, Pair.entries, Has]

theorem Directory.has_remove {d : Directory} {e x : Entry} :
    (d.remove x).Has e ↔ d.Has e ∧ e ≠ x := by
  rcases x with (_ | _ | _) | _ | _ <;> rcases e with (_ | _ | _) | _ | _ <;>
    simp [remove, unlink, Pair.unlink, Has]
  all_goals split <;> simp_all

theorem wp_removeEntry {e : Entry} (he : d.Has e) (hd : I d) (hI : I (d.remove e))
    (hstage : ∀ id p, e = .stage id → I { d with stages := d.stages.set id p })
    (hQ : Q (.ok ()) (d.remove e)) : wp I (removeEntry message e) Q d := by
  cases e with
  | stage id => exact wp_removeStage he (fun p ↦ hstage id p rfl) hQ
  | file name => exact wp_sys_some rfl hd hI hQ
  | temp name => exact wp_sys_some rfl hd hI hQ

/-- Removing entries one at a time: `J` is what holds of every directory that is met on the way. -/
theorem wp_removeEntries_loop {J : Directory → Prop} {l : List Entry} (hl : l.Nodup)
    (hmem : ∀ e ∈ l, d.Has e) (hJ : J d)
    (hstep : ∀ d' e, e ∈ l → d'.Has e → J d' → J (d'.remove e) ∧
      ∀ id p, e = .stage id → J { d' with stages := d'.stages.set id p })
    (hI : ∀ d', J d' → I d')
    (hQ : ∀ d', J d' → (∀ e, d'.Has e ↔ d.Has e ∧ e ∉ l) → Q (.ok ()) d') :
    wp I (forEach l (removeEntry message)) Q d := by
  refine wp_forEach (J := fun xs d' ↦ xs.Nodup ∧ xs ⊆ l ∧ J d' ∧
    ∀ e, d'.Has e ↔ d.Has e ∧ (e ∈ l → e ∈ xs)) ?_ ?_ l ⟨hl, fun _ ↦ id, hJ, by simp⟩
  · rintro x xs d' ⟨hnd, hsub, hJ', hhas⟩
    have hx : x ∈ l := hsub (List.mem_cons_self ..)
    have hhx : d'.Has x := (hhas x).2 ⟨hmem x hx, fun _ ↦ List.mem_cons_self ..⟩
    obtain ⟨hrem, hst⟩ := hstep d' x hx hhx hJ'
    refine wp_removeEntry hhx (hI _ hJ') (hI _ hrem) (fun id p he ↦ hI _ (hst id p he)) ?_
    refine ⟨hnd.of_cons, fun e he ↦ hsub (List.mem_cons_of_mem _ he), hrem, fun e ↦ ?_⟩
    rw [Directory.has_remove, hhas]
    have hne : e ∈ xs → e ≠ x := fun he heq ↦ (List.nodup_cons.1 hnd).1 (heq ▸ he)
    constructor
    · rintro ⟨⟨hd, hin⟩, hex⟩
      exact ⟨hd, fun he ↦ (List.mem_cons.1 (hin he)).resolve_left hex⟩
    · rintro ⟨hd, hin⟩
      refine ⟨⟨hd, fun he ↦ List.mem_cons_of_mem _ (hin he)⟩, ?_⟩
      rintro rfl
      exact hne (hin hx) rfl
  · rintro d' ⟨-, -, hJ', hhas⟩
    exact ⟨hI _ hJ', hQ d' hJ' fun e ↦ by simp [hhas]⟩

theorem Directory.nodup_entries (d : Directory) : d.entries.Nodup := by
  have htemps : (d.pair.temps.keys.map Entry.temp).Nodup :=
    (Table.nodup_keys _).map fun _ _ h ↦ Entry.temp.inj h
  have hstages : (d.stages.keys.map Entry.stage).Nodup :=
    (Table.nodup_keys _).map fun _ _ h ↦ Entry.stage.inj h
  unfold entries Pair.entries
  cases d.pair.blob <;> cases d.pair.metadata <;> cases d.journal <;>
    simp [List.nodup_append, htemps, hstages]

/-- What holds of a directory however much of it has been removed. -/
def RemovalClosed (J : Directory → Prop) : Prop :=
  ∀ d e, J d → J (d.remove e) ∧ ∀ id p, J { d with stages := d.stages.set id p }

theorem wp_removeEntries {J : Directory → Prop} (hc : RemovalClosed J) (hJ : J d)
    (hI : ∀ d', J d' → I d') (hQ : ∀ d', J d' → Q (.ok ()) d') :
    wp I (removeEntries message) Q d := by
  simp only [removeEntries, bind_eq, wp_bind, wp_read]
  refine ⟨hI _ hJ, wp_shuffled (hI _ hJ) fun l hl ↦ ?_⟩
  refine wp_removeEntries_loop (hl.nodup_iff.2 d.nodup_entries) ?_ hJ
    (fun d' e _ _ h ↦ ⟨(hc d' e h).1, fun id p _ ↦ (hc d' e h).2 id p⟩) hI fun d' h _ ↦ hQ d' h
  exact fun e he ↦ Directory.mem_entries.1 (hl.mem_iff.1 he)

/-- A directory that holds neither stages nor temporaries. -/
def Directory.Clean (d : Directory) : Prop := d.stages = ∅ ∧ d.pair.temps = ∅

theorem wp_cleanUncommittedStages
    (hI : ∀ d' : Directory, d'.journal = d.journal → d'.pair.slot = d.pair.slot → I d')
    (hQ : ∀ d' : Directory, d'.journal = d.journal → d'.pair.slot = d.pair.slot → d'.Clean →
      Q (.ok ()) d') :
    wp I cleanUncommittedStages Q d := by
  simp only [cleanUncommittedStages, bind_eq, wp_bind, wp_read]
  have hd : I d := hI d rfl rfl
  refine ⟨hd, wp_shuffled hd fun l hl ↦ ?_⟩
  have hnodup : l.Nodup := by
    refine hl.nodup_iff.2 (List.Nodup.append ?_ ?_ ?_)
    · exact (Table.nodup_keys _).map fun _ _ h ↦ Entry.stage.inj h
    · exact (Table.nodup_keys _).map fun _ _ h ↦ Entry.temp.inj h
    · simp [List.disjoint_left]
  have hmem : ∀ e, e ∈ l ↔ d.Has e ∧ ∀ name, e ≠ .file name := by
    intro e
    rw [hl.mem_iff]
    rcases e with name | name | id <;> simp [Directory.Has]
  refine wp_removeEntries_loop (J := fun d' ↦ d'.journal = d.journal ∧ d'.pair.slot = d.pair.slot)
    hnodup (fun e he ↦ ((hmem e).1 he).1) ⟨rfl, rfl⟩ ?_ (fun d' h ↦ hI d' h.1 h.2) ?_
  · rintro d' e he - ⟨hj, hp⟩
    have hnf := ((hmem e).1 he).2
    refine ⟨?_, fun _ _ _ ↦ ⟨hj, hp⟩⟩
    rcases e with name | name | id
    · exact absurd rfl (hnf name)
    · exact ⟨hj, hp⟩
    · exact ⟨hj, hp⟩
  · rintro d' ⟨hj, hp⟩ hhas
    refine hQ d' hj hp ⟨Table.eq_empty_iff.2 fun id h ↦ ?_, Table.eq_empty_iff.2 fun name h ↦ ?_⟩
    · obtain ⟨h1, h2⟩ := (hhas (.stage id)).1 h
      exact h2 ((hmem _).2 ⟨h1, by simp⟩)
    · obtain ⟨h1, h2⟩ := (hhas (.temp name)).1 h
      exact h2 ((hmem _).2 ⟨h1, by simp⟩)

@[simp] theorem quiet_removeStage {id : String} : (removeStage message id).Quiet :=
  (quiet_sysRead _ _).bind fun _ ↦ (quiet_shuffled _).bind fun _ ↦
    (Quiet.forEach (fun _ ↦ quiet_sys _ _) _).bind fun _ ↦ quiet_sys _ _

@[simp] theorem quiet_removeEntry {e : Entry} : (removeEntry message e).Quiet := by
  cases e <;> simp [removeEntry]

@[simp] theorem quiet_removeEntries : (removeEntries message).Quiet :=
  (quiet_read _).bind fun _ ↦ (quiet_shuffled _).bind fun _ ↦
    Quiet.forEach (fun _ ↦ quiet_removeEntry) _

@[simp] theorem quiet_cleanUncommittedStages : cleanUncommittedStages.Quiet :=
  (quiet_read _).bind fun _ ↦ (quiet_shuffled _).bind fun _ ↦
    Quiet.forEach (fun _ ↦ quiet_removeEntry) _

end Removal

/-! ### Changes to the history -/

section History

variable {E : Env} {I : ObjectDir → Prop} {Q : Except Error Unit → ObjectDir → Prop}
  {d : ObjectDir}

/-- The directory of a version. -/
def ObjectDir.versionAt (d : ObjectDir) (id : String) : Option Directory :=
  (d.versions.getD ∅)[id]?

@[simp] theorem ObjectDir.versionAt_set (d : ObjectDir) (id j : String) (v : Option Directory) :
    ((ObjectDir.versionLens id).set v d).versionAt j = if j = id then v else d.versionAt j := by
  simp [versionAt]

theorem ObjectDir.versionLens_set_self {d : ObjectDir} {id : String} {v : Directory}
    (hv : d.versionAt id = some v) : (ObjectDir.versionLens id).set (some v) d = d := by
  obtain ⟨files, versions⟩ := d
  cases versions with
  | none => simp [ObjectDir.versionAt] at hv
  | some t => exact congrArg (fun t ↦ (⟨files, some t⟩ : ObjectDir)) (t.set_eq_self hv)

/-- A program of a version that is there. -/
theorem wp_zoom_version {id : String} {v : Directory} {p : Op Directory Unit}
    (hv : d.versionAt id = some v)
    (h : wp (fun x ↦ I ((ObjectDir.versionLens id).set (some x) d)) p
      (fun r x ↦ Q r ((ObjectDir.versionLens id).set (some x) d)) v) :
    wp I (zoom ((ObjectDir.versionLens id).comp .existing) p) Q d :=
  wp_zoom_existing hv (ObjectDir.versionLens_set_self hv) h

theorem wp_removeVersionDir {message : String} {id : String} {v : Directory} {J : Directory → Prop}
    (hc : RemovalClosed J) (hv : d.versionAt id = some v) (hJ : J v)
    (hI : ∀ v', J v' → I ((ObjectDir.versionLens id).set (some v') d))
    (hnone : I ((ObjectDir.versionLens id).set none d))
    (hQ : Q (.ok ()) ((ObjectDir.versionLens id).set none d)) :
    wp I (removeVersionDir message id) Q d := by
  simp only [removeVersionDir, bind_eq, wp_bind]
  refine wp_zoom_version hv (wp_removeEntries hc hJ hI fun v' hv' ↦ ?_)
  refine wp_sys_some rfl (hI v' hv') ?_ ?_
  · rw [Lens.set_set]; exact hnone
  · rw [Lens.set_set]; exact hQ

/-- Retiring a version touches nothing else. -/
theorem wp_retireVersion {id : String} (hid : validVersionId id = true)
    (hI : ∀ d', d'.files = d.files → (∀ j, j ≠ id → d'.versionAt j = d.versionAt j) → I d')
    (hQ : ∀ d', d'.files = d.files →
      (∀ j, d'.versionAt j = if j = id then none else d.versionAt j) → Q (.ok ()) d') :
    wp I (retireVersion id) Q d := by
  have hd : I d := hI d rfl fun _ _ ↦ rfl
  have hset : ∀ v, I ((ObjectDir.versionLens id).set v d) := fun v ↦
    hI _ rfl fun j hj ↦ by simp [hj]
  have hremove : ∀ d', d' = d ∨ (∃ v, d' = (ObjectDir.versionLens id).set (some v) d) →
      (d'.versionAt id).isSome →
      wp I (removeVersionDir "Failed to retire historical version" id) Q d' := by
    rintro d' (rfl | ⟨v, rfl⟩) hv
    · obtain ⟨v, hv⟩ := Option.isSome_iff_exists.1 hv
      exact wp_removeVersionDir (J := fun _ ↦ True) (fun _ _ _ ↦ ⟨trivial, fun _ _ ↦ trivial⟩) hv
        trivial (fun v' _ ↦ hset _) (hset _) (hQ _ rfl fun j ↦ by simp)
    · refine wp_removeVersionDir (J := fun _ ↦ True) (fun _ _ _ ↦ ⟨trivial, fun _ _ ↦ trivial⟩)
        (v := v) (by simp) trivial (fun w _ ↦ ?_) ?_ ?_
      · rw [Lens.set_set]; exact hset _
      · rw [Lens.set_set]; exact hset _
      · rw [Lens.set_set]; exact hQ _ rfl fun j ↦ by simp
  simp only [retireVersion, hid, bind_eq, Bool.not_true, Bool.false_eq_true, if_false, pure_eq,
    wp_bind, wp_read]
  refine ⟨hd, ?_⟩
  split
  · next hv =>
    obtain ⟨v, hv'⟩ := Option.isSome_iff_exists.1 hv
    simp only [wp_bind, wp_read]
    refine ⟨hd, ?_⟩
    split
    · rw [wp_bind]
      refine wp_zoom_version hv' (wp_sys_some rfl (hset _) (hset _) ?_)
      exact hremove _ (.inr ⟨_, rfl⟩) (by simp)
    · exact hremove d (.inl rfl) hv
  · next hv =>
    refine ⟨hd, hQ d rfl fun j ↦ ?_⟩
    split
    · next hj => rw [hj]; simpa [ObjectDir.versionAt] using hv
    · rfl

/-- The loop over the versions to remove. -/
theorem wp_forEach_retireVersion {ids : List String} (hids : ∀ id ∈ ids, validVersionId id = true)
    (hI : ∀ d', d'.files = d.files → (∀ j, j ∉ ids → d'.versionAt j = d.versionAt j) → I d')
    (hQ : ∀ d', d'.files = d.files →
      (∀ j, d'.versionAt j = if j ∈ ids then none else d.versionAt j) → Q (.ok ()) d') :
    wp I (forEach ids retireVersion) Q d := by
  refine wp_forEach (J := fun xs d' ↦ xs ⊆ ids ∧ d'.files = d.files ∧
    (∀ j, j ∉ ids → d'.versionAt j = d.versionAt j) ∧
    ∀ j, j ∈ ids → j ∉ xs → d'.versionAt j = none) ?_ ?_ ids ?_
  · rintro id xs d' ⟨hsub, hf, hkeep, hgone⟩
    have hid : id ∈ ids := hsub (List.mem_cons_self ..)
    refine wp_retireVersion (hids id hid) ?_ ?_
    · intro d'' hf' hj'
      refine hI d'' (hf'.trans hf) fun j hj ↦ ?_
      rw [hj' j (by rintro rfl; exact hj hid), hkeep j hj]
    · intro d'' hf' hj'
      refine ⟨fun j hj ↦ hsub (List.mem_cons_of_mem _ hj), hf'.trans hf, fun j hj ↦ ?_, ?_⟩
      · rw [hj', if_neg (by rintro rfl; exact hj hid), hkeep j hj]
      · intro j hj hjx
        rw [hj']
        split
        · rfl
        · next hne => exact hgone j hj (by simp [hne, hjx])
  · rintro d' ⟨-, hf, hkeep, hgone⟩
    refine ⟨hI d' hf hkeep, hQ d' hf fun j ↦ ?_⟩
    split
    · next hj => exact hgone j hj (by simp)
    · next hj => exact hkeep j hj
  · exact ⟨fun _ ↦ id, rfl, fun _ _ ↦ rfl, fun j hj hnj ↦ absurd hj hnj⟩

/-- Writing a delete marker touches nothing but the pair of its version. -/
theorem wp_writeMarker {marker : Object} {id : String} (hid : marker.versionId = some id)
    (hvalid : validVersionId id = true)
    (hI : ∀ d', d'.files = d.files → (∀ j, j ≠ id → d'.versionAt j = d.versionAt j) →
      (d'.versionAt id = d.versionAt id ∨
        ∃ p, d'.versionAt id = some (Directory.pairLens.set p ((d.versionAt id).getD {}))) → I d')
    (hQ : ∀ d' temps, d'.files = d.files → (∀ j, j ≠ id → d'.versionAt j = d.versionAt j) →
      d'.versionAt id = some (Directory.pairLens.set
        { blob := some [], metadata := some marker.serialized, temps := temps }
        ((d.versionAt id).getD {})) →
      Q (.ok ()) d') :
    wp I (writeMarker E marker) Q d := by
  generalize hbase : (d.versionAt id).getD {} = base at hI hQ
  have hset : ∀ p, I ((ObjectDir.versionLens id).set (some (Directory.pairLens.set p base)) d) :=
    fun p ↦ hI _ rfl (fun j hj ↦ by simp [hj]) (.inr ⟨p, by simp⟩)
  have hdir : I { d with versions := some (d.versions.getD ∅) } :=
    hI _ rfl (fun _ _ ↦ rfl) (.inl rfl)
  -- Creating the two directories leaves the version with the pair that it had.
  have hcreated : (ObjectDir.versionLens id).set (some base)
      { d with versions := some (d.versions.getD ∅) } =
      (ObjectDir.versionLens id).set (some (Directory.pairLens.set base.pair base)) d := rfl
  have hwrite : ∀ {Q'} {p : Pair} {name : FileName} {c : Content} (p' : Table String Content → Pair),
      (∀ t, Directory.place (Directory.pairLens.set { p with temps := t } base) name c =
        some (Directory.pairLens.set (p' t) base)) →
      (∀ t, Q' (.ok ()) ((ObjectDir.versionLens id).set
        (some (Directory.pairLens.set (p' t) base)) d)) →
      wp I (zoom ((ObjectDir.versionLens id).comp .existing)
        (atomicWrite E Directory.tempsLens none name c Directory.place)) Q'
        ((ObjectDir.versionLens id).set (some (Directory.pairLens.set p base)) d) := by
    intro Q' p name c p' hplace hQ'
    refine wp_zoom_version (v := Directory.pairLens.set p base) (by simp) ?_
    simp only [Lens.set_set]
    exact wp_atomicWrite (hset _) (fun t ↦ hset _) fun t ↦ ⟨_, hplace _, hset _, hQ' _⟩
  simp only [writeMarker, hid, hvalid, bind_eq, Bool.not_true, Bool.false_eq_true, if_false,
    wp_bind]
  refine wp_sys_some rfl (hI d rfl (fun _ _ ↦ rfl) (.inl rfl)) hdir ?_
  refine wp_sys_some (t := (ObjectDir.versionLens id).set
    (some (Directory.pairLens.set base.pair base)) d) ?_ hdir (hset _) ?_
  · rw [← hcreated, ← hbase]; rfl
  · refine hwrite (fun t ↦ { base.pair with blob := some [], temps := t }) (fun t ↦ rfl) ?_
    intro t
    refine hwrite (fun t ↦ { blob := some [], metadata := some marker.serialized, temps := t })
      (fun t ↦ rfl) fun t' ↦ hQ _ t' rfl (fun j hj ↦ by simp [hj]) (by simp)

theorem wp_clearCurrentFile {I : Directory → Prop}
    {Q : Except Error Unit → Directory → Prop} {d : Directory} {name : FileName}
    (hd : I d) (hI : I (d.unlink (.file name))) (hQ : Q (.ok ()) (d.unlink (.file name)))
    (hname : name ≠ .journal) :
    wp I (clearCurrentFile name) Q d := by
  simp only [clearCurrentFile, bind_eq, wp_bind, wp_read, pure_eq]
  refine ⟨hd, ?_⟩
  split
  · exact wp_sys_some rfl hd hI hQ
  · next hc =>
    have hsame : d.unlink (.file name) = d := by
      obtain ⟨⟨blob, metadata, temps⟩, journal, stages⟩ := d
      cases name <;> simp_all [Pair.content, Directory.unlink, Pair.unlink]
    exact ⟨hd, hsame ▸ hQ⟩

theorem Change.applyVersion_congr {r : Change} {id : String} {v v' : Option Directory}
    (h : id ∉ r.removeVersions → v' = v) : r.applyVersion id v' = r.applyVersion id v := by
  unfold applyVersion
  by_cases hid : id ∈ r.removeVersions
  · simp [hid]
  · rw [h hid]

theorem Change.applyVersion_marker {r : Change} {marker : Object} {id : String}
    {v : Option Directory} (hm : r.marker = some marker) (hid : marker.versionId = some id) :
    r.applyVersion id v =
      some (Directory.pairLens.set { blob := some [], metadata := some marker.serialized }
        ((if id ∈ r.removeVersions then none else v).getD {})) := by
  simp [applyVersion, hm, hid]

theorem Change.applyVersion_of_ne {r : Change} {id : String} {v : Option Directory}
    (hid : r.markerId ≠ some id) :
    r.applyVersion id v = if id ∈ r.removeVersions then none else v := by
  unfold applyVersion
  unfold markerId at hid
  cases hm : r.marker with
  | none => rfl
  | some marker => simp_all

/-- What carrying out a record may have done by any point, to a directory with the files `f` and the
versions `v`: nothing that the record is not going to overwrite has changed. -/
structure Change.Partly (r : Change) (f f' : Directory)
    (v v' : String → Option Directory) : Prop where
  journal : f'.journal = f.journal
  stages : f'.stages = f.stages
  slot : r.clearCurrent = false → f'.pair.slot = f.pair.slot
  versions : ∀ id, r.applyVersion id (v' id) = r.applyVersion id (v id)

/-- What carrying out the history part of a record has done in the end. -/
structure Change.Fully (r : Change) (f f' : Directory)
    (v v' : String → Option Directory) : Prop extends r.Partly f f' v v' where
  current : f'.pair.slot = if r.clearCurrent then {} else f.pair.slot
  version : ∀ id, v' id = r.applyVersion id (v id) ∨
    (r.markerId = some id ∧ (v' id).map Directory.bare = r.applyVersion id (v id))

/-- The last part of `apply_history_changes`. -/
theorem wp_clearCurrent {clear : Bool}
    (hI : ∀ f : Directory, f.journal = d.files.journal → f.stages = d.files.stages →
      (clear = false → f.pair.slot = d.files.pair.slot) → I { d with files := f })
    (hQ : ∀ f : Directory, f.journal = d.files.journal → f.stages = d.files.stages →
      f.pair.slot = (if clear then {} else d.files.pair.slot) → Q (.ok ()) { d with files := f }) :
    wp I (if clear then
        (zoom ObjectDir.filesLens (clearCurrentFile .blob)).bind fun _ ↦
          zoom ObjectDir.filesLens (clearCurrentFile .metadata)
      else .ret () : Op ObjectDir Unit) Q d := by
  cases clear with
  | false => exact ⟨hI d.files rfl rfl fun _ ↦ rfl, hQ d.files rfl rfl rfl⟩
  | true =>
    have hI' : ∀ f : Directory, f.journal = d.files.journal → f.stages = d.files.stages →
        I { d with files := f } := fun f hj hs ↦ hI f hj hs (by simp)
    simp only [if_true, wp_bind]
    refine wp_zoom rfl (wp_clearCurrentFile (hI' _ rfl rfl) (hI' _ rfl rfl) ?_ (by simp))
    refine wp_zoom rfl (wp_clearCurrentFile (hI' _ rfl rfl) (hI' _ rfl rfl) ?_ (by simp))
    exact hQ _ rfl rfl rfl

theorem wp_applyHistoryChanges {r : Change} (hr : r.WellFormed)
    (hI : ∀ d', r.Partly d.files d'.files d.versionAt d'.versionAt → I d')
    (hQ : ∀ d', r.Fully d.files d'.files d.versionAt d'.versionAt → Q (.ok ()) d') :
    wp I (applyHistoryChanges E r) Q d := by
  -- Once the versions are as they shall be, clearing the current object ends it.
  have hclear : ∀ d' : ObjectDir, d'.files = d.files →
      (∀ id, d'.versionAt id = r.applyVersion id (d.versionAt id) ∨ (r.markerId = some id ∧
        (d'.versionAt id).map Directory.bare = r.applyVersion id (d.versionAt id))) →
      (∀ id, r.applyVersion id (d'.versionAt id) = r.applyVersion id (d.versionAt id)) →
      wp I (if r.clearCurrent then
          (zoom ObjectDir.filesLens (clearCurrentFile .blob)).bind fun _ ↦
            zoom ObjectDir.filesLens (clearCurrentFile .metadata)
        else .ret () : Op ObjectDir Unit) Q d' := by
    intro d' hf hdone hsame
    refine wp_clearCurrent (fun f hj hs hp ↦ hI _ ?_) fun f hj hs hp ↦ hQ _ ?_
    · rw [hf] at hj hs hp
      exact ⟨hj, hs, hp, hsame⟩
    · rw [hf] at hj hs hp
      exact ⟨⟨hj, hs, fun hc ↦ by simp [hp, hc], hsame⟩, hp, hdone⟩
  simp only [applyHistoryChanges, bind_eq, wp_bind, pure_eq]
  refine wp_forEach_retireVersion hr.removeVersions (fun d' hf hkeep ↦ hI d' ?_) fun d' hf hgone ↦ ?_
  · exact ⟨by rw [hf], by rw [hf], fun _ ↦ by rw [hf],
      fun id ↦ Change.applyVersion_congr (hkeep id)⟩
  have hkept : ∀ id, r.applyVersion id (d'.versionAt id) = r.applyVersion id (d.versionAt id) :=
    fun id ↦ Change.applyVersion_congr fun hid ↦ by simp [hgone, hid]
  cases hm : r.marker with
  | none =>
    refine hclear d' hf (fun id ↦ .inl ?_) hkept
    rw [hgone, Change.applyVersion_of_ne (by simp [Change.markerId, hm])]
  | some marker =>
    obtain ⟨mid, hmid, hvalid, -, -⟩ := hr.marker marker hm
    -- What is in the place of the marker's pair does not matter.
    have hover : ∀ p, r.applyVersion mid
        (some (Directory.pairLens.set p ((d'.versionAt mid).getD {}))) =
        r.applyVersion mid (d.versionAt mid) := by
      intro p
      rw [← hkept, Change.applyVersion_marker hm hmid, Change.applyVersion_marker hm hmid]
      by_cases hr : mid ∈ r.removeVersions <;> simp [hr]
    simp only [wp_bind]
    refine wp_writeMarker hmid hvalid (fun d'' hf' hne hat ↦ hI d'' ?_) fun d'' t hf' hne hat ↦ ?_
    · refine ⟨by rw [hf', hf], by rw [hf', hf], fun _ ↦ by rw [hf', hf], fun id ↦ ?_⟩
      by_cases hid : id = mid
      · subst hid
        rcases hat with hat | ⟨p, hat⟩
        · rw [hat, hkept]
        · rw [hat, hover]
      · rw [hne id hid, hkept]
    · refine hclear d'' (hf'.trans hf) (fun id ↦ ?_) fun id ↦ ?_
      · by_cases hid : id = mid
        · subst hid
          refine .inr ⟨by simp [Change.markerId, hm, hmid], ?_⟩
          rw [hat, Change.applyVersion_marker hm hmid, hgone]
          rfl
        · refine .inl ?_
          rw [hne id hid, hgone, Change.applyVersion_of_ne]
          simp [Change.markerId, hm, hmid, Ne.symm hid]
      · by_cases hid : id = mid
        · subst hid
          rw [hat, hover]
        · rw [hne id hid, hkept]

@[simp] theorem quiet_removeVersionDir {message id : String} :
    (removeVersionDir message id).Quiet :=
  quiet_removeEntries.zoom.bind fun _ ↦ quiet_sys _ _

@[simp] theorem quiet_retireVersion {id : String} : (retireVersion id).Quiet := by
  simp only [retireVersion, bind_eq, pure_eq]
  split
  · exact quiet_fail _
  refine (quiet_read _).bind fun _ ↦ ?_
  split
  · refine (quiet_read _).bind fun _ ↦ ?_
    split
    · exact (quiet_sys _ _).zoom.bind fun _ ↦ quiet_removeVersionDir
    · exact quiet_removeVersionDir
  · exact quiet_ret _

@[simp] theorem quiet_writeMarker {marker : Object} : (writeMarker E marker).Quiet := by
  simp only [writeMarker, bind_eq]
  split
  · exact quiet_fail _
  split
  · exact quiet_fail _
  exact (quiet_sys _ _).bind fun _ ↦ (quiet_sys _ _).bind fun _ ↦
    quiet_atomicWrite.zoom.bind fun _ ↦ quiet_atomicWrite.zoom

@[simp] theorem quiet_clearCurrentFile {name : FileName} : (clearCurrentFile name).Quiet := by
  refine (quiet_read _).bind fun _ ↦ ?_
  split
  · exact quiet_sys _ _
  · exact quiet_ret _

@[simp] theorem quiet_applyHistoryChanges {r : Change} : (applyHistoryChanges E r).Quiet := by
  have hclear : (if r.clearCurrent then
      (zoom ObjectDir.filesLens (clearCurrentFile .blob)).bind fun _ ↦
        zoom ObjectDir.filesLens (clearCurrentFile .metadata)
      else .ret () : Op ObjectDir Unit).Quiet := by
    split
    · exact quiet_clearCurrentFile.zoom.bind fun _ ↦ quiet_clearCurrentFile.zoom
    · exact quiet_ret _
  simp only [applyHistoryChanges, bind_eq, pure_eq]
  refine (Quiet.forEach (fun _ ↦ quiet_retireVersion) _).bind fun _ ↦ ?_
  cases r.marker with
  | some marker => exact quiet_writeMarker.bind fun _ ↦ hclear
  | none => exact hclear

end History

end Sqrzl
