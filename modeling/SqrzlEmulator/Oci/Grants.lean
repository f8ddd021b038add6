import SqrzlEmulator.Oci.Par
import SqrzlEmulator.Oci.Signed

/-!
# Pre-authenticated requests are confined

A PAR gives access to the objects of one bucket. `System` adds to the state of the front door the
history that the access is judged by: the PARs that have been created and not deleted, each with
**the bucket incarnation for which it was created**. Nothing of that incarnation is in the stored
record.

`Orderly` is the steps after which the records still say the truth:

* a bucket is only created when every PAR for its name has expired, or was created for a bucket with
  the same creation time;
* a PAR is read and deleted under the path of its own bucket, or of one that does not exist;
* the creation of a PAR is not stopped between its two state writes.

In every run of such steps the accesses of a token are within its grant (`pars_are_confined`).
-/

namespace Sqrzl.Oci

open Percent S3

variable {K : Crates} {w : World} {par : Par} {req : Request} {now : Time} {access : Access}
  {suffix : Text} {parseRfc3339 : Text → Option Time}

/-! ### What an access needs -/

/-- The upload of an access. -/
def Access.uploadId : Access → Option Text
  | .uploadPart _ _ u _ | .commitUpload _ _ u | .abortUpload _ _ u => some u
  | _ => none

/-- The PAR covers the access. -/
structure Par.Covers (par : Par) (w : World) (access : Access) : Prop where
  bucket : access.bucket = par.bucket
  object : ∀ object, par.objectName = some object → access.object = object
  reads : access.isRead = true → par.accessType.reads = true
  writes : access.isRead = false → par.accessType.writes = true
  upload : ∀ u, access.uploadId = some u →
    w.uploads[par.bucket]?.bind (·[u]?) = some access.object

theorem parUpload_eq_ok (h : parUpload K w par req suffix = .ok access) : par.Covers w access := by
  unfold parUpload at h
  split at h
  · exact absurd h (by simp)
  next hwrites =>
  replace hwrites : par.accessType.writes = true := by simpa using hwrites
  split at h
  · exact absurd h (by simp)
  split at h
  · exact absurd h (by simp)
  split at h
  · exact absurd h (by simp)
  · exact absurd h (by simp)
  next uploadId rest _ _ =>
  split at h
  · exact absurd h (by simp)
  next key hkey =>
  split at h
  · exact absurd h (by simp)
  next hscope =>
  simp only [Bool.or_eq_true, decide_eq_true_eq, not_or, not_not] at hscope
  have hobject : ∀ object, par.objectName = some object → key = object := by
    intro object hname
    have hany := hscope.2
    rw [hname] at hany
    simpa using Eq.symm (by simpa using hany)
  split at h
  · split at h
    · exact absurd h (by simp)
    · cases h
      exact ⟨rfl, hobject, by simp [Access.isRead], fun _ ↦ hwrites, fun u hu ↦ by
        cases hu
        exact hkey⟩
  · cases h
    exact ⟨rfl, hobject, by simp [Access.isRead], fun _ ↦ hwrites, fun u hu ↦ by
      cases hu
      exact hkey⟩
  · cases h
    exact ⟨rfl, hobject, by simp [Access.isRead], fun _ ↦ hwrites, fun u hu ↦ by
      cases hu
      exact hkey⟩
  · exact absurd h (by simp)

theorem parObject_eq_ok {object : Text} (h : parObject K par suffix = .ok object) :
    ∀ name, par.objectName = some name → object = name := by
  intro name hname
  unfold parObject at h
  rw [hname] at h
  dsimp only at h
  split at h
  · exact absurd h (by simp)
  · exact (Except.ok.inj h).symm

theorem parAccess_eq_ok {object : Text} (h : parAccess par req object = .ok access) (w : World)
    (hobject : ∀ name, par.objectName = some name → object = name) : par.Covers w access := by
  unfold parAccess at h
  split at h
  · split at h
    · exact absurd h (by simp)
    · next hwrites =>
      cases h
      exact ⟨rfl, hobject, by simp [Access.isRead], fun _ ↦ by simpa using hwrites,
        by simp [Access.uploadId]⟩
  · dsimp only at h
    split at h
    · split at h
      · next hwrites =>
        cases h
        exact ⟨rfl, hobject, by simp [Access.isRead], fun _ ↦ hwrites, by simp [Access.uploadId]⟩
      · exact absurd h (by simp)
    · split at h
      · next hreads =>
        cases h
        exact ⟨rfl, hobject, fun _ ↦ hreads, by simp [Access.isRead], by simp [Access.uploadId]⟩
      · exact absurd h (by simp)
    · split at h
      · next hreads =>
        cases h
        exact ⟨rfl, hobject, fun _ ↦ hreads, by simp [Access.isRead], by simp [Access.uploadId]⟩
      · exact absurd h (by simp)
    · exact absurd h (by simp)

/-- **A request with a token comes to an access only through the record of the token.** -/
theorem handleParRequest_eq_ok (h : handleParRequest K w req now = .ok access) :
    ∃ token suffix par, parToken req.path = some (token, suffix) ∧ w.pars[token]? = some par ∧
      now < par.timeExpires ∧ par.Covers w access := by
  unfold handleParRequest at h
  split at h
  · exact absurd h (by simp)
  next token suffix htoken =>
  split at h
  · exact absurd h (by simp)
  next par hpar =>
  split at h
  · exact absurd h (by simp)
  next hexpires =>
  refine ⟨token, suffix, par, htoken, hpar, by simpa using hexpires, ?_⟩
  split at h
  · exact parUpload_eq_ok h
  · cases hobject : parObject K par suffix with
    | error e => simp [hobject, Except.bind] at h
    | ok object =>
      simp only [hobject, Except.bind] at h
      exact parAccess_eq_ok h w (parObject_eq_ok hobject)

/-! ### Runs -/

/-- A PAR with the creation time of the bucket for which it was created. -/
structure Grant where
  par : Par
  created : Time

/-- The state of the front door, the clock, and what its history has granted: the PARs that were
created and not deleted. -/
structure System where
  world : World := {}
  clock : Time := 0
  grants : Table Text Grant := ∅

/-- What happens to the front door. A control request is stopped after `n` of its writes, or comes
to its end if it makes no more. -/
inductive Event where
  | createBucket (bucket : Text)
  | deleteBucket (bucket : Text)
  /-- A request for objects or uploads, also one with a token. -/
  | objects (uploads : Table Text (Table Text Text))
  | control (bucket : Text) (control : ParControl) (newId : Text) (n : ℕ)

/-- The writes of a control request that are made. -/
def controlled (parseRfc3339 : Text → Option Time) (w : World) (bucket : Text) (control : ParControl)
    (newId : Text) (n : ℕ) (now : Time) : World :=
  ((handleParControl parseRfc3339 w bucket control newId now).2.take n).foldl (fun w write ↦ write w) w

/-- The grants after a control request that has made a write. -/
def granted (parseRfc3339 : Text → Option Time) (σ : System) (bucket : Text) (control : ParControl)
    (newId : Text) (now : Time) : Table Text Grant :=
  match control, (handleParControl parseRfc3339 σ.world bucket control newId now).1 with
  | .create _, .ok (par :: _) =>
    σ.grants.set newId (σ.world.buckets[bucket]?.map fun created ↦ ⟨par, created⟩)
  | .delete id, .ok _ => σ.grants.set id none
  | _, _ => σ.grants

/-- What an event makes of the system, at the time `now`. -/
def System.apply (parseRfc3339 : Text → Option Time) (σ : System) (now : Time) :
    Event → System
  | .createBucket bucket =>
    if σ.world.buckets[bucket]?.isSome then { σ with clock := now }
    else { σ with
      world := { σ.world with buckets := σ.world.buckets.set bucket (some now) }, clock := now }
  | .deleteBucket bucket =>
    { σ with world := { σ.world with buckets := σ.world.buckets.set bucket none }, clock := now }
  | .objects uploads => { σ with world := { σ.world with uploads := uploads }, clock := now }
  | .control bucket control newId n =>
    { σ with
      world := controlled parseRfc3339 σ.world bucket control newId n now
      clock := now
      grants := if n = 0 then σ.grants else granted parseRfc3339 σ bucket control newId now }

/-- The identity of a new PAR is a UUID that does not occur in the state. -/
def Event.Fresh (w : World) : Event → Prop
  | .control _ (.create _) newId _ =>
    w.pars[newId]? = none ∧ ∀ bucket, newId ∉ w.indexOf bucket
  | _ => True

/-- A control request looks for a PAR under the path of its bucket, if that is there. -/
def ParControl.AtHome (w : World) (bucket : Text) : ParControl → Prop
  | .get id | .delete id =>
    w.buckets[bucket]?.isSome → ∀ par, w.pars[id]? = some par → par.bucket = bucket
  | _ => True

/-- The steps after which the records still say the truth. -/
def Event.Orderly (σ : System) (now : Time) : Event → Prop
  | .createBucket bucket => ∀ (id : Text) (grant : Grant), σ.grants[id]? = some grant →
      grant.par.bucket = bucket → grant.par.timeExpires ≤ now ∨ grant.created = now
  | .control _ (.create _) _ n => n ≠ 1
  | .control bucket c _ _ => c.AtHome σ.world bucket
  | _ => True

/-- The systems that a run of orderly steps leads to, on a clock that does not go back. -/
inductive Reached (parseRfc3339 : Text → Option Time) : System → Prop
  | start : Reached parseRfc3339 {}
  | step {σ : System} {now : Time} {e : Event} (h : Reached parseRfc3339 σ) (hclock : σ.clock ≤ now)
      (hfresh : e.Fresh σ.world) (horderly : e.Orderly σ now) :
      Reached parseRfc3339 (σ.apply parseRfc3339 now e)

/-- **The records say the truth.** -/
structure System.Truthful (σ : System) : Prop where
  mirror : ∀ id : Text, σ.grants[id]?.map Grant.par = σ.world.pars[id]?
  listed : ∀ (id : Text) (par : Par), σ.world.pars[id]? = some par → id ∈ σ.world.indexOf par.bucket
  own : ∀ (bucket id : Text) (par : Par), id ∈ σ.world.indexOf bucket → σ.world.pars[id]? = some par →
    par.bucket = bucket
  incarnation : ∀ (id : Text) (grant : Grant), σ.grants[id]? = some grant → grant.par.timeExpires ≤ σ.clock ∨
    ∀ created, σ.world.buckets[grant.par.bucket]? = some created → created = grant.created

variable {σ : System} {bucket newId : Text} {control : ParControl} {n : ℕ}

theorem parseDocument_bucket {document : Option ParDocument}
    (h : parseDocument parseRfc3339 bucket document newId now = .ok par) : par.bucket = bucket := by
  unfold parseDocument at h
  repeat' split at h
  all_goals cases h
  rfl

/-- What a control request does, and what is granted by it. -/
theorem control_cases (parseRfc3339 : Text → Option Time) (σ : System) (bucket newId : Text)
    (control : ParControl) (n : ℕ) (now : Time) :
    (controlled parseRfc3339 σ.world bucket control newId n now = σ.world ∧
      (n = 0 ∨ granted parseRfc3339 σ bucket control newId now = σ.grants)) ∨
    (∃ document par created, control = .create document ∧ n ≠ 0 ∧
      σ.world.buckets[bucket]? = some created ∧ par.bucket = bucket ∧
      controlled parseRfc3339 σ.world bucket control newId n now =
        (if n = 1 then savePar newId (some par) σ.world
          else updateIndex bucket (· ++ [newId]) (savePar newId (some par) σ.world)) ∧
      granted parseRfc3339 σ bucket control newId now = σ.grants.set newId (some ⟨par, created⟩)) ∨
    (∃ id, control = .delete id ∧ n ≠ 0 ∧ σ.world.buckets[bucket]?.isSome ∧
      controlled parseRfc3339 σ.world bucket control newId n now =
        (if n = 1 then savePar id none σ.world
          else updateIndex bucket (·.filter (· ≠ id)) (savePar id none σ.world)) ∧
      granted parseRfc3339 σ bucket control newId now = σ.grants.set id none) := by
  unfold controlled granted handleParControl
  cases hbucket : σ.world.buckets[bucket]? with
  | none => cases control <;> exact .inl ⟨by simp, .inr (by simp)⟩
  | some created =>
    cases control with
    | create document =>
      cases hdocument : parseDocument parseRfc3339 bucket document newId now with
      | error failure => exact .inl ⟨by simp [hdocument], .inr (by simp [hdocument])⟩
      | ok par =>
        rcases n with - | - | n
        · exact .inl ⟨by simp, .inl rfl⟩
        · exact .inr (.inl ⟨document, par, created, rfl, by simp, rfl, parseDocument_bucket hdocument,
            by simp [hdocument], by simp [hdocument]⟩)
        · exact .inr (.inl ⟨document, par, created, rfl, by simp, rfl, parseDocument_bucket hdocument,
            by simp [hdocument], by simp [hdocument]⟩)
    | list => exact .inl ⟨by simp, .inr (by simp)⟩
    | get id =>
      cases hpar : σ.world.pars[id]? with
      | none => exact .inl ⟨by simp [hpar], .inr (by simp)⟩
      | some par => exact .inl ⟨by simp [hpar], .inr (by simp)⟩
    | delete id =>
      cases hpar : σ.world.pars[id]? with
      | none => exact .inl ⟨by simp [hpar], .inr (by simp [hpar])⟩
      | some par =>
        rcases n with - | - | n
        · exact .inl ⟨by simp, .inl rfl⟩
        · exact .inr (.inr ⟨id, rfl, by simp, rfl, by simp [hpar], by simp [hpar]⟩)
        · exact .inr (.inr ⟨id, rfl, by simp, rfl, by simp [hpar], by simp [hpar]⟩)

theorem indexOf_savePar (w : World) (id bucket : Text) (par : Option Par) :
    (savePar id par w).indexOf bucket = w.indexOf bucket := rfl

theorem indexOf_updateIndex (w : World) (bucket bucket' : Text) (change : List Text → List Text) :
    (updateIndex bucket change w).indexOf bucket' =
      if bucket' = bucket then change (w.indexOf bucket) else w.indexOf bucket' := by
  unfold updateIndex World.indexOf
  dsimp only
  rw [Table.getElem?_set]
  split <;> rfl

/-- A clock that goes on changes nothing. -/
theorem System.Truthful.tick (h : σ.Truthful) (hclock : σ.clock ≤ now) :
    ({ σ with clock := now } : System).Truthful :=
  ⟨h.mirror, h.listed, h.own, fun id grant hgrant ↦
    (h.incarnation id grant hgrant).imp_left fun hexpires ↦ hexpires.trans hclock⟩

/-- A new PAR of a bucket that is there. -/
theorem System.Truthful.create (h : σ.Truthful) (hclock : σ.clock ≤ now) {created : Time}
    (hbucket : σ.world.buckets[bucket]? = some created) (hpar : par.bucket = bucket)
    (hfresh : ∀ bucket, newId ∉ σ.world.indexOf bucket) :
    ({ world := updateIndex bucket (· ++ [newId]) (savePar newId (some par) σ.world), clock := now,
       grants := σ.grants.set newId (some ⟨par, created⟩) } : System).Truthful where
  mirror id := by
    show (σ.grants.set newId _)[id]?.map Grant.par = (σ.world.pars.set newId (some par))[id]?
    rw [Table.getElem?_set, Table.getElem?_set, apply_ite (Option.map Grant.par), h.mirror]
    rfl
  listed id par' hid := by
    rw [indexOf_updateIndex, indexOf_savePar, indexOf_savePar]
    replace hid : (σ.world.pars.set newId (some par))[id]? = some par' := hid
    rw [Table.getElem?_set] at hid
    split at hid
    · next heq =>
      cases hid
      simp [hpar, heq]
    · have hold := h.listed id par' hid
      split
      · next heq => exact List.mem_append_left _ (heq ▸ hold)
      · exact hold
  own bucket' id par' hmem hid := by
    rw [indexOf_updateIndex, indexOf_savePar, indexOf_savePar] at hmem
    replace hid : (σ.world.pars.set newId (some par))[id]? = some par' := hid
    rw [Table.getElem?_set] at hid
    split at hid
    · next heq =>
      cases hid
      subst heq
      split at hmem
      · next hb => rw [hpar, hb]
      · exact absurd hmem (hfresh bucket')
    · next hne =>
      refine h.own bucket' id par' ?_ hid
      split at hmem
      · next hb =>
        rw [hb]
        simpa [hne] using hmem
      · exact hmem
  incarnation id grant hid := by
    replace hid : (σ.grants.set newId (some ⟨par, created⟩))[id]? = some grant := hid
    rw [Table.getElem?_set] at hid
    split at hid
    · cases hid
      refine .inr fun created' hcreated' ↦ ?_
      replace hcreated' : σ.world.buckets[par.bucket]? = some created' := hcreated'
      rw [hpar, hbucket] at hcreated'
      exact (Option.some.inj hcreated').symm
    · exact (h.incarnation id grant hid).imp_left fun hexpires ↦ hexpires.trans hclock

/-- A PAR is gone, and the lists of the buckets hold at least the others. -/
theorem System.Truthful.delete (h : σ.Truthful) (hclock : σ.clock ≤ now) {id : Text} {w : World}
    (hpars : w.pars = σ.world.pars.set id none) (hbuckets : w.buckets = σ.world.buckets)
    (hindex : ∀ bucket id', id' ∈ w.indexOf bucket → id' ∈ σ.world.indexOf bucket)
    (hindex' : ∀ bucket id', id' ≠ id → id' ∈ σ.world.indexOf bucket → id' ∈ w.indexOf bucket) :
    ({ world := w, clock := now, grants := σ.grants.set id none } : System).Truthful where
  mirror id' := by
    show (σ.grants.set id none)[id']?.map Grant.par = w.pars[id']?
    rw [hpars, Table.getElem?_set, Table.getElem?_set, apply_ite (Option.map Grant.par), h.mirror]
    rfl
  listed id' par' hid := by
    replace hid : w.pars[id']? = some par' := hid
    rw [hpars, Table.getElem?_set] at hid
    split at hid
    · exact absurd hid (by simp)
    · next hne => exact hindex' _ _ hne (h.listed id' par' hid)
  own bucket id' par' hmem hid := by
    replace hid : w.pars[id']? = some par' := hid
    rw [hpars, Table.getElem?_set] at hid
    split at hid
    · exact absurd hid (by simp)
    · exact h.own bucket id' par' (hindex _ _ hmem) hid
  incarnation id' grant hid := by
    replace hid : (σ.grants.set id none)[id']? = some grant := hid
    rw [Table.getElem?_set] at hid
    split at hid
    · exact absurd hid (by simp)
    · rw [hbuckets]
      exact (h.incarnation id' grant hid).imp_left fun hexpires ↦ hexpires.trans hclock

/-- **An orderly step keeps the records true.** -/
theorem System.Truthful.apply (h : σ.Truthful) (hclock : σ.clock ≤ now) {e : Event}
    (hfresh : e.Fresh σ.world) (horderly : e.Orderly σ now) :
    (σ.apply parseRfc3339 now e).Truthful := by
  cases e with
  | createBucket bucket =>
    unfold System.apply
    dsimp only
    split
    · exact h.tick hclock
    · refine ⟨h.mirror, h.listed, h.own, fun id grant hgrant ↦ ?_⟩
      by_cases hb : grant.par.bucket = bucket
      · refine (horderly id grant hgrant hb).imp_right fun hnow created hcreated ↦ ?_
        replace hcreated : (σ.world.buckets.set bucket (some now))[grant.par.bucket]? = some created :=
          hcreated
        rw [Table.getElem?_set, if_pos hb] at hcreated
        rw [← Option.some.inj hcreated, hnow]
      · refine (h.incarnation id grant hgrant).imp (fun hexpires ↦ hexpires.trans hclock)
          fun hsame created hcreated ↦ hsame created ?_
        replace hcreated : (σ.world.buckets.set bucket (some now))[grant.par.bucket]? = some created :=
          hcreated
        rwa [Table.getElem?_set, if_neg hb] at hcreated
  | deleteBucket bucket =>
    refine ⟨h.mirror, h.listed, h.own, fun id grant hgrant ↦ ?_⟩
    refine (h.incarnation id grant hgrant).imp (fun hexpires ↦ hexpires.trans hclock)
      fun hsame created hcreated ↦ hsame created ?_
    replace hcreated : (σ.world.buckets.set bucket none)[grant.par.bucket]? = some created := hcreated
    rw [Table.getElem?_set] at hcreated
    split at hcreated
    · exact absurd hcreated (by simp)
    · exact hcreated
  | objects uploads =>
    exact ⟨h.mirror, h.listed, h.own, fun id grant hgrant ↦
      (h.incarnation id grant hgrant).imp_left fun hexpires ↦ hexpires.trans hclock⟩
  | control bucket control newId n =>
    unfold System.apply
    dsimp only
    obtain ⟨hw, hgrants⟩ | ⟨document, par, created, rfl, hn, hbucket, hpar, hw, hgrants⟩ |
      ⟨id, rfl, hn, -, hw, hgrants⟩ :=
        control_cases parseRfc3339 σ bucket newId control n now
    · have hsame : (if n = 0 then σ.grants
          else granted parseRfc3339 σ bucket control newId now) = σ.grants := by
        rcases hgrants with rfl | hgrants
        · rfl
        · rw [hgrants, ite_self]
      rw [hw, hsame]
      exact h.tick hclock
    · have hn1 : n ≠ 1 := horderly
      rw [hw, hgrants, if_neg hn1, if_neg hn]
      exact h.create hclock hbucket hpar hfresh.2
    · rw [hw, hgrants, if_neg hn]
      refine h.delete hclock ?_ ?_ ?_ ?_
      · split <;> rfl
      · split <;> rfl
      · intro bucket' id' hmem
        split at hmem
        · exact hmem
        · rw [indexOf_updateIndex, indexOf_savePar, indexOf_savePar] at hmem
          split at hmem
          · next hb => exact hb ▸ (List.mem_filter.1 hmem).1
          · exact hmem
      · intro bucket' id' hne hmem
        split
        · exact hmem
        · rw [indexOf_updateIndex, indexOf_savePar, indexOf_savePar]
          split
          · next hb => exact List.mem_filter.2 ⟨hb ▸ hmem, by simpa using hne⟩
          · exact hmem

theorem Reached.truthful (h : Reached parseRfc3339 σ) : σ.Truthful := by
  induction h with
  | start => exact ⟨fun _ ↦ rfl, by simp [World.indexOf], by simp [World.indexOf], by simp⟩
  | step _ hclock hfresh horderly ih => exact ih.apply hclock hfresh horderly

/-! ### The main result -/

/-- What a token may do: the grant behind it is the one of a PAR that has not expired, covers the
access and was made for this bucket incarnation. -/
structure Allowed (σ : System) (now : Time) (token : Text) (access : Access) (created : Time)
    (grant : Grant) : Prop where
  granted : σ.grants[token]? = some grant
  unexpired : now < grant.par.timeExpires
  covers : grant.par.Covers σ.world access
  incarnation : created = grant.created

/-- **Pre-authenticated requests are confined.** After every run of orderly steps, an access to the
data of a bucket that is there is one that the token allows; the PAR of the token is on the list of
its bucket; and a control request under a bucket tells of PARs of that bucket only, and leaves the
records of all others. -/
theorem pars_are_confined (h : Reached parseRfc3339 σ) (hnow : σ.clock ≤ now) :
    (∀ (K : Crates) (req : Request) (access : Access) (created : Time),
      handleParRequest K σ.world req now = .ok access →
      σ.world.buckets[access.bucket]? = some created →
      ∃ token suffix grant, parToken req.path = some (token, suffix) ∧
        Allowed σ now token access created grant ∧
        ∃ pars, (handleParControl parseRfc3339 σ.world access.bucket .list [] now).1 = .ok pars ∧
          grant.par ∈ pars) ∧
    (∀ (bucket newId : Text) (control : ParControl) (n : ℕ), control.AtHome σ.world bucket →
      (Event.control bucket control newId n).Fresh σ.world →
      (∀ pars, (handleParControl parseRfc3339 σ.world bucket control newId now).1 = .ok pars →
        ∀ par ∈ pars, par.bucket = bucket) ∧
      ∀ (id : Text) (par : Par), σ.world.pars[id]? = some par → par.bucket ≠ bucket →
        (controlled parseRfc3339 σ.world bucket control newId n now).pars[id]? = some par) := by
  have htrue := h.truthful
  refine ⟨fun K req access created haccess hbucket ↦ ?_, fun bucket newId control n hhome hfresh ↦
    ⟨fun pars hpars par hpar ↦ ?_, fun id par hpar hne ↦ ?_⟩⟩
  · obtain ⟨token, suffix, par, htoken, hpar, hexpires, hcovers⟩ := handleParRequest_eq_ok haccess
    have hmirror := htrue.mirror token
    rw [hpar] at hmirror
    obtain ⟨grant, hgrant, rfl⟩ := Option.map_eq_some_iff.1 hmirror
    refine ⟨token, suffix, grant, htoken, ⟨hgrant, hexpires, hcovers, ?_⟩, ?_⟩
    · rcases htrue.incarnation token grant hgrant with hold | hsame
      · exact absurd (hexpires.trans_le (hold.trans hnow)) (lt_irrefl _)
      · exact hsame created (hcovers.bucket ▸ hbucket)
    · refine ⟨listPars σ.world access.bucket now, by simp [handleParControl, hbucket], ?_⟩
      refine List.mem_filter.2 ⟨List.mem_filterMap.2 ⟨token, ?_, hpar⟩, by simpa using hexpires⟩
      rw [hcovers.bucket]
      exact htrue.listed token _ hpar
  · unfold handleParControl at hpars
    split at hpars
    · exact absurd hpars (by simp)
    · next hnone =>
      have hthere : σ.world.buckets[bucket]?.isSome := by simpa [Option.isSome_iff_ne_none] using hnone
      cases control with
      | create document =>
        dsimp only at hpars
        split at hpars
        · exact absurd hpars (by simp)
        · next par' hdocument =>
          cases hpars
          obtain rfl := List.mem_singleton.1 hpar
          exact parseDocument_bucket hdocument
      | list =>
        cases hpars
        obtain ⟨id, hid, hload⟩ := List.mem_filterMap.1 (List.mem_filter.1 hpar).1
        exact htrue.own bucket id par hid hload
      | get id =>
        dsimp only at hpars
        split at hpars
        · exact absurd hpars (by simp)
        · next par' hload =>
          cases hpars
          obtain rfl := List.mem_singleton.1 hpar
          exact hhome hthere par hload
      | delete id =>
        dsimp only at hpars
        split at hpars
        · exact absurd hpars (by simp)
        · next par' hload =>
          cases hpars
          obtain rfl := List.mem_singleton.1 hpar
          exact hhome hthere par hload
  · obtain ⟨hw, -⟩ | ⟨document, par', _, rfl, -, -, -, hw, -⟩ | ⟨id', rfl, -, hthere, hw, -⟩ :=
      control_cases parseRfc3339 σ bucket newId control n now
    · rw [hw, hpar]
    · have hid : id ≠ newId := by
        rintro rfl
        exact absurd (hfresh.1.symm.trans hpar) (by simp)
      have hset : (σ.world.pars.set newId (some par'))[id]? = some par := by
        rw [Table.getElem?_set, if_neg hid, hpar]
      rw [hw]
      split
      · exact hset
      · exact hset
    · have hid : id ≠ id' := by
        rintro rfl
        exact hne (hhome hthere par hpar)
      have hset : (σ.world.pars.set id' none)[id]? = some par := by
        rw [Table.getElem?_set, if_neg hid, hpar]
      rw [hw]
      split
      · exact hset
      · exact hset

/-! ### A bucket with one PAR -/

/-- A reader of times for the examples. -/
def sampleExpiry (time : Text) : Option Time :=
  if time = "2030-01-01T00:00:00Z".toList then some 100 else none

/-- A PAR that reads any object of the bucket `b`. -/
def sampleControl : ParControl :=
  .create (some ⟨some "par".toList, some "AnyObjectRead", none, some "2030-01-01T00:00:00Z".toList⟩)

/-- The bucket `b` is created, and its PAR with the token `t`, of which `n` writes are made. -/
def sampleSystem (n : ℕ) : System :=
  (System.apply sampleExpiry {} 1 (.createBucket "b".toList)).apply sampleExpiry 2
    (.control "b".toList sampleControl "t".toList n)

/-- The bucket is deleted and created again. -/
def sampleAgain : System :=
  ((sampleSystem 2).apply sampleExpiry 3 (.deleteBucket "b".toList)).apply sampleExpiry 4
    (.createBucket "b".toList)

/-- An object is read with the token. -/
def sampleRead : Request where
  method := "GET".toList
  path := "/p/t/n/".toList ++ ociNamespace ++ "/b/b/o/key".toList
  method_token := Auth.plain_get
  headers_names := Auth.names_of_no_headers
  headers_values := Auth.values_of_no_headers
  hint_plain := Auth.plain_of_no_hint
  method_word := word_get
  path_plain := by decide
  query_plain := plain_of_no_query
  headers_tokens := tokens_of_no_headers

theorem sampleSystem_reached : Reached sampleExpiry (sampleSystem 2) := by
  refine .step (.step .start ?_ trivial ?_) ?_ ?_ ?_
  · decide
  · intro id grant hgrant
    exact absurd hgrant (by simp)
  · decide
  · exact ⟨by decide, fun bucket ↦ by simp [World.indexOf, System.apply]⟩
  · show 2 ≠ 1
    decide

/-- The token reads the object that it is for. -/
theorem token_reads_object : ∃ token suffix grant,
    parToken sampleRead.path = some (token, suffix) ∧
    Allowed (sampleSystem 2) 5 token (.getObject "b".toList "key".toList) 1 grant := by
  have haccess : handleParRequest sampleCrates (sampleSystem 2).world sampleRead 5 =
      .ok (.getObject "b".toList "key".toList) := by decide
  obtain ⟨token, suffix, grant, htoken, hallowed, -⟩ :=
    (pars_are_confined sampleSystem_reached (by decide : (sampleSystem 2).clock ≤ 5)).1 sampleCrates sampleRead
      (.getObject "b".toList "key".toList) 1 haccess (by decide)
  exact ⟨token, suffix, grant, htoken, hallowed⟩

/-- The token reads from a bucket of the same name that has been created later; another bucket's
path tells of the PAR; and a PAR whose creation is stopped between its writes can be used and is not
on the list. -/
theorem pars_are_not_confined :
    (handleParRequest sampleCrates sampleAgain.world sampleRead 5 =
        .ok (.getObject "b".toList "key".toList) ∧
      sampleAgain.world.buckets["b".toList]? = some 4 ∧
      sampleAgain.grants["t".toList]?.map Grant.created = some 1) ∧
    (let σ := (sampleSystem 2).apply sampleExpiry 3 (.createBucket "c".toList)
     (handleParControl sampleExpiry σ.world "c".toList (.get "t".toList) [] 5).1.toOption.map
       (·.map Par.bucket) = some ["b".toList]) ∧
    (handleParRequest sampleCrates (sampleSystem 1).world sampleRead 5 =
        .ok (.getObject "b".toList "key".toList) ∧
      (handleParControl sampleExpiry (sampleSystem 1).world "b".toList .list [] 5).1 = .ok []) := by
  decide

end Sqrzl.Oci
