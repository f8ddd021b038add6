import SqrzlEmulator.Storage.VersionReads

/-!
# No version is lost

The current object is in one place and the versions before it are in another, and every call moves
versions between the two by a rule of its own: a write and a delete keep the current version first,
the deletion of a version may promote another one, and the switch of versioning names an object that
has no identity. **A version with an identity other than `null` survives all of them with its bytes
and its ETag, until it is deleted itself** (`no_version_is_lost`).

A write that fails may leave the current version in both places. The invariant is that the two then
have one body (`History.Coherent`); their metadata may differ, since only the current object is
updated. Without versioning no identity is given, so that nothing is lost when nothing is kept
(`History.Tracked`).
-/

namespace Sqrzl

open Prog

namespace History

variable {E : Env} {key : Text} {v : Option VersioningState} {n : ℕ} {H H' : History}
  {id : String} {data : Bytes} {etag : String}

/-- Two versions with the same bytes and the same ETag. -/
def SameBody (st st' : Stored) : Prop := st.1 = st'.1 ∧ st.2.etag = st'.2.etag

/-- **What is kept under the identity of the current version has its body.** -/
def Coherent (H : History) : Prop :=
  ∀ st st', H.current = some st → H.versions (keptId st.2) = some st' → SameBody st' st

/-- The version `id` is there, with the given bytes and ETag. -/
def Holds (H : History) (id : String) (data : Bytes) (etag : String) : Prop :=
  ∃ o, H.Entry id (data, o) ∧ o.etag = etag

theorem Agrees.coherent (h : H.Agrees) : H.Coherent := by
  intro st st' hcurrent hversion
  rcases h st hcurrent with hnone | hkept
  · rw [hnone] at hversion
    cases hversion
  · rw [hkept] at hversion
    obtain rfl := Option.some.inj hversion
    exact ⟨rfl, rfl⟩

theorem Coherent.snapshot (h : H.Coherent) (v : Option VersioningState) :
    (H.snapshot v).Coherent := by
  intro st st' hcurrent hversion
  rw [current_snapshot] at hcurrent
  obtain heq | ⟨st₁, hst₁, -, -, heq⟩ := versions_snapshot v H (keptId st.2)
  · rw [heq] at hversion
    exact h st st' hcurrent hversion
  · obtain rfl := Option.some.inj (hcurrent.symm.trans hst₁)
    rw [heq] at hversion
    obtain rfl := Option.some.inj hversion
    exact ⟨rfl, rfl⟩

/-- A change of the metadata that keeps the identity and the ETag. -/
theorem Coherent.rewrite (h : H.Coherent) {o o' : Object} (hcurrent : H.current = some (data, o))
    (hid : keptId o' = keptId o) (hetag : o'.etag = o.etag) :
    ({ H with current := some (data, o'.serialized) } : History).Coherent := by
  rintro _ st' ⟨⟩ hversion
  have hkept : keptId o'.serialized = keptId o := hid
  rw [hkept] at hversion
  obtain ⟨hdata, hetag'⟩ := h _ st' hcurrent hversion
  exact ⟨hdata, hetag'.trans hetag.symm⟩

theorem Coherent.deleteVersion (h : H.Coherent) (hsound : H.Sound key) {promoted : Option Stored}
    (hpromotes : H.Promotes id promoted) :
    (H.deleteVersion id promoted (H.clears id)).Coherent := by
  intro st st' hst hversion
  rw [versions_deleteVersion] at hversion
  split at hversion
  · cases hversion
  · next hgone =>
    obtain hcurrent | rfl := current_deleteVersion_cases hst
    · exact h st st' hcurrent hversion
    · obtain ⟨-, -, j, hid, -⟩ := hpromotes.publishable hsound st.1 st.2 rfl
      refine absurd (.inr ?_) hgone
      rw [Option.bind_some, hid, keptId, hid]
      rfl

/-! ### What a call does to a version -/

/-- A version with an identity other than `null` survives a snapshot, with its body. -/
theorem Holds.snapshot (h : H.Holds id data etag) (hcoherent : H.Coherent)
    (v : Option VersioningState) : (H.snapshot v).Holds id data etag := by
  obtain ⟨o, hversion | ⟨hcurrent, hid⟩, rfl⟩ := h
  · obtain heq | ⟨st, hst, -, rfl, heq⟩ := versions_snapshot v H id
    · exact ⟨o, .inl (heq.trans hversion), rfl⟩
    · obtain ⟨hdata, hetag⟩ := hcoherent st _ hst hversion
      refine ⟨(kept st).2, .inl ?_, hetag.symm⟩
      rw [heq]
      exact congrArg (fun d ↦ some (d, (kept st).2)) hdata.symm
  · exact ⟨o, .inr ⟨(current_snapshot v).trans hcurrent, hid⟩, rfl⟩

/-- **A version that is about to be replaced is kept**, unless it is the one without versioning. -/
theorem Holds.kept (h : H.Holds id data etag) (hcoherent : H.Coherent)
    (hnull : id ≠ "null") (hplain : v = none → H.current.bind (·.2.versionId) ≠ some id) :
    ∃ o, (H.snapshot v).versions id = some (data, o) ∧ o.etag = etag := by
  obtain ⟨o, hversion | ⟨hcurrent, hid⟩, rfl⟩ := h.snapshot hcoherent v
  · exact ⟨o, hversion, rfl⟩
  · rw [current_snapshot] at hcurrent
    cases v with
    | none => exact absurd (by rw [hcurrent]; exact hid) (hplain rfl)
    | some v =>
      have hkept : keptId o = id := by rw [keptId, hid]; rfl
      rw [snapshot_of_keep hcurrent (.inr (hkept.symm ▸ hnull))]
      exact ⟨_, if_pos hkept.symm, rfl⟩

theorem Holds.put (h : H.Holds id data etag) (hcoherent : H.Coherent) (hnull : id ≠ "null")
    (hplain : v = none → H.current.bind (·.2.versionId) ≠ some id) (new : Option String)
    (body : Bytes) (o : Object) : (H.put v new body o).Holds id data etag := by
  obtain ⟨o', hversion, hetag⟩ := h.kept hcoherent hnull hplain
  refine ⟨o', .inl ?_, hetag⟩
  rw [versions_put, if_neg fun h ↦ hnull h.2]
  exact hversion

theorem Holds.delete (h : H.Holds id data etag) (hcoherent : H.Coherent) (hnull : id ≠ "null")
    (hplain : v = none → H.current.bind (·.2.versionId) ≠ some id) {marker : Option Object}
    (hmarker : marker.bind (·.versionId) ≠ some id) : (H.delete v marker).Holds id data etag := by
  obtain ⟨o', hversion, hetag⟩ := h.kept hcoherent hnull hplain
  refine ⟨o', .inl ?_, hetag⟩
  rw [versions_delete, if_neg hmarker, if_neg fun h ↦ hnull h.2]
  exact hversion

theorem Holds.rewrite (h : H.Holds id data etag) {body : Bytes} {o o' : Object}
    (hcurrent : H.current = some (body, o)) (hid : o'.versionId = o.versionId)
    (hetag : o'.etag = o.etag) :
    ({ H with current := some (body, o'.serialized) } : History).Holds id data etag := by
  obtain ⟨o₁, hversion | ⟨hst, hid₁⟩, rfl⟩ := h
  · exact ⟨o₁, .inl hversion, rfl⟩
  · obtain ⟨rfl, rfl⟩ := Prod.mk.inj (Option.some.inj (hcurrent.symm.trans hst))
    exact ⟨o'.serialized, .inr ⟨rfl, hid.trans hid₁⟩, hetag⟩

theorem Holds.nameNull (h : H.Holds id data etag) {body : Bytes} {o o' : Object}
    (hcurrent : H.current = some (body, o)) (hid : o.versionId = none) :
    ({ H with current := some (body, o') } : History).Holds id data etag := by
  obtain ⟨o₁, hversion | ⟨hst, hid₁⟩, rfl⟩ := h
  · exact ⟨o₁, .inl hversion, rfl⟩
  · obtain ⟨-, rfl⟩ := Prod.mk.inj (Option.some.inj (hcurrent.symm.trans hst))
    rw [hid] at hid₁
    cases hid₁

theorem Holds.deleteVersion {j : String} (h : H.Holds id data etag) (hsound : H.Sound key)
    (hne : id ≠ j) {promoted : Option Stored} (hpromotes : H.Promotes j promoted) :
    (H.deleteVersion j promoted (H.clears j)).Holds id data etag := by
  obtain ⟨o, hentry, hetag⟩ := h
  exact ⟨o, ((hpromotes.without hsound).others id hne _).2 hentry, hetag⟩

/-- A marker gets an identity that no version has. -/
theorem Holds.ne_marker (h : H.Holds id data etag) (hdrawn : H.Drawn E n) (hnull : id ≠ "null")
    (now : Time) : (markerFor E v n now key).bind (·.versionId) ≠ some id := by
  intro hmarker
  obtain ⟨m, hm, hid⟩ := Option.bind_eq_some_iff.1 hmarker
  obtain ⟨new, hnew, rfl⟩ := markerFor_eq_some hm
  obtain rfl : new = id := Option.some.inj hid
  obtain ⟨o, hentry, -⟩ := h
  rcases v with _ | _ | _
  · cases hnew
  · obtain rfl : E.uuid n = new := Option.some.inj hnew
    obtain hnull' | ⟨m, hm, huuid⟩ := hdrawn _ (has_iff_entry.2 ⟨_, hentry⟩)
    · exact hnull hnull'
    · exact absurd (E.uuid_injective huuid) hm.ne'
  · exact hnull (Option.some.inj hnew).symm

/-- **Reading a version finds its body.** -/
theorem Holds.find (h : H.Holds id data etag) (hcoherent : H.Coherent) :
    ∃ o, H.find id = some (data, o) ∧ o.etag = etag := by
  obtain ⟨o, hversion | ⟨hcurrent, hid⟩, rfl⟩ := h
  · exact ⟨o, by rw [History.find, hversion]; rfl, rfl⟩
  · have hkept : keptId o = id := by rw [keptId, hid]; rfl
    cases hversion : H.versions id with
    | none =>
      refine ⟨o, ?_, rfl⟩
      rw [History.find, hversion, hcurrent, Option.filter_some, if_pos (decide_eq_true hid)]
      rfl
    | some st =>
      have hbody := hcoherent _ st hcurrent (hkept.symm ▸ hversion)
      obtain ⟨hdata, hetag⟩ := hbody
      refine ⟨st.2, ?_, hetag⟩
      rw [History.find, hversion]
      exact congrArg (fun d ↦ some (d, st.2)) hdata

/-- What the calls keep, beside the history being filed. -/
structure Tracked (v : Option VersioningState) (H : History) : Prop where
  coherent : H.Coherent
  /-- Without versioning, no new identity is given. -/
  plain : v = none → ∀ id, H.current.bind (·.2.versionId) = some id → id = "null"

theorem Tracked.ne (h : H.Tracked v) (hnull : id ≠ "null") (hv : v = none) :
    H.current.bind (·.2.versionId) ≠ some id :=
  fun hid ↦ hnull (h.plain hv id hid)

theorem Tracked.snapshot (h : H.Tracked v) : (H.snapshot v).Tracked v where
  coherent := h.coherent.snapshot v
  plain hv := by
    rw [current_snapshot]
    exact h.plain hv

theorem Tracked.put (hdrawn : H.Drawn E n) (hplain : v = none → H.versions = fun _ ↦ none)
    (o : Object) : (H.put v (versionIdFor E v n) data o).Tracked v where
  coherent := (agrees_put hdrawn hplain).coherent
  plain := by
    rintro rfl id hid
    cases hid

theorem Tracked.rewrite (h : H.Tracked v) {o o' : Object} (hcurrent : H.current = some (data, o))
    (hid : o'.versionId = o.versionId) (hetag : o'.etag = o.etag) :
    ({ H with current := some (data, o'.serialized) } : History).Tracked v where
  coherent := h.coherent.rewrite hcurrent (congrArg (Option.getD · "null") hid) hetag
  plain hv id hnew := h.plain hv id (by rw [hcurrent]; exact hid.symm.trans hnew)

theorem Tracked.nameNull (h : H.Tracked v) {o : Object} (hcurrent : H.current = some (data, o))
    (hid : o.versionId = none) :
    ({ H with current := some (data, (o.withVersionId (some "null")).serialized) } :
      History).Tracked v where
  coherent := h.coherent.rewrite hcurrent (by rw [keptId, keptId, hid]; rfl) rfl
  plain _ _ hnew := (Option.some.inj hnew).symm

theorem Tracked.deleteVersion (h : H.Tracked v) (hsound : H.Sound key)
    (hplain : v = none → H.versions = fun _ ↦ none) {promoted : Option Stored}
    (hpromotes : H.Promotes id promoted) :
    (H.deleteVersion id promoted (H.clears id)).Tracked v where
  coherent := h.coherent.deleteVersion hsound hpromotes
  plain hv j hj := by
    obtain ⟨st, hst, hid⟩ := Option.bind_eq_some_iff.1 hj
    obtain hcurrent | rfl := current_deleteVersion_cases hst
    · exact h.plain hv j (by rw [hcurrent]; exact hid)
    · obtain ⟨-, -, k, -, -, hk⟩ := hpromotes.publishable hsound st.1 st.2 rfl
      rw [hplain hv] at hk
      cases hk

end History

namespace ObjectCall

variable {E : Env} {b : String} {key : Text} {s : BucketState} {H H' : History}
  {r : Except Error Bool}

/-- What a call keeps of a history: it stays tracked, and the versions that it does not delete stay
there with their bodies. -/
structure Spares (v : Option VersioningState) (deleted : String → Prop) (H H' : History) :
    Prop where
  tracked : H'.Tracked v
  holds : ∀ id data etag, id ≠ "null" → ¬ deleted id → H.Holds id data etag →
    H'.Holds id data etag

variable {v : Option VersioningState} {deleted : String → Prop}

theorem Spares.refl (h : H.Tracked v) : Spares v deleted H H := ⟨h, fun _ _ _ _ _ h ↦ h⟩

theorem Spares.snapshot (h : H.Tracked v) : Spares v deleted H (H.snapshot v) :=
  ⟨h.snapshot, fun _ _ _ _ _ hheld ↦ hheld.snapshot h.coherent v⟩

theorem Writes.spares {o : Object} {source : BodySource} (hH : Keeps E b key s H)
    (htracked : H.Tracked (s.dir.bind (·.versioning))) (h : Writes E s H o source r H') :
    Spares (s.dir.bind (·.versioning)) deleted H H' := by
  rcases r with e | _ | _
  · obtain ⟨-, rfl⟩ := h
    exact .snapshot htracked
  · obtain rfl : H' = H := h
    exact .refl htracked
  · obtain ⟨data, -, -, rfl⟩ := h
    exact ⟨.put hH.drawn hH.plain o, fun id data etag hnull _ hheld ↦
      hheld.put htracked.coherent hnull (htracked.ne hnull) _ _ _⟩

theorem Updates.spares {update : Object → Object} (htracked : H.Tracked v)
    (h : Updates update H r H') (hid : ∀ o, (update o).versionId = o.versionId)
    (hetag : ∀ o, (update o).etag = o.etag) : Spares v deleted H H' := by
  rcases r with e | _
  · obtain ⟨-, -, rfl⟩ := h
    exact .refl htracked
  · obtain ⟨-, data, o, hst, rfl⟩ := h
    exact ⟨htracked.rewrite hst (hid o) (hetag o), fun _ _ _ _ _ hheld ↦
      hheld.rewrite hst (hid o) (hetag o)⟩

/-- The version that a call has deleted. -/
def Deleted (call : ObjectCall) (r : Except Error Bool) (id : String) : Prop :=
  call = .deleteObjectVersion id ∧ r.isOk = true

/-- **Every call spares the versions**, but the one that it has deleted. -/
theorem Effect.spares {call : ObjectCall} (hH : Keeps E b key s H)
    (htracked : H.Tracked (s.dir.bind (·.versioning))) (h : call.Effect E key s H r H') :
    Spares (s.dir.bind (·.versioning)) (call.Deleted r) H H' := by
  cases call with
  | current call =>
    obtain ⟨-, h⟩ := h
    unfold Changes at h
    cases hwritten : call.written with
    | some o =>
      rw [hwritten] at h
      exact h.spares hH htracked
    | none =>
      rw [hwritten] at h
      rcases r with e | _ | _
      · obtain rfl : H' = H := h
        exact .refl htracked
      · obtain rfl : H' = H := h
        exact .refl htracked
      · obtain ⟨now, rfl⟩ := h
        refine ⟨⟨fun st st' hcurrent ↦ (by cases hcurrent), fun _ id hid ↦ (by cases hid)⟩,
          fun id data etag hnull _ hheld ↦ ?_⟩
        exact hheld.delete htracked.coherent hnull (htracked.ne hnull)
          (hheld.ne_marker hH.drawn hnull now)
  | completeUpload o name completion =>
    obtain h | ⟨e, rfl, rfl⟩ := h
    · exact h.spares hH htracked
    · exact .refl htracked
  | deleteObjectVersion j =>
    rcases r with e | _
    · obtain ⟨-, -, rfl⟩ := h
      exact .refl htracked
    · obtain ⟨-, -, promoted, hpromotes, rfl⟩ := h
      refine ⟨htracked.deleteVersion hH.sound hH.plain hpromotes,
        fun id data etag _ hnot hheld ↦ hheld.deleteVersion hH.sound ?_ hpromotes⟩
      rintro rfl
      exact hnot ⟨rfl, rfl⟩
  | updateObjectStorageClass c => exact Updates.spares htracked h (fun _ ↦ rfl) fun _ ↦ rfl
  | putObjectAcl acl => exact Updates.spares htracked h (fun _ ↦ rfl) fun _ ↦ rfl
  | putObjectTags tags => exact Updates.spares htracked h (fun _ ↦ rfl) fun _ ↦ rfl
  | deleteObjectTags => exact Updates.spares htracked h (fun _ ↦ rfl) fun _ ↦ rfl
  | replaceObjectMetadataIfUnchanged observed updated =>
    rcases r with e | _ | _
    · exact h.elim
    · obtain ⟨rfl, -⟩ := h
      exact .refl htracked
    · obtain ⟨data, o, hst, -, rfl⟩ := h
      exact ⟨htracked.rewrite hst rfl rfl, fun _ _ _ _ _ hheld ↦ hheld.rewrite hst rfl rfl⟩
  | assignNullVersionId =>
    rcases r with e | _
    · exact h.elim
    · obtain ⟨-, rfl | ⟨data, o, hst, hid, rfl⟩⟩ := h
      · exact .refl htracked
      · exact ⟨htracked.nameNull hst hid, fun _ _ _ _ _ hheld ↦ hheld.nameNull hst hid⟩

end ObjectCall

/-! ### Reading a version -/

section Read

variable {E : Env} {b : String} {key : Text} {s : BucketState} {H : History} {id : String}

/-- What `get_object_version` returns. -/
def Stored.object (id : String) (st : Stored) : Object :=
  { st.2 with data := st.1, versionId := some id }

/-- **Reading a version returns what is found**, with its bytes. -/
theorem wp_readObjectVersionLocked (hdir : s.dir.isSome) (h : Keeps E b key s H) :
    wp (fun _ ↦ True) (readObjectVersionLocked E b key id) (fun r _ ↦
      r = (H.find id).elim (.error .noSuchVersion) fun st ↦ .ok (st.object id)) s := by
  simp only [readObjectVersionLocked, bind_eq, pure_eq, wp_bind, wp_read]
  refine ⟨trivial, ?_⟩
  rw [Option.isNone_eq_false_iff.2 hdir]
  simp only [Bool.false_eq_true, if_false]
  cases hvalid : validVersionId id with
  | false =>
    refine ⟨trivial, ?_⟩
    cases hfind : H.find id with
    | none => rfl
    | some st =>
      rw [(h.sound.find hfind).2.2] at hvalid
      cases hvalid
  | true =>
    simp only [Bool.not_true, Bool.false_eq_true, if_false, wp_bind]
    refine wp_recoverObjectDir (J := fun _ ↦ True) hdir h.ready (fun _ _ ↦ trivial)
      fun x hx _ ↦ ?_
    refine wp_recoverVersion hx fun y hy ↦ ?_
    rw [wp_read, versionBlob_withObject hy, Option.isNone_map]
    refine ⟨trivial, ?_⟩
    cases hversion : H.versions id with
    | some st =>
      obtain ⟨data, o⟩ := st
      have hfind : H.find id = some (data, o) := by rw [History.find, hversion]; rfl
      simp only [Option.isNone_some, Bool.false_eq_true, if_false, wp_bind]
      rw [wp_sysRead, versionMetadata_withObject hy, hversion]
      refine ⟨trivial, ?_⟩
      rw [Option.map_some]
      dsimp only
      rw [wp_sysRead, versionBlob_withObject hy, hversion]
      refine ⟨trivial, trivial, ?_⟩
      rw [hfind]
      rfl
    | none =>
      have hfind : H.find id = H.current.filter fun st ↦ st.2.versionId = some id := by
        rw [History.find, hversion]
        rfl
      simp only [Option.isNone_none, if_true, wp_bind]
      rw [wp_attempt]
      refine wp_readObjectLocked (J := fun _ ↦ True) rfl
        (by rw [objectIdDir_get_withObject]; exact hy.ready) (fun _ _ ↦ trivial) fun z hz _ ↦ ?_
      cases hcurrent : H.current with
      | none =>
        rw [hcurrent] at hfind
        rw [hfind]
        exact ⟨trivial, rfl⟩
      | some st =>
        obtain ⟨data, o⟩ := st
        rw [hcurrent] at hfind
        dsimp only
        by_cases hid : o.versionId = some id
        · rw [if_pos hid, hfind, Option.filter_some, if_pos (decide_eq_true hid)]
          have hobject : Stored.object id (data, o) = { o with data := data } := by
            rw [Stored.object, ← hid]
          exact ⟨trivial, congrArg Except.ok hobject.symm⟩
        · rw [if_neg hid, hfind, Option.filter_some, if_neg (by simpa using hid)]
          exact ⟨trivial, rfl⟩

end Read

/-! ### Runs -/

section Runs

variable {E : Env} {b : String} {key : Text} {s t : Store} {id : String}

/-- The states that are reached from `s` by calls on the key that do not delete the version `id`,
with anything else going on between them. -/
inductive Later (E : Env) (b : String) (key : Text) (id : String) (s : Store) : Store → Prop
  | refl : Later E b key id s s
  | call {t u : Store} {r : Except Error Bool} (h : Later E b key id s t) (call : ObjectCall)
      (hbucket : ((Store.bucket E b).get t).dir.isSome) (hnamed : call.Named key)
      (hret : (call.run E b key).Returns t r u) (hspared : ¬ call.Deleted r id) :
      Later E b key id s u
  | elsewhere {t u : Store} (h : Later E b key id s t) (hfree : u.objectLocks.cells = ∅)
      (hdir : ∀ H, Ready E ((objectIdDir E b key).get ((Store.bucket E b).get t)) H →
        Ready E ((objectIdDir E b key).get ((Store.bucket E b).get u)) H)
      (hversioning : ((Store.bucket E b).get u).dir.bind (·.versioning) = none →
        ((Store.bucket E b).get t).dir.bind (·.versioning) = none)
      (hdrawn : t.drawn ≤ u.drawn) : Later E b key id s u

/-- What is kept between two calls. -/
def Tracks (E : Env) (b : String) (key : Text) (s : Store) (H : History) : Prop :=
  Keeps E b key ((Store.bucket E b).get s) H ∧
    H.Tracked (((Store.bucket E b).get s).dir.bind (·.versioning))

theorem History.Tracked.mono {v v' : Option VersioningState} {H : History} (h : H.Tracked v)
    (hv : v' = none → v = none) : H.Tracked v' :=
  ⟨h.coherent, fun hnone ↦ h.plain (hv hnone)⟩

/-- A call leaves a history that is tracked. -/
theorem Tracks.call {H : History} {call : ObjectCall} {r : Except Error Bool}
    (h : Tracks E b key s H) (hfree : s.objectLocks.cells = ∅)
    (hbucket : ((Store.bucket E b).get s).dir.isSome) (hnamed : call.Named key)
    (hret : (call.run E b key).Returns s r t) :
    ∃ H', Tracks E b key t H' ∧ call.Effect E key ((Store.bucket E b).get s) H r H' ∧
      ∀ id data etag, id ≠ "null" → ¬ call.Deleted r id → H.Holds id data etag →
        H'.Holds id data etag := by
  obtain ⟨-, ⟨H', hH', heffect⟩, -, hv⟩ := call.returns_run hfree hbucket h.1 hnamed hret
  have hspares := heffect.spares h.1 h.2
  refine ⟨H', ⟨hH', ?_⟩, heffect, hspares.holds⟩
  rw [hv]
  exact hspares.tracked

theorem Reached.tracks {allowed : ObjectCall → BucketState → Prop} (h : Reached E b key allowed s) :
    ∃ H, Tracks E b key s H := by
  induction h with
  | fresh hfree hnone =>
    exact ⟨{}, keeps_of_none hnone, ⟨fun _ _ hcurrent ↦ (by cases hcurrent), fun _ _ hid ↦
      (by cases hid)⟩⟩
  | call h call hbucket hnamed hallowed hret ih =>
    obtain ⟨H, hH⟩ := ih
    obtain ⟨H', hH', -⟩ := hH.call h.keeps.1 hbucket hnamed hret
    exact ⟨H', hH'⟩
  | elsewhere h hfree hdir hversioning hdrawn ih =>
    obtain ⟨H, hH, htracked⟩ := ih
    exact ⟨H, hH.congr (hdir H) hversioning hdrawn, htracked.mono hversioning⟩

/-- **The run lemma**: a version stays as long as it is not deleted. -/
theorem Later.holds {H : History} {data : Bytes} {etag : String} (h : Later E b key id s t)
    (hfree : s.objectLocks.cells = ∅) (hH : Tracks E b key s H) (hnull : id ≠ "null")
    (hheld : H.Holds id data etag) :
    t.objectLocks.cells = ∅ ∧ ∃ H', Tracks E b key t H' ∧ H'.Holds id data etag := by
  induction h with
  | refl => exact ⟨hfree, H, hH, hheld⟩
  | call h call hbucket hnamed hret hspared ih =>
    obtain ⟨hfree', H', hH', hheld'⟩ := ih
    obtain ⟨H'', hH'', -, hspares⟩ := hH'.call hfree' hbucket hnamed hret
    exact ⟨(call.returns_run hfree' hbucket hH'.1 hnamed hret).1, H'', hH'',
      hspares id data etag hnull hspared hheld'⟩
  | elsewhere h hfree' hdir hversioning hdrawn ih =>
    obtain ⟨-, H', ⟨hH', htracked⟩, hheld'⟩ := ih
    exact ⟨hfree', H', ⟨hH'.congr (hdir H') hversioning hdrawn, htracked.mono hversioning⟩, hheld'⟩

/-- What `get_object_version` returns. -/
theorem returns_getObjectVersion {H : History} (hfree : s.objectLocks.cells = ∅)
    (hbucket : ((Store.bucket E b).get s).dir.isSome)
    (hH : Keeps E b key ((Store.bucket E b).get s) H) (id : String) :
    (∃ t, (getObjectVersion E b key id).Returns s
      ((H.find id).elim (.error .noSuchVersion) fun st ↦ .ok (st.object id)) t) ∧
    ∀ r t, (getObjectVersion E b key id).Returns s r t →
      r = (H.find id).elim (.error .noSuchVersion) fun st ↦ .ok (st.object id) :=
  returns_eq_of_wp hfree (wp_readObjectVersionLocked hbucket hH)

/-- The bytes that a write publishes. -/
def ObjectCall.bytes (s : BucketState) : ObjectCall → Option Bytes
  | .current call => call.written.bind fun o ↦ (ObjectCall.source call).bytes o s
  | .completeUpload o name _ => (BodySource.scratch name).bytes o s
  | _ => none

/-- A write that has succeeded with versioning enabled has made a version. -/
theorem ObjectCall.Effect.holds {call : ObjectCall} {o : Object} {s : BucketState} {H H' : History}
    (h : call.Effect E key s H (.ok true) H') (hwritten : call.written = some o)
    (hv : s.dir.bind (·.versioning) = some .enabled) :
    ∃ data, call.bytes s = some data ∧ H'.Holds (E.uuid s.drawn) data o.etag := by
  have hwrites : ∀ {source : BodySource}, ObjectCall.Writes E s H o source (.ok true) H' →
      ∃ data, source.bytes o s = some data ∧ H'.Holds (E.uuid s.drawn) data o.etag := by
    rintro source ⟨data, hdata, -, rfl⟩
    rw [hv]
    exact ⟨data, hdata, _, .inr ⟨rfl, rfl⟩, rfl⟩
  cases call with
  | current call =>
    obtain ⟨-, h⟩ := h
    have hcall : call.written = some o := hwritten
    unfold ObjectCall.Changes at h
    rw [hcall] at h
    obtain ⟨data, hdata, hheld⟩ := hwrites h
    refine ⟨data, ?_, hheld⟩
    rw [ObjectCall.bytes, hcall]
    exact hdata
  | completeUpload o' name completion =>
    obtain rfl := Option.some.inj hwritten
    rcases h with h | ⟨e, he, -⟩
    · exact hwrites h
    · cases he
  | _ => cases hwritten

end Runs

end Sqrzl
