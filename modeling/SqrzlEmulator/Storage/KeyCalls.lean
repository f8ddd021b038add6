import SqrzlEmulator.Storage.HistorySteps

/-!
# The calls on a key

All the operations that may change the objects of a key, as programs under the mutex of the key, and
what each of them makes of the history of the key (`ObjectCall.Effect`).

`Keeps` is the invariant between two operations: the directory of the key stands for a history that
is filed, whose identities have been drawn. It holds in every state of the bucket that is reached by
calls on the key, with anything going on elsewhere between them: `Reached` is that, **without a
bound on the calls, the keys or the switches of versioning**. A call whose body is given, but not
the bytes that it says, fails after it may have kept the current version; the state that it leaves
is reached, too.
-/

namespace Sqrzl

open Prog

/-! ### Calls -/

/-- The operations that may change the objects of a key. -/
inductive ObjectCall where
  /-- A write or a delete of the current object. -/
  | current (call : KeyCall)
  /-- The publication of a multipart upload that has been assembled. -/
  | completeUpload (object : Object) (name : String) (completion : MultipartCompletion)
  | deleteObjectVersion (id : String)
  | updateObjectStorageClass (storageClass : String)
  | putObjectAcl (acl : Acl)
  | putObjectTags (tags : Table String String)
  | deleteObjectTags
  | replaceObjectMetadataIfUnchanged (observed updated : Object)
  /-- The step of turning versioning on or off that is about this key. -/
  | assignNullVersionId

namespace ObjectCall

section Programs

variable (E : Env) (b : String) (key : Text)

/-- What a call does under the mutex of the key. Calls that return nothing return `true`. -/
def body : ObjectCall → Op BucketState Bool
  | current call => (call.body E b key).bind fun r ↦ .ret (r.getD true)
  | completeUpload o name completion =>
    (publishCompleted E b key o name completion).bind fun _ ↦ .ret true
  | deleteObjectVersion id => (deleteObjectVersionLocked E b key id).bind fun _ ↦ .ret true
  | updateObjectStorageClass c =>
    (updateObjectStorageClassLocked E b key c).bind fun _ ↦ .ret true
  | putObjectAcl acl => (putObjectAclLocked E b key acl).bind fun _ ↦ .ret true
  | putObjectTags tags => (putObjectTagsLocked E b key tags).bind fun _ ↦ .ret true
  | deleteObjectTags => (deleteObjectTagsLocked E b key).bind fun _ ↦ .ret true
  | replaceObjectMetadataIfUnchanged observed updated =>
    replaceObjectMetadataIfUnchangedLocked E b key observed updated
  | assignNullVersionId =>
    (Sqrzl.assignNullVersionId E (E.computeObjectId b key)).bind fun _ ↦ .ret true

/-- Run a call. -/
def run : ObjectCall → Op Store Bool
  | current call => (call.run E b key).bind fun r ↦ .ret (r.getD true)
  | completeUpload o name completion =>
    (onObject E b key (publishCompleted E b key o name completion)).bind fun _ ↦ .ret true
  | deleteObjectVersion id => (Sqrzl.deleteObjectVersion E b key id).bind fun _ ↦ .ret true
  | updateObjectStorageClass c =>
    (Sqrzl.updateObjectStorageClass E b key c).bind fun _ ↦ .ret true
  | putObjectAcl acl => (Sqrzl.putObjectAcl E b key acl).bind fun _ ↦ .ret true
  | putObjectTags tags => (Sqrzl.putObjectTags E b key tags).bind fun _ ↦ .ret true
  | deleteObjectTags => (Sqrzl.deleteObjectTags E b key).bind fun _ ↦ .ret true
  | replaceObjectMetadataIfUnchanged observed updated =>
    Sqrzl.replaceObjectMetadataIfUnchanged E b key observed updated
  | assignNullVersionId =>
    (onObject E b key (Sqrzl.assignNullVersionId E (E.computeObjectId b key))).bind fun _ ↦
      .ret true

end Programs

/-- The object that a call writes. -/
def written : ObjectCall → Option Object
  | current call => call.written
  | completeUpload o _ _ => some o
  | _ => none

/-- The callers of a write name the object by the key that they write it to. -/
def Named (key : Text) (call : ObjectCall) : Prop :=
  ∀ o, call.written = some o → o.key = key

end ObjectCall

/-- What a program of a bucket returns, under the mutex of the key. -/
theorem onObject_bind_ret {E : Env} {b : String} {key : Text} {α β : Type} (p : Op BucketState α)
    (f : α → β) : (onObject E b key p).bind (fun a ↦ .ret (f a)) =
      onObject E b key (p.bind fun a ↦ .ret (f a)) := by
  rw [onObject, withLock_bind_ret, onObject, zoom_bind]
  rfl

/-- **A call is its body under the mutex of the key.** -/
theorem ObjectCall.run_eq (E : Env) (b : String) (key : Text) (call : ObjectCall) :
    call.run E b key = onObject E b key (call.body E b key) := by
  cases call with
  | current call =>
    rw [run, KeyCall.run_eq]
    exact onObject_bind_ret _ _
  | replaceObjectMetadataIfUnchanged observed updated => rfl
  | _ => exact onObject_bind_ret _ _

/-! ### What a call makes of the history -/

namespace ObjectCall

/-- Where the bytes of a write are. -/
def source : KeyCall → BodySource
  | .putObjectStreamed _ path => .spooled path
  | .putObjectStreamedIf _ path _ => .spooled path
  | _ => .inMemory

/-- What a write of `o` makes of the history: **a write that fails has kept the current
version**. -/
def Writes (E : Env) (s : BucketState) (H : History) (o : Object) (source : BodySource) :
    Except Error Bool → History → Prop
  | .ok true, H' => ∃ data, source.bytes o s = some data ∧ data.length = o.size ∧
      H' = H.put (s.dir.bind (·.versioning)) (versionIdFor E (s.dir.bind (·.versioning)) s.drawn)
        data o
  | .ok false, H' => H' = H
  | .error _, H' => ¬ source.Fits o s ∧ H' = H.snapshot (s.dir.bind (·.versioning))

/-- What the publication of an upload makes of the history: it may fail before the write. -/
def Completes (E : Env) (s : BucketState) (H : History) (o : Object) (name : String)
    (r : Except Error Bool) (H' : History) : Prop :=
  Writes E s H o (.scratch name) r H' ∨ ∃ e, r = .error e ∧ H' = H

/-- What a delete makes of the history. -/
def Deletes (E : Env) (key : Text) (s : BucketState) (H : History) :
    Except Error Bool → History → Prop
  | .ok true, H' => ∃ now, H' = H.delete (s.dir.bind (·.versioning))
      (markerFor E (s.dir.bind (·.versioning)) s.drawn now key)
  | _, H' => H' = H

/-- What the deletion of a version makes of the history. -/
def DeletesVersion (id : String) (H : History) : Except Error Bool → History → Prop
  | .ok r, H' => r = true ∧ H.Has id ∧
      ∃ promoted, H.Promotes id promoted ∧ H' = H.deleteVersion id promoted (H.clears id)
  | .error e, H' => e = .noSuchVersion ∧ ¬ H.Has id ∧ H' = H

/-- What a call makes of the history that puts `update` in place of the metadata. -/
def Updates (update : Object → Object) (H : History) : Except Error Bool → History → Prop
  | .ok r, H' => r = true ∧ ∃ data o, H.current = some (data, o) ∧
      H' = { H with current := some (data, (update o).serialized) }
  | .error e, H' => e = .keyNotFound ∧ H.current = none ∧ H' = H

/-- What `replace_object_metadata_if_unchanged` compares. -/
structure SameGuard (o observed : Object) : Prop where
  etag : o.etag = observed.etag
  lastModified : o.lastModified = observed.lastModified
  versionId : o.versionId = observed.versionId
  contentType : o.contentType = observed.contentType
  metadata : o.metadata = observed.metadata
  providerMetadata : o.providerMetadata = observed.providerMetadata

/-- The document with the three fields of an update in it. -/
def merge (o updated : Object) : Object :=
  { o with
    contentType := updated.contentType
    metadata := updated.metadata
    providerMetadata := updated.providerMetadata }

/-- What a replacement of the metadata makes of the history. -/
def Replaces (observed updated : Object) (H : History) : Except Error Bool → History → Prop
  | .ok true, H' => ∃ data o, H.current = some (data, o) ∧ SameGuard o observed ∧
      H' = { H with current := some (data, (merge o updated).serialized) }
  | .ok false, H' => H' = H ∧ ∀ data o, H.current = some (data, o) → ¬ SameGuard o observed
  | .error _, _ => False

/-- What naming an object without a version makes of the history. -/
def Names (H : History) : Except Error Bool → History → Prop
  | .ok r, H' => r = true ∧ (H' = H ∨ ∃ data o, H.current = some (data, o) ∧ o.versionId = none ∧
      H' = { H with current := some (data, (o.withVersionId (some "null")).serialized) })
  | .error _, _ => False

/-- What a write or a delete makes of the history. -/
def Changes (E : Env) (key : Text) (s : BucketState) (H : History) (call : KeyCall) :
    Except Error Bool → History → Prop :=
  match call.written with
  | some o => Writes E s H o (source call)
  | none => Deletes E key s H

/-- **What a call makes of the history**, by its result, when it is run on the state `s`. -/
def Effect (E : Env) (key : Text) (s : BucketState) (H : History) :
    ObjectCall → Except Error Bool → History → Prop
  | current call => fun r H' ↦
    (r = .ok false → call.condition.isSome) ∧ Changes E key s H call r H'
  | completeUpload o name _ => Completes E s H o name
  | deleteObjectVersion id => DeletesVersion id H
  | updateObjectStorageClass c => Updates (fun o ↦ { o with storageClass := c }) H
  | putObjectAcl acl => Updates (fun o ↦ { o with acl := some acl }) H
  | putObjectTags tags => Updates (fun o ↦ { o with tags := tags }) H
  | deleteObjectTags => Updates (fun o ↦ { o with tags := ∅ }) H
  | replaceObjectMetadataIfUnchanged observed updated => Replaces observed updated H
  | assignNullVersionId => Names H

end ObjectCall

/-! ### The invariant between two operations -/

section Invariant

variable {E : Env} {b : String} {key : Text} {s t : BucketState} {H H' : History}

/-- The bucket keeps the history `H` for the key. -/
structure Keeps (E : Env) (b : String) (key : Text) (s : BucketState) (H : History) : Prop where
  ready : Ready E ((objectIdDir E b key).get s) H
  plain : s.dir.bind (·.versioning) = none → H.versions = fun _ ↦ none
  sound : H.Sound key
  drawn : H.Drawn E s.drawn

theorem Keeps.size (h : Keeps E b key s H) :
    ∀ data o, H.current = some (data, o) → data.length = o.size :=
  fun data o hst ↦ (h.sound.current data o hst).1.size

/-- **A step leads from a history that is kept to one that is kept.** -/
theorem Keeps.next (h : Keeps E b key s H) {x : Option ObjectDir}
    (hstep : History.Step E key (s.dir.bind (·.versioning)) s.drawn t.drawn H H')
    (hx : Ready E x H') (hdir : (objectIdDir E b key).get t = x)
    (hv : t.dir.bind (·.versioning) = s.dir.bind (·.versioning)) (hn : s.drawn ≤ t.drawn) :
    Keeps E b key t H' where
  ready := hdir ▸ hx
  plain hnone := hstep.plain (hv ▸ hnone) (h.plain (hv ▸ hnone))
  sound := hstep.sound h.sound
  drawn := hstep.drawn hn h.drawn h.sound

theorem Keeps.recovered (h : Keeps E b key s H) {x : Option ObjectDir} (hx : Ready E x H) :
    Keeps E b key (withObject E b key x s) H :=
  h.next .keep hx (objectIdDir_get_withObject x) (versioning_withObject x) le_rfl

theorem Slot.ofStored_injective : Function.Injective Slot.ofStored := by
  rintro (_ | ⟨data, o⟩) (_ | ⟨data', o'⟩) h
  · rfl
  · cases h
  · cases h
  · obtain ⟨hdata, ho⟩ := Slot.mk.inj h
    rw [Option.some.inj hdata, Option.some.inj ho]

/-- **A directory stands for one history.** -/
theorem Keeps.unique (h : Keeps E b key s H) (h' : Keeps E b key s H') : H' = H := by
  refine History.ext (Slot.ofStored_injective ?_) (funext fun id ↦ Slot.ofStored_injective ?_)
  · exact h'.ready.stands.shows.current.symm.trans h.ready.stands.shows.current
  · exact (h'.ready.stands.shows.versions id).current.symm.trans
      (h.ready.stands.shows.versions id).current

/-- A bucket keeps a history while the directory of the key stands for it. -/
theorem Keeps.congr (h : Keeps E b key s H)
    (hdir : Ready E ((objectIdDir E b key).get s) H → Ready E ((objectIdDir E b key).get t) H)
    (hv : t.dir.bind (·.versioning) = none → s.dir.bind (·.versioning) = none)
    (hn : s.drawn ≤ t.drawn) : Keeps E b key t H where
  ready := hdir h.ready
  plain hnone := h.plain (hv hnone)
  sound := h.sound
  drawn := h.drawn.mono hn

/-- What a call leaves when it is run on the state `s`, which keeps `H`. -/
structure Leaves (E : Env) (b : String) (key : Text) (s : BucketState) (H : History)
    (effect : History → Prop) (t : BucketState) : Prop where
  keeps : ∃ H', Keeps E b key t H' ∧ effect H'
  dir : t.dir.isSome
  versioning : t.dir.bind (·.versioning) = s.dir.bind (·.versioning)

/-! ### Writes and deletes -/

theorem wp_writes {source : BodySource} {o : Object} (hdir : s.dir.isSome)
    (h : Keeps E b key s H) (hkey : o.key = key) :
    wp (fun _ ↦ True) (putObjectLockedWithPayload E b key o source) (fun r t ↦
      Leaves E b key s H (ObjectCall.Writes E s H o source (r.map fun _ ↦ true)) t) s := by
  refine wp_putObjectLockedWithPayload (J := fun _ ↦ True) hdir rfl h.ready h.size
    (fun _ _ _ _ _ _ ↦ trivial) (fun x a data hdata hlen hx ↦ ?_) fun e x a s' hbad hs' hx ↦ ?_
  · have hv : (withObject E b key x (source.rest s)).dir.bind (·.versioning) =
        s.dir.bind (·.versioning) := (versioning_withObject x).trans BodySource.versioning_rest
    refine ⟨⟨_, h.next (.put le_rfl hkey hlen) hx.ready ?_ hv (History.le_drawnFor _ _), data,
      hdata, hlen, rfl⟩, rfl, hv⟩
    exact objectIdDir_get_withObject x
  · have hv' : (withObject E b key x s').dir.bind (·.versioning) = s.dir.bind (·.versioning) := by
      rw [versioning_withObject]
      rcases hs' with rfl | rfl
      · rfl
      · exact BodySource.versioning_rest
    have hnot : ¬ source.Fits o s := by
      rintro ⟨data, hdata, hlen⟩
      exact hbad data hdata hlen
    have hkeeps : ∀ u : BucketState, u.dir = (withObject E b key x s').dir →
        u.drawn = drawnFor (s.dir.bind (·.versioning)) s.drawn → Leaves E b key s H
          (ObjectCall.Writes E s H o source (.error e)) u := by
      intro u hu hn
      refine ⟨⟨_, h.next .snapshot hx.ready ?_ (hu ▸ hv') (hn ▸ History.le_drawnFor _ _), hnot,
        rfl⟩, hu ▸ rfl, hu ▸ hv'⟩
      rw [objectIdDir, BucketState.objectLens_get, hu, ← BucketState.objectLens_get]
      exact objectIdDir_get_withObject x
    split
    · exact hkeeps _ rfl rfl
    · exact hkeeps _ rfl rfl

theorem wp_deletes (hdir : s.dir.isSome) (h : Keeps E b key s H) :
    wp (fun _ ↦ True) (deleteObjectLocked E b key) (fun r t ↦
      Leaves E b key s H (ObjectCall.Deletes E key s H (r.map fun _ ↦ true)) t) s := by
  refine wp_deleteObjectLocked (J := fun _ ↦ True) hdir rfl h.ready h.size h.plain
    (fun _ _ _ _ ↦ trivial) (fun x now _ hx ↦ ?_) fun _ _ x hx ↦ ?_
  · have hv : (withObject E b key x s).dir.bind (·.versioning) = s.dir.bind (·.versioning) :=
      versioning_withObject x
    refine ⟨⟨_, h.next (.delete le_rfl now) hx.ready ?_ hv (History.le_drawnFor _ _), now, rfl⟩,
      rfl, hv⟩
    exact objectIdDir_get_withObject x
  · exact ⟨⟨H, h.recovered hx.ready, rfl⟩, rfl, versioning_withObject x⟩

/-- What is left when a program runs on a state in which the directory of the key has been
recovered. -/
theorem Leaves.of_withObject {effect : History → Prop} {x : Option ObjectDir}
    (h : Leaves E b key (withObject E b key x s) H effect t) : Leaves E b key s H effect t where
  keeps := h.keeps
  dir := h.dir
  versioning := h.versioning.trans (versioning_withObject x)

theorem wp_mutateIf {c : ObjectCondition} {mutation : Op BucketState Unit}
    {P : Except Error Bool → History → Prop} (hdir : s.dir.isSome) (h : Keeps E b key s H)
    (hfalse : P (.ok false) H)
    (hmutation : ∀ x, Keeps E b key (withObject E b key x s) H →
      wp (fun _ ↦ True) mutation (fun r t ↦ Leaves E b key (withObject E b key x s) H
        (P (r.map fun _ ↦ true)) t) (withObject E b key x s)) :
    wp (fun _ ↦ True) (mutateIf E b key c mutation) (fun r t ↦
      Leaves E b key s H (P r) t) s := by
  simp only [mutateIf, bind_eq, pure_eq, wp_bind]
  refine wp_objectConditionMatches (J := fun _ ↦ True) c hdir h.ready (fun _ _ ↦ trivial)
    fun x hx _ ↦ ?_
  cases c.holds (H.current.map Prod.snd) with
  | false =>
    exact ⟨trivial, ⟨H, h.recovered hx, hfalse⟩, rfl, versioning_withObject x⟩
  | true =>
    show wp _ (mutation.bind fun _ ↦ ret true) _ _
    rw [wp_bind]
    refine wp_mono (hmutation x (h.recovered hx)) (fun _ ↦ id) ?_
    rintro (e | u) t - hleaves
    · exact hleaves.of_withObject
    · exact ⟨trivial, hleaves.of_withObject⟩

theorem ObjectCall.writes_withObject {o : Object} {source : BodySource} {x : Option ObjectDir}
    {r : Except Error Bool} (h : Writes E (withObject E b key x s) H o source r H') :
    Writes E s H o source r H' := by
  have hbytes : source.bytes o (withObject E b key x s) = source.bytes o s :=
    BodySource.bytes_withObject o x
  have hdrawn : (withObject E b key x s).drawn = s.drawn := rfl
  rcases r with e | _ | _ <;>
    simpa only [Writes, BodySource.Fits, versioning_withObject, hbytes, hdrawn] using h

/-- The effect of a write or a delete does not depend on the directory of the key. -/
theorem ObjectCall.changes_withObject {call : KeyCall} {x : Option ObjectDir}
    {r : Except Error Bool} (h : Changes E key (withObject E b key x s) H call r H') :
    Changes E key s H call r H' := by
  have hdrawn : (withObject E b key x s).drawn = s.drawn := rfl
  unfold Changes at h ⊢
  cases hwritten : call.written with
  | none =>
    rw [hwritten] at h
    rcases r with e | _ | _ <;> simpa only [Deletes, versioning_withObject, hdrawn] using h
  | some o =>
    rw [hwritten] at h
    exact writes_withObject h

theorem wp_keyCall (call : KeyCall) (hdir : s.dir.isSome) (h : Keeps E b key s H)
    (hnamed : ∀ o, call.written = some o → o.key = key) :
    wp (fun _ ↦ True) (call.body E b key) (fun r t ↦ Leaves E b key s H
      ((ObjectCall.current call).Effect E key s H (r.map (·.getD true))) t) s := by
  have hmutation : ∀ {u : BucketState}, u.dir.isSome → Keeps E b key u H →
      wp (fun _ ↦ True) (call.mutation E b key) (fun r t ↦ Leaves E b key u H
        (ObjectCall.Changes E key u H call (r.map fun _ ↦ true)) t) u := by
    intro u hu hkeeps
    cases call with
    | putObject o => exact wp_writes hu hkeeps (hnamed o rfl)
    | putObjectStreamed o path => exact wp_writes hu hkeeps (hnamed o rfl)
    | putObjectIf o c => exact wp_writes hu hkeeps (hnamed o rfl)
    | putObjectStreamedIf o path c => exact wp_writes hu hkeeps (hnamed o rfl)
    | deleteObject => exact wp_deletes hu hkeeps
    | deleteObjectIf c => exact wp_deletes hu hkeeps
  unfold KeyCall.body
  cases hc : call.condition with
  | none =>
    rw [wp_bind]
    refine wp_mono (hmutation hdir h) (fun _ ↦ id) ?_
    rintro (e | u) t - ⟨⟨H', hH', heffect⟩, ht, hv⟩
    · exact ⟨⟨H', hH', nofun, heffect⟩, ht, hv⟩
    · exact ⟨trivial, ⟨H', hH', nofun, heffect⟩, ht, hv⟩
  | some c =>
    rw [wp_bind]
    refine wp_mono (wp_mutateIf (P := ObjectCall.Changes E key s H call) hdir h ?_
      fun x hkeeps ↦ ?_) (fun _ ↦ id) ?_
    · cases call <;> rfl
    · refine wp_mono (hmutation rfl hkeeps) (fun _ ↦ id) fun r t _ hleaves ↦ ?_
      obtain ⟨⟨H', hH', heffect⟩, ht, hv⟩ := hleaves
      exact ⟨⟨H', hH', ObjectCall.changes_withObject heffect⟩, ht, hv⟩
    · have hsome : call.condition.isSome := by rw [hc]; rfl
      rintro (e | r) t - ⟨⟨H', hH', heffect⟩, ht, hv⟩
      · exact ⟨⟨H', hH', fun _ ↦ hsome, heffect⟩, ht, hv⟩
      · exact ⟨trivial, ⟨H', hH', fun _ ↦ hsome, heffect⟩, ht, hv⟩

/-! ### Metadata that is replaced in place -/

/-- The directory of a current version exists. -/
theorem Settled.exists_dir {x : Option ObjectDir} (hx : Settled E x H) {st : Stored}
    (hst : H.current = some st) : ∃ d, x = some d := by
  cases x with
  | some d => exact ⟨d, rfl⟩
  | none =>
    have hblob := (files_of_settled hx).1
    rw [hst] at hblob
    cases hblob

/-- **The rule of the operations that rewrite the metadata**: what `update` makes of the current
metadata takes their place, and nothing else changes. -/
theorem wp_rewriteMetadata {α : Type} {Q : Except Error α → BucketState → Prop}
    {missing : Op BucketState α} {update : Object → Op BucketState (Option Object × α)}
    (hdir : s.dir.isSome) (h : Ready E ((objectIdDir E b key).get s) H)
    (hmissing : H.current = none → ∀ x, Settled E x H →
      wp (fun _ ↦ True) missing Q (withObject E b key x s))
    (hupdate : ∀ data o x, H.current = some (data, o) → Settled E x H →
      wp (fun _ ↦ True) (update o) (fun r t ↦ ∃ u a azure, r = .ok (u, a) ∧
        t = (withObject E b key x s).remember azure s.drawn ∧
        match u with
        | none => Q (.ok a) t
        | some o' => ∀ y, Settled E y { H with current := some (data, o'.serialized) } →
            Q (.ok a) ((withObject E b key y s).remember azure s.drawn))
        (withObject E b key x s)) :
    wp (fun _ ↦ True) (rewriteMetadata E b key missing update) Q s := by
  simp only [rewriteMetadata, bind_eq, pure_eq, wp_bind]
  refine wp_recoverObjectDir (J := fun _ ↦ True) hdir h (fun _ _ ↦ trivial) fun x hx _ ↦ ?_
  rw [wp_read, objectMetadata_withObject hx]
  refine ⟨trivial, ?_⟩
  cases hcurrent : H.current with
  | none => exact hmissing hcurrent x hx
  | some st =>
    obtain ⟨data, o⟩ := st
    obtain ⟨d, rfl⟩ := hx.exists_dir hcurrent
    simp only [Option.map_some, Option.isNone_some, Bool.false_eq_true, if_false, wp_bind]
    rw [wp_sysRead, objectMetadata_withObject hx, hcurrent]
    refine ⟨trivial, wp_mono (hupdate data o _ hcurrent hx) (fun _ ↦ id) ?_⟩
    rintro _ _ - ⟨u, a, azure, rfl, rfl, hu⟩
    cases u with
    | none => exact ⟨trivial, hu⟩
    | some o' =>
      have hset : ∀ y, (objectIdDir E b key).set y
          ((withObject E b key (some d) s).remember azure s.drawn) =
            (withObject E b key y s).remember azure s.drawn := fun y ↦
        congrArg (fun u : BucketState ↦ u.remember azure s.drawn) (withObject_withObject y (some d))
      refine wp_bind.2 (wp_writeObjectMetadata (I := fun _ ↦ True) ?_ (hset _) hx hcurrent
        (fun _ _ ↦ trivial) fun y hy _ ↦ ⟨trivial, ?_⟩)
      · show (objectIdDir E b key).get (withObject E b key (some d) s) = some d
        exact objectIdDir_get_withObject _
      · rw [hset]
        exact hu y hy

/-- A program has left the directory `x`, and nothing else that counts. -/
theorem Keeps.leaves (h : Keeps E b key s H) {x : Option ObjectDir} {a : Option Bool}
    {P : History → Prop} (hx : Settled E x H')
    (hstep : History.Step E key (s.dir.bind (·.versioning)) s.drawn s.drawn H H')
    (heffect : P H') :
    Leaves E b key s H P ((withObject E b key x s).remember a s.drawn) :=
  ⟨⟨H', h.next hstep hx.ready (objectIdDir_get_withObject x) (versioning_withObject x) le_rfl,
    heffect⟩, rfl, versioning_withObject x⟩

theorem wp_updates {update : Object → Object} (hdir : s.dir.isSome) (h : Keeps E b key s H)
    (hupdate : ∀ o, (update o).key = o.key ∧ (update o).size = o.size ∧
      (update o).versionId = o.versionId) :
    wp (fun _ ↦ True) (rewriteMetadata E b key (.fail .keyNotFound) fun o ↦
      .ret (some (update o), ())) (fun r t ↦ Leaves E b key s H
        (ObjectCall.Updates update H (r.map fun _ ↦ true)) t) s := by
  refine wp_rewriteMetadata hdir h.ready (fun hnone x hx ↦ ?_) fun data o x hcurrent hx ↦ ?_
  · exact ⟨trivial, h.leaves (a := s.azureProtectionPossible) hx .keep ⟨rfl, hnone, rfl⟩⟩
  · refine ⟨trivial, some (update o), (), s.azureProtectionPossible, rfl, rfl, fun y hy ↦ ?_⟩
    obtain ⟨hkey, hsize, hid⟩ := hupdate o
    exact h.leaves hy (.rewrite hcurrent hkey hsize hid) ⟨rfl, data, o, hcurrent, rfl⟩

theorem wp_replaces {observed updated : Object} (hdir : s.dir.isSome) (h : Keeps E b key s H) :
    wp (fun _ ↦ True) (replaceObjectMetadataIfUnchangedLocked E b key observed updated)
      (fun r t ↦ Leaves E b key s H (ObjectCall.Replaces observed updated H r) t) s := by
  refine wp_rewriteMetadata hdir h.ready (fun hnone x hx ↦ ?_) fun data o x hcurrent hx ↦ ?_
  · refine ⟨trivial, h.leaves (a := s.azureProtectionPossible) hx .keep
      ⟨rfl, fun data o hst ↦ ?_⟩⟩
    cases hnone.symm.trans hst
  · dsimp only
    split
    · next hguard =>
      refine ⟨trivial, none, false, s.azureProtectionPossible, rfl, rfl,
        h.leaves (a := s.azureProtectionPossible) hx .keep ⟨rfl, fun data' o' hst hsame ↦ ?_⟩⟩
      cases hcurrent.symm.trans hst
      simp [hsame.etag, hsame.lastModified, hsame.versionId, hsame.contentType, hsame.metadata,
        hsame.providerMetadata] at hguard
    · next hguard =>
      simp only [Bool.or_eq_true, decide_eq_true_eq, not_or, not_not] at hguard
      obtain ⟨⟨⟨⟨⟨hetag, htime⟩, hid⟩, htype⟩, hmetadata⟩, hprovider⟩ := hguard
      simp only [bind_eq, pure_eq, wp_bind]
      refine wp_admitAzureProtection (J := fun _ ↦ True) trivial fun azure ↦ ?_
      refine ⟨trivial, some (ObjectCall.merge o updated), true, azure, rfl, rfl, fun y hy ↦ ?_⟩
      exact h.leaves hy (.rewrite hcurrent rfl rfl rfl)
        ⟨data, o, hcurrent, ⟨hetag, htime, hid, htype, hmetadata, hprovider⟩, rfl⟩

theorem wp_names (hdir : s.dir.isSome) (h : Keeps E b key s H) :
    wp (fun _ ↦ True) (assignNullVersionId E (E.computeObjectId b key)) (fun r t ↦
      Leaves E b key s H (ObjectCall.Names H (r.map fun _ ↦ true)) t) s := by
  simp only [assignNullVersionId, bind_eq, wp_bind]
  refine wp_recoverObjectDir (J := fun _ ↦ True) hdir h.ready (fun _ _ ↦ trivial) fun x hx _ ↦ ?_
  have hkeep : Leaves E b key s H (ObjectCall.Names H (.ok true)) (withObject E b key x s) :=
    h.leaves (a := s.azureProtectionPossible) hx .keep ⟨rfl, .inl rfl⟩
  rw [wp_read, show ((BucketState.objectLens (E.computeObjectId b key)).get
    (withObject E b key x s)).bind (·.files.pair.metadata) = H.current.map Prod.snd from
    objectMetadata_withObject hx]
  refine ⟨trivial, ?_⟩
  cases hcurrent : H.current with
  | none => exact ⟨trivial, hkeep⟩
  | some st =>
    obtain ⟨data, o⟩ := st
    rw [Option.map_some]
    dsimp only
    by_cases hid : o.versionId = none
    · obtain ⟨d, rfl⟩ := hx.exists_dir hcurrent
      rw [if_pos (Option.isNone_iff_eq_none.2 hid)]
      show wp _ (writeObjectMetadata E (objectIdDir E b key) _) _ _
      refine wp_writeObjectMetadata (I := fun _ ↦ True) (d := d) ?_ ?_ hx hcurrent
        (fun _ _ ↦ trivial) fun y hy _ ↦ ?_
      · exact objectIdDir_get_withObject _
      · exact withObject_withObject _ _
      · rw [objectIdDir_set_eq, withObject_withObject]
        exact h.leaves (a := s.azureProtectionPossible) hy (.nameNull hcurrent hid)
          ⟨rfl, .inr ⟨data, o, hcurrent, hid, rfl⟩⟩
    · rw [if_neg fun h ↦ hid (Option.isNone_iff_eq_none.1 h)]
      exact ⟨trivial, hkeep⟩

theorem wp_deletesVersion {id : String} (hdir : s.dir.isSome) (h : Keeps E b key s H) :
    wp (fun _ ↦ True) (deleteObjectVersionLocked E b key id) (fun r t ↦
      Leaves E b key s H (ObjectCall.DeletesVersion id H (r.map fun _ ↦ true)) t) s := by
  refine wp_deleteObjectVersionLocked hdir h.ready h.sound
    (fun y a promoted t hhas hpromotes hy ht ↦ ?_) fun hnot x hx ↦ ?_
  · have hleaves := h.leaves (b := b) (a := a)
      (P := ObjectCall.DeletesVersion id H (.ok true)) hy (.deleteVersion hhas hpromotes)
      ⟨rfl, hhas, promoted, hpromotes, rfl⟩
    obtain ⟨⟨H', hH', heffect⟩, -, hv⟩ := hleaves
    rcases ht with rfl | rfl
    · exact ⟨⟨H', hH'.congr (fun h ↦ h) (fun h ↦ h) le_rfl, heffect⟩, rfl, hv⟩
    · exact ⟨⟨H', hH'.congr (fun h ↦ h) (fun h ↦ h) le_rfl, heffect⟩, rfl, hv⟩
  · exact ⟨⟨H, h.recovered hx, rfl, hnot, rfl⟩, rfl, versioning_withObject x⟩

theorem wp_completes {o : Object} {name : String} {completion : MultipartCompletion}
    (hdir : s.dir.isSome) (h : Keeps E b key s H) (hkey : o.key = key) :
    wp (fun _ ↦ True) (publishCompleted E b key o name completion) (fun r t ↦
      Leaves E b key s H (ObjectCall.Completes E s H o name
        (r.map fun _ ↦ true)) t) s := by
  -- The write, in whatever state the reads before it leave.
  have hwrite : ∀ x, Keeps E b key (withObject E b key x s) H → wp (fun _ ↦ True)
      (putObjectLockedWithPayload E b key o (.scratch name)) (fun r t ↦ Leaves E b key s H
        (ObjectCall.Completes E s H o name (r.map fun _ ↦ true)) t)
      (withObject E b key x s) := by
    intro x hkeeps
    refine wp_mono (wp_writes rfl hkeeps hkey) (fun _ ↦ id) fun r t _ hleaves ↦ ?_
    obtain ⟨⟨H', hH', heffect⟩, ht, hv⟩ := hleaves.of_withObject
    exact ⟨⟨H', hH', .inl (ObjectCall.writes_withObject heffect)⟩, ht, hv⟩
  have hfail : ∀ x e, Keeps E b key (withObject E b key x s) H → Leaves E b key s H
      (ObjectCall.Completes E s H o name (.error e))
      (withObject E b key x s) :=
    fun x e hkeeps ↦ ⟨⟨H, hkeeps, .inr ⟨e, rfl, rfl⟩⟩, rfl, versioning_withObject x⟩
  -- What follows the reads, by the condition.
  have hrest : ∀ x, Keeps E b key (withObject E b key x s) H → ∀ p : Op BucketState Unit,
      (completion.condition = none →
        p = (ret ()).bind fun _ ↦ putObjectLockedWithPayload E b key o (.scratch name)) →
      (∀ c, completion.condition = some c →
        p = (objectConditionMatches E b key c).bind fun holds ↦
          if (!holds) = true then
            (fail Error.preconditionFailed : Op BucketState PUnit).bind fun _ ↦
              putObjectLockedWithPayload E b key o (.scratch name)
          else putObjectLockedWithPayload E b key o (.scratch name)) →
      wp (fun _ ↦ True) p (fun r t ↦ Leaves E b key s H (ObjectCall.Completes E s H o name
        (r.map fun _ ↦ true)) t) (withObject E b key x s) := by
    intro x hkeeps p hnone hsome
    cases hcondition : completion.condition with
    | none =>
      rw [hnone hcondition]
      exact hwrite x hkeeps
    | some c =>
      rw [hsome c hcondition, wp_bind]
      refine wp_objectConditionMatches (J := fun _ ↦ True) c rfl hkeeps.ready (fun _ _ ↦ trivial)
        fun y hy _ ↦ ?_
      rw [withObject_withObject]
      have hkeeps' := h.recovered (b := b) hy
      cases c.holds (H.current.map Prod.snd) with
      | false => exact ⟨trivial, hfail y _ hkeeps'⟩
      | true => exact hwrite y hkeeps'
  have hself : withObject E b key ((objectIdDir E b key).get s) s = s :=
    BucketState.objectLens_set_get hdir
  simp only [publishCompleted, bind_eq]
  split
  · rw [wp_bind]
    refine wp_readObjectMetadataLocked (J := fun _ ↦ True) hdir h.ready (fun _ _ ↦ trivial)
      fun x hx _ ↦ ?_
    have hkeeps := h.recovered (b := b) hx.ready
    cases H.metadata with
    | error e => exact hfail x e hkeeps
    | ok o' => exact hrest x hkeeps _ (fun h ↦ by rw [h]) fun c h ↦ by rw [h]
  · have hdone := hrest ((objectIdDir E b key).get s) (hself.symm ▸ h)
    rw [hself] at hdone
    exact hdone _ (fun h ↦ by rw [h]) fun c h ↦ by rw [h]

/-- **What one call does.** It returns, and leaves a history that is kept, by its effect. -/
theorem ObjectCall.wp_body (call : ObjectCall) (hdir : s.dir.isSome) (h : Keeps E b key s H)
    (hnamed : call.Named key) :
    wp (fun _ ↦ True) (call.body E b key) (fun r t ↦ Leaves E b key s H
      (call.Effect E key s H r) t) s := by
  have hunit : ∀ {p : Op BucketState Unit} {effect : Except Error Bool → History → Prop},
      wp (fun _ ↦ True) p (fun r t ↦ Leaves E b key s H (effect (r.map fun _ ↦ true)) t) s →
      wp (fun _ ↦ True) (p.bind fun _ ↦ .ret true)
        (fun r t ↦ Leaves E b key s H (effect r) t) s := by
    intro p effect hp
    rw [wp_bind]
    refine wp_mono hp (fun _ ↦ id) ?_
    rintro (e | u) t - hleaves
    · exact hleaves
    · exact ⟨trivial, hleaves⟩
  cases call with
  | current call =>
    show wp _ ((call.body E b key).bind fun r ↦ ret (r.getD true)) _ _
    rw [wp_bind]
    refine wp_mono (wp_keyCall call hdir h fun o ho ↦ hnamed o ho) (fun _ ↦ id) ?_
    rintro (e | r) t - hleaves
    · exact hleaves
    · exact ⟨trivial, hleaves⟩
  | completeUpload o name completion => exact hunit (wp_completes hdir h (hnamed o rfl))
  | deleteObjectVersion id => exact hunit (wp_deletesVersion hdir h)
  | updateObjectStorageClass c => exact hunit (wp_updates hdir h fun o ↦ ⟨rfl, rfl, rfl⟩)
  | putObjectAcl acl => exact hunit (wp_updates hdir h fun o ↦ ⟨rfl, rfl, rfl⟩)
  | putObjectTags tags => exact hunit (wp_updates hdir h fun o ↦ ⟨rfl, rfl, rfl⟩)
  | deleteObjectTags => exact hunit (wp_updates hdir h fun o ↦ ⟨rfl, rfl, rfl⟩)
  | replaceObjectMetadataIfUnchanged observed updated => exact wp_replaces hdir h
  | assignNullVersionId => exact hunit (wp_names hdir h)

end Invariant

section Outcomes

variable {E : Env} {key : Text} {s : BucketState} {H H' : History} {r : Except Error Bool}
  {o : Object}

/-- A write succeeds when its bytes are there. -/
theorem ObjectCall.Effect.of_fits (hsize : o.data.length = o.size)
    (h : (ObjectCall.current (.putObject o)).Effect E key s H r H') :
    r = .ok true ∧ H' = H.put (s.dir.bind (·.versioning))
      (versionIdFor E (s.dir.bind (·.versioning)) s.drawn) o.data o := by
  obtain ⟨hcondition, heffect⟩ := h
  rcases r with e | _ | _
  · exact absurd ⟨o.data, rfl, hsize⟩ heffect.1
  · cases hcondition rfl
  · obtain ⟨data, hdata, -, hH⟩ := heffect
    obtain rfl : o.data = data := Option.some.inj hdata
    exact ⟨rfl, hH⟩

/-- A write fails when its bytes are not there, **and has kept the current version by then**. -/
theorem ObjectCall.Effect.of_not_fits {path : String} (hnot : ¬ (BodySource.spooled path).Fits o s)
    (h : (ObjectCall.current (.putObjectStreamed o path)).Effect E key s H r H') :
    (∃ e, r = .error e) ∧ H' = H.snapshot (s.dir.bind (·.versioning)) := by
  obtain ⟨hcondition, heffect⟩ := h
  rcases r with e | _ | _
  · exact ⟨⟨e, rfl⟩, heffect.2⟩
  · cases hcondition rfl
  · obtain ⟨data, hdata, hlen, -⟩ := heffect
    exact absurd ⟨data, hdata, hlen⟩ hnot

end Outcomes

/-! ### The states that are reached -/

section Reached

variable {E : Env} {b : String} {key : Text} {s t : Store}
  {allowed : ObjectCall → BucketState → Prop}

/-- The states that a store is in between the calls on a key, when each call is allowed in the state
that it finds. What else goes on, in the bucket or in the store, may be anything that leaves the
directory of the key standing for the same history, as reads and recoveries do, and does not turn
versioning back into what a new bucket has. -/
inductive Reached (E : Env) (b : String) (key : Text) (allowed : ObjectCall → BucketState → Prop) :
    Store → Prop
  /-- The key has no directory: nothing has been written to it since the bucket was made. -/
  | fresh {s : Store} (hfree : s.objectLocks.cells = ∅)
      (hnone : (objectIdDir E b key).get ((Store.bucket E b).get s) = none) :
      Reached E b key allowed s
  | call {s t : Store} {r : Except Error Bool} (h : Reached E b key allowed s) (call : ObjectCall)
      (hbucket : ((Store.bucket E b).get s).dir.isSome) (hnamed : call.Named key)
      (hallowed : allowed call ((Store.bucket E b).get s))
      (hret : (call.run E b key).Returns s r t) : Reached E b key allowed t
  | elsewhere {s t : Store} (h : Reached E b key allowed s) (hfree : t.objectLocks.cells = ∅)
      (hdir : ∀ H, Ready E ((objectIdDir E b key).get ((Store.bucket E b).get s)) H →
        Ready E ((objectIdDir E b key).get ((Store.bucket E b).get t)) H)
      (hversioning : ((Store.bucket E b).get t).dir.bind (·.versioning) = none →
        ((Store.bucket E b).get s).dir.bind (·.versioning) = none)
      (hdrawn : s.drawn ≤ t.drawn) : Reached E b key allowed t

/-- A program under the mutex of the key does what its body does to the bucket. -/
theorem returns_onObject {α : Type} {p : Op BucketState α} {r : Except Error α}
    {Q : Except Error α → BucketState → Prop} (hfree : s.objectLocks.cells = ∅)
    (hret : (onObject E b key p).Returns s r t)
    (hp : wp (fun _ ↦ True) p Q ((Store.bucket E b).get s)) :
    t.objectLocks.cells = ∅ ∧ Q r ((Store.bucket E b).get t) := by
  have hwp : wp (fun _ ↦ True) (onObject E b key p)
      (fun r t ↦ t.objectLocks.cells = ∅ ∧ Q r ((Store.bucket E b).get t)) s := by
    refine wp_onObject hfree (fun _ _ _ ↦ trivial) (wp_mono hp (fun _ ↦ id) ?_)
    intro r x _ hq locks hlocks
    rw [Lens.get_set]
    exact ⟨hlocks, hq⟩
  exact hret.of_wp hwp

/-- A call that runs alone leaves what its effect says. -/
theorem ObjectCall.returns_run {call : ObjectCall} {r : Except Error Bool} {H : History}
    (hfree : s.objectLocks.cells = ∅) (hbucket : ((Store.bucket E b).get s).dir.isSome)
    (h : Keeps E b key ((Store.bucket E b).get s) H) (hnamed : call.Named key)
    (hret : (call.run E b key).Returns s r t) :
    t.objectLocks.cells = ∅ ∧ Leaves E b key ((Store.bucket E b).get s) H
      (call.Effect E key ((Store.bucket E b).get s) H r)
      ((Store.bucket E b).get t) := by
  rw [run_eq] at hret
  exact returns_onObject hfree hret (call.wp_body hbucket h hnamed)

/-- A key without a directory has no history. -/
theorem keeps_of_none {s : BucketState} (h : (objectIdDir E b key).get s = none) :
    Keeps E b key s {} where
  ready := h ▸ settled_none.ready
  plain _ := rfl
  sound := ⟨nofun, nofun⟩
  drawn id hid := by rcases hid with hversion | ⟨_, _, hcurrent, _⟩ <;> contradiction

/-- **Every state that is reached keeps a history of the key.** -/
theorem Reached.keeps (h : Reached E b key allowed s) : s.objectLocks.cells = ∅ ∧
    ∃ H, Keeps E b key ((Store.bucket E b).get s) H := by
  induction h with
  | fresh hfree hnone => exact ⟨hfree, {}, keeps_of_none hnone⟩
  | call h call hbucket hnamed hallowed hret ih =>
    obtain ⟨hfree, H, hH⟩ := ih
    obtain ⟨hfree', ⟨H', hH', -⟩, -⟩ := call.returns_run hfree hbucket hH hnamed hret
    exact ⟨hfree', H', hH'⟩
  | elsewhere h hfree hdir hversioning hdrawn ih =>
    obtain ⟨-, H, hH⟩ := ih
    exact ⟨hfree, H, hH.congr (hdir H) hversioning hdrawn⟩

/-- From every state that is reached, every call leads to another one. -/
theorem Reached.exists_call {H : History} (h : Reached E b key allowed s)
    (hbucket : ((Store.bucket E b).get s).dir.isSome)
    (hH : Keeps E b key ((Store.bucket E b).get s) H) (call : ObjectCall) (hnamed : call.Named key)
    (hallowed : allowed call ((Store.bucket E b).get s)) :
    ∃ r t, (call.run E b key).Returns s r t ∧ Reached E b key allowed t ∧
      Leaves E b key ((Store.bucket E b).get s) H
        (call.Effect E key ((Store.bucket E b).get s) H r)
        ((Store.bucket E b).get t) := by
  have hfree := h.keeps.1
  obtain ⟨r, t, hret⟩ : ∃ r t, (call.run E b key).Returns s r t := by
    rw [ObjectCall.run_eq]
    exact exists_returns_of_wp (wp_onObject (I := fun _ ↦ True) (J := fun _ ↦ True)
      (Q := fun _ _ ↦ True) hfree (fun _ _ _ ↦ trivial)
      (wp_mono (call.wp_body hbucket hH hnamed) (fun _ h ↦ h) fun _ _ _ _ _ _ ↦ trivial))
  exact ⟨r, t, hret, h.call call hbucket hnamed hallowed hret,
    (call.returns_run hfree hbucket hH hnamed hret).2⟩

end Reached

end Sqrzl
