import SqrzlEmulator.Storage.Bucket
import SqrzlEmulator.Storage.History

/-!
# What the operations do to the history of an object

One rule for each program of `Storage.Bucket`, in terms of the history that the directory of the
object stands for. `History.put` and `History.delete` say what a write and a delete make of a
history; `v` is the versioning state of the bucket.

The rules also say what a killed process leaves behind: `J` is a property of the directory of the
bucket, and it has to hold whenever the directory of the object stands for the history before the
operation, for the one after it, or for the one with the snapshot of the current version in between.
-/

namespace Sqrzl

open Prog

/-! ### Histories -/

namespace History

variable {H : History}

/-- The answer of `read_object_metadata_locked`. -/
def metadata (H : History) : Except Error Object :=
  match H.current with
  | some (_, o) => .ok o
  | none => .error .keyNotFound

/-- The identity under which a version is kept. -/
def keptId (o : Object) : String := o.versionId.getD "null"

/-- Keep the current version, as a write or a delete does before it replaces it. -/
def snapshot (v : Option VersioningState) (H : History) : History :=
  match v, H.current with
  | some v, some (b, o) =>
    if v = .enabled ∨ keptId o ≠ "null" then
      H.setVersion (keptId o) (some (b, (o.withVersionId (some (keptId o))).serialized))
    else
      H
  | _, _ => H

/-- The record of a write. -/
def putChange (id : Option String) : Change where
  publish := true
  clearCurrent := false
  removeVersions := if id = some "null" then ["null"] else []
  marker := none

/-- Write a new version with the given identity. -/
def put (v : Option VersioningState) (id : Option String) (data : Bytes) (o : Object)
    (H : History) : History :=
  (H.snapshot v).change (putChange id) (some (data, (o.withVersionId id).serialized))

/-- The record of a delete. -/
def deleteChange (v : Option VersioningState) (marker : Option Object) : Change where
  publish := false
  clearCurrent := true
  removeVersions := if v = some .suspended then ["null"] else []
  marker := marker

/-- Delete the current version, and leave a marker. -/
def delete (v : Option VersioningState) (marker : Option Object) (H : History) : History :=
  (H.snapshot v).change (deleteChange v marker) none

@[simp] theorem current_snapshot (v : Option VersioningState) :
    (H.snapshot v).current = H.current := by
  unfold snapshot
  split
  · split <;> rfl
  · rfl

theorem snapshot_of_none {v : Option VersioningState} (h : H.current = none) : H.snapshot v = H := by
  unfold snapshot
  rw [h]
  cases v <;> rfl

/-- The current version is kept. -/
theorem snapshot_of_keep {v : VersioningState} {data : Bytes} {o : Object}
    (h : H.current = some (data, o)) (hkeep : v = .enabled ∨ keptId o ≠ "null") :
    H.snapshot (some v) =
      H.setVersion (keptId o) (some (data, (o.withVersionId (some (keptId o))).serialized)) := by
  unfold snapshot
  rw [h]
  exact if_pos hkeep

/-- The current version is the `null` version, which is not kept. -/
theorem snapshot_of_not_keep {v : VersioningState} {data : Bytes} {o : Object}
    (h : H.current = some (data, o)) (hkeep : ¬ (v = .enabled ∨ keptId o ≠ "null")) :
    H.snapshot (some v) = H := by
  unfold snapshot
  rw [h]
  exact if_neg hkeep

end History

/-! ### The parts of the state -/

namespace BucketState

variable {s : BucketState} {id : String}

theorem objectLens_get : (objectLens id).get s = s.dir.bind fun d ↦ d.objects[id]? := by
  show ((s.dir.getD default).objects)[id]? = _
  cases s.dir with
  | none => exact Std.ExtTreeMap.getElem?_empty
  | some d => rfl

theorem objectLens_set {x : Option ObjectDir} : (objectLens id).set x s =
    { s with dir := some { s.dir.getD default with
      objects := (s.dir.getD default).objects.set id x } } :=
  rfl

/-- A directory of an object that is there is a part of the state. -/
theorem objectLens_set_some {d : ObjectDir} (h : (objectLens id).get s = some d) :
    (objectLens id).set (some d) s = s := by
  rw [objectLens_get] at h
  obtain ⟨bd, hbd, hd⟩ := Option.bind_eq_some_iff.1 h
  rw [objectLens_set, hbd]
  show { s with dir := some { bd with objects := bd.objects.set id (some d) } } = s
  rw [← hd, Table.set_getElem?, ← hbd]

theorem objectLens_set_get (h : s.dir.isSome) :
    (objectLens id).set ((objectLens id).get s) s = s := by
  obtain ⟨bd, hbd⟩ := Option.isSome_iff_exists.1 h
  rw [objectLens_get, objectLens_set, hbd]
  show { s with dir := some { bd with objects := bd.objects.set id bd.objects[id]? } } = s
  rw [Table.set_getElem?, ← hbd]

end BucketState

section Rules

variable {E : Env} {b : String} {key : Text} {s : BucketState} {H : History}
  {J : Option BucketDir → Prop}

/-- A state in which the directory of the key has been replaced. -/
def withObject (E : Env) (b : String) (key : Text) (x : Option ObjectDir) (s : BucketState) :
    BucketState :=
  (objectIdDir E b key).set x s

@[simp] theorem objectIdDir_get_withObject (x : Option ObjectDir) :
    (objectIdDir E b key).get (withObject E b key x s) = x :=
  Lens.get_set ..

@[simp] theorem objectIdDir_set_eq (x : Option ObjectDir) :
    (objectIdDir E b key).set x s = withObject E b key x s :=
  rfl

@[simp] theorem withObject_withObject (x y : Option ObjectDir) :
    withObject E b key x (withObject E b key y s) = withObject E b key x s :=
  Lens.set_set ..

@[simp] theorem dir_withObject_isSome (x : Option ObjectDir) :
    (withObject E b key x s).dir.isSome = true :=
  rfl

/-- The files of the object do not tell how the bucket keeps its versions. -/
@[simp] theorem versioning_withObject (x : Option ObjectDir) :
    (withObject E b key x s).dir.bind (·.versioning) = s.dir.bind (·.versioning) := by
  show (s.dir.getD default).versioning = _
  cases s.dir <;> rfl

theorem files_of_settled {x : Option ObjectDir} (h : Settled E x H) :
    x.bind (·.files.pair.blob) = H.current.map Prod.fst ∧
      x.bind (·.files.pair.metadata) = H.current.map Prod.snd := by
  cases x with
  | none =>
    have hc := h.shows.current
    cases hcur : H.current with
    | none => exact ⟨rfl, rfl⟩
    | some st =>
      rw [hcur] at hc
      exact absurd (congrArg Slot.blob hc) (by simp [DirKind.Law.view, Slot.ofStored])
  | some d =>
    obtain ⟨-, hslot⟩ := h.files
    cases hcur : H.current with
    | none =>
      rw [hcur] at hslot
      exact ⟨congrArg Slot.blob hslot, congrArg Slot.metadata hslot⟩
    | some st =>
      rw [hcur] at hslot
      exact ⟨congrArg Slot.blob hslot, congrArg Slot.metadata hslot⟩

theorem objectBlob_withObject {x : Option ObjectDir} (h : Settled E x H) :
    objectBlob E b key (withObject E b key x s) = H.current.map Prod.fst := by
  rw [objectBlob, objectIdDir_get_withObject]
  exact (files_of_settled h).1

theorem objectMetadata_withObject {x : Option ObjectDir} (h : Settled E x H) :
    objectMetadata E b key (withObject E b key x s) = H.current.map Prod.snd := by
  rw [objectMetadata, objectIdDir_get_withObject]
  exact (files_of_settled h).2

/-! ### Reading -/

theorem wp_recoverObjectDir {Q : Except Error Unit → BucketState → Prop} (hdir : s.dir.isSome)
    (h : Ready E ((objectIdDir E b key).get s) H)
    (hJ : ∀ x, Stands E x H → J (withObject E b key x s).dir)
    (hQ : ∀ x, Settled E x H → x.isSome = ((objectIdDir E b key).get s).isSome →
      Q (.ok ()) (withObject E b key x s)) :
    wp (fun t ↦ J t.dir) (recoverAt E (objectDirs E) (objectIdDir E b key)) Q s :=
  wp_recoverObject (BucketState.objectLens_set_get hdir) h.stands h.calm (fun x hx _ ↦ hJ x hx) hQ

/-- **Reading the metadata finds what the directory stands for**, and settles it. -/
theorem wp_readObjectMetadataLocked {Q : Except Error Object → BucketState → Prop}
    (hdir : s.dir.isSome) (h : Ready E ((objectIdDir E b key).get s) H)
    (hJ : ∀ x, Stands E x H → J (withObject E b key x s).dir)
    (hQ : ∀ x, Settled E x H → x.isSome = ((objectIdDir E b key).get s).isSome →
      Q H.metadata (withObject E b key x s)) :
    wp (fun t ↦ J t.dir) (readObjectMetadataLocked E b key) Q s := by
  simp only [readObjectMetadataLocked, bind_eq, wp_bind]
  refine wp_recoverObjectDir hdir h hJ fun x hx hsome ↦ ?_
  have hj := hJ x hx.stands
  have hq := hQ x hx hsome
  rw [wp_read, objectBlob_withObject hx]
  refine ⟨hj, ?_⟩
  rw [History.metadata] at hq
  cases hcur : H.current with
  | none =>
    rw [hcur] at hq
    exact ⟨hj, hq⟩
  | some st =>
    obtain ⟨data, o⟩ := st
    rw [hcur] at hq
    simp only [Option.map_some, Option.isNone_some, Bool.false_eq_true, if_false]
    rw [wp_sysRead, objectMetadata_withObject hx, hcur]
    exact ⟨hj, hq⟩

theorem wp_readObjectLocked {Q : Except Error Object → BucketState → Prop}
    (hdir : s.dir.isSome) (h : Ready E ((objectIdDir E b key).get s) H)
    (hJ : ∀ x, Stands E x H → J (withObject E b key x s).dir)
    (hQ : ∀ x, Settled E x H → x.isSome = ((objectIdDir E b key).get s).isSome →
      Q (match H.current with
        | some (data, o) => .ok { o with data := data }
        | none => .error .keyNotFound) (withObject E b key x s)) :
    wp (fun t ↦ J t.dir) (readObjectLocked E b key) Q s := by
  simp only [readObjectLocked, bind_eq, pure_eq, wp_bind]
  refine wp_recoverObjectDir hdir h hJ fun x hx hsome ↦ ?_
  have hj := hJ x hx.stands
  have hq := hQ x hx hsome
  rw [wp_read, objectBlob_withObject hx]
  refine ⟨hj, ?_⟩
  cases hcur : H.current with
  | none =>
    rw [hcur] at hq
    exact ⟨hj, hq⟩
  | some st =>
    obtain ⟨data, o⟩ := st
    rw [hcur] at hq
    simp only [Option.map_some, Option.isNone_some, Bool.false_eq_true, if_false, wp_bind]
    rw [wp_sysRead, objectMetadata_withObject hx, hcur]
    refine ⟨hj, ?_⟩
    rw [Option.map_some]
    dsimp only
    rw [wp_sysRead, objectBlob_withObject hx, hcur]
    exact ⟨hj, hj, hq⟩

/-! ### Buckets that do not exist -/

theorem objectIdDir_get_of_none (b : String) (key : List Char) (hdir : s.dir = none) : (objectIdDir E b key).get s = none := by
  rw [objectIdDir, BucketState.objectLens_get, hdir]
  rfl

theorem wp_readObjectMetadataLocked_of_none {Q : Except Error Object → BucketState → Prop}
    (hdir : s.dir = none) (hJ : J s.dir) (hQ : Q (.error .keyNotFound) s) :
    wp (fun t ↦ J t.dir) (readObjectMetadataLocked E b key) Q s := by
  have hget := objectIdDir_get_of_none (E := E) b key hdir
  have hblob : objectBlob E b key s = none := by
    rw [objectBlob, hget]
    rfl
  simp only [readObjectMetadataLocked, recoverAt, bind_eq, wp_bind, wp_read, hget]
  refine ⟨hJ, hJ, hJ, ?_⟩
  rw [hblob]
  exact ⟨hJ, hQ⟩

/-! ### Bodies -/

namespace BodySource

/-- The bytes of a new object. -/
def bytes (o : Object) (s : BucketState) : BodySource → Option Bytes
  | .inMemory => some o.data
  | .spooled path => s.payloads[path]?
  | .scratch name => s.dir.bind fun d ↦ d.spool.bind fun files ↦ files[name]?

/-- What is left when the bytes have been taken. -/
def rest (s : BucketState) : BodySource → BucketState
  | .inMemory => s
  | .spooled path => { s with payloads := s.payloads.set path none }
  | .scratch name =>
    { s with dir := s.dir.map fun d ↦ { d with spool := d.spool.map (·.set name none) } }

variable {source : BodySource}

theorem bytes_payload (o : Object) : source.payload.bytes o s = source.bytes o s := by
  cases source with
  | inMemory => rfl
  | spooled path =>
    show ((s.payloads[path]?).map _).map _ = s.payloads[path]?
    cases s.payloads[path]? <;> rfl
  | scratch name =>
    show (s.dir.bind fun d ↦ d.spool.bind fun files ↦ (files[name]?).map _).map _ =
      s.dir.bind fun d ↦ d.spool.bind fun files ↦ files[name]?
    cases s.dir with
    | none => rfl
    | some d =>
      show (d.spool.bind fun files ↦ (files[name]?).map _).map _ = d.spool.bind _
      cases d.spool with
      | none => rfl
      | some files =>
        show ((files[name]?).map _).map _ = files[name]?
        cases files[name]? <;> rfl

theorem rest_payload : source.payload.rest s = source.rest s := by
  cases source with
  | inMemory => rfl
  | spooled path =>
    show (((s.payloads[path]?).map _).map Prod.snd).getD s = _
    cases hp : s.payloads[path]? with
    | none =>
      show s = { s with payloads := s.payloads.set path none }
      rw [Table.set_eq_self _ hp]
    | some data => rfl
  | scratch name =>
    obtain ⟨dir, _, _, _, _, _, _⟩ := s
    cases dir with
    | none => rfl
    | some d =>
      obtain ⟨_, _, _, _, _, _, _, _, _, _, spool, _⟩ := d
      cases spool with
      | none => rfl
      | some files =>
        show (((files[name]?).map _).map Prod.snd).getD _ = _
        cases hf : files[name]? with
        | none => simp only [rest, Option.map_some, Option.map_none, Option.getD_none,
            Table.set_eq_self _ hf]
        | some data => rfl

theorem frames (E : Env) (b : String) (key : Text) (source : BodySource) :
    source.payload.Frames (objectDirsLaw E) hideAll (objectIdDir E b key) := by
  cases source with
  | inMemory => trivial
  | spooled path =>
    intro x s
    show (s.payloads[path]?).map _ = ((s.payloads[path]?).map _).map _
    cases s.payloads[path]? <;> rfl
  | scratch name =>
    intro x s
    obtain ⟨dir, _, _, _, _, _, _⟩ := s
    cases dir with
    | none => rfl
    | some d =>
      show (Option.bind d.spool fun files ↦ files[name]?.map _) =
        (Option.bind d.spool fun files ↦ files[name]?.map _).map _
      cases d.spool with
      | none => rfl
      | some files =>
        show (files[name]?).map _ = ((files[name]?).map _).map _
        cases files[name]? <;> rfl

@[simp] theorem bytes_withObject (o : Object) (x : Option ObjectDir) :
    source.bytes o (withObject E b key x s) = source.bytes o s := by
  cases source with
  | inMemory => rfl
  | spooled path => rfl
  | scratch name =>
    obtain ⟨dir, _, _, _, _, _, _⟩ := s
    cases dir <;> rfl

@[simp] theorem rest_withObject (x : Option ObjectDir) :
    source.rest (withObject E b key x s) = withObject E b key x (source.rest s) := by
  cases source with
  | inMemory => rfl
  | spooled path => rfl
  | scratch name =>
    obtain ⟨dir, _, _, _, _, _, _⟩ := s
    cases dir <;> rfl

end BodySource

/-! ### Keeping the current version -/

theorem quiet_createBucketDirectory : createBucketDirectory.Quiet :=
  quiet_createDirectoryDurable (quiet_ret _)

theorem wp_createBucketDirectory {Q : Except Error Unit → BucketState → Prop} (hdir : s.dir.isSome)
    (hJ : J s.dir) (hQ : Q (.ok ()) s) : wp (fun t ↦ J t.dir) createBucketDirectory Q s := by
  refine wp_createDirectoryDurable hJ (fun _ ↦ hQ) fun hnone ↦ ?_
  rw [BucketState.dirLens_get] at hnone
  rw [hnone] at hdir
  cases hdir

theorem wp_snapshotCurrent {Q : Except Error Unit → BucketState → Prop} {v : VersioningState}
    (hdir : s.dir.isSome) (h : Ready E ((objectIdDir E b key).get s) H)
    (hsize : ∀ data o, H.current = some (data, o) → data.length = o.size)
    (hJ : ∀ x H', Stands E x H' → H' = H ∨ H' = H.snapshot (some v) →
      J (withObject E b key x s).dir)
    (hQ : ∀ x, Settled E x (H.snapshot (some v)) → Q (.ok ()) (withObject E b key x s)) :
    wp (fun t ↦ J t.dir) (snapshotCurrent E b key (v = .enabled)) Q s := by
  simp only [snapshotCurrent, bind_eq, pure_eq, wp_bind, wp_attempt]
  refine wp_readObjectMetadataLocked hdir h (fun x hx ↦ hJ x H hx (.inl rfl)) fun x hx hsome ↦ ?_
  have hj := hJ x H hx.stands (.inl rfl)
  rw [History.metadata]
  cases hcur : H.current with
  | none =>
    rw [History.snapshot_of_none hcur] at hQ
    exact ⟨hj, hQ x hx⟩
  | some st =>
    obtain ⟨data, o⟩ := st
    simp only [Bool.or_eq_true, decide_eq_true_eq]
    split
    · next hkeep =>
      rw [History.snapshot_of_keep hcur hkeep] at hJ hQ
      cases x with
      | none =>
        have hb := (files_of_settled hx).1
        rw [hcur] at hb
        cases hb
      | some d =>
        refine wp_writeVersionSnapshot (d := d) (b := data) (by simp) (by simp) hx hcur
          (hsize data o hcur) quiet_createBucketDirectory (fun y hy ↦ ?_) (fun y hy ↦ ?_)
          fun y hy _ ↦ ?_
        · simpa using hJ y _ hy (.inl rfl)
        · simpa using hJ y _ hy (.inr rfl)
        · simpa using hQ y hy
    · next hkeep =>
      rw [History.snapshot_of_not_keep hcur hkeep] at hQ
      exact ⟨hj, hQ x hx⟩

/-! ### Writing -/

theorem wp_publishBody {Q : Except Error Unit → BucketState → Prop} {source : BodySource}
    {o : Object} (hdir : s.dir.isSome) (h : Ready E ((objectIdDir E b key).get s) H)
    (hJ : ∀ x s' H', Stands E x H' → s' = s ∨ s' = source.rest s →
      H' = H ∨ (∃ data, source.bytes o s = some data ∧ data.length = o.size ∧
        H' = H.change (History.putChange o.versionId) (some (data, o.serialized))) →
      J (withObject E b key x s').dir)
    (hok : ∀ x data, source.bytes o s = some data → data.length = o.size →
      Settled E x (H.change (History.putChange o.versionId) (some (data, o.serialized))) →
      Q (.ok ()) (withObject E b key x (source.rest s)))
    (herr : ∀ e x s', (∀ data, source.bytes o s = some data → data.length ≠ o.size) →
      s' = s ∨ s' = source.rest s → Settled E x H → Q (.error e) (withObject E b key x s')) :
    wp (fun t ↦ J t.dir) (publishPair E (objectDirs E) (objectIdDir E b key) createBucketDirectory o
      source.payload) Q s := by
  have hJs : J s.dir := by
    have := hJ _ s H h.stands (.inl rfl) (.inl rfl)
    rwa [withObject, objectIdDir, BucketState.objectLens_set_get hdir] at this
  have hnull : validVersionId "null" = true := by decide
  have hchange : ({ publish := true
                    clearCurrent := false
                    removeVersions := if (o.versionId = some "null" && !(objectDirs E).inVersions)
                      then ["null"] else []
                    marker := none } : Change) = History.putChange o.versionId := by
    simp [History.putChange]
  have hvalid : ∀ data, (History.putChange o.versionId).Valid (some (data, o.serialized)) ↔
      data.length = o.size := by
    intro data
    constructor
    · rintro ⟨-, hst⟩
      obtain ⟨_, _, ⟨⟩, hlen⟩ := hst rfl
      exact hlen
    · intro hlen
      refine ⟨⟨fun _ ↦ ⟨rfl, rfl⟩, fun id hid ↦ ?_, nofun⟩, fun _ ↦ ⟨_, _, rfl, hlen⟩⟩
      simp only [History.putChange] at hid
      split at hid
      · rw [List.mem_singleton.1 hid]; exact hnull
      · cases hid
  unfold publishPair
  rw [hchange]
  simp only [← BodySource.rest_payload, ← BodySource.bytes_payload] at hJ hok herr
  refine wp_publishObject (fun d hd ↦ BucketState.objectLens_set_some hd) h.stands h.calm
    (fun _ _ heq ↦ ?_) quiet_createBucketDirectory (fun _ ↦ ?_) ?_ ?_ ?_ ?_ ?_
  · cases source <;> cases heq
  · exact wp_createBucketDirectory hdir hJs ⟨rfl, fun _ ↦ rfl⟩
  · rintro _ _ ⟨⟩
    exact BodySource.frames E b key source
  · exact fun x s' hx hs' ↦ hJ x s' H hx hs' (.inl rfl)
  · rintro x st hx ⟨data, hdata, rfl⟩ hv
    exact hJ x _ _ hx (.inr rfl) (.inr ⟨data, hdata, (hvalid data).1 hv, rfl⟩)
  · rintro x st hx ⟨data, hdata, rfl⟩ hv _
    exact hok x data hdata ((hvalid data).1 hv) hx
  · rintro e x s' hx hbad hs'
    refine herr e x s' (fun data hdata hlen ↦ ?_) hs' hx
    exact hbad _ ⟨data, hdata, rfl⟩ ((hvalid data).2 hlen)

/-- What an operation keeps in memory beside the index. -/
def BucketState.remember (a : Option Bool) (n : ℕ) (s : BucketState) : BucketState :=
  { s with azureProtectionPossible := a, drawn := n }

theorem BodySource.versioning_rest {source : BodySource} :
    (source.rest s).dir.bind (·.versioning) = s.dir.bind (·.versioning) := by
  cases source with
  | inMemory => rfl
  | spooled path => rfl
  | scratch name =>
    show (s.dir.map _).bind _ = _
    cases s.dir <;> rfl

@[simp] theorem BodySource.bytes_remember {source : BodySource} {a : Option Bool} {n : ℕ} (o : Object) :
    source.bytes o (s.remember a n) = source.bytes o s := by
  cases source <;> rfl

@[simp] theorem BodySource.rest_remember {source : BodySource} {a : Option Bool} {n : ℕ} :
    source.rest (s.remember a n) = (source.rest s).remember a n := by
  cases source <;> rfl

theorem withObject_remember (x : Option ObjectDir) (a : Option Bool) (n : ℕ) :
    withObject E b key x (s.remember a n) = (withObject E b key x s).remember a n :=
  rfl

/-- The identity of a new version, when `n` identities have been drawn. -/
def versionIdFor (E : Env) (v : Option VersioningState) (n : ℕ) : Option String :=
  match v with
  | none => none
  | some .enabled => some (E.uuid n)
  | some .suspended => some "null"

/-- How many identities have been drawn after a new version. -/
def drawnFor (v : Option VersioningState) (n : ℕ) : ℕ :=
  if v = some .enabled then n + 1 else n

theorem wp_admitAzureProtection {Q : Except Error Unit → BucketState → Prop} {o : Object}
    (hJ : J s.dir) (hQ : ∀ a, Q (.ok ()) (s.remember a s.drawn)) :
    wp (fun t ↦ J t.dir) (admitAzureProtection o) Q s := by
  unfold admitAzureProtection
  split
  · rw [wp_modify]
    exact ⟨hJ, hJ, hQ (some true)⟩
  · exact ⟨hJ, hQ s.azureProtectionPossible⟩

theorem versioning_flags {v : Option VersioningState} (hv : s.dir.bind (·.versioning) = v) :
    s.versioningEnabled = decide (v = some .enabled) ∧
      s.versioningSuspended = decide (v = some .suspended) := by
  unfold BucketState.versioningEnabled BucketState.versioningSuspended
  rw [hv]
  rcases v with _ | _ | _ <;> exact ⟨rfl, rfl⟩

theorem wp_newVersionId {Q : Except Error (Option String) → BucketState → Prop}
    {v : Option VersioningState} (hJ : J s.dir)
    (hQ : Q (.ok (versionIdFor E v s.drawn)) (s.remember s.azureProtectionPossible
      (drawnFor v s.drawn))) :
    wp (fun t ↦ J t.dir) (newVersionId E (v = some .enabled) (v = some .suspended)) Q s := by
  rcases v with _ | _ | _
  · exact ⟨hJ, hQ⟩
  · exact ⟨hJ, rfl, hJ, hQ⟩
  · exact ⟨hJ, hQ⟩

/-- What is left of the current object after a publication that has failed. -/
theorem left_of_settled {y : Option ObjectDir} {H : History} (hy : Settled E y H) :
    ((((objectIdDir E b key).get (withObject E b key y s)).bind (·.files.journal)).isSome ||
      (objectBlob E b key (withObject E b key y s)).isSome) = H.current.isSome := by
  have hjournal : (y.bind (·.files.journal)).isSome = false := by
    cases y with
    | none => rfl
    | some d => rw [Option.bind_some, hy.files.1]; rfl
  rw [objectIdDir_get_withObject, hjournal, objectBlob_withObject hy, Option.isSome_map,
    Bool.false_or]

/-- **The publication of a write**, once the version that it replaces has been kept. -/
theorem wp_publishNewVersion {Q : Except Error Unit → BucketState → Prop} {source : BodySource}
    {o : Object} {v : Option VersioningState} {x : Option ObjectDir} (a : Option Bool)
    (hx : Ready E x (H.snapshot v))
    (hJ : ∀ y s' H', Stands E y H' → s'.dir = s.dir ∨ s'.dir = (source.rest s).dir →
      (H' = H.snapshot v ∨ ∃ data, source.bytes o s = some data ∧ data.length = o.size ∧
        H' = H.put v (versionIdFor E v s.drawn) data o) → J (withObject E b key y s').dir)
    (hok : ∀ y data, source.bytes o s = some data → data.length = o.size →
      Settled E y (H.put v (versionIdFor E v s.drawn) data o) →
      Q (.ok ()) (((withObject E b key y (source.rest s)).remember a
        (drawnFor v s.drawn)).insertKey key))
    (herr : ∀ e y s', (∀ data, source.bytes o s = some data → data.length ≠ o.size) →
      s' = s ∨ s' = source.rest s → Settled E y (H.snapshot v) →
      Q (.error e) (if H.current.isSome then
        ((withObject E b key y s').remember a (drawnFor v s.drawn)).insertKey key
      else (withObject E b key y s').remember a (drawnFor v s.drawn))) :
    wp (fun t ↦ J t.dir) ((newVersionId E (v = some .enabled) (v = some .suspended)).bind fun id ↦
      (attempt (publishPair E (objectDirs E) (objectIdDir E b key) createBucketDirectory
        (o.withVersionId id) source.payload)).bind fun outcome ↦
      (read fun s ↦ (((objectIdDir E b key).get s).bind (·.files.journal)).isSome ||
        (objectBlob E b key s).isSome).bind fun left ↦
      if (outcome.isOk || left) = true then
        (modify (BucketState.insertKey key)).bind fun _ ↦ ofExcept outcome
      else ofExcept outcome) Q ((withObject E b key x s).remember a s.drawn) := by
  rw [wp_bind]
  refine wp_newVersionId (hJ _ _ _ hx.stands (.inl rfl) (.inl rfl)) ?_
  simp only [wp_bind, wp_attempt]
  show wp _ _ _ ((withObject E b key x s).remember a (drawnFor v s.drawn))
  have hbytes : ∀ id, source.bytes (o.withVersionId id) ((withObject E b key x s).remember a
      (drawnFor v s.drawn)) = source.bytes o s := by
    intro id
    rw [BodySource.bytes_remember, BodySource.bytes_withObject]
    cases source <;> rfl
  have hrest : source.rest ((withObject E b key x s).remember a (drawnFor v s.drawn)) =
      (withObject E b key x (source.rest s)).remember a (drawnFor v s.drawn) := by
    rw [BodySource.rest_remember, BodySource.rest_withObject]
  refine wp_publishBody (H := H.snapshot v) rfl ?_ ?_ ?_ ?_
  · show Ready E ((objectIdDir E b key).get (withObject E b key x s)) _
    rwa [objectIdDir_get_withObject]
  · intro y s' H' hy hs' hH'
    simp only [hbytes] at hH'
    rw [hrest] at hs'
    rcases hs' with rfl | rfl
    · rw [withObject_remember, withObject_withObject]
      exact hJ _ _ _ hy (.inl rfl) hH'
    · rw [withObject_remember, withObject_withObject]
      exact hJ _ _ _ hy (.inr rfl) hH'
  · intro y data hdata hlen hy
    rw [hbytes] at hdata
    rw [hrest, withObject_remember, withObject_withObject]
    have hj : J (withObject E b key y (source.rest s)).dir :=
      hJ _ _ _ hy.stands (.inr rfl) (.inr ⟨data, hdata, hlen, rfl⟩)
    exact ⟨hj, rfl, hj, hj, rfl, hj, hok y data hdata hlen hy⟩
  · intro e y s' hbad hs' hy
    simp only [hbytes] at hbad
    rw [hrest] at hs'
    obtain ⟨s'', hs'', rfl⟩ : ∃ s'', (s'' = s ∨ s'' = source.rest s) ∧
        s' = (withObject E b key x s'').remember a (drawnFor v s.drawn) := by
      rcases hs' with rfl | rfl
      · exact ⟨s, .inl rfl, rfl⟩
      · exact ⟨source.rest s, .inr rfl, rfl⟩
    rw [withObject_remember, withObject_withObject]
    have hj : J (withObject E b key y s'').dir := by
      rcases hs'' with rfl | rfl
      · exact hJ _ _ _ hy.stands (.inl rfl) (.inl rfl)
      · exact hJ _ _ _ hy.stands (.inr rfl) (.inl rfl)
    have hq := herr e y s'' hbad hs'' hy
    have hleft : ((((objectIdDir E b key).get ((withObject E b key y s'').remember a
        (drawnFor v s.drawn))).bind (·.files.journal)).isSome ||
        (objectBlob E b key ((withObject E b key y s'').remember a (drawnFor v s.drawn))).isSome) =
        H.current.isSome := by
      refine (left_of_settled hy).trans ?_
      rw [History.current_snapshot]
    rw [wp_read, hleft]
    refine ⟨hj, ?_⟩
    cases hcur : H.current.isSome with
    | true =>
      rw [hcur] at hq
      exact ⟨hj, rfl, hj, hq⟩
    | false =>
      rw [hcur] at hq
      exact ⟨hj, hq⟩

/-- **A write publishes its bytes as the current version**, and keeps the version that it replaces.
It fails when the bytes cannot be read or are not as many as the object says. -/
theorem wp_putObjectLockedWithPayload {Q : Except Error Unit → BucketState → Prop}
    {source : BodySource} {o : Object} {v : Option VersioningState} (hdir : s.dir.isSome)
    (hv : s.dir.bind (·.versioning) = v) (h : Ready E ((objectIdDir E b key).get s) H)
    (hsize : ∀ data o, H.current = some (data, o) → data.length = o.size)
    (hJ : ∀ x s' H', Stands E x H' → s'.dir = s.dir ∨ s'.dir = (source.rest s).dir →
      (H' = H ∨ H' = H.snapshot v ∨ ∃ data, source.bytes o s = some data ∧ data.length = o.size ∧
        H' = H.put v (versionIdFor E v s.drawn) data o) → J (withObject E b key x s').dir)
    (hok : ∀ x a data, source.bytes o s = some data → data.length = o.size →
      Settled E x (H.put v (versionIdFor E v s.drawn) data o) →
      Q (.ok ()) (((withObject E b key x (source.rest s)).remember a
        (drawnFor v s.drawn)).insertKey key))
    (herr : ∀ e x a s', (∀ data, source.bytes o s = some data → data.length ≠ o.size) →
      s' = s ∨ s' = source.rest s → Settled E x (H.snapshot v) →
      Q (.error e) (if H.current.isSome then
        ((withObject E b key x s').remember a (drawnFor v s.drawn)).insertKey key
      else (withObject E b key x s').remember a (drawnFor v s.drawn))) :
    wp (fun t ↦ J t.dir) (putObjectLockedWithPayload E b key o source) Q s := by
  have hJs : J s.dir := by
    have := hJ _ s H h.stands (.inl rfl) (.inl rfl)
    rwa [withObject, objectIdDir, BucketState.objectLens_set_get hdir] at this
  obtain ⟨d, hd⟩ := Option.isSome_iff_exists.1 hdir
  have hpublish := fun (x : Option ObjectDir) (a : Option Bool) (hx : Ready E x (H.snapshot v)) ↦
    wp_publishNewVersion (J := J) a hx (fun y s' H' hy hs' hH' ↦ hJ y s' H' hy hs' (.inr hH'))
      (fun y data ↦ hok y a data) fun e y s' ↦ herr e y a s'
  simp only [putObjectLockedWithPayload, bind_eq, wp_bind, wp_read]
  rw [hd, Option.isNone_some, ← hd]
  refine ⟨hJs, ?_⟩
  simp only [Bool.false_eq_true, if_false, wp_bind]
  refine wp_admitAzureProtection hJs fun a ↦ ?_
  simp only [wp_read]
  refine ⟨hJs, hJs, ?_⟩
  obtain ⟨henabled, hsuspended⟩ := versioning_flags (s := s.remember a s.drawn) hv
  rw [henabled, hsuspended]
  cases v with
  | none =>
    have hself : withObject E b key ((objectIdDir E b key).get s) s = s :=
      BucketState.objectLens_set_get hdir
    have := hpublish _ a h
    rw [hself] at this
    exact this
  | some v =>
    have hsome : (decide (some v = some VersioningState.enabled) ||
        decide (some v = some VersioningState.suspended)) = true := by
      cases v <;> rfl
    have henabled' : decide (some v = some VersioningState.enabled) = decide (v = .enabled) := by
      cases v <;> rfl
    rw [if_pos hsome, wp_bind]
    nth_rewrite 1 [henabled']
    refine wp_snapshotCurrent hdir h hsize (fun x H' hx hH' ↦ ?_) fun x hx ↦ ?_
    · rw [withObject_remember]
      exact hJ x s H' hx (.inl rfl) (hH'.imp_right .inl)
    · rw [withObject_remember]
      exact hpublish x a hx.ready

theorem wp_putObjectLockedWithPayload_of_none {Q : Except Error Unit → BucketState → Prop}
    {source : BodySource} {o : Object} (hdir : s.dir = none) (hJ : J s.dir)
    (hQ : Q (.error .bucketNotFound) s) :
    wp (fun t ↦ J t.dir) (putObjectLockedWithPayload E b key o source) Q s := by
  simp only [putObjectLockedWithPayload, bind_eq, wp_bind, wp_read]
  rw [hdir, Option.isNone_none, ← hdir]
  exact ⟨hJ, hJ, hQ⟩

theorem wp_deleteObjectLocked_of_none {Q : Except Error Unit → BucketState → Prop}
    (hdir : s.dir = none) (hJ : J s.dir) (hQ : Q (.error .keyNotFound) s) :
    wp (fun t ↦ J t.dir) (deleteObjectLocked E b key) Q s := by
  obtain ⟨henabled, hsuspended⟩ := versioning_flags (s := s) (v := none) (by rw [hdir]; rfl)
  simp only [deleteObjectLocked, removeUnversioned, bind_eq, wp_bind, wp_read]
  refine ⟨hJ, hJ, ?_⟩
  rw [henabled, hsuspended, if_neg (by decide), wp_bind, wp_bind]
  exact wp_readObjectMetadataLocked_of_none hdir hJ hQ

/-! ### Changing the history -/

theorem Staged.unique {σ : Type} {s : σ} {staged : Option (Object × Payload σ)}
    {st st' : Option Stored} (h : Staged s staged st) (h' : Staged s staged st') : st = st' := by
  cases staged with
  | none => exact Eq.trans h (Eq.symm h')
  | some y =>
    obtain ⟨data, hdata, rfl⟩ := h
    obtain ⟨data', hdata', rfl⟩ := h'
    rw [Option.some.inj (hdata.symm.trans hdata')]

/-- A `change_history` whose record is valid. -/
theorem wp_changeHistory {Q : Except Error Unit → BucketState → Prop}
    {promoted : Option (Object × (BucketState → Option Bytes))} {removeVersions : List String}
    {marker : Option Object} {clearCurrent : Bool} {st : Option Stored}
    {r : Change} (hr : r = ⟨promoted.isSome, clearCurrent, removeVersions, marker⟩)
    (hdir : s.dir.isSome) (h : Ready E ((objectIdDir E b key).get s) H)
    (hstored : ∀ o source, promoted = some (o, source) →
      DirKind.Law.NoJournal (objectDirs E) ((objectIdDir E b key).get s) ∧
        (Payload.stored source).Frames (objectDirsLaw E) hideAll (objectIdDir E b key))
    (hst : Staged s (promoted.map fun y ↦ (y.1, .stored y.2)) st) (hvalid : r.Valid st)
    (hJ : ∀ x H', Stands E x H' → H' = H ∨ H' = H.change r st → J (withObject E b key x s).dir)
    (hQ : ∀ x, Settled E x (H.change r st) → x.isSome → Q (.ok ()) (withObject E b key x s)) :
    wp (fun t ↦ J t.dir) (changeHistory E (objectIdDir E b key) promoted removeVersions marker
      clearCurrent) Q s := by
  have hJs : J s.dir := by
    have := hJ _ H h.stands (.inl rfl)
    rwa [withObject, objectIdDir, BucketState.objectLens_set_get hdir] at this
  have hrest : stagedRest s (promoted.map fun y ↦ (y.1, Payload.stored y.2)) = s := by
    cases promoted <;> rfl
  subst hr
  unfold changeHistory
  refine wp_publishObject (fun d hd ↦ BucketState.objectLens_set_some hd) h.stands h.calm
    (fun o source heq ↦ ?_) (quiet_ret _) (fun _ ↦ ⟨hJs, rfl, fun _ ↦ rfl⟩) (fun o payload heq ↦ ?_)
    ?_ ?_ ?_ ?_
  · obtain ⟨y, hy, hpair⟩ := Option.map_eq_some_iff.1 heq
    exact (hstored y.1 y.2 hy).1
  · obtain ⟨y, hy, hpair⟩ := Option.map_eq_some_iff.1 heq
    cases hpair
    exact (hstored y.1 y.2 hy).2
  · rintro x s' hx (rfl | rfl)
    · exact hJ x H hx (.inl rfl)
    · rw [hrest]
      exact hJ x H hx (.inl rfl)
  · intro x st' hx hst' _
    rw [hst'.unique hst] at hx
    rw [hrest]
    exact hJ x _ hx (.inr rfl)
  · intro x st' hx hst' _ hsome
    rw [hst'.unique hst] at hx
    rw [hrest]
    exact hQ x hx hsome
  · exact fun _ _ _ _ hbad _ ↦ absurd hvalid (hbad st hst)

/-! ### Deleting -/

/-- The marker that a delete leaves, when `n` identities have been drawn. -/
def markerFor (E : Env) (v : Option VersioningState) (n : ℕ) (now : Time) (key : Text) :
    Option Object :=
  (versionIdFor E v n).map (deleteMarker E now key)

theorem valid_deleteChange (E : Env) (v : Option VersioningState) (n : ℕ) (now : Time)
    (key : Text) : (History.deleteChange v (markerFor E v n now key)).Valid none := by
  have hnull : validVersionId "null" = true := by decide
  refine ⟨⟨nofun, fun id hid ↦ ?_, fun m hm ↦ ?_⟩, nofun⟩
  · simp only [History.deleteChange] at hid
    split at hid
    · rw [List.mem_singleton.1 hid]; exact hnull
    · cases hid
  · obtain ⟨id, hid, rfl⟩ := Option.map_eq_some_iff.1 hm
    refine ⟨id, rfl, ?_, rfl, rfl⟩
    rcases v with _ | _ | _
    · cases hid
    · cases hid; exact E.uuid_valid n
    · cases hid; exact hnull

theorem wp_leaveDeleteMarker {Q : Except Error Unit → BucketState → Prop} {v : VersioningState}
    (hdir : s.dir.isSome) (h : Ready E ((objectIdDir E b key).get s) H)
    (hsize : ∀ data o, H.current = some (data, o) → data.length = o.size)
    (hJ : ∀ x H', Stands E x H' → (H' = H ∨ H' = H.snapshot (some v) ∨
      ∃ now, H' = H.delete (some v) (markerFor E (some v) s.drawn now key)) →
      J (withObject E b key x s).dir)
    (hok : ∀ x now, Settled E x (H.delete (some v) (markerFor E (some v) s.drawn now key)) →
      Q (.ok ()) ((withObject E b key x s).remember s.azureProtectionPossible
        (drawnFor (some v) s.drawn))) :
    wp (fun t ↦ J t.dir) (leaveDeleteMarker E b key (v = .enabled) (v = .suspended)) Q s := by
  simp only [leaveDeleteMarker, bind_eq, wp_bind]
  refine wp_snapshotCurrent hdir h hsize (fun x H' hx hH' ↦ hJ x H' hx (hH'.imp_right .inl))
    fun x hx ↦ ?_
  have hj := hJ x _ hx.stands (.inr (.inl rfl))
  have hid : wp (fun t ↦ J t.dir) (newMarkerId E (decide (v = .suspended))) (fun r t ↦
      ∃ id, r = .ok id ∧ versionIdFor E (some v) s.drawn = some id ∧
        t = (withObject E b key x s).remember s.azureProtectionPossible
          (drawnFor (some v) s.drawn)) (withObject E b key x s) := by
    cases v with
    | enabled => exact ⟨hj, rfl, hj, _, rfl, rfl, rfl⟩
    | suspended => exact ⟨hj, _, rfl, rfl, rfl⟩
  refine wp_mono hid (fun _ ↦ id) ?_
  rintro _ _ - ⟨id, rfl, hid, rfl⟩ now
  have hmarker : markerFor E (some v) s.drawn now key = some (deleteMarker E now key id) := by
    rw [markerFor, hid]
    rfl
  have hremove : (if decide (v = .suspended) = true then ["null"] else []) =
      (if some v = some VersioningState.suspended then ["null"] else []) := by
    cases v <;> rfl
  show wp _ (changeHistory E (objectIdDir E b key) none _ (some (deleteMarker E now key id)) true) _ _
  rw [hremove, ← hmarker]
  have hrecord : History.deleteChange (some v) (markerFor E (some v) s.drawn now key) =
      ⟨false, true, _, _⟩ := rfl
  refine wp_changeHistory (H := H.snapshot (some v)) hrecord rfl ?_ (fun _ _ h ↦ by cases h) rfl
    (valid_deleteChange E (some v) s.drawn now key) (fun y H' hy hH' ↦ ?_) fun y hy _ ↦ ?_
  · show Ready E ((objectIdDir E b key).get (withObject E b key x s)) _
    rw [objectIdDir_get_withObject]
    exact hx.ready
  · rw [withObject_remember, withObject_withObject]
    exact hJ y H' hy (.inr (hH'.imp_right fun hH' ↦ ⟨now, hH'⟩))
  · rw [withObject_remember, withObject_withObject]
    exact hok y now hy

theorem wp_removeUnversioned {Q : Except Error Unit → BucketState → Prop} (hdir : s.dir.isSome)
    (h : Ready E ((objectIdDir E b key).get s) H) (hplain : H.versions = fun _ ↦ none)
    (hJ : ∀ x H', Stands E x H' → H' = H ∨ H' = {} → J (withObject E b key x s).dir)
    (hok : H.current.isSome → Q (.ok ()) (withObject E b key none s))
    (herr : H.current = none → ∀ x, Settled E x H →
      Q (.error .keyNotFound) (withObject E b key x s)) :
    wp (fun t ↦ J t.dir) (removeUnversioned E b key) Q s := by
  have hempty : H.change (History.deleteChange none none) none = {} := by
    refine History.ext rfl (funext fun id ↦ ?_)
    simp [History.change, History.deleteChange, Change.markerId, hplain]
  simp only [removeUnversioned, bind_eq, wp_bind]
  refine wp_readObjectMetadataLocked hdir h (fun x hx ↦ hJ x H hx (.inl rfl)) fun x hx _ ↦ ?_
  rw [History.metadata]
  cases hcur : H.current with
  | none => exact herr hcur x hx
  | some st =>
    have hrecord : History.deleteChange none none = ⟨false, true, [], none⟩ := rfl
    refine wp_changeHistory (H := H) hrecord rfl ?_
      (fun _ _ h ↦ by cases h) rfl (valid_deleteChange E none 0 0 key) (fun y H' hy hH' ↦ ?_) fun y hy hsome ↦ ?_
    · rw [objectIdDir_get_withObject]
      exact hx.ready
    · rw [withObject_withObject]
      rw [hempty] at hH'
      exact hJ y H' hy hH'
    · rw [withObject_withObject]
      rw [hempty] at hy
      obtain ⟨d, rfl⟩ := Option.isSome_iff_exists.1 hsome
      dsimp only
      refine wp_removeObjectDir (objectIdDir_get_withObject _) (withObject_withObject _ _)
        (settled_empty_iff.1 hy) (fun d' hd' ↦ ?_) ?_ ?_
      · rw [objectIdDir_set_eq, withObject_withObject]
        exact hJ (some d') {} (settled_empty_iff.2 hd').stands (.inr rfl)
      · rw [objectIdDir_set_eq, withObject_withObject]
        exact hJ none {} settled_none.stands (.inr rfl)
      · rw [objectIdDir_set_eq, withObject_withObject]
        exact hok (by rw [hcur]; rfl)

/-- **A delete takes the current version away**: with versioning it is kept and a marker is left,
without versioning the whole directory goes. -/
theorem wp_deleteObjectLocked {Q : Except Error Unit → BucketState → Prop}
    {v : Option VersioningState} (hdir : s.dir.isSome) (hv : s.dir.bind (·.versioning) = v)
    (h : Ready E ((objectIdDir E b key).get s) H)
    (hsize : ∀ data o, H.current = some (data, o) → data.length = o.size)
    (hplain : v = none → H.versions = fun _ ↦ none)
    (hJ : ∀ x H', Stands E x H' → (H' = H ∨ H' = H.snapshot v ∨
      ∃ now, H' = H.delete v (markerFor E v s.drawn now key)) → J (withObject E b key x s).dir)
    (hok : ∀ x now, v ≠ none ∨ H.current.isSome →
      Settled E x (H.delete v (markerFor E v s.drawn now key)) →
      Q (.ok ()) (((withObject E b key x s).remember s.azureProtectionPossible
        (drawnFor v s.drawn)).removeKey key))
    (herr : v = none → H.current = none → ∀ x, Settled E x H →
      Q (.error .keyNotFound) (withObject E b key x s)) :
    wp (fun t ↦ J t.dir) (deleteObjectLocked E b key) Q s := by
  have hJs : J s.dir := by
    have := hJ _ H h.stands (.inl rfl)
    rwa [withObject, objectIdDir, BucketState.objectLens_set_get hdir] at this
  obtain ⟨henabled, hsuspended⟩ := versioning_flags hv
  simp only [deleteObjectLocked, bind_eq, wp_bind, wp_read]
  refine ⟨hJs, hJs, ?_⟩
  rw [henabled, hsuspended]
  cases v with
  | none =>
    have hempty : H.delete none (markerFor E none s.drawn 0 key) = {} := by
      refine History.ext rfl (funext fun id ↦ ?_)
      simp [History.delete, History.snapshot, History.change, History.deleteChange,
        Change.markerId, markerFor, versionIdFor, hplain rfl]
    rw [if_neg (by decide), wp_bind]
    refine wp_removeUnversioned hdir h (hplain rfl) (fun x H' hx hH' ↦ ?_) (fun hcur ↦ ?_) (herr rfl)
    · exact hJ x H' hx (hH'.imp_right fun h ↦ .inr ⟨0, h.trans hempty.symm⟩)
    · have hj := hJ none _ settled_none.stands (.inr (.inr ⟨0, hempty.symm⟩))
      exact wp_modify.2 ⟨hj, hj, hok none 0 (.inr hcur) (hempty ▸ settled_none)⟩
  | some v =>
    have hsome : (decide (some v = some VersioningState.enabled) ||
        decide (some v = some VersioningState.suspended)) = true := by
      cases v <;> rfl
    have hflags : decide (some v = some VersioningState.enabled) = decide (v = .enabled) ∧
        decide (some v = some VersioningState.suspended) = decide (v = .suspended) := by
      cases v <;> exact ⟨rfl, rfl⟩
    rw [if_pos hsome, hflags.1, hflags.2, wp_bind, wp_read]
    refine ⟨hJs, ?_⟩
    obtain ⟨d, hd⟩ := Option.isSome_iff_exists.1 hdir
    rw [hd, Option.isNone_some]
    simp only [Bool.false_eq_true, if_false, wp_bind]
    refine wp_leaveDeleteMarker hdir h hsize hJ fun x now hx ↦ ?_
    have hj := hJ x _ hx.stands (.inr (.inr ⟨now, rfl⟩))
    exact wp_modify.2 ⟨hj, hj, hok x now (.inl nofun) hx⟩

/-! ### Under the mutex of a key -/

theorem Store.bucket_set_get (E : Env) (b : String) (s : Store) :
    (Store.bucket E b).set ((Store.bucket E b).get s) s = s := by
  simp [Store.bucket]

/-- **An operation that runs alone does what its program does**, and leaves no mutex. -/
theorem wp_onObject {α : Type} {p : Op BucketState α} {s : Store} {I : BucketState → Prop}
    {J : Store → Prop} {Q : Except Error α → Store → Prop} (hfree : s.objectLocks.cells = ∅)
    (hI : ∀ x locks, I x → J ((Store.bucket E b).set x { s with objectLocks := locks }))
    (h : wp I p (fun r x ↦ ∀ locks : Registry String, locks.cells = ∅ →
      Q r ((Store.bucket E b).set x { s with objectLocks := locks })) ((Store.bucket E b).get s)) :
    wp J (onObject E b key p) Q s := by
  have hstart : ∀ locks, J { s with objectLocks := locks } := by
    intro locks
    have := hI _ locks (inv_of_wp h)
    rwa [show (Store.bucket E b).get s = (Store.bucket E b).get { s with objectLocks := locks } from
      rfl, Store.bucket_set_get] at this
  refine wp_withLock rfl hfree hstart fun locks ↦ wp_zoom (Store.bucket_set_get E b _) ?_
  refine wp_mono h (fun x ↦ hI x locks) fun r x hx hq ↦ ⟨rfl, fun locks' ↦ ?_, fun locks' hl ↦ ?_⟩
  · exact hI x locks' hx
  · exact hq locks' hl

end Rules

end Sqrzl
