import SqrzlEmulator.Storage.VersionDelete

/-!
# Range reads are exact slices

The reads of `storage/filesystem.rs` that return a part of an object or of a version, and the read
of the metadata of a version.

The arithmetic of a range is on `u64`, and is safe only where the size in the metadata is the length
of the stored bytes: a subtraction below zero stops the program, and a read past the end of the file
fails. Both are steps of the programs below, and **neither is taken in a state that is reached**,
because every step of a history keeps it filed (`History.Step.sound`).
-/

namespace Sqrzl

open Prog

/-! ### Programs -/

/-- The subtraction of `u64`, which stops the program below zero. -/
def subU64 (x y : ℕ) : Op BucketState ℕ :=
  if y ≤ x then .ret (x - y) else .fail (.internalError "attempt to subtract with overflow")

/-- `read_exact`, into a buffer of the given length, from an offset of a file. -/
def readExact (message : String) (data : Bytes) (start length : ℕ) : Op BucketState Bytes :=
  if start + length ≤ data.length then
    .ret ((data.drop start).take length)
  else
    .fail (.internalError message)

/-- The part of a range read that follows the read of the metadata; `blob` is the file that is read.
Lengths of at most the size of an object are `usize`. -/
def readPart (openMessage readMessage : String) (object : Object) (start : ℕ) (stop : Option ℕ)
    (blob : BucketState → Option Bytes) : Op BucketState (Object × Bytes) := do
  if object.size ≤ start then
    .fail (.invalidRequest "Range start beyond file size")
  let last ← subU64 object.size 1
  let actualEnd := stop.elim last (min · last)
  if actualEnd < start then
    .fail (.invalidRequest "Invalid range: end < start")
  let difference ← subU64 actualEnd start
  let data ← sysRead (.internalError openMessage) blob
  let buffer ← readExact readMessage data start (difference + 1)
  return (object, buffer)

section Programs

variable (E : Env) (b : String)

/-- `read_object_range_locked` -/
def readObjectRangeLocked (key : Text) (start : ℕ) (stop : Option ℕ) :
    Op BucketState (Object × Bytes) := do
  recoverAt E (objectDirs E) (objectIdDir E b key)
  if ← read fun s ↦ (objectBlob E b key s).isNone then
    .fail .keyNotFound
  let object ← sysRead (.internalError "Failed to read metadata") (objectMetadata E b key)
  readPart "Failed to open object file" "Failed to read range" object start stop
    (objectBlob E b key)

/-- `read_version_metadata_and_path_locked`; the path is where the bytes of the version are. -/
def readVersionMetadataAndPathLocked (key : Text) (id : String) :
    Op BucketState (Object × (BucketState → Option Bytes)) := do
  if ← read fun s ↦ s.dir.isNone then
    .fail .bucketNotFound
  if !validVersionId id then
    .fail .noSuchVersion
  recoverAt E (objectDirs E) (objectIdDir E b key)
  recoverAt E versionDirs (versionIdDir E b key id)
  if ← read fun s ↦ (versionBlob E b key id s).isSome then
    let object ← sysRead (.internalError "Failed to read metadata") (versionMetadata E b key id)
    return (object.withVersionId (some id), versionBlob E b key id)
  else
    match ← attempt (readObjectMetadataLocked E b key) with
    | .ok object =>
      if object.versionId ≠ some id then
        .fail .noSuchVersion
      else
        return (object.withVersionId (some id), objectBlob E b key)
    | .error .keyNotFound => .fail .noSuchVersion
    | .error e => .fail e

/-- What `get_object_version_range` does under the mutex of the key. -/
def readVersionRangeLocked (key : Text) (id : String) (start : ℕ) (stop : Option ℕ) :
    Op BucketState (Object × Bytes) := do
  let (object, blob) ← readVersionMetadataAndPathLocked E b key id
  readPart "Failed to open version payload" "Failed to read version range" object start stop blob

/-- `get_object_range` -/
def getObjectRange (key : Text) (start : ℕ) (stop : Option ℕ) : Op Store (Object × Bytes) :=
  onObject E b key (readObjectRangeLocked E b key start stop)

/-- `get_object_version_metadata` -/
def getObjectVersionMetadata (key : Text) (id : String) : Op Store Object :=
  (onObject E b key (readVersionMetadataAndPathLocked E b key id)).bind fun x ↦ .ret x.1

/-- `get_object_version_range` -/
def getObjectVersionRange (key : Text) (id : String) (start : ℕ) (stop : Option ℕ) :
    Op Store (Object × Bytes) :=
  onObject E b key (readVersionRangeLocked E b key id start stop)

end Programs

/-! ### Slices -/

/-- `bytes[first ..= last]` -/
def Bytes.slice (data : Bytes) (first last : ℕ) : Bytes := (data.take (last + 1)).drop first

/-- What a range read of a version returns. -/
def Stored.range (start : ℕ) (stop : Option ℕ) (st : Stored) : Except Error (Object × Bytes) :=
  if st.2.size ≤ start then
    .error (.invalidRequest "Range start beyond file size")
  else if stop.any (· < start) then
    .error (.invalidRequest "Invalid range: end < start")
  else
    .ok (st.2, Bytes.slice st.1 start (min (stop.getD (st.2.size - 1)) (st.2.size - 1)))

section Rules

variable {E : Env} {b : String} {key : Text} {s : BucketState} {H : History} {id : String}

/-- **A range read returns a slice**, when the size is the length of the bytes. -/
theorem wp_readPart {Q : Except Error (Object × Bytes) → BucketState → Prop}
    {openMessage readMessage : String} {start : ℕ} {stop : Option ℕ} {st : Stored}
    {blob : BucketState → Option Bytes} (hblob : blob s = some st.1)
    (hsize : st.1.length = st.2.size) (hQ : Q (st.range start stop) s) :
    wp (fun _ ↦ True) (readPart openMessage readMessage st.2 start stop blob) Q s := by
  simp only [readPart, bind_eq, pure_eq]
  unfold Stored.range at hQ
  by_cases hstart : st.2.size ≤ start
  · rw [if_pos hstart] at hQ ⊢
    exact ⟨trivial, hQ⟩
  · rw [if_neg hstart] at hQ ⊢
    have hone : 1 ≤ st.2.size := by omega
    rw [subU64, if_pos hone, ret_bind]
    have hend : stop.elim (st.2.size - 1) (min · (st.2.size - 1)) =
        min (stop.getD (st.2.size - 1)) (st.2.size - 1) := by
      cases stop with
      | none => exact (min_self _).symm
      | some e => rfl
    have hlt : min (stop.getD (st.2.size - 1)) (st.2.size - 1) < start ↔
        stop.any (· < start) = true := by
      cases stop with
      | none => simp; omega
      | some e => simp; omega
    rw [hend]
    by_cases hbad : stop.any (· < start) = true
    · rw [if_pos hbad] at hQ
      rw [if_pos (hlt.2 hbad)]
      exact ⟨trivial, hQ⟩
    · rw [if_neg hbad] at hQ
      have hle : start ≤ min (stop.getD (st.2.size - 1)) (st.2.size - 1) :=
        not_lt.1 fun h ↦ hbad (hlt.1 h)
      rw [if_neg (not_lt.2 hle), subU64, if_pos hle, ret_bind, wp_bind, wp_sysRead, hblob]
      refine ⟨trivial, ?_⟩
      have hlength : start + (min (stop.getD (st.2.size - 1)) (st.2.size - 1) - start + 1) ≤
          st.1.length := by omega
      dsimp only
      rw [wp_bind, readExact, if_pos hlength]
      refine ⟨trivial, trivial, ?_⟩
      convert hQ using 4
      rw [Bytes.slice, List.drop_take]
      congr 1
      omega

/-- The version `id`, before the current one or the current one. -/
def History.find (id : String) (H : History) : Option Stored :=
  (H.versions id).or (H.current.filter fun st ↦ st.2.versionId = some id)

theorem History.Sound.find (h : H.Sound key) {st : Stored} (hst : H.find id = some st) :
    Whole key st ∧ st.2.versionId = some id ∧ validVersionId id = true := by
  obtain hversion | ⟨-, hcurrent⟩ := Option.or_eq_some_iff.1 hst
  · exact h.version id st.1 st.2 hversion
  · obtain ⟨hst, hid⟩ := Option.filter_eq_some_iff.1 hcurrent
    have hid := of_decide_eq_true hid
    exact ⟨(h.current st.1 st.2 hst).1, hid, (h.current st.1 st.2 hst).2 id hid⟩

/-- **Reading a version finds it**, in its own directory or in the place of the current object. -/
theorem wp_readVersionMetadataAndPathLocked
    {Q : Except Error (Object × (BucketState → Option Bytes)) → BucketState → Prop}
    (hdir : s.dir.isSome) (h : Ready E ((objectIdDir E b key).get s) H) (hsound : H.Sound key)
    (hok : ∀ x st blob, H.find id = some st → Settled E x H →
      blob (withObject E b key x s) = some st.1 → Q (.ok (st.2, blob)) (withObject E b key x s))
    (herr : ∀ x, H.find id = none → Ready E x H →
      Q (.error .noSuchVersion) (withObject E b key x s)) :
    wp (fun _ ↦ True) (readVersionMetadataAndPathLocked E b key id) Q s := by
  have hself : withObject E b key ((objectIdDir E b key).get s) s = s :=
    BucketState.objectLens_set_get hdir
  simp only [readVersionMetadataAndPathLocked, bind_eq, pure_eq, wp_bind, wp_read]
  refine ⟨trivial, ?_⟩
  rw [Option.isNone_eq_false_iff.2 hdir]
  simp only [Bool.false_eq_true, if_false]
  cases hvalid : validVersionId id with
  | false =>
    refine ⟨trivial, hself ▸ herr _ ?_ h⟩
    cases hfind : H.find id with
    | none => rfl
    | some st =>
      rw [(hsound.find hfind).2.2] at hvalid
      cases hvalid
  | true =>
    simp only [Bool.not_true, Bool.false_eq_true, if_false, wp_bind]
    refine wp_recoverObjectDir (J := fun _ ↦ True) hdir h (fun _ _ ↦ trivial) fun x hx _ ↦ ?_
    refine wp_recoverVersion hx fun y hy ↦ ?_
    rw [wp_read, versionBlob_withObject hy, Option.isSome_map]
    refine ⟨trivial, ?_⟩
    cases hversion : H.versions id with
    | some st =>
      obtain ⟨data, o⟩ := st
      have hfind : H.find id = some (data, o) := by rw [History.find, hversion]; rfl
      have hid : o.withVersionId (some id) = o := by
        rw [← (hsound.find hfind).2.1]
        rfl
      simp only [Option.isSome_some, if_true, wp_bind]
      rw [wp_sysRead, versionMetadata_withObject hy, hversion]
      refine ⟨trivial, trivial, ?_⟩
      rw [hid]
      refine hok y (data, o) _ hfind hy ?_
      rw [versionBlob_withObject hy, hversion]
      rfl
    | none =>
      have hfind : H.find id = H.current.filter fun st ↦ st.2.versionId = some id := by
        rw [History.find, hversion]
        rfl
      simp only [Option.isSome_none, Bool.false_eq_true, if_false, wp_bind]
      rw [wp_attempt]
      refine wp_readObjectMetadataLocked (J := fun _ ↦ True) rfl
        (by rw [objectIdDir_get_withObject]; exact hy.ready) (fun _ _ ↦ trivial) fun z hz _ ↦ ?_
      rw [withObject_withObject, History.metadata]
      cases hcurrent : H.current with
      | none =>
        rw [hcurrent] at hfind
        exact ⟨trivial, herr z hfind hz.ready⟩
      | some st =>
        obtain ⟨data, o⟩ := st
        rw [hcurrent] at hfind
        dsimp only
        by_cases hid : o.versionId = some id
        · have hst : H.find id = some (data, o) := by rw [hfind, Option.filter_some]; simp [hid]
          have hself : o.withVersionId (some id) = o := by rw [← hid]; rfl
          rw [if_neg (not_not.2 hid)]
          refine ⟨trivial, ?_⟩
          rw [hself]
          refine hok z (data, o) _ hst hz ?_
          rw [objectBlob_withObject hz, hcurrent]
          rfl
        · rw [if_pos hid]
          refine ⟨trivial, herr z ?_ hz.ready⟩
          rw [hfind, Option.filter_some]
          simp [hid]

theorem wp_readObjectRangeLocked {Q : Except Error (Object × Bytes) → BucketState → Prop}
    {start : ℕ} {stop : Option ℕ} (hdir : s.dir.isSome)
    (h : Ready E ((objectIdDir E b key).get s) H) (hsound : H.Sound key)
    (hQ : ∀ x, Settled E x H → Q (H.current.elim (.error .keyNotFound) (Stored.range start stop))
      (withObject E b key x s)) :
    wp (fun _ ↦ True) (readObjectRangeLocked E b key start stop) Q s := by
  simp only [readObjectRangeLocked, bind_eq, wp_bind]
  refine wp_recoverObjectDir (J := fun _ ↦ True) hdir h (fun _ _ ↦ trivial) fun x hx _ ↦ ?_
  have hq := hQ x hx
  rw [wp_read, objectBlob_withObject hx]
  refine ⟨trivial, ?_⟩
  cases hcurrent : H.current with
  | none =>
    rw [hcurrent] at hq
    exact ⟨trivial, hq⟩
  | some st =>
    rw [hcurrent] at hq
    simp only [Option.map_some, Option.isNone_some, Bool.false_eq_true, if_false, wp_bind]
    rw [wp_sysRead, objectMetadata_withObject hx, hcurrent]
    refine ⟨trivial, wp_readPart ?_ (hsound.current st.1 st.2 hcurrent).1.size hq⟩
    rw [objectBlob_withObject hx, hcurrent]
    rfl

theorem wp_readVersionRangeLocked {Q : Except Error (Object × Bytes) → BucketState → Prop}
    {start : ℕ} {stop : Option ℕ} (hdir : s.dir.isSome)
    (h : Ready E ((objectIdDir E b key).get s) H) (hsound : H.Sound key)
    (hQ : ∀ x, Ready E x H → Q ((H.find id).elim (.error .noSuchVersion) (Stored.range start stop))
      (withObject E b key x s)) :
    wp (fun _ ↦ True) (readVersionRangeLocked E b key id start stop) Q s := by
  simp only [readVersionRangeLocked, bind_eq, wp_bind]
  refine wp_readVersionMetadataAndPathLocked hdir h hsound (fun x st blob hfind hx hblob ↦ ?_)
    fun x hfind hx ↦ ?_
  · have hq := hQ x hx.ready
    rw [hfind] at hq
    exact wp_readPart hblob (hsound.find hfind).1.size hq
  · have hq := hQ x hx
    rw [hfind] at hq
    exact hq

end Rules

/-! ### The reads -/

section Reads

variable {E : Env} {b : String} {key : Text} {s : Store}
  {allowed : ObjectCall → BucketState → Prop}

/-- A program under the mutex of the key that returns one thing returns it. -/
theorem returns_eq_of_wp {α : Type} {p : Op BucketState α} {v : Except Error α}
    (hfree : s.objectLocks.cells = ∅)
    (hp : wp (fun _ ↦ True) p (fun r _ ↦ r = v) ((Store.bucket E b).get s)) :
    (∃ t, (onObject E b key p).Returns s v t) ∧
      ∀ r t, (onObject E b key p).Returns s r t → r = v := by
  have hall : ∀ r t, (onObject E b key p).Returns s r t → r = v :=
    fun r t hret ↦ (returns_onObject hfree hret hp).2
  obtain ⟨r, t, hret⟩ := exists_returns_of_wp (wp_onObject (I := fun _ ↦ True)
    (J := fun _ ↦ True) (Q := fun _ _ ↦ True) hfree (fun _ _ _ ↦ trivial)
    (wp_mono hp (fun _ h ↦ h) fun _ _ _ _ _ _ ↦ trivial))
  exact ⟨⟨t, hall r t hret ▸ hret⟩, hall⟩

/-- **Range reads are exact slices.** In every state that is reached, the size of the current object
and of every version is the length of its bytes; and a range read of the current object, or of a
version, returns the slice of the bytes where the range begins inside the object and does not end
before it begins, and `InvalidRequest` otherwise. No other result is possible, so that the
arithmetic stays above zero and the file is long enough. -/
theorem range_reads_are_slices (h : Reached E b key allowed s)
    (hbucket : ((Store.bucket E b).get s).dir.isSome) :
    ∃ H, Keeps E b key ((Store.bucket E b).get s) H ∧
      (∀ data o, H.current = some (data, o) → o.size = data.length) ∧
      (∀ id data o, H.versions id = some (data, o) → o.size = data.length) ∧
      ∀ start stop,
        ((∃ t, (getObjectRange E b key start stop).Returns s
            (H.current.elim (.error .keyNotFound) (Stored.range start stop)) t) ∧
          ∀ r t, (getObjectRange E b key start stop).Returns s r t →
            r = H.current.elim (.error .keyNotFound) (Stored.range start stop)) ∧
        ∀ id, (∃ t, (getObjectVersionRange E b key id start stop).Returns s
            ((H.find id).elim (.error .noSuchVersion) (Stored.range start stop)) t) ∧
          ∀ r t, (getObjectVersionRange E b key id start stop).Returns s r t →
            r = (H.find id).elim (.error .noSuchVersion) (Stored.range start stop) := by
  obtain ⟨hfree, H, hH⟩ := h.keeps
  refine ⟨H, hH, fun data o hst ↦ (hH.size data o hst).symm,
    fun id data o hst ↦ ((hH.sound.version id data o hst).1.size).symm, fun start stop ↦
      ⟨returns_eq_of_wp hfree ?_, fun id ↦ returns_eq_of_wp hfree ?_⟩⟩
  · exact wp_readObjectRangeLocked hbucket hH.ready hH.sound fun _ _ ↦ rfl
  · exact wp_readVersionRangeLocked hbucket hH.ready hH.sound fun _ _ ↦ rfl

end Reads

/-- The end of a range may be the greatest number that there is; its start may not be the size. -/
theorem range_reads_of_one_byte : ∃ s t t' data o,
    (getObjectRange .simple "b" ['k'] 0 (some (2 ^ 64 - 1))).Returns s (.ok (o, data)) t ∧
      data.length = 1 ∧
      (getObjectVersionRange .simple "b" ['k'] "u" 1 none).Returns s
        (.error (.invalidRequest "Range start beyond file size")) t' := by
  obtain ⟨s, K, data, hs, hbucket, -, hK, hcurrent, hversions⟩ :=
    exists_one_version (fun _ _ ↦ True) 97 trivial
  obtain ⟨H, hH, hsize, -, hall⟩ := range_reads_are_slices hs hbucket
  obtain rfl := hK.unique hH
  have hlength : data.length = 1 := (hsize _ _ hcurrent).symm
  have hfind : H.find "u" = some (data, ((oneByte 97).withVersionId (some "u")).serialized) := by
    rw [History.find, hversions, hcurrent]
    rfl
  obtain ⟨⟨t, ht⟩, -⟩ := (hall 0 (some (2 ^ 64 - 1))).1
  obtain ⟨⟨t', ht'⟩, -⟩ := (hall 1 none).2 "u"
  rw [hcurrent] at ht
  rw [hfind] at ht'
  refine ⟨s, t, t', data, ((oneByte 97).withVersionId (some "u")).serialized, ?_, hlength, ht'⟩
  have hslice : Bytes.slice data 0 (min (2 ^ 64 - 1) 0) = data := by
    rw [Bytes.slice, Nat.min_zero, List.drop_zero, List.take_of_length_le (by omega)]
  have hrange : Stored.range 0 (some (2 ^ 64 - 1))
      (data, ((oneByte 97).withVersionId (some "u")).serialized) =
        .ok (((oneByte 97).withVersionId (some "u")).serialized, data) := by
    have hpos : ¬ ((oneByte 97).withVersionId (some "u")).serialized.size ≤ 0 :=
      Nat.not_le.2 Nat.one_pos
    rw [Stored.range, if_neg hpos, if_neg (by decide)]
    exact congrArg (fun d ↦ Except.ok (_, d)) hslice
  rw [← hrange]
  exact ht

end Sqrzl
