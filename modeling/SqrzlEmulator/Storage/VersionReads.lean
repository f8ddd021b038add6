import SqrzlEmulator.Storage.RangeReads

/-!
# Reading the current version by its identity

The current object has two addresses, its key and its version. A read by version looks into the
directory of the version first, and falls back on the current object: so the two agree as long as
there is nothing in that directory, or the same document (`History.Agrees`).

A write or a delete keeps the current version before it replaces it. **When it fails after that, the
snapshot stays**, beside a current object that is still current. What updates the metadata of the
current object then, its tags, its access control list, its storage class or its headers, does not
touch the snapshot, and reads by version return the old document from there on.

So the two reads agree in every run in which no metadata is updated while there is such a snapshot
(`ObjectCall.unshadowed`), and `stale_snapshot_is_read` is a run in which they do not.
-/

namespace Sqrzl

open Prog

namespace History

variable {E : Env} {key : Text} {v : Option VersioningState} {n : ℕ} {H H' : History} {id : String}

/-- What is kept under the identity of the current version is the current version. -/
def Agrees (H : History) : Prop :=
  ∀ st, H.current = some st →
    H.versions (keptId st.2) = none ∨ H.versions (keptId st.2) = some (kept st)

/-- Nothing is kept under the identity of the current version. -/
def Unshadowed (H : History) : Prop :=
  ∀ st, H.current = some st → H.versions (keptId st.2) = none

/-- **What is read by version is what is current.** -/
theorem Agrees.find (h : H.Agrees) (hsound : H.Sound key) {st : Stored}
    (hst : H.current = some st) (hid : st.2.versionId = some id) : H.find id = some st := by
  have hkept : keptId st.2 = id := by rw [keptId, hid]; rfl
  have hfilter : H.current.filter (fun st ↦ st.2.versionId = some id) = some st := by
    rw [hst, Option.filter_some]
    simp [hid]
  rw [History.find, hfilter]
  rcases h st hst with hnone | hsome
  · rw [hkept] at hnone
    rw [hnone]
    rfl
  · rw [hkept] at hsome
    have hself : kept st = st := by
      refine Prod.ext rfl ?_
      show (st.2.withVersionId (some (keptId st.2))).serialized = st.2
      rw [hkept, ← hid]
      exact (hsound.current st.1 st.2 hst).1.serialized
    rw [hsome, hself]
    rfl

theorem Agrees.snapshot (h : H.Agrees) (v : Option VersioningState) : (H.snapshot v).Agrees := by
  intro st hst
  rw [current_snapshot] at hst
  obtain heq | ⟨st', hst', -, -, heq⟩ := versions_snapshot v H (keptId st.2)
  · rw [heq]
    exact h st hst
  · obtain rfl : st' = st := Option.some.inj (hst'.symm.trans hst)
    exact .inr heq

/-- A new version meets nothing that is kept under its identity. -/
theorem agrees_put (hdrawn : H.Drawn E n) (hplain : v = none → H.versions = fun _ ↦ none)
    {data : Bytes} {o : Object} : (H.put v (versionIdFor E v n) data o).Agrees := by
  intro st hst
  obtain rfl : (data, (o.withVersionId (versionIdFor E v n)).serialized) = st := Option.some.inj hst
  left
  rw [versions_put]
  show (if versionIdFor E v n = some "null" ∧ (versionIdFor E v n).getD "null" = "null" then none
    else (H.snapshot v).versions ((versionIdFor E v n).getD "null")) = none
  rcases v with _ | _ | _
  · have hnone : (H.snapshot none).versions = fun _ ↦ none := hplain rfl
    rw [hnone]
    exact ite_self none
  · have hid : (versionIdFor E (some .enabled) n).getD "null" = E.uuid n := rfl
    rw [hid, if_neg fun h ↦ E.uuid_ne_null n h.2]
    cases hversion : (H.snapshot (some .enabled)).versions (E.uuid n) with
    | none => rfl
    | some st =>
      obtain hnull | ⟨m, hm, huuid⟩ := hdrawn.snapshot (some .enabled) (E.uuid n)
        (.inl (by rw [hversion]; rfl))
      · exact absurd hnull (E.uuid_ne_null n)
      · exact absurd (E.uuid_injective huuid) hm.ne'
  · exact if_pos ⟨rfl, rfl⟩

/-- What is promoted is no longer kept. -/
theorem Promotes.agrees {promoted : Option Stored} (h : H.Agrees) (hsound : H.Sound key)
    (hpromotes : H.Promotes id promoted) :
    (H.deleteVersion id promoted (H.clears id)).Agrees := by
  intro st hst
  rw [versions_deleteVersion]
  obtain hcurrent | rfl := current_deleteVersion_cases hst
  · by_cases hgone : keptId st.2 = id ∨
        promoted.bind (fun st ↦ st.2.versionId) = some (keptId st.2)
    · exact .inl (if_pos hgone)
    · rw [if_neg hgone]
      exact h st hcurrent
  · obtain ⟨-, -, j, hid, -⟩ := hpromotes.publishable hsound st.1 st.2 rfl
    refine .inl (if_pos (.inr ?_))
    rw [Option.bind_some, hid, keptId, hid]
    rfl

/-- A change of the metadata, when nothing shadows it. -/
theorem Unshadowed.agrees (h : H.Unshadowed) {data : Bytes} {o o' : Object}
    (hst : H.current = some (data, o)) (hid : o'.versionId = o.versionId) :
    ({ H with current := some (data, o'.serialized) } : History).Agrees := by
  rintro _ ⟨⟩
  have hkept : keptId o'.serialized = keptId o := congrArg (Option.getD · "null") hid
  exact .inl (hkept ▸ h _ hst)

/-- An object that gets the identity `null` was kept under it before. -/
theorem Agrees.nameNull (h : H.Agrees) {data : Bytes} {o : Object}
    (hst : H.current = some (data, o)) (hid : o.versionId = none) :
    ({ H with current := some (data, (o.withVersionId (some "null")).serialized) } :
      History).Agrees := by
  rintro _ ⟨⟩
  have hkept : keptId o = "null" := by rw [keptId, hid]; rfl
  have hold := h _ hst
  rw [kept, hkept] at hold
  exact hold

end History

namespace ObjectCall

variable {E : Env} {b : String} {key : Text} {s : BucketState} {H H' : History}
  {r : Except Error Bool}

/-- The calls that put other metadata in the place of that of the current object. -/
def Rewrites : ObjectCall → Prop
  | updateObjectStorageClass _ => True
  | putObjectAcl _ => True
  | putObjectTags _ => True
  | deleteObjectTags => True
  | replaceObjectMetadataIfUnchanged _ _ => True
  | _ => False

/-- A call may be made unless it rewrites metadata that is kept as a version, too. -/
def unshadowed (E : Env) (b : String) (key : Text) (call : ObjectCall) (s : BucketState) : Prop :=
  call.Rewrites → ∀ H, Keeps E b key s H → H.Unshadowed

theorem Updates.agrees {update : Object → Object} (h : Updates update H r H') (hagrees : H.Agrees)
    (hid : ∀ o, (update o).versionId = o.versionId) (hunshadowed : H.Unshadowed) : H'.Agrees := by
  rcases r with e | _
  · obtain ⟨-, -, rfl⟩ := h
    exact hagrees
  · obtain ⟨-, data, o, hst, rfl⟩ := h
    exact hunshadowed.agrees hst (hid o)

theorem Writes.agrees {o : Object} {source : BodySource} (hH : Keeps E b key s H)
    (h : Writes E s H o source r H') (hagrees : H.Agrees) : H'.Agrees := by
  rcases r with e | _ | _
  · obtain ⟨-, rfl⟩ := h
    exact hagrees.snapshot _
  · obtain rfl : H' = H := h
    exact hagrees
  · obtain ⟨data, -, -, rfl⟩ := h
    exact History.agrees_put hH.drawn hH.plain

/-- **Every call keeps the two reads in agreement**, when it does not rewrite shadowed metadata. -/
theorem Effect.agrees {call : ObjectCall} (hH : Keeps E b key s H)
    (h : call.Effect E key s H r H') (hagrees : H.Agrees)
    (hallowed : unshadowed E b key call s) : H'.Agrees := by
  cases call with
  | current call =>
    obtain ⟨-, h⟩ := h
    unfold Changes at h
    cases hwritten : call.written with
    | some o =>
      rw [hwritten] at h
      exact Writes.agrees hH h hagrees
    | none =>
      rw [hwritten] at h
      rcases r with e | _ | _
      · obtain rfl : H' = H := h
        exact hagrees
      · obtain rfl : H' = H := h
        exact hagrees
      · obtain ⟨now, rfl⟩ := h
        exact nofun
  | completeUpload o name completion =>
    obtain h | ⟨e, rfl, rfl⟩ := h
    · exact Writes.agrees hH h hagrees
    · exact hagrees
  | deleteObjectVersion id =>
    rcases r with e | _
    · obtain ⟨-, -, rfl⟩ := h
      exact hagrees
    · obtain ⟨-, -, promoted, hpromotes, rfl⟩ := h
      exact hpromotes.agrees hagrees hH.sound
  | updateObjectStorageClass c =>
    exact Updates.agrees h hagrees (fun _ ↦ rfl) (hallowed trivial H hH)
  | putObjectAcl acl => exact Updates.agrees h hagrees (fun _ ↦ rfl) (hallowed trivial H hH)
  | putObjectTags tags => exact Updates.agrees h hagrees (fun _ ↦ rfl) (hallowed trivial H hH)
  | deleteObjectTags => exact Updates.agrees h hagrees (fun _ ↦ rfl) (hallowed trivial H hH)
  | replaceObjectMetadataIfUnchanged observed updated =>
    rcases r with e | _ | _
    · exact h.elim
    · obtain ⟨rfl, -⟩ := h
      exact hagrees
    · obtain ⟨data, o, hst, -, rfl⟩ := h
      exact (hallowed trivial H hH).agrees hst rfl
  | assignNullVersionId =>
    rcases r with e | _
    · exact h.elim
    · obtain ⟨-, rfl | ⟨data, o, hst, hid, rfl⟩⟩ := h
      · exact hagrees
      · exact hagrees.nameNull hst hid

end ObjectCall

/-! ### The two reads -/

section Reads

variable {E : Env} {b : String} {key : Text} {s : Store}

/-- **The run lemma**: the two reads agree in every state that is reached without rewriting shadowed
metadata. -/
theorem Reached.agrees (h : Reached E b key (ObjectCall.unshadowed E b key) s) :
    ∃ H, Keeps E b key ((Store.bucket E b).get s) H ∧ H.Agrees := by
  induction h with
  | fresh hfree hnone => exact ⟨{}, keeps_of_none hnone, nofun⟩
  | call h call hbucket hnamed hallowed hret ih =>
    obtain ⟨H, hH, hagrees⟩ := ih
    obtain ⟨-, ⟨H', hH', heffect⟩, -⟩ := call.returns_run h.keeps.1 hbucket hH hnamed hret
    exact ⟨H', hH', heffect.agrees hH hagrees hallowed⟩
  | elsewhere h hfree hdir hversioning hdrawn ih =>
    obtain ⟨H, hH, hagrees⟩ := ih
    exact ⟨H, hH.congr (hdir H) hversioning hdrawn, hagrees⟩

/-- What `get_object_metadata` returns, and leaves. -/
theorem returns_getObjectMetadata {t : Store} {r : Except Error Object} {H : History}
    (hfree : s.objectLocks.cells = ∅) (hbucket : ((Store.bucket E b).get s).dir.isSome)
    (hH : Keeps E b key ((Store.bucket E b).get s) H)
    (hret : (getObjectMetadata E b key).Returns s r t) :
    r = H.metadata ∧ t.objectLocks.cells = ∅ ∧ ((Store.bucket E b).get t).dir.isSome ∧
      Keeps E b key ((Store.bucket E b).get t) H := by
  obtain ⟨hfree', hr, hdir, hkeeps⟩ := returns_onObject hfree hret
    (wp_readObjectMetadataLocked (J := fun _ ↦ True)
      (Q := fun r t ↦ r = H.metadata ∧ t.dir.isSome ∧ Keeps E b key t H) hbucket hH.ready
      (fun _ _ ↦ trivial) fun x hx _ ↦ ⟨rfl, rfl, hH.recovered hx.ready⟩)
  exact ⟨hr, hfree', hdir, hkeeps⟩

/-- What `get_object_version_metadata` returns. -/
theorem returns_getObjectVersionMetadata {H : History} (hfree : s.objectLocks.cells = ∅)
    (hbucket : ((Store.bucket E b).get s).dir.isSome)
    (hH : Keeps E b key ((Store.bucket E b).get s) H) (id : String) :
    (∃ t, (getObjectVersionMetadata E b key id).Returns s
      ((H.find id).elim (.error .noSuchVersion) fun st ↦ .ok st.2) t) ∧
    ∀ r t, (getObjectVersionMetadata E b key id).Returns s r t →
      r = (H.find id).elim (.error .noSuchVersion) fun st ↦ .ok st.2 := by
  unfold getObjectVersionMetadata
  rw [onObject_bind_ret]
  refine returns_eq_of_wp hfree ?_
  rw [wp_bind]
  refine wp_readVersionMetadataAndPathLocked hbucket hH.ready hH.sound
    (fun x st blob hfind _ _ ↦ ?_) fun x hfind _ ↦ ?_
  · rw [hfind]
    exact ⟨trivial, rfl⟩
  · rw [hfind]
    rfl

/-- **Reading the current version by its identity agrees with reading the current object**, in every
state of a run in which no call rewrites the metadata of the current object while a version is kept
under its identity: the same document is returned, with its ETag, size, tags, access control list
and metadata. -/
theorem version_read_agrees_with_current_read
    (h : Reached E b key (ObjectCall.unshadowed E b key) s)
    (hbucket : ((Store.bucket E b).get s).dir.isSome) {o : Object} {t : Store} {id : String}
    (hread : (getObjectMetadata E b key).Returns s (.ok o) t) (hid : o.versionId = some id) :
    (∃ t', (getObjectVersionMetadata E b key id).Returns t (.ok o) t') ∧
      ∀ r t', (getObjectVersionMetadata E b key id).Returns t r t' → r = .ok o := by
  obtain ⟨H, hH, hagrees⟩ := h.agrees
  obtain ⟨hmetadata, hfree, hdir, hkeeps⟩ := returns_getObjectMetadata h.keeps.1 hbucket hH hread
  obtain ⟨data, hcurrent⟩ : ∃ data, H.current = some (data, o) := by
    rw [History.metadata] at hmetadata
    cases hcurrent : H.current with
    | none =>
      rw [hcurrent] at hmetadata
      cases hmetadata
    | some st =>
      rw [hcurrent] at hmetadata
      obtain rfl : o = st.2 := Except.ok.inj hmetadata
      exact ⟨st.1, rfl⟩
  have hall := returns_getObjectVersionMetadata hfree hdir hkeeps id
  rw [hagrees.find hH.sound hcurrent hid] at hall
  exact hall

end Reads

/-- The metadata of a current object can be read. -/
theorem exists_getObjectMetadata {E : Env} {b : String} {key : Text} {s : Store} {H : History}
    {data : Bytes} {o : Object} (hfree : s.objectLocks.cells = ∅)
    (hbucket : ((Store.bucket E b).get s).dir.isSome)
    (hH : Keeps E b key ((Store.bucket E b).get s) H) (hcurrent : H.current = some (data, o)) :
    ∃ t, (getObjectMetadata E b key).Returns s (.ok o) t := by
  obtain ⟨r, t, hret⟩ : ∃ r t, (getObjectMetadata E b key).Returns s r t :=
    exists_returns_of_wp (wp_onObject (I := fun _ ↦ True) (J := fun _ ↦ True)
      (Q := fun _ _ ↦ True) hfree (fun _ _ _ ↦ trivial)
      (wp_readObjectMetadataLocked (J := fun _ ↦ True) hbucket hH.ready (fun _ _ ↦ trivial)
        fun _ _ _ _ _ ↦ trivial))
  obtain ⟨hmetadata, -⟩ := returns_getObjectMetadata hfree hbucket hH hret
  rw [History.metadata, hcurrent] at hmetadata
  obtain rfl : r = .ok o := hmetadata
  exact ⟨t, hret⟩

/-- A version is written and read in two ways. -/
theorem version_read_agrees_of_one_version : ∃ s t t' o,
    (getObjectMetadata .simple "b" ['k']).Returns s (.ok o) t ∧ o.versionId = some "u" ∧
      (getObjectVersionMetadata .simple "b" ['k'] "u").Returns t (.ok o) t' := by
  obtain ⟨s, H, data, hs, hbucket, -, hH, hcurrent, -⟩ :=
    exists_one_version (ObjectCall.unshadowed .simple "b" ['k']) 97 False.elim
  obtain ⟨t, hret⟩ := exists_getObjectMetadata hs.keeps.1 hbucket hH hcurrent
  obtain ⟨⟨t', ht'⟩, -⟩ := version_read_agrees_with_current_read hs hbucket hret rfl
  exact ⟨s, t, t', _, hret, rfl, ht'⟩

/-- One tag. -/
def teamTag : Table String String := (∅ : Table String String).set "team" (some "red")

/-- **A write that fails leaves a snapshot behind that hides later updates**: a version is written,
a streamed write whose payload is gone fails, and the object gets a tag. The current object has it,
and the version of the same identity has not. -/
theorem stale_snapshot_is_read : ∃ s t t' o o',
    Reached .simple "b" ['k'] (fun _ _ ↦ True) s ∧
      (getObjectMetadata .simple "b" ['k']).Returns s (.ok o) t ∧ o.versionId = some "u" ∧
      (getObjectVersionMetadata .simple "b" ['k'] "u").Returns t (.ok o') t' ∧
      o.tags["team"]? = some "red" ∧ o'.tags["team"]? = none := by
  obtain ⟨s, H, data, hs, hbucket, hv, hH, hcurrent, -⟩ :=
    exists_one_version (fun _ _ ↦ True) 97 trivial
  -- Nothing is spooled.
  have hs' : Reached .simple "b" ['k'] (fun _ _ ↦ True) { s with payloads := ∅ } :=
    hs.elsewhere hs.keeps.1 (fun _ h ↦ h) (fun h ↦ h) le_rfl
  have hH' : Keeps .simple "b" ['k'] ((Store.bucket .simple "b").get { s with payloads := ∅ }) H :=
    hH.congr (fun h ↦ h) (fun h ↦ h) le_rfl
  -- The write fails.
  obtain ⟨r₁, s₁, -, hs₁, ⟨H₁, hH₁, heffect₁⟩, hbucket₁, -⟩ := hs'.exists_call hbucket hH'
    (.current (.putObjectStreamed (oneByte 98) "payload")) (by rintro _ ⟨⟩; rfl) trivial
  obtain ⟨-, rfl⟩ := heffect₁.of_not_fits fun hfits ↦ by
    obtain ⟨data, hdata, -⟩ := hfits
    exact absurd hdata (by simp [BodySource.bytes])
  have hsnapshot : ((Store.bucket .simple "b").get { s with payloads := ∅ }).dir.bind
      (·.versioning) = some .enabled := hv
  rw [hsnapshot, History.snapshot_of_keep hcurrent (.inl rfl)] at hH₁
  -- The object gets a tag.
  obtain ⟨r₂, s₂, -, hs₂, ⟨H₂, hH₂, heffect₂⟩, hbucket₂, -⟩ := hs₁.exists_call hbucket₁ hH₁
    (.putObjectTags teamTag) nofun trivial
  obtain ⟨data', o, hst, rfl⟩ : ∃ data' o, (H.setVersion "u" _).current = some (data', o) ∧
      H₂ = { H.setVersion "u" _ with
        current := some (data', { o with tags := teamTag }.serialized) } := by
    rcases r₂ with e | _
    · exact absurd (heffect₂.2.1.symm.trans hcurrent) nofun
    · exact heffect₂.2
  obtain ⟨rfl, rfl⟩ := Prod.mk.inj (Option.some.inj (hcurrent.symm.trans hst))
  obtain ⟨t, hret⟩ := exists_getObjectMetadata hs₂.keeps.1 hbucket₂ hH₂ rfl
  obtain ⟨-, hfree, hbucket₃, hH₃⟩ := returns_getObjectMetadata hs₂.keeps.1 hbucket₂ hH₂ hret
  obtain ⟨⟨t', ht'⟩, -⟩ := returns_getObjectVersionMetadata hfree hbucket₃ hH₃ "u"
  refine ⟨s₂, t, t', _, ((oneByte 97).withVersionId (some "u")).serialized, hs₂, hret, rfl, ht', ?_,
    ?_⟩
  · show ((∅ : Table String String).set "team" (some "red"))["team"]? = _
    rw [Table.getElem?_set, if_pos rfl]
  · exact Std.ExtTreeMap.getElem?_empty

end Sqrzl
