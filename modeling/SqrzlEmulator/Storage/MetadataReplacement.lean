import SqrzlEmulator.Storage.VersionReads

/-!
# Optimistic replacement of metadata

`replace_object_metadata_if_unchanged` compares six fields of the document that its caller has
observed with the current one, under the mutex of the key, and writes the current one back with
three fields of the update in it. The other calls on the key do the same kind of thing under the
same mutex: **in every interleaving they take effect one after the other** (`Prog.Run.linearized`),
and

* a replacement that returns `true` has found the guard, and changes the three fields alone; what
  else the document says is what it said immediately before, not what the caller has observed;
* one that returns `false` changes nothing.

That two replacements from one observation do not both succeed needs more than the guard: an update
that writes the three observed fields back leaves the guard as it is, and so does any call that
brings them back later. `InOrder.replacements_not_both` says that nothing else is in the way, and
`same_observation_succeeds_twice` is a run in which three of four calls succeed.
-/

namespace Sqrzl

open Prog

namespace ObjectCall

/-- The calls that this is about: writes, and the operations on the metadata of the current
object. -/
inductive OnMetadata : ObjectCall → Prop
  | write {call : KeyCall} (h : call.written.isSome) : OnMetadata (.current call)
  | updateObjectStorageClass (c : String) : OnMetadata (.updateObjectStorageClass c)
  | putObjectAcl (acl : Acl) : OnMetadata (.putObjectAcl acl)
  | putObjectTags (tags : Table String String) : OnMetadata (.putObjectTags tags)
  | deleteObjectTags : OnMetadata .deleteObjectTags
  | replaceObjectMetadataIfUnchanged (observed updated : Object) :
      OnMetadata (.replaceObjectMetadataIfUnchanged observed updated)

/-- The document `o'` is `o` with the three fields of `updated` in it. -/
structure Merged (o updated o' : Object) : Prop where
  contentType : o'.contentType = updated.contentType
  metadata : o'.metadata = updated.metadata
  providerMetadata : o'.providerMetadata = updated.providerMetadata
  key : o'.key = o.key
  size : o'.size = o.size
  etag : o'.etag = o.etag
  lastModified : o'.lastModified = o.lastModified
  versionId : o'.versionId = o.versionId
  storageClass : o'.storageClass = o.storageClass
  tags : o'.tags = o.tags
  acl : o'.acl = o.acl

/-- The fields of the guard that a replacement writes. -/
structure SameFields (o observed : Object) : Prop where
  contentType : o.contentType = observed.contentType
  metadata : o.metadata = observed.metadata
  providerMetadata : o.providerMetadata = observed.providerMetadata

/-- A call that may bring the observed guard about. -/
def Restores (observed : Object) : ObjectCall → Prop
  | current call => ∃ o, call.written = some o ∧ o.etag = observed.etag ∧
      o.lastModified = observed.lastModified ∧ SameFields o observed
  | replaceObjectMetadataIfUnchanged _ updated => SameFields updated observed
  | _ => False

end ObjectCall

/-- The current object passes the guard of an observation. -/
def History.Guarded (observed : Object) (H : History) : Prop :=
  ∃ data o, H.current = some (data, o) ∧ ObjectCall.SameGuard o observed

section Call

variable {E : Env} {key : Text} {s : BucketState} {H H' : History} {r : Except Error Bool}
  {call : ObjectCall} {observed updated : Object}

/-- **What a replacement does**, by its result. -/
theorem ObjectCall.Effect.replaces
    (h : (ObjectCall.replaceObjectMetadataIfUnchanged observed updated).Effect E key s H r H') :
    (r = .ok true ∧ H.Guarded observed ∧ H'.versions = H.versions ∧
      ∃ data o o', H.current = some (data, o) ∧ H'.current = some (data, o') ∧
        ObjectCall.Merged o updated o') ∨
      (r = .ok false ∧ ¬ H.Guarded observed ∧ H' = H) := by
  rcases r with e | _ | _
  · exact h.elim
  · obtain ⟨rfl, hguard⟩ := h
    refine .inr ⟨rfl, ?_, rfl⟩
    rintro ⟨data, o, hst, hsame⟩
    exact hguard data o hst hsame
  · obtain ⟨data, o, hst, hsame, rfl⟩ := h
    exact .inl ⟨rfl, ⟨data, o, hst, hsame⟩, rfl, data, o, _, hst, rfl,
      ⟨rfl, rfl, rfl, rfl, rfl, rfl, rfl, rfl, rfl, rfl, rfl⟩⟩

/-- The guard is not brought about by an update of other fields. -/
theorem ObjectCall.Updates.not_guarded {update : Object → Object} (h : Updates update H r H')
    (hupdate : ∀ o, (update o).etag = o.etag ∧ (update o).lastModified = o.lastModified ∧
      (update o).versionId = o.versionId ∧ SameFields (update o) o)
    (hnot : ¬ H.Guarded observed) : ¬ H'.Guarded observed := by
  rcases r with e | _
  · obtain ⟨-, -, rfl⟩ := h
    exact hnot
  · obtain ⟨-, data, o, hst, rfl⟩ := h
    rintro ⟨_, _, ⟨⟩, hsame⟩
    obtain ⟨hetag, htime, hid, hfields⟩ := hupdate o
    exact hnot ⟨data, o, hst, hetag.symm.trans hsame.etag, htime.symm.trans hsame.lastModified,
      hid.symm.trans hsame.versionId, hfields.contentType.symm.trans hsame.contentType,
      hfields.metadata.symm.trans hsame.metadata,
      hfields.providerMetadata.symm.trans hsame.providerMetadata⟩

/-- **A call that does not restore the guard does not bring it about.** -/
theorem ObjectCall.Effect.not_guarded (h : call.Effect E key s H r H') (hcall : call.OnMetadata)
    (hrestores : ¬ call.Restores observed) (hnot : ¬ H.Guarded observed) :
    ¬ H'.Guarded observed := by
  cases hcall with
  | @write call hwritten =>
    obtain ⟨-, h⟩ := h
    obtain ⟨o, ho⟩ := Option.isSome_iff_exists.1 hwritten
    unfold Changes at h
    rw [ho] at h
    rcases r with e | _ | _
    · obtain ⟨-, rfl⟩ := h
      unfold History.Guarded
      rw [History.current_snapshot]
      exact hnot
    · obtain rfl : H' = H := h
      exact hnot
    · obtain ⟨data, -, -, rfl⟩ := h
      rintro ⟨data', o', hst, hsame⟩
      obtain ⟨rfl, rfl⟩ :=
        Prod.mk.inj (Option.some.inj ((History.current_put _ data o).symm.trans hst))
      exact hrestores ⟨o, ho, hsame.etag, hsame.lastModified, hsame.contentType, hsame.metadata,
        hsame.providerMetadata⟩
  | updateObjectStorageClass c =>
    exact Updates.not_guarded h (fun o ↦ ⟨rfl, rfl, rfl, rfl, rfl, rfl⟩) hnot
  | putObjectAcl acl =>
    exact Updates.not_guarded h (fun o ↦ ⟨rfl, rfl, rfl, rfl, rfl, rfl⟩) hnot
  | putObjectTags tags =>
    exact Updates.not_guarded h (fun o ↦ ⟨rfl, rfl, rfl, rfl, rfl, rfl⟩) hnot
  | deleteObjectTags =>
    exact Updates.not_guarded h (fun o ↦ ⟨rfl, rfl, rfl, rfl, rfl, rfl⟩) hnot
  | replaceObjectMetadataIfUnchanged observed' updated =>
    obtain ⟨-, -, -, data, o, o', -, hst, hmerged⟩ | ⟨-, -, rfl⟩ := h.replaces
    · rintro ⟨data', o'', hst', hsame⟩
      cases hst.symm.trans hst'
      exact hrestores ⟨hmerged.contentType.symm.trans hsame.contentType,
        hmerged.metadata.symm.trans hsame.metadata,
        hmerged.providerMetadata.symm.trans hsame.providerMetadata⟩
    · exact hnot

/-- A replacement that does not restore the guard takes it away. -/
theorem ObjectCall.Effect.takes_guard
    (h : (ObjectCall.replaceObjectMetadataIfUnchanged observed updated).Effect E key s H (.ok true)
      H') {observed' : Object} (hrestores : ¬ SameFields updated observed') :
    ¬ H'.Guarded observed' := by
  obtain ⟨-, -, -, data, o, o', -, hst, hmerged⟩ | ⟨⟨⟩, -⟩ := h.replaces
  rintro ⟨data', o'', hst', hsame⟩
  cases hst.symm.trans hst'
  exact hrestores ⟨hmerged.contentType.symm.trans hsame.contentType,
    hmerged.metadata.symm.trans hsame.metadata,
    hmerged.providerMetadata.symm.trans hsame.providerMetadata⟩

end Call

/-! ### Any number of calls -/

section Calls

variable {E : Env} {b : String} {key : Text} {ι : Type} {calls : ι → ObjectCall}

/-- What a body does to a bucket that keeps a history. -/
theorem ObjectCall.returns_body {call : ObjectCall} {s t : BucketState} {H : History}
    {r : Except Error Bool} (hdir : s.dir.isSome) (hH : Keeps E b key s H)
    (hnamed : call.Named key) (hret : (call.body E b key).Returns s r t) :
    Leaves E b key s H (call.Effect E key s H r) t :=
  hret.of_wp (call.wp_body hdir hH hnamed)

/-- The bucket is there, and keeps a history of the key. -/
theorem InOrder.keeps {x₀ x : BucketState} {l : List (ι × Except Error Bool)}
    (h : Prog.InOrder (fun i ↦ (calls i).body E b key) x₀ l x) (hnamed : ∀ i, (calls i).Named key)
    (hdir : x₀.dir.isSome) (h₀ : ∃ H, Keeps E b key x₀ H) :
    x.dir.isSome ∧ ∃ H, Keeps E b key x H := by
  refine h.invariant (J := fun x ↦ x.dir.isSome ∧ ∃ H, Keeps E b key x H) ⟨hdir, h₀⟩ ?_
  rintro i r y z - ⟨hy, H, hH⟩ hret
  obtain ⟨⟨H', hH', -⟩, hz, -⟩ := ObjectCall.returns_body hy hH (hnamed i) hret
  exact ⟨hz, H', hH'⟩

/-- **Two replacements from one observation do not both find the guard**, when no call restores
it. -/
theorem InOrder.replacements_not_both {x₀ x : BucketState} {i j : ι}
    {observed updated updated' : Object} {l₁ l₂ l₃ : List (ι × Except Error Bool)}
    (h : Prog.InOrder (fun i ↦ (calls i).body E b key) x₀
      (l₁ ++ (i, .ok true) :: (l₂ ++ (j, .ok true) :: l₃)) x)
    (hnamed : ∀ i, (calls i).Named key) (hmetadata : ∀ i, (calls i).OnMetadata)
    (hdir : x₀.dir.isSome) (h₀ : ∃ H, Keeps E b key x₀ H)
    (hi : calls i = .replaceObjectMetadataIfUnchanged observed updated)
    (hj : calls j = .replaceObjectMetadataIfUnchanged observed updated')
    (hrestores : ∀ i, ¬ (calls i).Restores observed) : False := by
  obtain ⟨y, z, hy, hi', hrest⟩ := h.split
  obtain ⟨u, w, hu, hj', -⟩ := hrest.split
  obtain ⟨hydir, H, hH⟩ := InOrder.keeps hy hnamed hdir h₀
  obtain ⟨⟨H', hH', heffect⟩, hzdir, -⟩ := ObjectCall.returns_body hydir hH (hnamed i) hi'
  have hri := hrestores i
  rw [hi] at heffect hri
  -- After the first of the two, the guard is gone, and it does not come back.
  have hgone : u.dir.isSome ∧ ∃ K, Keeps E b key u K ∧ ¬ K.Guarded observed := by
    refine hu.invariant (J := fun x ↦ x.dir.isSome ∧ ∃ K, Keeps E b key x K ∧ ¬ K.Guarded observed)
      ⟨hzdir, H', hH', heffect.takes_guard hri⟩ ?_
    rintro k r v v' - ⟨hv, K, hK, hnot⟩ hret
    obtain ⟨⟨K', hK', heffect'⟩, hv', -⟩ := ObjectCall.returns_body hv hK (hnamed k) hret
    exact ⟨hv', K', hK', heffect'.not_guarded (hmetadata k) (hrestores k) hnot⟩
  obtain ⟨hudir, K, hK, hnot⟩ := hgone
  obtain ⟨⟨K', -, heffect'⟩, -⟩ := ObjectCall.returns_body hudir hK (hnamed j) hj'
  rw [hj] at heffect'
  obtain ⟨-, hguard, -⟩ | ⟨⟨⟩, -⟩ := heffect'.replaces
  exact hnot hguard

variable [Fintype ι] [DecidableEq ι]

/-- **Optimistic replacement loses nothing, in every interleaving.** When all calls have returned,
there is an order in which they take effect one after the other with the same results. In its turn,
a replacement returns `true` and merges its three fields into the document that is current then, or
it returns `false` and changes nothing; and of two replacements from one observation at most one
returns `true`, unless some call restores the guard. -/
theorem replacements_lose_nothing {s₀ s : Store} {tr : List (ι × Event)}
    {res : ι → Except Error Bool} {allowed : ObjectCall → BucketState → Prop}
    (h₀ : Reached E b key allowed s₀) (hbucket : ((Store.bucket E b).get s₀).dir.isSome)
    (hnamed : ∀ i, (calls i).Named key) (hmetadata : ∀ i, (calls i).OnMetadata)
    (hrun : Run (fun i ↦ (calls i).run E b key) s₀ tr (fun i ↦ ofExcept (res i)) s) :
    (∃ order : List ι, order.Nodup ∧ (∀ i, i ∈ order) ∧
      Prog.InOrder (fun i ↦ (calls i).body E b key) ((Store.bucket E b).get s₀)
        (order.map fun i ↦ (i, res i)) ((Store.bucket E b).get s) ∧
      ∀ before i after observed updated, order = before ++ i :: after →
        calls i = .replaceObjectMetadataIfUnchanged observed updated → ∃ x y H H',
          Prog.InOrder (fun i ↦ (calls i).body E b key) ((Store.bucket E b).get s₀)
            (before.map fun i ↦ (i, res i)) x ∧
          ((calls i).body E b key).Returns x (res i) y ∧
          Keeps E b key x H ∧ Keeps E b key y H' ∧
          ((res i = .ok true ∧ H.Guarded observed ∧ H'.versions = H.versions ∧
            ∃ data o o', H.current = some (data, o) ∧ H'.current = some (data, o') ∧
              ObjectCall.Merged o updated o') ∨
            (res i = .ok false ∧ ¬ H.Guarded observed ∧ H' = H))) ∧
    ∀ i j observed updated updated',
      calls i = .replaceObjectMetadataIfUnchanged observed updated →
      calls j = .replaceObjectMetadataIfUnchanged observed updated' →
      (∀ k, ¬ (calls k).Restores observed) →
      res i = .ok true → res j = .ok true → i = j := by
  obtain ⟨hcells, H₀, hH₀⟩ := h₀.keeps
  have hfree : s₀.objectLocks.Lacks (b ++ "/" ++ E.computeObjectId b key) := by
    intro c _
    rw [hcells]
    exact Std.ExtTreeMap.getElem?_empty
  simp only [ObjectCall.run_eq] at hrun
  obtain ⟨order, hnodup, hall, horder⟩ := Run.linearized (apart_objectLocks E b) hfree hrun
  refine ⟨⟨order, hnodup, hall, horder, ?_⟩, ?_⟩
  · rintro before i after observed updated rfl hi
    rw [List.map_append, List.map_cons] at horder
    obtain ⟨x, y, hx, hret, -⟩ := horder.split
    obtain ⟨hxdir, H, hH⟩ := InOrder.keeps hx hnamed hbucket ⟨H₀, hH₀⟩
    obtain ⟨⟨H', hH', heffect⟩, -⟩ := ObjectCall.returns_body hxdir hH (hnamed i) hret
    rw [hi] at heffect
    exact ⟨x, y, H, H', hx, hret, hH, hH', heffect.replaces⟩
  · intro i j observed updated updated' hi hj hrestores hri hrj
    by_contra hne
    obtain ⟨l₁, l₂, l₃, rfl⟩ | ⟨l₁, l₂, l₃, rfl⟩ := split_of_mem (hall i) (hall j) hne
    · simp only [List.map_append, List.map_cons, hri, hrj] at horder
      exact InOrder.replacements_not_both horder hnamed hmetadata hbucket ⟨H₀, hH₀⟩ hi hj hrestores
    · simp only [List.map_append, List.map_cons, hri, hrj] at horder
      exact InOrder.replacements_not_both horder hnamed hmetadata hbucket ⟨H₀, hH₀⟩ hj hi hrestores

omit [Fintype ι] in
/-- A pool can go on with any of its calls, as long as nobody holds a mutex. -/
theorem Run.objectCall {s₀ s : Store} {H : History} {tr : List (ι × Event)} {T : ι → Op Store Bool}
    (hrun : Run (fun i ↦ (calls i).run E b key) s₀ tr T s) (i : ι)
    (hi : T i = (calls i).run E b key) (hnamed : (calls i).Named key)
    (hs : Reached E b key (fun _ _ ↦ True) s) (hbucket : ((Store.bucket E b).get s).dir.isSome)
    (hH : Keeps E b key ((Store.bucket E b).get s) H) :
    ∃ r t tr' H', Run (fun i ↦ (calls i).run E b key) s₀ tr' (Function.update T i (ofExcept r)) t ∧
      Reached E b key (fun _ _ ↦ True) t ∧ ((Store.bucket E b).get t).dir.isSome ∧
      Keeps E b key ((Store.bucket E b).get t) H' ∧
      (calls i).Effect E key ((Store.bucket E b).get s) H r H' := by
  obtain ⟨r, t, ⟨evs, hexec⟩, ht, ⟨H', hH', heffect⟩, hdir, -⟩ :=
    hs.exists_call hbucket hH (calls i) hnamed trivial
  exact ⟨r, t, _, H', hrun.trans (Run.of_exec (hi ▸ hexec)), ht, hdir, hH', heffect⟩

end Calls

/-- A replacement that finds the guard succeeds. -/
theorem ObjectCall.Effect.replace_ok {E : Env} {key : Text} {s : BucketState} {H H' : History}
    {r : Except Error Bool} {observed updated o : Object} {data : Bytes}
    (h : (ObjectCall.replaceObjectMetadataIfUnchanged observed updated).Effect E key s H r H')
    (hst : H.current = some (data, o)) (hsame : ObjectCall.SameGuard o observed) :
    r = .ok true ∧ H'.current = some (data, (ObjectCall.merge o updated).serialized) := by
  rcases r with e | _ | _
  · exact h.elim
  · exact absurd hsame (h.2 data o hst)
  · obtain ⟨data', o', hst', -, rfl⟩ := h
    cases hst.symm.trans hst'
    exact ⟨rfl, rfl⟩

/-- The document of the only version of a key. -/
def plainDocument : Object := ((oneByte 97).withVersionId (some "u")).serialized

/-- The same document with another content type. -/
def typedDocument (contentType : String) : Object :=
  { plainDocument with contentType := contentType }

/-- Two replacements from one observation. -/
def rivals : Bool → ObjectCall
  | false => .replaceObjectMetadataIfUnchanged plainDocument (typedDocument "text/html")
  | true => .replaceObjectMetadataIfUnchanged plainDocument (typedDocument "text/css")

/-- One of two rivals wins. -/
theorem replacements_lose_nothing_rivals :
    ∃ (s₀ : Store) (tr : List (Bool × Event)) (res : Bool → Except Error Bool) (s : Store),
      Run (fun i ↦ (rivals i).run .simple "b" ['k']) s₀ tr (fun i ↦ ofExcept (res i)) s ∧
        res false = .ok true ∧ res true ≠ .ok true := by
  obtain ⟨s₀, H₀, data, hs₀, hbucket₀, -, hH₀, hcurrent₀, -⟩ :=
    exists_one_version (fun _ _ ↦ True) 97 trivial
  have hnamed : ∀ i, (rivals i).Named ['k'] := by rintro (_ | _) <;> exact nofun
  have hmetadata : ∀ i, (rivals i).OnMetadata := by
    rintro (_ | _) <;> exact .replaceObjectMetadataIfUnchanged _ _
  have hrestores : ∀ i, ¬ (rivals i).Restores plainDocument := by
    rintro (_ | _) hrestores
    · exact absurd hrestores.contentType (by decide)
    · exact absurd hrestores.contentType (by decide)
  obtain ⟨r₁, s₁, tr₁, H₁, hrun₁, hs₁, hbucket₁, hH₁, heffect₁⟩ :=
    Run.objectCall .refl false rfl (hnamed false) hs₀ hbucket₀ hH₀
  obtain ⟨rfl, -⟩ := heffect₁.replace_ok hcurrent₀ ⟨rfl, rfl, rfl, rfl, rfl, rfl⟩
  obtain ⟨r₂, s₂, tr₂, H₂, hrun₂, -⟩ :=
    Run.objectCall hrun₁ true rfl (hnamed true) hs₁ hbucket₁ hH₁
  have hres : Function.update (Function.update (fun i ↦ (rivals i).run .simple "b" ['k']) false
      (ofExcept (.ok true))) true (ofExcept r₂) =
        fun i ↦ ofExcept (bif i then r₂ else .ok true) := by
    funext i
    cases i <;> rfl
  rw [hres] at hrun₂
  refine ⟨s₀, tr₂, fun i ↦ bif i then r₂ else .ok true, s₂, hrun₂, rfl, fun hboth ↦ ?_⟩
  have hsame := (replacements_lose_nothing hs₀ hbucket₀ hnamed hmetadata hrun₂).2 false true _ _ _
    rfl rfl hrestores rfl hboth
  cases hsame

/-- Replacements from one observation, one that changes nothing and one that is undone. -/
def undone : Fin 4 → ObjectCall
  | 0 => .replaceObjectMetadataIfUnchanged plainDocument plainDocument
  | 1 => .replaceObjectMetadataIfUnchanged plainDocument (typedDocument "text/html")
  | 2 => .replaceObjectMetadataIfUnchanged (typedDocument "text/html") plainDocument
  | 3 => .replaceObjectMetadataIfUnchanged plainDocument (typedDocument "text/css")

/-- **Three replacements from one observation, with different updates, return `true`**: the first
changes nothing, and the second is undone before the third. -/
theorem same_observation_succeeds_twice :
    ∃ (s₀ : Store) (tr : List (Fin 4 × Event)) (res : Fin 4 → Except Error Bool) (s : Store),
      Reached .simple "b" ['k'] (fun _ _ ↦ True) s₀ ∧
      Run (fun i ↦ (undone i).run .simple "b" ['k']) s₀ tr (fun i ↦ ofExcept (res i)) s ∧
      undone 0 = .replaceObjectMetadataIfUnchanged plainDocument plainDocument ∧
      undone 1 = .replaceObjectMetadataIfUnchanged plainDocument (typedDocument "text/html") ∧
      undone 3 = .replaceObjectMetadataIfUnchanged plainDocument (typedDocument "text/css") ∧
      typedDocument "text/html" ≠ typedDocument "text/css" ∧
      res 0 = .ok true ∧ res 1 = .ok true ∧ res 3 = .ok true := by
  obtain ⟨s₀, H₀, data, hs₀, hbucket₀, -, hH₀, hcurrent₀, -⟩ :=
    exists_one_version (fun _ _ ↦ True) 97 trivial
  have hnamed : ∀ i, (undone i).Named ['k'] := by
    intro i
    match i with
    | 0 => exact nofun
    | 1 => exact nofun
    | 2 => exact nofun
    | 3 => exact nofun
  obtain ⟨r₁, s₁, tr₁, H₁, hrun₁, hs₁, hbucket₁, hH₁, heffect₁⟩ :=
    Run.objectCall .refl 0 rfl (hnamed 0) hs₀ hbucket₀ hH₀
  obtain ⟨rfl, hcurrent₁⟩ := heffect₁.replace_ok hcurrent₀ ⟨rfl, rfl, rfl, rfl, rfl, rfl⟩
  obtain ⟨r₂, s₂, tr₂, H₂, hrun₂, hs₂, hbucket₂, hH₂, heffect₂⟩ :=
    Run.objectCall hrun₁ 1 rfl (hnamed 1) hs₁ hbucket₁ hH₁
  obtain ⟨rfl, hcurrent₂⟩ := heffect₂.replace_ok hcurrent₁ ⟨rfl, rfl, rfl, rfl, rfl, rfl⟩
  obtain ⟨r₃, s₃, tr₃, H₃, hrun₃, hs₃, hbucket₃, hH₃, heffect₃⟩ :=
    Run.objectCall hrun₂ 2 rfl (hnamed 2) hs₂ hbucket₂ hH₂
  obtain ⟨rfl, hcurrent₃⟩ := heffect₃.replace_ok hcurrent₂ ⟨rfl, rfl, rfl, rfl, rfl, rfl⟩
  obtain ⟨r₄, s₄, tr₄, H₄, hrun₄, hs₄, -, hH₄, heffect₄⟩ :=
    Run.objectCall hrun₃ 3 rfl (hnamed 3) hs₃ hbucket₃ hH₃
  obtain ⟨rfl, -⟩ := heffect₄.replace_ok hcurrent₃ ⟨rfl, rfl, rfl, rfl, rfl, rfl⟩
  refine ⟨s₀, tr₄, fun _ ↦ .ok true, s₄, hs₀, ?_, rfl, rfl, rfl, by decide, rfl, rfl, rfl⟩
  convert hrun₄ using 1
  funext i
  match i with
  | 0 => rfl
  | 1 => rfl
  | 2 => rfl
  | 3 => rfl

end Sqrzl
