import SqrzlEmulator.Storage.Objects

/-!
# Conditional writes and deletes

The operations on one key run under the mutex of the key, so that however the steps of any number of
them interleave, **they take effect one after the other** (`Prog.Run.linearized`). What remains to
be shown is about one call at a time, and is a consequence of the rules of `Storage.Objects`:

* the condition is that of the object the directory stands for, although a conjunction reads it
  again for each member, and the first read may roll a pending publication forward;
* a call whose condition does not hold leaves the history and the index as they are;
* a call that returns `true` has found what it demands, and leaves something else.

A demanded state can come back only through a call that brings it about: a write of the demanded
ETag, or a delete when the object is to be missing. Without such a call, at most one of the
conditional writers that demand it returns `true`.
-/

namespace Sqrzl

open Prog

/-! ### Conditions -/

mutual

/-- When a condition holds of the current object. -/
def ObjectCondition.holds (current : Option Object) : ObjectCondition → Bool
  | .all conditions => ObjectCondition.allHold current conditions
  | .missing => current.isNone
  | .etag expected => current.any (·.etag = expected)
  | .etagIn expected => current.any fun o ↦ expected.any (· = o.etag)
  | .etagNotIn rejected => current.any fun o ↦ !rejected.any (· = o.etag)
  | .missingOrEtagNotIn rejected => current.all fun o ↦ !rejected.any (· = o.etag)
  | .metadata key value => current.any fun o ↦ o.metadata[key]? = some value
  | .metadataNot key value => current.any fun o ↦ o.metadata[key]? ≠ some value

/-- When all of several conditions hold of the current object. -/
def ObjectCondition.allHold (current : Option Object) : List ObjectCondition → Bool
  | [] => true
  | condition :: conditions => condition.holds current && allHold current conditions

end

/-- **A conjunction holds exactly when each of its members holds of the same object.** -/
theorem ObjectCondition.holds_all {current : Option Object} {conditions : List ObjectCondition} :
    (ObjectCondition.all conditions).holds current = true ↔
      ∀ c ∈ conditions, c.holds current = true := by
  rw [ObjectCondition.holds]
  induction conditions with
  | nil => exact ⟨nofun, fun _ ↦ rfl⟩
  | cons c cs ih => rw [ObjectCondition.allHold, Bool.and_eq_true, ih, List.forall_mem_cons]

/-- A condition that is not a conjunction is evaluated as the source does. -/
theorem ObjectCondition.matches_metadata {H : History} {c : ObjectCondition}
    (hc : ∀ cs, c ≠ .all cs) :
    c.matches H.metadata = .ok (c.holds (H.current.map Prod.snd)) := by
  rw [History.metadata]
  cases hcur : H.current with
  | none =>
    cases c with
    | all cs => exact absurd rfl (hc cs)
    | missing => rfl
    | etag e => rfl
    | etagIn es => rfl
    | etagNotIn es => rfl
    | missingOrEtagNotIn es => rfl
    | metadata k v => rfl
    | metadataNot k v => rfl
  | some st =>
    cases c with
    | all cs => exact absurd rfl (hc cs)
    | missing => rfl
    | etag e => rfl
    | etagIn es => rfl
    | etagNotIn es => rfl
    | missingOrEtagNotIn es => rfl
    | metadata k v => rfl
    | metadataNot k v => rfl

section Evaluation

variable {E : Env} {b : String} {key : Text} {s : BucketState} {H : History}
  {J : Option BucketDir → Prop}

mutual

/-- **The condition is evaluated on the object that the directory stands for.** -/
theorem wp_objectConditionMatches {Q : Except Error Bool → BucketState → Prop} {s : BucketState}
    (c : ObjectCondition) (hdir : s.dir.isSome) (h : Ready E ((objectIdDir E b key).get s) H)
    (hJ : ∀ x, Stands E x H → J (withObject E b key x s).dir)
    (hQ : ∀ x, Ready E x H → x.isSome = ((objectIdDir E b key).get s).isSome →
      Q (.ok (c.holds (H.current.map Prod.snd))) (withObject E b key x s)) :
    wp (fun t ↦ J t.dir) (objectConditionMatches E b key c) Q s := by
  have hread : ∀ c : ObjectCondition, (∀ cs, c ≠ .all cs) →
      (∀ x, Ready E x H → x.isSome = ((objectIdDir E b key).get s).isSome →
        Q (.ok (c.holds (H.current.map Prod.snd))) (withObject E b key x s)) →
      wp (fun t ↦ J t.dir) ((attempt (readObjectMetadataLocked E b key)).bind fun outcome ↦
        ofExcept (c.matches outcome)) Q s := by
    intro c hc hQ
    rw [wp_bind, wp_attempt]
    refine wp_readObjectMetadataLocked hdir h hJ fun x hx hsome ↦ ?_
    dsimp only
    rw [ObjectCondition.matches_metadata hc]
    exact ⟨hJ x hx.stands, hQ x hx.ready hsome⟩
  match c with
  | .all cs => exact wp_allConditionsMatch cs hdir h hJ hQ
  | .missing | .etag _ | .etagIn _ | .etagNotIn _ | .missingOrEtagNotIn _ | .metadata _ _
  | .metadataNot _ _ => exact hread _ nofun hQ

theorem wp_allConditionsMatch {Q : Except Error Bool → BucketState → Prop} {s : BucketState}
    (cs : List ObjectCondition) (hdir : s.dir.isSome)
    (h : Ready E ((objectIdDir E b key).get s) H)
    (hJ : ∀ x, Stands E x H → J (withObject E b key x s).dir)
    (hQ : ∀ x, Ready E x H → x.isSome = ((objectIdDir E b key).get s).isSome →
      Q (.ok (ObjectCondition.allHold (H.current.map Prod.snd) cs)) (withObject E b key x s)) :
    wp (fun t ↦ J t.dir) (allConditionsMatch E b key cs) Q s := by
  match cs with
  | [] =>
    have hself : withObject E b key ((objectIdDir E b key).get s) s = s :=
      BucketState.objectLens_set_get hdir
    have hj := hJ _ h.stands
    have hq := hQ _ h rfl
    rw [hself] at hj hq
    exact ⟨hj, hq⟩
  | c :: cs =>
    rw [allConditionsMatch, bind_eq, wp_bind]
    refine wp_objectConditionMatches c hdir h hJ fun x hx hsome ↦ ?_
    simp only [ObjectCondition.allHold] at hQ
    cases hc : c.holds (H.current.map Prod.snd) with
    | false =>
      rw [hc] at hQ
      exact ⟨hJ x hx.stands, hQ x hx hsome⟩
    | true =>
      rw [hc] at hQ
      refine wp_allConditionsMatch cs rfl ?_ (fun y hy ↦ ?_) fun y hy hsome' ↦ ?_
      · rwa [objectIdDir_get_withObject]
      · rw [withObject_withObject]
        exact hJ y hy
      · rw [objectIdDir_get_withObject] at hsome'
        rw [withObject_withObject]
        exact hQ y hy (hsome'.trans hsome)

end

mutual

theorem wp_objectConditionMatches_of_none {Q : Except Error Bool → BucketState → Prop}
    (c : ObjectCondition) (hdir : s.dir = none) (hJ : J s.dir) (hQ : Q (.ok (c.holds none)) s) :
    wp (fun t ↦ J t.dir) (objectConditionMatches E b key c) Q s := by
  have hread : ∀ c : ObjectCondition, (∀ cs, c ≠ .all cs) → Q (.ok (c.holds none)) s →
      wp (fun t ↦ J t.dir) ((attempt (readObjectMetadataLocked E b key)).bind fun outcome ↦
        ofExcept (c.matches outcome)) Q s := by
    intro c hc hQ
    have hmatch := ObjectCondition.matches_metadata (H := {}) hc
    rw [wp_bind, wp_attempt]
    refine wp_readObjectMetadataLocked_of_none hdir hJ ?_
    dsimp only
    rw [show c.matches (.error .keyNotFound) = .ok (c.holds none) from hmatch]
    exact ⟨hJ, hQ⟩
  match c with
  | .all cs => exact wp_allConditionsMatch_of_none cs hdir hJ hQ
  | .missing | .etag _ | .etagIn _ | .etagNotIn _ | .missingOrEtagNotIn _ | .metadata _ _
  | .metadataNot _ _ => exact hread _ nofun hQ

theorem wp_allConditionsMatch_of_none {Q : Except Error Bool → BucketState → Prop}
    (cs : List ObjectCondition) (hdir : s.dir = none) (hJ : J s.dir)
    (hQ : Q (.ok (ObjectCondition.allHold none cs)) s) :
    wp (fun t ↦ J t.dir) (allConditionsMatch E b key cs) Q s := by
  match cs with
  | [] => exact ⟨hJ, hQ⟩
  | c :: cs =>
    rw [allConditionsMatch, bind_eq, wp_bind]
    refine wp_objectConditionMatches_of_none c hdir hJ ?_
    rw [ObjectCondition.allHold] at hQ
    cases hc : c.holds none with
    | false =>
      rw [hc] at hQ
      exact ⟨hJ, hQ⟩
    | true =>
      rw [hc] at hQ
      exact wp_allConditionsMatch_of_none cs hdir hJ hQ

end

end Evaluation

/-- The condition holds only of an object with this ETag; `none` demands that there is none. -/
def ObjectCondition.Demands (c : ObjectCondition) (etag : Option String) : Prop :=
  ∀ current, c.holds current = true → current.map (·.etag) = etag

theorem ObjectCondition.demands_missing : ObjectCondition.missing.Demands none := by
  rintro (_ | o) h
  · rfl
  · cases h

/-- A conjunction demands what one of its members demands. -/
theorem ObjectCondition.Demands.all {c : ObjectCondition} {cs : List ObjectCondition}
    {etag : Option String} (hc : c.Demands etag) (hmem : c ∈ cs) :
    (ObjectCondition.all cs).Demands etag :=
  fun current h ↦ hc current (holds_all.1 h c hmem)

/-! ### Calls on one key -/

/-- The bytes of a new object are there, and as many as the object says. -/
def BodySource.Fits (source : BodySource) (o : Object) (s : BucketState) : Prop :=
  ∃ data, source.bytes o s = some data ∧ data.length = o.size

/-- The calls that change a key. -/
inductive KeyCall where
  | putObject (object : Object)
  | putObjectStreamed (object : Object) (path : String)
  | putObjectIf (object : Object) (condition : ObjectCondition)
  | putObjectStreamedIf (object : Object) (path : String) (condition : ObjectCondition)
  | deleteObject
  | deleteObjectIf (condition : ObjectCondition)

namespace KeyCall

/-- Run a call; only conditional ones return a truth value. -/
def run (E : Env) (b : String) (key : Text) : KeyCall → Op Store (Option Bool)
  | putObject o => (Sqrzl.putObject E b key o).bind fun _ ↦ .ret none
  | putObjectStreamed o path => (Sqrzl.putObjectStreamed E b key o path).bind fun _ ↦ .ret none
  | putObjectIf o c => (Sqrzl.putObjectIf E b key o c).bind fun r ↦ .ret (some r)
  | putObjectStreamedIf o path c =>
    (Sqrzl.putObjectStreamedIf E b key o path c).bind fun r ↦ .ret (some r)
  | deleteObject => (Sqrzl.deleteObject E b key).bind fun _ ↦ .ret none
  | deleteObjectIf c => (Sqrzl.deleteObjectIf E b key c).bind fun r ↦ .ret (some r)

/-- The condition of a call. -/
def condition : KeyCall → Option ObjectCondition
  | putObjectIf _ c => some c
  | putObjectStreamedIf _ _ c => some c
  | deleteObjectIf c => some c
  | _ => none

/-- The object that a call writes. -/
def written : KeyCall → Option Object
  | putObject o => some o
  | putObjectStreamed o _ => some o
  | putObjectIf o _ => some o
  | putObjectStreamedIf o _ _ => some o
  | _ => none

/-- What a call does when its condition holds. -/
def mutation (E : Env) (b : String) (key : Text) : KeyCall → Op BucketState Unit
  | putObject o => putObjectLocked E b key o
  | putObjectStreamed o path => putObjectLockedWithPayload E b key o (.spooled path)
  | putObjectIf o _ => putObjectLocked E b key o
  | putObjectStreamedIf o path _ => putObjectLockedWithPayload E b key o (.spooled path)
  | deleteObject => deleteObjectLocked E b key
  | deleteObjectIf _ => deleteObjectLocked E b key

/-- Whether a write or a delete can be carried out: a write needs bytes, as many as its object says,
and a delete without versioning needs an object. -/
def Possible (s : BucketState) (H : History) : KeyCall → Prop
  | putObject o => s.dir.isSome ∧ BodySource.inMemory.Fits o s
  | putObjectStreamed o path => s.dir.isSome ∧ (BodySource.spooled path).Fits o s
  | putObjectIf o _ => s.dir.isSome ∧ BodySource.inMemory.Fits o s
  | putObjectStreamedIf o path _ => s.dir.isSome ∧ (BodySource.spooled path).Fits o s
  | deleteObject => (s.dir.bind (·.versioning)).isSome ∨ H.current.isSome
  | deleteObjectIf _ => (s.dir.bind (·.versioning)).isSome ∨ H.current.isSome

/-- What a call does under the mutex of the key. -/
def body (E : Env) (b : String) (key : Text) (call : KeyCall) : Op BucketState (Option Bool) :=
  match call.condition with
  | none => (call.mutation E b key).bind fun _ ↦ .ret none
  | some c => (mutateIf E b key c (call.mutation E b key)).bind fun r ↦ .ret (some r)

/-- **A call is its body under the mutex of the key.** -/
theorem run_eq (E : Env) (b : String) (key : Text) (call : KeyCall) :
    call.run E b key = onObject E b key (call.body E b key) := by
  have hmap : ∀ {α β : Type} (p : Op BucketState α) (f : α → β),
      (onObject E b key p).bind (fun a ↦ .ret (f a)) =
        onObject E b key (p.bind fun a ↦ .ret (f a)) := by
    intro α β p f
    rw [onObject, withLock_bind_ret, onObject, zoom_bind]
    rfl
  cases call with
  | putObject o => exact hmap _ _
  | putObjectStreamed o path => exact hmap _ _
  | putObjectIf o c => exact hmap _ _
  | putObjectStreamedIf o path c => exact hmap _ _
  | deleteObject => exact hmap _ _
  | deleteObjectIf c => exact hmap _ _

end KeyCall

/-! ### One call -/

section Call

variable {E : Env} {b : String} {key : Text} {s : BucketState} {H : History}

/-- The bucket holds the history `H` for the key, or does not exist. -/
inductive KeyState (E : Env) (b : String) (key : Text) : BucketState → History → Prop
  | missing {s : BucketState} (hdir : s.dir = none) : KeyState E b key s {}
  | present {s : BucketState} {H : History} (hdir : s.dir.isSome)
      (ready : Ready E ((objectIdDir E b key).get s) H)
      (size : ∀ data o, H.current = some (data, o) → data.length = o.size)
      (plain : s.dir.bind (·.versioning) = none → H.versions = fun _ ↦ none) : KeyState E b key s H

theorem KeyState.congr {t : BucketState} (h : KeyState E b key s H) (hdir : t.dir = s.dir) :
    KeyState E b key t H := by
  cases h with
  | missing hs => exact .missing (hdir.trans hs)
  | present hs ready size plain =>
    refine .present (hdir ▸ hs) ?_ size (by rwa [hdir])
    rwa [objectIdDir, BucketState.objectLens_get, hdir, ← BucketState.objectLens_get]

theorem keyState_withObject {x : Option ObjectDir} (hx : Ready E x H)
    (hsize : ∀ data o, H.current = some (data, o) → data.length = o.size)
    (hplain : s.dir.bind (·.versioning) = none → H.versions = fun _ ↦ none) :
    KeyState E b key (withObject E b key x s) H := by
  refine .present rfl ?_ hsize ?_
  · rwa [objectIdDir_get_withObject]
  · rwa [versioning_withObject]

/-- The ETag of the current object. -/
def History.etag (H : History) : Option String := H.current.map fun st ↦ st.2.etag

theorem History.versions_put_none {data : Bytes} {o : Object} :
    (H.put none none data o).versions = H.versions := by
  funext id
  simp [History.put, History.snapshot, History.change, History.putChange, Change.markerId]

theorem History.versions_delete_none : (H.delete none none).versions = H.versions := by
  funext id
  simp [History.delete, History.snapshot, History.change, History.deleteChange, Change.markerId]

/-- What a write leaves. -/
theorem wp_put {source : BodySource} {o : Object} (h : KeyState E b key s H) :
    wp (fun _ ↦ True) (putObjectLockedWithPayload E b key o source)
      (fun r t ↦ ∃ H', KeyState E b key t H' ∧ match r with
        | .ok _ => H'.etag = some o.etag
        | .error _ => H'.current = H.current ∧ ¬ (s.dir.isSome ∧ source.Fits o s)) s := by
  cases h with
  | missing hdir =>
    refine wp_putObjectLockedWithPayload_of_none (J := fun _ ↦ True) hdir trivial
      ⟨{}, .missing hdir, rfl, fun hposs ↦ ?_⟩
    rw [hdir] at hposs
    cases hposs.1
  | present hdir ready size plain =>
    refine wp_putObjectLockedWithPayload (J := fun _ ↦ True) hdir rfl ready size
      (fun _ _ _ _ _ _ ↦ trivial) (fun x a data _ hlen hx ↦ ?_) fun e x a s' hbad hs' hx ↦ ?_
    · refine ⟨_, (keyState_withObject hx.ready ?_ fun hv ↦ ?_).congr rfl, rfl⟩
      · rintro _ _ ⟨⟩
        exact hlen
      · rw [BodySource.versioning_rest] at hv
        rw [hv]
        exact History.versions_put_none.trans (plain hv)
    · have hv' : s'.dir.bind (·.versioning) = s.dir.bind (·.versioning) := by
        rcases hs' with rfl | rfl
        · rfl
        · exact BodySource.versioning_rest
      have hkey : KeyState E b key (withObject E b key x s')
          (H.snapshot (s.dir.bind (·.versioning))) := by
        refine keyState_withObject hx.ready ?_ fun hv ↦ ?_
        · rw [History.current_snapshot]
          exact size
        · rw [hv'] at hv
          rw [hv]
          exact plain hv
      refine ⟨_, hkey.congr ?_, History.current_snapshot _, ?_⟩
      · split <;> rfl
      · rintro ⟨-, data, hdata, hlen⟩
        exact hbad data hdata hlen

/-- What a delete leaves. -/
theorem wp_delete (h : KeyState E b key s H) :
    wp (fun _ ↦ True) (deleteObjectLocked E b key) (fun r t ↦ ∃ H', KeyState E b key t H' ∧
      match r with
        | .ok _ => H'.etag = none
        | .error _ => H'.current = H.current ∧
            ¬ ((s.dir.bind (·.versioning)).isSome ∨ H.current.isSome)) s := by
  cases h with
  | missing hdir =>
    refine wp_deleteObjectLocked_of_none (J := fun _ ↦ True) hdir trivial
      ⟨{}, .missing hdir, rfl, ?_⟩
    rw [hdir]
    rintro (hposs | hposs) <;> cases hposs
  | present hdir ready size plain =>
    refine wp_deleteObjectLocked (J := fun _ ↦ True) hdir rfl ready size plain
      (fun _ _ _ _ ↦ trivial) (fun x now _ hx ↦ ?_) fun hv hcur x hx ↦ ?_
    · refine ⟨_, (keyState_withObject hx.ready nofun fun hv ↦ ?_).congr rfl, rfl⟩
      rw [hv]
      exact History.versions_delete_none.trans (plain hv)
    · refine ⟨H, keyState_withObject hx.ready size plain, rfl, ?_⟩
      rw [hv, hcur]
      rintro (hposs | hposs) <;> cases hposs

/-- What the mutation of a call leaves. -/
theorem wp_mutation (call : KeyCall) (h : KeyState E b key s H) :
    wp (fun _ ↦ True) (call.mutation E b key) (fun r t ↦ ∃ H', KeyState E b key t H' ∧ match r with
      | .ok _ => H'.etag = call.written.map (·.etag)
      | .error _ => H'.current = H.current ∧ ¬ call.Possible s H) s := by
  cases call with
  | putObject o => exact wp_put h
  | putObjectStreamed o path => exact wp_put h
  | putObjectIf o c => exact wp_put h
  | putObjectStreamedIf o path c => exact wp_put h
  | deleteObject => exact wp_delete h
  | deleteObjectIf c => exact wp_delete h

theorem KeyCall.possible_withObject {call : KeyCall} {x : Option ObjectDir} (hdir : s.dir.isSome) :
    call.Possible (withObject E b key x s) H ↔ call.Possible s H := by
  cases call <;> simp [KeyCall.Possible, BodySource.Fits, hdir]

/-- **What one call does**, by its result: with `false` its condition did not hold, and it leaves
everything but the files of a pending publication; with an error it could not be carried out, and it
leaves the current object; otherwise its condition held, and it has taken effect. -/
def CallEffect (E : Env) (b : String) (key : Text) (call : KeyCall) (s : BucketState) (H : History)
    (r : Except Error (Option Bool)) (t : BucketState) (H' : History) : Prop :=
  match r with
  | .ok (some false) => H' = H ∧ (t = s ∨ ∃ x, t = withObject E b key x s) ∧
      ∃ c, call.condition = some c ∧ c.holds (H.current.map Prod.snd) = false
  | .ok (some true) => H'.etag = call.written.map (·.etag) ∧
      ∃ c, call.condition = some c ∧ c.holds (H.current.map Prod.snd) = true
  | .ok none => H'.etag = call.written.map (·.etag) ∧ call.condition = none
  | .error _ => H'.current = H.current ∧ ¬ call.Possible s H

theorem wp_body (call : KeyCall) (h : KeyState E b key s H) :
    wp (fun _ ↦ True) (call.body E b key) (fun r t ↦ ∃ H', KeyState E b key t H' ∧
      CallEffect E b key call s H r t H') s := by
  unfold KeyCall.body
  cases hc : call.condition with
  | none =>
    dsimp only
    rw [wp_bind]
    refine wp_mono (wp_mutation call h) (fun _ ↦ id) ?_
    rintro (e | u) t - ⟨H', hkey, heff⟩
    · exact ⟨H', hkey, heff⟩
    · exact ⟨trivial, H', hkey, heff, hc⟩
  | some c =>
    have hafter : ∀ {t : BucketState} {Q : Except Error Bool → BucketState → Prop},
        KeyState E b key t H → (t = s ∨ ∃ x, t = withObject E b key x s) →
        (call.Possible t H ↔ call.Possible s H) → (∀ r t' H', KeyState E b key t' H' → CallEffect E b key call s H (r.map some) t' H' →
          Q r t') →
        wp (fun _ ↦ True) (if c.holds (H.current.map Prod.snd) = true then
            (call.mutation E b key).bind fun _ ↦ ret true
          else ret false) Q t := by
      intro t Q hkey ht hposs hQ
      cases hholds : c.holds (H.current.map Prod.snd) with
      | false => exact ⟨trivial, hQ (.ok false) t H hkey ⟨rfl, ht, c, hc, hholds⟩⟩
      | true =>
        rw [if_pos rfl, wp_bind]
        refine wp_mono (wp_mutation call hkey) (fun _ ↦ id) ?_
        rintro (e | u) t' - ⟨H', hkey', heff⟩
        · exact hQ (.error e) t' H' hkey' ⟨heff.1, fun h ↦ heff.2 (hposs.2 h)⟩
        · exact ⟨trivial, hQ (.ok true) t' H' hkey' ⟨heff, c, hc, hholds⟩⟩
    simp only [mutateIf, bind_eq, pure_eq, wp_bind]
    cases h with
    | missing hdir =>
      refine wp_objectConditionMatches_of_none (J := fun _ ↦ True) c hdir trivial
        (hafter (.missing hdir) (.inl rfl) Iff.rfl ?_)
      rintro (e | a) t H' hkey heff
      · exact ⟨H', hkey, heff⟩
      · exact ⟨trivial, H', hkey, heff⟩
    | present hdir ready size plain =>
      refine wp_objectConditionMatches (J := fun _ ↦ True) c hdir ready (fun _ _ ↦ trivial)
        fun x hx _ ↦ hafter (keyState_withObject hx size plain) (.inr ⟨x, rfl⟩)
          (KeyCall.possible_withObject hdir) ?_
      rintro (e | a) t H' hkey heff
      · exact ⟨H', hkey, heff⟩
      · exact ⟨trivial, H', hkey, heff⟩

theorem returns_body {call : KeyCall} {r : Except Error (Option Bool)} {t : BucketState}
    (h : KeyState E b key s H) (hret : (call.body E b key).Returns s r t) :
    ∃ H', KeyState E b key t H' ∧ CallEffect E b key call s H r t H' :=
  hret.of_wp (wp_body call h)

/-- A call that does not write the ETag `d` does not bring it about. -/
theorem CallEffect.etag_ne {call : KeyCall} {r : Except Error (Option Bool)} {t : BucketState}
    {H' : History} {d : Option String} (h : CallEffect E b key call s H r t H')
    (hcall : call.written.map (·.etag) ≠ d) (hH : H.etag ≠ d) : H'.etag ≠ d := by
  match r, h with
  | .ok (some false), h => exact h.1 ▸ hH
  | .ok (some true), h => exact h.1 ▸ hcall
  | .ok none, h => exact h.1 ▸ hcall
  | .error e, h =>
    rw [History.etag, h.1]
    exact hH

end Call

/-! ### Any number of calls -/

section Calls

variable {E : Env} {b : String} {key : Text} {ι : Type} {calls : ι → KeyCall}

theorem apart_objectLocks (E : Env) (b : String) : Apart Store.objectLocksLens (Store.bucket E b) :=
  ⟨fun _ _ ↦ rfl, fun _ _ ↦ rfl⟩

theorem InOrder.keyState {x₀ x : BucketState} {H₀ : History}
    {l : List (ι × Except Error (Option Bool))}
    (h : InOrder (fun i ↦ (calls i).body E b key) x₀ l x) (h₀ : KeyState E b key x₀ H₀) :
    ∃ H, KeyState E b key x H := by
  refine h.invariant (J := fun x ↦ ∃ H, KeyState E b key x H) ⟨H₀, h₀⟩ ?_
  rintro i r y z - ⟨H, hy⟩ hret
  obtain ⟨H', hz, -⟩ := returns_body hy hret
  exact ⟨H', hz⟩

/-- **Two calls that demand the same state do not both find it**, when none of the calls brings it
about. -/
theorem InOrder.not_both {x₀ x : BucketState} {H₀ : History} {d : Option String} {i j : ι}
    {cj : ObjectCondition} {l₁ l₂ l₃ : List (ι × Except Error (Option Bool))}
    (h : InOrder (fun i ↦ (calls i).body E b key) x₀
      (l₁ ++ (i, .ok (some true)) :: (l₂ ++ (j, .ok (some true)) :: l₃)) x)
    (h₀ : KeyState E b key x₀ H₀) (hd : ∀ i, (calls i).written.map (·.etag) ≠ d)
    (hj : (calls j).condition = some cj) (hcj : cj.Demands d) : False := by
  obtain ⟨y, z, hy, hi', hrest⟩ := h.split
  obtain ⟨u, w, hu, hj', -⟩ := hrest.split
  obtain ⟨H, hkey⟩ := InOrder.keyState hy h₀
  obtain ⟨H', hkey', hetag, -⟩ := returns_body hkey hi'
  -- After the first of the two, the demanded state is gone, and it does not come back.
  have hgone : ∃ K, KeyState E b key u K ∧ K.etag ≠ d := by
    refine hu.invariant (J := fun x ↦ ∃ K, KeyState E b key x K ∧ K.etag ≠ d)
      ⟨H', hkey', hetag ▸ hd i⟩ ?_
    rintro k r v v' - ⟨K, hv, hK⟩ hret
    obtain ⟨K', hv', heff⟩ := returns_body hv hret
    exact ⟨K', hv', heff.etag_ne (hd k) hK⟩
  obtain ⟨K, hK, hne⟩ := hgone
  obtain ⟨-, -, -, c, hc, hholds⟩ := returns_body hK hj'
  obtain rfl : c = cj := Option.some.inj (hc.symm.trans hj)
  have := hcj _ hholds
  rw [Option.map_map] at this
  exact hne this

theorem split_of_mem {α : Type} {l : List α} {i j : α} (hi : i ∈ l) (hj : j ∈ l) (hne : i ≠ j) :
    (∃ l₁ l₂ l₃, l = l₁ ++ i :: (l₂ ++ j :: l₃)) ∨ ∃ l₁ l₂ l₃, l = l₁ ++ j :: (l₂ ++ i :: l₃) := by
  obtain ⟨l₁, l₂, rfl⟩ := List.append_of_mem hi
  rcases List.mem_append.1 hj with hj | hj
  · obtain ⟨l₃, l₄, rfl⟩ := List.append_of_mem hj
    exact .inr ⟨l₃, l₄, l₂, by rw [List.append_assoc, List.cons_append]⟩
  · obtain ⟨l₃, l₄, rfl⟩ := List.append_of_mem (List.mem_of_ne_of_mem hne.symm hj)
    exact .inl ⟨l₁, l₃, l₄, rfl⟩

variable [Fintype ι] [DecidableEq ι]

/-- **Calls on one key are atomic, in every interleaving.** When all of them have returned, there is
an order of them in which they return the same results and reach the same state of the bucket when
they run one after the other, and each does in its turn what `CallEffect` says. Of the calls that
demand one state of the object, at most one returns `true`, provided that none of the calls brings
this state about. -/
theorem conditional_calls_atomic {s₀ s : Store} {H₀ : History} {tr : List (ι × Event)}
    {res : ι → Except Error (Option Bool)}
    (hfree : s₀.objectLocks.Lacks (b ++ "/" ++ E.computeObjectId b key))
    (h₀ : KeyState E b key ((Store.bucket E b).get s₀) H₀)
    (hrun : Run (fun i ↦ (calls i).run E b key) s₀ tr (fun i ↦ ofExcept (res i)) s) :
    (∃ order : List ι, order.Nodup ∧ (∀ i, i ∈ order) ∧
      InOrder (fun i ↦ (calls i).body E b key) ((Store.bucket E b).get s₀)
        (order.map fun i ↦ (i, res i)) ((Store.bucket E b).get s) ∧
      ∀ before i after, order = before ++ i :: after → ∃ x y H H',
        InOrder (fun i ↦ (calls i).body E b key) ((Store.bucket E b).get s₀)
          (before.map fun i ↦ (i, res i)) x ∧
        ((calls i).body E b key).Returns x (res i) y ∧
        KeyState E b key x H ∧ KeyState E b key y H' ∧
        CallEffect E b key (calls i) x H (res i) y H') ∧
    (∀ current conditions, (ObjectCondition.all conditions).holds current = true ↔
      ∀ c ∈ conditions, c.holds current = true) ∧
    ∀ d : Option String, (∀ i, (calls i).written.map (·.etag) ≠ d) →
      ∀ i j ci cj, (calls i).condition = some ci → ci.Demands d →
        (calls j).condition = some cj → cj.Demands d →
        res i = .ok (some true) → res j = .ok (some true) → i = j := by
  simp only [KeyCall.run_eq] at hrun
  obtain ⟨order, hnodup, hall, horder⟩ := Run.linearized (apart_objectLocks E b) hfree hrun
  refine ⟨⟨order, hnodup, hall, horder, ?_⟩, fun _ _ ↦ ObjectCondition.holds_all, ?_⟩
  · rintro before i after rfl
    rw [List.map_append, List.map_cons] at horder
    obtain ⟨x, y, hx, hret, -⟩ := horder.split
    obtain ⟨H, hH⟩ := InOrder.keyState hx h₀
    obtain ⟨H', hH', heff⟩ := returns_body hH hret
    exact ⟨x, y, H, H', hx, hret, hH, hH', heff⟩
  · intro d hd i j ci cj hi hci hj hcj hri hrj
    by_contra hne
    obtain ⟨l₁, l₂, l₃, rfl⟩ | ⟨l₁, l₂, l₃, rfl⟩ := split_of_mem (hall i) (hall j) hne
    · simp only [List.map_append, List.map_cons, hri, hrj] at horder
      exact InOrder.not_both horder h₀ hd hj hcj
    · simp only [List.map_append, List.map_cons, hri, hrj] at horder
      exact InOrder.not_both horder h₀ hd hi hci

/-! ### Calls that run alone -/

omit [Fintype ι] in
/-- A pool can go on with any of its calls, as long as nobody holds a mutex. -/
theorem Run.call (calls : ι → KeyCall) {s₀ s : Store} {H : History} {tr : List (ι × Event)}
    {T : ι → Op Store (Option Bool)} (hrun : Run (fun i ↦ (calls i).run E b key) s₀ tr T s) (i : ι)
    (hi : T i = (calls i).run E b key) (hfree : s.objectLocks.cells = ∅)
    (h : KeyState E b key ((Store.bucket E b).get s) H) :
    ∃ r t tr' H', Run (fun i ↦ (calls i).run E b key) s₀ tr' (Function.update T i (ofExcept r)) t ∧
      t.objectLocks.cells = ∅ ∧ KeyState E b key ((Store.bucket E b).get t) H' ∧
      CallEffect E b key (calls i) ((Store.bucket E b).get s) H r ((Store.bucket E b).get t) H' := by
  have hwp : wp (fun _ ↦ True) ((calls i).run E b key) (fun r t ↦ t.objectLocks.cells = ∅ ∧
      ∃ H', KeyState E b key ((Store.bucket E b).get t) H' ∧
        CallEffect E b key (calls i) ((Store.bucket E b).get s) H r ((Store.bucket E b).get t) H')
      s := by
    rw [KeyCall.run_eq]
    refine wp_onObject hfree (fun _ _ _ ↦ trivial) (wp_mono (wp_body (calls i) h) (fun _ ↦ id) ?_)
    rintro r x - ⟨H', hkey, heff⟩ locks hl
    refine ⟨hl, H', ?_⟩
    rw [Lens.get_set]
    exact ⟨hkey, heff⟩
  obtain ⟨r, t, evs, hexec⟩ := exists_returns_of_wp hwp
  obtain ⟨hcells, H', hkey, heff⟩ := Returns.of_wp ⟨evs, hexec⟩ hwp
  exact ⟨r, t, _, H', hrun.trans (Run.of_exec (hi ▸ hexec)), hcells, hkey, heff⟩

end Calls

/-- A store with one bucket that is empty. -/
def emptyBucketStore : Store where
  root := (∅ : Table String BucketDir).set (Env.simple.bucketDirName "b") (some { name := some "b" })

/-- An object of one byte; its ETag is the character of the byte. -/
def oneByte (x : UInt8) : Object := .new .simple 0 ['k'] [x] "text/plain"

theorem dir_emptyBucketStore :
    ((Store.bucket .simple "b").get emptyBucketStore).dir = some { name := some "b" } := by
  show ((∅ : Table String BucketDir).set _ _)[Env.simple.bucketDirName "b"]? = _
  rw [Table.getElem?_set, if_pos rfl]

theorem keyState_emptyBucketStore :
    KeyState .simple "b" ['k'] ((Store.bucket .simple "b").get emptyBucketStore) {} := by
  have hobj : (objectIdDir .simple "b" ['k']).get ((Store.bucket .simple "b").get emptyBucketStore) =
      none := by
    rw [objectIdDir, BucketState.objectLens_get, dir_emptyBucketStore]
    exact Std.ExtTreeMap.getElem?_empty
  refine .present (by rw [dir_emptyBucketStore]; rfl) ?_ (fun _ _ h ↦ by cases h) fun _ ↦ rfl
  rw [hobj]
  exact settled_none.ready

/-- Two writers that both create the key if it is missing. -/
def creators : Bool → KeyCall
  | false => .putObjectIf (oneByte 97) .missing
  | true => .putObjectIf (oneByte 98) (.all [.missing, .missingOrEtagNotIn ["c"]])

/-- One of two creators wins. -/
theorem conditional_calls_atomic_creators :
    ∃ (tr : List (Bool × Event)) (res : Bool → Except Error (Option Bool)) (s : Store),
      Run (fun i ↦ (creators i).run .simple "b" ['k']) emptyBucketStore tr
        (fun i ↦ ofExcept (res i)) s ∧
      ∀ i j, res i = .ok (some true) → res j = .ok (some true) → i = j := by
  obtain ⟨r₁, s₁, tr₁, H₁, hrun₁, hfree₁, h₁, -⟩ :=
    Run.call creators .refl false rfl rfl keyState_emptyBucketStore
  obtain ⟨r₂, s₂, tr₂, H₂, hrun₂, -, -, -⟩ := Run.call _ hrun₁ true rfl hfree₁ h₁
  have hres : Function.update (Function.update (fun i ↦ (creators i).run .simple "b" ['k']) false
      (ofExcept r₁)) true (ofExcept r₂) = fun i ↦ ofExcept (bif i then r₂ else r₁) := by
    funext i
    cases i <;> rfl
  rw [hres] at hrun₂
  have hdemands : ∀ i, ∃ c, (creators i).condition = some c ∧ c.Demands none := by
    rintro (_ | _)
    · exact ⟨_, rfl, ObjectCondition.demands_missing⟩
    · exact ⟨_, rfl, ObjectCondition.demands_missing.all (List.mem_cons_self ..)⟩
  refine ⟨tr₂, _, s₂, hrun₂, fun i j hi hj ↦ ?_⟩
  obtain ⟨ci, hci, hdi⟩ := hdemands i
  obtain ⟨cj, hcj, hdj⟩ := hdemands j
  refine (conditional_calls_atomic (fun c hc ↦ ?_) keyState_emptyBucketStore hrun₂).2.2 none ?_ i j
    ci cj hci hdi hcj hdj hi hj
  · exact Std.ExtTreeMap.getElem?_empty
  · rintro (_ | _) <;> exact nofun

/-- A write of the demanded ETag between two writers that demand it. -/
def restoring : Fin 4 → KeyCall
  | 0 => .putObject (oneByte 97)
  | 1 => .putObjectIf (oneByte 98) (.etag "a")
  | 2 => .putObject (oneByte 97)
  | 3 => .putObjectIf (oneByte 98) (.etag "a")

theorem CallEffect.put_oneByte {s t : BucketState} {H H' : History}
    {r : Except Error (Option Bool)} {x : UInt8} (hdir : s.dir.isSome)
    (h : CallEffect .simple "b" ['k'] (.putObject (oneByte x)) s H r t H') :
    r = .ok none ∧ H'.etag = some (oneByte x).etag := by
  match r, h with
  | .ok (some false), ⟨_, _, _, hcond, _⟩ => cases hcond
  | .ok (some true), ⟨_, _, hcond, _⟩ => cases hcond
  | .ok none, ⟨hetag, _⟩ => exact ⟨rfl, hetag⟩
  | .error e, ⟨_, hposs⟩ => exact absurd ⟨hdir, _, rfl, rfl⟩ hposs

theorem CallEffect.putIf_oneByte {s t : BucketState} {H H' : History}
    {r : Except Error (Option Bool)} {x : UInt8} {e : String} (hdir : s.dir.isSome)
    (hH : H.etag = some e)
    (h : CallEffect .simple "b" ['k'] (.putObjectIf (oneByte x) (.etag e)) s H r t H') :
    r = .ok (some true) ∧ H'.etag = some (oneByte x).etag := by
  match r, h with
  | .ok (some false), ⟨_, _, c, hcond, hholds⟩ =>
    obtain rfl : ObjectCondition.etag e = c := Option.some.inj hcond
    obtain ⟨st, hst, rfl⟩ := Option.map_eq_some_iff.1 hH
    rw [hst] at hholds
    exact absurd hholds (by simp [ObjectCondition.holds])
  | .ok (some true), ⟨hetag, _⟩ => exact ⟨rfl, hetag⟩
  | .ok none, ⟨_, hcond⟩ => cases hcond
  | .error e, ⟨_, hposs⟩ => exact absurd ⟨hdir, _, rfl, rfl⟩ hposs

theorem KeyState.dir_of_etag {E : Env} {b : String} {key : Text} {s : BucketState} {H : History}
    {e : String} (h : KeyState E b key s H) (hetag : H.etag = some e) : s.dir.isSome := by
  cases h with
  | missing hdir => cases hetag
  | present hdir => exact hdir

/-- Two writers that demand the same ETag, and write another one, both return `true`. -/
theorem both_demanding_writers_succeed :
    ∃ (tr : List (Fin 4 × Event)) (res : Fin 4 → Except Error (Option Bool)) (s : Store),
      Run (fun i ↦ (restoring i).run .simple "b" ['k']) emptyBucketStore tr
        (fun i ↦ ofExcept (res i)) s ∧
      restoring 1 = .putObjectIf (oneByte 98) (.etag "a") ∧
      restoring 3 = .putObjectIf (oneByte 98) (.etag "a") ∧ (oneByte 98).etag ≠ "a" ∧
      res 1 = .ok (some true) ∧ res 3 = .ok (some true) := by
  have ha : (oneByte 97).etag = "a" := by decide
  have hdir : ((Store.bucket .simple "b").get emptyBucketStore).dir.isSome := by
    rw [dir_emptyBucketStore]
    rfl
  obtain ⟨r₀, s₀, tr₀, H₀, hrun₀, hfree₀, h₀, heff₀⟩ :=
    Run.call restoring .refl 0 rfl rfl keyState_emptyBucketStore
  obtain ⟨-, hetag₀⟩ := CallEffect.put_oneByte hdir heff₀
  rw [ha] at hetag₀
  obtain ⟨r₁, s₁, tr₁, H₁, hrun₁, hfree₁, h₁, heff₁⟩ := Run.call _ hrun₀ 1 rfl hfree₀ h₀
  obtain ⟨rfl, hetag₁⟩ := CallEffect.putIf_oneByte (h₀.dir_of_etag hetag₀) hetag₀ heff₁
  obtain ⟨r₂, s₂, tr₂, H₂, hrun₂, hfree₂, h₂, heff₂⟩ := Run.call _ hrun₁ 2 rfl hfree₁ h₁
  obtain ⟨-, hetag₂⟩ := CallEffect.put_oneByte (h₁.dir_of_etag hetag₁) heff₂
  rw [ha] at hetag₂
  obtain ⟨r₃, s₃, tr₃, H₃, hrun₃, -, -, heff₃⟩ := Run.call _ hrun₂ 3 rfl hfree₂ h₂
  obtain ⟨rfl, -⟩ := CallEffect.putIf_oneByte (h₂.dir_of_etag hetag₂) hetag₂ heff₃
  let res : Fin 4 → Except Error (Option Bool)
    | 0 => r₀
    | 1 => .ok (some true)
    | 2 => r₂
    | 3 => .ok (some true)
  refine ⟨tr₃, res, s₃, ?_, rfl, rfl, by decide, rfl, rfl⟩
  convert hrun₃ using 1
  funext i
  match i with
  | 0 => rfl
  | 1 => rfl
  | 2 => rfl
  | 3 => rfl

end Sqrzl
