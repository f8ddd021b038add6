import SqrzlEmulator.Gcs.Quiet

/-!
# What a request does to the objects

Every run of a handler, whichever of its calls fail, is described by an `Effect`: **at most one key
is changed, the one that the request is for.** The object under it is removed, or another one is
stored, whose generation follows that of the object before it. The retention policy of a bucket that
exists is changed by an update of this bucket only.

A change needs a permission (`permit`), which is a statement about the calls that have failed: a
retention check that says "not retained" has either looked at the object and its bucket, or one of
its reads has failed. The routes that check once are permitted by one failure, the uploads of the
JSON API check twice and need two.

What a handler does before and after its change is looking (`Looked`): the buckets stay as they are,
and nothing is logged but failures.
-/

namespace Sqrzl.Gcs

open Prog S3

/-! ### What is seen of a key -/

/-- The bytes of the current object, when they were written, and under which generation. -/
def shown (V : Vault) (b : String) (key : Text) : Option (Bytes × Time × String) :=
  (V.record b key).current.map fun st ↦ (st.1, st.2.lastModified, generation st.2)

/-- The generation that is seen of a key. -/
def shownGeneration (V : Vault) (b : String) (key : Text) : Option String :=
  (shown V b key).map fun seen ↦ seen.2.2

/-- The retention period of a bucket, as it is written. -/
def policy (V : Vault) (b : String) : Option (Option String) :=
  V.buckets[b]?.map (·.metadata["gcs_retention_seconds"]?)

/-- The generation of an event, if it is about a key. -/
def Event.storedAt (b : String) (key : Text) : Event → Option String
  | .failed _ => none
  | .stored b' key' g _ => if b' = b ∧ key' = key then some g else none

/-- The generations that have been stored under a key, the last one first. -/
def history (b : String) (key : Text) (log : List Event) : List String :=
  log.filterMap (Event.storedAt b key)

/-- The generation behind another one, at the time `now`. -/
def following (now : Time) (current : Option String) : String :=
  toString (max (saturatingSucc ((current.bind parseU64).getD 0)) (max (timestampMillis now) 1))

/-- How many reads of retention checks have failed. -/
def retentionFailures (l : List Event) : ℕ := l.count (.failed .retention)

theorem retentionFailures_append (l l' : List Event) :
    retentionFailures (l ++ l') = retentionFailures l + retentionFailures l' := List.count_append

/-! ### Effects -/

/-- What a request may change: a key, or the settings of a bucket. -/
structure Scope where
  key : Option (String × Text) := none
  /-- Whether an object may be stored under the key. -/
  stores : Bool := false
  update : Option (String × Json) := none

/-- What a request does to one key. -/
inductive KeyChange (now : Time) (permit : Prop) (scope : Scope) (l : List Event) (S T : System)
    (b : String) (key : Text) : Prop
  | kept (hshown : shown T.vault b key = shown S.vault b key)
      (hhistory : history b key T.log = history b key S.log)
  | removed (hscope : scope.key = some (b, key)) (hpermit : permit)
      (hshown : shown T.vault b key = none)
      (hhistory : history b key T.log = history b key S.log)
  | stored (hscope : scope.key = some (b, key)) (hstores : scope.stores = true) (hpermit : permit)
      (data : Bytes) (g : String)
      (hshown : shown T.vault b key = some (data, now, g))
      (hhistory : history b key T.log = g :: history b key S.log)
      (hnext : g = following now (shownGeneration S.vault b key) ∨ ∃ call, .failed call ∈ l)

/-- What a request does to the policy of one bucket, with the events `l`. An update that does not
find the metadata of the bucket starts from none. -/
inductive PolicyChange (scope : Scope) (l : List Event) (S T : System) (b : String) : Prop
  | kept (h : policy T.vault b = policy S.vault b)
  | created (h : S.vault.buckets[b]? = none)
  | deleted (h : T.vault.buckets[b]? = none)
  | updated (payload : Json) (hscope : scope.update = some (b, payload))
      (hvalid : validateRetentionPolicy payload = .ok ()) (B : Bucket)
      (hB : S.vault.buckets[b]? = some B)
      (h : policy T.vault b = some (withRetentionPolicy payload B.metadata)["gcs_retention_seconds"]?)
  | misread (payload : Json) (hscope : scope.update = some (b, payload)) (h : .failed .policy ∈ l)

/-- **What a request does** after the events `prior`. -/
def Effect (now : Time) (permit : List Event → Prop) (scope : Scope) (prior : List Event)
    (S T : System) : Prop :=
  ∃ l, T.log = l ++ S.log ∧
    (∀ b key, KeyChange now (permit (l ++ prior)) scope (l ++ prior) S T b key) ∧
    ∀ b, PolicyChange scope (l ++ prior) S T b

/-- The objects were looked at, and calls may have failed. -/
structure Looked (S T : System) (l : List Event) : Prop where
  buckets : T.vault.buckets = S.vault.buckets
  log : T.log = l ++ S.log
  failed : ∀ e ∈ l, ∃ call, e = .failed call

namespace Looked

variable {S T U : System} {l l' : List Event}

theorem refl (S : System) : Looked S S [] := ⟨rfl, rfl, nofun⟩

theorem trans (h : Looked S T l) (h' : Looked T U l') : Looked S U (l' ++ l) where
  buckets := h'.buckets.trans h.buckets
  log := by rw [h'.log, h.log, List.append_assoc]
  failed e he := (List.mem_append.1 he).elim (h'.failed e) (h.failed e)

theorem note (S : System) (call : Call) : Looked S (S.note (.failed call)) [.failed call] :=
  ⟨rfl, rfl, fun _ he ↦ ⟨call, List.mem_singleton.1 he⟩⟩

theorem record (h : Looked S T l) (b : String) (key : Text) :
    T.vault.record b key = S.vault.record b key := by
  rw [Vault.record, Vault.record, h.buckets]

theorem shown (h : Looked S T l) (b : String) (key : Text) :
    Gcs.shown T.vault b key = Gcs.shown S.vault b key := by
  rw [Gcs.shown, Gcs.shown, h.record]

theorem policy (h : Looked S T l) (b : String) :
    Gcs.policy T.vault b = Gcs.policy S.vault b := by
  rw [Gcs.policy, Gcs.policy, h.buckets]

theorem history (h : Looked S T l) (b : String) (key : Text) :
    Gcs.history b key T.log = Gcs.history b key S.log := by
  have hnone : l.filterMap (Event.storedAt b key) = [] := by
    rw [List.filterMap_eq_nil_iff]
    intro e he
    obtain ⟨call, rfl⟩ := h.failed e he
    rfl
  rw [Gcs.history, h.log, List.filterMap_append, hnone]
  rfl

end Looked

section Effects

variable {now : Time} {permit : List Event → Prop} {scope : Scope} {prior : List Event}
  {S T U : System} {l : List Event}

theorem Effect.of_looked (h : Looked S T l) : Effect now permit scope prior S T :=
  ⟨l, h.log, fun b key ↦ .kept (h.shown b key) (h.history b key), fun b ↦ .kept (h.policy b)⟩

/-- Looking before a change. -/
theorem Effect.after_looked (h : Looked S T l) (heffect : Effect now permit scope (l ++ prior) T U) :
    Effect now permit scope prior S U := by
  obtain ⟨l', hlog, hkeys, hbuckets⟩ := heffect
  refine ⟨l' ++ l, by rw [hlog, h.log, List.append_assoc], fun b key ↦ ?_, fun b ↦ ?_⟩ <;>
    rw [List.append_assoc]
  · cases hkeys b key with
    | kept hshown hhistory =>
      exact .kept (hshown.trans (h.shown b key)) (hhistory.trans (h.history b key))
    | removed hscope hp hshown hhistory =>
      exact .removed hscope hp hshown (hhistory.trans (h.history b key))
    | stored hscope hstores hp data g hshown hhistory hnext =>
      refine .stored hscope hstores hp data g hshown ?_ ?_
      · rw [hhistory, h.history b key]
      · rw [shownGeneration, ← h.shown b key]
        exact hnext
  · cases hbuckets b with
    | kept hpolicy => exact .kept (hpolicy.trans (h.policy b))
    | created hnone => exact .created (h.buckets ▸ hnone)
    | deleted hnone => exact .deleted hnone
    | updated payload hscope hvalid B hB hpolicy =>
      exact .updated payload hscope hvalid B (h.buckets ▸ hB) hpolicy
    | misread payload hscope hmissing => exact .misread payload hscope hmissing

/-- Looking after a change. -/
theorem Effect.then_looked (hpermit : ∀ l l', permit l' → permit (l ++ l'))
    (heffect : Effect now permit scope prior S T) (h : Looked T U l) :
    Effect now permit scope prior S U := by
  obtain ⟨l', hlog, hkeys, hbuckets⟩ := heffect
  refine ⟨l ++ l', by rw [h.log, hlog, List.append_assoc], fun b key ↦ ?_, fun b ↦ ?_⟩ <;>
    rw [List.append_assoc]
  · cases hkeys b key with
    | kept hshown hhistory =>
      exact .kept ((h.shown b key).trans hshown) ((h.history b key).trans hhistory)
    | removed hscope hp hshown hhistory =>
      exact .removed hscope (hpermit l _ hp) ((h.shown b key).trans hshown)
        ((h.history b key).trans hhistory)
    | stored hscope hstores hp data g hshown hhistory hnext =>
      refine .stored hscope hstores (hpermit l _ hp) data g ((h.shown b key).trans hshown)
        ((h.history b key).trans hhistory) ?_
      exact hnext.imp_right fun ⟨call, hcall⟩ ↦ ⟨call, List.mem_append_right _ hcall⟩
  · cases hbuckets b with
    | kept hpolicy => exact .kept ((h.policy b).trans hpolicy)
    | created hnone => exact .created hnone
    | deleted hnone => exact .deleted (h.buckets ▸ hnone)
    | updated payload hscope hvalid B hB hpolicy =>
      exact .updated payload hscope hvalid B hB ((h.policy b).trans hpolicy)
    | misread payload hscope hmissing =>
      exact .misread payload hscope (List.mem_append_right _ hmissing)

end Effects

/-! ### Handlers -/

section Handlers

variable {α β : Type} {now : Time} {permit : List Event → Prop} {scope : Scope}
  {prior : List Event} {S : System}

/-- A handler that looks at the objects, with what is known of its result. -/
def Looks (p : Handler α) (S : System) (Q : Except Error α → System → List Event → Prop) : Prop :=
  wp (fun _ ↦ True) p (fun r T ↦ ∃ l, Looked S T l ∧ Q r T l) S

/-- A handler with an effect. -/
def Does (now : Time) (permit : List Event → Prop) (scope : Scope) (prior : List Event)
    (p : Handler α) (S : System) : Prop :=
  wp (fun _ ↦ True) p (fun _ T ↦ Effect now permit scope prior S T) S

variable {p : Handler α} {f : α → Handler β} {Q Q' : Except Error α → System → List Event → Prop}
  {R : Except Error β → System → List Event → Prop}

theorem Looks.mono (h : Looks p S Q) (hQ : ∀ r T l, Q r T l → Q' r T l) : Looks p S Q' :=
  wp_mono h (fun _ ↦ id) fun r T _ ⟨l, hl, hq⟩ ↦ ⟨l, hl, hQ r T l hq⟩

theorem looks_ret {a : α} (h : Q (.ok a) S []) : Looks (ret a) S Q := ⟨trivial, [], .refl S, h⟩

theorem looks_fail {e : Error} (h : Q (.error e) S []) : Looks (fail e) S Q :=
  ⟨trivial, [], .refl S, h⟩

/-- **Looking twice.** -/
theorem Looks.bind (h : Looks p S Q) (herror : ∀ e T l, Q (.error e) T l → R (.error e) T l)
    (hok : ∀ a T l, Looked S T l → Q (.ok a) T l → Looks (f a) T fun r U l' ↦ R r U (l' ++ l)) :
    Looks (p.bind f) S R := by
  rw [Looks, wp_bind]
  refine wp_mono h (fun _ ↦ id) fun r T _ ⟨l, hl, hq⟩ ↦ ?_
  cases r with
  | error e => exact ⟨l, hl, herror e T l hq⟩
  | ok a =>
    exact wp_mono (hok a T l hl hq) (fun _ ↦ id) fun r U _ ⟨l', hl', hr⟩ ↦ ⟨_, hl.trans hl', hr⟩

theorem Looks.attempt (h : Looks p S Q) :
    Looks p.attempt S fun r T l ↦ ∃ x, r = .ok x ∧ Q x T l := by
  rw [Looks, wp_attempt]
  exact wp_mono h (fun _ ↦ id) fun r _ _ ⟨l, hl, hq⟩ ↦ ⟨l, hl, r, rfl, hq⟩

/-- Looking twice, where a failure is taken as a value. -/
theorem Looks.attempt_bind {f : Except Error α → Handler β} (h : Looks p S Q)
    (hf : ∀ r T l, Looked S T l → Q r T l → Looks (f r) T fun r U l' ↦ R r U (l' ++ l)) :
    Looks (p.attempt.bind f) S R := by
  refine h.attempt.bind ?_ ?_
  · rintro e T l ⟨x, ⟨⟩, -⟩
  · rintro a T l hl ⟨x, ⟨⟩, hq⟩
    exact hf a T l hl hq

theorem Looks.does (h : Looks p S Q) : Does now permit scope prior p S :=
  wp_mono h (fun _ ↦ id) fun _ _ _ ⟨_, hl, _⟩ ↦ .of_looked hl

/-- **Looking, and then something with an effect.** -/
theorem Looks.then_does (h : Looks p S Q)
    (hok : ∀ a T l, Looked S T l → Q (.ok a) T l → Does now permit scope (l ++ prior) (f a) T) :
    Does now permit scope prior (p.bind f) S := by
  rw [Does, wp_bind]
  refine wp_mono h (fun _ ↦ id) fun r T _ ⟨l, hl, hq⟩ ↦ ?_
  cases r with
  | error e => exact .of_looked hl
  | ok a => exact wp_mono (hok a T l hl hq) (fun _ ↦ id) fun r U _ hU ↦ .after_looked hl hU

/-- The same, where a failure is taken as a value. -/
theorem Looks.attempt_then_does {f : Except Error α → Handler β} (h : Looks p S Q)
    (hf : ∀ r T l, Looked S T l → Q r T l → Does now permit scope (l ++ prior) (f r) T) :
    Does now permit scope prior (p.attempt.bind f) S := by
  refine h.attempt.then_does ?_
  rintro a T l hl ⟨x, ⟨⟩, hq⟩
  exact hf a T l hl hq

/-- **Something with an effect, and then looking.** -/
theorem Does.then_looks (hpermit : ∀ l l', permit l' → permit (l ++ l'))
    (h : Does now permit scope prior p S) (hok : ∀ a T, Looks (f a) T fun _ _ _ ↦ True) :
    Does now permit scope prior (p.bind f) S := by
  rw [Does, wp_bind]
  refine wp_mono h (fun _ ↦ id) fun r T _ hT ↦ ?_
  cases r with
  | error e => exact hT
  | ok a => exact wp_mono (hok a T) (fun _ ↦ id) fun r U _ ⟨l, hl, _⟩ ↦ hT.then_looked hpermit hl

theorem Does.attempt (h : Does now permit scope prior p S) :
    Does now permit scope prior p.attempt S := by
  rw [Does, wp_attempt]
  exact h

theorem does_ret {a : α} : Does now permit scope prior (ret a) S :=
  (looks_ret (Q := fun _ _ _ ↦ True) trivial).does

theorem does_fail {e : Error} : Does now permit scope prior (fail e : Handler α) S :=
  (looks_fail (Q := fun _ _ _ ↦ True) trivial).does

/-! ### Calls that look -/

/-- **A read answers, or it has failed.** -/
theorem looks_query {call : Call} {m : VaultOp α} :
    Looks (query call m) S fun r T l ↦ T.cache = S.cache ∧ T.sessions = S.sessions ∧
      ((r = (m S.vault).1 ∧ l = []) ∨ ((∃ e, r = .error e) ∧ l = [.failed call])) :=
  wp_query.2 ⟨trivial, ⟨[], .refl S, rfl, rfl, .inl ⟨rfl, rfl⟩⟩, trivial, fun e _ ↦
    ⟨_, .note S call, rfl, rfl, .inr ⟨⟨e, rfl⟩, rfl⟩⟩⟩

theorem looks_lookup {g : System → α} :
    Looks (lookup g) S fun r T l ↦ T.cache = S.cache ∧ T.sessions = S.sessions ∧
      ((r = .ok (g S) ∧ l = []) ∨ r = .error ioError) := by
  rw [Looks, lookup, wp_choose]
  intro n
  split
  · rw [wp_read]
    exact ⟨trivial, [], .refl S, rfl, rfl, .inl ⟨rfl, rfl⟩⟩
  · exact wp_failing.2 ⟨trivial, trivial, _, .note S .other, rfl, rfl, .inr rfl⟩

/-- The records of uploads are not the objects. -/
theorem looks_modify {f : System → System} (hbuckets : (f S).vault.buckets = S.vault.buckets)
    (hlog : (f S).log = S.log) :
    Looks (modify f) S fun r T l ↦ r = .ok () ∧ T = f S ∧ l = [] :=
  wp_modify.2 ⟨trivial, trivial, [], ⟨hbuckets, hlog, nofun⟩, rfl, rfl, rfl⟩

theorem looks_record {f : System → System} (hbuckets : (f S).vault.buckets = S.vault.buckets)
    (hlog : (f S).log = S.log) :
    Looks (Gcs.record f) S fun r T _ ↦ r = .ok () → T = f S := by
  have hlooked : Looked S (f S) [] := ⟨hbuckets, hlog, nofun⟩
  exact wp_mutation.2 ⟨trivial, trivial, ⟨[], hlooked, fun _ ↦ rfl⟩, trivial,
    ⟨_, .note S .other, nofun⟩, trivial, _, hlooked.trans (.note (f S) .other), nofun⟩

end Handlers

/-! ### Calls that change a key -/

/-- Everything but one key is as it was. -/
structure Touched (b : String) (key : Text) (V V' : Vault) : Prop where
  record : ∀ b' key', ¬ (b' = b ∧ key' = key) → V'.record b' key' = V.record b' key'
  policy : ∀ b', policy V' b' = policy V b'

section Vaults

variable {E : Env} {V V' : Vault} {b : String} {key : Text} {B : Bucket} {e : KeyRecord} {n : ℕ}
  {o : Object} {data : Bytes} {now : Time}

theorem Touched.refl (b : String) (key : Text) (V : Vault) : Touched b key V V :=
  ⟨fun _ _ _ ↦ rfl, fun _ ↦ rfl⟩

theorem touched_setRecord (hB : V.buckets[b]? = some B) :
    Touched b key V ((V.setRecord b key e).draw n) := by
  constructor
  · intro b' key' hne
    rw [Vault.record_draw, Vault.record_setRecord hB, if_neg hne]
  · intro b'
    show ((V.buckets.set b (V.buckets[b]?.map (·.setRecord key e)))[b']?).map _ = _
    rw [Table.getElem?_set]
    split
    · next hb =>
      subst hb
      rw [Option.map_map]
      rfl
    · rfl

/-- Whether a condition holds of the current object, if there is a condition. -/
def Meets (V : Vault) (b : String) (key : Text) (condition : Option ObjectCondition) : Prop :=
  ∀ c, condition = some c → c.holds (V.record b key).metadata = true

/-- A change of one key under a condition, which is made, so that `seen` is seen of it, or not. -/
structure Changes {α : Type} (done : α) (b : String) (key : Text) (V : Vault)
    (condition : Option ObjectCondition) (seen : Option (Bytes × Time × String))
    (outcome : Except Error α × Vault) : Prop where
  touched : Touched b key V outcome.2
  result : (outcome.1 ≠ .ok done ∧ shown outcome.2 b key = shown V b key) ∨
    (outcome.1 = .ok done ∧ Meets V b key condition ∧ shown outcome.2 b key = seen)

/-- **A write that fails keeps the current object; one that succeeds replaces it.** -/
theorem changes_putObject (E : Env) (b : String) (key : Text) (o : Object) (data : Bytes) (V : Vault) :
    Changes () b key V none (some (data, o.lastModified, generation o))
      (Vault.putObject E b key o data V) := by
  unfold Vault.putObject
  cases hB : V.buckets[b]? with
  | none => exact ⟨.refl b key V, .inl ⟨nofun, rfl⟩⟩
  | some B =>
    dsimp only
    split
    · refine ⟨touched_setRecord hB, .inl ⟨nofun, ?_⟩⟩
      rw [shown, Vault.record_draw, Vault.record_setRecord hB, if_pos ⟨rfl, rfl⟩, shown,
        Vault.record_eq hB]
      have hkept : ((B.record key).snapshot B.versioning).current = (B.record key).current := by
        unfold KeyRecord.snapshot
        split
        · split
          · rfl
          · rfl
        · rfl
      rw [hkept]
    · refine ⟨touched_setRecord hB, .inr ⟨rfl, nofun, ?_⟩⟩
      rw [shown, Vault.record_draw, Vault.record_setRecord hB, if_pos ⟨rfl, rfl⟩]
      rfl

/-- **A deletion that fails keeps the current object; one that succeeds leaves none.** -/
theorem changes_deleteObject (E : Env) (now : Time) (b : String) (key : Text) (V : Vault) :
    Changes () b key V none none (Vault.deleteObject E now b key V) := by
  unfold Vault.deleteObject
  cases hB : V.buckets[b]? with
  | none =>
    have hempty : (V.record b key).current.isNone = true := by
      rw [Vault.record, hB]
      rfl
    dsimp only [Option.bind_none]
    rw [if_pos hempty]
    exact ⟨.refl b key V, .inl ⟨(fun h ↦ by cases h), rfl⟩⟩
  | some B =>
    dsimp only [Option.bind_some]
    cases hv : B.versioning with
    | none =>
      dsimp only
      split
      · exact ⟨.refl b key V, .inl ⟨(fun h ↦ by cases h), rfl⟩⟩
      · refine ⟨touched_setRecord (n := V.drawn) hB, .inr ⟨rfl, (fun _ h ↦ by cases h), ?_⟩⟩
        rw [shown, Vault.record_setRecord hB, if_pos ⟨rfl, rfl⟩]
        rfl
    | some v =>
      refine ⟨touched_setRecord hB, .inr ⟨rfl, (fun _ h ↦ by cases h), ?_⟩⟩
      rw [shown, Vault.record_draw, Vault.record_setRecord hB, if_pos ⟨rfl, rfl⟩]
      rfl

variable {m : VaultOp Unit} {seen : Option (Bytes × Time × String)}

/-- A change under a condition. -/
theorem changes_mutateIf {c : ObjectCondition} (hm : Changes () b key V none seen (m V)) :
    Changes true b key V (some c) seen (Vault.mutateIf b key c m V) := by
  cases hc : c.holds (V.record b key).metadata with
  | false =>
    rw [mutateIf_of_not_holds hc]
    exact ⟨.refl b key V, .inl ⟨(fun h ↦ by cases h), rfl⟩⟩
  | true =>
    have hmeets : Meets V b key (some c) := by
      rintro _ ⟨⟩
      exact hc
    simp only [Vault.mutateIf, Atomic.view_bind, hc, if_true]
    rcases hr : m V with ⟨e | u, V'⟩
    · rw [Atomic.bind_of_error hr]
      rw [hr] at hm
      refine ⟨hm.touched, hm.result.imp (fun h ↦ ⟨(fun h ↦ by cases h), h.2⟩) fun h ↦ by cases h.1⟩
    · rw [Atomic.bind_of_ok hr]
      rw [hr] at hm
      refine ⟨hm.touched, hm.result.elim (fun h ↦ absurd rfl h.1) fun h ↦ .inr ⟨rfl, hmeets, h.2.2⟩⟩

/-- A change without a condition. -/
theorem changes_always (hm : Changes () b key V none seen (m V)) :
    Changes true b key V none seen ((do m; return true : VaultOp Bool) V) := by
  rcases hr : m V with ⟨e | u, V'⟩
  · rw [Atomic.bind_of_error hr]
    rw [hr] at hm
    refine ⟨hm.touched, hm.result.imp (fun h ↦ ⟨nofun, h.2⟩) fun h ↦ nomatch h.1⟩
  · rw [Atomic.bind_of_ok hr]
    rw [hr] at hm
    refine ⟨hm.touched, hm.result.elim (fun h ↦ absurd rfl h.1) fun h ↦ .inr ⟨rfl, nofun, h.2.2⟩⟩

end Vaults

section Changes

variable {α : Type} {E : Env} {now : Time} {permit : List Event → Prop} {prior l : List Event}
  {S T : System} {b : String} {key : Text} {o : Object} {data : Bytes}
  {condition : Option ObjectCondition} {session : Option String} {scope : Scope}

theorem Event.storedAt_of_ne {b' : String} {key' : Text} {g : String}
    (h : ¬ (b' = b ∧ key' = key)) : Event.storedAt b' key' (.stored b key g session) = none :=
  if_neg fun ⟨hb, hkey⟩ ↦ h ⟨hb.symm, hkey.symm⟩

/-- What is done to one key, and nothing else. -/
theorem Effect.of_touched (htouched : Touched b key S.vault T.vault) (hlog : T.log = l ++ S.log)
    (hothers : ∀ b' key', ¬ (b' = b ∧ key' = key) → history b' key' T.log = history b' key' S.log)
    (hkey : KeyChange now (permit (l ++ prior)) scope (l ++ prior) S T b key) :
    Effect now permit scope prior S T := by
  refine ⟨l, hlog, fun b' key' ↦ ?_, fun b' ↦ .kept (htouched.policy b')⟩
  by_cases hsame : b' = b ∧ key' = key
  · obtain ⟨rfl, rfl⟩ := hsame
    exact hkey
  · refine .kept ?_ (hothers b' key' hsame)
    rw [shown, htouched.record b' key' hsame, shown]

/-- A call that changes the system changes it once, whether it fails or not. -/
theorem does_mutation {f : System → System} {g : System → Except Error α}
    (hpermit : ∀ l l', permit l' → permit (l ++ l')) (h : Effect now permit scope prior S (f S)) :
    Does now permit scope prior (mutation f g) S :=
  wp_mutation.2 ⟨trivial, trivial, h, trivial, .of_looked (.note S .other), trivial,
    h.then_looked hpermit (.note (f S) .other)⟩

theorem effect_write (data : Bytes) {outcome : Except Error Bool × Vault}
    (hmono : ∀ l l', permit l' → permit (l ++ l'))
    (hpermit : Meets S.vault b key condition → permit prior) (htime : o.lastModified = now)
    (hnext : generation o = following now (shownGeneration S.vault b key) ∨
      ∃ call, .failed call ∈ prior)
    (h : Changes true b key S.vault condition (some (data, o.lastModified, generation o)) outcome) :
    Effect now permit { key := some (b, key), stores := true } prior S (S.after (fun written ↦
      if written then [.stored b key (generation o) session] else []) outcome) := by
  obtain ⟨r, V⟩ := outcome
  rcases h.result with ⟨hnot, hshown⟩ | ⟨rfl, hmeets, hshown⟩
  · have hlog : (S.after (fun written ↦ if written then
        [Event.stored b key (generation o) session] else []) (r, V)).log = [] ++ S.log := by
      rcases r with e | written
      · rfl
      · cases written with
        | false => rfl
        | true => exact absurd rfl hnot
    exact .of_touched h.touched hlog (fun _ _ _ ↦ by rw [hlog]; rfl)
      (.kept hshown (by rw [hlog]; rfl))
  · refine .of_touched (l := [Event.stored b key (generation o) session]) h.touched rfl
      (fun b' key' hne ↦ List.filterMap_cons_none (Event.storedAt_of_ne hne))
      (.stored rfl rfl (hmono _ _ (hpermit hmeets)) data (generation o) (htime ▸ hshown)
        (List.filterMap_cons_some (if_pos ⟨rfl, rfl⟩)) ?_)
    exact hnext.imp_right fun ⟨call, hcall⟩ ↦ ⟨call, List.mem_append_right _ hcall⟩

/-- **What a write does.** -/
theorem does_storeObject (hmono : ∀ l l', permit l' → permit (l ++ l'))
    (hpermit : Meets S.vault b key condition → permit prior) (htime : o.lastModified = now)
    (hnext : generation o = following now (shownGeneration S.vault b key) ∨
      ∃ call, .failed call ∈ prior) :
    Does now permit { key := some (b, key), stores := true } prior
      (storeObject E b key o data condition session) S := by
  refine does_mutation hmono (effect_write data hmono hpermit htime hnext ?_)
  cases condition with
  | none => exact changes_always (changes_putObject E b key o data S.vault)
  | some c => exact changes_mutateIf (changes_putObject E b key o data S.vault)

theorem effect_removal {outcome : Except Error Bool × Vault} (hscope : scope.key = some (b, key))
    (hmono : ∀ l l', permit l' → permit (l ++ l'))
    (hpermit : Meets S.vault b key condition → permit prior)
    (h : Changes true b key S.vault condition none outcome) :
    Effect now permit scope prior S (S.after (fun _ ↦ []) outcome) := by
  obtain ⟨r, V⟩ := outcome
  have hlog : (S.after (fun _ ↦ []) (r, V)).log = [] ++ S.log := by
    cases r with
    | error e => rfl
    | ok a => rfl
  rcases h.result with ⟨-, hshown⟩ | ⟨-, hmeets, hshown⟩
  · exact .of_touched h.touched hlog (fun _ _ _ ↦ by rw [hlog]; rfl)
      (.kept hshown (by rw [hlog]; rfl))
  · exact .of_touched h.touched hlog (fun _ _ _ ↦ by rw [hlog]; rfl)
      (.removed hscope (hmono _ _ (hpermit hmeets)) hshown (by rw [hlog]; rfl))

/-- **What a deletion does.** -/
theorem does_removeObject (hscope : scope.key = some (b, key))
    (hmono : ∀ l l', permit l' → permit (l ++ l'))
    (hpermit : Meets S.vault b key condition → permit prior) :
    Does now permit scope prior (removeObject E now b key condition) S := by
  refine does_mutation hmono (effect_removal hscope hmono hpermit ?_)
  cases condition with
  | none => exact changes_always (changes_deleteObject E now b key S.vault)
  | some c => exact changes_mutateIf (changes_deleteObject E now b key S.vault)

end Changes

end Sqrzl.Gcs
