import SqrzlEmulator.Data.Deadlines
import SqrzlEmulator.Lifecycle.Deletion

/-!
# Expiring current objects

A pass applies one rule after the other, and each rule lists the bucket once. The listing is a page:
**an object that is not among the first thousand current objects is not looked at**, however long
it has been due. Besides, a delete that fails is not repeated, and an object whose tags cannot be read
counts as one without tags.

## The argument

* An object that is current when the pass begins is `Still` current until a rule that removes it finds
  it on its page, and the key is `Away` from then on (`applyRule_of_still`, `away_applyRule`).
* What is on the page of a rule is decided by the number of current objects before it
  (`mem_listObjects_iff`). So the keys that are current are worked off in `Rounds`, one for each rule
  (`rounds_after`).
* The pass is complete exactly if the objects that are due can be given deadlines (`served_iff`).
-/

namespace Sqrzl

namespace Lifecycle

open Prog KeyRecord

variable {E : Env} {C : S3.Codec} {parseDate : String → Option Time} {now : Time}
  {clock : Text → Time} {b : String} {key : Text} {data : Bytes} {o x : Object} {V V' : Vault}
  {B : Bucket} {rule : Rule} {rules : List Rule} {F : Ignored} {D : ℕ → Prop}

/-! ### What is due -/

/-- An enabled rule expires the object. -/
def Due (parseDate : String → Option Time) (now : Time) (rules : List Rule) (o : Object) : Prop :=
  ∃ rule ∈ rules, rule.status = .enabled ∧ expires parseDate now rule o.tags o = true

instance : Decidable (Due parseDate now rules o) :=
  inferInstanceAs (Decidable (∃ rule ∈ rules, rule.status = .enabled ∧ _))

/-- The object is due, and not protected. -/
def Overdue (C : S3.Codec) (parseDate : String → Option Time) (now : Time) (rules : List Rule)
    (o : Object) : Prop :=
  Due parseDate now rules o ∧ objectHasActiveDataProtection C now o = false

instance : Decidable (Overdue C parseDate now rules o) := inferInstanceAs (Decidable (_ ∧ _))

/-- The tags as a rule reads them. -/
def Ignored.tagsOf (F : Ignored) (o : Object) : Table String String :=
  if F.tags o.key then ∅ else o.tags

/-- The rule removes the object when it finds it on its page. -/
def Removes (C : S3.Codec) (parseDate : String → Option Time) (now : Time) (F : Ignored)
    (rule : Rule) (o : Object) : Prop :=
  rule.status = .enabled ∧ expires parseDate now rule (F.tagsOf o) o = true ∧
    objectHasActiveDataProtection C now o = false ∧ F.delete o.key = false

instance : Decidable (Removes C parseDate now F rule o) := inferInstanceAs (Decidable (_ ∧ _))

/-- A filter that matches an object without tags matches it with any tags. -/
theorem ruleMatchesFilter_of_empty {tags : Table String String}
    (h : ruleMatchesFilter rule key ∅ = true) : ruleMatchesFilter rule key tags = true := by
  rw [ruleMatchesFilter, Option.all_eq_true] at h ⊢
  intro f hf
  have hmatch := h f hf
  rw [Filter.matches, Bool.and_eq_true] at hmatch ⊢
  refine ⟨hmatch.1, List.all_eq_true.2 fun tag htag ↦ ?_⟩
  have hnone := List.all_eq_true.1 hmatch.2 tag htag
  simp at hnone

/-- What a rule removes is due and not protected. -/
theorem Removes.overdue (h : Removes C parseDate now F rule o) (hrule : rule ∈ rules) :
    Overdue C parseDate now rules o := by
  obtain ⟨henabled, hexpires, hfree, -⟩ := h
  refine ⟨⟨rule, hrule, henabled, ?_⟩, hfree⟩
  rw [expires, Bool.and_eq_true] at hexpires ⊢
  refine ⟨?_, hexpires.2⟩
  have hmatch := hexpires.1
  unfold Ignored.tagsOf at hmatch
  split at hmatch
  · exact ruleMatchesFilter_of_empty hmatch
  · exact hmatch

/-! ### One object -/

theorem deleteObject_atKey (t : Time) (key : Text) (hB : V.buckets[b]? = some B) :
    AtKey b key V (Vault.deleteObject E t b key V).2 := by
  unfold Vault.deleteObject
  split
  · split
    · exact .refl
    · exact setRecord_atKey hB {}
  · have hset := @setRecord_atKey b key V B hB
    exact ⟨⟨(hset _).bucket, (hset _).other⟩, (hset _).record⟩

/-- The record of a key whose current object is deleted. -/
theorem record_deleteObject (t : Time) (hB : V.buckets[b]? = some B)
    (hcurrent : (V.record b key).current ≠ none) :
    (Vault.deleteObject E t b key V).2.record b key = {} ∨
    ∃ v id, validVersionId id = true ∧ (Vault.deleteObject E t b key V).2.record b key =
      (V.record b key).delete v id (deleteMarker E t key id) := by
  unfold Vault.deleteObject
  split
  · rw [if_neg (by simpa using hcurrent)]
    exact .inl (by rw [Vault.record_setRecord hB, if_pos ⟨rfl, rfl⟩])
  · next v _ =>
    refine .inr ⟨v, if v = .suspended then "null" else E.uuid V.drawn, ?_, ?_⟩
    · split
      · decide
      · exact E.uuid_valid _
    · rw [Vault.record_draw, Vault.record_setRecord hB, if_pos ⟨rfl, rfl⟩]

theorem updateObjectStorageClass_spec (key : Text) (c : String) (hB : V.buckets[b]? = some B) :
    AtKey b key V (updateObjectStorageClass b key c V) ∧
    ((updateObjectStorageClass b key c V).record b key = V.record b key ∨
      (updateObjectStorageClass b key c V).record b key = (V.record b key).moveTo c) := by
  unfold updateObjectStorageClass
  split
  · exact ⟨.refl, .inl rfl⟩
  · next data x hx =>
    refine ⟨setRecord_atKey hB _, .inr ?_⟩
    rw [Vault.record_setRecord hB, if_pos ⟨rfl, rfl⟩, moveTo, hx]
    rfl

theorem applyTransition_spec (F : Ignored) (rule : Rule) (x : Object) (hB : V.buckets[b]? = some B) :
    AtKey b x.key V (applyTransition parseDate now F b rule x V) ∧
    ((applyTransition parseDate now F b rule x V).record b x.key = V.record b x.key ∨
      ∃ c, (applyTransition parseDate now F b rule x V).record b x.key =
        (V.record b x.key).moveTo c) := by
  unfold applyTransition
  split
  · exact ⟨.refl, .inl rfl⟩
  · dsimp only
    split
    · exact ⟨.refl, .inl rfl⟩
    · split
      · exact ⟨.refl, .inl rfl⟩
      · obtain ⟨hat, hrecord⟩ := updateObjectStorageClass_spec x.key _ hB
        exact ⟨hat, hrecord.imp_right fun h ↦ ⟨_, h⟩⟩

theorem applyToObject_atKey (V : Vault) (B : Bucket) (x : Object) (hB : V.buckets[b]? = some B) :
    AtKey b x.key V (applyToObject E C parseDate now clock F b rule V x) := by
  unfold applyToObject
  dsimp only
  generalize (if F.tags x.key then ∅ else objectTags (V.record b x.key)) = tags
  split
  · exact .refl
  · split
    · split
      · exact .refl
      · split
        · exact .refl
        · exact deleteObject_atKey _ _ hB
    · exact (applyTransition_spec F rule x hB).1

/-- A record after a delete of its current object. -/
def DeletedTo (E : Env) (t : Time) (key : Text) (e e' : KeyRecord) : Prop :=
  e' = {} ∨ ∃ v id, validVersionId id = true ∧ e' = e.delete v id (deleteMarker E t key id)

/-- A record that has stayed the same, up to the storage class of its current object. -/
def KeptAs (e e' : KeyRecord) : Prop := e' = e ∨ ∃ c, e' = e.moveTo c

/-- **What the body of the loop does to its key.** -/
theorem record_applyToObject (henabled : rule.status = .enabled) (hB : V.buckets[b]? = some B)
    (hx : (V.record b x.key).metadata = some x) :
    (Removes C parseDate now F rule x ∧ DeletedTo E (clock x.key) x.key (V.record b x.key)
      ((applyToObject E C parseDate now clock F b rule V x).record b x.key)) ∨
    (¬ Removes C parseDate now F rule x ∧ KeptAs (V.record b x.key)
      ((applyToObject E C parseDate now clock F b rule V x).record b x.key)) := by
  have htags : (if F.tags x.key then ∅ else objectTags (V.record b x.key)) = F.tagsOf x := by
    rw [objectTags, hx]
    rfl
  unfold applyToObject Removes expires
  dsimp only
  rw [htags]
  by_cases hmatch : ruleMatchesFilter rule x.key (F.tagsOf x) = true
  · rw [hmatch, Bool.not_true, if_neg Bool.false_ne_true, Bool.true_and]
    by_cases hexpired : rule.expiration.any (shouldExpire parseDate now x.lastModified) = true
    · rw [if_pos hexpired]
      by_cases hprotected : objectHasActiveDataProtection C now x = true
      · rw [if_pos hprotected]
        exact .inr ⟨fun h ↦ by simp [hprotected] at h, .inl rfl⟩
      · rw [if_neg hprotected]
        by_cases hfails : F.delete x.key = true
        · rw [if_pos hfails]
          exact .inr ⟨fun h ↦ by simp [hfails] at h, .inl rfl⟩
        · rw [if_neg hfails]
          refine .inl ⟨⟨henabled, hexpired, by simpa using hprotected, by simpa using hfails⟩,
            record_deleteObject _ hB ?_⟩
          intro hnone
          rw [metadata, hnone] at hx
          cases hx
    · rw [if_neg hexpired]
      exact .inr ⟨fun h ↦ hexpired h.2.1, (applyTransition_spec F rule x hB).2⟩
  · simp only [Bool.not_eq_true] at hmatch
    rw [hmatch, Bool.not_false, if_pos rfl]
    exact .inr ⟨by simp, .inl rfl⟩

/-! ### One rule -/

/-- Every version of the bucket is filed under its key and its identity. -/
def KeyedIn (b : String) (V : Vault) : Prop := ∀ key, (V.record b key).Keyed key

theorem mem_current (hkeyed : KeyedIn b V) (hB : V.buckets[b]? = some B) :
    x ∈ B.current ↔ (V.record b x.key).metadata = some x := by
  have hrecord : ∀ key, V.record b key = B.objects[key]?.getD {} := fun key ↦ Vault.record_eq hB
  rw [Bucket.current, List.mem_filterMap]
  constructor
  · rintro ⟨⟨key', e⟩, hentry, hx⟩
    have he := Std.ExtTreeMap.mem_toList_iff_getElem?_eq_some.1 hentry
    have hrec : V.record b key' = e := by rw [hrecord, he, Option.getD_some]
    obtain ⟨⟨data, y⟩, hcurrent, rfl⟩ := Option.map_eq_some_iff.1 hx
    rw [((hkeyed key').current data y (by rw [hrec, hcurrent])).1, hrec]
    exact hx
  · intro hx
    cases he : B.objects[x.key]? with
    | none =>
      rw [hrecord, he] at hx
      cases hx
    | some e =>
      rw [hrecord, he] at hx
      exact ⟨(x.key, e), Std.ExtTreeMap.mem_toList_iff_getElem?_eq_some.2 he, hx⟩

/-- The current objects come in the order of their keys. -/
theorem pairwise_current (hkeyed : KeyedIn b V) (hB : V.buckets[b]? = some B) :
    B.current.Pairwise fun x y ↦ x.key < y.key := by
  have hkey : ∀ entry ∈ B.objects.toList, ∀ x, entry.2.metadata = some x → x.key = entry.1 := by
    rintro ⟨key', e⟩ hentry x hx
    have he := Std.ExtTreeMap.mem_toList_iff_getElem?_eq_some.1 hentry
    have hrec : V.record b key' = e := by
      rw [Vault.record_eq hB, Bucket.record, he, Option.getD_some]
    obtain ⟨⟨data, y⟩, hcurrent, rfl⟩ := Option.map_eq_some_iff.1 hx
    exact ((hkeyed key').current data y (by rw [hrec, hcurrent])).1
  refine List.pairwise_filterMap.2 ((pairwise_toList B.objects).imp_of_mem ?_)
  intro entry entry' hentry hentry' hlt x hx y hy
  rwa [hkey entry hentry x hx, hkey entry' hentry' y hy]

theorem pairwise_listObjects (hkeyed : KeyedIn b V) (hB : V.buckets[b]? = some B) :
    (listObjects B).Pairwise fun x y ↦ x.key ≠ y.key :=
  ((pairwise_current hkeyed hB).imp fun h ↦ ne_of_lt h).sublist (List.take_sublist _ _)

/-- What is among the first `n` elements of a sorted list. -/
theorem mem_take_iff {α : Type} {f : α → Text} {l : List α} (h : l.Pairwise (f · < f ·)) {a : α}
    (ha : a ∈ l) {n : ℕ} : a ∈ l.take n ↔ (l.filter (f · < f a)).length < n := by
  induction l generalizing n with
  | nil => cases ha
  | cons y l ih =>
    obtain ⟨hy, hl⟩ := List.pairwise_cons.1 h
    cases n with
    | zero => simp
    | succ n =>
      rw [List.take_succ_cons, List.mem_cons]
      rcases List.mem_cons.1 ha with rfl | ha
      · have hnone : (a :: l).filter (f · < f a) = [] := by
          refine List.filter_eq_nil_iff.2 fun z hz ↦ ?_
          rcases List.mem_cons.1 hz with rfl | hz
          · simp
          · simpa using (hy z hz).le
        simp [hnone]
      · have hlt : f y < f a := hy a ha
        have hne : a ≠ y := fun heq ↦ lt_irrefl _ (heq ▸ hlt)
        rw [List.filter_cons_of_pos (by simpa using hlt), List.length_cons, or_iff_right hne, ih hl ha,
          Nat.add_lt_add_iff_right]

/-- **The page of a rule** are the current objects with less than a thousand before them. -/
theorem mem_listObjects_iff (hkeyed : KeyedIn b V) (hB : V.buckets[b]? = some B) :
    x ∈ listObjects B ↔ (V.record b x.key).metadata = some x ∧
      (B.current.filter (·.key < x.key)).length < defaultMaxKeys := by
  rw [← mem_current hkeyed hB]
  constructor
  · intro h
    have hmem := List.mem_of_mem_take h
    exact ⟨hmem, (mem_take_iff (pairwise_current hkeyed hB) hmem).1 h⟩
  · exact fun h ↦ (mem_take_iff (pairwise_current hkeyed hB) h.1).2 h.2

/-- **What the loop over the page does to a key.** -/
theorem record_loop (henabled : rule.status = .enabled) (hkeyed : KeyedIn b V)
    (hB : V.buckets[b]? = some B) (key : Text) :
    (∃ x ∈ listObjects B, (V.record b key).metadata = some x ∧ Removes C parseDate now F rule x ∧
      DeletedTo E (clock key) key (V.record b key)
        (((listObjects B).foldl (applyToObject E C parseDate now clock F b rule) V).record b key)) ∨
    ((∀ x ∈ listObjects B, (V.record b key).metadata = some x → ¬ Removes C parseDate now F rule x) ∧
      KeptAs (V.record b key)
        (((listObjects B).foldl (applyToObject E C parseDate now clock F b rule) V).record b key)) := by
  obtain ⟨hother, hown⟩ := foldl_atKey
    (@applyToObject_atKey E C parseDate now clock b rule F) (listObjects B)
    (pairwise_listObjects hkeyed hB) hB
  have hmetadata : ∀ x ∈ listObjects B, (V.record b x.key).metadata = some x := fun x hx ↦
    (mem_current hkeyed hB).1 (List.mem_of_mem_take hx)
  by_cases hpage : ∃ x ∈ listObjects B, x.key = key
  · obtain ⟨x, hx, rfl⟩ := hpage
    obtain ⟨V', B', hB', -, hrecord, hfinal⟩ := hown x hx
    rw [hfinal, ← hrecord]
    rcases record_applyToObject henabled hB' (hrecord ▸ hmetadata x hx) with
      ⟨hremoves, hgone⟩ | ⟨hnot, hkept⟩
    · exact .inl ⟨x, hx, hrecord ▸ hmetadata x hx, hremoves, hgone⟩
    · refine .inr ⟨fun y _ hy ↦ ?_, hkept⟩
      rw [hrecord, hmetadata x hx] at hy
      cases hy
      exact hnot
  · refine .inr ⟨fun x hx hcurrent ↦ ?_, .inl (hother key fun x hx heq ↦ hpage ⟨x, hx, heq⟩)⟩
    obtain ⟨⟨data, y⟩, hy, rfl⟩ := Option.map_eq_some_iff.1 hcurrent
    exact absurd ⟨y, hx, ((hkeyed key).current data y hy).1⟩ hpage

/-- What a rule for noncurrent versions does to a key. -/
theorem applyNoncurrentVersionRule_spec (C : S3.Codec) (now : Time) (rule : Rule)
    (hB : V.buckets[b]? = some B) :
    (applyNoncurrentVersionRule C now b rule V).1 = .ok () ∧
    AtBucket b V (applyNoncurrentVersionRule C now b rule V).2 ∧
    ∀ key, (applyNoncurrentVersionRule C now b rule V).2.record b key = V.record b key ∨
      ∃ days, rule.noncurrentDays = some days ∧
        ruleMatchesFilter rule key (objectTags (V.record b key)) = true ∧
        (applyNoncurrentVersionRule C now b rule V).2.record b key =
          expiredRecord C now days key (V.record b key) := by
  cases hdays : rule.noncurrentDays with
  | none =>
    rw [applyNoncurrentVersionRule, hdays]
    exact ⟨rfl, .refl, fun _ ↦ .inl rfl⟩
  | some days =>
    obtain ⟨hbucket, hhere⟩ := record_applyNoncurrentVersionRule C now hB hdays
    refine ⟨by rw [applyNoncurrentVersionRule_of_some hB hdays], hbucket, fun key ↦ ?_⟩
    rw [hhere key]
    split
    · next hmatch => exact .inr ⟨days, rfl, hmatch, rfl⟩
    · exact .inl rfl

theorem applyRule_of_enabled (hB : V.buckets[b]? = some B) (hrule : rule.status = .enabled) :
    applyRule E C parseDate now clock F b rule V = applyNoncurrentVersionRule C now b rule
      ((listObjects B).foldl (applyToObject E C parseDate now clock F b rule) V) := by
  have hloop : applyCurrentObjectRule E C parseDate now clock F b rule V =
      (.ok (), (listObjects B).foldl (applyToObject E C parseDate now clock F b rule) V) := by
    rw [applyCurrentObjectRule, Vault.getBucket_bind_of_some hB]
    rfl
  rw [applyRule, if_neg (by simp [hrule]), Atomic.bind_of_ok hloop]

theorem applyRule_of_disabled (hrule : rule.status ≠ .enabled) :
    applyRule E C parseDate now clock F b rule V = (.ok (), V) := by
  rw [applyRule, if_pos hrule]
  rfl

theorem loop_atBucket (hB : V.buckets[b]? = some B) :
    AtBucket b V ((listObjects B).foldl (applyToObject E C parseDate now clock F b rule) V) :=
  foldl_atBucket (fun V B x hB ↦ (applyToObject_atKey V B x hB).toAtBucket) _ hB

/-- **The record of a key after a rule**: what holds after the loop over the page, and holds still
when noncurrent versions expire, holds in the end. -/
theorem applyRule_record {P : KeyRecord → Prop} (hB : V.buckets[b]? = some B)
    (hrule : rule.status = .enabled) (hP : ∀ e, P e → e.Keyed key)
    (hexpired : ∀ days l e e', P e → rule.noncurrentDays = some days →
      ruleMatchesFilter rule key (objectTags e) = true →
      Expired key (expirable C now days) l e e' → l.Perm (e.list key) → P e')
    (hloop : P (((listObjects B).foldl (applyToObject E C parseDate now clock F b rule) V).record b
      key)) :
    P ((applyRule E C parseDate now clock F b rule V).2.record b key) := by
  obtain ⟨B₁, hB₁, -⟩ := (@loop_atBucket E C parseDate now clock b V B rule F hB).bucket B hB
  rw [applyRule_of_enabled hB hrule]
  rcases (applyNoncurrentVersionRule_spec C now rule hB₁).2.2 key with
    hsame | ⟨days, hdays, hmatch, heq⟩
  · rw [hsame]
    exact hloop
  · rw [heq]
    exact hexpired days _ _ _ hloop hdays hmatch (expiredRecord_expired C now days (hP _ hloop))
      (List.mergeSort_perm _ _)

/-- A rule of an existing bucket does not fail. -/
theorem applyRule_ok (hB : V.buckets[b]? = some B) :
    (applyRule E C parseDate now clock F b rule V).1 = .ok () ∧
    AtBucket b V (applyRule E C parseDate now clock F b rule V).2 := by
  by_cases hrule : rule.status = .enabled
  · have hloop := @loop_atBucket E C parseDate now clock b V B rule F hB
    obtain ⟨B₁, hB₁, -⟩ := hloop.bucket B hB
    obtain ⟨hok, hat, -⟩ := applyNoncurrentVersionRule_spec C now rule hB₁
    rw [applyRule_of_enabled hB hrule]
    exact ⟨hok, hloop.trans hat⟩
  · rw [applyRule_of_disabled hrule]
    exact ⟨rfl, .refl⟩

/-- The ages at which the rules expire the noncurrent versions of a deleted key. -/
def AgesOf (rules : List Rule) (key : Text) (days : ℕ) : Prop :=
  ∃ rule ∈ rules, rule.status = .enabled ∧ rule.noncurrentDays = some days ∧
    ruleMatchesFilter rule key ∅ = true

/-- **An object is removed** by a rule that finds it on its page, and stays current otherwise. -/
theorem applyRule_of_still (hclock : now < clock key) (hrule : rule ∈ rules) (hkeyed : KeyedIn b V)
    (hB : V.buckets[b]? = some B)
    (h : Still C now (AgesOf rules key) key data o (V.record b key)) :
    (Removes C parseDate now F rule o ∧
        (B.current.filter (·.key < key)).length < defaultMaxKeys ∧
      Away C now (AgesOf rules key) key
        ((applyRule E C parseDate now clock F b rule V).2.record b key)) ∨
    (¬ (Removes C parseDate now F rule o ∧
        (B.current.filter (·.key < key)).length < defaultMaxKeys) ∧
      Still C now (AgesOf rules key) key data o
        ((applyRule E C parseDate now clock F b rule V).2.record b key)) := by
  obtain ⟨c, hcurrent⟩ := h.current
  have hmetadata : (V.record b key).metadata = some (o.inClass c) := by
    rw [metadata, hcurrent]
    rfl
  have hkey : o.key = key := (h.keyed.current data _ hcurrent).1
  -- the storage class of the object does not matter
  have hremoves : Removes C parseDate now F rule (o.inClass c) ↔ Removes C parseDate now F rule o :=
    Iff.rfl
  by_cases henabled : rule.status = .enabled
  · rcases @record_loop E C parseDate now clock b V B rule F henabled hkeyed hB key with
      ⟨x, hx, hmeta, hremove, hdeleted⟩ | ⟨hnot, hkept⟩
    · rw [hmetadata] at hmeta
      cases hmeta
      refine .inl ⟨hremoves.1 hremove, hkey ▸ ((mem_listObjects_iff hkeyed hB).1 hx).2, ?_⟩
      refine applyRule_record hB henabled (fun _ h ↦ h.keyed)
        (fun days l e e' haway hdays hmatch hexpired hl ↦
          haway.expired ⟨rule, hrule, henabled, hdays, ?_⟩ hexpired hl) ?_
      · rwa [objectTags, metadata, haway.absent] at hmatch
      · rcases hdeleted with hempty | ⟨v, id, hid, hdelete⟩
        · rw [hempty]
          exact .empty
        · rw [hdelete]
          exact h.delete hid hclock hremove.2.2.1
    · refine .inr ⟨?_, ?_⟩
      · rintro ⟨hremove, hpage⟩
        refine hnot (o.inClass c) ?_ hmetadata (hremoves.2 hremove)
        exact (mem_listObjects_iff hkeyed hB).2 ⟨hkey.symm ▸ hmetadata, hkey.symm ▸ hpage⟩
      · refine applyRule_record hB henabled (fun _ h ↦ h.keyed)
          (fun _ _ _ _ hstill _ _ hexpired _ ↦ hstill.expired hexpired) ?_
        rcases hkept with hsame | ⟨c', hmoved⟩
        · rw [hsame]
          exact h
        · rw [hmoved]
          exact h.moveTo
  · rw [applyRule_of_disabled henabled]
    exact .inr ⟨fun hboth ↦ henabled hboth.1.1, h⟩

/-- **A key that is deleted stays deleted.** -/
theorem away_applyRule (hrule : rule ∈ rules) (hkeyed : KeyedIn b V) (hB : V.buckets[b]? = some B)
    (h : Away C now (AgesOf rules key) key (V.record b key)) :
    Away C now (AgesOf rules key) key
      ((applyRule E C parseDate now clock F b rule V).2.record b key) := by
  by_cases henabled : rule.status = .enabled
  · refine applyRule_record hB henabled (fun _ h ↦ h.keyed)
      (fun days l e e' haway hdays hmatch hexpired hl ↦
        haway.expired ⟨rule, hrule, henabled, hdays, ?_⟩ hexpired hl) ?_
    · rwa [objectTags, metadata, haway.absent] at hmatch
    · rcases @record_loop E C parseDate now clock b V B rule F henabled hkeyed hB key with
        ⟨x, -, hmeta, -⟩ | ⟨-, hsame | ⟨c, hmoved⟩⟩
      · rw [metadata, h.absent] at hmeta
        cases hmeta
      · rw [hsame]
        exact h
      · rw [hmoved, moveTo, h.absent, Option.map_none, ← h.absent]
        exact h
  · rw [applyRule_of_disabled henabled]
    exact h

/-! ### All rules of a bucket -/

section AllRules

variable {F : ℕ → Ignored} {n i : ℕ}

theorem applyRules_cons (hB : V.buckets[b]? = some B) :
    applyRules E C parseDate now clock F b n (rule :: rules) V =
      applyRules E C parseDate now clock F b (n + 1) rules
        (applyRule E C parseDate now clock (F n) b rule V).2 := by
  have hok : applyRule E C parseDate now clock (F n) b rule V =
      (.ok (), (applyRule E C parseDate now clock (F n) b rule V).2) :=
    Prod.ext (applyRule_ok hB).1 rfl
  rw [applyRules, Atomic.bind_of_ok hok]

theorem applyRules_ok (hB : V.buckets[b]? = some B) :
    (applyRules E C parseDate now clock F b n rules V).1 = .ok () ∧
    AtBucket b V (applyRules E C parseDate now clock F b n rules V).2 := by
  induction rules generalizing V B n with
  | nil => exact ⟨rfl, .refl⟩
  | cons rule rules ih =>
    obtain ⟨-, hat⟩ := @applyRule_ok E C parseDate now clock b V B rule (F n) hB
    obtain ⟨B₁, hB₁, -⟩ := hat.bucket B hB
    obtain ⟨hok, hat'⟩ := ih hB₁
    rw [applyRules_cons hB]
    exact ⟨hok, hat.trans hat'⟩

/-- One rule more. -/
theorem applyRules_concat (hB : V.buckets[b]? = some B) :
    (applyRules E C parseDate now clock F b n (rules ++ [rule]) V).2 =
      (applyRule E C parseDate now clock (F (n + rules.length)) b rule
        (applyRules E C parseDate now clock F b n rules V).2).2 := by
  induction rules generalizing V B n with
  | nil =>
    rw [List.nil_append, applyRules_cons hB]
    rfl
  | cons rule' rules ih =>
    obtain ⟨B₁, hB₁, -⟩ := (@applyRule_ok E C parseDate now clock b V B rule' (F n) hB).2.bucket B hB
    rw [List.cons_append, applyRules_cons hB, applyRules_cons hB, ih hB₁, List.length_cons,
      Nat.add_right_comm n 1, Nat.add_assoc]

variable (E C parseDate now clock F b rules V) in
/-- The store after the first `i` rules. -/
def after (i : ℕ) : Vault := (applyRules E C parseDate now clock F b 0 (rules.take i) V).2

theorem after_bucket (hB : V.buckets[b]? = some B) (i : ℕ) :
    ∃ B', (after E C parseDate now clock b V rules F i).buckets[b]? = some B' := by
  obtain ⟨B', hB', -⟩ := (@applyRules_ok E C parseDate now clock b V B (rules.take i) F 0 hB).2.bucket
    B hB
  exact ⟨B', hB'⟩

theorem after_succ (hB : V.buckets[b]? = some B) (hrule : rules[i]? = some rule) :
    after E C parseDate now clock b V rules F (i + 1) =
      (applyRule E C parseDate now clock (F i) b rule
        (after E C parseDate now clock b V rules F i)).2 := by
  obtain ⟨hi, rfl⟩ := List.getElem?_eq_some_iff.1 hrule
  rw [after, List.take_succ_eq_append_getElem hi, applyRules_concat hB, after, List.length_take,
    Nat.min_eq_left hi.le, Nat.zero_add]

theorem after_of_none (hrule : rules[i]? = none) :
    after E C parseDate now clock b V rules F (i + 1) =
      after E C parseDate now clock b V rules F i := by
  have hi := List.getElem?_eq_none_iff.1 hrule
  rw [after, after, List.take_of_length_le hi, List.take_of_length_le (Nat.le_succ_of_le hi)]

/-- Every key is deleted, or holds the object that was current in `V₀`. -/
def Watched (C : S3.Codec) (now : Time) (rules : List Rule) (b : String) (V₀ V : Vault) : Prop :=
  ∀ key, Away C now (AgesOf rules key) key (V.record b key) ∨
    ∃ data o, (V₀.record b key).current = some (data, o) ∧
      Still C now (AgesOf rules key) key data o (V.record b key)

theorem Watched.keyed {V₀ : Vault} (h : Watched C now rules b V₀ V) : KeyedIn b V := fun key ↦
  (h key).elim (·.keyed) fun ⟨_, _, _, hstill⟩ ↦ hstill.keyed

theorem watched_after (hclock : ∀ key, now < clock key) (hB : V.buckets[b]? = some B)
    (h : Watched C now rules b V V) (i : ℕ) :
    Watched C now rules b V (after E C parseDate now clock b V rules F i) := by
  induction i with
  | zero => exact h
  | succ i ih =>
    cases hrule : rules[i]? with
    | none =>
      rw [after_of_none hrule]
      exact ih
    | some rule =>
      intro key
      have hmem : rule ∈ rules := List.mem_of_getElem? hrule
      obtain ⟨B', hB'⟩ := @after_bucket E C parseDate now clock b V B rules F hB i
      rw [after_succ hB hrule]
      rcases ih key with haway | ⟨data, o, hcurrent, hstill⟩
      · exact .inl (away_applyRule hmem ih.keyed hB' haway)
      · rcases applyRule_of_still (hclock key) hmem ih.keyed hB' hstill with
          ⟨-, -, haway⟩ | ⟨-, hstill'⟩
        · exact .inl haway
        · exact .inr ⟨data, o, hcurrent, hstill'⟩

/-! ### The rounds of a pass -/

/-- The keys of the current objects. -/
def leftKeys (V : Vault) (b : String) : Finset Text :=
  ((V.buckets[b]?.getD {}).current.map (·.key)).toFinset

theorem mem_leftKeys (hkeyed : KeyedIn b V) (hB : V.buckets[b]? = some B) :
    key ∈ leftKeys V b ↔ (V.record b key).current ≠ none := by
  rw [leftKeys, hB, Option.getD_some, List.mem_toFinset, List.mem_map]
  constructor
  · rintro ⟨x, hx, rfl⟩ hnone
    have hmetadata := (mem_current hkeyed hB).1 hx
    rw [metadata, hnone] at hmetadata
    cases hmetadata
  · intro hcurrent
    obtain ⟨⟨data, x⟩, hx⟩ := Option.ne_none_iff_exists'.1 hcurrent
    have hkey := ((hkeyed key).current data x hx).1
    refine ⟨x, (mem_current hkeyed hB).2 ?_, hkey⟩
    rw [hkey, metadata, hx]
    rfl

/-- The keys of some of the current objects are as many as these objects. -/
theorem card_leftKeys (hkeyed : KeyedIn b V) (hB : V.buckets[b]? = some B) {s : Finset Text}
    {p : Object → Bool}
    (hs : ∀ key, key ∈ s ↔ ∃ x ∈ B.current, p x = true ∧ x.key = key) :
    s.card = (B.current.filter p).length := by
  have heq : s = ((B.current.filter p).map (·.key)).toFinset := by
    ext key
    simp [hs key, and_assoc]
  have hnodup : ((B.current.filter p).map (·.key)).Nodup :=
    List.pairwise_map.2 (((pairwise_current hkeyed hB).imp fun h ↦ ne_of_lt h).filter _)
  rw [heq, List.toFinset_card_of_nodup hnodup, List.length_map]

/-- The rule with the number `i` removes the object of the key when it finds it. -/
def ReadyAt (C : S3.Codec) (parseDate : String → Option Time) (now : Time) (F : ℕ → Ignored)
    (b : String) (rules : List Rule) (V : Vault) (i : ℕ) (key : Text) : Prop :=
  ∃ rule data o, rules[i]? = some rule ∧ (V.record b key).current = some (data, o) ∧
    Removes C parseDate now (F i) rule o

/-- **The rules of a bucket are rounds** over the keys that are current. -/
theorem rounds_after (hclock : ∀ key, now < clock key) (hB : V.buckets[b]? = some B)
    (h : Watched C now rules b V V) :
    Rounds defaultMaxKeys (ReadyAt C parseDate now F b rules V)
      fun i ↦ leftKeys (after E C parseDate now clock b V rules F i) b := by
  have hwatched := @watched_after E C parseDate now clock b V B rules F hclock hB h
  have hmem : ∀ i key, key ∈ leftKeys (after E C parseDate now clock b V rules F i) b ↔
      ((after E C parseDate now clock b V rules F i).record b key).current ≠ none := fun i key ↦ by
    obtain ⟨B', hB'⟩ := @after_bucket E C parseDate now clock b V B rules F hB i
    exact mem_leftKeys (hwatched i).keyed hB'
  refine ⟨fun i key hkey ↦ ?_, fun i key hkey ↦ ?_⟩
  · -- a key that is deleted stays deleted
    cases hrule : rules[i]? with
    | none => rwa [after_of_none hrule] at hkey
    | some rule =>
      rw [hmem] at hkey ⊢
      obtain ⟨B', hB'⟩ := @after_bucket E C parseDate now clock b V B rules F hB i
      rcases hwatched i key with haway | ⟨data, o, -, hstill⟩
      · rw [after_succ hB hrule] at hkey
        exact absurd (away_applyRule (List.mem_of_getElem? hrule) (hwatched i).keyed hB' haway).absent
          hkey
      · obtain ⟨c, hc⟩ := hstill.current
        simp [hc]
  · cases hrule : rules[i]? with
    | none =>
      rw [after_of_none hrule]
      refine iff_of_false (fun hnot ↦ hnot hkey) ?_
      rintro ⟨⟨rule, -, -, hsome, -⟩, -⟩
      rw [hrule] at hsome
      cases hsome
    | some rule =>
      rw [hmem] at hkey
      obtain ⟨B', hB'⟩ := @after_bucket E C parseDate now clock b V B rules F hB i
      have hcard : ∀ s : Finset Text,
          (∀ k, k ∈ s ↔ k ∈ leftKeys (after E C parseDate now clock b V rules F i) b ∧ k < key) →
          s.card = (B'.current.filter (·.key < key)).length := by
        intro s hs
        refine card_leftKeys (hwatched i).keyed hB' fun key' ↦ ?_
        rw [hs, leftKeys, hB', Option.getD_some, List.mem_toFinset, List.mem_map]
        constructor
        · rintro ⟨⟨x, hx, rfl⟩, hlt⟩
          exact ⟨x, hx, by simpa using hlt, rfl⟩
        · rintro ⟨x, hx, hlt, rfl⟩
          exact ⟨⟨x, hx, rfl⟩, by simpa using hlt⟩
      rw [hmem, hcard _ fun k ↦ mem_before, not_not, after_succ hB hrule]
      obtain ⟨data, o, hcurrent, hstill⟩ := (hwatched i key).resolve_left fun haway ↦ hkey haway.absent
      have hready : ReadyAt C parseDate now F b rules V i key ↔
          Removes C parseDate now (F i) rule o := by
        constructor
        · rintro ⟨rule', data', o', hrule', hcurrent', hremoves⟩
          rw [hrule] at hrule'
          rw [hcurrent] at hcurrent'
          cases hrule'
          cases hcurrent'
          exact hremoves
        · exact fun hremoves ↦ ⟨rule, data, o, hrule, hcurrent, hremoves⟩
      rw [hready]
      rcases applyRule_of_still (hclock key) (List.mem_of_getElem? hrule) (hwatched i).keyed hB'
        hstill with ⟨hremoves, hpage, haway⟩ | ⟨hnot, hstill'⟩
      · exact iff_of_true haway.absent ⟨hremoves, hpage⟩
      · obtain ⟨c, hc⟩ := hstill'.current
        exact iff_of_false (by simp [hc]) hnot

end AllRules

/-! ### A pass -/

variable {F : Failures} {config : String → Option (List Rule)}

variable {G : ℕ → Ignored}

theorem applyLifecycleRules_of_foreign (hB : V.buckets[b]? = some B)
    (hforeign : foreignProviderDataProtectionActive B = true) :
    applyLifecycleRules E C parseDate now clock G b rules V = (.ok (), V) := by
  rw [applyLifecycleRules, Vault.getBucket_bind_of_some hB, if_pos hforeign]
  rfl

theorem applyLifecycleRules_of_own (hB : V.buckets[b]? = some B)
    (hforeign : foreignProviderDataProtectionActive B = false) :
    applyLifecycleRules E C parseDate now clock G b rules V =
      applyRules E C parseDate now clock G b 0 rules V := by
  rw [applyLifecycleRules, Vault.getBucket_bind_of_some hB, if_neg (by simp [hforeign])]

/-- The pass over one bucket succeeds, and leaves the others. -/
theorem applyLifecycleRules_ok (hB : V.buckets[b]? = some B) :
    (applyLifecycleRules E C parseDate now clock G b rules V).1 = .ok () ∧
    AtBucket b V (applyLifecycleRules E C parseDate now clock G b rules V).2 := by
  cases hforeign : foreignProviderDataProtectionActive B with
  | true =>
    rw [applyLifecycleRules_of_foreign hB hforeign]
    exact ⟨rfl, .refl⟩
  | false =>
    rw [applyLifecycleRules_of_own hB hforeign]
    exact applyRules_ok hB

/-- One bucket of the pass. -/
def visit (E : Env) (C : S3.Codec) (parseDate : String → Option Time) (now : Time)
    (clock : Text → Time) (F : Failures) (config : String → Option (List Rule)) (V : Vault)
    (b : String) : Vault :=
  match if F.config b then none else config b with
  | none => V
  | some rules => (applyLifecycleRules E C parseDate now clock (F.rule b) b rules V).2

theorem visit_atBucket (hB : V.buckets[b]? = some B) :
    AtBucket b V (visit E C parseDate now clock F config V b) := by
  unfold visit
  split
  · exact .refl
  · exact (applyLifecycleRules_ok hB).2

/-- What exists stays. -/
theorem AtBucket.isSome (h : AtBucket b V V') (hB : V.buckets[b]? = some B) (b' : String)
    (hb' : (V.buckets[b']?).isSome) : (V'.buckets[b']?).isSome := by
  by_cases hb : b' = b
  · subst hb
    obtain ⟨B', hB', -⟩ := h.bucket B hB
    rw [hB']
    rfl
  · rw [h.other b' hb]
    exact hb'

/-- **The pass is a loop over the buckets**, and it succeeds. -/
theorem executeFor_eq {buckets : List String} (h : ∀ b ∈ buckets, (V.buckets[b]?).isSome) :
    executeFor E C parseDate now clock F config buckets V =
      (.ok (), buckets.foldl (visit E C parseDate now clock F config) V) := by
  induction buckets generalizing V with
  | nil => rfl
  | cons b buckets ih =>
    obtain ⟨B, hB⟩ := Option.isSome_iff_exists.1 (h b (by simp))
    have hvisit := @visit_atBucket E C parseDate now clock b V B F config hB
    have hrest := ih fun b' hb' ↦ hvisit.isSome hB b' (h b' (by simp [hb']))
    rw [List.foldl_cons, ← hrest, executeFor, visit]
    cases (if F.config b then none else config b : Option (List Rule)) with
    | none => rfl
    | some rules =>
      have hok : applyLifecycleRules E C parseDate now clock (F.rule b) b rules V =
          (.ok (), (applyLifecycleRules E C parseDate now clock (F.rule b) b rules V).2) :=
        Prod.ext (applyLifecycleRules_ok hB).1 rfl
      exact Atomic.bind_of_ok hok

/-- The buckets of the list are the only ones that change. -/
theorem foldl_visit_other {buckets : List String} (h : ∀ b ∈ buckets, (V.buckets[b]?).isSome)
    (hb : b ∉ buckets) :
    (buckets.foldl (visit E C parseDate now clock F config) V).buckets[b]? = V.buckets[b]? := by
  induction buckets generalizing V with
  | nil => rfl
  | cons b' buckets ih =>
    obtain ⟨B, hB⟩ := Option.isSome_iff_exists.1 (h b' (by simp))
    have hvisit := @visit_atBucket E C parseDate now clock b' V B F config hB
    rw [List.foldl_cons, ih (fun b'' hb'' ↦ hvisit.isSome hB b'' (h b'' (by simp [hb''])))
      fun hmem ↦ hb (by simp [hmem]), hvisit.other b fun heq ↦ hb (by simp [heq])]

theorem isSome_foldl_visit {buckets : List String} (h : ∀ b ∈ buckets, (V.buckets[b]?).isSome)
    (b' : String) (hb' : (V.buckets[b']?).isSome) :
    ((buckets.foldl (visit E C parseDate now clock F config) V).buckets[b']?).isSome := by
  induction buckets generalizing V with
  | nil => exact hb'
  | cons b buckets ih =>
    obtain ⟨B, hB⟩ := Option.isSome_iff_exists.1 (h b (by simp))
    have hvisit := @visit_atBucket E C parseDate now clock b V B F config hB
    exact ih (fun b'' hb'' ↦ hvisit.isSome hB b'' (h b'' (by simp [hb'']))) (hvisit.isSome hB b' hb')

/-- **A pass, as one bucket sees it.** -/
theorem record_executeLifecycleRules (hB : V.buckets[b]? = some B) :
    (executeLifecycleRules E C parseDate now clock F config V).1 = .ok () ∧
    ∃ V₁, V₁.buckets[b]? = some B ∧ ∀ key,
      (executeLifecycleRules E C parseDate now clock F config V).2.record b key =
        (visit E C parseDate now clock F config V₁ b).record b key := by
  have hall : ∀ b ∈ V.buckets.keys, (V.buckets[b]?).isSome := fun _ h ↦ Table.mem_keys.1 h
  have hrun : executeLifecycleRules E C parseDate now clock F config V =
      (.ok (), V.buckets.keys.foldl (visit E C parseDate now clock F config) V) := executeFor_eq hall
  have hmem : b ∈ V.buckets.keys := Table.mem_keys.2 (by rw [hB]; rfl)
  obtain ⟨earlier, later, hkeys⟩ := List.append_of_mem hmem
  have hnodup := V.buckets.nodup_keys
  rw [hkeys, List.nodup_append, List.nodup_cons] at hnodup
  have hearlier : b ∉ earlier := fun h ↦ hnodup.2.2 b h b (by simp) rfl
  have hB₁ : (earlier.foldl (visit E C parseDate now clock F config) V).buckets[b]? = some B := by
    rw [foldl_visit_other (fun x hx ↦ hall x (by simp [hkeys, hx])) hearlier, hB]
  refine ⟨by rw [hrun], _, hB₁, fun key ↦ ?_⟩
  have hexist : ∀ x ∈ later, ((visit E C parseDate now clock F config
      (earlier.foldl (visit E C parseDate now clock F config) V) b).buckets[x]?).isSome := by
    intro x hx
    refine (visit_atBucket hB₁).isSome hB₁ x ?_
    exact isSome_foldl_visit (fun y hy ↦ hall y (by simp [hkeys, hy])) x (hall x (by simp [hkeys, hx]))
  rw [hrun, hkeys, List.foldl_append, List.foldl_cons, Vault.record,
    foldl_visit_other hexist hnodup.2.1.1, Vault.record]

/-! ### The result -/

/-- **A pass expires exactly what is due and not protected.** -/
def ExpiresExactly (C : S3.Codec) (parseDate : String → Option Time) (now : Time)
    (rules : List Rule) (b : String) (V V' : Vault) : Prop :=
  ∀ key data o, (V.record b key).current = some (data, o) →
    ((∃ c, (V'.record b key).current = some (data, o.inClass c)) ↔
      ¬ Due parseDate now rules o ∨ objectHasActiveDataProtection C now o = true)

/-- **A delete marker covers the key**: a rule that expires the marker over a deleted key, or the one
that this pass would leave over a current object, expires every version with bytes before it. -/
def MarkerCovers (C : S3.Codec) (now : Time) (rules : List Rule) (key : Text) (e : KeyRecord) : Prop :=
  ∀ (id : String) (st : Stored), e.versions[id]? = some st → st.2.isDeleteMarker = false →
    ∀ days, AgesOf rules key days → expirable C now days st.2 = true ∨
      match e.current with
      | some _ => 0 < days
      | none => ∃ m, latestVersion (e.list key) = some m ∧ m.isDeleteMarker = true ∧
          expirable C now days m = false

/-- **Every overdue object can be given a deadline**, which is the number of a rule that removes it,
such that less than a thousand of the current objects before it are not overdue or have no earlier
deadline. -/
def OnTime (C : S3.Codec) (parseDate : String → Option Time) (now : Time) (F : Failures) (b : String)
    (rules : List Rule) (B : Bucket) : Prop :=
  ∃ deadline : Text → ℕ, ∀ o ∈ B.current, Overdue C parseDate now rules o →
    F.config b = false ∧
    (∃ rule, rules[deadline o.key]? = some rule ∧
      Removes C parseDate now (F.rule b (deadline o.key)) rule o) ∧
    (B.current.filter fun x ↦ x.key < o.key ∧
      ¬ (Overdue C parseDate now rules x ∧ deadline x.key < deadline o.key)).length < defaultMaxKeys

/-- The key of an overdue object. -/
def Wanted (C : S3.Codec) (parseDate : String → Option Time) (now : Time) (rules : List Rule)
    (b : String) (V : Vault) (key : Text) : Prop :=
  ∃ data o, (V.record b key).current = some (data, o) ∧ Overdue C parseDate now rules o

/-- The keys before the pass. -/
theorem watched (hkeyed : KeyedIn b V)
    (hbefore : ∀ key st, (V.record b key).Has st → st.2.lastModified ≤ now)
    (hcovers : ∀ key, MarkerCovers C now rules key (V.record b key)) : Watched C now rules b V V := by
  intro key
  cases hcurrent : (V.record b key).current with
  | some st =>
    refine .inr ⟨st.1, st.2, rfl, hkeyed key, hbefore key, ⟨st.2.storageClass, hcurrent⟩,
      fun id st' hst hbytes days hdays ↦ ?_⟩
    have hcovered := hcovers key id st' hst hbytes days hdays
    rwa [hcurrent] at hcovered
  | none =>
    refine .inl ⟨hkeyed key, hcurrent, fun x hx hbytes days hdays ↦ ?_⟩
    obtain ⟨id, data, hentry⟩ := (hkeyed key).mem_list.1 hx
    have hversion := ((hkeyed key).entry_eq_some.1 hentry).resolve_right fun h ↦ by
      rw [hcurrent] at h
      cases h.1
    have hcovered := hcovers key id _ hversion hbytes days hdays
    rwa [hcurrent] at hcovered

/-- What is left of the bucket tells whether all overdue objects have gone. -/
theorem expiresExactly_iff_rounds {G : ℕ → Ignored} (hclock : ∀ key, now < clock key)
    (hB : V.buckets[b]? = some B) (h : Watched C now rules b V V) :
    ExpiresExactly C parseDate now rules b V (applyRules E C parseDate now clock G b 0 rules V).2 ↔
      ∀ key ∈ leftKeys V b, Wanted C parseDate now rules b V key →
        key ∉ leftKeys (after E C parseDate now clock b V rules G rules.length) b := by
  have hwatched := @watched_after E C parseDate now clock b V B rules G hclock hB h
  have hrounds := @rounds_after E C parseDate now clock b V B rules G hclock hB h
  obtain ⟨B', hB'⟩ := @after_bucket E C parseDate now clock b V B rules G hB rules.length
  have hlast : (applyRules E C parseDate now clock G b 0 rules V).2 =
      after E C parseDate now clock b V rules G rules.length := by rw [after, List.take_length]
  rw [hlast]
  constructor
  · rintro hexact key - ⟨data, o, hcurrent, hdue, hfree⟩ hleft
    rcases hwatched rules.length key with haway | ⟨data', o', hcurrent', hstill⟩
    · exact (mem_leftKeys (hwatched _).keyed hB').1 hleft haway.absent
    · rw [hcurrent] at hcurrent'
      cases hcurrent'
      rcases (hexact key data o hcurrent).1 hstill.current with hnot | hprotected
      · exact hnot hdue
      · rw [hfree] at hprotected
        cases hprotected
  · intro hserved key data o hcurrent
    have hkey : key ∈ leftKeys V b := (mem_leftKeys h.keyed hB).2 (by simp [hcurrent])
    rcases hwatched rules.length key with haway | ⟨data', o', hcurrent', hstill⟩
    · refine iff_of_false (fun hstays ↦ ?_) fun hkept ↦ ?_
      · obtain ⟨c, hc⟩ := hstays
        rw [haway.absent] at hc
        cases hc
      -- a key that has gone was ready for some rule
      obtain ⟨i, -, -, -, ⟨rule, data', o', hrule, hcurrent', hremoves⟩, -⟩ := hrounds.exists_round hkey
        fun hleft ↦ (mem_leftKeys (hwatched _).keyed hB').1 hleft haway.absent
      rw [hcurrent] at hcurrent'
      cases hcurrent'
      obtain ⟨hdue, hfree⟩ := hremoves.overdue (List.mem_of_getElem? hrule)
      rcases hkept with hnot | hprotected
      · exact hnot hdue
      · rw [hfree] at hprotected
        cases hprotected
    · rw [hcurrent] at hcurrent'
      cases hcurrent'
      refine iff_of_true hstill.current ?_
      by_contra hkept
      simp only [not_or, not_not, Bool.not_eq_true] at hkept
      obtain ⟨c, hc⟩ := hstill.current
      exact hserved key hkey ⟨data, o, hcurrent, hkept⟩
        ((mem_leftKeys (hwatched _).keyed hB').2 (by simp [hc]))

/-- The deadlines of the rounds are those of the objects. -/
theorem feasible_iff {deadline : Text → ℕ} (hkeyed : KeyedIn b V) (hB : V.buckets[b]? = some B) :
    Rounds.Feasible defaultMaxKeys rules.length (ReadyAt C parseDate now (F.rule b) b rules V)
        (Wanted C parseDate now rules b V) deadline (leftKeys V b) ↔
      ∀ o ∈ B.current, Overdue C parseDate now rules o →
        (∃ rule, rules[deadline o.key]? = some rule ∧
          Removes C parseDate now (F.rule b (deadline o.key)) rule o) ∧
        (B.current.filter fun x ↦ x.key < o.key ∧
          ¬ (Overdue C parseDate now rules x ∧ deadline x.key < deadline o.key)).length <
            defaultMaxKeys := by
  have hcurrent : ∀ o ∈ B.current, ∃ data, (V.record b o.key).current = some (data, o) := by
    intro o ho
    obtain ⟨⟨data, o'⟩, hst, rfl⟩ := Option.map_eq_some_iff.1 ((mem_current hkeyed hB).1 ho)
    exact ⟨data, hst⟩
  have hwanted : ∀ o ∈ B.current, Wanted C parseDate now rules b V o.key ↔
      Overdue C parseDate now rules o := by
    intro o ho
    obtain ⟨data, hst⟩ := hcurrent o ho
    constructor
    · rintro ⟨data', o', hst', hoverdue⟩
      rw [hst] at hst'
      cases hst'
      exact hoverdue
    · exact fun hoverdue ↦ ⟨data, o, hst, hoverdue⟩
  have hready : ∀ o ∈ B.current, ReadyAt C parseDate now (F.rule b) b rules V (deadline o.key) o.key ↔
      ∃ rule, rules[deadline o.key]? = some rule ∧
        Removes C parseDate now (F.rule b (deadline o.key)) rule o := by
    intro o ho
    obtain ⟨data, hst⟩ := hcurrent o ho
    constructor
    · rintro ⟨rule, data', o', hrule, hst', hremoves⟩
      rw [hst] at hst'
      cases hst'
      exact ⟨rule, hrule, hremoves⟩
    · exact fun ⟨rule, hrule, hremoves⟩ ↦ ⟨rule, data, o, hrule, hst, hremoves⟩
  have hcrowd : ∀ key, (Rounds.crowd (Wanted C parseDate now rules b V) deadline (leftKeys V b)
      key).card = (B.current.filter fun x ↦ x.key < key ∧
        ¬ (Overdue C parseDate now rules x ∧ deadline x.key < deadline key)).length := by
    intro key
    refine card_leftKeys hkeyed hB fun key' ↦ ?_
    rw [Rounds.mem_crowd, leftKeys, hB, Option.getD_some, List.mem_toFinset, List.mem_map]
    constructor
    · rintro ⟨⟨x, hx, rfl⟩, hlt, hlate⟩
      rw [hwanted x hx] at hlate
      exact ⟨x, hx, decide_eq_true ⟨hlt, hlate⟩, rfl⟩
    · rintro ⟨x, hx, hcrowd, rfl⟩
      obtain ⟨hlt, hlate⟩ := of_decide_eq_true hcrowd
      rw [← hwanted x hx] at hlate
      exact ⟨⟨x, hx, rfl⟩, hlt, hlate⟩
  constructor
  · intro hfeasible o ho hoverdue
    have hleft : o.key ∈ leftKeys V b := by
      obtain ⟨data, hst⟩ := hcurrent o ho
      exact (mem_leftKeys hkeyed hB).2 (by simp [hst])
    obtain ⟨-, hremoved, hcard⟩ := hfeasible o.key hleft ((hwanted o ho).2 hoverdue)
    exact ⟨(hready o ho).1 hremoved, by rwa [hcrowd] at hcard⟩
  · intro hall key hkey hkeyWanted
    rw [leftKeys, hB, Option.getD_some, List.mem_toFinset, List.mem_map] at hkey
    obtain ⟨o, ho, rfl⟩ := hkey
    obtain ⟨⟨rule, hrule, hremoves⟩, hcard⟩ := hall o ho ((hwanted o ho).1 hkeyWanted)
    refine ⟨(List.getElem?_eq_some_iff.1 hrule).1, (hready o ho).2 ⟨rule, hrule, hremoves⟩, ?_⟩
    rwa [hcrowd]

/-- When a pass expires exactly what is due and not protected. -/
theorem expiresExactly_iff (hclock : ∀ key, now < clock key) (hkeyed : KeyedIn b V)
    (hbefore : ∀ key st, (V.record b key).Has st → st.2.lastModified ≤ now)
    (hcovers : ∀ key, MarkerCovers C now rules key (V.record b key))
    (hB : V.buckets[b]? = some B) (hforeign : foreignProviderDataProtectionActive B = false)
    (hconfig : config b = some rules) :
    ExpiresExactly C parseDate now rules b V
        (executeLifecycleRules E C parseDate now clock F config V).2 ↔
      OnTime C parseDate now F b rules B := by
  obtain ⟨-, V₁, hB₁, hrecord⟩ := @record_executeLifecycleRules E C parseDate now clock b V B F
    config hB
  have hsame : ∀ key, V₁.record b key = V.record b key := fun key ↦ by
    rw [Vault.record, Vault.record, hB₁, hB]
  have hwatched : Watched C now rules b V₁ V₁ := watched (fun key ↦ hsame key ▸ hkeyed key)
    (fun key ↦ hsame key ▸ hbefore key) fun key ↦ hsame key ▸ hcovers key
  have hexact : ExpiresExactly C parseDate now rules b V
        (executeLifecycleRules E C parseDate now clock F config V).2 ↔
      ExpiresExactly C parseDate now rules b V₁ (visit E C parseDate now clock F config V₁ b) := by
    simp only [ExpiresExactly, hrecord, hsame]
  rw [hexact, visit, hconfig]
  cases hread : F.config b with
  | true =>
    -- the configuration is not read, and everything stays
    rw [if_pos rfl]
    constructor
    · refine fun hexact ↦ ⟨fun _ ↦ 0, fun o ho hoverdue ↦ absurd hoverdue fun hdueFree ↦ ?_⟩
      obtain ⟨hdue, hfree⟩ := hdueFree
      obtain ⟨⟨data, o'⟩, hst, rfl⟩ := Option.map_eq_some_iff.1 ((mem_current hwatched.keyed hB₁).1 ho)
      rcases (hexact _ data _ hst).1 ⟨_, hst⟩ with hnot | hprotected
      · exact hnot hdue
      · rw [hfree] at hprotected
        cases hprotected
    · rintro ⟨deadline, hdeadline⟩ key data o hcurrent
      refine iff_of_true ⟨o.storageClass, hcurrent⟩ ?_
      by_contra hkept
      simp only [not_or, not_not, Bool.not_eq_true] at hkept
      have hkey := ((hwatched.keyed key).current data o hcurrent).1
      have hmem : o ∈ B.current := (mem_current hwatched.keyed hB₁).2 (by
        rw [hkey, metadata, hcurrent]
        rfl)
      have hread' := (hdeadline o hmem hkept).1
      rw [hread] at hread'
      cases hread'
  | false =>
    rw [if_neg Bool.false_ne_true]
    show ExpiresExactly C parseDate now rules b V₁
      (applyLifecycleRules E C parseDate now clock (F.rule b) b rules V₁).2 ↔ _
    rw [applyLifecycleRules_of_own hB₁ hforeign, expiresExactly_iff_rounds hclock hB₁ hwatched]
    have hready : ∀ i, ∀ key ∈ leftKeys V₁ b, ReadyAt C parseDate now (F.rule b) b rules V₁ i key →
        Wanted C parseDate now rules b V₁ key := by
      rintro i key - ⟨rule, data, o, hrule, hcurrent, hremoves⟩
      exact ⟨data, o, hcurrent, hremoves.overdue (List.mem_of_getElem? hrule)⟩
    refine ((rounds_after hclock hB₁ hwatched).served_iff hready).trans
      (exists_congr fun deadline ↦ ?_)
    refine (feasible_iff (F := F) hwatched.keyed hB₁).trans ?_
    exact forall₃_congr fun o _ _ ↦ by rw [hread, eq_self, true_and]

/-- Expire what is a day old. -/
def dayOld : Rule where
  expiration := some { days := some 1 }

/-- The key with the number `i`. -/
def crowdKey (i : ℕ) : Text := List.replicate i 'a'

/-- An object under that key, written at the epoch. -/
def crowdObject (i : ℕ) : Object := { S3.plainObject with key := crowdKey i }

/-- The first `n` of these objects. -/
def crowd : ℕ → Table Text KeyRecord
  | 0 => ∅
  | n + 1 => (crowd n).set (crowdKey n) (some { current := some ([0], crowdObject n) })

/-- A bucket that holds them. -/
def crowdedVault (n : ℕ) : Vault where
  buckets := (∅ : Table String Bucket).set "bucket" (some { objects := crowd n })

/-- The configuration of that bucket. -/
def crowdConfig (b : String) : Option (List Rule) := if b = "bucket" then some [dayOld] else none

theorem crowdKey_injective : Function.Injective crowdKey := fun i j h ↦ by
  simpa [crowdKey] using congrArg List.length h

theorem getElem?_crowd {n : ℕ} {e : KeyRecord} : (crowd n)[key]? = some e ↔
    ∃ i, i < n ∧ key = crowdKey i ∧ e = { current := some ([0], crowdObject i) } := by
  induction n with
  | zero => simp [crowd]
  | succ n ih =>
    rw [crowd, Table.getElem?_set]
    split
    · next hkey =>
      refine ⟨fun h ↦ ⟨n, Nat.lt_succ_self n, hkey, (Option.some.inj h).symm⟩, ?_⟩
      rintro ⟨i, -, hi, rfl⟩
      rw [crowdKey_injective (hi.symm.trans hkey)]
    · next hkey =>
      rw [ih]
      refine exists_congr fun i ↦ ⟨fun ⟨hi, h⟩ ↦ ⟨Nat.lt_succ_of_lt hi, h⟩, fun ⟨hi, hi', h⟩ ↦ ?_⟩
      refine ⟨(Nat.lt_succ_iff_lt_or_eq.1 hi).resolve_right fun heq ↦ hkey ?_, hi', h⟩
      rw [hi', heq]

theorem current_crowdedVault {n : ℕ} {st : Stored} :
    ((crowdedVault n).record "bucket" key).current = some st ↔
      ∃ i, i < n ∧ key = crowdKey i ∧ st = ([0], crowdObject i) := by
  have hrecord : (crowdedVault n).record "bucket" key = (crowd n)[key]?.getD {} := by
    simp [Vault.record, crowdedVault, Bucket.record]
  rw [hrecord]
  cases h : (crowd n)[key]? with
  | none =>
    refine ⟨(fun h ↦ by cases h), ?_⟩
    rintro ⟨i, hi, hkey, rfl⟩
    rw [getElem?_crowd.2 ⟨i, hi, hkey, rfl⟩] at h
    cases h
  | some e =>
    obtain ⟨i, hi, hkey, rfl⟩ := getElem?_crowd.1 h
    constructor
    · rintro ⟨⟩
      exact ⟨i, hi, hkey, rfl⟩
    · rintro ⟨j, -, hj, rfl⟩
      rw [crowdKey_injective (hj.symm.trans hkey)]
      rfl

theorem versions_crowdedVault {n : ℕ} : ((crowdedVault n).record "bucket" key).versions = ∅ := by
  have hrecord : (crowdedVault n).record "bucket" key = (crowd n)[key]?.getD {} := by
    simp [Vault.record, crowdedVault, Bucket.record]
  rw [hrecord]
  cases h : (crowd n)[key]? with
  | none => rfl
  | some e =>
    obtain ⟨i, -, -, rfl⟩ := getElem?_crowd.1 h
    rfl

theorem keyed_crowdedVault (n : ℕ) : KeyedIn "bucket" (crowdedVault n) := by
  refine fun key ↦ ⟨fun data o h ↦ ?_, fun id data o h ↦ ?_⟩
  · obtain ⟨i, -, rfl, heq⟩ := current_crowdedVault.1 h
    cases heq
    exact ⟨rfl, nofun⟩
  · rw [versions_crowdedVault] at h
    simp at h

theorem has_crowdedVault {n : ℕ} {st : Stored} (h : ((crowdedVault n).record "bucket" key).Has st) :
    st.2.lastModified ≤ twoDays := by
  rcases h with h | ⟨id, h⟩
  · obtain ⟨i, -, -, rfl⟩ := current_crowdedVault.1 h
    exact Nat.zero_le _
  · rw [versions_crowdedVault] at h
    simp at h

theorem markerCovers_crowdedVault (n : ℕ) :
    MarkerCovers .simple twoDays [dayOld] key ((crowdedVault n).record "bucket" key) := by
  intro id st h
  rw [versions_crowdedVault] at h
  simp at h

/-- The current objects of that bucket. -/
theorem mem_current_crowd {n : ℕ} :
    x ∈ ({ objects := crowd n } : Bucket).current ↔ ∃ i, i < n ∧ x = crowdObject i := by
  have hB : (crowdedVault n).buckets["bucket"]? = some { objects := crowd n } := by
    simp [crowdedVault]
  rw [mem_current (keyed_crowdedVault n) hB, metadata, Option.map_eq_some_iff]
  constructor
  · rintro ⟨⟨data, y⟩, hst, rfl⟩
    obtain ⟨i, hi, -, heq⟩ := current_crowdedVault.1 hst
    cases heq
    exact ⟨i, hi, rfl⟩
  · rintro ⟨i, hi, rfl⟩
    exact ⟨_, current_crowdedVault.2 ⟨i, hi, rfl, rfl⟩, rfl⟩

/-- The pass over that bucket, two days after the epoch. -/
def crowdPass (n : ℕ) : Except Error Unit × Vault :=
  executeLifecycleRules .simple .simple (fun _ ↦ none) twoDays (fun _ ↦ twoDays + 1) {} crowdConfig
    (crowdedVault n)

theorem overdue_crowdObject (i : ℕ) :
    Overdue .simple (fun _ ↦ none) twoDays [dayOld] (crowdObject i) := by
  refine ⟨⟨dayOld, List.mem_singleton_self _, rfl, ?_⟩, ?_⟩
  · show expires (fun _ ↦ none) twoDays dayOld (crowdObject 0).tags (crowdObject 0) = true
    decide
  · show objectHasActiveDataProtection .simple twoDays (crowdObject 0) = false
    decide

theorem crowdKey_lt {i j : ℕ} (h : i < j) : crowdKey i < crowdKey j := by
  induction i generalizing j with
  | zero =>
    obtain ⟨j, rfl⟩ := Nat.exists_eq_succ_of_ne_zero h.ne'
    exact List.nil_lt_cons _ _
  | succ i ih =>
    obtain ⟨j, rfl⟩ := Nat.exists_eq_succ_of_ne_zero (Nat.zero_lt_of_lt h).ne'
    exact List.cons_lt_cons_self.2 (ih (Nat.lt_of_succ_lt_succ h))

/-- One rule has not enough room for all of the objects. -/
theorem not_onTime_crowd :
    ¬ OnTime .simple (fun _ ↦ none) twoDays {} "bucket" [dayOld] { objects := crowd 1001 } := by
  rintro ⟨deadline, hdeadline⟩
  have hzero : ∀ i < 1001, deadline (crowdKey i) = 0 := by
    intro i hi
    obtain ⟨-, ⟨rule, hrule, -⟩, -⟩ := hdeadline _ (mem_current_crowd.2 ⟨i, hi, rfl⟩)
      (overdue_crowdObject i)
    exact Nat.lt_one_iff.1 (List.getElem?_eq_some_iff.1 hrule).1
  obtain ⟨-, -, hcrowd⟩ := hdeadline _ (mem_current_crowd.2 ⟨1000, by decide, rfl⟩)
    (overdue_crowdObject 1000)
  -- a thousand objects are before the last one, and none of them has an earlier deadline
  have hsubset : (List.range 1000).map crowdKey ⊆
      ((({ objects := crowd 1001 } : Bucket).current.filter fun x ↦
        x.key < (crowdObject 1000).key ∧ ¬ (Overdue .simple (fun _ ↦ none) twoDays [dayOld] x ∧
          deadline x.key < deadline (crowdObject 1000).key)).map (·.key)) := by
    intro key hkey
    obtain ⟨i, hi, rfl⟩ := List.mem_map.1 hkey
    have hi := List.mem_range.1 hi
    refine List.mem_map.2 ⟨crowdObject i, List.mem_filter.2
      ⟨mem_current_crowd.2 ⟨i, hi.trans (by decide), rfl⟩, decide_eq_true ⟨crowdKey_lt hi, ?_⟩⟩, rfl⟩
    rintro ⟨-, hlt⟩
    exact absurd (hzero 1000 (by decide) ▸ hlt) (Nat.not_lt_zero _)
  have hnodup : ((List.range 1000).map crowdKey).Nodup := List.nodup_range.map crowdKey_injective
  have hlength := (hnodup.subperm hsubset).length_le
  rw [List.length_map, List.length_range, List.length_map] at hlength
  exact absurd (hlength.trans_lt hcrowd) (by decide)

end Lifecycle

end Sqrzl
