import SqrzlEmulator.Lifecycle.Versions
import SqrzlEmulator.Storage.Regular

/-!
# Expiring noncurrent versions

`expire_noncurrent_versions` compares each version of a key with the identity of its current
version. When the latest version is a delete marker there is no current version, and **every version
counts as noncurrent, the marker among them**. What is left in the end is what does not expire; if
the latest of that is a version with bytes, it has become current, and the key that was deleted is
back.

## The argument

* `Expired` describes the loop over the versions of one key, and `expired_foldl` proves it by
  induction on the versions that have been looked at.
* The keys of a bucket do not see each other (`foldl_expireNoncurrentVersions`), so the step of a
  rule does this to each key that the rule matches.
-/

namespace Sqrzl

namespace KeyRecord

variable {key : Text} {e e' : KeyRecord} {p : Object → Bool} {l : List Object} {o : Object}
  {id : String}

/-- The identity of the current version, as `current_version_id` returns it. -/
def currentVersionId (e : KeyRecord) : Option String := e.metadata.bind (·.versionId)

/-- Look at one version, with the identity `current` that counts as current. -/
def expire (p : Object → Bool) (key : Text) (current : Option String) (e : KeyRecord) (o : Object) :
    KeyRecord :=
  if current = o.versionId then e
  else if !p o then e
  else match o.versionId with
    | none => e
    | some id =>
      match e.deleteVersion key id with
      | .ok e' => e'
      | .error _ => e

/-- What the loop over the versions `l` has made of a record. -/
structure Expired (key : Text) (p : Object → Bool) (l : List Object) (e e' : KeyRecord) : Prop where
  keyed : Keyed key e'
  gone : ∀ o ∈ l, p o = true → o.versionId ≠ e.currentVersionId →
    ∀ id, o.versionId = some id → e'.entry id = none
  kept : ∀ id, (∀ o ∈ l, p o = true → o.versionId = some id → some id = e.currentVersionId) →
    e'.entry id = e.entry id
  current : e.current ≠ none → e'.current = e.current
  absent : e.current = none → (∀ o ∈ l, p o = false) → e'.current = none
  settled : e.current = none → (∃ o ∈ l, p o = true) → Settled key e'

theorem Keyed.versionId_of_mem (h : Keyed key e) (ho : o ∈ e.list key) :
    ∃ id, o.versionId = some id ∧ (e.entry id).isSome := by
  obtain ⟨id, data, hid⟩ := h.mem_list.1 ho
  exact ⟨id, (h.versionId_of_entry hid).1, by rw [hid]; rfl⟩

/-- A record whose current version is another one. -/
theorem current_versionId_ne {data : Bytes} (hcurrent : e.current = some (data, o))
    (hne : some id ≠ e.currentVersionId) : o.versionId ≠ some id := by
  rw [currentVersionId, metadata, hcurrent] at hne
  exact fun h ↦ hne h.symm

theorem currentVersionId_of_none (h : e.current = none) : e.currentVersionId = none := by
  rw [currentVersionId, metadata, h]
  rfl

/-- A version that is current, or does not expire. -/
theorem Expired.skip (h : Expired key p l e e') (hid : o.versionId = some id)
    (hskip : e.currentVersionId = some id ∨ p o = false) : Expired key p (l ++ [o]) e e' where
  keyed := h.keyed
  gone x hx hp hne i hi := by
    rcases List.mem_append.1 hx with hx | hx
    · exact h.gone x hx hp hne i hi
    · obtain rfl := List.mem_singleton.1 hx
      rcases hskip with hskip | hskip
      · exact absurd (hid.trans hskip.symm) hne
      · rw [hp] at hskip
        cases hskip
  kept i hi := h.kept i fun x hx ↦ hi x (List.mem_append_left _ hx)
  current := h.current
  absent hnone hall := h.absent hnone fun x hx ↦ hall x (List.mem_append_left _ hx)
  settled hnone := by
    rintro ⟨x, hx, hp⟩
    rcases List.mem_append.1 hx with hx | hx
    · exact h.settled hnone ⟨x, hx, hp⟩
    · obtain rfl := List.mem_singleton.1 hx
      rcases hskip with hskip | hskip
      · rw [currentVersionId_of_none hnone] at hskip
        cases hskip
      · rw [hp] at hskip
        cases hskip

/-- A version that expires is deleted. -/
theorem Expired.delete {e'' : KeyRecord} (h : Expired key p l e e') (hid : o.versionId = some id)
    (hne : e.currentVersionId ≠ some id) (hp : p o = true) (hkeyed : Keyed key e'')
    (hentry : ∀ i, e''.entry i = if i = id then none else e'.entry i)
    (hcurrent : ∀ data o, e'.current = some (data, o) → o.versionId ≠ some id →
      e''.current = e'.current)
    (hnone : e'.current = none → Settled key e'') (hsettled : Settled key e' → Settled key e'') :
    Expired key p (l ++ [o]) e e'' where
  keyed := hkeyed
  gone x hx hpx hnex i hi := by
    rw [hentry]
    split
    · rfl
    · next hii =>
      rcases List.mem_append.1 hx with hx | hx
      · exact h.gone x hx hpx hnex i hi
      · obtain rfl := List.mem_singleton.1 hx
        rw [hid] at hi
        exact absurd (Option.some.inj hi).symm hii
  kept i hi := by
    have hii : i ≠ id := by
      rintro rfl
      exact hne (hi o (by simp) hp hid).symm
    rw [hentry, if_neg hii]
    exact h.kept i fun x hx ↦ hi x (List.mem_append_left _ hx)
  current hsome := by
    obtain ⟨⟨data, x⟩, hx⟩ := Option.ne_none_iff_exists'.1 hsome
    have hsame := h.current hsome
    rw [hcurrent data x (hsame.trans hx) (current_versionId_ne hx (Ne.symm hne)), hsame]
  absent _ hall := by
    have := hall o (by simp)
    rw [hp] at this
    cases this
  settled hnone' _ := by
    by_cases hany : ∃ x ∈ l, p x = true
    · exact hsettled (h.settled hnone' hany)
    · refine hnone (h.absent hnone' fun x hx ↦ ?_)
      rw [Bool.eq_false_iff]
      exact fun hpx ↦ hany ⟨x, hx, hpx⟩

/-- **The loop over the versions of a key.** -/
theorem expired_foldl (h : Keyed key e) (hl : ∀ o ∈ l, o ∈ e.list key)
    (hdistinct : l.Pairwise fun x y ↦ x.versionId ≠ y.versionId) :
    Expired key p l e (l.foldl (expire p key e.currentVersionId) e) := by
  induction l using List.reverseRecOn with
  | nil =>
    exact ⟨h, nofun, fun _ _ ↦ rfl, fun _ ↦ rfl, fun hnone _ ↦ hnone, fun _ ⟨_, ho, _⟩ ↦ nomatch ho⟩
  | append_singleton l o ih =>
    rw [List.pairwise_append] at hdistinct
    have ih := ih (fun x hx ↦ hl x (List.mem_append_left _ hx)) hdistinct.1
    rw [List.foldl_append]
    generalize l.foldl (expire p key e.currentVersionId) e = e₁ at ih
    obtain ⟨i, hi, hentry⟩ := h.versionId_of_mem (hl o (by simp))
    show Expired key p (l ++ [o]) e (expire p key e.currentVersionId e₁ o)
    unfold expire
    by_cases hcurrent : e.currentVersionId = some i
    · rw [if_pos (hcurrent.trans hi.symm)]
      exact ih.skip hi (.inl hcurrent)
    · rw [if_neg (hi ▸ hcurrent)]
      cases hp : p o with
      | false =>
        rw [Bool.not_false, if_pos rfl]
        exact ih.skip hi (.inr hp)
      | true =>
        -- it has not been deleted before, because identities differ
        have hkept : e₁.entry i = e.entry i := ih.kept i fun x hx _ hxi ↦
          absurd (hxi.trans hi.symm) (hdistinct.2.2 x hx o (by simp))
        obtain ⟨e₂, he₂, hkeyed, hentries, hcur, hnone, hsettled⟩ :=
          ih.keyed.deleteVersion (hkept ▸ hentry)
        simp only [Bool.not_true, Bool.false_eq_true, if_false, hi, he₂]
        exact ih.delete hi hcurrent hp hkeyed hentries hcur hnone hsettled

/-- What the loop over all versions of a key leaves. -/
theorem Expired.mem_list_of_none (h : Expired key p l e e') (hk : Keyed key e)
    (hl : l.Perm (e.list key)) (hnone : e.current = none) :
    o ∈ e'.list key ↔ o ∈ (e.list key).filter (!p ·) := by
  rw [h.keyed.mem_list, List.mem_filter, hk.mem_list]
  have hcurrent := currentVersionId_of_none hnone
  constructor
  · rintro ⟨i, data, hi⟩
    have hoi := (h.keyed.versionId_of_entry hi).1
    by_cases hgone : ∃ x ∈ l, p x = true ∧ x.versionId = some i
    · obtain ⟨x, hx, hp, hxi⟩ := hgone
      rw [h.gone x hx hp (by rw [hxi, hcurrent]; simp) i hxi] at hi
      cases hi
    · have hentry := h.kept i fun x hx hp hxi ↦ absurd ⟨x, hx, hp, hxi⟩ hgone
      rw [hentry] at hi
      refine ⟨⟨i, data, hi⟩, ?_⟩
      rw [Bool.not_eq_true']
      by_contra hp
      exact hgone ⟨o, hl.mem_iff.2 (hk.mem_list.2 ⟨i, data, hi⟩), by simpa using hp, hoi⟩
  · rintro ⟨⟨i, data, hi⟩, hp⟩
    refine ⟨i, data, ?_⟩
    rw [h.kept i fun x hx hpx hxi ↦ ?_, hi]
    have hxo : x = o := hk.list_inj (hl.mem_iff.1 hx) (hk.mem_list.2 ⟨i, data, hi⟩)
      (hxi.trans (hk.versionId_of_entry hi).1.symm)
    rw [hxo] at hpx
    simp [hpx] at hp

/-- **When the current view of a key stays as it is.** -/
theorem Expired.current_eq_iff (h : Expired key p l e e') (hk : Keyed key e)
    (hl : l.Perm (e.list key)) : e'.current = e.current ↔
      (e.current = none → (∃ o ∈ e.list key, p o = true) →
        (latestVersion ((e.list key).filter (!p ·))).all (·.isDeleteMarker) = true) := by
  by_cases hnone : e.current = none
  · by_cases hany : ∃ o ∈ e.list key, p o = true
    · have hsettled := h.settled hnone (by simpa only [hl.mem_iff] using hany)
      have hlatest : latestVersion (e'.list key) = latestVersion ((e.list key).filter (!p ·)) :=
        latestVersion_congr (fun x hx y hy ↦ h.keyed.list_inj hx hy) fun x ↦
          h.mem_list_of_none hk hl hnone
      rw [Settled, hlatest] at hsettled
      have hcurrent : e'.current = none ↔ e'.metadata = none := by
        rw [metadata, Option.map_eq_none_iff]
      rw [hnone, hcurrent, hsettled]
      simp only [hany, forall_const]
      cases latestVersion ((e.list key).filter (!p ·)) with
      | none => simp
      | some o => simp
    · have habsent := h.absent hnone fun x hx ↦ by
        rw [Bool.eq_false_iff]
        exact fun hp ↦ hany ⟨x, hl.mem_iff.1 hx, hp⟩
      exact ⟨fun _ _ h ↦ absurd h hany, fun _ ↦ habsent.trans hnone.symm⟩
  · exact ⟨fun _ h ↦ absurd h hnone, fun _ ↦ h.current hnone⟩

end KeyRecord

namespace Lifecycle

open Prog

variable {C : S3.Codec} {now : Time} {b : String} {key : Text} {V V' : Vault} {B : Bucket}
  {days : ℕ} {rule : Rule}

/-! ### One bucket of a vault, and one key -/

/-- The settings of the bucket are as they were, and so is every other bucket. -/
structure AtBucket (b : String) (V V' : Vault) : Prop where
  bucket : ∀ B, V.buckets[b]? = some B → ∃ B', V'.buckets[b]? = some B' ∧
    B'.versioning = B.versioning ∧ B'.metadata = B.metadata
  other : ∀ b', b' ≠ b → V'.buckets[b']? = V.buckets[b']?

theorem AtBucket.refl : AtBucket b V V := ⟨fun B hB ↦ ⟨B, hB, rfl, rfl⟩, fun _ _ ↦ rfl⟩

theorem AtBucket.trans {V'' : Vault} (h : AtBucket b V V') (h' : AtBucket b V' V'') :
    AtBucket b V V'' := by
  refine ⟨fun B hB ↦ ?_, fun b' hne ↦ (h'.other b' hne).trans (h.other b' hne)⟩
  obtain ⟨B', hB', hv, hm⟩ := h.bucket B hB
  obtain ⟨B'', hB'', hv', hm'⟩ := h'.bucket B' hB'
  exact ⟨B'', hB'', hv'.trans hv, hm'.trans hm⟩

theorem AtBucket.record_other {b' : String} (h : AtBucket b V V') (hne : b' ≠ b) (key : Text) :
    V'.record b' key = V.record b' key := by
  rw [Vault.record, h.other b' hne, Vault.record]

/-- What is kept under other keys is as it was. -/
structure AtKey (b : String) (key : Text) (V V' : Vault) : Prop extends AtBucket b V V' where
  record : ∀ key', key' ≠ key → V'.record b key' = V.record b key'

theorem AtKey.refl : AtKey b key V V := ⟨.refl, fun _ _ ↦ rfl⟩

theorem AtKey.trans {V'' : Vault} (h : AtKey b key V V') (h' : AtKey b key V' V'') :
    AtKey b key V V'' :=
  ⟨h.toAtBucket.trans h'.toAtBucket, fun key' hne ↦ (h'.record key' hne).trans (h.record key' hne)⟩

theorem setRecord_atKey (hB : V.buckets[b]? = some B) (e : KeyRecord) :
    AtKey b key V (V.setRecord b key e) := by
  refine ⟨⟨fun B' hB' ↦ ?_, fun b' hne ↦ ?_⟩, fun key' hne ↦ ?_⟩
  · rw [hB] at hB'
    cases hB'
    refine ⟨B.setRecord key e, ?_, rfl, rfl⟩
    simp [Vault.setRecord, hB]
  · rw [Vault.setRecord, Table.getElem?_set, if_neg hne]
  · rw [Vault.record_setRecord hB, if_neg fun h ↦ hne h.2]

theorem foldl_atBucket {α : Type} {f : Vault → α → Vault}
    (hf : ∀ V B a, V.buckets[b]? = some B → AtBucket b V (f V a)) (l : List α)
    (hB : V.buckets[b]? = some B) : AtBucket b V (l.foldl f V) := by
  induction l generalizing V B with
  | nil => exact .refl
  | cons a l ih =>
    have hat := hf V B a hB
    obtain ⟨B₁, hB₁, -⟩ := hat.bucket B hB
    exact hat.trans (ih hB₁)

/-- **A loop in which every step has a key of its own.** A step sees its own key as it was before
the loop, and what it leaves there stays. -/
theorem foldl_atKey {α : Type} {f : Vault → α → Vault} {name : α → Text}
    (hf : ∀ V B a, V.buckets[b]? = some B → AtKey b (name a) V (f V a)) (l : List α)
    (hl : l.Pairwise fun a a' ↦ name a ≠ name a') (hB : V.buckets[b]? = some B) :
    (∀ key, (∀ a ∈ l, name a ≠ key) → (l.foldl f V).record b key = V.record b key) ∧
    ∀ a ∈ l, ∃ V' B', V'.buckets[b]? = some B' ∧ B'.versioning = B.versioning ∧
      V'.record b (name a) = V.record b (name a) ∧
      (l.foldl f V).record b (name a) = (f V' a).record b (name a) := by
  induction l generalizing V B with
  | nil => exact ⟨fun _ _ ↦ rfl, nofun⟩
  | cons a₀ l ih =>
    rw [List.pairwise_cons] at hl
    have hat := hf V B a₀ hB
    obtain ⟨B₁, hB₁, hv₁, -⟩ := hat.bucket B hB
    obtain ⟨hother, hown⟩ := ih hl.2 hB₁
    refine ⟨fun key hkey ↦ ?_, fun a ha ↦ ?_⟩
    · rw [List.foldl_cons, hother key fun a ha ↦ hkey a (by simp [ha]),
        hat.record key (hkey a₀ (by simp)).symm]
    · rw [List.foldl_cons]
      rcases List.mem_cons.1 ha with rfl | ha
      · exact ⟨V, B, hB, rfl, rfl, hother _ fun a' ha' ↦ (hl.1 a' ha').symm⟩
      · obtain ⟨V', B', hB', hv', hrecord, hfinal⟩ := hown a ha
        exact ⟨V', B', hB', hv'.trans hv₁, hrecord.trans (hat.record _ (hl.1 a ha).symm), hfinal⟩

/-- One version of one key. -/
theorem expireVersion_spec (C : S3.Codec) (now : Time) (key : Text) (days : ℕ)
    (current : Option String) (o : Object) (hB : V.buckets[b]? = some B) :
    AtKey b key V (expireVersion C now b key days current V o) ∧
    (expireVersion C now b key days current V o).record b key =
      KeyRecord.expire (expirable C now days) key current (V.record b key) o := by
  unfold expireVersion KeyRecord.expire
  split
  · exact ⟨.refl, rfl⟩
  split
  · exact ⟨.refl, rfl⟩
  cases o.versionId with
  | none => exact ⟨.refl, rfl⟩
  | some id =>
    dsimp only
    rcases Vault.deleteObjectVersion_cases b key id V with ⟨e, heq⟩ | ⟨B', e, hB', he, heq⟩
    · rw [heq]
      refine ⟨.refl, ?_⟩
      cases hdelete : (V.record b key).deleteVersion key id with
      | error _ => rfl
      | ok e' =>
        -- a deletion that is possible does not fail
        rw [Vault.record_eq hB] at hdelete
        rw [Vault.deleteObjectVersion, Vault.getBucket_bind_of_some hB, hdelete] at heq
        cases congrArg Prod.fst heq
    · rw [heq, Vault.record_eq hB', he]
      exact ⟨setRecord_atKey hB' e, by rw [Vault.record_setRecord hB', if_pos ⟨rfl, rfl⟩]⟩

theorem foldl_expireVersion_spec (current : Option String) (l : List Object)
    (hB : V.buckets[b]? = some B) :
    AtKey b key V (l.foldl (expireVersion C now b key days current) V) ∧
    (l.foldl (expireVersion C now b key days current) V).record b key =
      l.foldl (KeyRecord.expire (expirable C now days) key current) (V.record b key) := by
  induction l generalizing V B with
  | nil => exact ⟨.refl, rfl⟩
  | cons o l ih =>
    obtain ⟨hat, hrecord⟩ := expireVersion_spec C now key days current o hB
    obtain ⟨B', hB', -⟩ := hat.bucket B hB
    obtain ⟨hat', hrecord'⟩ := ih hB'
    refine ⟨hat.trans hat', ?_⟩
    rw [List.foldl_cons, List.foldl_cons, hrecord', hrecord]

/-- What a rule for noncurrent versions does to the record of a key that it matches. -/
def expiredRecord (C : S3.Codec) (now : Time) (days : ℕ) (key : Text) (e : KeyRecord) : KeyRecord :=
  (sortVersions (e.list key)).foldl
    (KeyRecord.expire (expirable C now days) key e.currentVersionId) e

theorem expireNoncurrentVersions_spec (C : S3.Codec) (now : Time) (days : ℕ) (key : Text)
    (hB : V.buckets[b]? = some B) :
    AtKey b key V (expireNoncurrentVersions C now b days V (key, (V.record b key).list key)) ∧
    (expireNoncurrentVersions C now b days V (key, (V.record b key).list key)).record b key =
      expiredRecord C now days key (V.record b key) :=
  foldl_expireVersion_spec _ _ hB

/-! ### All keys of a bucket -/

/-- A group of versions that is not the whole list of its key. -/
theorem expireNoncurrentVersions_atKey (group : Text × List Object) (hB : V.buckets[b]? = some B) :
    AtKey b group.1 V (expireNoncurrentVersions C now b days V group) :=
  (foldl_expireVersion_spec _ _ hB).1

/-- **Keys do not see each other.** -/
theorem foldl_expireNoncurrentVersions (C : S3.Codec) (now : Time) (days : ℕ)
    (groups : List (Text × List Object)) (hgroups : groups.Pairwise fun g g' ↦ g.1 ≠ g'.1)
    (hlist : ∀ g ∈ groups, g.2 = (V.record b g.1).list g.1) (hB : V.buckets[b]? = some B) :
    AtBucket b V (groups.foldl (expireNoncurrentVersions C now b days) V) ∧
    ∀ key, (groups.foldl (expireNoncurrentVersions C now b days) V).record b key =
      if key ∈ groups.map Prod.fst then expiredRecord C now days key (V.record b key)
      else V.record b key := by
  obtain ⟨hother, hown⟩ := foldl_atKey
    (fun V B group hB ↦ expireNoncurrentVersions_atKey group hB) groups hgroups hB
  refine ⟨foldl_atBucket (fun V B group hB ↦ (expireNoncurrentVersions_atKey group hB).toAtBucket)
    groups hB, fun key ↦ ?_⟩
  split
  · next hkey =>
    obtain ⟨g, hg, rfl⟩ := List.mem_map.1 hkey
    obtain ⟨V', B', hB', -, hrecord, hfinal⟩ := hown g hg
    have hgroup : g = (g.1, (V'.record b g.1).list g.1) := Prod.ext rfl (by rw [hrecord, hlist g hg])
    rw [hfinal, ← hrecord]
    conv_lhs => rw [hgroup]
    exact (expireNoncurrentVersions_spec C now days g.1 hB').2
  · next hkey => exact hother key fun g hg heq ↦ hkey (List.mem_map.2 ⟨g, hg, heq⟩)

theorem mem_filteredVersionsByKey {versions : List Object} :
    (key, versions) ∈ filteredVersionsByKey rule B ↔ ∃ e, B.objects[key]? = some e ∧
      versions = e.list key ∧ e.list key ≠ [] ∧
      ruleMatchesFilter rule key (objectTags e) = true := by
  rw [filteredVersionsByKey, List.mem_filterMap]
  constructor
  · rintro ⟨⟨key', e⟩, hentry, heq⟩
    dsimp only at heq
    split at heq
    · cases heq
    · next hcond =>
      cases heq
      simp only [Bool.or_eq_true, not_or, List.isEmpty_iff, Bool.not_eq_true', Bool.not_eq_false]
        at hcond
      exact ⟨e, Std.ExtTreeMap.mem_toList_iff_getElem?_eq_some.1 hentry, rfl, hcond.1, hcond.2⟩
  · rintro ⟨e, he, rfl, hne, hmatch⟩
    refine ⟨(key, e), Std.ExtTreeMap.mem_toList_iff_getElem?_eq_some.2 he, ?_⟩
    simp [hne, hmatch]

theorem pairwise_filteredVersionsByKey :
    (filteredVersionsByKey rule B).Pairwise fun g g' ↦ g.1 ≠ g'.1 := by
  refine List.pairwise_filterMap.2 (B.objects.distinct_keys_toList.imp_of_mem ?_)
  intro entry entry' _ _ hne g hg g' hg' heq
  split at hg <;> split at hg'
  · cases hg
  · cases hg
  · cases hg'
  · cases hg
    cases hg'
    exact hne (heq ▸ Std.ReflCmp.compare_self)

theorem list_empty_record : ({} : KeyRecord).list key = [] := by
  have hkeyed : KeyRecord.Keyed key {} := ⟨nofun, fun id data o h ↦ by simp at h⟩
  rw [List.eq_nil_iff_forall_not_mem]
  intro o ho
  obtain ⟨id, data, hid⟩ := hkeyed.mem_list.1 ho
  simp [KeyRecord.entry] at hid

/-- The rule does not fail when the bucket exists. -/
theorem applyNoncurrentVersionRule_of_some (hB : V.buckets[b]? = some B)
    (hdays : rule.noncurrentDays = some days) : applyNoncurrentVersionRule C now b rule V =
      (.ok (), (filteredVersionsByKey rule B).foldl (expireNoncurrentVersions C now b days) V) := by
  rw [applyNoncurrentVersionRule, hdays]
  show (Vault.getBucket b >>= _) V = _
  rw [Vault.getBucket_bind_of_some hB]
  rfl

/-- **What a rule for noncurrent versions does to every key.** -/
theorem record_applyNoncurrentVersionRule (C : S3.Codec) (now : Time) (hB : V.buckets[b]? = some B)
    (hdays : rule.noncurrentDays = some days) :
    AtBucket b V (applyNoncurrentVersionRule C now b rule V).2 ∧
    ∀ key, ((applyNoncurrentVersionRule C now b rule V).2).record b key =
      if ruleMatchesFilter rule key (objectTags (V.record b key)) then
        expiredRecord C now days key (V.record b key) else V.record b key := by
  have hrun : (applyNoncurrentVersionRule C now b rule V).2 =
      (filteredVersionsByKey rule B).foldl (expireNoncurrentVersions C now b days) V := by
    rw [applyNoncurrentVersionRule_of_some hB hdays]
  rw [hrun]
  obtain ⟨hbucket, hhere⟩ := foldl_expireNoncurrentVersions C now days
    (filteredVersionsByKey rule B) pairwise_filteredVersionsByKey (fun g hg ↦ by
      obtain ⟨e, he, heq, -⟩ := mem_filteredVersionsByKey.1 hg
      rw [heq, Vault.record_eq hB, Bucket.record, he]
      rfl) hB
  refine ⟨hbucket, fun key ↦ ?_⟩
  have hrecord : V.record b key = B.objects[key]?.getD {} := Vault.record_eq hB
  rw [hhere key]
  by_cases hmatch : ruleMatchesFilter rule key (objectTags (V.record b key)) = true
  · rw [if_pos hmatch]
    split
    · rfl
    · next hnot =>
      -- a key without versions is in no group
      have hnil : (V.record b key).list key = [] := by
        cases he : B.objects[key]? with
        | none =>
          rw [hrecord, he]
          exact list_empty_record
        | some e =>
          by_contra hne
          rw [hrecord, he, Option.getD_some] at hne hmatch
          exact hnot (List.mem_map_of_mem
            (mem_filteredVersionsByKey.2 ⟨e, he, rfl, hne, hmatch⟩))
      rw [expiredRecord, hnil, sortVersions, List.mergeSort_nil]
      rfl
  · rw [if_neg hmatch, if_neg]
    intro hmem
    obtain ⟨⟨key', versions⟩, hg, rfl⟩ := List.mem_map.1 hmem
    obtain ⟨e, he, -, -, hyes⟩ := mem_filteredVersionsByKey.1 hg
    rw [hrecord, he] at hmatch
    exact hmatch hyes

theorem expiredRecord_expired (C : S3.Codec) (now : Time) (days : ℕ) {e : KeyRecord}
    (h : e.Keyed key) :
    KeyRecord.Expired key (expirable C now days) (sortVersions (e.list key)) e
      (expiredRecord C now days key e) := by
  have hperm : (sortVersions (e.list key)).Perm (e.list key) := List.mergeSort_perm _ _
  refine KeyRecord.expired_foldl h (fun o ho ↦ hperm.mem_iff.1 ho) ?_
  rw [hperm.pairwise_iff Ne.symm, h.list_eq, (List.mergeSort_perm _ _).pairwise_iff Ne.symm]
  exact h.pairwise_listed

/-! ### The result -/

/-- The step of a rule has removed nothing but old and unprotected versions that are not current,
and it has left the current view of every key. -/
structure NoncurrentOnly (C : S3.Codec) (now : Time) (rule : Rule) (V V' : Vault) : Prop where
  removed : ∀ b key id st, (V.record b key).entry id = some st →
    (V'.record b key).entry id = some st ∨
      (some id ≠ (V.record b key).currentVersionId ∧
        (∃ days, rule.noncurrentDays = some days ∧
          shouldExpireNoncurrentVersion now st.2.lastModified days = true) ∧
        objectHasActiveDataProtection C now st.2 = false)
  view : ∀ b key, (V'.record b key).current = (V.record b key).current

/-- Whatever happens to the current view, only noncurrent versions are removed. -/
theorem removed_applyNoncurrentVersionRule (hkeyed : ∀ key, (V.record b key).Keyed key)
    {b' : String} {id : String} {st : Stored} (hst : (V.record b' key).entry id = some st) :
    (((applyNoncurrentVersionRule C now b rule V).2).record b' key).entry id = some st ∨
      (some id ≠ (V.record b' key).currentVersionId ∧
        (∃ days, rule.noncurrentDays = some days ∧
          shouldExpireNoncurrentVersion now st.2.lastModified days = true) ∧
        objectHasActiveDataProtection C now st.2 = false) := by
  cases hdays : rule.noncurrentDays with
  | none =>
    rw [applyNoncurrentVersionRule, hdays]
    exact .inl hst
  | some days =>
    cases hB : V.buckets[b]? with
    | none =>
      rw [applyNoncurrentVersionRule, hdays]
      refine .inl ?_
      show (Vault.record ((Vault.getBucket b >>= _) V).2 b' key).entry id = some st
      rw [Vault.getBucket_bind_of_none hB]
      exact hst
    | some B =>
      obtain ⟨hbucket, hhere⟩ := record_applyNoncurrentVersionRule C now hB hdays
      by_cases hb : b' = b
      · subst hb
        rw [hhere key]
        split
        · have hexpired := expiredRecord_expired C now days (hkeyed key)
          have hmem := (hkeyed key).mem_list.2 ⟨id, st.1, hst⟩
          by_cases hkept : expirable C now days st.2 = true ∧
              some id ≠ (V.record b' key).currentVersionId
          · have hp := Bool.and_eq_true_iff.1 hkept.1
            exact .inr ⟨hkept.2, ⟨days, rfl, hp.1⟩, by simpa using hp.2⟩
          · refine .inl ?_
            rw [hexpired.kept id fun o ho hp hid ↦ ?_, hst]
            have heq : o = st.2 := (hkeyed key).list_inj
              ((List.mergeSort_perm _ _).mem_iff.1 ho) hmem
              (hid.trans ((hkeyed key).versionId_of_entry hst).1.symm)
            rw [heq] at hp
            by_contra hne
            exact hkept ⟨hp, hne⟩
        · exact .inl hst
      · rw [hbucket.record_other hb key]
        exact .inl hst

/-- When the current view of a key stays as it is. -/
theorem current_applyNoncurrentVersionRule (hkeyed : ∀ key, (V.record b key).Keyed key) :
    (∀ b' key, ((applyNoncurrentVersionRule C now b rule V).2.record b' key).current =
      (V.record b' key).current) ↔
    ∀ days key, rule.noncurrentDays = some days →
      ruleMatchesFilter rule key (objectTags (V.record b key)) = true →
      (V.record b key).current = none →
      (∃ o ∈ (V.record b key).list key, expirable C now days o = true) →
      (latestVersion (((V.record b key).list key).filter (!expirable C now days ·))).all
        (·.isDeleteMarker) = true := by
  cases hdays : rule.noncurrentDays with
  | none =>
    rw [applyNoncurrentVersionRule, hdays]
    exact ⟨fun _ _ _ h ↦ (by cases h), fun _ _ _ ↦ rfl⟩
  | some days =>
    cases hB : V.buckets[b]? with
    | none =>
      -- no bucket, no versions
      have hsame : (applyNoncurrentVersionRule C now b rule V).2 = V := by
        rw [applyNoncurrentVersionRule, hdays]
        show ((Vault.getBucket b >>= _) V).2 = V
        rw [Vault.getBucket_bind_of_none hB]
      rw [hsame]
      refine ⟨fun _ days' key _ _ _ ⟨o, ho, _⟩ ↦ ?_, fun _ _ _ ↦ rfl⟩
      rw [Vault.record, hB] at ho
      exact absurd ho (by rw [Option.map_none, Option.getD_none, list_empty_record]; simp)
    | some B =>
      obtain ⟨hbucket, hhere⟩ := record_applyNoncurrentVersionRule C now hB hdays
      have hiff := fun key ↦ (expiredRecord_expired C now days
        (hkeyed key)).current_eq_iff (hkeyed key) (List.mergeSort_perm _ _)
      constructor
      · intro h days' key heq hmatch
        cases heq
        have hcurrent := h b key
        rw [hhere key, if_pos hmatch] at hcurrent
        exact (hiff key).1 hcurrent
      · intro h b' key
        by_cases hb : b' = b
        · subst hb
          rw [hhere key]
          split
          · next hmatch => exact (hiff key).2 (h days key rfl hmatch)
          · rfl
        · rw [hbucket.record_other hb key]

/-- **Expiring noncurrent versions leaves the current view of every key** if and only if no deleted
key that the rule matches has a version that expires while the latest of those that do not expire is
a version with bytes. -/
theorem noncurrent_expiration_keeps_view_iff (hkeyed : ∀ key, (V.record b key).Keyed key) :
    NoncurrentOnly C now rule V (applyNoncurrentVersionRule C now b rule V).2 ↔
    ∀ days key, rule.noncurrentDays = some days →
      ruleMatchesFilter rule key (objectTags (V.record b key)) = true →
      (V.record b key).current = none →
      (∃ o ∈ (V.record b key).list key, expirable C now days o = true) →
      (latestVersion (((V.record b key).list key).filter (!expirable C now days ·))).all
        (·.isDeleteMarker) = true := by
  rw [← current_applyNoncurrentVersionRule hkeyed]
  exact ⟨fun h ↦ h.view, fun h ↦ ⟨fun b' key id st hst ↦
    removed_applyNoncurrentVersionRule hkeyed hst, h⟩⟩

/-! ### A deleted key with a protected version -/

/-- A version of the key `k` with some provider metadata. -/
def versionOf (id : String) (t : Time) (name value : String) : Object where
  key := ['k']
  data := []
  size := 0
  etag := ""
  contentType := ""
  lastModified := t
  versionId := some id
  storageClass := "STANDARD"
  metadata := ∅
  tags := ∅
  acl := none
  providerMetadata := (∅ : Table String String).set name (some value)

/-- The first version of the key, with a legal hold or without. -/
def heldVersion (hold : String) : Object := versionOf "v1" 0 "s3_object_lock_legal_hold" hold

/-- The marker that a `DeleteObject` has left. -/
def oldMarker : Object := versionOf "v2" 1 "s3_delete_marker" "true"

/-- The key after the `DeleteObject`. -/
def deletedKey (hold : String) : KeyRecord where
  versions := ((∅ : Table String Stored).set "v1" (some ([], heldVersion hold))).set "v2"
    (some ([], oldMarker))

/-- A store with the deleted key. -/
def deletedVault (hold : String) : Vault where
  buckets := (∅ : Table String Bucket).set "bucket" <| some
    { versioning := some .enabled
      objects := (∅ : Table Text KeyRecord).set ['k'] (some (deletedKey hold)) }

/-- Expire what has not been current for a day. -/
def afterOneDay : Rule where
  noncurrentDays := some 1

/-- Two days after the epoch. -/
def twoDays : Time := 172800000000000

theorem entry_deletedKey {hold id : String} {st : Stored} :
    (deletedKey hold).entry id = some st ↔
      (id = "v1" ∧ st = ([], heldVersion hold)) ∨ (id = "v2" ∧ st = ([], oldMarker)) := by
  have hentry : (deletedKey hold).entry id = (deletedKey hold).versions[id]? := by
    simp [KeyRecord.entry, deletedKey]
  rw [hentry, deletedKey, Table.getElem?_set, Table.getElem?_set]
  by_cases h₂ : id = "v2"
  · subst h₂
    simp [eq_comm]
  · by_cases h₁ : id = "v1"
    · subst h₁
      simp [eq_comm]
    · simp [h₁, h₂]

theorem keyed_deletedKey (hold : String) : (deletedKey hold).Keyed ['k'] where
  current := nofun
  version id data o h := by
    have hentry : (deletedKey hold).entry id = some (data, o) := by
      rw [KeyRecord.entry, h]
      rfl
    rcases entry_deletedKey.1 hentry with ⟨rfl, heq⟩ | ⟨rfl, heq⟩
    · cases heq
      exact ⟨rfl, rfl, by decide⟩
    · cases heq
      exact ⟨rfl, rfl, by decide⟩

theorem record_deletedVault (hold : String) (key : Text) :
    (deletedVault hold).record "bucket" key = if key = ['k'] then deletedKey hold else {} := by
  by_cases h : key = ['k']
  · subst h
    simp [Vault.record, deletedVault, Bucket.record]
  · simp [Vault.record, deletedVault, Bucket.record, h]

theorem keyed_deletedVault (hold : String) (key : Text) :
    ((deletedVault hold).record "bucket" key).Keyed key := by
  rw [record_deletedVault]
  split
  · next h => exact h ▸ keyed_deletedKey hold
  · exact ⟨nofun, fun id data o h ↦ by simp at h⟩

theorem mem_list_deletedKey {hold : String} {o : Object} :
    o ∈ (deletedKey hold).list ['k'] ↔ o = heldVersion hold ∨ o = oldMarker := by
  rw [(keyed_deletedKey hold).mem_list]
  constructor
  · rintro ⟨id, data, hentry⟩
    rcases entry_deletedKey.1 hentry with ⟨-, heq⟩ | ⟨-, heq⟩
    · exact .inl (congrArg Prod.snd heq)
    · exact .inr (congrArg Prod.snd heq)
  · rintro (rfl | rfl)
    · exact ⟨"v1", [], entry_deletedKey.2 (.inl ⟨rfl, rfl⟩)⟩
    · exact ⟨"v2", [], entry_deletedKey.2 (.inr ⟨rfl, rfl⟩)⟩

theorem expirable_oldMarker : expirable .simple twoDays 1 oldMarker = true := by decide

/-- **Without a legal hold both versions go**, and the key stays deleted. -/
theorem unprotected_key_stays_deleted :
    NoncurrentOnly .simple twoDays afterOneDay (deletedVault "OFF")
      (applyNoncurrentVersionRule .simple twoDays "bucket" afterOneDay (deletedVault "OFF")).2 := by
  refine (noncurrent_expiration_keeps_view_iff (keyed_deletedVault "OFF")).2 ?_
  rintro days key hdays - - -
  cases hdays
  have hheld : expirable .simple twoDays 1 (heldVersion "OFF") = true := by decide
  rw [record_deletedVault]
  split
  · next h =>
    subst h
    have hnil : ((deletedKey "OFF").list ['k']).filter (!expirable .simple twoDays 1 ·) = [] := by
      refine List.filter_eq_nil_iff.2 fun o ho ↦ ?_
      rcases mem_list_deletedKey.1 ho with rfl | rfl
      · simp [hheld]
      · simp [expirable_oldMarker]
    rw [hnil]
    rfl
  · rw [list_empty_record]
    rfl

/-- **A protected version is brought back**: the rule removes the delete marker, which is old and
not protected, and the version under a legal hold becomes current. -/
theorem protected_key_comes_back :
    ((deletedVault "ON").record "bucket" ['k']).current = none ∧
    ((applyNoncurrentVersionRule .simple twoDays "bucket" afterOneDay
      (deletedVault "ON")).2.record "bucket" ['k']).metadata = some (heldVersion "ON") ∧
    ¬ NoncurrentOnly .simple twoDays afterOneDay (deletedVault "ON")
      (applyNoncurrentVersionRule .simple twoDays "bucket" afterOneDay (deletedVault "ON")).2 := by
  have hkeyed := keyed_deletedKey "ON"
  have hrecord : (deletedVault "ON").record "bucket" ['k'] = deletedKey "ON" := by
    rw [record_deletedVault, if_pos rfl]
  have hheld : expirable .simple twoDays 1 (heldVersion "ON") = false := by decide
  obtain ⟨-, hhere⟩ := @record_applyNoncurrentVersionRule "bucket" (deletedVault "ON") _ 1 afterOneDay
    .simple twoDays rfl rfl
  have hexpired := expiredRecord_expired .simple twoDays 1 hkeyed
  have hmem : oldMarker ∈ sortVersions ((deletedKey "ON").list ['k']) :=
    (List.mergeSort_perm _ _).mem_iff.2 (mem_list_deletedKey.2 (.inr rfl))
  have hsettled := hexpired.settled rfl ⟨_, hmem, expirable_oldMarker⟩
  -- what is left is the version under the legal hold
  have hleft : latestVersion ((expiredRecord .simple twoDays 1 ['k'] (deletedKey "ON")).list ['k']) =
      latestVersion [heldVersion "ON"] := by
    refine KeyRecord.latestVersion_congr (fun x hx y hy ↦ hexpired.keyed.list_inj hx hy) fun x ↦ ?_
    rw [hexpired.mem_list_of_none hkeyed (List.mergeSort_perm _ _) rfl, List.mem_filter,
      mem_list_deletedKey, List.mem_singleton]
    constructor
    · rintro ⟨rfl | rfl, hp⟩
      · rfl
      · rw [expirable_oldMarker] at hp
        cases hp
    · rintro rfl
      exact ⟨.inl rfl, by rw [hheld]; rfl⟩
  have hback : ((applyNoncurrentVersionRule .simple twoDays "bucket" afterOneDay
      (deletedVault "ON")).2.record "bucket" ['k']).metadata = some (heldVersion "ON") := by
    have hmatch : ruleMatchesFilter afterOneDay ['k'] (objectTags (deletedKey "ON")) = true := rfl
    rw [hhere ['k'], hrecord, if_pos hmatch, hsettled, hleft]
    decide
  refine ⟨by rw [hrecord]; rfl, hback, fun h ↦ ?_⟩
  have hview := h.view "bucket" ['k']
  rw [hrecord] at hview
  rw [KeyRecord.metadata, hview] at hback
  cases hback

end Lifecycle

end Sqrzl
