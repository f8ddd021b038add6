import SqrzlEmulator.Prog.Logic
import Mathlib.Data.Set.Function

/-!
# Tables

Finite maps, as the extensional tree maps of the standard library: two tables are equal when they
answer every lookup alike. `Table.set` replaces the answer for one key, absence included, and
`Table.at` is the corresponding part of a state.

A table may be kept under a hash of its keys. As long as the hash tells the keys in use apart, what is
kept under a hash (`Table.underHash`) is what the table answers for the key.
-/

/-- A finite map. -/
abbrev Table (κ α : Type) [Ord κ] : Type := Std.ExtTreeMap κ α

namespace Table

variable {κ α : Type} [Ord κ] [Std.TransOrd κ] [Std.LawfulEqOrd κ] [DecidableEq κ]

/-- Replace what a table answers for one key. -/
def set (m : Table κ α) (k : κ) (v : Option α) : Table κ α :=
  m.alter k fun _ ↦ v

@[simp] theorem getElem?_set (m : Table κ α) (k k' : κ) (v : Option α) :
    (m.set k v)[k']? = if k' = k then v else m[k']? := by
  rw [set, Std.ExtTreeMap.getElem?_alter]
  by_cases h : k' = k
  · simp [h]
  · have hne : ¬ compare k k' = .eq := fun heq ↦ h (Std.LawfulEqOrd.eq_of_compare heq).symm
    simp [h, hne]

@[simp] theorem set_set (m : Table κ α) (k : κ) (v w : Option α) :
    (m.set k w).set k v = m.set k v := by
  refine Std.ExtTreeMap.ext_getElem? fun k' ↦ ?_
  simp only [getElem?_set]
  split <;> rfl

theorem set_eq_self (m : Table κ α) {k : κ} {v : Option α} (h : m[k]? = v) : m.set k v = m := by
  refine Std.ExtTreeMap.ext_getElem? fun k' ↦ ?_
  rw [getElem?_set]
  split
  · next hk => rw [hk, h]
  · rfl

@[simp] theorem set_getElem? (m : Table κ α) (k : κ) : m.set k m[k]? = m :=
  m.set_eq_self rfl

/-- The answer for one key, as a part of the table. -/
@[simps] def «at» (k : κ) : Prog.Lens (Table κ α) (Option α) where
  get m := m[k]?
  set v m := m.set k v
  get_set v m := by simp
  set_set v w m := by simp

omit [DecidableEq κ] in
theorem mem_keys {m : Table κ α} {k : κ} : k ∈ m.keys ↔ (m[k]?).isSome := by
  rw [Std.ExtTreeMap.mem_keys, Std.ExtTreeMap.isSome_getElem?_iff_mem]

omit [DecidableEq κ] in
theorem nodup_keys (m : Table κ α) : m.keys.Nodup := by
  refine m.distinct_keys.imp fun h heq ↦ h ?_
  rw [heq]
  exact Std.ReflCmp.compare_self

omit [DecidableEq κ] in
/-- What the keys of two tables contribute is the same list, when a key that is in one of them only
contributes nothing. -/
theorem filterMap_keys_congr {β : Type} {m m' : Table κ α} {F : κ → Option β}
    (h : ∀ k, (F k).isSome → (k ∈ m.keys ↔ k ∈ m'.keys)) :
    m.keys.filterMap F = m'.keys.filterMap F := by
  have hfilter : ∀ l : List κ, l.filterMap F = (l.filter fun k ↦ (F k).isSome).filterMap F := by
    intro l
    rw [List.filterMap_filter]
    congr 1
    funext k
    cases hk : F k <;> simp
  have hsorted : ∀ m : Table κ α, (m.keys.filter fun k ↦ (F k).isSome).Pairwise
      fun a b ↦ compare a b = .lt := fun m ↦ m.ordered_keys.filter _
  rw [hfilter m.keys, hfilter m'.keys]
  congr 1
  refine List.Perm.eq_of_pairwise (fun a b _ _ hab hba ↦ ?_) (hsorted m) (hsorted m') ?_
  · have hswap : compare b a = (compare a b).swap := Std.OrientedCmp.eq_swap
    rw [hswap, hab] at hba
    exact absurd hba (by simp)
  · rw [List.perm_ext_iff_of_nodup ((nodup_keys m).filter _) ((nodup_keys m').filter _)]
    intro k
    rw [List.mem_filter, List.mem_filter]
    exact ⟨fun hk ↦ ⟨(h k hk.2).1 hk.1, hk.2⟩, fun hk ↦ ⟨(h k hk.2).2 hk.1, hk.2⟩⟩

omit [DecidableEq κ] in
theorem eq_empty_iff {m : Table κ α} : m = ∅ ↔ ∀ k : κ, ¬ (m[k]?).isSome := by
  constructor
  · rintro rfl
    simp
  · intro h
    refine Std.ExtTreeMap.ext_getElem? fun k ↦ ?_
    simpa using h k

/-! ### Tables under a hash -/

section Hash

variable {ι : Type} [DecidableEq ι] {h : κ → ι} {m : Table κ α} {k : κ} {i : ι}

/-- What a table keeps under a hash of its keys. -/
def underHash (h : κ → ι) (m : Table κ α) (i : ι) : Option α :=
  (m.toList.find? fun entry ↦ h entry.1 = i).map Prod.snd

omit [DecidableEq κ] in
/-- If the hash tells the keys of a table apart, an entry is kept under one hash only. -/
theorem underHash_eq_some_iff (hinj : Set.InjOn h {k | (m[k]?).isSome}) {a : α} :
    m.underHash h i = some a ↔ ∃ k, h k = i ∧ m[k]? = some a := by
  rw [underHash, Option.map_eq_some_iff]
  constructor
  · rintro ⟨⟨k, b⟩, hfind, rfl⟩
    have hhash : h k = i := by simpa using List.find?_some hfind
    exact ⟨k, hhash, Std.ExtTreeMap.mem_toList_iff_getElem?_eq_some.1 (List.mem_of_find?_eq_some hfind)⟩
  · rintro ⟨k, rfl, hk⟩
    have hmem : (k, a) ∈ m.toList := Std.ExtTreeMap.mem_toList_iff_getElem?_eq_some.2 hk
    obtain ⟨⟨k', b⟩, hfind⟩ : ∃ entry, (m.toList.find? fun entry ↦ h entry.1 = h k) = some entry :=
      Option.isSome_iff_exists.1 (List.find?_isSome.2 ⟨_, hmem, by simp⟩)
    have hhash : h k' = h k := by simpa using List.find?_some hfind
    have hk' : m[k']? = some b :=
      Std.ExtTreeMap.mem_toList_iff_getElem?_eq_some.1 (List.mem_of_find?_eq_some hfind)
    obtain rfl : k' = k := hinj (Option.isSome_of_eq_some hk') (Option.isSome_of_eq_some hk) hhash
    exact ⟨(k', b), hfind, Option.some_inj.1 (hk'.symm.trans hk)⟩

omit [DecidableEq κ] in
/-- **What is kept under the hash of a key** is what the table answers for it. -/
theorem underHash_hash (hinj : Set.InjOn h (insert k {k | (m[k]?).isSome})) :
    m.underHash h (h k) = m[k]? := by
  refine Option.ext fun a ↦ ?_
  rw [underHash_eq_some_iff (hinj.mono (Set.subset_insert _ _))]
  constructor
  · rintro ⟨k', hhash, hk'⟩
    rwa [← hinj (Or.inr (Option.isSome_of_eq_some hk')) (Or.inl rfl) hhash]
  · exact fun hk ↦ ⟨k, rfl, hk⟩

/-- **A replacement under a key** replaces what is kept under its hash, and nothing else. -/
theorem underHash_set (hinj : Set.InjOn h (insert k {k | (m[k]?).isSome})) (v : Option α) :
    (m.set k v).underHash h i = if i = h k then v else m.underHash h i := by
  have hset : Set.InjOn h {k' | ((m.set k v)[k']?).isSome} := by
    refine hinj.mono fun k' hk' ↦ ?_
    rw [Set.mem_ofPred_eq, getElem?_set] at hk'
    split at hk'
    · next heq => exact Or.inl heq
    · exact Or.inr hk'
  refine Option.ext fun a ↦ ?_
  rw [underHash_eq_some_iff hset]
  split
  · next hi =>
    subst hi
    constructor
    · rintro ⟨k', hhash, hk'⟩
      rw [getElem?_set] at hk'
      split at hk'
      · exact hk'
      · next hne => exact absurd (hinj (Or.inr (Option.isSome_of_eq_some hk')) (Or.inl rfl) hhash) hne
    · exact fun hv ↦ ⟨k, rfl, by rw [getElem?_set, if_pos rfl, hv]⟩
  · next hi =>
    rw [underHash_eq_some_iff (hinj.mono (Set.subset_insert _ _))]
    refine exists_congr fun k' ↦ and_congr_right fun hhash ↦ ?_
    rw [getElem?_set, if_neg]
    rintro rfl
    exact hi hhash.symm

end Hash

end Table
