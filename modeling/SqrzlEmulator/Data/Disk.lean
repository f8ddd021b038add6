import SqrzlEmulator.Data.Table
import Mathlib.Data.List.Infix
import Mathlib.Data.List.Nodup

/-!
# A file tree and its calls

A disk is a table of nodes by their paths, and a path is the list of its components. The directory
above everything, with the empty path, is always there.

Every call of this module is a program of single steps, so a process can be killed between any two
of them: `createDirAll` makes one directory at a time, and `removeDirAll` removes one entry at a
time, in an order nobody controls.

## Two kinds of failure

A call fails when the disk refuses it, and it may also fail for a reason that the model does not
know (`fault`), before it has changed anything. A query that only asks what is there does not report
a failure: it answers `false`. `Queries` says whether queries can fail, so a statement can be made
with and without this.
-/

/-- The components of a path. -/
abbrev DiskPath : Type := List String

/-- An entry of a directory. -/
inductive Node (κ : Type) : Type where
  | directory
  | file (content : κ)
  deriving DecidableEq

/-- A file tree. -/
abbrev Disk (κ : Type) : Type := Table DiskPath (Node κ)

/-- Whether the calls that only ask for the kind of an entry can fail. One that fails answers
`false`. -/
inductive Queries where
  | answered
  | failing
  deriving DecidableEq

namespace Disk

variable {κ ω ε α : Type}

/-! ### Reading a disk -/

/-- The content of the file at a path. -/
def file (d : Disk κ) (p : DiskPath) : Option κ :=
  match d[p]? with
  | some (.file c) => some c
  | _ => none

/-- `is_dir` -/
def isDir (d : Disk κ) (p : DiskPath) : Bool :=
  match p, d[p]? with
  | [], _ => true
  | _, some .directory => true
  | _, _ => false

/-- `is_file` -/
def isFile (d : Disk κ) (p : DiskPath) : Bool := (d.file p).isSome

/-- There is an entry of any kind at a path. -/
def present (d : Disk κ) (p : DiskPath) : Bool := d.isDir p || d.isFile p

/-- The names in a directory. -/
def entries (d : Disk κ) (p : DiskPath) : List String :=
  d.keys.filterMap fun q ↦ if q.dropLast = p then q.getLast? else none

/-- The paths strictly below a path. -/
def below (d : Disk κ) (p : DiskPath) : List DiskPath :=
  d.keys.filter fun q ↦ p.isPrefixOf q && q ≠ p

/-! ### Single changes -/

/-- Make a directory, unless it is there. -/
def mkdir (p : DiskPath) (d : Disk κ) : Option (Disk κ) :=
  match d[p]? with
  | none => some (d.set p (some .directory))
  | some .directory => some d
  | some (.file _) => none

/-- Create a file that must not be there, in a directory that must be. -/
def createNew (p : DiskPath) (c : κ) (d : Disk κ) : Option (Disk κ) :=
  if d.isDir p.dropLast && (d[p]?).isNone then some (d.set p (some (.file c))) else none

/-- Replace the content of a file. -/
def write (p : DiskPath) (c : κ) (d : Disk κ) : Option (Disk κ) :=
  if d.isFile p then some (d.set p (some (.file c))) else none

/-- Write a file, which may be there or not. -/
def put (p : DiskPath) (c : κ) (d : Disk κ) : Option (Disk κ) :=
  if d.isDir p || !d.isDir p.dropLast then none else some (d.set p (some (.file c)))

/-- Move a file, over whatever file is at its new path. -/
def rename (p q : DiskPath) (d : Disk κ) : Option (Disk κ) :=
  match d.file p with
  | some c =>
    if d.isDir q || !d.isDir q.dropLast then none
    else some ((d.set p none).set q (some (.file c)))
  | none => none

/-- Remove a file if there is one; a directory at its path is an error. -/
def unlink (p : DiskPath) (d : Disk κ) : Option (Disk κ) :=
  if d.isDir p then none else some (d.set p none)

/-- Remove an entry, which must be empty when it is a directory. -/
def removeEntry (p : DiskPath) (d : Disk κ) : Option (Disk κ) :=
  if (d.below p).isEmpty then some (d.set p none) else none

/-! ### Calls -/

/-- A call that changes nothing and may fail. -/
def fault (e : ε) : Prog ω ε (Disk κ) Unit :=
  .choose fun n ↦ if n = 0 then .ret () else .fail e

/-- A call that changes the disk, and fails when the disk refuses it or for a reason of its own. -/
def call (e : ε) (f : Disk κ → Option (Disk κ)) : Prog ω ε (Disk κ) Unit :=
  (fault e).bind fun _ ↦ .sys e f

/-- A question about the disk. -/
def query (queries : Queries) (g : Disk κ → Bool) : Prog ω ε (Disk κ) Bool :=
  match queries with
  | .answered => .read g
  | .failing => .choose fun n ↦ if n = 0 then .read g else .ret false

/-- Make a directory and those above it that are missing. -/
def createDirAll (e : ε) (p : DiskPath) : Prog ω ε (Disk κ) Unit :=
  Prog.forEach p.inits.tail fun q ↦ call e (mkdir q)

/-- The names in a directory, in an order nobody controls. -/
def readDir (e : ε) (p : DiskPath) : Prog ω ε (Disk κ) (List String) :=
  (fault e).bind fun _ ↦ (Prog.sysRead e fun d ↦ if d.isDir p then some (d.entries p) else none).bind
    Prog.shuffled

/-- The content of a file. -/
def readFile (e : ε) (p : DiskPath) : Prog ω ε (Disk κ) κ :=
  (fault e).bind fun _ ↦ Prog.sysRead e fun d ↦ d.file p

/-- Remove everything in a directory. -/
def clearDir (e : ε) (p : DiskPath) : Prog ω ε (Disk κ) Unit :=
  (fault e).bind fun _ ↦ (Prog.sysRead e fun d ↦ if d.isDir p then some (d.below p) else none).bind
    fun l ↦ (Prog.shuffled l).bind fun l ↦ Prog.forEach l fun q ↦ call e (removeEntry q)

/-- Remove a directory with everything in it. -/
def removeDirAll (e : ε) (p : DiskPath) : Prog ω ε (Disk κ) Unit :=
  (fault e).bind fun _ ↦ (Prog.sysRead e fun d ↦ if d.isDir p then some (d.below p) else none).bind
    fun l ↦ (Prog.shuffled l).bind fun l ↦
      (Prog.forEach l fun q ↦ call e (removeEntry q)).bind fun _ ↦ call e (removeEntry p)

/-! ### Facts about single changes -/

section Facts

variable {d d' : Disk κ} {p q : DiskPath} {c : κ}

theorem file_eq_some : d.file p = some c ↔ d[p]? = some (.file c) := by
  unfold file
  split
  · next c' h => simp [h]
  · next h => simpa using fun h' ↦ h c h'

@[simp] theorem file_set (n : Option (Node κ)) : Disk.file (Table.set d p n) q =
    if q = p then (match n with | some (.file c) => some c | _ => none) else d.file q := by
  unfold file
  rw [Table.getElem?_set]
  by_cases h : q = p
  · rw [if_pos h, if_pos h]
  · rw [if_neg h, if_neg h]

theorem isDir_eq_true : d.isDir p = true ↔ p = [] ∨ d[p]? = some .directory := by
  unfold isDir
  split <;> simp_all

theorem isFile_eq_true : d.isFile p = true ↔ ∃ c, d.file p = some c := by
  rw [isFile, Option.isSome_iff_exists]

theorem not_isDir_of_file (h : d.file p = some c) (hp : p ≠ []) : d.isDir p = false := by
  rw [Bool.eq_false_iff]
  intro hd
  rcases isDir_eq_true.1 hd with rfl | hd
  · exact hp rfl
  · rw [file_eq_some.1 h] at hd
    simp at hd

theorem mem_entries {x : String} : x ∈ d.entries p ↔ (d[p ++ [x]]?).isSome := by
  unfold entries
  rw [List.mem_filterMap, ← Table.mem_keys]
  constructor
  · rintro ⟨q, hq, hx⟩
    by_cases h : q.dropLast = p
    · rw [if_pos h] at hx
      rw [← h, List.dropLast_append_getLast? x hx]
      exact hq
    · rw [if_neg h] at hx
      exact absurd hx (by simp)
  · intro h
    exact ⟨_, h, by simp⟩

theorem nodup_entries : (d.entries p).Nodup := by
  unfold entries
  refine List.Nodup.filterMap (fun q q' x hx hx' ↦ ?_) (Table.nodup_keys d)
  by_cases hq : q.dropLast = p
  · by_cases hq' : q'.dropLast = p
    · rw [if_pos hq] at hx
      rw [if_pos hq'] at hx'
      rw [← List.dropLast_append_getLast? x hx, ← List.dropLast_append_getLast? x hx', hq, hq']
    · rw [if_neg hq'] at hx'
      cases hx'
  · rw [if_neg hq] at hx
    cases hx

/-- What the entries of a directory contribute is the same list on two disks, when an entry that is
on one of them only contributes nothing. -/
theorem filterMap_entries_congr {β : Type} {g : String → Option β}
    (h : ∀ x, (g x).isSome → (x ∈ d.entries p ↔ x ∈ d'.entries p)) :
    (d.entries p).filterMap g = (d'.entries p).filterMap g := by
  unfold entries
  rw [List.filterMap_filterMap, List.filterMap_filterMap]
  refine Table.filterMap_keys_congr fun q hq ↦ ?_
  by_cases hp : q.dropLast = p
  · rw [if_pos hp] at hq
    cases hx : q.getLast? with
    | none => simp [hx] at hq
    | some x =>
      rw [hx] at hq
      have hmem := h x hq
      rw [mem_entries, mem_entries, ← hp, List.dropLast_append_getLast? x hx] at hmem
      rw [Table.mem_keys, Table.mem_keys]
      exact hmem
  · rw [if_neg hp] at hq
    simp at hq

theorem mem_below : q ∈ d.below p ↔ (d[q]?).isSome ∧ p <+: q ∧ q ≠ p := by
  unfold below
  rw [List.mem_filter, Table.mem_keys]
  simp

theorem mkdir_eq_some (h : mkdir p d = some d') :
    (d[p]? = some .directory ∧ d' = d) ∨ (d[p]? = none ∧ d' = d.set p (some .directory)) := by
  unfold mkdir at h
  split at h
  · next hn => exact .inr ⟨hn, (Option.some.inj h).symm⟩
  · next hn => exact .inl ⟨hn, (Option.some.inj h).symm⟩
  · exact absurd h (by simp)

theorem createNew_eq_some (h : createNew p c d = some d') :
    d[p]? = none ∧ d' = d.set p (some (.file c)) := by
  unfold createNew at h
  split at h
  · next hc =>
    rw [Bool.and_eq_true, Option.isNone_iff_eq_none] at hc
    exact ⟨hc.2, (Option.some.inj h).symm⟩
  · exact absurd h (by simp)

theorem write_eq_some (h : write p c d = some d') : d' = d.set p (some (.file c)) := by
  unfold write at h
  split at h
  · exact (Option.some.inj h).symm
  · exact absurd h (by simp)

theorem rename_eq_some (h : rename p q d = some d') : ∃ c, d.file p = some c ∧
    d.isDir q = false ∧ d' = (d.set p none).set q (some (.file c)) := by
  unfold rename at h
  split at h
  · next c hc =>
    split at h
    · exact absurd h (by simp)
    · next hq =>
      simp only [Bool.or_eq_true, not_or, Bool.not_eq_true] at hq
      exact ⟨c, hc, hq.1, (Option.some.inj h).symm⟩
  · exact absurd h (by simp)

theorem unlink_eq_some (h : unlink p d = some d') :
    d.isDir p = false ∧ d' = d.set p none := by
  unfold unlink at h
  split at h
  · exact absurd h (by simp)
  · next hd => exact ⟨by simpa using hd, (Option.some.inj h).symm⟩

theorem removeEntry_eq_some (h : removeEntry p d = some d') :
    d.below p = [] ∧ d' = d.set p none := by
  unfold removeEntry at h
  split at h
  · next hb => exact ⟨by simpa using hb, (Option.some.inj h).symm⟩
  · exact absurd h (by simp)

end Facts

/-! ### Rules -/

section Rules

variable {I : Disk κ → Prop} {d : Disk κ} {p : DiskPath} {e : ε}

@[simp] theorem wp_fault {Q : Except ε Unit → Disk κ → Prop} :
    Prog.wp I (fault e : Prog ω ε (Disk κ) Unit) Q d ↔ I d ∧ Q (.ok ()) d ∧ Q (.error e) d := by
  rw [fault, Prog.wp_choose]
  constructor
  · intro h
    have h₀ := h 0
    have h₁ := h 1
    rw [if_pos rfl, Prog.wp_ret] at h₀
    rw [if_neg (by decide), Prog.wp_fail] at h₁
    exact ⟨h₀.1, h₀.2, h₁.2⟩
  · rintro ⟨hI, hok, herr⟩ n
    split
    · exact ⟨hI, hok⟩
    · exact ⟨hI, herr⟩

/-- A call fails without a change, or makes its change. -/
theorem wp_call {f : Disk κ → Option (Disk κ)} {Q : Except ε Unit → Disk κ → Prop} (hI : I d)
    (herr : Q (.error e) d) (hok : ∀ d', f d = some d' → I d' ∧ Q (.ok ()) d') :
    Prog.wp I (call e f : Prog ω ε (Disk κ) Unit) Q d := by
  rw [call, Prog.wp_bind, wp_fault]
  refine ⟨hI, ?_, herr⟩
  simp only [Prog.sys, Prog.wp_io]
  refine ⟨hI, ?_⟩
  split
  · next d' hf => exact hok d' hf
  · exact ⟨hI, herr⟩

/-- A call that changes nothing, and what follows it. -/
theorem wp_fault_bind {g : Unit → Prog ω ε (Disk κ) α} {Q : Except ε α → Disk κ → Prop} (hI : I d)
    (herr : Q (.error e) d) (hok : Prog.wp I (g ()) Q d) :
    Prog.wp I (fault e >>= g) Q d := by
  rw [Prog.bind_eq, Prog.wp_bind, wp_fault]
  exact ⟨hI, hok, herr⟩

/-- A call, and what follows it. -/
theorem wp_call_bind {f : Disk κ → Option (Disk κ)} {g : Unit → Prog ω ε (Disk κ) α}
    {Q : Except ε α → Disk κ → Prop} (hI : I d) (herr : Q (.error e) d)
    (hok : ∀ d', f d = some d' → Prog.wp I (g ()) Q d') : Prog.wp I (call e f >>= g) Q d := by
  rw [Prog.bind_eq, Prog.wp_bind]
  exact wp_call hI herr fun d' hd' ↦ ⟨Prog.inv_of_wp (hok d' hd'), hok d' hd'⟩

@[simp] theorem wp_query_answered {g : Disk κ → Bool} {Q : Except ε Bool → Disk κ → Prop} :
    Prog.wp I (query .answered g : Prog ω ε (Disk κ) Bool) Q d ↔ I d ∧ Q (.ok (g d)) d :=
  Prog.wp_read

theorem wp_sysRead {g : Disk κ → Option α} {Q : Except ε α → Disk κ → Prop} (hI : I d)
    (herr : Q (.error e) d) (hok : ∀ a, g d = some a → Q (.ok a) d) :
    Prog.wp I (Prog.sysRead e g : Prog ω ε (Disk κ) α) Q d := by
  rw [Prog.sysRead, Prog.bind_eq, Prog.wp_bind, Prog.wp_read]
  refine ⟨hI, ?_⟩
  cases hg : g d with
  | none => exact ⟨hI, herr⟩
  | some a => exact ⟨hI, hok a hg⟩

theorem wp_readDir {Q : Except ε (List String) → Disk κ → Prop} (hI : I d)
    (herr : Q (.error e) d)
    (hok : d.isDir p = true → ∀ l, l.Perm (d.entries p) → Q (.ok l) d) :
    Prog.wp I (readDir e p : Prog ω ε (Disk κ) (List String)) Q d := by
  rw [readDir, Prog.wp_bind, wp_fault]
  refine ⟨hI, ?_, herr⟩
  rw [Prog.wp_bind]
  refine wp_sysRead hI herr fun l hl ↦ ?_
  split at hl
  · next hd =>
    cases hl
    exact Prog.wp_shuffled hI (hok hd)
  · exact absurd hl (by simp)

theorem wp_readFile {Q : Except ε κ → Disk κ → Prop} (hI : I d) (herr : Q (.error e) d)
    (hok : ∀ c, d.file p = some c → Q (.ok c) d) :
    Prog.wp I (readFile e p : Prog ω ε (Disk κ) κ) Q d := by
  rw [readFile, Prog.wp_bind, wp_fault]
  exact ⟨hI, wp_sysRead hI herr hok, herr⟩

theorem mem_inits_tail {q : DiskPath} : q ∈ p.inits.tail ↔ q <+: p ∧ q ≠ [] := by
  rw [← List.mem_inits]
  rcases p with - | ⟨x, p⟩
  · simp
  · simp [List.inits]
    grind

/-- Making a directory adds directories at paths above it where nothing was, and in the end there
is a directory at each of these paths. -/
theorem wp_createDirAll {J : Disk κ → Prop} {Q : Except ε Unit → Disk κ → Prop}
    (hI : ∀ t, J t → I t)
    (hstep : ∀ t q, q <+: p → q ≠ [] → J t → t[q]? = none → J (t.set q (some .directory)))
    (herr : ∀ t, J t → Q (.error e) t)
    (hok : ∀ t, J t → (∀ q, q <+: p → t.isDir q = true) → Q (.ok ()) t) (hd : J d) :
    Prog.wp I (createDirAll e p : Prog ω ε (Disk κ) Unit) Q d := by
  rw [createDirAll]
  refine Prog.wp_forEach
    (J := fun l t ↦ (∀ q ∈ l, q <+: p ∧ q ≠ []) ∧ J t ∧ ∀ q, q <+: p → q ∈ l ∨ t.isDir q = true)
    ?_ ?_ _ ⟨fun q ↦ mem_inits_tail.1, hd, fun q hq ↦ ?_⟩
  · rintro q l t ⟨hl, ht, hdir⟩
    refine wp_call (hI t ht) (herr t ht) fun t' ht' ↦ ?_
    have hq := hl q (by simp)
    obtain ⟨hJ, hmade⟩ : J t' ∧ ∀ q', q' = q ∨ t.isDir q' = true → t'.isDir q' = true := by
      rcases mkdir_eq_some ht' with ⟨hn, rfl⟩ | ⟨hn, rfl⟩
      · refine ⟨ht, ?_⟩
        rintro q' (rfl | h)
        · exact isDir_eq_true.2 (.inr hn)
        · exact h
      · refine ⟨hstep t q hq.1 hq.2 ht hn, fun q' h ↦ isDir_eq_true.2 ?_⟩
        rw [isDir_eq_true] at h
        rw [Table.getElem?_set]
        by_cases hqq : q' = q
        · exact .inr (if_pos hqq)
        · rw [if_neg hqq]
          exact h.resolve_left hqq
    refine ⟨hI _ hJ, fun q hq ↦ hl q (by simp [hq]), hJ, fun q' hq' ↦ ?_⟩
    rcases hdir q' hq' with h | h
    · rcases List.mem_cons.1 h with h | h
      · exact .inr (hmade q' (.inl h))
      · exact .inl h
    · exact .inr (hmade q' (.inr h))
  · rintro t ⟨-, ht, hdir⟩
    exact ⟨hI t ht, hok t ht fun q hq ↦ (hdir q hq).resolve_left (by simp)⟩
  · by_cases h : q = []
    · exact .inr (isDir_eq_true.2 (.inl h))
    · exact .inl (mem_inits_tail.2 ⟨hq, h⟩)

/-- Removing entries, each of which must be empty. -/
theorem wp_removeEntries {J : Disk κ → Prop} {Q : Except ε Unit → Disk κ → Prop} {l : List DiskPath}
    (hI : ∀ t, J t → I t) (hstep : ∀ t, ∀ q ∈ l, J t → t.below q = [] → J (t.set q none))
    (herr : ∀ t, J t → Q (.error e) t) (hok : ∀ t, J t → Q (.ok ()) t) (hd : J d) :
    Prog.wp I (Prog.forEach l fun q ↦ (call e (removeEntry q) : Prog ω ε (Disk κ) Unit)) Q d := by
  refine Prog.wp_forEach (J := fun l' t ↦ (∀ q ∈ l', q ∈ l) ∧ J t) ?_ ?_ _ ⟨fun _ hq ↦ hq, hd⟩
  · rintro q l' t ⟨hl, ht⟩
    refine wp_call (hI t ht) (herr t ht) fun t' ht' ↦ ?_
    obtain ⟨hb, rfl⟩ := removeEntry_eq_some ht'
    have hJ := hstep t q (hl q (by simp)) ht hb
    exact ⟨hI _ hJ, fun q hq ↦ hl q (by simp [hq]), hJ⟩
  · rintro t ⟨-, ht⟩
    exact ⟨hI t ht, hok t ht⟩

/-- Clearing a directory removes entries below it, each after those below it. -/
theorem wp_clearDir {J : Disk κ → Prop} {Q : Except ε Unit → Disk κ → Prop}
    (hI : ∀ t, J t → I t)
    (hstep : ∀ t q, p <+: q → q ≠ p → J t → t.below q = [] → J (t.set q none))
    (herr : ∀ t, J t → Q (.error e) t) (hok : ∀ t, J t → Q (.ok ()) t) (hd : J d) :
    Prog.wp I (clearDir e p : Prog ω ε (Disk κ) Unit) Q d := by
  rw [clearDir, Prog.wp_bind, wp_fault]
  refine ⟨hI d hd, ?_, herr d hd⟩
  rw [Prog.wp_bind]
  refine wp_sysRead (hI d hd) (herr d hd) fun l hl ↦ ?_
  split at hl
  · cases hl
    show Prog.wp I (Prog.bind _ _) Q d
    rw [Prog.wp_bind]
    refine Prog.wp_shuffled (hI d hd) fun l' hl' ↦ ?_
    refine wp_removeEntries hI (fun t q hq ↦ ?_) herr hok hd
    have hmem := mem_below.1 (hl'.mem_iff.1 hq)
    exact hstep t q hmem.2.1 hmem.2.2
  · cases hl

/-- Removing a directory removes entries at and below it, each after those below it. -/
theorem wp_removeDirAll {J : Disk κ → Prop} {Q : Except ε Unit → Disk κ → Prop}
    (hI : ∀ t, J t → I t)
    (hstep : ∀ t q, p <+: q → J t → t.below q = [] → J (t.set q none))
    (herr : ∀ t, J t → Q (.error e) t) (hok : ∀ t, J t → t[p]? = none → Q (.ok ()) t) (hd : J d) :
    Prog.wp I (removeDirAll e p : Prog ω ε (Disk κ) Unit) Q d := by
  rw [removeDirAll, Prog.wp_bind, wp_fault]
  refine ⟨hI d hd, ?_, herr d hd⟩
  rw [Prog.wp_bind]
  refine wp_sysRead (hI d hd) (herr d hd) fun l hl ↦ ?_
  have hmem : ∀ q ∈ l, p <+: q := by
    intro q hq
    split at hl
    · cases hl
      exact (mem_below.1 hq).2.1
    · exact absurd hl (by simp)
  show Prog.wp I (Prog.bind _ _) Q d
  rw [Prog.wp_bind]
  refine Prog.wp_shuffled (hI d hd) fun l' hl' ↦ ?_
  show Prog.wp I (Prog.bind _ _) Q d
  rw [Prog.wp_bind]
  refine wp_removeEntries hI (fun t q hq ↦ hstep t q (hmem q (hl'.mem_iff.1 hq))) herr ?_ hd
  intro t ht
  refine wp_call (hI t ht) (herr t ht) fun t' ht' ↦ ?_
  obtain ⟨hb, rfl⟩ := removeEntry_eq_some ht'
  have hJ := hstep t p (List.prefix_refl p) ht hb
  exact ⟨hI _ hJ, hok _ hJ (by simp)⟩

end Rules

end Disk
