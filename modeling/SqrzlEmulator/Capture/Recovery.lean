import SqrzlEmulator.Capture.Journal

/-!
# What recovery leaves

A transaction is *unfinished* when its directory is there and its marker is not. What its intent
lists is *left over*, and recovery removes it, then the directory. Nothing else is removed: `Swept`
says this of every state that a recovery passes through, and that **an intent is there as long as
one of its files is**, so a recovery that is cut off can be run again.

`Sound` is the invariant of the store. It holds for a log of the transactions that have been
committed: their files are in place, and none of them is left over from another transaction.
-/

namespace Sqrzl.Capture

variable {δ : Type} {root : DiskPath} {d t : Disk (Content δ)} {id : String}

/-! ### Unfinished transactions -/

/-- There is a directory of the transaction, and no marker in it. -/
def Unfinished (root : DiskPath) (d : Disk (Content δ)) (id : String) : Prop :=
  d.isDir (transactionDir root id) = true ∧ d.isFile (markerPath root id) = false

/-- The unfinished transaction has published an intent with these paths. -/
def Intends (root : DiskPath) (d : Disk (Content δ)) (id : String) (paths : List DiskPath) : Prop :=
  Unfinished root d id ∧ d.file (intentPath root id) = some (.intent paths)

/-- An unfinished transaction may have left a file at this path. -/
def Leftover (root : DiskPath) (d : Disk (Content δ)) (q : DiskPath) : Prop :=
  ∃ id paths, Intends root d id paths ∧ ∃ p ∈ paths, q = root ++ p

/-- What recovery may remove. -/
def Removable (root : DiskPath) (d : Disk (Content δ)) (q : DiskPath) : Prop :=
  Leftover root d q ∨ ∃ id, Unfinished root d id ∧ transactionDir root id <+: q

/-- The path is not inside the directory of a transaction. -/
def Placed (root q : DiskPath) : Prop :=
  ∀ id, transactionDir root id <+: q → q = transactionDir root id

/-- A committed transaction. -/
structure Captured (δ : Type) where
  id : String
  files : List (DiskPath × δ)

/-- The committed transactions of the log are in place, and nothing that an unfinished transaction
has left is one of their files. -/
structure Sound (root : DiskPath) (d : Disk (Content δ)) (log : List (Captured δ)) : Prop where
  marked : ∀ e ∈ log, d.isFile (markerPath root e.id) = true
  kept : ∀ e ∈ log, ∀ f ∈ e.files, d.file f.1 = some (.data f.2)
  placed : ∀ e ∈ log, ∀ f ∈ e.files, Placed root f.1
  leftover : ∀ q, Leftover root d q → Placed root q ∧ ∀ e ∈ log, ∀ f ∈ e.files, q ≠ f.1

/-- Nothing is unfinished. -/
structure Clean (root : DiskPath) (d : Disk (Content δ)) : Prop where
  directories : ∀ q, q <+: transactions root → d.isDir q = true
  finished : ∀ id, ¬ Unfinished root d id

/-- What recovery has made of a disk: some of what is left over has been removed, and directories
up to the one of all transactions have been made. -/
structure Swept (root : DiskPath) (d t : Disk (Content δ)) : Prop where
  nodes : ∀ q, t[q]? = d[q]? ∨ (t[q]? = none ∧ Removable root d q) ∨
    (d[q]? = none ∧ t[q]? = some .directory ∧ q <+: transactions root)
  intents : ∀ id paths, Intends root d id paths →
    Intends root t id paths ∨ ∀ p ∈ paths, t.file (root ++ p) = none

/-! ### Paths in transaction directories -/

theorem transactionDir_ne_nil : transactionDir root id ≠ [] := by
  simp [transactionDir]

theorem markerPath_eq : markerPath root id = transactionDir root id ++ ["committed"] := by
  simp [markerPath, transactionDir]

theorem intentPath_eq : intentPath root id = transactionDir root id ++ ["intent.json"] := by
  simp [intentPath, transactionDir]

theorem stagedIntentPath_eq :
    stagedIntentPath root id = transactionDir root id ++ ["intent.pending"] := by
  simp [stagedIntentPath, transactionDir]

theorem transactionDir_prefix_iff {id' : String} {rest : DiskPath} :
    transactionDir root id' <+: transactionDir root id ++ rest ↔ id' = id := by
  simp [transactionDir]

theorem not_transactionDir_prefix_transactions {q : DiskPath} (h : q <+: transactions root) :
    ¬ transactionDir root id <+: q := by
  intro h'
  have hlen := (h'.trans h).length_le
  simp [transactionDir, transactions] at hlen

/-- A path that is not inside a transaction directory is not one of its files. -/
theorem Placed.ne_append {q : DiskPath} (h : Placed root q) {rest : DiskPath} (hrest : rest ≠ []) :
    q ≠ transactionDir root id ++ rest := by
  rintro rfl
  have := h id (List.prefix_append _ _)
  simp [hrest] at this

theorem Placed.ne_markerPath {q : DiskPath} (h : Placed root q) : q ≠ markerPath root id := by
  rw [markerPath_eq]
  exact h.ne_append (by simp)

theorem Placed.ne_intentPath {q : DiskPath} (h : Placed root q) : q ≠ intentPath root id := by
  rw [intentPath_eq]
  exact h.ne_append (by simp)

/-! ### Changes that leave transactions alone -/

theorem isDir_congr {q : DiskPath} (h : t[q]? = d[q]?) : t.isDir q = d.isDir q := by
  rw [Bool.eq_iff_iff, Disk.isDir_eq_true, Disk.isDir_eq_true, h]

theorem file_congr {q : DiskPath} (h : t[q]? = d[q]?) : t.file q = d.file q := by
  rw [Disk.file, Disk.file, h]

theorem isFile_congr {q : DiskPath} (h : t[q]? = d[q]?) : t.isFile q = d.isFile q := by
  rw [Disk.isFile, Disk.isFile, file_congr h]

theorem isDir_set_none {q q' : DiskPath} (h : Disk.isDir (Table.set t q none) q' = true) :
    t.isDir q' = true := by
  rw [Disk.isDir_eq_true] at h ⊢
  rcases h with h | h
  · exact .inl h
  · rw [Table.getElem?_set] at h
    split at h
    · exact absurd h (by simp)
    · exact .inr h

theorem file_set_none {q q' : DiskPath} (h : t.file q' = none) :
    Disk.file (Table.set t q none) q' = none := by
  rw [Disk.file_set]
  split
  · rfl
  · exact h

/-! ### Swept disks -/

section Swept

variable {log : List (Captured δ)}

/-- A file of a committed transaction cannot be removed. -/
theorem Sound.not_removable (h : Sound root d log) {e : Captured δ} (he : e ∈ log) {f : DiskPath × δ}
    (hf : f ∈ e.files) : ¬ Removable root d f.1 := by
  rintro (hl | ⟨id, hid, hprefixed⟩)
  · exact (h.leftover _ hl).2 e he f hf rfl
  · have heq := h.placed e he f hf id hprefixed
    have hfile := h.kept e he f hf
    rw [heq] at hfile
    have hdir := Disk.not_isDir_of_file hfile transactionDir_ne_nil
    rw [hid.1] at hdir
    exact absurd hdir (by simp)

/-- Nor can the marker of a transaction. -/
theorem Sound.marker_not_removable (h : Sound root d log)
    (hid : d.isFile (markerPath root id) = true) : ¬ Removable root d (markerPath root id) := by
  rintro (hl | ⟨id', hid', hprefixed⟩)
  · exact (h.leftover _ hl).1.ne_markerPath rfl
  · rw [markerPath_eq, transactionDir_prefix_iff] at hprefixed
    rw [← hprefixed, hid'.2] at hid
    exact absurd hid (by simp)

/-- A file that cannot be removed is still there. -/
theorem Swept.file_eq (h : Swept root d t) {q : DiskPath} {c : Content δ} (hq : d.file q = some c)
    (hr : ¬ Removable root d q) : t.file q = some c := by
  have hn := Disk.file_eq_some.1 hq
  rcases h.nodes q with h | ⟨-, h⟩ | ⟨h, -⟩
  · rw [file_congr h, hq]
  · exact absurd h hr
  · rw [hn] at h
    exact absurd h (by simp)

/-- No file appears. -/
theorem Swept.file_of (h : Swept root d t) {q : DiskPath} {c : Content δ} (hq : t.file q = some c) :
    d.file q = some c := by
  have hn := Disk.file_eq_some.1 hq
  rcases h.nodes q with h | ⟨h, -⟩ | ⟨-, h, -⟩
  · rw [← file_congr h, hq]
  · rw [hn] at h
    exact absurd h (by simp)
  · rw [hn] at h
    exact absurd h (by simp)

theorem Swept.file_eq_none (h : Swept root d t) {q : DiskPath} (hq : d.file q = none) :
    t.file q = none := by
  cases hc : t.file q with
  | none => rfl
  | some c =>
    rw [h.file_of hc] at hq
    exact absurd hq (by simp)

theorem Swept.isFile_marker (h : Swept root d t) (hd : Sound root d log) :
    t.isFile (markerPath root id) = d.isFile (markerPath root id) := by
  rw [Bool.eq_iff_iff, Disk.isFile_eq_true, Disk.isFile_eq_true]
  constructor
  · rintro ⟨c, hc⟩
    exact ⟨c, h.file_of hc⟩
  · rintro ⟨c, hc⟩
    exact ⟨c, h.file_eq hc (hd.marker_not_removable (Disk.isFile_eq_true.2 ⟨c, hc⟩))⟩

/-- No directory of a transaction appears. -/
theorem Swept.isDir_of (h : Swept root d t) (hdir : t.isDir (transactionDir root id) = true) :
    d.isDir (transactionDir root id) = true := by
  rw [Disk.isDir_eq_true] at hdir ⊢
  have hdir := hdir.resolve_left transactionDir_ne_nil
  rcases h.nodes (transactionDir root id) with h | ⟨h, -⟩ | ⟨-, -, h⟩
  · exact .inr (h ▸ hdir)
  · rw [hdir] at h
    exact absurd h (by simp)
  · exact absurd (List.prefix_refl _) (not_transactionDir_prefix_transactions h)

theorem Swept.unfinished_of (h : Swept root d t) (hd : Sound root d log)
    (hid : Unfinished root t id) : Unfinished root d id :=
  ⟨h.isDir_of hid.1, by rw [← h.isFile_marker hd, hid.2]⟩

theorem Swept.intends_of (h : Swept root d t) (hd : Sound root d log) {paths : List DiskPath}
    (hid : Intends root t id paths) : Intends root d id paths :=
  ⟨h.unfinished_of hd hid.1, h.file_of hid.2⟩

theorem Swept.leftover_of (h : Swept root d t) (hd : Sound root d log) {q : DiskPath}
    (hq : Leftover root t q) : Leftover root d q := by
  obtain ⟨id, paths, hid, hp⟩ := hq
  exact ⟨id, paths, h.intends_of hd hid, hp⟩

/-- **Recovery keeps the store sound**, wherever it is cut off. -/
theorem Swept.sound (h : Swept root d t) (hd : Sound root d log) : Sound root t log where
  marked e he := by
    rw [h.isFile_marker hd]
    exact hd.marked e he
  kept e he f hf := h.file_eq (hd.kept e he f hf) (hd.not_removable he hf)
  placed := hd.placed
  leftover q hq := hd.leftover q (h.leftover_of hd hq)

/-- What was left over is gone once nothing is unfinished. -/
theorem Swept.file_of_leftover (h : Swept root d t) (hclean : Clean root t) {q : DiskPath}
    (hq : Leftover root d q) : t.file q = none := by
  obtain ⟨id, paths, hid, p, hp, rfl⟩ := hq
  rcases h.intents id paths hid with h | h
  · exact absurd h.1 (hclean.finished id)
  · exact h p hp

/-- Making the directory of all transactions. -/
theorem Swept.of_made (h : ∀ q, t[q]? = d[q]? ∨
    (d[q]? = none ∧ t[q]? = some .directory ∧ q <+: transactions root)) : Swept root d t := by
  have hsame : ∀ id rest, t[transactionDir root id ++ rest]? = d[transactionDir root id ++ rest]? :=
    fun id rest ↦ (h _).resolve_right fun hq ↦
      not_transactionDir_prefix_transactions hq.2.2 (List.prefix_append _ _)
  refine ⟨fun q ↦ (h q).imp_right .inr, fun id paths hid ↦ .inl ⟨⟨?_, ?_⟩, ?_⟩⟩
  · rw [isDir_congr (by simpa using hsame id []), hid.1.1]
  · rw [isFile_congr (by simpa [markerPath_eq] using hsame id ["committed"]), hid.1.2]
  · rw [file_congr (by simpa [intentPath_eq] using hsame id ["intent.json"]), hid.2]

/-- A transaction is seen through its directory, its marker and its intent only. -/
theorem Intends.set_none {paths : List DiskPath} (h : Intends root t id paths) {q : DiskPath}
    (hdir : transactionDir root id ≠ q) (hmarker : markerPath root id ≠ q)
    (hintent : intentPath root id ≠ q) : Intends root (Table.set t q none) id paths := by
  have hget : ∀ q', q' ≠ q → (Table.set t q none)[q']? = t[q']? := fun q' h ↦ by
    rw [Table.getElem?_set, if_neg h]
  refine ⟨⟨?_, ?_⟩, ?_⟩
  · rw [isDir_congr (hget _ hdir), h.1.1]
  · rw [isFile_congr (hget _ hmarker), h.1.2]
  · rw [file_congr (hget _ hintent), h.2]

theorem Intends.set_none_of_placed {paths : List DiskPath} (h : Intends root t id paths) {q : DiskPath}
    (hq : Placed root q) (hdir : t.isDir q = false) :
    Intends root (Table.set t q none) id paths := by
  refine h.set_none ?_ hq.ne_markerPath.symm hq.ne_intentPath.symm
  rintro rfl
  rw [h.1.1] at hdir
  exact absurd hdir (by simp)

theorem Intends.set_none_of_below {paths : List DiskPath} (h : Intends root t id paths) {q : DiskPath}
    {id' : String} (hq : transactionDir root id' <+: q) (hne : id' ≠ id) :
    Intends root (Table.set t q none) id paths := by
  have hrest : ∀ rest, transactionDir root id ++ rest ≠ q := by
    rintro rest rfl
    exact hne (transactionDir_prefix_iff.1 hq)
  refine h.set_none ?_ ?_ ?_
  · simpa using hrest []
  · rw [markerPath_eq]
    exact hrest _
  · rw [intentPath_eq]
    exact hrest _

end Swept

/-! ### The loop of a recovery -/

/-- The state of a recovery that still has to look at the transactions `xs`. -/
structure Sweeping (root : DiskPath) (d : Disk (Content δ)) (xs : List String) (t : Disk (Content δ)) :
    Prop where
  swept : Swept root d t
  directories : ∀ q, q <+: transactions root → t.isDir q = true
  remaining : ∀ id, Unfinished root t id → id ∈ xs

section Sweeping

variable {log : List (Captured δ)} {xs : List String}

/-- One removal. -/
theorem Sweeping.remove (h : Sweeping root d xs t) (hd : Sound root d log) {q : DiskPath}
    (hq : Removable root d q) (hroot : ¬ q <+: transactions root)
    (hintents : ∀ id paths, Intends root d id paths → Intends root t id paths →
      Intends root (Table.set t q none) id paths ∨
        ∀ p ∈ paths, Disk.file (Table.set t q none) (root ++ p) = none) :
    Sweeping root d xs (Table.set t q none) := by
  have hswept : Swept root d (Table.set t q none) := by
    refine ⟨fun q' ↦ ?_, fun id paths hid ↦ ?_⟩
    · rw [Table.getElem?_set]
      by_cases hqq : q' = q
      · rw [if_pos hqq, hqq]
        exact .inr (.inl ⟨rfl, hq⟩)
      · rw [if_neg hqq]
        exact h.swept.nodes q'
    · rcases h.swept.intents id paths hid with ht | ht
      · exact hintents id paths hid ht
      · exact .inr fun p hp ↦ file_set_none (ht p hp)
  refine ⟨hswept, fun q' hq' ↦ ?_, fun id hid ↦ h.remaining id ⟨isDir_set_none hid.1, ?_⟩⟩
  · have hne : q' ≠ q := fun heq ↦ hroot (heq ▸ hq')
    rw [isDir_congr (Table.getElem?_set .. |>.trans (if_neg hne)), h.directories q' hq']
  · rw [h.swept.isFile_marker hd, ← hswept.isFile_marker hd, hid.2]

/-- The files of an intent are removed before anything else of the transaction. -/
theorem wp_removeIntended (hd : Sound root d log) (h : Sweeping root d xs t)
    (hid : Unfinished root t id) :
    Prog.wp (Swept root d) (removeIntended .answered root id : Job δ Unit) (fun r u ↦
      Sweeping root d xs u ∧ (r = .ok () → ∀ paths, Intends root d id paths →
        ∀ p ∈ paths, u.file (root ++ p) = none)) t := by
  rw [removeIntended, Prog.bind_eq, Prog.wp_bind, Disk.wp_query_answered]
  refine ⟨h.swept, ?_⟩
  by_cases hintent : t.isFile (intentPath root id) = true
  · simp only [hintent, if_true, Prog.bind_eq, Prog.wp_bind]
    refine Disk.wp_readFile h.swept ⟨h, by simp⟩ fun c hc ↦ ?_
    cases c with
    | torn => exact ⟨h.swept, h, by simp⟩
    | marker => exact ⟨h.swept, h, by simp⟩
    | data x => exact ⟨h.swept, h, by simp⟩
    | intent paths =>
      have hpaths : Intends root d id paths := h.swept.intends_of hd ⟨hid, hc⟩
      have hleft : ∀ p ∈ paths, Leftover root d (root ++ p) := fun p hp ↦
        ⟨id, paths, hpaths, p, hp, rfl⟩
      refine Prog.wp_forEach (J := fun l u ↦ (∀ p ∈ l, p ∈ paths) ∧ Sweeping root d xs u ∧
        ∀ p ∈ paths, p ∈ l ∨ u.file (root ++ p) = none) ?_ ?_ paths
        ⟨fun p hp ↦ hp, h, fun p hp ↦ .inl hp⟩
      · rintro p l u ⟨hl, hu, hdone⟩
        rw [Prog.wp_bind, Prog.wp_ofExcept]
        refine ⟨hu.swept, ?_⟩
        cases validateRelative p with
        | error e => exact ⟨hu, by simp⟩
        | ok _ =>
          have hp := hleft p (hl p (by simp))
          refine Disk.wp_call hu.swept ⟨hu, by simp⟩ fun u' hu' ↦ ?_
          obtain ⟨hdir, rfl⟩ := Disk.unlink_eq_some hu'
          have hu'' : Sweeping root d xs (Table.set u (root ++ p) none) := by
            refine hu.remove hd (.inl hp) (fun hpre ↦ ?_) fun id paths _ hid ↦
              .inl (hid.set_none_of_placed (hd.leftover _ hp).1 hdir)
            rw [hu.directories _ hpre] at hdir
            exact absurd hdir (by simp)
          refine ⟨hu''.swept, fun q hq ↦ hl q (by simp [hq]), hu'', fun q hq ↦ ?_⟩
          rcases hdone q hq with hq | hq
          · rcases List.mem_cons.1 hq with rfl | hq
            · exact .inr (by simp)
            · exact .inl hq
          · exact .inr (file_set_none hq)
      · rintro u ⟨-, hu, hdone⟩
        refine ⟨hu.swept, hu, fun _ paths' hpaths' p hp ↦ ?_⟩
        have heq : paths' = paths := by
          have := hpaths'.2.symm.trans hpaths.2
          simpa using this
        rw [heq] at hp
        exact (hdone p hp).resolve_left (by simp)
  · simp only [hintent, Bool.false_eq_true, if_false]
    refine ⟨h.swept, h, fun _ paths hpaths ↦ ?_⟩
    -- the intent has been removed by an earlier recovery, after its files
    rcases h.swept.intents id paths hpaths with ht | ht
    · exact absurd (Disk.isFile_eq_true.2 ⟨_, ht.2⟩) hintent
    · exact ht

theorem wp_recoverEntry (hd : Sound root d log) (h : Sweeping root d (id :: xs) t) :
    Prog.wp (Swept root d) (recoverEntry .answered root id : Job δ Unit) (fun r u ↦ match r with
      | .ok _ => Sweeping root d xs u
      | .error _ => Swept root d u) t := by
  have hdone : ¬ Unfinished root t id → Sweeping root d xs t := fun hid ↦
    ⟨h.swept, h.directories, fun x hx ↦ (List.mem_cons.1 (h.remaining x hx)).resolve_left
      (by rintro rfl; exact hid hx)⟩
  rw [recoverEntry, Prog.bind_eq, Prog.wp_bind, Disk.wp_query_answered]
  refine ⟨h.swept, ?_⟩
  by_cases hdir : t.isDir (transactionDir root id) = true
  · simp only [hdir, if_true, Prog.bind_eq, Prog.wp_bind, Disk.wp_query_answered]
    refine ⟨h.swept, ?_⟩
    by_cases hmarker : t.isFile (markerPath root id) = true
    · simp only [hmarker, if_true]
      exact ⟨h.swept, hdone fun hid ↦ by simp [hid.2] at hmarker⟩
    · simp only [hmarker, Bool.false_eq_true, if_false, Prog.wp_bind]
      have hid : Unfinished root t id := ⟨hdir, by simpa using hmarker⟩
      refine Prog.wp_mono (wp_removeIntended hd h hid) (fun _ hs ↦ hs) ?_
      rintro (e | ⟨⟩) u - ⟨hu, hgone⟩
      · exact hu.swept
      have hgone := hgone rfl
      refine Disk.wp_removeDirAll
        (J := fun u ↦ Sweeping root d (id :: xs) u ∧ ∀ paths, Intends root d id paths →
          ∀ p ∈ paths, u.file (root ++ p) = none)
        (fun u hu ↦ hu.1.swept) ?_ (fun u hu ↦ hu.1.swept) ?_ ⟨hu, hgone⟩
      · rintro u q hq ⟨hu, hgone⟩ -
        have hgone' : ∀ paths, Intends root d id paths →
            ∀ p ∈ paths, Disk.file (Table.set u q none) (root ++ p) = none :=
          fun paths hpaths p hp ↦ file_set_none (hgone paths hpaths p hp)
        refine ⟨hu.remove hd (.inr ⟨id, h.swept.unfinished_of hd hid, hq⟩)
          (fun hpre ↦ not_transactionDir_prefix_transactions hpre hq) fun x paths hx hux ↦ ?_, hgone'⟩
        by_cases hxid : x = id
        · subst hxid
          exact .inr (hgone' paths hx)
        · exact .inl (hux.set_none_of_below hq fun heq ↦ hxid heq.symm)
      · rintro u ⟨hu, -⟩ hnone
        refine ⟨hu.swept, hu.directories, fun x hx ↦ ?_⟩
        refine (List.mem_cons.1 (hu.remaining x hx)).resolve_left ?_
        rintro rfl
        have := hx.1
        rw [Disk.isDir_eq_true, hnone] at this
        simp [transactionDir_ne_nil] at this
  · simp only [hdir, Bool.false_eq_true, if_false]
    exact ⟨h.swept, hdone fun hid ↦ hdir hid.1⟩

/-- **What a recovery does**: wherever it is cut off, it has only swept the disk, and when it
returns nothing is unfinished. -/
theorem wp_recover (hd : Sound root d log) :
    Prog.wp (Swept root d) (recover .answered root : Job δ Unit) (fun r t ↦
      Swept root d t ∧ (r = .ok () → Clean root t)) d := by
  rw [recover, Prog.bind_eq, Prog.wp_bind]
  refine Disk.wp_createDirAll
    (J := fun t ↦ ∀ q, t[q]? = d[q]? ∨
      (d[q]? = none ∧ t[q]? = some .directory ∧ q <+: transactions root))
    (fun t ht ↦ .of_made ht) ?_ (fun t ht ↦ ⟨.of_made ht, by simp⟩) ?_ fun q ↦ .inl rfl
  · intro t q hq _ ht hnone q'
    rw [Table.getElem?_set]
    by_cases hqq : q' = q
    · rw [if_pos hqq, hqq]
      rcases ht q with h | ⟨-, h, -⟩
      · exact .inr ⟨h ▸ hnone, rfl, hq⟩
      · rw [hnone] at h
        exact absurd h (by simp)
    · rw [if_neg hqq]
      exact ht q'
  · intro t ht hdirs
    have hswept : Swept root d t := .of_made ht
    show Prog.wp (Swept root d) (Prog.bind _ _) _ t
    rw [Prog.wp_bind]
    refine Disk.wp_readDir hswept ⟨hswept, by simp⟩ fun _ l hl ↦ ?_
    show Prog.wp (Swept root d) (Prog.bind _ _) _ t
    rw [Prog.wp_bind]
    refine Prog.wp_forEach (J := fun xs u ↦ Sweeping root d xs u) ?_ ?_ l
      ⟨hswept, hdirs, fun id hid ↦ hl.mem_iff.2 (Disk.mem_entries.2 ?_)⟩
    · intro x xs u hu
      rw [Prog.bind_eq, Prog.wp_bind, Disk.wp_fault]
      refine ⟨hu.swept, ?_, hu.swept, by simp⟩
      refine Prog.wp_mono (wp_recoverEntry hd hu) (fun _ hs ↦ hs) ?_
      rintro (e | ⟨⟩) u' - hu'
      · exact ⟨hu', by simp⟩
      · exact hu'
    · intro u hu
      refine ⟨hu.swept, ?_⟩
      show Prog.wp (Swept root d) syncDirectory _ u
      rw [syncDirectory, Disk.wp_fault]
      exact ⟨hu.swept, ⟨hu.swept, fun _ ↦ ⟨hu.directories, fun id hid ↦
        absurd (hu.remaining id hid) (by simp)⟩⟩, hu.swept, by simp⟩
    · have hdir := (Disk.isDir_eq_true.1 hid.1).resolve_left transactionDir_ne_nil
      have heq : transactions root ++ [id] = transactionDir root id := by
        simp [transactions, transactionDir]
      rw [heq, hdir]
      rfl

theorem wp_recoverEntry_of_finished (hid : ¬ Unfinished root d id) :
    Prog.wp (· = d) (recoverEntry .answered root id : Job δ Unit) (fun _ t ↦ t = d) d := by
  rw [recoverEntry, Prog.bind_eq, Prog.wp_bind, Disk.wp_query_answered]
  refine ⟨rfl, ?_⟩
  by_cases hdir : d.isDir (transactionDir root id) = true
  · simp only [hdir, if_true, Prog.bind_eq, Prog.wp_bind, Disk.wp_query_answered]
    refine ⟨trivial, ?_⟩
    by_cases hmarker : d.isFile (markerPath root id) = true
    · simp only [hmarker, if_true]
      exact ⟨rfl, rfl⟩
    · exact absurd ⟨hdir, by simpa using hmarker⟩ hid
  · simp only [hdir, Bool.false_eq_true, if_false]
    exact ⟨rfl, rfl⟩

/-- **A further recovery changes nothing.** -/
theorem wp_recover_of_clean (hd : Clean root d) :
    Prog.wp (· = d) (recover .answered root : Job δ Unit) (fun _ t ↦ t = d) d := by
  rw [recover, Prog.bind_eq, Prog.wp_bind]
  refine Disk.wp_createDirAll (J := (· = d)) (fun _ h ↦ h) ?_ (fun _ h ↦ h) ?_ rfl
  · rintro _ q hq hne rfl hnone
    have hdir := hd.directories q hq
    rw [Disk.isDir_eq_true, hnone] at hdir
    exact absurd hdir (by simp [hne])
  · rintro _ rfl -
    show Prog.wp _ (Prog.bind _ _) _ _
    rw [Prog.wp_bind]
    refine Disk.wp_readDir rfl rfl fun _ l _ ↦ ?_
    show Prog.wp _ (Prog.bind _ _) _ _
    rw [Prog.wp_bind]
    refine Prog.wp_forEach (J := fun _ u ↦ u = _) ?_ ?_ l rfl
    · rintro id _ _ rfl
      rw [Prog.bind_eq, Prog.wp_bind, Disk.wp_fault]
      refine ⟨rfl, ?_, rfl⟩
      refine Prog.wp_mono (wp_recoverEntry_of_finished (hd.finished id)) (fun _ hs ↦ hs) ?_
      rintro (e | ⟨⟩) u - hu <;> exact hu
    · rintro _ rfl
      exact ⟨rfl, Disk.wp_fault.2 ⟨rfl, rfl, rfl⟩⟩

end Sweeping

end Sqrzl.Capture
