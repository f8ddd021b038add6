import SqrzlEmulator.Capture.Recovery

/-!
# Captures are all-or-nothing

A commit is followed through its phases. While the marker is not there, the transaction is `Open`:
every file it has put down is listed by its intent, and what it does not own is as it was. When the
marker is there, it is `Done`: all of its files are in place. Every state of a commit is one or the
other, so a process that is stopped, or a call that fails, leaves nothing that recovery does not
decide the same way.

## What callers promise

`Admissible` is what the mail and SMS stores provide: the identity is the text of a new UUID, which
occurs nowhere in the store, and the files are new and outside the directories of transactions.

## Queries

Recovery and rollback ask whether there is a marker with `is_file`, which answers `false` when the
file system cannot say. The theorem is about runs in which these queries are answered; where they
can fail, a recovery can take a committed transaction for an unfinished one.
-/

namespace Sqrzl.Capture

variable {δ : Type} {root : DiskPath} {d t : Disk (Content δ)} {id : String} {files : List (DiskPath × δ)}
  {log : List (Captured δ)}

/-! ### The paths of a transaction -/

/-- The destinations of a transaction, and the names under which they are written first. -/
def ownPaths (id : String) (files : List (DiskPath × δ)) : List DiskPath :=
  files.flatMap fun f ↦ [f.1, pendingPath f.1 id]

theorem mem_ownPaths {q : DiskPath} :
    q ∈ ownPaths id files ↔ ∃ f ∈ files, q = f.1 ∨ q = pendingPath f.1 id := by
  simp [ownPaths]

theorem Placed.not_below_parent {p : DiskPath} (h : Placed root p) :
    ¬ transactionDir root id <+: p.dropLast := by
  intro hpre
  have hp := h id (hpre.trans (List.dropLast_prefix p))
  have hlen := hpre.length_le
  have hpos : 0 < p.length := by
    rw [hp]
    exact List.length_pos_of_ne_nil transactionDir_ne_nil
  rw [← hp, List.length_dropLast] at hlen
  omega

theorem Placed.pendingPath {p : DiskPath} (h : Placed root p) : Placed root (pendingPath p id) := by
  intro x hx
  rcases List.prefix_concat_iff.1 hx with heq | hpre
  · exact heq.symm
  · exact absurd hpre h.not_below_parent

theorem pendingPath_ne_transactionDir {p : DiskPath} : pendingPath p id ≠ transactionDir root id := by
  intro h
  have hlast := congrArg List.getLast? h
  simp only [pendingPath, transactionDir, List.getLast?_append, List.getLast?_singleton,
    List.getLast?_cons_cons, Option.some_or, Option.some.injEq] at hlast
  have hlen := congrArg String.length hlast
  simp only [String.length_append] at hlen
  have h9 : ".pending-".length = 9 := by decide
  omega

theorem append_pendingPath {p : DiskPath} (h : p ≠ []) :
    root ++ pendingPath p id = pendingPath (root ++ p) id := by
  have hlast : (root ++ p).getLast? = p.getLast? := by
    rw [List.getLast?_append, List.getLast?_eq_some_getLast h]
    rfl
  simp [pendingPath, hlast, List.dropLast_append_of_ne_nil h]

/-! ### What the callers of a commit promise -/

/-- A new identity, and new files outside the directories of transactions. -/
structure Admissible (isUuid : String → Bool) (root : DiskPath) (d : Disk (Content δ)) (id : String)
    (files : List (DiskPath × δ)) : Prop where
  uuid : isUuid id = true
  nonempty : id ≠ ""
  fresh : ∀ q, transactionDir root id <+: q → d[q]? = none
  new : ∀ q ∈ ownPaths id files, Leftover root d q ∨ d.file q = none
  placed : ∀ f ∈ files, Placed root f.1 ∧ f.1 ≠ transactionDir root id

/-- The disk from which a transaction is published: nothing is unfinished, and nothing of the
transaction is there. -/
structure Ready (root : DiskPath) (d : Disk (Content δ)) (log : List (Captured δ)) (id : String)
    (files : List (DiskPath × δ)) : Prop where
  clean : Clean root d
  sound : Sound root d log
  fresh : ∀ q, transactionDir root id <+: q → d[q]? = none
  absent : ∀ q ∈ ownPaths id files, d.file q = none
  placed : ∀ q ∈ ownPaths id files, Placed root q ∧ q ≠ transactionDir root id

theorem Ready.not_below (h : Ready root d log id files) {q : DiskPath} (hq : q ∈ ownPaths id files) :
    ¬ transactionDir root id <+: q := fun hpre ↦
  (h.placed q hq).2 ((h.placed q hq).1 id hpre)

theorem Admissible.placed_ownPaths {isUuid : String → Bool} (h : Admissible isUuid root d id files)
    {q : DiskPath} (hq : q ∈ ownPaths id files) : Placed root q ∧ q ≠ transactionDir root id := by
  obtain ⟨f, hf, rfl | rfl⟩ := mem_ownPaths.1 hq
  · exact h.placed f hf
  · exact ⟨(h.placed f hf).1.pendingPath, pendingPath_ne_transactionDir⟩

/-- A recovery that has returned leaves a disk from which the transaction can be published. -/
theorem Swept.ready {isUuid : String → Bool} (h : Swept root d t) (hd : Sound root d log)
    (hadmissible : Admissible isUuid root d id files) (hclean : Clean root t) :
    Ready root t log id files where
  clean := hclean
  sound := h.sound hd
  fresh q hq := by
    rcases h.nodes q with heq | ⟨heq, -⟩ | ⟨-, -, hpre⟩
    · rw [heq, hadmissible.fresh q hq]
    · exact heq
    · exact absurd hq (not_transactionDir_prefix_transactions hpre)
  absent q hq := by
    rcases hadmissible.new q hq with hl | hnone
    · exact h.file_of_leftover hclean hl
    · exact h.file_eq_none hnone
  placed q hq := hadmissible.placed_ownPaths hq

/-! ### The outcome of a commit -/

/-- Either the marker is there and the transaction belongs to the log, or it is not there and what
the transaction has put down is left over. -/
def Decided (root : DiskPath) (log : List (Captured δ)) (id : String) (files : List (DiskPath × δ))
    (t : Disk (Content δ)) : Prop :=
  (t.isFile (markerPath root id) = true ∧ Sound root t (⟨id, files⟩ :: log)) ∨
  (t.isFile (markerPath root id) = false ∧ Sound root t log ∧
    ∀ q ∈ ownPaths id files, Leftover root t q ∨ t.file q = none)

/-- Recovery does not change the decision. -/
theorem Swept.decided (h : Swept root d t) (hd : Decided root log id files d) :
    Decided root log id files t := by
  rcases hd with ⟨hmarker, hd⟩ | ⟨hmarker, hd, hown⟩
  · exact .inl ⟨by rw [h.isFile_marker hd, hmarker], h.sound hd⟩
  · refine .inr ⟨by rw [h.isFile_marker hd, hmarker], h.sound hd, fun q hq ↦ ?_⟩
    rcases hown q hq with ⟨x, paths, hx, p, hp, rfl⟩ | hnone
    · rcases h.intents x paths hx with hx | hx
      · exact .inl ⟨x, paths, hx, p, hp, rfl⟩
      · exact .inr (hx p hp)
    · exact .inr (h.file_eq_none hnone)

/-! ### The phases -/

/-- What the transaction does not own is as it was. -/
structure Framed (root : DiskPath) (d : Disk (Content δ)) (id : String) (files : List (DiskPath × δ))
    (t : Disk (Content δ)) : Prop where
  other : ∀ q, q ∉ ownPaths id files → ¬ transactionDir root id <+: q → t.file q = d.file q
  dirs : ∀ x, x ≠ id → t.isDir (transactionDir root x) = true →
    d.isDir (transactionDir root x) = true

/-- The marker is not there, and the intent lists whatever file has been put down. -/
structure Open (root : DiskPath) (d : Disk (Content δ)) (id : String) (files : List (DiskPath × δ))
    (paths : List DiskPath) (t : Disk (Content δ)) : Prop extends Framed root d id files t where
  unmarked : t.isFile (markerPath root id) = false
  intent : ∀ ps, t.file (intentPath root id) = some (.intent ps) → ps = paths
  listed : ∀ q ∈ ownPaths id files, t.file q ≠ none →
    t.isDir (transactionDir root id) = true ∧ t.file (intentPath root id) = some (.intent paths)

/-- The marker is there, and so are all files. -/
structure Done (root : DiskPath) (d : Disk (Content δ)) (id : String) (files : List (DiskPath × δ))
    (t : Disk (Content δ)) : Prop extends Framed root d id files t where
  marked : t.isFile (markerPath root id) = true
  complete : ∀ f ∈ files, t.file f.1 = some (.data f.2)

section Phases

variable {paths : List DiskPath}

theorem Framed.marker_eq (h : Framed root d id files t) (hd : Ready root d log id files)
    {x : String} (hx : x ≠ id) : t.isFile (markerPath root x) = d.isFile (markerPath root x) := by
  have heq : t.file (markerPath root x) = d.file (markerPath root x) := by
    refine h.other _ (fun hq ↦ (hd.placed _ hq).1.ne_markerPath rfl) fun hpre ↦ ?_
    rw [markerPath_eq, transactionDir_prefix_iff] at hpre
    exact hx hpre.symm
  rw [Disk.isFile, Disk.isFile, heq]

/-- No other transaction is unfinished. -/
theorem Framed.unfinished (h : Framed root d id files t) (hd : Ready root d log id files)
    {x : String} (hx : Unfinished root t x) : x = id := by
  by_contra hne
  exact hd.clean.finished x ⟨h.dirs x hne hx.1, by rw [← h.marker_eq hd hne, hx.2]⟩

theorem Ready.id_not_mem (hd : Ready root d log id files) {e : Captured δ} (he : e ∈ log) :
    e.id ≠ id := by
  intro heq
  have hmarker := hd.sound.marked e he
  obtain ⟨c, hc⟩ := Disk.isFile_eq_true.1 hmarker
  have hnode := Disk.file_eq_some.1 hc
  rw [hd.fresh _ (by rw [heq, markerPath_eq]; exact List.prefix_append _ _)] at hnode
  exact absurd hnode (by simp)

/-- A committed file is not a path of the new transaction. -/
theorem Ready.kept_not_own (hd : Ready root d log id files) {e : Captured δ} (he : e ∈ log)
    {f : DiskPath × δ} (hf : f ∈ e.files) : f.1 ∉ ownPaths id files := by
  intro hq
  have hkept := hd.sound.kept e he f hf
  rw [hd.absent _ hq] at hkept
  exact absurd hkept (by simp)

/-- The frame keeps the store sound, provided that the transaction intends its own paths only. -/
theorem Framed.sound (h : Framed root d id files t) (hd : Ready root d log id files)
    (hown : ∀ ps, Intends root t id ps → ∀ p ∈ ps, root ++ p ∈ ownPaths id files) :
    Sound root t log where
  marked e he := by
    rw [h.marker_eq hd (hd.id_not_mem he)]
    exact hd.sound.marked e he
  kept e he f hf := by
    have hkept := hd.sound.kept e he f hf
    rw [h.other _ (hd.kept_not_own he hf) fun hpre ↦ ?_, hkept]
    rw [Disk.file_eq_some, hd.fresh _ hpre] at hkept
    exact absurd hkept (by simp)
  placed := hd.sound.placed
  leftover q hq := by
    obtain ⟨x, ps, hx, p, hp, rfl⟩ := hq
    obtain rfl := h.unfinished hd hx.1
    have hq := hown ps hx p hp
    refine ⟨(hd.placed _ hq).1, fun e he f hf heq ↦ ?_⟩
    exact hd.kept_not_own he hf (heq ▸ hq)

theorem Open.decided (h : Open root d id files paths t) (hd : Ready root d log id files)
    (hpaths : paths.map (root ++ ·) = ownPaths id files) : Decided root log id files t := by
  refine .inr ⟨h.unmarked, h.toFramed.sound hd fun ps hps p hp ↦ ?_, fun q hq ↦ ?_⟩
  · rw [h.intent ps hps.2] at hp
    rw [← hpaths]
    exact List.mem_map_of_mem hp
  · by_cases hnone : t.file q = none
    · exact .inr hnone
    · obtain ⟨hdir, hintent⟩ := h.listed q hq hnone
      rw [← hpaths, List.mem_map] at hq
      obtain ⟨p, hp, rfl⟩ := hq
      exact .inl ⟨id, paths, ⟨⟨hdir, h.unmarked⟩, hintent⟩, p, hp, rfl⟩

theorem Done.decided (h : Done root d id files t) (hd : Ready root d log id files) :
    Decided root log id files t := by
  have hs : Sound root t log := h.toFramed.sound hd fun ps hps ↦ by
    have := hps.1.2
    rw [h.marked] at this
    exact absurd this (by simp)
  refine .inl ⟨h.marked, List.forall_mem_cons.2 ⟨h.marked, hs.marked⟩,
    List.forall_mem_cons.2 ⟨h.complete, hs.kept⟩,
    List.forall_mem_cons.2 ⟨fun f hf ↦ ?_, hs.placed⟩, fun q hq ↦ ?_⟩
  · exact (hd.placed _ (mem_ownPaths.2 ⟨f, hf, .inl rfl⟩)).1
  · -- a transaction with a marker has left nothing over, and no other is unfinished
    obtain ⟨x, ps, hx, -⟩ := hq
    obtain rfl := h.toFramed.unfinished hd hx.1
    have := hx.1.2
    rw [h.marked] at this
    exact absurd this (by simp)

/-- A transaction begins open. -/
theorem Ready.open (hd : Ready root d log id files) : Open root d id files paths d := by
  have hnone : ∀ name, d.file (transactionDir root id ++ [name]) = none := fun name ↦ by
    rw [Disk.file, hd.fresh _ (List.prefix_append _ _)]
  refine ⟨⟨fun _ _ _ ↦ rfl, fun _ _ h ↦ h⟩, ?_, fun ps hps ↦ ?_, fun q hq hfile ↦ ?_⟩
  · simp [Disk.isFile, markerPath_eq, hnone]
  · rw [intentPath_eq, hnone] at hps
    exact absurd hps (by simp)
  · exact absurd (hd.absent q hq) hfile

/-! ### Single changes within a phase -/

theorem file_set_of_ne {q q' : DiskPath} (n : Option (Node (Content δ))) (h : q' ≠ q) :
    Disk.file (Table.set t q n) q' = t.file q' := by
  rw [Disk.file_set, if_neg h]

theorem isFile_set_of_ne {q q' : DiskPath} (n : Option (Node (Content δ))) (h : q' ≠ q) :
    Disk.isFile (Table.set t q n) q' = t.isFile q' := by
  rw [Disk.isFile, Disk.isFile, file_set_of_ne n h]

theorem isDir_set_of_ne {q q' : DiskPath} (n : Option (Node (Content δ))) (h : q' ≠ q) :
    Disk.isDir (Table.set t q n) q' = t.isDir q' :=
  isDir_congr (by rw [Table.getElem?_set, if_neg h])

/-- A new directory is no file. -/
theorem file_set_directory {q : DiskPath} (h : t[q]? = none) (q' : DiskPath) :
    Disk.file (Table.set t q (some .directory)) q' = t.file q' := by
  rw [Disk.file_set]
  split
  · next heq => rw [heq, Disk.file, h]
  · rfl

theorem isDir_set_directory {q q' : DiskPath} (h : t.isDir q' = true) :
    Disk.isDir (Table.set t q (some .directory)) q' = true := by
  by_cases heq : q' = q
  · rw [Disk.isDir_eq_true, Table.getElem?_set, if_pos heq]
    exact .inr rfl
  · rw [isDir_set_of_ne _ heq, h]

theorem Framed.set (h : Framed root d id files t) {q : DiskPath} {n : Option (Node (Content δ))}
    (hq : q ∈ ownPaths id files ∨ transactionDir root id <+: q) (hn : n ≠ some .directory) :
    Framed root d id files (Table.set t q n) := by
  refine ⟨fun q' hown hbelow ↦ ?_, fun x hx hdir ↦ h.dirs x hx ?_⟩
  · have hne : q' ≠ q := by
      rintro rfl
      exact hq.elim hown hbelow
    rw [file_set_of_ne n hne, h.other q' hown hbelow]
  · by_cases heq : transactionDir root x = q
    · rw [Disk.isDir_eq_true, Table.getElem?_set, if_pos heq] at hdir
      exact absurd (hdir.resolve_left transactionDir_ne_nil) hn
    · rwa [isDir_set_of_ne n heq] at hdir

/-- Making a directory that is not the one of another transaction. -/
theorem Open.mkdir (h : Open root d id files paths t) {q : DiskPath} (hnone : t[q]? = none)
    (hq : ∀ x, x ≠ id → transactionDir root x ≠ q) :
    Open root d id files paths (Table.set t q (some .directory)) where
  other q' hown hbelow := by rw [file_set_directory hnone, h.other q' hown hbelow]
  dirs x hx hdir := h.dirs x hx (by rwa [isDir_set_of_ne _ (hq x hx)] at hdir)
  unmarked := by rw [Disk.isFile, file_set_directory hnone, ← Disk.isFile, h.unmarked]
  intent ps hps := h.intent ps (by rwa [file_set_directory hnone] at hps)
  listed q' hq' hfile := by
    rw [file_set_directory hnone] at hfile
    obtain ⟨hdir, hintent⟩ := h.listed q' hq' hfile
    exact ⟨isDir_set_directory hdir, by rw [file_set_directory hnone, hintent]⟩

/-- The intent has been published. -/
def Armed (root : DiskPath) (id : String) (paths : List DiskPath) (t : Disk (Content δ)) : Prop :=
  t.isDir (transactionDir root id) = true ∧ t.file (intentPath root id) = some (.intent paths)

theorem Armed.set (h : Armed root id paths t) (hd : Ready root d log id files) {q : DiskPath}
    (hq : q ∈ ownPaths id files) (n : Option (Node (Content δ))) :
    Armed root id paths (Table.set t q n) := by
  have hplaced := hd.placed q hq
  refine ⟨?_, ?_⟩
  · rw [isDir_set_of_ne n hplaced.2.symm, h.1]
  · rw [file_set_of_ne n hplaced.1.ne_intentPath.symm, h.2]

theorem Armed.mkdir (h : Armed root id paths t) {q : DiskPath} (hnone : t[q]? = none) :
    Armed root id paths (Table.set t q (some .directory)) :=
  ⟨isDir_set_directory h.1, by rw [file_set_directory hnone, h.2]⟩

/-- Writing or removing one of the transaction's own files. -/
theorem Open.set_own (h : Open root d id files paths t) (hd : Ready root d log id files) {q : DiskPath}
    (hq : q ∈ ownPaths id files) {n : Option (Node (Content δ))} (hn : n ≠ some .directory)
    (harmed : n ≠ none → Armed root id paths t) :
    Open root d id files paths (Table.set t q n) where
  toFramed := h.toFramed.set (.inl hq) hn
  unmarked := by
    rw [isFile_set_of_ne n (hd.placed q hq).1.ne_markerPath.symm, h.unmarked]
  intent ps hps := by
    rw [file_set_of_ne n (hd.placed q hq).1.ne_intentPath.symm] at hps
    exact h.intent ps hps
  listed q' hq' hfile := by
    have ht : Armed root id paths t := by
      by_cases heq : q' = q
      · refine harmed fun hnone ↦ hfile ?_
        rw [Disk.file_set, if_pos heq, hnone]
      · rw [file_set_of_ne n heq] at hfile
        exact h.listed q' hq' hfile
    exact ht.set hd hq n

/-- Changing a file of the transaction directory other than the marker and the intent. -/
theorem Open.set_inside (h : Open root d id files paths t) (hd : Ready root d log id files)
    {q : DiskPath} (hq : transactionDir root id <+: q) (hdir : transactionDir root id ≠ q)
    (hmarker : markerPath root id ≠ q) (hintent : intentPath root id ≠ q)
    {n : Option (Node (Content δ))} (hn : n ≠ some .directory) :
    Open root d id files paths (Table.set t q n) where
  toFramed := h.toFramed.set (.inr hq) hn
  unmarked := by rw [isFile_set_of_ne n hmarker, h.unmarked]
  intent ps hps := h.intent ps (by rwa [file_set_of_ne n hintent] at hps)
  listed q' hq' hfile := by
    have hne : q' ≠ q := by
      rintro rfl
      exact hd.not_below hq' hq
    rw [file_set_of_ne n hne] at hfile
    obtain ⟨hdir', hintent'⟩ := h.listed q' hq' hfile
    exact ⟨by rw [isDir_set_of_ne n hdir, hdir'], by rw [file_set_of_ne n hintent, hintent']⟩

/-- Publishing the intent. -/
theorem Open.set_intent (h : Open root d id files paths t)
    (hdir : t.isDir (transactionDir root id) = true) :
    Open root d id files paths (Table.set t (intentPath root id) (some (.file (.intent paths)))) ∧
      Armed root id paths (Table.set t (intentPath root id) (some (.file (.intent paths)))) := by
  have hbelow : transactionDir root id <+: intentPath root id := by
    rw [intentPath_eq]
    exact List.prefix_append _ _
  have hne : transactionDir root id ≠ intentPath root id ∧
      markerPath root id ≠ intentPath root id := by
    simp [markerPath_eq, intentPath_eq]
  have harmed : Armed root id paths
      (Table.set t (intentPath root id) (some (.file (.intent paths)))) :=
    ⟨by rw [isDir_set_of_ne _ hne.1, hdir], by simp⟩
  refine ⟨⟨h.toFramed.set (.inr hbelow) (by simp), ?_, fun ps hps ↦ ?_, fun _ _ _ ↦ harmed⟩, harmed⟩
  · rw [isFile_set_of_ne _ hne.2, h.unmarked]
  · rw [harmed.2] at hps
    simpa using hps.symm

/-- Removing something of the transaction directory when none of its files is left. -/
theorem Open.remove_inside (h : Open root d id files paths t)
    (hown : ∀ q ∈ ownPaths id files, t.file q = none) {q : DiskPath}
    (hq : transactionDir root id <+: q) : Open root d id files paths (Table.set t q none) where
  toFramed := h.toFramed.set (.inr hq) (by simp)
  unmarked := by
    have hfile : t.file (markerPath root id) = none := by simpa [Disk.isFile] using h.unmarked
    simpa [Disk.isFile] using file_set_none hfile
  intent ps hps := by
    refine h.intent ps ?_
    rw [Disk.file_set] at hps
    split at hps
    · exact absurd hps (by simp)
    · exact hps
  listed q' hq' hfile := absurd (file_set_none (hown q' hq')) hfile

end Phases

/-! ### Checking the destinations -/

theorem stripPrefix_eq_some {path relative : DiskPath} (h : stripPrefix root path = some relative) :
    path = root ++ relative := by
  unfold stripPrefix at h
  split at h
  · next hpre =>
    obtain ⟨rest, rfl⟩ := List.isPrefixOf_iff_prefix.1 hpre
    cases h
    simp
  · exact absurd h (by simp)

theorem ne_nil_of_validateRelative {path : DiskPath} (h : validateRelative path = .ok ()) :
    path ≠ [] := by
  rintro rfl
  simp [validateRelative] at h

/-- What a commit knows of its files when it has checked them. -/
theorem wp_checkFiles {I : Disk (Content δ) → Prop} (hI : I d) :
    Prog.wp I (checkFiles .answered root id files : Job δ (List DiskPath)) (fun r t ↦ t = d ∧
      ∀ paths, r = .ok paths → paths.map (root ++ ·) = ownPaths id files ∧
        (files.map Prod.fst).Nodup ∧ ∀ f ∈ files, d.present f.1 = false) d := by
  rw [checkFiles, Prog.bind_eq, Prog.wp_bind]
  refine Prog.wp_foldEach (J := fun l acc t ↦ t = d ∧ ∃ done, files = done ++ l ∧
    acc.1.map (root ++ ·) = ownPaths id done ∧ acc.2.Perm (done.map Prod.fst) ∧
    (done.map Prod.fst).Nodup ∧ ∀ f ∈ done, d.present f.1 = false) ?_ ?_ files
    ⟨rfl, [], rfl, rfl, .refl _, List.nodup_nil, by simp⟩
  · rintro file l acc t ⟨rfl, done, hfiles, hpaths, hunique, hnodup, habsent⟩
    cases hstrip : stripPrefix root file.1 with
    | none => exact ⟨hI, rfl, by simp⟩
    | some relative =>
      show Prog.wp I (Prog.bind _ _) _ _
      rw [Prog.wp_bind, Prog.wp_ofExcept]
      refine ⟨hI, ?_⟩
      cases hvalid : validateRelative relative with
      | error e => exact ⟨rfl, by simp⟩
      | ok _ =>
        show Prog.wp I (Prog.bind _ _) _ _
        rw [Prog.wp_bind, Disk.wp_query_answered]
        refine ⟨hI, ?_⟩
        by_cases hexists : (Disk.present t file.1 || acc.2.contains file.1) = true
        · simp only [hexists, if_true]
          exact ⟨hI, rfl, by simp⟩
        · simp only [hexists, Bool.false_eq_true, if_false]
          have hpath := stripPrefix_eq_some hstrip
          simp only [Bool.or_eq_true, not_or] at hexists
          have hnew : file.1 ∉ done.map Prod.fst := by
            rw [← hunique.mem_iff]
            simpa using hexists.2
          refine ⟨hI, rfl, done ++ [file], by simp [hfiles], ?_, ?_, ?_, fun f hf ↦ ?_⟩
          · rw [List.map_append, hpaths]
            simp [ownPaths, hpath, append_pendingPath (ne_nil_of_validateRelative hvalid)]
          · rw [List.map_append]
            exact (hunique.cons _).trans (List.perm_append_singleton _ _).symm
          · rw [List.map_append]
            exact (List.perm_append_singleton _ _).nodup_iff.2 (List.nodup_cons.2 ⟨hnew, hnodup⟩)
          · rcases List.mem_append.1 hf with hf | hf
            · exact habsent f hf
            · rw [List.mem_singleton.1 hf]
              simpa using hexists.1
  · rintro acc t ⟨rfl, done, hfiles, hpaths, -, hnodup, habsent⟩
    refine ⟨hI, hI, rfl, fun paths heq ↦ ?_⟩
    cases heq
    rw [hfiles, List.append_nil]
    exact ⟨hpaths, hnodup, habsent⟩

/-! ### Publishing -/

/-- A new file is torn until it is written. -/
theorem wp_writeNewSynced {I : Disk (Content δ) → Prop} {Q : Except Error Unit → Disk (Content δ) → Prop}
    {q : DiskPath} {c : Content δ} (hI : I t) (herr : Q (.error ioError) t)
    (h : t[q]? = none →
      I (Table.set t q (some (.file .torn))) ∧
      Q (.error ioError) (Table.set t q (some (.file .torn))) ∧
      I (Table.set t q (some (.file c))) ∧
      Q (.error ioError) (Table.set t q (some (.file c))) ∧
      Q (.ok ()) (Table.set t q (some (.file c)))) :
    Prog.wp I (writeNewSynced q c : Job δ Unit) Q t := by
  rw [writeNewSynced]
  refine Disk.wp_call_bind hI herr fun t₁ h₁ ↦ ?_
  obtain ⟨hnone, rfl⟩ := Disk.createNew_eq_some h₁
  obtain ⟨hI₁, herr₁, hI₂, herr₂, hok⟩ := h hnone
  refine Disk.wp_call_bind hI₁ herr₁ fun t₂ h₂ ↦ ?_
  obtain rfl := Disk.write_eq_some h₂
  rw [Table.set_set]
  exact Disk.wp_fault.2 ⟨hI₂, hok, herr₂⟩

section Publish

variable {paths : List DiskPath}

/-- **The intent**: until it is published, nothing else is. -/
theorem wp_publishIntent (hd : Ready root d log id files)
    (hpaths : paths.map (root ++ ·) = ownPaths id files) (h : Open root d id files paths t)
    (hdir : t.isDir (transactionDir root id) = true) :
    Prog.wp (Decided root log id files) (publishIntent root id paths : Job δ Unit) (fun r u ↦
      Open root d id files paths u ∧ (r = .ok () → Armed root id paths u)) t := by
  have hI : ∀ {u}, Open root d id files paths u → Decided root log id files u := fun h ↦
    h.decided hd hpaths
  have hstaged : transactionDir root id <+: stagedIntentPath root id := by
    rw [stagedIntentPath_eq]
    exact List.prefix_append _ _
  have hne : transactionDir root id ≠ stagedIntentPath root id ∧
      markerPath root id ≠ stagedIntentPath root id ∧
      intentPath root id ≠ stagedIntentPath root id := by
    simp [stagedIntentPath_eq, markerPath_eq, intentPath_eq]
  have hset : ∀ {u} (n : Option (Content δ)), Open root d id files paths u →
      Open root d id files paths (Table.set u (stagedIntentPath root id) (n.map .file)) :=
    fun n hu ↦ hu.set_inside hd hstaged hne.1 hne.2.1 hne.2.2 (by cases n <;> simp)
  rw [publishIntent]
  refine Disk.wp_fault_bind (hI h) ⟨h, by simp⟩ ?_
  refine Disk.wp_call_bind (hI h) ⟨h, by simp⟩ fun t₁ h₁ ↦ ?_
  obtain ⟨-, rfl⟩ := Disk.createNew_eq_some h₁
  have h₁ := hset (some .torn) h
  refine Disk.wp_call_bind (hI h₁) ⟨h₁, by simp⟩ fun t₂ h₂ ↦ ?_
  obtain rfl := Disk.write_eq_some h₂
  have h₂ := hset (some .torn) h₁
  refine Disk.wp_fault_bind (hI h₂) ⟨h₂, by simp⟩ ?_
  refine Disk.wp_call_bind (hI h₂) ⟨h₂, by simp⟩ fun t₃ h₃ ↦ ?_
  obtain rfl := Disk.write_eq_some h₃
  have h₃ := hset (some (.intent paths)) h₂
  refine Disk.wp_fault_bind (hI h₃) ⟨h₃, by simp⟩ ?_
  refine Disk.wp_fault_bind (hI h₃) ⟨h₃, by simp⟩ ?_
  refine Disk.wp_call_bind (hI h₃) ⟨h₃, by simp⟩ fun t₄ h₄ ↦ ?_
  obtain ⟨c, hc, -, rfl⟩ := Disk.rename_eq_some h₄
  obtain rfl : Content.intent paths = c := by simpa using hc
  have h₄ := hset none h₃
  obtain ⟨h₅, harmed⟩ := h₄.set_intent (by
    simp only [Option.map, isDir_set_of_ne _ hne.1, hdir])
  refine Disk.wp_fault_bind (hI h₅) ⟨h₅, by simp⟩ ?_
  refine Disk.wp_fault_bind (hI h₅) ⟨h₅, by simp⟩ ?_
  refine Disk.wp_fault_bind (hI h₅) ⟨h₅, by simp⟩ ?_
  exact Disk.wp_fault.2 ⟨hI h₅, ⟨h₅, fun _ ↦ harmed⟩, h₅, by simp⟩

/-- A file is written under its pending name and moved to its destination. What has been published
before stays, since the pending name was not there and the destinations are distinct. -/
theorem wp_publishFile (hd : Ready root d log id files)
    (hpaths : paths.map (root ++ ·) = ownPaths id files) {f : DiskPath × δ} (hf : f ∈ files)
    {done : List (DiskPath × δ)} (hnew : f.1 ∉ done.map Prod.fst) (index : ℕ)
    (h : Open root d id files paths t) (harmed : Armed root id paths t)
    (hdone : ∀ g ∈ done, t.file g.1 = some (.data g.2)) :
    Prog.wp (Decided root log id files) (publishFile id f index : Job δ Unit) (fun r u ↦
      Open root d id files paths u ∧ (r = .ok () → Armed root id paths u ∧
        ∀ g ∈ done ++ [f], u.file g.1 = some (.data g.2))) t := by
  have hI : ∀ {u}, Open root d id files paths u → Decided root log id files u := fun h ↦
    h.decided hd hpaths
  have hown : f.1 ∈ ownPaths id files := mem_ownPaths.2 ⟨f, hf, .inl rfl⟩
  have hpending : pendingPath f.1 id ∈ ownPaths id files := mem_ownPaths.2 ⟨f, hf, .inr rfl⟩
  rw [publishFile, Prog.bind_eq, Prog.wp_bind]
  refine Disk.wp_createDirAll (J := fun u ↦ Open root d id files paths u ∧
    Armed root id paths u ∧ ∀ g ∈ done, u.file g.1 = some (.data g.2))
    (fun u hu ↦ hI hu.1) ?_ (fun u hu ↦ ⟨hu.1, by simp⟩) ?_ ⟨h, harmed, hdone⟩
  · rintro u q hq hqne ⟨hu, hua, hud⟩ hnone
    refine ⟨hu.mkdir hnone fun x _ heq ↦ ?_, hua.mkdir hnone, fun g hg ↦ ?_⟩
    · rw [← heq] at hq
      exact (hd.placed _ hown).1.not_below_parent hq
    · rw [file_set_directory hnone, hud g hg]
  · rintro u ⟨hu, hua, hud⟩ -
    show Prog.wp _ (Prog.bind _ _) _ u
    rw [Prog.wp_bind]
    have hset : ∀ c, Open root d id files paths
        (Table.set u (pendingPath f.1 id) (some (.file c))) := fun c ↦
      hu.set_own hd hpending (by simp) fun _ ↦ hua
    refine wp_writeNewSynced (hI hu) ⟨hu, by simp⟩ fun hnone ↦
      ⟨hI (hset _), ⟨hset _, by simp⟩, hI (hset _), ⟨hset _, by simp⟩, ?_⟩
    refine Disk.wp_fault_bind (hI (hset _)) ⟨hset _, by simp⟩ ?_
    refine Disk.wp_call_bind (hI (hset _)) ⟨hset _, by simp⟩ fun u' hu' ↦ ?_
    obtain ⟨c, hc, -, rfl⟩ := Disk.rename_eq_some hu'
    obtain rfl : Content.data f.2 = c := by simpa using hc
    rw [Table.set_set]
    have h₁ : Open root d id files paths (Table.set u (pendingPath f.1 id) none) :=
      hu.set_own hd hpending (by simp) (by simp)
    have ha₁ : Armed root id paths (Table.set u (pendingPath f.1 id) none) :=
      hua.set hd hpending none
    have h₂ := h₁.set_own hd hown (n := some (.file (.data f.2))) (by simp) fun _ ↦ ha₁
    have ha₂ := ha₁.set hd hown (some (.file (.data f.2)))
    have hfiles : ∀ g ∈ done ++ [f], Disk.file (Table.set (Table.set u (pendingPath f.1 id) none)
        f.1 (some (.file (.data f.2)))) g.1 = some (.data g.2) := by
      intro g hg
      rcases List.mem_append.1 hg with hg | hg
      · have hne : g.1 ≠ f.1 := fun heq ↦ hnew (heq ▸ List.mem_map_of_mem hg)
        have hne' : g.1 ≠ pendingPath f.1 id := by
          intro heq
          have hfile := hud g hg
          rw [heq, Disk.file, hnone] at hfile
          exact absurd hfile (by simp)
        rw [file_set_of_ne _ hne, file_set_of_ne _ hne', hud g hg]
      · obtain rfl := List.mem_singleton.1 hg
        simp
    refine Disk.wp_fault_bind (hI h₂) ⟨h₂, by simp⟩ ?_
    refine Disk.wp_fault_bind (hI h₂) ⟨h₂, by simp⟩ ?_
    exact Disk.wp_fault.2 ⟨hI h₂, ⟨h₂, fun _ ↦ ⟨ha₂, hfiles⟩⟩, h₂, by simp⟩

/-- The marker decides. -/
theorem Open.set_marker (h : Open root d id files paths t) (hd : Ready root d log id files)
    (hfiles : ∀ f ∈ files, t.file f.1 = some (.data f.2)) (c : Content δ) :
    Done root d id files (Table.set t (markerPath root id) (some (.file c))) where
  toFramed := h.toFramed.set (.inr (by rw [markerPath_eq]; exact List.prefix_append _ _)) (by simp)
  marked := by simp [Disk.isFile]
  complete f hf := by
    have hplaced := (hd.placed _ (mem_ownPaths.2 ⟨f, hf, .inl rfl⟩)).1
    rw [file_set_of_ne _ hplaced.ne_markerPath, hfiles f hf]

/-- **Publication**: it ends with the marker and all files, or fails in one of the two phases. -/
theorem wp_publish (hd : Ready root d log id files)
    (hpaths : paths.map (root ++ ·) = ownPaths id files) (hnodup : (files.map Prod.fst).Nodup)
    (h : Open root d id files paths t) (hdir : t.isDir (transactionDir root id) = true) :
    Prog.wp (Decided root log id files) (publish root id files paths : Job δ Unit) (fun r u ↦
      Done root d id files u ∨ (r ≠ .ok () ∧ Open root d id files paths u)) t := by
  have hI : ∀ {u}, Open root d id files paths u → Decided root log id files u := fun h ↦
    h.decided hd hpaths
  rw [publish, Prog.bind_eq, Prog.wp_bind]
  refine Prog.wp_mono (wp_publishIntent hd hpaths h hdir) (fun _ hs ↦ hs) ?_
  rintro (e | ⟨⟩) u - ⟨hu, harmed⟩
  · exact .inr ⟨by simp, hu⟩
  show Prog.wp _ (Prog.bind _ _) _ u
  rw [Prog.wp_bind]
  refine Prog.wp_forEach (J := fun l u ↦ ∃ done, files = done ++ l.map Prod.fst ∧
    Open root d id files paths u ∧ Armed root id paths u ∧
    ∀ g ∈ done, u.file g.1 = some (.data g.2)) ?_ ?_ files.zipIdx
    ⟨[], by simp, hu, harmed rfl, by simp⟩
  · rintro ⟨f, i⟩ l u ⟨done, hfiles, hu, hua, hud⟩
    have hnew : f.1 ∉ done.map Prod.fst := by
      rw [hfiles, List.map_append, List.nodup_append] at hnodup
      exact fun hmem ↦ hnodup.2.2 _ hmem f.1 (by simp) rfl
    refine Prog.wp_mono (wp_publishFile hd hpaths (hfiles ▸ by simp) hnew i hu hua hud)
      (fun _ hs ↦ hs) ?_
    rintro (e | ⟨⟩) u' - ⟨hu', hok⟩
    · exact .inr ⟨by simp, hu'⟩
    · exact ⟨done ++ [f], by simpa using hfiles, hu', hok rfl⟩
  · rintro u ⟨done, hfiles, hu, -, hud⟩
    rw [List.map_nil, List.append_nil] at hfiles
    rw [← hfiles] at hud
    refine ⟨hI hu, ?_⟩
    have hdone := hu.set_marker hd hud
    show Prog.wp _ (Prog.bind _ _) _ u
    rw [Prog.wp_bind]
    refine wp_writeNewSynced (hI hu) (.inr ⟨by simp, hu⟩) fun _ ↦ ⟨(hdone _).decided hd,
      .inl (hdone _), (hdone _).decided hd, .inl (hdone _), ?_⟩
    refine Disk.wp_fault_bind ((hdone _).decided hd) (.inl (hdone _)) ?_
    refine Disk.wp_fault_bind ((hdone _).decided hd) (.inl (hdone _)) ?_
    exact Disk.wp_fault.2 ⟨(hdone _).decided hd, .inl (hdone _), .inl (hdone _)⟩

/-- **Rollback**: the directory of the transaction, with the intent in it, goes last. -/
theorem wp_rollback (hd : Ready root d log id files)
    (hpaths : paths.map (root ++ ·) = ownPaths id files) (h : Open root d id files paths t) :
    Prog.wp (Decided root log id files) (rollback root id files : Job δ Unit) (fun _ u ↦
      Open root d id files paths u) t := by
  have hI : ∀ {u}, Open root d id files paths u → Decided root log id files u := fun h ↦
    h.decided hd hpaths
  rw [rollback, Prog.bind_eq, Prog.wp_bind]
  refine Prog.wp_forEach (J := fun l u ↦ ∃ done, files = done ++ l ∧
    Open root d id files paths u ∧ ∀ q ∈ ownPaths id done, u.file q = none) ?_ ?_ files
    ⟨[], rfl, h, by simp [ownPaths]⟩
  · rintro f l u ⟨done, hfiles, hu, hud⟩
    have hf : f ∈ files := hfiles ▸ by simp
    refine Disk.wp_call_bind (hI hu) hu fun u₁ h₁ ↦ ?_
    obtain ⟨-, rfl⟩ := Disk.unlink_eq_some h₁
    have hu₁ : Open root d id files paths (Table.set u f.1 none) :=
      hu.set_own hd (mem_ownPaths.2 ⟨f, hf, .inl rfl⟩) (by simp) (by simp)
    refine Disk.wp_call (hI hu₁) hu₁ fun u₂ h₂ ↦ ?_
    obtain ⟨-, rfl⟩ := Disk.unlink_eq_some h₂
    have hu₂ := hu₁.set_own hd (mem_ownPaths.2 ⟨f, hf, .inr rfl⟩) (n := none) (by simp) (by simp)
    refine ⟨hI hu₂, done ++ [f], by simpa using hfiles, hu₂, fun q hq ↦ ?_⟩
    rw [ownPaths, List.flatMap_append, List.mem_append] at hq
    rcases hq with hq | hq
    · exact file_set_none (file_set_none (hud q hq))
    · obtain rfl | rfl : q = f.1 ∨ q = pendingPath f.1 id := by simpa using hq
      · exact file_set_none (by simp)
      · simp
  · rintro u ⟨done, hfiles, hu, hud⟩
    rw [List.append_nil] at hfiles
    rw [← hfiles] at hud
    refine ⟨hI hu, ?_⟩
    show Prog.wp _ (Prog.bind _ _) _ u
    rw [Prog.wp_bind]
    refine Disk.wp_removeDirAll (J := fun u ↦ Open root d id files paths u ∧
      ∀ q ∈ ownPaths id files, u.file q = none) (fun u hu ↦ hI hu.1) ?_ (fun u hu ↦ hu.1) ?_ ⟨hu, hud⟩
    · rintro u q hq ⟨hu, hud⟩ -
      exact ⟨hu.remove_inside hud hq, fun q' hq' ↦ file_set_none (hud q' hq')⟩
    · rintro u ⟨hu, -⟩ -
      exact Disk.wp_fault.2 ⟨hI hu, hu, hu⟩

end Publish

/-! ### Commits -/

theorem commit_eq (queries : Queries) : (commit queries root id files : Job δ Unit) =
    recover queries root >>= fun _ ↦ checkFiles queries root id files >>=
      transact queries root id files := rfl

/-- **A transaction is open or done in every state**, and done when it returns. -/
theorem wp_transact {paths : List DiskPath} (hd : Ready root d log id files)
    (hpaths : paths.map (root ++ ·) = ownPaths id files) (hnodup : (files.map Prod.fst).Nodup) :
    Prog.wp (Decided root log id files) (transact .answered root id files paths : Job δ Unit)
      (fun r t ↦ Decided root log id files t ∧ (r = .ok () → Done root d id files t)) d := by
  have hI : ∀ {v}, Open root d id files paths v → Decided root log id files v := fun h ↦
    h.decided hd hpaths
  have hopen : Open root d id files paths d := hd.open
  rw [transact, Prog.bind_eq, Prog.wp_bind]
  refine Disk.wp_createDirAll (J := Open root d id files paths) (fun v hv ↦ hI hv) ?_
    (fun v hv ↦ ⟨hI hv, by simp⟩) ?_ hopen
  · intro v q hq _ hv hnone
    refine hv.mkdir hnone fun x hx heq ↦ hx ?_
    rw [← heq, ← List.append_nil (transactionDir root id), transactionDir_prefix_iff] at hq
    exact hq
  · intro v hv hdirs
    show Prog.wp _ (Prog.bind _ _) _ v
    rw [Prog.wp_bind, Prog.wp_attempt]
    refine Prog.wp_mono (wp_publish hd hpaths hnodup hv (hdirs _ (List.prefix_refl _)))
      (fun _ hs ↦ hs) ?_
    rintro (e | ⟨⟩) w - hw
    · show Prog.wp _ (Prog.bind _ _) _ w
      rw [Prog.wp_bind, Disk.wp_query_answered]
      rcases hw with hw | ⟨-, hw⟩
      · refine ⟨hw.decided hd, ?_⟩
        simp only [hw.marked, if_true]
        exact ⟨hw.decided hd, hw.decided hd, by simp⟩
      · refine ⟨hI hw, ?_⟩
        simp only [hw.unmarked, Bool.false_eq_true, if_false, Prog.bind_eq, Prog.wp_bind]
        refine Prog.wp_mono (wp_rollback hd hpaths hw) (fun _ hs ↦ hs) ?_
        rintro (e' | ⟨⟩) w' - hw'
        · exact ⟨hI hw', by simp⟩
        · exact ⟨hI hw', hI hw', by simp⟩
    · have hw := hw.resolve_right (by simp)
      exact ⟨hw.decided hd, hw.decided hd, fun _ ↦ hw⟩

/-- **Every state of a commit is decided**, and a commit that returns has left its marker. -/
theorem wp_commit {isUuid : String → Bool} (hd : Sound root d log)
    (hadmissible : Admissible isUuid root d id files) :
    Prog.wp (Decided root log id files) (commit .answered root id files : Job δ Unit) (fun r t ↦
      Decided root log id files t ∧ (r = .ok () → t.isFile (markerPath root id) = true)) d := by
  have hstart : Decided root log id files d := by
    refine .inr ⟨?_, hd, hadmissible.new⟩
    have hnone := hadmissible.fresh (markerPath root id)
      (by rw [markerPath_eq]; exact List.prefix_append _ _)
    simp [Disk.isFile, Disk.file, hnone]
  rw [commit_eq, Prog.bind_eq, Prog.wp_bind]
  refine Prog.wp_mono (wp_recover hd) (fun _ ht ↦ ht.decided hstart) ?_
  rintro (e | ⟨⟩) t - ⟨ht, hclean⟩
  · exact ⟨ht.decided hstart, by simp⟩
  have hdecided := ht.decided hstart
  show Prog.wp _ (Prog.bind _ _) _ t
  rw [Prog.wp_bind]
  refine Prog.wp_mono (wp_checkFiles hdecided) (fun _ hs ↦ hs) ?_
  rintro (e | paths) u - ⟨rfl, hchecked⟩
  · exact ⟨hdecided, by simp⟩
  obtain ⟨hpaths, hnodup, -⟩ := hchecked paths rfl
  refine Prog.wp_mono (wp_transact (ht.ready hd hadmissible (hclean rfl)) hpaths hnodup)
    (fun _ hs ↦ hs) fun r w _ hw ↦ ⟨hw.1, fun hr ↦ (hw.2 hr).marked⟩

/-! ### Runs of a store -/

/-- The states of a store that has only been changed by commits and recoveries, each of them run to
its end, failed, or stopped anywhere, with the transactions whose marker was there when the run of
their commit ended. The store may hold anything when it is opened for the first time, except
transactions. -/
inductive Reached (queries : Queries) (isUuid : String → Bool) (root : DiskPath) :
    Disk (Content δ) → List (Captured δ) → Prop
  | opened {d : Disk (Content δ)} (h : ∀ q, transactions root <+: q → d[q]? = none) :
      Reached queries isUuid root d []
  | committed {d t : Disk (Content δ)} {log : List (Captured δ)} {id : String}
      {files : List (DiskPath × δ)} {evs : List Empty} {r : Option (Except Error Unit)}
      (h : Reached queries isUuid root d log) (hadmissible : Admissible isUuid root d id files)
      (hx : (commit queries root id files).Exec d evs t r) :
      Reached queries isUuid root t
        (if t.isFile (markerPath root id) then ⟨id, files⟩ :: log else log)
  | recovered {d t : Disk (Content δ)} {log : List (Captured δ)} {evs : List Empty}
      {r : Option (Except Error Unit)} (h : Reached queries isUuid root d log)
      (hx : (recover queries root).Exec d evs t r) : Reached queries isUuid root t log

/-- Any number of recoveries, each of them run to its end, failed, or stopped anywhere. -/
inductive Recoveries (queries : Queries) (root : DiskPath) (d : Disk (Content δ)) :
    Disk (Content δ) → Prop
  | none : Recoveries queries root d d
  | again {t u : Disk (Content δ)} {evs : List Empty} {r : Option (Except Error Unit)}
      (h : Recoveries queries root d t) (hx : (recover queries root).Exec t evs u r) :
      Recoveries queries root d u

/-- What a commit that ended with `r`, and then a recovery, have made of the disk: all files or
none, the earlier transactions as they were, and nothing left to recover. -/
structure AllOrNothing (queries : Queries) (isUuid : String → Bool) (root : DiskPath)
    (log : List (Captured δ)) (id : String) (files : List (DiskPath × δ))
    (r : Option (Except Error Unit)) (d : Disk (Content δ)) : Prop where
  whole : (isCommitted isUuid root id d = true ∧ ∀ f ∈ files, d.file f.1 = some (.data f.2)) ∨
    (isCommitted isUuid root id d = false ∧
      ∀ f ∈ files, d.file f.1 = none ∧ d.file (pendingPath f.1 id) = none)
  returned : r = some (.ok ()) → isCommitted isUuid root id d = true
  earlier : ∀ e ∈ log, d.isFile (markerPath root e.id) = true ∧
    ∀ f ∈ e.files, d.file f.1 = some (.data f.2)
  final : ∀ evs t r, (recover queries root : Job δ Unit).Exec d evs t r → t = d

theorem Decided.sound (h : Decided root log id files t) : Sound root t
    (if t.isFile (markerPath root id) then ⟨id, files⟩ :: log else log) := by
  rcases h with ⟨hmarker, h⟩ | ⟨hmarker, h, -⟩
  · rw [if_pos hmarker]
    exact h
  · rw [if_neg (by simp [hmarker])]
    exact h

/-- **The store is sound in every state it reaches.** -/
theorem Reached.sound {isUuid : String → Bool} (h : Reached .answered isUuid root d log) :
    Sound root d log := by
  induction h with
  | opened h =>
    refine ⟨by simp, by simp, by simp, ?_⟩
    rintro q ⟨x, ps, hx, -⟩
    have hdir := (Disk.isDir_eq_true.1 hx.1.1).resolve_left transactionDir_ne_nil
    rw [h _ (by simp [transactions, transactionDir])] at hdir
    exact absurd hdir (by simp)
  | committed _ hadmissible hx ih => exact (hx.of_wp (wp_commit ih hadmissible)).1.sound
  | recovered _ hx ih => exact (hx.of_wp (wp_recover ih)).1.sound ih

theorem Recoveries.decided (h : Recoveries .answered root d t) (hd : Decided root log id files d) :
    Decided root log id files t := by
  induction h with
  | none => exact hd
  | again _ hx ih => exact (hx.of_wp (wp_recover ih.sound)).1.decided ih

theorem Recoveries.isFile_marker (h : Recoveries .answered root d t)
    (hd : Decided root log id files d) :
    t.isFile (markerPath root id) = d.isFile (markerPath root id) := by
  induction h with
  | none => rfl
  | again h hx ih =>
    have hs := (h.decided hd).sound
    rw [(hx.of_wp (wp_recover hs)).1.isFile_marker hs, ih]

/-- **Captures are all-or-nothing** when the queries of the file system are answered: from every
state that earlier commits have reached, a commit that is stopped at any step, fails at any call or
returns, followed by any number of recoveries and a last one that returns, leaves all files of the
transaction or none, every earlier transaction, and nothing to recover. -/
theorem capture_all_or_nothing {isUuid : String → Bool} (hd : Reached .answered isUuid root d log)
    (hadmissible : Admissible isUuid root d id files) {evs : List Empty}
    {r : Option (Except Error Unit)} (hcommit : (commit .answered root id files).Exec d evs t r)
    {u v : Disk (Content δ)} (hrecoveries : Recoveries .answered root t u)
    (hlast : (recover .answered root).Returns u (.ok ()) v) :
    AllOrNothing .answered isUuid root log id files r v := by
  have hwp := hcommit.of_wp (wp_commit hd.sound hadmissible)
  have hu := hrecoveries.decided hwp.1
  obtain ⟨hswept, hclean⟩ := hlast.of_wp (wp_recover hu.sound)
  have hclean := hclean rfl
  have hv := hswept.decided hu
  have hcommitted : isCommitted isUuid root id v = v.isFile (markerPath root id) := by
    simp [isCommitted, hadmissible.uuid, hadmissible.nonempty]
  refine ⟨?_, fun hr ↦ ?_, fun e he ↦ ?_, fun evs w r hx ↦ ?_⟩
  · rw [hcommitted]
    rcases hv with ⟨hmarker, hv⟩ | ⟨hmarker, -, hown⟩
    · exact .inl ⟨hmarker, hv.kept ⟨id, files⟩ (by simp)⟩
    · -- nothing is unfinished, so nothing is left over
      have hgone : ∀ q ∈ ownPaths id files, v.file q = none := fun q hq ↦ by
        refine (hown q hq).resolve_left ?_
        rintro ⟨x, ps, hx, -⟩
        exact hclean.finished x hx.1
      exact .inr ⟨hmarker, fun f hf ↦ ⟨hgone _ (mem_ownPaths.2 ⟨f, hf, .inl rfl⟩),
        hgone _ (mem_ownPaths.2 ⟨f, hf, .inr rfl⟩)⟩⟩
  · have hmarker := (hwp.2 _ hr).2 rfl
    rw [hcommitted]
    exact hswept.isFile_marker hu.sound ▸ hrecoveries.isFile_marker hwp.1 ▸ hmarker
  · rcases hv with ⟨-, hv⟩ | ⟨-, hv, -⟩
    · exact ⟨hv.marked e (by simp [he]), hv.kept e (by simp [he])⟩
    · exact ⟨hv.marked e he, hv.kept e he⟩
  · exact (hx.of_wp (wp_recover_of_clean hclean)).1

/-! ### A stopped commit, and a query that fails -/

/-- The root of the mail store. -/
def sampleRoot : DiskPath := ["_mail"]

/-- A store that has just been opened. -/
def sampleDisk : Disk (Content ℕ) := (∅ : Disk (Content ℕ)).set sampleRoot (some .directory)

/-- The transaction that is stopped in the examples. -/
def sampleId : String := "6f1c1d6e-0d0b-4e57-9a3e-3b1f0c7a9d01"

/-- A transaction beside it. -/
def otherId : String := "0e8a57c2-93b4-4f0c-8a55-7d1c2b3f4e02"

/-- The two identities are UUIDs, and nothing else is looked at. -/
def sampleIsUuid (id : String) : Bool := id == sampleId || id == otherId

/-- The files of the first transaction: the copies for two mailboxes. -/
def sampleFiles : List (DiskPath × ℕ) :=
  [(sampleRoot ++ ["mbx-1", "m.json"], 1), (sampleRoot ++ ["mbx-1", "m.raw"], 2)]

/-- The file of the second one. -/
def otherFiles : List (DiskPath × ℕ) := [(sampleRoot ++ ["mbx-2", "n.json"], 3)]

theorem sampleDisk_reached (queries : Queries) :
    Reached queries sampleIsUuid sampleRoot sampleDisk [] := by
  refine .opened fun q hq ↦ ?_
  have hne : q ≠ sampleRoot := by
    rintro rfl
    have hlen := hq.length_le
    simp [transactions, sampleRoot] at hlen
  simp [sampleDisk, hne]

/-- What a caller promises, checked on a concrete disk. -/
theorem admissible_of_keys {isUuid : String → Bool} (huuid : isUuid id = true) (hne : id ≠ "")
    (hkeys : d.keys.all (fun q ↦ !(transactionDir root id).isPrefixOf q) = true)
    (hnew : (ownPaths id files).all (fun q ↦ !d.isFile q) = true)
    (hplaced : files.all (fun f ↦ !(transactions root).isPrefixOf f.1) = true) :
    Admissible isUuid root d id files where
  uuid := huuid
  nonempty := hne
  fresh q hq := by
    by_contra hsome
    have hkey := List.all_eq_true.1 hkeys q (Table.mem_keys.2 (Option.isSome_iff_ne_none.2 hsome))
    simp [List.isPrefixOf_iff_prefix.2 hq] at hkey
  new q hq := by
    have hfile := List.all_eq_true.1 hnew q hq
    exact .inr (by simpa [Disk.isFile] using hfile)
  placed f hf := by
    have hpre : ∀ x, ¬ transactionDir root x <+: f.1 := fun x hx ↦ by
      have hf := List.all_eq_true.1 hplaced f hf
      have ht : transactions root <+: f.1 :=
        List.IsPrefix.trans (by simp [transactions, transactionDir]) hx
      simp [List.isPrefixOf_iff_prefix.2 ht] at hf
    exact ⟨fun x hx ↦ absurd hx (hpre x), fun heq ↦ hpre id (heq ▸ List.prefix_refl _)⟩

theorem sampleDisk_admissible : Admissible sampleIsUuid sampleRoot sampleDisk sampleId sampleFiles :=
  admissible_of_keys (by decide) (by decide) (by decide) (by decide)
    (by decide)

/-- A commit that is stopped when one of its files is published and the other one is pending. -/
def stoppedDisk : Disk (Content ℕ) :=
  (commit .answered sampleRoot sampleId sampleFiles).crashAfter [] 20 sampleDisk

theorem stoppedDisk_run :
    stoppedDisk.isFile (sampleRoot ++ ["mbx-1", "m.json"]) = true ∧
    stoppedDisk.isFile (pendingPath (sampleRoot ++ ["mbx-1", "m.raw"]) sampleId) = true ∧
    ((recover .answered sampleRoot).run [] stoppedDisk).1 = some (.ok ()) := by
  decide

theorem stopped_capture_recovers :
    stoppedDisk.isFile (sampleRoot ++ ["mbx-1", "m.json"]) = true ∧
    stoppedDisk.isFile (pendingPath (sampleRoot ++ ["mbx-1", "m.raw"]) sampleId) = true ∧
    AllOrNothing .answered sampleIsUuid sampleRoot [] sampleId sampleFiles none
      ((recover .answered sampleRoot).run [] stoppedDisk).2 := by
  obtain ⟨hpublished, hpending, hrecovered⟩ := stoppedDisk_run
  refine ⟨hpublished, hpending, ?_⟩
  obtain ⟨evs, hx⟩ := Prog.stops_crashAfter
    (commit .answered sampleRoot sampleId sampleFiles) [] 20 sampleDisk
  exact capture_all_or_nothing (sampleDisk_reached .answered) sampleDisk_admissible hx .none
    (Prog.returns_run hrecovered)

/-- A commit. -/
def capturing : Option (Except Error Unit) × Disk (Content ℕ) :=
  (commit .failing sampleRoot sampleId sampleFiles).run [] sampleDisk

/-- A second commit, whose recovery cannot find out whether the first one has its marker. -/
def losing : Option (Except Error Unit) × Disk (Content ℕ) :=
  (commit .failing sampleRoot otherId otherFiles).run [0, 0, 0, 0, 0, 0, 1] capturing.2

theorem capturing_run : capturing.1 = some (.ok ()) ∧
    capturing.2.isFile (markerPath sampleRoot sampleId) = true ∧
    capturing.2.keys.all (fun q ↦ !(transactionDir sampleRoot otherId).isPrefixOf q) = true ∧
    (ownPaths otherId otherFiles).all (fun q ↦ !capturing.2.isFile q) = true := by
  decide

theorem losing_run : losing.1 = some (.ok ()) ∧
    ((recover .failing sampleRoot).run [] losing.2).1 = some (.ok ()) ∧
    ((recover .failing sampleRoot).run [] losing.2).2.file (sampleRoot ++ ["mbx-1", "m.json"]) =
      none := by
  decide

/-- **A query that fails loses a committed capture.** The second commit returns, and the files of
the first are gone. -/
theorem failed_query_loses_capture : ∃ log : List (Captured ℕ),
    Reached .failing sampleIsUuid sampleRoot capturing.2 log ∧
    Admissible sampleIsUuid sampleRoot capturing.2 otherId otherFiles ∧
    (commit .failing sampleRoot otherId otherFiles).Returns capturing.2 (.ok ()) losing.2 ∧
    (recover .failing sampleRoot).Returns losing.2 (.ok ())
      ((recover .failing sampleRoot).run [] losing.2).2 ∧
    ¬ AllOrNothing .failing sampleIsUuid sampleRoot log otherId otherFiles (some (.ok ()))
      ((recover .failing sampleRoot).run [] losing.2).2 := by
  obtain ⟨hreturned, hmarked, hkeys, hnew⟩ := capturing_run
  obtain ⟨hlosing, hrecovered, hlost⟩ := losing_run
  obtain ⟨evs, hx⟩ : (commit .failing sampleRoot sampleId sampleFiles).Returns sampleDisk (.ok ())
      capturing.2 := Prog.returns_run hreturned
  have hreached := (sampleDisk_reached .failing).committed sampleDisk_admissible hx
  rw [if_pos hmarked] at hreached
  refine ⟨_, hreached, admissible_of_keys (by decide) (by decide) hkeys hnew (by decide),
    Prog.returns_run hlosing, Prog.returns_run hrecovered, fun h ↦ ?_⟩
  have hkept := (h.earlier ⟨sampleId, sampleFiles⟩ (by simp)).2
    (sampleRoot ++ ["mbx-1", "m.json"], 1) (by simp [sampleFiles])
  rw [hlost] at hkept
  exact absurd hkept (by simp)

end Sqrzl.Capture
