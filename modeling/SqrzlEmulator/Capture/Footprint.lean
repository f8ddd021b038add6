import SqrzlEmulator.Capture.Atomicity
import SqrzlEmulator.Prog.Rules

/-!
# What a commit keeps

A property of a disk may speak of the captured documents only: directories, markers, intents and
removed files do not matter to it (`Documentary`). **Such a property is kept by a commit as soon as
it is kept by each of its documents**, at the place of the document and at the name under which it is
written first (`keeps_commit`), whatever fails and wherever the commit is stopped. Nothing is assumed
about the disk, nor about the answers to the queries.
-/

namespace Sqrzl.Capture

open Prog

variable {δ α : Type} {I : Disk (Content δ) → Prop} {root : DiskPath} {id : String}
  {files : List (DiskPath × δ)} {e : Error}

/-! ### Calls -/

theorem keeps_fault : (Disk.fault e : Job δ Unit).Keeps I :=
  fun _ hd ↦ Disk.wp_fault.2 ⟨hd, hd, hd⟩

theorem keeps_call {f : Disk (Content δ) → Option (Disk (Content δ))}
    (h : ∀ d d', I d → f d = some d' → I d') : (Disk.call e f : Job δ Unit).Keeps I :=
  fun d hd ↦ Disk.wp_call hd hd fun d' hd' ↦ ⟨h d d' hd hd', h d d' hd hd'⟩

theorem keeps_query (queries : Queries) (g : Disk (Content δ) → Bool) :
    (Disk.query queries g : Job δ Bool).Keeps I := by
  cases queries with
  | answered => exact keeps_read g
  | failing =>
    refine keeps_choose fun n ↦ ?_
    split
    · exact keeps_read g
    · exact keeps_ret false

theorem keeps_readFile {q : DiskPath} : (Disk.readFile e q : Job δ (Content δ)).Keeps I :=
  fun _ hd ↦ Disk.wp_readFile hd hd fun _ _ ↦ hd

theorem keeps_readDir {q : DiskPath} : (Disk.readDir e q : Job δ (List String)).Keeps I :=
  fun _ hd ↦ Disk.wp_readDir hd hd fun _ _ _ ↦ hd

/-! ### Properties of the documents -/

/-- What is not a document does not matter. -/
def Documentary (I : Disk (Content δ) → Prop) : Prop :=
  ∀ d q n, I d → (∀ c, n ≠ some (.file (.data c))) → I (Table.set d q n)

/-- A document may be put at a path. -/
def Allows (I : Disk (Content δ) → Prop) (q : DiskPath) (c : δ) : Prop :=
  ∀ d, I d → I (Table.set d q (some (.file (.data c))))

section Documents

variable (hI : Documentary I)

include hI

theorem Documentary.remove {d : Disk (Content δ)} (hd : I d) (q : DiskPath) :
    I (Table.set d q none) :=
  hI d q none hd fun _ h ↦ by cases h

theorem Documentary.torn {d : Disk (Content δ)} (hd : I d) (q : DiskPath) :
    I (Table.set d q (some (.file .torn))) :=
  hI d q _ hd fun _ h ↦ by cases h

theorem keeps_createDirAll {q : DiskPath} : (Disk.createDirAll e q : Job δ Unit).Keeps I :=
  fun _ hd ↦ Disk.wp_createDirAll (J := I) (fun _ ↦ id)
    (fun t q _ _ ht _ ↦ hI t q _ ht fun _ h ↦ by cases h) (fun _ ↦ id) (fun _ ht _ ↦ ht) hd

theorem keeps_removeDirAll {q : DiskPath} : (Disk.removeDirAll e q : Job δ Unit).Keeps I :=
  fun _ hd ↦ Disk.wp_removeDirAll (J := I) (fun _ ↦ id) (fun _ q _ ht _ ↦ hI.remove ht q)
    (fun _ ↦ id) (fun _ ht _ ↦ ht) hd

theorem keeps_unlink {q : DiskPath} : (Disk.call e (Disk.unlink q) : Job δ Unit).Keeps I := by
  refine keeps_call fun d d' hd hd' ↦ ?_
  obtain ⟨-, rfl⟩ := Disk.unlink_eq_some hd'
  exact hI.remove hd q

/-- Recovery only removes. -/
theorem keeps_recover (queries : Queries) : (recover queries root : Job δ Unit).Keeps I := by
  have hintended : ∀ x, (removeIntended queries root x : Job δ Unit).Keeps I := by
    refine fun x ↦ (keeps_query queries _).bind fun there ↦ ?_
    cases there with
    | false => exact keeps_ret ()
    | true =>
      refine keeps_readFile.bind fun content ↦ ?_
      cases content with
      | intent paths =>
        exact keeps_forEach fun q _ ↦ (keeps_ofExcept _).bind fun _ ↦ keeps_unlink hI
      | torn | marker | data c => exact keeps_fail _
  refine (keeps_createDirAll hI).bind fun _ ↦ keeps_readDir.bind fun ids ↦
    (keeps_forEach fun x _ ↦ keeps_fault.bind fun _ ↦ (keeps_query queries _).bind fun made ↦ ?_).bind
      fun _ ↦ keeps_fault
  cases made with
  | false => exact keeps_ret ()
  | true =>
    refine (keeps_query queries _).bind fun marked ↦ ?_
    cases marked with
    | true => exact keeps_ret ()
    | false => exact (hintended x).bind fun _ ↦ keeps_removeDirAll hI

theorem keeps_publishIntent {paths : List DiskPath} :
    (publishIntent root id paths : Job δ Unit).Keeps I := by
  intro d hd
  have hintent : ∀ t q, I t → I (Table.set t q (some (.file (.intent paths)))) := fun t q ht ↦
    hI t q _ ht fun _ h ↦ by cases h
  rw [publishIntent]
  refine Disk.wp_fault_bind hd hd ?_
  refine Disk.wp_call_bind hd hd fun t₁ h₁ ↦ ?_
  obtain ⟨-, rfl⟩ := Disk.createNew_eq_some h₁
  have h₁ := hI.torn hd (stagedIntentPath root id)
  refine Disk.wp_call_bind h₁ h₁ fun t₂ h₂ ↦ ?_
  obtain rfl := Disk.write_eq_some h₂
  have h₂ := hI.torn h₁ (stagedIntentPath root id)
  refine Disk.wp_fault_bind h₂ h₂ ?_
  refine Disk.wp_call_bind h₂ h₂ fun t₃ h₃ ↦ ?_
  obtain rfl := Disk.write_eq_some h₃
  have h₃ := hintent _ (stagedIntentPath root id) h₂
  refine Disk.wp_fault_bind h₃ h₃ ?_
  refine Disk.wp_fault_bind h₃ h₃ ?_
  refine Disk.wp_call_bind h₃ h₃ fun t₄ h₄ ↦ ?_
  -- what is moved is the intent that has just been written
  obtain ⟨c, hc, -, rfl⟩ := Disk.rename_eq_some h₄
  obtain rfl : Content.intent paths = c := by simpa using hc
  have h₄ := hintent _ (intentPath root id) (hI.remove h₃ (stagedIntentPath root id))
  refine Disk.wp_fault_bind h₄ h₄ ?_
  refine Disk.wp_fault_bind h₄ h₄ ?_
  refine Disk.wp_fault_bind h₄ h₄ ?_
  exact Disk.wp_fault.2 ⟨h₄, h₄, h₄⟩

/-- A document is written under another name, and moved to its place. -/
theorem keeps_publishFile {f : DiskPath × δ} (hpending : Allows I (pendingPath f.1 id) f.2)
    (hplace : Allows I f.1 f.2) (index : ℕ) : (publishFile id f index : Job δ Unit).Keeps I := by
  refine (keeps_createDirAll hI).bind fun _ d hd ↦ ?_
  show Prog.wp _ (Prog.bind _ _) _ d
  rw [Prog.wp_bind]
  have htorn := hI.torn hd (pendingPath f.1 id)
  have h₁ := hpending d hd
  refine wp_writeNewSynced hd hd fun _ ↦ ⟨htorn, htorn, h₁, h₁, ?_⟩
  refine Disk.wp_fault_bind h₁ h₁ ?_
  refine Disk.wp_call_bind h₁ h₁ fun u hu ↦ ?_
  obtain ⟨c, hc, -, rfl⟩ := Disk.rename_eq_some hu
  obtain rfl : Content.data f.2 = c := by simpa using hc
  have h₂ := hplace _ (hI.remove h₁ (pendingPath f.1 id))
  refine Disk.wp_fault_bind h₂ h₂ ?_
  refine Disk.wp_fault_bind h₂ h₂ ?_
  exact Disk.wp_fault.2 ⟨h₂, h₂, h₂⟩

/-- **A commit keeps what each of its documents keeps.** -/
theorem keeps_commit (queries : Queries)
    (hfiles : ∀ f ∈ files, Allows I (pendingPath f.1 id) f.2 ∧ Allows I f.1 f.2) :
    (commit queries root id files : Job δ Unit).Keeps I := by
  have hcheck : (checkFiles queries root id files : Job δ (List DiskPath)).Keeps I := by
    refine (keeps_foldEach fun acc f ↦ ?_).bind fun _ ↦ keeps_ret _
    split
    · exact keeps_fail _
    · refine (keeps_ofExcept _).bind fun _ ↦ (keeps_query queries _).bind fun _ ↦ ?_
      split
      · exact keeps_fail _
      · exact keeps_ret _
  have hpublish : ∀ paths, (publish root id files paths : Job δ Unit).Keeps I := by
    refine fun paths ↦ (keeps_publishIntent hI).bind fun _ ↦ (keeps_forEach fun f hf ↦ ?_).bind
      fun _ ↦ Keeps.bind (fun d hd ↦ ?_) fun _ ↦ keeps_fault.bind fun _ ↦ keeps_fault.bind
        fun _ ↦ keeps_fault
    · obtain ⟨hpending, hplace⟩ := hfiles f.1 (List.fst_mem_of_mem_zipIdx hf)
      exact keeps_publishFile hI hpending hplace f.2
    · have htorn := hI.torn hd (markerPath root id)
      have hmarker := hI d (markerPath root id) (some (.file .marker)) hd fun _ h ↦ by cases h
      exact wp_writeNewSynced hd hd fun _ ↦ ⟨htorn, htorn, hmarker, hmarker, hmarker⟩
  have hrollback : (rollback root id files : Job δ Unit).Keeps I :=
    (keeps_forEach fun f _ ↦ (keeps_unlink hI).bind fun _ ↦ keeps_unlink hI).bind fun _ ↦
      (keeps_removeDirAll hI).bind fun _ ↦ keeps_fault
  refine (keeps_recover hI queries).bind fun _ ↦ hcheck.bind fun paths ↦
    (keeps_createDirAll hI).bind fun _ ↦ (hpublish paths).attempt.bind fun r ↦ ?_
  cases r with
  | ok _ => exact keeps_ret ()
  | error err =>
    refine (keeps_query queries _).bind fun marked ↦ ?_
    cases marked with
    | true => exact keeps_fail err
    | false => exact hrollback.bind fun _ ↦ keeps_fail err

end Documents

end Sqrzl.Capture
