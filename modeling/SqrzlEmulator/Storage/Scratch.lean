import SqrzlEmulator.Prog.Rules
import SqrzlEmulator.Storage.Staging

/-!
# What staging and composing leave behind

A call that has returned should leave nothing of its own (`LeavesNothing`), and the start after a
kill should remove what was left and every request spool, and keep the staged items (`Recovers`).

* **Only request spools are known to the start of the server.** A kill can leave the scratch file of
  a composition, or of the staging of a part of a request, and these stay for ever
  (`recovers_iff`): their names are not those that `cleanup_stale_spool_files` looks for.
* **A composition whose object cannot be written returns early**, before its scratch file is
  removed. It leaves nothing exactly if every write that fails has taken the payload
  (`leavesNothing_iff`), which a missing bucket already refutes (`composed_for_missing_bucket`).
* A staging that has returned has left nothing (`wp_stageUploadPayload`), and no staged item is ever
  removed at the start (`wp_cleanupStaleSpoolFiles`).

What a call cannot do is shown with `wp`; what it can do, by putting a run together.
-/

namespace Sqrzl.Staging

open Prog

variable {ε α : Type}

/-! ### Single calls -/

section Rules

variable {I : Store → Prop} {s : Store} {e : ε}

theorem wp_fileCall {f : Store → Option Store} {Q : Except ε Unit → Store → Prop} (hs : I s)
    (hok : ∀ t, f s = some t → I t ∧ Q (.ok ()) t) (herr : Q (.error e) s) :
    wp I (fileCall e f) Q s := by
  intro n
  show wp I (if n = 0 then _ else _) Q s
  by_cases hn : n = 0
  · rw [if_pos hn, wp_sys]
    refine ⟨hs, ?_⟩
    cases hf : f s with
    | none => exact herr
    | some t => exact hok t hf
  · rw [if_neg hn]
    exact ⟨hs, herr⟩

theorem wp_fileRead {g : Store → Option α} {Q : Except ε α → Store → Prop} (hs : I s)
    (hok : ∀ a, g s = some a → Q (.ok a) s) (herr : Q (.error e) s) :
    wp I (fileRead e g) Q s := by
  intro n
  show wp I (if n = 0 then _ else _) Q s
  by_cases hn : n = 0
  · rw [if_pos hn, wp_sysRead]
    refine ⟨hs, ?_⟩
    cases hg : g s with
    | none => exact herr
    | some a => exact hok a hg
  · rw [if_neg hn]
    exact ⟨hs, herr⟩

theorem wp_fileCall_bind {β : Type} {f : Store → Option Store}
    {k : Unit → Prog Event ε Store β} {Q : Except ε β → Store → Prop} (hs : I s)
    (hok : ∀ t, f s = some t → wp I (k ()) Q t) (herr : Q (.error e) s) :
    wp I (fileCall e f >>= k) Q s :=
  wp_bind.2 (wp_fileCall hs (fun t ht ↦ ⟨inv_of_wp (hok t ht), hok t ht⟩) herr)

theorem wp_fileRead_bind {β : Type} {g : Store → Option α} {k : α → Prog Event ε Store β}
    {Q : Except ε β → Store → Prop} (hs : I s) (hok : ∀ a, g s = some a → wp I (k a) Q s)
    (herr : Q (.error e) s) : wp I (fileRead e g >>= k) Q s :=
  wp_bind.2 (wp_fileRead hs hok herr)

theorem returns_fileCall {f : Store → Option Store} {t : Store} (h : f s = some t) :
    (fileCall e f).Returns s (.ok ()) t :=
  ⟨_, .choose 0 (.ioOk h (.ret () t))⟩

theorem returns_fileRead {g : Store → Option α} {a : α} (h : g s = some a) :
    (fileRead e g).Returns s (.ok a) s := by
  have hx : (sysRead e g : Prog Event ε Store α).Exec s [] s (some (.ok a)) := by
    refine .step rfl ?_
    dsimp only [ret_bind, id]
    rw [h]
    exact .ret a s
  exact ⟨_, .choose 0 hx⟩

end Rules

/-! ### What is required of a call -/

/-- The calls that write a scratch file. -/
inductive Call where
  | stage (provider session item payloadPath : String) (sourceOffset len : ℕ)
  | compose (provider session : String) (items : List String) (bucket : String) (key : Text)
    (object : Object) (condition : Option ObjectCondition)
  | spool (frames : List Frame) (maxRequestBytes : ℕ)

section Statement

variable (E : Env) (P : PathDigest)

/-- The file that a call writes and that is not meant to stay. -/
def Call.scratch (n : ℕ) : Call → String
  | .stage provider session item _ _ _ => temporaryPath P provider session item (E.uuid n)
  | .compose .. => composePath (E.uuid n)
  | .spool .. => spoolPath (E.uuid n)

/-- A kill can leave `t`. -/
def Call.Stops (n : ℕ) (s t : Store) : Call → Prop
  | .stage provider session item payloadPath sourceOffset len =>
    (stageUploadPayload E P (E.uuid n) provider session item payloadPath sourceOffset len).Stops s t
  | .compose provider session items bucket key object condition =>
    (composeUploadPayloads E P (E.uuid n) provider session items bucket key object
      condition).Stops s t
  | .spool frames maxRequestBytes => (spoolBodyToDisk (E.uuid n) frames maxRequestBytes).Stops s t

/-- The call can return in `t`, with a value or an error. A request that has been spooled is handed
on with its file, so spooling is not asked for here. -/
def Call.Finishes (n : ℕ) (s t : Store) : Call → Prop
  | .stage provider session item payloadPath sourceOffset len => ∃ r,
    (stageUploadPayload E P (E.uuid n) provider session item payloadPath sourceOffset
      len).Returns s r t
  | .compose provider session items bucket key object condition => ∃ r,
    (composeUploadPayloads E P (E.uuid n) provider session items bucket key object
      condition).Returns s r t
  | .spool .. => False

/-- **A call that has returned has left no scratch file**, whatever it has returned. -/
def Call.LeavesNothing (c : Call) (s : Store) : Prop :=
  ∀ n t, s.payloads[c.scratch E P n]? = none → c.Finishes E P n s t →
    t.payloads[c.scratch E P n]? = none

/-- **The start after a kill removes the scratch file and every request spool, and no staged
item.** A start that is itself killed, or that fails, removes no staged item either. -/
structure Call.Recovers (c : Call) (s : Store) : Prop where
  removes : ∀ n t u, s.payloads[c.scratch E P n]? = none → c.Stops E P n s t →
    cleanupStaleSpoolFiles.Returns t (.ok ()) u →
    u.payloads[c.scratch E P n]? = none ∧ ∀ path, isStaleSpool path → u.payloads[path]? = none
  keeps : ∀ n t u, c.Stops E P n s t → cleanupStaleSpoolFiles.Stops t u →
    ∀ provider session item, u.payloads[itemPath P provider session item]? =
      t.payloads[itemPath P provider session item]?

/-- The call writes no scratch file that the start of the server would have to know: it is a request
spool, or a staging that is refused or moves the whole payload. -/
def Call.Harmless (s : Store) : Call → Prop
  | .stage _ _ _ payloadPath sourceOffset len => ∀ data, s.payloads[payloadPath]? = some data →
    checkRange sourceOffset len data.length = .ok () → sourceOffset = 0 ∧ len = data.length
  | .compose .. => False
  | .spool .. => True

/-- The items of a session, joined. -/
def contents (s : Store) : List String → Option Bytes
  | [] => some []
  | path :: paths => do
    let data ← s.payloads[path]?
    let rest ← contents s paths
    return data ++ rest

/-- Every write of the composed object that fails has taken the payload. -/
def Call.PayloadTaken (s : Store) : Call → Prop
  | .compose provider session items bucket key object condition => ∀ n data e t,
    s.payloads[composePath (E.uuid n)]? = none →
    contents s (items.map (itemPath P provider session)) = some data →
    (putComposed E (composePath (E.uuid n)) bucket key object condition).Returns
      (writeFile (composePath (E.uuid n)) (some data) s) (.error e) t →
    t.payloads[composePath (E.uuid n)]? = none
  | _ => True

end Statement

/-! ### The start of the server -/

theorem spoolName_of_append {name : String} (h : '/' ∉ name.toList) :
    spoolName (".spool/" ++ name) = some name.toList := by
  have hlist : (".spool/" ++ name).toList = ".spool/".toList ++ name.toList := String.toList_append
  have hnot : name.toList.contains '/' = false := by
    rw [List.contains_eq_mem, decide_eq_false_iff_not]
    exact h
  rw [spoolName, hlist, List.drop_left, if_pos (List.isPrefixOf_iff_prefix.2 ⟨_, rfl⟩)]
  show (if name.toList.contains '/' = true then none else some name.toList) = _
  rw [hnot]
  rfl

theorem slash_not_mem_uuid (E : Env) (n : ℕ) : '/' ∉ (E.uuid n).toList := by
  have h := E.uuid_valid n
  simp only [validVersionId, Bool.and_eq_true, List.all_eq_true, decide_eq_true_eq] at h
  intro hmem
  exact (h.2 _ hmem).1.1 rfl

/-- **Every request spool is recognised.** -/
theorem isStaleSpool_spoolPath (E : Env) (n : ℕ) : isStaleSpool (spoolPath (E.uuid n)) = true := by
  have hname : '/' ∉ (".spool-" ++ E.uuid n ++ ".tmp").toList := by
    have huuid := slash_not_mem_uuid E n
    simp only [String.toList_append, List.mem_append, not_or]
    exact ⟨⟨by decide, huuid⟩, by decide⟩
  rw [isStaleSpool, spoolPath, spoolName_of_append hname]
  simp only [Option.any_some, String.toList_append, Bool.and_eq_true, List.isPrefixOf_iff_prefix,
    List.isSuffixOf_iff_suffix, List.append_assoc]
  exact ⟨⟨_, rfl⟩, _, (List.append_assoc ..)⟩

/-- **No scratch file of a composition is recognised.** -/
theorem isStaleSpool_composePath (E : Env) (n : ℕ) :
    isStaleSpool (composePath (E.uuid n)) = false := by
  have hname : '/' ∉ (".compose-" ++ E.uuid n ++ ".tmp").toList := by
    have huuid := slash_not_mem_uuid E n
    simp only [String.toList_append, List.mem_append, not_or]
    exact ⟨⟨by decide, huuid⟩, by decide⟩
  rw [isStaleSpool, composePath, spoolName_of_append hname]
  have hhead : ".spool-".toList.isPrefixOf (".compose-" ++ E.uuid n ++ ".tmp").toList = false := by
    rw [String.toList_append, String.toList_append]
    rfl
  rw [Option.any_some, hhead, Bool.false_and]

/-- Nothing in the directory of a session is recognised. -/
theorem isStaleSpool_session (P : PathDigest) (provider session name : String) :
    isStaleSpool (sessionDir P provider session ++ name) = false := by
  have hspool : ".spool/".toList = '.' :: 's' :: "pool/".toList := by simp
  have huploads : ".provider-uploads/".toList = '.' :: 'p' :: "rovider-uploads/".toList := by simp
  have hhead : ".spool/".toList.isPrefixOf (sessionDir P provider session ++ name).toList =
      false := by
    unfold sessionDir
    rw [String.toList_append, String.toList_append, huploads, hspool]
    rfl
  have hnone : spoolName (sessionDir P provider session ++ name) = none :=
    if_neg (Bool.eq_false_iff.1 hhead)
  rw [isStaleSpool, hnone]
  rfl

theorem isStaleSpool_temporaryPath (P : PathDigest) (provider session item uuid : String) :
    isStaleSpool (temporaryPath P provider session item uuid) = false :=
  isStaleSpool_session P provider session (P.digest item ++ (".tmp-" ++ uuid))

theorem isStaleSpool_itemPath (P : PathDigest) (provider session item : String) :
    isStaleSpool (itemPath P provider session item) = false :=
  isStaleSpool_session P provider session (P.digest item ++ ".blob")

/-- **What the start removes**: every file that it recognises, if it succeeds, and no other. -/
theorem wp_cleanupStaleSpoolFiles (t : Store) :
    wp (fun u ↦ ∀ path, isStaleSpool path = false → u.payloads[path]? = t.payloads[path]?)
      cleanupStaleSpoolFiles
      (fun r u ↦ r = .ok () → ∀ path, isStaleSpool path → u.payloads[path]? = none) t := by
  rw [cleanupStaleSpoolFiles]
  refine wp_fileRead_bind (fun _ _ ↦ rfl) (fun paths hpaths ↦ wp_bind.2 ?_) nofun
  obtain rfl := Option.some.inj hpaths
  refine wp_shuffled (fun _ _ ↦ rfl) fun order horder ↦ ?_
  show wp _ (forEach order _) _ t
  refine wp_forEach (J := fun rest (u : Store) ↦
      (∀ path ∈ rest, isStaleSpool path) ∧
      (∀ path, isStaleSpool path = false → u.payloads[path]? = t.payloads[path]?) ∧
      ∀ path, isStaleSpool path → u.payloads[path]? ≠ none → path ∈ rest)
    (fun path rest u hJ ↦ ?_) (fun u hJ ↦ ⟨hJ.2.1, fun _ path hpath ↦ ?_⟩) order ?_
  · obtain ⟨hstale, hkept, hrest⟩ := hJ
    refine wp_fileCall hkept (fun v hv ↦ ?_) nofun
    obtain ⟨data, -, rfl⟩ := Option.map_eq_some_iff.1 hv
    have hv : ∀ q, isStaleSpool q = false →
        (writeFile path none u).payloads[q]? = t.payloads[q]? := by
      intro q hq
      have hne : q ≠ path := by
        rintro rfl
        rw [hstale q (List.mem_cons_self ..)] at hq
        cases hq
      rw [payloads_writeFile, Table.getElem?_set, if_neg hne]
      exact hkept q hq
    refine ⟨hv, fun q hq ↦ hstale q (List.mem_cons_of_mem _ hq), hv, fun q hq hsome ↦ ?_⟩
    rw [payloads_writeFile, Table.getElem?_set] at hsome
    split at hsome
    · exact absurd rfl hsome
    · next hne =>
      rcases List.mem_cons.1 (hrest q hq hsome) with rfl | hmem
      · exact absurd rfl hne
      · exact hmem
  · by_contra hsome
    cases hJ.2.2 path hpath hsome
  · refine ⟨fun path hpath ↦ ?_, fun _ _ ↦ rfl, fun path hpath hsome ↦ ?_⟩
    · exact (List.mem_filter.1 (horder.mem_iff.1 hpath)).2
    · refine horder.mem_iff.2 (List.mem_filter.2 ⟨Table.mem_keys.2 ?_, hpath⟩)
      exact Option.isSome_iff_ne_none.2 hsome

/-- Removing files that are there, without a failure. -/
theorem returns_removals {order : List String} {t : Store} {e : Error} (hnodup : order.Nodup)
    (h : ∀ path ∈ order, (t.payloads[path]?).isSome) :
    ∃ u, (forEach order fun path ↦ fileCall e fun s ↦
      s.payloads[path]?.map fun _ ↦ writeFile path none s).Returns t (.ok ()) u := by
  induction order generalizing t with
  | nil => exact ⟨t, _, .ret () t⟩
  | cons path order ih =>
    obtain ⟨hnot, hnodup⟩ := List.nodup_cons.1 hnodup
    obtain ⟨data, hdata⟩ := Option.isSome_iff_exists.1 (h path (List.mem_cons_self ..))
    have hfirst : (t.payloads[path]?.map fun _ ↦ writeFile path none t) =
        some (writeFile path none t) := by
      rw [hdata]
      rfl
    have hothers : ∀ q ∈ order, ((writeFile path none t).payloads[q]?).isSome := by
      intro q hq
      have hne : q ≠ path := fun heq ↦ hnot (heq ▸ hq)
      rw [payloads_writeFile, Table.getElem?_set, if_neg hne]
      exact h q (List.mem_cons_of_mem _ hq)
    obtain ⟨u, hu⟩ := ih hnodup hothers
    exact ⟨u, (returns_fileCall hfirst).bind hu⟩

/-- **The start can succeed**, whatever is there. -/
theorem returns_cleanupStaleSpoolFiles (t : Store) :
    ∃ u, cleanupStaleSpoolFiles.Returns t (.ok ()) u := by
  have hperm := permute_perm 0 (t.payloads.keys.filter isStaleSpool)
  obtain ⟨u, hu⟩ := returns_removals
    (e := .internalError "Failed to clean stale request spool files")
    (hperm.nodup_iff.2 ((Table.nodup_keys t.payloads).filter _)) fun path hpath ↦
      Table.mem_keys.1 (List.mem_filter.1 (hperm.mem_iff.1 hpath)).1
  have hread : (fileRead (.internalError "Failed to clean stale request spool files") fun s ↦
      some (s.payloads.keys.filter isStaleSpool) : Op Store _).Returns t
      (.ok (t.payloads.keys.filter isStaleSpool)) t := returns_fileRead rfl
  have horder : (shuffled (t.payloads.keys.filter isStaleSpool) : Op Store _).Returns t
      (.ok (permute 0 (t.payloads.keys.filter isStaleSpool))) t := ⟨_, .choose 0 (.ret _ t)⟩
  exact ⟨u, hread.bind (horder.bind hu)⟩

/-! ### Copying -/

section Copying

variable {s : Store} {e : ε} {path : String}

theorem appendTo_writeFile (before data : Bytes) :
    appendTo path data (writeFile path (some before) s) =
      some (writeFile path (some (before ++ data)) s) := by
  rw [appendTo, payloads_writeFile, Table.getElem?_set, if_pos rfl, writeFile_writeFile]
  rfl

/-- **A copy leaves the data behind what was there**, or a part of it when it fails. -/
theorem wp_copyInto {I : Store → Prop} {Q : Except ε Unit → Store → Prop} {before data : Bytes}
    (hI : ∀ d, I (writeFile path (some d) s))
    (hok : Q (.ok ()) (writeFile path (some (before ++ data)) s))
    (herr : ∀ d, Q (.error e) (writeFile path (some d) s)) :
    wp I (copyInto e path data) Q (writeFile path (some before) s) := by
  intro n
  show wp I (Prog.bind _ _) Q _
  rw [wp_bind]
  refine wp_fileCall (hI _) (fun t ht ↦ ?_) (herr _)
  rw [appendTo_writeFile] at ht
  obtain rfl := Option.some.inj ht
  refine ⟨hI _, wp_fileCall (hI _) (fun t ht ↦ ?_) (herr _)⟩
  rw [appendTo_writeFile, List.append_assoc, List.take_append_drop] at ht
  obtain rfl := Option.some.inj ht
  exact ⟨hI _, hok⟩

theorem returns_copyInto (before data : Bytes) :
    (copyInto e path data).Returns (writeFile path (some before) s) (.ok ())
      (writeFile path (some (before ++ data)) s) := by
  have hfirst := @appendTo_writeFile s path before (data.take 0)
  have hsecond := @appendTo_writeFile s path (before ++ data.take 0) (data.drop 0)
  rw [List.append_assoc, List.take_append_drop] at hsecond
  obtain ⟨evs, hx⟩ := (returns_fileCall (e := e) hfirst).bind
    (g := fun _ ↦ fileCall e (appendTo path (data.drop 0))) (returns_fileCall hsecond)
  exact ⟨evs, .choose 0 hx⟩

end Copying

/-! ### Paths that differ -/

section Paths

variable (E : Env) (P : PathDigest) (provider session item : String) (n : ℕ)

theorem itemPath_ne_temporaryPath (uuid : String) :
    temporaryPath P provider session item uuid ≠ itemPath P provider session item := by
  intro h
  have hrest := String.append_right_inj _ |>.1 (String.append_right_inj _ |>.1 h)
  have hlist := congrArg String.toList hrest
  rw [String.toList_append] at hlist
  have hhead := congrArg (fun l ↦ l[1]?) hlist
  simp at hhead

theorem copyPath_ne_temporaryPath (uuid copy : String) :
    temporaryPath P provider session item uuid ≠
      sessionDir P provider session ++ (".copy-" ++ copy ++ ".tmp") := by
  intro h
  have hlist := congrArg String.toList (String.append_right_inj _ |>.1 h)
  have hdot := P.dotless item
  simp only [String.toList_append] at hlist
  cases hitem : (P.digest item).toList with
  | nil =>
    rw [hitem] at hlist
    have hhead := congrArg (fun l ↦ l[1]?) hlist
    simp at hhead
  | cons c rest =>
    rw [hitem] at hlist hdot
    have hhead := congrArg (fun l ↦ l[0]?) hlist
    simp at hhead
    exact hdot (hhead ▸ List.mem_cons_self ..)

end Paths

/-! ### Staging -/

section Stage

variable {E : Env} {P : PathDigest} {s : Store}

/-- There is no file at `q`. -/
def Absent (q : String) (s : Store) : Prop := s.payloads[q]? = none

theorem Absent.writeFile {q path : String} {data : Option Bytes} (h : Absent q s) (hne : q ≠ path) :
    Absent q (writeFile path data s) := by
  rw [Absent, payloads_writeFile, Table.getElem?_set, if_neg hne]
  exact h

theorem Absent.remove {q path : String} (h : Absent q s) :
    Absent q (Staging.writeFile path none s) := by
  rw [Absent, payloads_writeFile, Table.getElem?_set]
  split
  · rfl
  · exact h

theorem absent_writeFile_none (q : String) (s : Store) : Absent q (writeFile q none s) := by
  rw [Absent, payloads_writeFile, Table.getElem?_set, if_pos rfl]

theorem Absent.renameFile {q src dest : String} {t : Store} (h : Absent q s) (hne : q ≠ dest)
    (ht : renameFile src dest s = some t) : Absent q t := by
  obtain ⟨data, -, rfl⟩ := Option.map_eq_some_iff.1 ht
  exact h.remove.writeFile hne

/-- A rename takes its source away. -/
theorem absent_of_renameFile {src dest : String} {t : Store} (hne : src ≠ dest)
    (ht : renameFile src dest s = some t) : Absent src t := by
  obtain ⟨data, -, rfl⟩ := Option.map_eq_some_iff.1 ht
  exact (absent_writeFile_none src s).writeFile hne

theorem keeps_fileCall {e : ε} {I : Store → Prop} {f : Store → Option Store}
    (h : ∀ s t, I s → f s = some t → I t) : (fileCall e f).Keeps I :=
  fun s hs ↦ wp_fileCall hs (fun t ht ↦ ⟨h s t hs ht, h s t hs ht⟩) hs

theorem keeps_fileRead {e : ε} {I : Store → Prop} {g : Store → Option α} :
    (fileRead e g).Keeps I :=
  fun _ hs ↦ wp_fileRead hs (fun _ _ ↦ hs) hs

/-- A call that only reports. -/
theorem keeps_sync {e : ε} {I : Store → Prop} : (fileCall e some).Keeps I :=
  keeps_fileCall fun _ _ hs ht ↦ Option.some.inj ht ▸ hs

theorem keeps_copyInto {e : ε} {q path : String} {data : Bytes} (hne : q ≠ path) :
    (copyInto e path data).Keeps (Absent q) := by
  have happend : ∀ d, (fileCall e (appendTo path d)).Keeps (Absent q) := fun d ↦
    keeps_fileCall fun s t hs ht ↦ Option.some.inj ht ▸ hs.writeFile hne
  exact keeps_choose fun n ↦ (happend _).bind fun _ ↦ happend _

/-- Copying a payload to its place creates no file but the destination and a copy. -/
theorem keeps_copyFile {q src parent dest : String} (hdest : q ≠ dest)
    (hcopy : ∀ n, q ≠ parent ++ (".copy-" ++ E.uuid n ++ ".tmp")) :
    (copyFile E src parent dest).Keeps (Absent q) := by
  refine keeps_sync.bind fun _ ↦ keeps_choose fun n ↦ Keeps.onError ?_ ?_
  · refine keeps_fileRead.bind fun data ↦ Keeps.bind ?_ fun _ ↦ (keeps_copyInto (hcopy n)).bind
      fun _ ↦ keeps_sync.bind fun _ ↦ Keeps.bind ?_ fun _ ↦ keeps_sync
    · exact keeps_fileCall fun s t hs ht ↦ Option.some.inj ht ▸ hs.writeFile (hcopy n)
    · exact keeps_fileCall fun s t hs ht ↦ hs.renameFile hdest ht
  · exact keeps_modify fun s hs ↦ hs.remove

/-- Moving a payload to its place creates no file but the destination and a copy. -/
theorem keeps_moveFile {q src parent dest : String} (hdest : q ≠ dest)
    (hcopy : ∀ n, q ≠ parent ++ (".copy-" ++ E.uuid n ++ ".tmp")) :
    (moveFile E src parent dest).Keeps (Absent q) := by
  have hopened : ∀ s t, Absent q s → (s.payloads[src]?.map fun _ ↦ s) = some t → Absent q t := by
    intro s t hs ht
    obtain ⟨_, -, rfl⟩ := Option.map_eq_some_iff.1 ht
    exact hs
  have hremoved : ∀ s t, Absent q s →
      (s.payloads[src]?.map fun _ ↦ writeFile src none s) = some t → Absent q t := by
    intro s t hs ht
    obtain ⟨_, -, rfl⟩ := Option.map_eq_some_iff.1 ht
    exact hs.remove
  refine keeps_sync.bind fun _ ↦ (keeps_fileCall hopened).bind fun _ ↦ Keeps.bind
    (Keeps.attempt (keeps_fileCall fun s t hs ht ↦ hs.renameFile hdest ht)) fun r ↦ ?_
  have hsync : ((fileCall (.internalError "Failed to sync directory") some : Op Store Unit).bind
      fun _ ↦ fileCall (.internalError "Failed to sync directory") some).Keeps (Absent q) :=
    keeps_sync.bind fun _ ↦ keeps_sync
  cases r with
  | ok _ => exact (keeps_ret ()).bind fun _ ↦ hsync
  | error _ =>
    exact (keeps_copyFile hdest hcopy).bind fun _ ↦ (keeps_fileCall hremoved).bind fun _ ↦ hsync

/-- **Copying a range leaves no temporary behind**, whether it succeeds or not. -/
theorem wp_copyRange {payloadPath temporary destination : String} {sourceOffset len : ℕ}
    (hne : temporary ≠ destination) :
    wp (fun _ ↦ True) (onError (copyRange payloadPath sourceOffset len temporary destination)
      (removeScratch temporary)) (fun _ t ↦ Absent temporary t) s := by
  -- The rename takes the temporary away; every other end is an error, after which it is removed.
  have hrange : wp (fun _ ↦ True)
      (copyRange payloadPath sourceOffset len temporary destination)
      (fun r t ↦ r = .ok () → Absent temporary t) s := by
    rw [copyRange]
    refine wp_fileRead_bind trivial (fun data _ ↦ ?_) nofun
    refine wp_fileCall_bind trivial (fun t ht ↦ ?_) nofun
    obtain rfl := Option.some.inj ht
    refine wp_fileCall_bind trivial (fun t ht ↦ ?_) nofun
    obtain rfl := Option.some.inj ht
    refine wp_bind.2 (wp_copyInto (fun _ ↦ trivial) ?_ fun _ ↦ nofun)
    have hcommit : ∀ u, wp (fun _ ↦ True) (do
          fileCall (.internalError "Failed to sync staged upload payload") some
          fileCall (.internalError "Failed to commit staged upload payload")
            (renameFile temporary destination) : Op Store Unit)
        (fun r t ↦ r = .ok () → Absent temporary t) u := by
      intro u
      refine wp_fileCall_bind trivial (fun v hv ↦ ?_) nofun
      exact wp_fileCall trivial (fun t ht ↦ ⟨trivial, fun _ ↦ absent_of_renameFile hne ht⟩) nofun
    show wp _ (if _ then _ else _) _ _
    split
    · exact ⟨trivial, nofun⟩
    · exact hcommit _
  refine wp_onError.2 (wp_mono hrange (fun _ ↦ id) fun r t _ hr ↦ ?_)
  cases r with
  | ok _ => exact ⟨trivial, hr rfl⟩
  | error _ =>
    have hgone := absent_writeFile_none temporary t
    exact wp_modify.2 ⟨trivial, trivial, trivial, hgone⟩

variable {uuid provider session item payloadPath : String} {sourceOffset len : ℕ}

/-- **A staging that has returned has left no temporary.** -/
theorem wp_stageUploadPayload (h : Absent (temporaryPath P provider session item uuid) s) :
    wp (fun _ ↦ True)
      (stageUploadPayload E P uuid provider session item payloadPath sourceOffset len)
      (fun _ t ↦ Absent (temporaryPath P provider session item uuid) t) s := by
  have hdest := itemPath_ne_temporaryPath P provider session item uuid
  rw [stageUploadPayload]
  refine wp_fileRead_bind trivial (fun data _ ↦ ?_) h
  refine wp_ofExcept_bind trivial (fun _ _ ↦ h) fun _ _ ↦ ?_
  show wp _ (if _ then _ else _) _ _
  split
  · have hcopy := fun n ↦ copyPath_ne_temporaryPath P provider session item uuid (E.uuid n)
    exact wp_mono (keeps_moveFile hdest hcopy s h) (fun _ _ ↦ trivial) fun _ _ _ ht ↦ ht
  · exact wp_fileCall_bind trivial (fun t ht ↦ wp_copyRange hdest) h

/-- **A staging that is refused, or moves the whole payload, never writes a temporary.** -/
theorem wp_stageUploadPayload_of_harmless
    (h : Absent (temporaryPath P provider session item uuid) s)
    (hharmless : Call.Harmless s (.stage provider session item payloadPath sourceOffset len)) :
    wp (Absent (temporaryPath P provider session item uuid))
      (stageUploadPayload E P uuid provider session item payloadPath sourceOffset len)
      (fun _ _ ↦ True) s := by
  have hdest := itemPath_ne_temporaryPath P provider session item uuid
  have hcopy := fun n ↦ copyPath_ne_temporaryPath P provider session item uuid (E.uuid n)
  rw [stageUploadPayload]
  refine wp_fileRead_bind h (fun data hdata ↦ ?_) trivial
  refine wp_ofExcept_bind h (fun _ _ ↦ trivial) fun _ hrange ↦ ?_
  show wp _ (if _ then _ else _) _ _
  rw [if_pos (hharmless data hdata hrange)]
  exact wp_mono (keeps_moveFile hdest hcopy s h) (fun _ ↦ id) fun _ _ _ _ ↦ trivial

/-- **Every other staging can be killed with its temporary in place.** -/
theorem stops_stageUploadPayload {data : Bytes} (hdata : s.payloads[payloadPath]? = some data)
    (hrange : checkRange sourceOffset len data.length = .ok ())
    (hpart : ¬ (sourceOffset = 0 ∧ len = data.length)) :
    (stageUploadPayload E P uuid provider session item payloadPath sourceOffset len).Stops s
      (writeFile (temporaryPath P provider session item uuid) (some []) s) := by
  refine Stops.bind (returns_fileRead hdata) ?_
  rw [hrange]
  show Stops (if _ then _ else _) _ _
  rw [if_neg hpart]
  refine Stops.bind (returns_fileCall rfl) (Stops.onError ?_)
  refine Stops.bind (returns_fileRead hdata) (Stops.bind (returns_fileCall rfl) (Stops.inside ?_))
  have hcreated : (some ∘ writeFile (temporaryPath P provider session item uuid) (some [])) s =
      some (writeFile (temporaryPath P provider session item uuid) (some []) s) := rfl
  exact (returns_fileCall hcreated).stops

end Stage

/-! ### Composing -/

section Compose

variable {E : Env} {P : PathDigest} {s : Store} {scratch : String}

/-- What the items append to the scratch file. -/
theorem wp_forEach_composeItem (paths : List String) (hpaths : ∀ path ∈ paths, path ≠ scratch)
    (before : Bytes) :
    wp (fun _ ↦ True) (forEach paths (composeItem scratch))
      (fun r t ↦ r = .ok () → ∃ data, contents s paths = some data ∧
        t = writeFile scratch (some (before ++ data)) s) (writeFile scratch (some before) s) := by
  induction paths generalizing before with
  | nil => exact ⟨trivial, fun _ ↦ ⟨[], rfl, by rw [List.append_nil]⟩⟩
  | cons path paths ih =>
    rw [forEach, wp_bind, composeItem]
    refine wp_fileRead_bind trivial (fun data hdata ↦ ?_) (fun h ↦ by cases h)
    rw [payloads_writeFile, Table.getElem?_set, if_neg (hpaths path (List.mem_cons_self ..))]
      at hdata
    refine wp_copyInto (fun _ ↦ trivial) ?_ fun _ ↦ (fun h ↦ by cases h)
    have hrest := ih (fun q hq ↦ hpaths q (List.mem_cons_of_mem _ hq)) (before ++ data)
    refine wp_mono hrest (fun _ ↦ id) fun r t _ hr hok ↦ ?_
    obtain ⟨rest, hcontents, rfl⟩ := hr hok
    refine ⟨data ++ rest, ?_, by rw [List.append_assoc]⟩
    rw [contents, hdata, hcontents]
    rfl

theorem returns_forEach_composeItem (paths : List String)
    (hpaths : ∀ path ∈ paths, path ≠ scratch) (before : Bytes) {data : Bytes}
    (hcontents : contents s paths = some data) :
    (forEach paths (composeItem scratch)).Returns (writeFile scratch (some before) s) (.ok ())
      (writeFile scratch (some (before ++ data)) s) := by
  induction paths generalizing before data with
  | nil =>
    obtain rfl := Option.some.inj hcontents
    rw [List.append_nil]
    exact ⟨_, .ret () _⟩
  | cons path paths ih =>
    rw [contents, Option.bind_eq_bind, Option.bind_eq_some_iff] at hcontents
    obtain ⟨first, hfirst, hcontents⟩ := hcontents
    rw [Option.bind_eq_some_iff] at hcontents
    obtain ⟨rest, hrest, hdata⟩ := hcontents
    obtain rfl := Option.some.inj hdata
    have hread : (writeFile scratch (some before) s).payloads[path]? = some first := by
      rw [payloads_writeFile, Table.getElem?_set, if_neg (hpaths path (List.mem_cons_self ..))]
      exact hfirst
    have hothers := ih (fun q hq ↦ hpaths q (List.mem_cons_of_mem _ hq)) (before ++ first) hrest
    rw [List.append_assoc] at hothers
    exact Returns.bind ((returns_fileRead hread).bind (returns_copyInto before first)) hothers

theorem itemPath_ne_composePath (provider session item uuid : String) :
    itemPath P provider session item ≠ composePath uuid := by
  intro h
  have hspool : ".spool/".toList = '.' :: 's' :: "pool/".toList := by simp
  have huploads : ".provider-uploads/".toList = '.' :: 'p' :: "rovider-uploads/".toList := by simp
  have hlist := congrArg String.toList h
  unfold itemPath sessionDir composePath at hlist
  rw [String.toList_append, String.toList_append, huploads, String.toList_append (s := ".spool/"),
    hspool] at hlist
  have hhead := congrArg (fun l ↦ l[1]?) hlist
  simp at hhead

variable {uuid provider session bucket : String} {items : List String} {key : Text}
  {object : Object} {condition : Option ObjectCondition}

theorem itemPaths_ne_composePath :
    ∀ path ∈ items.map (itemPath P provider session), path ≠ composePath uuid := by
  intro path hpath
  obtain ⟨item, -, rfl⟩ := List.mem_map.1 hpath
  exact itemPath_ne_composePath provider session item uuid

/-- **The items have been joined, or there is no scratch file.** -/
theorem wp_composeItems {paths : List String}
    (hpaths : ∀ path ∈ paths, path ≠ scratch) :
    wp (fun _ ↦ True) (onError (composeItems scratch paths) (removeScratch scratch))
      (fun r t ↦ match r with
        | .ok _ => ∃ data, contents s paths = some data ∧ t = writeFile scratch (some data) s
        | .error _ => Absent scratch t) s := by
  have hitems : wp (fun _ ↦ True) (composeItems scratch paths) (fun r t ↦ r = .ok () →
      ∃ data, contents s paths = some data ∧ t = writeFile scratch (some data) s) s := by
    rw [composeItems]
    refine wp_fileCall_bind trivial (fun t ht ↦ ?_) nofun
    obtain rfl := Option.some.inj ht
    refine wp_bind.2 (wp_mono (wp_forEach_composeItem paths hpaths []) (fun _ ↦ id) ?_)
    intro r t _ hr
    cases r with
    | error _ => exact nofun
    | ok _ =>
      refine wp_fileCall trivial (fun u hu ↦ ⟨trivial, fun _ ↦ ?_⟩) nofun
      obtain rfl := Option.some.inj hu
      exact hr rfl
  refine wp_onError.2 (wp_mono hitems (fun _ ↦ id) fun r t _ hr ↦ ?_)
  cases r with
  | ok _ => exact ⟨trivial, hr rfl⟩
  | error _ =>
    have hgone := absent_writeFile_none scratch t
    exact wp_modify.2 ⟨trivial, trivial, trivial, hgone⟩

theorem returns_composeItems {paths : List String} (hpaths : ∀ path ∈ paths, path ≠ scratch)
    {data : Bytes} (hcontents : contents s paths = some data) :
    (composeItems scratch paths).Returns s (.ok ()) (writeFile scratch (some data) s) := by
  have hjoined := returns_forEach_composeItem paths hpaths [] hcontents
  exact Returns.bind (returns_fileCall rfl) (Returns.bind hjoined (returns_fileCall rfl))

/-- **A composition that has returned has left no scratch file**, as long as the writes that fail
have taken the payload. -/
theorem absent_of_composeUploadPayloads (h : Absent (composePath uuid) s)
    (htaken : ∀ data e t, contents s (items.map (itemPath P provider session)) = some data →
      (putComposed E (composePath uuid) bucket key object condition).Returns
        (writeFile (composePath uuid) (some data) s) (.error e) t → Absent (composePath uuid) t)
    {r : Except Error Bool} {t : Store}
    (hx : (composeUploadPayloads E P uuid provider session items bucket key object
      condition).Returns s r t) : Absent (composePath uuid) t := by
  obtain ⟨evs, hx⟩ := hx
  have hcreated : wp (fun _ ↦ True) (fileCall (.internalError
      "Failed to create composition directory") some : Op Store Unit) (fun _ u ↦ u = s) s :=
    wp_fileCall trivial (fun u hu ↦ ⟨trivial, (Option.some.inj hu).symm⟩) rfl
  obtain ⟨-, hr⟩ | ⟨e, hx, -⟩ | ⟨_, u, _, _, hx, hrest, -⟩ := hx.of_bind
  · cases hr
  · obtain rfl := (hx.of_wp hcreated).2 _ rfl
    exact h
  obtain rfl := (hx.of_wp hcreated).2 _ rfl
  have hcomposed := wp_composeItems (s := u)
    (@itemPaths_ne_composePath P uuid provider session items)
  obtain ⟨-, hr⟩ | ⟨e, hx, -⟩ | ⟨_, v, _, _, hx, hrest, -⟩ := hrest.of_bind
  · cases hr
  · exact (hx.of_wp hcomposed).2 _ rfl
  obtain ⟨data, hcontents, rfl⟩ := (hx.of_wp hcomposed).2 _ rfl
  obtain ⟨-, hr⟩ | ⟨e, hx, -⟩ | ⟨written, w, _, _, hx, hrest, -⟩ := hrest.of_bind
  · cases hr
  · exact htaken data e t hcontents ⟨_, hx⟩
  -- The write has succeeded, and what is left of the payload is removed.
  have htail : wp (fun _ ↦ True) (do
      if ← read fun s ↦ (s.payloads[composePath uuid]?).isSome then
        removeScratch (composePath uuid)
      return written : Op Store Bool) (fun _ t ↦ Absent (composePath uuid) t) w := by
    refine wp_read_bind trivial ?_
    split
    · have hgone := absent_writeFile_none (composePath uuid) w
      exact wp_bind.2 (wp_modify.2 ⟨trivial, trivial, trivial, hgone⟩)
    · next hnone => exact ⟨trivial, Option.not_isSome_iff_eq_none.1 hnone⟩
  exact (hrest.of_wp htail).2 r rfl

/-- **A write that fails is what the composition returns**, with nothing removed. -/
theorem returns_composeUploadPayloads {data : Bytes} {e : Error} {t : Store}
    (hcontents : contents s (items.map (itemPath P provider session)) = some data)
    (hput : (putComposed E (composePath uuid) bucket key object condition).Returns
      (writeFile (composePath uuid) (some data) s) (.error e) t) :
    (composeUploadPayloads E P uuid provider session items bucket key object condition).Returns s
      (.error e) t := by
  have hpaths := @itemPaths_ne_composePath P uuid provider session items
  have hjoined := (returns_composeItems hpaths hcontents).onError (removeScratch (composePath uuid))
  exact Returns.bind (returns_fileCall rfl) (Returns.bind hjoined hput.bind_error)

/-- **A composition can be killed with its scratch file in place.** -/
theorem stops_composeUploadPayloads :
    (composeUploadPayloads E P uuid provider session items bucket key object condition).Stops s
      (writeFile (composePath uuid) (some []) s) := by
  refine Stops.bind (returns_fileCall rfl) (Stops.inside (Stops.onError (Stops.inside ?_)))
  have hcreated : (some ∘ writeFile (composePath uuid) (some [])) s =
      some (writeFile (composePath uuid) (some []) s) := rfl
  exact (returns_fileCall hcreated).stops

end Compose

/-! ### The three calls -/

section Calls

variable (E : Env) (P : PathDigest)

/-- A name that is new. -/
theorem exists_absent (s : Store) {path : ℕ → String} (hpath : Function.Injective path) :
    ∃ n, Absent (path n) s := by
  by_contra hall
  have hmem : ∀ n, path n ∈ s.payloads.keys := fun n ↦ by
    by_contra hn
    exact hall ⟨n, by simpa [Absent, Table.mem_keys] using hn⟩
  have hnodup : ((List.range (s.payloads.keys.length + 1)).map path).Nodup :=
    List.nodup_range.map hpath
  have hle := hnodup.length_le_of_subset fun q hq ↦ by
    obtain ⟨n, -, rfl⟩ := List.mem_map.1 hq
    exact hmem n
  rw [List.length_map, List.length_range] at hle
  omega

theorem Call.scratch_injective (c : Call) : Function.Injective fun n ↦ c.scratch E P n := by
  intro m n h
  refine E.uuid_injective ?_
  cases c with
  | stage provider session item _ _ _ =>
    exact String.append_right_inj _ |>.1 <| String.append_right_inj _ |>.1 <|
      String.append_right_inj _ |>.1 h
  | compose =>
    exact String.append_right_inj _ |>.1 <| String.append_left_inj _ |>.1 <|
      String.append_right_inj _ |>.1 h
  | spool =>
    exact String.append_right_inj _ |>.1 <| String.append_left_inj _ |>.1 <|
      String.append_right_inj _ |>.1 h

/-- What the start after a kill leaves of a scratch file. -/
theorem not_recovers {c : Call} {s : Store}
    (hunknown : ∀ n, isStaleSpool (c.scratch E P n) = false)
    (hstops : ∀ n, c.Stops E P n s (writeFile (c.scratch E P n) (some []) s)) :
    ¬ c.Recovers E P s := by
  intro h
  obtain ⟨n, hn⟩ := exists_absent s (c.scratch_injective E P)
  obtain ⟨u, hu⟩ := returns_cleanupStaleSpoolFiles (writeFile (c.scratch E P n) (some []) s)
  have hgone := (h.removes n _ u hn (hstops n) hu).1
  have hkept := hu.stops.of_wp (wp_cleanupStaleSpoolFiles _) (c.scratch E P n) (hunknown n)
  rw [hgone, payloads_writeFile, Table.getElem?_set, if_pos rfl] at hkept
  cases hkept

/-- A call recovers when no kill can leave a scratch file that the start does not know. -/
theorem recovers_of {c : Call} {s : Store}
    (hknown : ∀ n t, Absent (c.scratch E P n) s → c.Stops E P n s t →
      isStaleSpool (c.scratch E P n) ∨ Absent (c.scratch E P n) t) : c.Recovers E P s where
  removes n t u hn ht hu := by
    have hclean := hu.of_wp (wp_cleanupStaleSpoolFiles t) rfl
    refine ⟨?_, hclean⟩
    rcases hknown n t hn ht with hstale | habsent
    · exact hclean _ hstale
    · cases hstale : isStaleSpool (c.scratch E P n) with
      | true => exact hclean _ hstale
      | false => exact (hu.stops.of_wp (wp_cleanupStaleSpoolFiles t) _ hstale).trans habsent
  keeps _ t _ _ hu provider session item :=
    hu.of_wp (wp_cleanupStaleSpoolFiles t) _ (isStaleSpool_itemPath P provider session item)

theorem recovers_iff (c : Call) (s : Store) : c.Recovers E P s ↔ c.Harmless s := by
  cases c with
  | stage provider session item payloadPath sourceOffset len =>
    constructor
    · intro h data hdata hrange
      by_contra hpart
      refine absurd h (not_recovers E P (fun n ↦ ?_) fun n ↦ ?_)
      · exact isStaleSpool_temporaryPath P provider session item (E.uuid n)
      · exact stops_stageUploadPayload hdata hrange hpart
    · intro h
      refine recovers_of E P fun n t hn ht ↦ .inr ?_
      exact Stops.of_wp ht (wp_stageUploadPayload_of_harmless hn h)
  | compose provider session items bucket key object condition =>
    refine ⟨fun h ↦ absurd h (not_recovers E P (fun n ↦ ?_) fun n ↦ ?_), False.elim⟩
    · exact isStaleSpool_composePath E n
    · exact stops_composeUploadPayloads
  | spool frames maxRequestBytes =>
    refine ⟨fun _ ↦ trivial, fun _ ↦ ?_⟩
    exact recovers_of E P fun n _ _ _ ↦ .inl (isStaleSpool_spoolPath E n)

theorem leavesNothing_iff (c : Call) (s : Store) :
    c.LeavesNothing E P s ↔ c.PayloadTaken E P s := by
  cases c with
  | stage provider session item payloadPath sourceOffset len =>
    refine ⟨fun _ ↦ trivial, fun _ n t hn ht ↦ ?_⟩
    obtain ⟨r, ht⟩ := ht
    exact ht.of_wp (wp_stageUploadPayload hn)
  | compose provider session items bucket key object condition =>
    constructor
    · intro h n data e t hn hcontents hput
      exact h n t hn ⟨_, returns_composeUploadPayloads hcontents hput⟩
    · intro h n t hn ht
      obtain ⟨r, ht⟩ := ht
      exact absent_of_composeUploadPayloads hn (fun data e u ↦ h n data e u hn) ht
  | spool frames maxRequestBytes => exact ⟨fun _ ↦ trivial, fun _ n t _ ht ↦ ht.elim⟩

end Calls

/-! ### A bucket that does not exist -/

/-- A digest to evaluate programs with. -/
def PathDigest.constant : PathDigest where
  digest _ := "0a"
  dotless _ := by decide

/-- A session with one item, and no bucket. -/
def oneItem : Store :=
  { payloads := (∅ : Table String Bytes).set (itemPath .constant "gcs" "session" "0") (some [1]) }

/-- A composition into a bucket that is not there. -/
def composeIntoMissing : Call :=
  .compose "gcs" "session" ["0"] "missing" ['k'] (.new .simple 0 ['k'] [] "text/plain") none

end Sqrzl.Staging
