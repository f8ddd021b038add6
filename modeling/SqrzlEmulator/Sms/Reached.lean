import SqrzlEmulator.Sms.Deletion

/-!
# The order of every SMS store

Every disk that a store can come to is ordered (`Store.Reached.ordered`). What is written is either
not looked at (`Watched`), or it is a message together with its entry, a message that replaces itself
after a transition, or a callback attempt under its own identity.
-/

namespace Sqrzl.Sms

open Capture Results

variable {S : Store} {d s t : SmsDisk} {peer i : String} {p q : DiskPath}

/-! ### Directories -/

theorem getElem?_foldl_directory (l : List DiskPath) (d : SmsDisk) (q : DiskPath) :
    (l.foldl (fun d q ↦ if (d[q]?).isSome then d else Table.set d q (some .directory)) d)[q]? =
      if d[q]? = none ∧ q ∈ l then some .directory else d[q]? := by
  induction l generalizing d with
  | nil => rw [if_neg fun h ↦ List.not_mem_nil h.2]; rfl
  | cons p l ih =>
    rw [List.foldl_cons, ih]
    have hp : ∀ x, (if (d[p]?).isSome then d else Table.set d p (some .directory))[x]? =
        if d[x]? = none ∧ x = p then some .directory else d[x]? := by
      intro x
      split_ifs with hsome hx hx
      · rw [hx.2] at hx
        rw [hx.1] at hsome
        cases hsome
      · rfl
      · rw [Table.getElem?_set, if_pos hx.2]
      · rw [Table.getElem?_set]
        refine if_neg fun heq ↦ hx ⟨?_, heq⟩
        rw [heq]
        exact Option.not_isSome_iff_eq_none.1 hsome
    rw [hp]
    simp only [List.mem_cons]
    by_cases hq : d[q]? = none ∧ q = p
    · rw [if_pos hq, if_neg nofun, if_pos ⟨hq.1, .inl hq.2⟩]
    · rw [if_neg hq]
      refine if_congr (and_congr_right fun hnone ↦ ?_) rfl rfl
      exact ⟨.inr, fun h ↦ h.resolve_left fun heq ↦ hq ⟨hnone, heq⟩⟩

theorem getElem?_makeDirs : (Store.makeDirs d p)[q]? =
    if d[q]? = none ∧ q <+: p ∧ q ≠ [] then some .directory else d[q]? := by
  rw [Store.makeDirs, getElem?_foldl_directory]
  simp only [Disk.mem_inits_tail]

theorem isDir_makeDirs (h : d.isDir q = true) : (Store.makeDirs d p).isDir q = true := by
  rw [Disk.isDir_eq_true] at h ⊢
  refine h.imp_right fun hq ↦ ?_
  rw [getElem?_makeDirs, if_neg (by simp [hq]), hq]

theorem getElem?_writeFile {c : Document SmsJson} : (Store.writeFile d (p, c))[q]? =
    if q = p then some (.file (.data c)) else (Store.makeDirs d p.dropLast)[q]? := by
  rw [Store.writeFile, Table.getElem?_set]

/-! ### What is not looked at -/

/-- The paths that an ordered store looks at. -/
def Watched (S : Store) (q : DiskPath) : Prop :=
  (∃ f, q = S.root ++ ["messages", f]) ∨ (∃ f, q = S.root ++ ["callbacks", f]) ∨
    ∃ D f, q = S.root ++ ["conversations", D, f]

theorem watched_messageFile : Watched S (S.messageFile i) := .inl ⟨_, rfl⟩

theorem watched_entryFile : Watched S (S.entryFile peer i) := .inr (.inr ⟨_, _, rfl⟩)

theorem Ordered.congr (hd : Ordered S d)
    (hdirs : ∀ D, d.isDir (S.root ++ [D]) = true → t.isDir (S.root ++ [D]) = true)
    (hrooms : ∀ D, t[S.root ++ ["conversations", D]]? = d[S.root ++ ["conversations", D]]? ∨
      t[S.root ++ ["conversations", D]]? = some .directory ∨ ∃ p, D = S.digest p ++ ".peer")
    (hwatched : ∀ q, Watched S q → t[q]? = d[q]?) : Ordered S t where
  dirs D hD := hdirs D (hd.dirs D hD)
  messages f n hn := hd.messages f n (by rw [← hwatched _ (.inl ⟨f, rfl⟩), hn])
  entries D f n hn := by
    obtain ⟨peer, i, hnode, hD, hname, husual, hpeer⟩ :=
      hd.entries D f n (by rw [← hwatched _ (.inr (.inr ⟨D, f, rfl⟩)), hn])
    refine ⟨peer, i, hnode, hD, hname, husual, fun m hm ↦ hpeer m ?_⟩
    rw [← hwatched _ watched_messageFile, hm]
  rooms D n hn := by
    rcases hrooms D with heq | hdir | hsidecar
    · exact hd.rooms D n (by rw [← heq, hn])
    · rw [hdir] at hn
      exact .inl (Option.some.inj hn).symm
    · exact .inr hsidecar
  homes D f hf := by
    rw [hwatched _ (.inr (.inr ⟨D, f, rfl⟩))] at hf
    rcases hrooms D with heq | hdir | ⟨p, rfl⟩
    · rw [isDir_congr heq]
      exact hd.homes D f hf
    · exact Disk.isDir_eq_true.2 (.inr hdir)
    · obtain ⟨n, hn⟩ := Option.isSome_iff_exists.1 hf
      obtain ⟨p', i, -, hD, -⟩ := hd.entries _ f n hn
      exact absurd hD.symm digest_ne_sidecar
  indexed i m hm := by
    rw [hwatched _ watched_messageFile] at hm
    rw [hwatched _ watched_entryFile]
    exact hd.indexed i m hm
  callbacks f n hn := hd.callbacks f n (by rw [← hwatched _ (.inr (.inl ⟨f, rfl⟩)), hn])

theorem Ordered.makeDirs (hd : Ordered S d) (hp : ∀ q, Watched S q → ¬ q <+: p) :
    Ordered S (Store.makeDirs d p) := by
  refine hd.congr (fun D ↦ isDir_makeDirs) (fun D ↦ ?_) fun q hq ↦ ?_
  · rw [getElem?_makeDirs]
    split_ifs
    · exact .inr (.inl rfl)
    · exact .inl rfl
  · rw [getElem?_makeDirs, if_neg fun h ↦ hp q hq h.2.1]

theorem Ordered.set (hd : Ordered S d) {n : Option (Node (Content (Document SmsJson)))}
    (hlen : S.root.length + 2 ≤ q.length) (hq : ¬ Watched S q)
    (hroom : ∀ D, q = S.root ++ ["conversations", D] → ∃ p, D = S.digest p ++ ".peer") :
    Ordered S (Table.set d q n) := by
  refine hd.congr (fun D hD ↦ ?_) (fun D ↦ ?_) fun q' hq' ↦ ?_
  · have hne : S.root ++ [D] ≠ q := by
      rintro rfl
      simp at hlen
    rw [isDir_congr (d := d) (by rw [Table.getElem?_set, if_neg hne])]
    exact hD
  · by_cases heq : S.root ++ ["conversations", D] = q
    · exact .inr (.inr (hroom D heq.symm))
    · exact .inl (by rw [Table.getElem?_set, if_neg heq])
  · rw [Table.getElem?_set, if_neg]
    rintro rfl
    exact hq hq'

theorem watched_append {D : String} {rest : DiskPath} : Watched S (S.root ++ D :: rest) ↔
    (D = "messages" ∨ D = "callbacks") ∧ rest.length = 1 ∨ D = "conversations" ∧ rest.length = 2 := by
  simp only [Watched, List.append_cancel_left_eq, List.cons.injEq, List.length_eq_one_iff,
    List.length_eq_two]
  constructor
  · rintro (⟨f, hD, hrest⟩ | ⟨f, hD, hrest⟩ | ⟨D', f, hD, hrest⟩)
    · exact .inl ⟨.inl hD, f, hrest⟩
    · exact .inl ⟨.inr hD, f, hrest⟩
    · exact .inr ⟨hD, D', f, hrest⟩
  · rintro (⟨hD | hD, f, hrest⟩ | ⟨hD, D', f, hrest⟩)
    · exact .inl ⟨f, hD, hrest⟩
    · exact .inr (.inl ⟨f, hD, hrest⟩)
    · exact .inr (.inr ⟨D', f, hD, hrest⟩)

/-- What a path that is looked at is not above. -/
theorem not_watched_prefix {D : String} {rest : DiskPath}
    (h : (D = "messages" ∨ D = "callbacks") → rest = []) (h' : D = "conversations" → rest.length ≤ 1)
    (hq : Watched S q) : ¬ q <+: S.root ++ D :: rest := by
  rintro hpre
  rcases hq with ⟨f, rfl⟩ | ⟨f, rfl⟩ | ⟨D', f, rfl⟩ <;>
    rw [List.prefix_append_right_inj, List.cons_prefix_cons] at hpre
  · rw [h (.inl hpre.1.symm)] at hpre
    simp at hpre
  · rw [h (.inr hpre.1.symm)] at hpre
    simp at hpre
  · have hlen := hpre.2.length_le
    have hrest := h' hpre.1.symm
    simp only [List.length_cons, List.length_nil] at hlen
    omega

/-- **A file that is not looked at may be written.** -/
theorem Ordered.writeFile (hd : Ordered S d) {D x : String} {rest : DiskPath} {c : Document SmsJson}
    (hdir : D ≠ "messages" ∧ D ≠ "callbacks")
    (hroom : D = "conversations" → rest = [] ∧ ∃ p, x = S.digest p ++ ".peer") :
    Ordered S (Store.writeFile d (S.root ++ D :: (rest ++ [x]), c)) := by
  have hdrop : (S.root ++ D :: (rest ++ [x])).dropLast = S.root ++ D :: rest := by
    rw [← List.cons_append, ← List.append_assoc, List.dropLast_concat]
  rw [Store.writeFile, hdrop]
  refine (hd.makeDirs fun q hq ↦ not_watched_prefix ?_ ?_ hq).set ?_ ?_ ?_
  · rintro (hD | hD)
    · exact absurd hD hdir.1
    · exact absurd hD hdir.2
  · intro hD
    rw [(hroom hD).1]
    exact Nat.zero_le 1
  · simp
  · rw [watched_append]
    rintro (⟨hD | hD, -⟩ | ⟨hD, hlen⟩)
    · exact hdir.1 hD
    · exact hdir.2 hD
    · rw [(hroom hD).1] at hlen
      cases hlen
  · intro D' heq
    rw [List.append_cancel_left_eq, List.cons.injEq] at heq
    obtain ⟨hrest, hx⟩ := hroom heq.1
    rw [hrest] at heq
    obtain rfl : x = D' := by simpa using heq.2
    exact hx

/-! ### Messages -/

/-- There is no message of this identity, and no entry for one. -/
def Absent (S : Store) (d : SmsDisk) (i : String) : Prop :=
  d[S.messageFile i]? = none ∧ ∀ peer, d[S.entryFile peer i]? = none

theorem Absent.congr (h : Absent S d i) (hsame : ∀ q, Watched S q → t[q]? = d[q]?) :
    Absent S t i :=
  ⟨(hsame _ watched_messageFile).trans h.1, fun peer ↦
    (hsame _ watched_entryFile).trans (h.2 peer)⟩

theorem messageFile_dropLast : (S.messageFile i).dropLast = S.root ++ ["messages"] := by
  rw [Store.messageFile, show S.root ++ ["messages", i ++ ".json"] =
    (S.root ++ ["messages"]) ++ [i ++ ".json"] by simp, List.dropLast_concat]

theorem entryFile_dropLast : (S.entryFile peer i).dropLast = S.conversation peer := by
  rw [Store.entryFile, show S.root ++ ["conversations", S.digest peer, i ++ ".idx"] =
    S.conversation peer ++ [i ++ ".idx"] by simp [Store.conversation], List.dropLast_concat]

theorem getElem?_makeDirs_of_watched {D : String} {rest : DiskPath}
    (h : (D = "messages" ∨ D = "callbacks") → rest = []) (h' : D = "conversations" → rest.length ≤ 1)
    (hq : Watched S q) : (Store.makeDirs d (S.root ++ D :: rest))[q]? = d[q]? := by
  rw [getElem?_makeDirs, if_neg fun hpre ↦ not_watched_prefix h h' hq hpre.2.1]

/-- A message and its entry, written one after the other. -/
def deposit (S : Store) (d : SmsDisk) (m : SmsMessage) : SmsDisk :=
  Store.writeFile (Store.writeFile d (S.messageFile m.messageId, .message (.message m)))
    (S.entryFile m.peer m.messageId, .bytes [])

theorem getElem?_deposit {m : SmsMessage} (hq : Watched S q) : (deposit S d m)[q]? =
    if q = S.entryFile m.peer m.messageId then some (.file (.data (.bytes [])))
    else if q = S.messageFile m.messageId then some (messageNode m) else d[q]? := by
  rw [deposit, getElem?_writeFile, entryFile_dropLast, Store.conversation,
    getElem?_makeDirs_of_watched (fun h ↦ by simp at h) (fun _ ↦ le_refl 1) hq, getElem?_writeFile,
    messageFile_dropLast, getElem?_makeDirs_of_watched (fun _ ↦ rfl) (fun h ↦ by simp at h) hq]

theorem isDir_writeFile {c : Document SmsJson} (h : d.isDir q = true) (hne : q ≠ p) :
    (Store.writeFile d (p, c)).isDir q = true := by
  rw [isDir_congr (d := Store.makeDirs d p.dropLast) (by rw [getElem?_writeFile, if_neg hne])]
  exact isDir_makeDirs h

theorem ne_of_length {q q' : DiskPath} (h : q.length ≠ q'.length) : q ≠ q' :=
  fun heq ↦ h (congrArg List.length heq)

theorem isDir_deposit {m : SmsMessage} (h : d.isDir q = true) (hlen : q.length ≤ S.root.length + 2)
    (hq : q ≠ S.messageFile m.messageId) : (deposit S d m).isDir q = true := by
  refine isDir_writeFile (isDir_writeFile h hq) ?_
  rintro rfl
  simp [Store.entryFile] at hlen

theorem getElem?_deposit_room {m : SmsMessage} {D : String} :
    (deposit S d m)[S.root ++ ["conversations", D]]? = d[S.root ++ ["conversations", D]]? ∨
      (deposit S d m)[S.root ++ ["conversations", D]]? = some .directory := by
  rw [deposit, getElem?_writeFile, if_neg (ne_of_length (by simp [Store.entryFile])),
    getElem?_makeDirs]
  split_ifs
  · exact .inr rfl
  · rw [getElem?_writeFile, if_neg (by simp [Store.messageFile]), getElem?_makeDirs]
    split_ifs
    · exact .inr rfl
    · exact .inl rfl

theorem messageFile_ne_entryFile {j : String} : S.messageFile i ≠ S.entryFile peer j := by
  simp [Store.messageFile, Store.entryFile]

theorem messageFile_inj {j : String} : S.messageFile i = S.messageFile j ↔ i = j := by
  refine ⟨fun h ↦ ?_, fun h ↦ h ▸ rfl⟩
  rw [Store.messageFile, Store.messageFile, List.append_cancel_left_eq] at h
  simpa using h

theorem entryFile_inj {j peer' : String} (h : S.entryFile peer i = S.entryFile peer' j) : i = j := by
  rw [Store.entryFile, Store.entryFile, List.append_cancel_left_eq] at h
  have hparts : S.digest peer = S.digest peer' ∧ i = j := by simpa using h
  exact hparts.2

theorem getElem?_deposit_messageFile {m : SmsMessage} : (deposit S d m)[S.messageFile i]? =
    if i = m.messageId then some (messageNode m) else d[S.messageFile i]? := by
  rw [getElem?_deposit watched_messageFile, if_neg messageFile_ne_entryFile]
  exact if_congr messageFile_inj rfl rfl

theorem getElem?_deposit_entryFile {m : SmsMessage} : (deposit S d m)[S.entryFile peer i]? =
    if S.entryFile peer i = S.entryFile m.peer m.messageId then some (.file (.data (.bytes [])))
    else d[S.entryFile peer i]? := by
  rw [getElem?_deposit watched_entryFile, if_neg messageFile_ne_entryFile.symm]

/-- **A new message may be stored with its entry.** -/
theorem Ordered.deposit (hd : Ordered S d) {m : SmsMessage} (husual : Usual m.messageId)
    (habsent : Absent S d m.messageId) : Ordered S (deposit S d m) := by
  refine ⟨fun D hD ↦ ?_, fun f n hn ↦ ?_, fun D f n hn ↦ ?_, fun D n hn ↦ ?_, fun D f hf ↦ ?_,
    fun j m' hm' ↦ ?_, fun f n hn ↦ ?_⟩
  · refine isDir_deposit (hd.dirs D hD) (by simp) (ne_of_length ?_)
    simp [Store.messageFile]
  · rw [getElem?_deposit (.inl ⟨f, rfl⟩), if_neg (by simp [Store.entryFile])] at hn
    split_ifs at hn with heq
    · rw [Store.messageFile, List.append_cancel_left_eq] at heq
      exact ⟨m, (Option.some.inj hn).symm, by simpa using heq, husual⟩
    · exact hd.messages f n hn
  · rw [getElem?_deposit (.inr (.inr ⟨D, f, rfl⟩)),
      if_neg (show _ ≠ S.messageFile _ by simp [Store.messageFile])] at hn
    split_ifs at hn with heq
    · have hparts : D = S.digest m.peer ∧ f = m.messageId ++ ".idx" := by
        simpa [Store.entryFile] using heq
      refine ⟨m.peer, m.messageId, (Option.some.inj hn).symm, hparts.1, hparts.2, husual, ?_⟩
      intro m' hm'
      rw [getElem?_deposit_messageFile, if_pos rfl] at hm'
      cases hm'
      rfl
    · obtain ⟨peer, j, hnode, rfl, rfl, hj, hpeer⟩ := hd.entries D f n hn
      refine ⟨peer, j, hnode, rfl, rfl, hj, fun m' hm' ↦ hpeer m' ?_⟩
      have hne : j ≠ m.messageId := by
        rintro rfl
        exact absurd (hn.symm.trans (habsent.2 peer)) (fun h ↦ by cases h)
      rw [getElem?_deposit_messageFile, if_neg hne] at hm'
      exact hm'
  · rcases getElem?_deposit_room (S := S) (d := d) (m := m) (D := D) with heq | heq
    · rw [heq] at hn
      exact hd.rooms D n hn
    · rw [heq] at hn
      exact .inl (Option.some.inj hn).symm
  · by_cases heq : S.root ++ ["conversations", D, f] = S.entryFile m.peer m.messageId
    · have hD : D = S.digest m.peer := by
        have hparts : D = S.digest m.peer ∧ f = m.messageId ++ ".idx" := by
          simpa [Store.entryFile] using heq
        exact hparts.1
      subst hD
      rw [Sms.deposit]
      have hne : S.conversation m.peer ≠ S.entryFile m.peer m.messageId :=
        ne_of_length (by simp [Store.conversation, Store.entryFile])
      refine Disk.isDir_eq_true.2 (.inr ?_)
      rw [show S.root ++ ["conversations", S.digest m.peer] = S.conversation m.peer from rfl,
        getElem?_writeFile, if_neg hne, entryFile_dropLast, getElem?_makeDirs]
      split_ifs with hnone
      · rfl
      · have hsome : (Store.writeFile d (S.messageFile m.messageId, .message (.message m)))[
            S.conversation m.peer]? ≠ none :=
          fun h ↦ hnone ⟨h, List.prefix_refl _, by simp [Store.conversation]⟩
        rw [getElem?_writeFile, if_neg (by simp [Store.conversation, Store.messageFile]),
          getElem?_makeDirs] at hsome ⊢
        split_ifs at hsome ⊢
        · rfl
        · obtain ⟨n, hn⟩ := Option.ne_none_iff_exists'.1 hsome
          rcases hd.rooms _ n hn with rfl | ⟨p, hp⟩
          · exact hn
          · exact absurd hp digest_ne_sidecar
    · rw [getElem?_deposit (.inr (.inr ⟨D, f, rfl⟩)), if_neg heq,
        if_neg (by simp [Store.messageFile])] at hf
      refine isDir_deposit (hd.homes D f hf) (by simp) ?_
      simp [Store.messageFile]
  · by_cases hj : j = m.messageId
    · subst hj
      rw [getElem?_deposit_messageFile, if_pos rfl] at hm'
      cases hm'
      rw [getElem?_deposit_entryFile, if_pos rfl]
      rfl
    · rw [getElem?_deposit_messageFile, if_neg hj] at hm'
      have hbefore := hd.indexed j m' hm'
      rw [getElem?_deposit_entryFile]
      split_ifs
      · rfl
      · exact hbefore
  · rw [getElem?_deposit (.inr (.inl ⟨f, rfl⟩)), if_neg (by simp [Store.entryFile]),
      if_neg (by simp [Store.messageFile])] at hn
    exact hd.callbacks f n hn

theorem Absent.deposit {m : SmsMessage} (h : Absent S d i) (hne : i ≠ m.messageId) :
    Absent S (deposit S d m) i := by
  refine ⟨?_, fun peer ↦ ?_⟩
  · rw [getElem?_deposit_messageFile, if_neg hne, h.1]
  · rw [getElem?_deposit_entryFile, if_neg fun heq ↦ hne (entryFile_inj heq), h.2]

/-! ### Captures -/

/-- Files that are not looked at may be written. -/
theorem ordered_foldl_writeFile {files : List (DiskPath × Document SmsJson)} (hd : Ordered S d)
    (hfiles : ∀ f ∈ files, ∃ D rest x, f.1 = S.root ++ D :: (rest ++ [x]) ∧ D ≠ "messages" ∧
      D ≠ "callbacks" ∧ D ≠ "conversations") :
    Ordered S (files.foldl Store.writeFile d) ∧
      ∀ q, Watched S q → (files.foldl Store.writeFile d)[q]? = d[q]? := by
  induction files generalizing d with
  | nil => exact ⟨hd, fun q _ ↦ rfl⟩
  | cons f files ih =>
    obtain ⟨D, rest, x, hpath, hm, hc, hv⟩ := hfiles f List.mem_cons_self
    obtain ⟨path, c⟩ := f
    obtain rfl : path = S.root ++ D :: (rest ++ [x]) := hpath
    have hnext := @Ordered.writeFile _ _ hd D x rest c ⟨hm, hc⟩ fun h ↦ absurd h hv
    obtain ⟨hordered, hsame⟩ := ih hnext fun f hf ↦ hfiles f (List.mem_cons_of_mem _ hf)
    refine ⟨hordered, fun q hq ↦ (hsame q hq).trans ?_⟩
    have hdrop : (S.root ++ D :: (rest ++ [x])).dropLast = S.root ++ D :: rest := by
      rw [← List.cons_append, ← List.append_assoc, List.dropLast_concat]
    rw [getElem?_writeFile, if_neg, hdrop, getElem?_makeDirs_of_watched _ _ hq]
    · rintro (h | h)
      · exact absurd h hm
      · exact absurd h hc
    · exact fun h ↦ absurd h hv
    · rintro rfl
      rcases watched_append.1 hq with ⟨h | h, -⟩ | ⟨h, -⟩
      · exact hm h
      · exact hc h
      · exact hv h

theorem ordered_ensureConversation (hd : Ordered S d) (h : S.ensureConversation peer d = .ok t) :
    Ordered S t ∧ ∀ q, Watched S q → t[q]? = d[q]? := by
  rw [Store.ensureConversation, peerIndexDir_eq, peerSidecar_eq] at h
  cases hpeer : S.peerHash peer with
  | error e =>
    rw [hpeer] at h
    cases h
  | ok hash =>
    rw [hpeer] at h
    have hmade : Ordered S (Store.makeDirs d (S.conversation peer)) ∧
        ∀ q, Watched S q → (Store.makeDirs d (S.conversation peer))[q]? = d[q]? := by
      refine ⟨hd.makeDirs fun q hq ↦ ?_, fun q hq ↦ ?_⟩
      · exact not_watched_prefix (fun h ↦ by simp at h) (fun _ ↦ le_refl 1) hq
      · exact getElem?_makeDirs_of_watched (fun h ↦ by simp at h) (fun _ ↦ le_refl 1) hq
    dsimp only [Except.map, bind, Except.bind, pure, Except.pure] at h
    split at h
    · obtain rfl := Except.ok.inj h
      refine ⟨@Ordered.writeFile _ _ hmade.1 _ _ [] _ ⟨by decide, by decide⟩ fun _ ↦ ⟨rfl, peer, rfl⟩, ?_⟩
      intro q hq
      have hdrop : (S.sidecarFile peer).dropLast = S.root ++ ["conversations"] := by
        rw [Store.sidecarFile, show S.root ++ ["conversations", S.digest peer ++ ".peer"] =
          (S.root ++ ["conversations"]) ++ [S.digest peer ++ ".peer"] by simp, List.dropLast_concat]
      rw [getElem?_writeFile, if_neg, hdrop, getElem?_makeDirs_of_watched _ _ hq, hmade.2 q hq]
      · exact fun _ ↦ rfl
      · exact fun _ ↦ Nat.zero_le 1
      · rintro rfl
        rcases watched_append.1 hq with ⟨h | h, -⟩ | ⟨-, h⟩
        · exact absurd h (by decide)
        · exact absurd h (by decide)
        · cases h
    · split_ifs at h
      obtain rfl := Except.ok.inj h
      exact hmade
    · cases h

/-- What a round of a capture hands on. -/
structure Parcel (S : Store) (one : SmsMessage × List (DiskPath × Document SmsJson)) : Prop where
  usual : Usual one.1.messageId
  files : ∃ media, one.2 = (S.messageFile one.1.messageId, .message (.message one.1)) ::
      (S.entryFile one.1.peer one.1.messageId, .bytes []) :: media ∧
    ∀ f ∈ media, ∃ k, f.1 = S.root ++ ["media", one.1.messageId, k]

theorem usual_of_generated {x : String} (h : validateId ("txt-" ++ x) = .ok ()) :
    Usual ("txt-" ++ x) := by
  refine ⟨h, fun heq ↦ ?_⟩
  have hhead := congrArg (fun s ↦ s.toList.head?) heq
  rw [String.toList_append] at hhead
  simp at hhead

theorem mediaPath_of_usual {k : String} (hi : i ≠ ".") (hk : k ≠ ".") {path : DiskPath}
    (h : S.mediaPath i k = .ok path) : path = S.root ++ ["media", i, k] := by
  rw [Store.mediaPath, if_neg hk, Store.mediaDir, if_neg hi, Store.mediaRoot] at h
  obtain ⟨-, -, h⟩ := bind_eq_ok_iff.1 h
  obtain ⟨-, -, h⟩ := bind_eq_ok_iff.1 h
  obtain rfl := Except.ok.inj h
  rw [List.append_assoc, List.append_assoc]
  rfl

theorem parcel_of_messageFiles {m : SmsMessage} {content : List (String × Bytes)} {x : String}
    (hid : m.messageId = "txt-" ++ x) (hmedia : ∀ f ∈ content, f.1 ≠ ".")
    {files : List (DiskPath × Document SmsJson)} (h : S.messageFiles m content = .ok files) :
    Parcel S (m, files) := by
  rw [Store.messageFiles, peerIndexDir_eq, messagePath_eq] at h
  obtain ⟨dir, hdir, h⟩ := bind_eq_ok_iff.1 h
  obtain ⟨path, hpath, h⟩ := bind_eq_ok_iff.1 h
  obtain ⟨media, hfiles, h⟩ := bind_eq_ok_iff.1 h
  obtain ⟨hash, -, rfl⟩ := map_eq_ok_iff.1 hdir
  obtain ⟨⟨⟩, hvalid, rfl⟩ := map_eq_ok_iff.1 hpath
  obtain rfl := Except.ok.inj h
  have husual : Usual m.messageId := by
    rw [hid] at hvalid ⊢
    exact usual_of_generated hvalid
  have hentry : S.conversation m.peer ++ [m.messageId ++ ".idx"] =
      S.entryFile m.peer m.messageId := by
    rw [Store.conversation, List.append_assoc]
    rfl
  refine ⟨husual, media, by rw [← hentry], fun f hf ↦ ?_⟩
  obtain ⟨file, hfile, hf⟩ := exists_of_mapM_ok hfiles hf
  obtain ⟨path, hpath, hf⟩ := bind_eq_ok_iff.1 hf
  obtain rfl := Except.ok.inj hf
  exact ⟨file.1, mediaPath_of_usual husual.2 (hmedia file hfile) hpath⟩

theorem prepareMessage_eq_ok {new : NewSmsMessage} {g : Store.Generated} {id : String}
    {m : SmsMessage} {content : List (String × Bytes)}
    (h : Store.prepareMessage new g id = .ok (m, content)) :
    m.messageId = g.messageId ∧ ∀ f ∈ content, f.1 ∈ g.mediaIds := by
  rw [Store.prepareMessage] at h
  split_ifs at h
  cases h
  refine ⟨rfl, fun f hf ↦ ?_⟩
  obtain ⟨⟨item, k⟩, hitem, hf⟩ := List.mem_filterMap.1 hf
  obtain ⟨bytes, -, rfl⟩ := Option.map_eq_some_iff.1 hf
  exact (List.of_mem_zip hitem).2

theorem media_ne_dot {k : String} (h : ∃ x, S.isUuid x = true ∧ k = "media-" ++ x) : k ≠ "." := by
  rintro rfl
  obtain ⟨x, -, heq⟩ := h
  have hhead := congrArg (fun s ↦ s.toList.head?) heq
  rw [String.toList_append] at hhead
  simp at hhead

/-- **One round of a capture** adds nothing that is looked at. -/
theorem ordered_captureOne (hd : Ordered S d) {new : NewSmsMessage × Store.Generated} {id : String}
    (hnew : new.2.New S new.1 d) :
    Ordered S (S.captureOne id d new).2 ∧
      (∀ q, Watched S q → (S.captureOne id d new).2[q]? = d[q]?) ∧
      ∀ one, (S.captureOne id d new).1 = .ok one → Parcel S one ∧ Absent S d one.1.messageId := by
  rw [Store.captureOne]
  cases hprep : Store.prepareMessage new.1 new.2 id with
  | error e => exact ⟨hd, fun q _ ↦ rfl, nofun⟩
  | ok prepared =>
    obtain ⟨m, content⟩ := prepared
    dsimp only
    cases hensure : S.ensureConversation m.peer d with
    | error e => exact ⟨hd, fun q _ ↦ rfl, nofun⟩
    | ok u =>
      obtain ⟨hu, hsame⟩ := ordered_ensureConversation hd hensure
      dsimp only
      cases hfiles : S.messageFiles m content with
      | error e => exact ⟨hu, hsame, nofun⟩
      | ok files =>
        refine ⟨hu, hsame, fun one hone ↦ ?_⟩
        obtain rfl := Except.ok.inj hone
        obtain ⟨hid, hcontent⟩ := prepareMessage_eq_ok hprep
        obtain ⟨x, -, hx⟩ := hnew.message
        refine ⟨parcel_of_messageFiles (hid.trans hx) (fun f hf ↦ ?_) hfiles, ?_⟩
        · exact media_ne_dot (hnew.media f.1 (hcontent f hf))
        · show Absent S d m.messageId
          rw [hid]
          exact ⟨(hnew.absent "").1, fun peer ↦ (hnew.absent peer).2⟩

theorem Store.Generated.New.congr {g : Store.Generated} {new : NewSmsMessage} (h : g.New S new d)
    (hsame : ∀ q, Watched S q → t[q]? = d[q]?) : g.New S new t where
  message := h.message
  media := h.media
  length := h.length
  absent peer := by
    have habsent := h.absent peer
    rw [← hsame _ (.inl ⟨_, rfl⟩), ← hsame _ (.inr (.inr ⟨_, _, rfl⟩))] at habsent
    exact habsent

theorem ordered_captureAll (hd : Ordered S d) {new : List (NewSmsMessage × Store.Generated)}
    {id : String} (hnew : ∀ m ∈ new, m.2.New S m.1 d) :
    Ordered S (S.captureAll id d new).2 ∧
      (∀ q, Watched S q → (S.captureAll id d new).2[q]? = d[q]?) ∧
      ∀ captured, (S.captureAll id d new).1 = .ok captured →
        ∀ one ∈ captured, Parcel S one ∧ Absent S d one.1.messageId := by
  induction new generalizing d with
  | nil =>
    refine ⟨hd, fun q _ ↦ rfl, fun captured h ↦ ?_⟩
    obtain rfl := Except.ok.inj h
    exact fun one hone ↦ absurd hone List.not_mem_nil
  | cons first rest ih =>
    have hone := @ordered_captureOne _ _ hd _ id (hnew first List.mem_cons_self)
    rw [Store.captureAll]
    generalize S.captureOne id d first = x at hone ⊢
    obtain ⟨r, u⟩ := x
    obtain ⟨hu, hsame, hparcel⟩ := hone
    cases r with
    | error e => exact ⟨hu, hsame, nofun⟩
    | ok one =>
      have hall := ih hu fun m hm ↦ (hnew m (List.mem_cons_of_mem _ hm)).congr hsame
      dsimp only at hall ⊢
      generalize S.captureAll id u rest = x at hall ⊢
      obtain ⟨r, v⟩ := x
      obtain ⟨hv, hsame', hparcels⟩ := hall
      have hboth : ∀ q, Watched S q → v[q]? = d[q]? := fun q hq ↦ (hsame' q hq).trans (hsame q hq)
      cases r with
      | error e => exact ⟨hv, hboth, nofun⟩
      | ok others =>
        refine ⟨hv, hboth, fun captured h ↦ ?_⟩
        obtain rfl := Except.ok.inj h
        intro other hother
        rcases List.mem_cons.1 hother with rfl | hother
        · exact hparcel _ rfl
        · obtain ⟨hp, habsent⟩ := hparcels others rfl other hother
          exact ⟨hp, habsent.congr fun q hq ↦ (hsame q hq).symm⟩

/-- The files of a capture are those of its messages, one message after the other. -/
theorem ordered_parcels {captured : List (SmsMessage × List (DiskPath × Document SmsJson))}
    (hd : Ordered S d) (hparcels : ∀ one ∈ captured, Parcel S one ∧ Absent S d one.1.messageId)
    (hnodup : ((captured.flatMap Prod.snd).map Prod.fst).Nodup) :
    Ordered S ((captured.flatMap Prod.snd).foldl Store.writeFile d) := by
  induction captured generalizing d with
  | nil => exact hd
  | cons one rest ih =>
    obtain ⟨⟨husual, media, hfiles, hmedia⟩, habsent⟩ := hparcels one List.mem_cons_self
    rw [List.flatMap_cons, List.foldl_append, hfiles]
    show Ordered S ((rest.flatMap Prod.snd).foldl Store.writeFile
      (media.foldl Store.writeFile (deposit S d one.1)))
    have hdeposit := hd.deposit husual habsent
    obtain ⟨hordered, hsame⟩ := ordered_foldl_writeFile hdeposit fun f hf ↦ by
      obtain ⟨k, hk⟩ := hmedia f hf
      exact ⟨"media", [one.1.messageId], k, hk, by decide, by decide, by decide⟩
    rw [List.flatMap_cons, List.map_append] at hnodup
    obtain ⟨-, hrest, hapart⟩ := List.nodup_append.1 hnodup
    refine ih hordered (fun other hother ↦ ?_) hrest
    obtain ⟨hparcel, habsent'⟩ := hparcels other (List.mem_cons_of_mem _ hother)
    refine ⟨hparcel, (habsent'.deposit ?_).congr hsame⟩
    intro heq
    obtain ⟨-, media', hfiles', -⟩ := hparcel
    refine hapart (S.messageFile one.1.messageId) ?_ (S.messageFile other.1.messageId) ?_ ?_
    · rw [hfiles]
      exact List.mem_cons_self
    · refine List.mem_map.2 ⟨(S.messageFile other.1.messageId, .message (.message other.1)),
        List.mem_flatMap.2 ⟨other, hother, ?_⟩, rfl⟩
      rw [hfiles']
      exact List.mem_cons_self
    · rw [heq]

theorem ordered_captureMessages (hd : Ordered S d) {new : List (NewSmsMessage × Store.Generated)}
    {records : List RepeatabilityRecord} {id : String} (hnew : ∀ m ∈ new, m.2.New S m.1 d) :
    Ordered S (S.captureMessages new records id d).2 := by
  have hall := @ordered_captureAll _ _ hd _ id hnew
  rw [Store.captureMessages]
  generalize S.captureAll id d new = x at hall ⊢
  obtain ⟨r, u⟩ := x
  obtain ⟨hordered, hsame, hparcels⟩ := hall
  cases r with
  | error e => exact hordered
  | ok captured =>
    dsimp only
    rw [Store.commitFiles]
    split_ifs with hrefused
    · exact hordered
    · have hnodup := (not_or.1 (by simpa only [Bool.or_eq_true] using hrefused)).2
      rw [Bool.not_eq_true', decide_eq_false_iff_not, not_not, List.map_append] at hnodup
      have hmessages := ordered_parcels hordered
        (fun one hone ↦ ⟨(hparcels captured rfl one hone).1,
          (hparcels captured rfl one hone).2.congr hsame⟩) (List.nodup_append.1 hnodup).1
      dsimp only
      rw [List.foldl_append]
      obtain ⟨hall, -⟩ := @ordered_foldl_writeFile _ _ (records.map fun record ↦
          recordFile S.toExternals S.root { record with transactionId := id }) hmessages fun f hf ↦ by
        obtain ⟨record, -, rfl⟩ := List.mem_map.1 hf
        exact ⟨recordsName, [], S.digest record.key ++ ".json", rfl, by decide, by decide, by decide⟩
      refine (hall.makeDirs fun q hq ↦ ?_).set ?_ ?_ ?_
      · exact not_watched_prefix (fun h ↦ absurd h (by decide)) (fun h ↦ absurd h (by decide)) hq
      · simp [markerPath]
      · rw [markerPath, watched_append]
        exact fun h ↦ absurd h (by simp [transactionsName])
      · intro D heq
        simp [markerPath] at heq

/-! ### Every store -/

theorem getElem?_foldl_makeDirs (l : List String) (d : SmsDisk) (q : DiskPath) :
    (l.foldl (fun d D ↦ Store.makeDirs d (S.root ++ [D])) d)[q]? =
      if d[q]? = none ∧ q ≠ [] ∧ ∃ D ∈ l, q <+: S.root ++ [D] then some .directory else d[q]? := by
  induction l generalizing d with
  | nil => rw [if_neg fun h ↦ by simp at h]; rfl
  | cons D l ih =>
    rw [List.foldl_cons, ih, getElem?_makeDirs]
    by_cases hq : d[q]? = none ∧ q <+: S.root ++ [D] ∧ q ≠ []
    · rw [if_pos hq, if_neg nofun, if_pos ⟨hq.1, hq.2.2, D, List.mem_cons_self, hq.2.1⟩]
    · rw [if_neg hq]
      refine if_congr (and_congr_right fun hnone ↦ and_congr_right fun hne ↦ ?_) rfl rfl
      constructor
      · rintro ⟨D', hD', hpre⟩
        exact ⟨D', List.mem_cons_of_mem _ hD', hpre⟩
      · rintro ⟨D', hD', hpre⟩
        rcases List.mem_cons.1 hD' with rfl | hD'
        · exact absurd ⟨hnone, hpre, hne⟩ hq
        · exact ⟨D', hD', hpre⟩

/-- There is nothing in the directories of a new store. -/
theorem getElem?_opened {D : String} {rest : DiskPath} (hrest : rest ≠ []) :
    S.opened[S.root ++ D :: rest]? = none := by
  rw [Store.opened, getElem?_foldl_makeDirs, if_neg, Std.ExtTreeMap.getElem?_empty]
  rintro ⟨-, -, D', -, hpre⟩
  have hlen := hpre.length_le
  have hpos := List.length_pos_iff.2 hrest
  simp only [List.length_append, List.length_cons, List.length_nil] at hlen
  omega

theorem ordered_opened : Ordered S S.opened := by
  refine ⟨fun D hD ↦ ?_, fun f n hn ↦ ?_, fun D f n hn ↦ ?_, fun D n hn ↦ ?_, fun D f hf ↦ ?_,
    fun j m hm ↦ ?_, fun f n hn ↦ ?_⟩
  · refine Disk.isDir_eq_true.2 (.inr ?_)
    rw [Store.opened, getElem?_foldl_makeDirs, if_pos]
    refine ⟨Std.ExtTreeMap.getElem?_empty, by simp, D, ?_, List.prefix_refl _⟩
    simp only [List.mem_cons, List.not_mem_nil, or_false] at hD ⊢
    rcases hD with rfl | rfl | rfl | rfl <;> simp
  · rw [getElem?_opened (List.cons_ne_nil _ _)] at hn
    cases hn
  · rw [getElem?_opened (List.cons_ne_nil _ _)] at hn
    cases hn
  · rw [getElem?_opened (List.cons_ne_nil _ _)] at hn
    cases hn
  · rw [getElem?_opened (List.cons_ne_nil _ _)] at hf
    cases hf
  · rw [Store.messageFile, getElem?_opened (List.cons_ne_nil _ _)] at hm
    cases hm
  · rw [getElem?_opened (List.cons_ne_nil _ _)] at hn
    cases hn

/-- A message may be replaced by one of the same identity, with the same peer. -/
theorem Ordered.rewrite (hd : Ordered S d) {m m' : SmsMessage}
    (hm : d[S.messageFile i]? = some (messageNode m)) (hid : m'.messageId = m.messageId)
    (hpeer : m'.peer = m.peer) :
    Ordered S (Store.writeFile d (S.messageFile i, .message (.message m'))) := by
  obtain ⟨m₀, heq, rfl, husual⟩ := hd.message_of_file hm
  cases heq
  have hnode : ∀ q, (Store.writeFile d (S.messageFile m.messageId, .message (.message m')))[q]? =
      if q = S.messageFile m.messageId then some (messageNode m')
      else (Store.makeDirs d (S.root ++ ["messages"]))[q]? := by
    intro q
    rw [getElem?_writeFile, messageFile_dropLast]
  have hwatched : ∀ q, Watched S q → q ≠ S.messageFile m.messageId →
      (Store.writeFile d (S.messageFile m.messageId, .message (.message m')))[q]? = d[q]? := by
    intro q hq hne
    rw [hnode, if_neg hne, getElem?_makeDirs_of_watched (fun _ ↦ rfl) (fun h ↦ by simp at h) hq]
  have hmessage : ∀ j m₁, (Store.writeFile d
      (S.messageFile m.messageId, .message (.message m')))[S.messageFile j]? = some (messageNode m₁) →
      ∃ m₂, d[S.messageFile j]? = some (messageNode m₂) ∧ m₁.peer = m₂.peer := by
    intro j m₁ hm₁
    by_cases hj : j = m.messageId
    · subst hj
      rw [hnode, if_pos rfl] at hm₁
      cases hm₁
      exact ⟨m, hm, hpeer⟩
    · rw [hwatched _ watched_messageFile fun h ↦ hj (messageFile_inj.1 h)] at hm₁
      exact ⟨m₁, hm₁, rfl⟩
  refine ⟨fun D hD ↦ ?_, fun f n hn ↦ ?_, fun D f n hn ↦ ?_, fun D n hn ↦ ?_, fun D f hf ↦ ?_,
    fun j m₁ hm₁ ↦ ?_, fun f n hn ↦ ?_⟩
  · refine isDir_writeFile (hd.dirs D hD) (ne_of_length ?_)
    simp [Store.messageFile]
  · by_cases hf : S.root ++ ["messages", f] = S.messageFile m.messageId
    · rw [hf, hnode, if_pos rfl] at hn
      rw [Store.messageFile, List.append_cancel_left_eq] at hf
      exact ⟨m', (Option.some.inj hn).symm, by rw [hid]; simpa using hf, hid ▸ husual⟩
    · rw [hwatched _ (.inl ⟨f, rfl⟩) hf] at hn
      exact hd.messages f n hn
  · rw [hwatched _ (.inr (.inr ⟨D, f, rfl⟩)) (by simp [Store.messageFile])] at hn
    obtain ⟨peer, j, hn, hD, hf, hj, hpeers⟩ := hd.entries D f n hn
    refine ⟨peer, j, hn, hD, hf, hj, fun m₁ hm₁ ↦ ?_⟩
    obtain ⟨m₂, hm₂, heq⟩ := hmessage j m₁ hm₁
    rw [heq, hpeers m₂ hm₂]
  · rw [hnode, if_neg (by simp [Store.messageFile]), getElem?_makeDirs] at hn
    split_ifs at hn
    · exact .inl (Option.some.inj hn).symm
    · exact hd.rooms D n hn
  · rw [hwatched _ (.inr (.inr ⟨D, f, rfl⟩)) (by simp [Store.messageFile])] at hf
    refine isDir_writeFile (hd.homes D f hf) ?_
    simp [Store.messageFile]
  · obtain ⟨m₂, hm₂, heq⟩ := hmessage j m₁ hm₁
    rw [heq, hwatched _ watched_entryFile messageFile_ne_entryFile.symm]
    exact hd.indexed j m₂ hm₂
  · rw [hwatched _ (.inr (.inl ⟨f, rfl⟩)) (by simp [Store.messageFile])] at hn
    exact hd.callbacks f n hn

theorem Ordered.record (hd : Ordered S d) {a : CallbackAttempt} (hvalid : validateId a.attemptId = .ok ()) :
    Ordered S (Store.writeFile d (S.callbackFile a.attemptId, .message (.attempt a))) := by
  have hdrop : (S.callbackFile a.attemptId).dropLast = S.root ++ ["callbacks"] := by
    rw [Store.callbackFile, show S.root ++ ["callbacks", a.attemptId ++ ".json"] =
      (S.root ++ ["callbacks"]) ++ [a.attemptId ++ ".json"] by simp, List.dropLast_concat]
  have hnode : ∀ q, (Store.writeFile d (S.callbackFile a.attemptId, .message (.attempt a)))[q]? =
      if q = S.callbackFile a.attemptId then some (attemptNode a)
      else (Store.makeDirs d (S.root ++ ["callbacks"]))[q]? := by
    intro q
    rw [getElem?_writeFile, hdrop]
  have hwatched : ∀ q, Watched S q → q ≠ S.callbackFile a.attemptId →
      (Store.writeFile d (S.callbackFile a.attemptId, .message (.attempt a)))[q]? = d[q]? := by
    intro q hq hne
    rw [hnode, if_neg hne, getElem?_makeDirs_of_watched (fun _ ↦ rfl) (fun h ↦ by simp at h) hq]
  have hmessage : ∀ j, (Store.writeFile d
      (S.callbackFile a.attemptId, .message (.attempt a)))[S.messageFile j]? = d[S.messageFile j]? :=
    fun j ↦ hwatched _ watched_messageFile (by simp [Store.messageFile, Store.callbackFile])
  refine ⟨fun D hD ↦ ?_, fun f n hn ↦ ?_, fun D f n hn ↦ ?_, fun D n hn ↦ ?_, fun D f hf ↦ ?_,
    fun j m hm ↦ ?_, fun f n hn ↦ ?_⟩
  · refine isDir_writeFile (hd.dirs D hD) (ne_of_length ?_)
    simp [Store.callbackFile]
  · rw [hwatched _ (.inl ⟨f, rfl⟩) (by simp [Store.callbackFile])] at hn
    exact hd.messages f n hn
  · rw [hwatched _ (.inr (.inr ⟨D, f, rfl⟩)) (by simp [Store.callbackFile])] at hn
    obtain ⟨peer, j, hn, hD, hf, hj, hpeers⟩ := hd.entries D f n hn
    exact ⟨peer, j, hn, hD, hf, hj, fun m hm ↦ hpeers m (hmessage j ▸ hm)⟩
  · rw [hnode, if_neg (by simp [Store.callbackFile]), getElem?_makeDirs] at hn
    split_ifs at hn
    · exact .inl (Option.some.inj hn).symm
    · exact hd.rooms D n hn
  · rw [hwatched _ (.inr (.inr ⟨D, f, rfl⟩)) (by simp [Store.callbackFile])] at hf
    refine isDir_writeFile (hd.homes D f hf) ?_
    simp [Store.callbackFile]
  · rw [hmessage] at hm
    rw [hwatched _ watched_entryFile (by simp [Store.entryFile, Store.callbackFile])]
    exact hd.indexed j m hm
  · by_cases hf : S.root ++ ["callbacks", f] = S.callbackFile a.attemptId
    · rw [hf, hnode, if_pos rfl] at hn
      rw [Store.callbackFile, List.append_cancel_left_eq] at hf
      exact ⟨a, (Option.some.inj hn).symm, by simpa using hf, hvalid⟩
    · rw [hwatched _ (.inr (.inl ⟨f, rfl⟩)) hf] at hn
      exact hd.callbacks f n hn

theorem ordered_transitionDelivery (hd : Ordered S d) {state : SmsDeliveryState} {now : Time}
    {message : SmsMessage} (h : S.transitionDelivery i state now d = .ok (message, t)) :
    Ordered S t := by
  rw [Store.transitionDelivery, messagePath_eq] at h
  split_ifs at h
  obtain ⟨path, hpath, h⟩ := bind_eq_ok_iff.1 h
  obtain ⟨⟨⟩, -, rfl⟩ := map_eq_ok_iff.1 hpath
  obtain ⟨m, hread, h⟩ := bind_eq_ok_iff.1 h
  obtain ⟨m', hmade, h⟩ := bind_eq_ok_iff.1 h
  obtain ⟨-, rfl⟩ := Prod.mk.inj (Except.ok.inj h)
  have hm : d[S.messageFile i]? = some (messageNode m) := by
    rw [Store.readMessagePath] at hread
    split at hread
    · cases hread
    · next hnode =>
      cases hread
      exact hnode
    · cases hread
  split_ifs with haccepted
  · rw [Sms.transitionDelivery, if_pos haccepted] at hmade
    split_ifs at hmade
    cases hmade
    exact hd.rewrite hm rfl rfl
  · exact hd

theorem destinationPath_eq_ok {provider : SmsProvider} {number : String} {path : DiskPath}
    (h : S.destinationPath provider number = .ok path) :
    ∃ x, path = S.root ++ "destinations" :: ([provider.asStr] ++ [x]) := by
  rw [Store.destinationPath] at h
  obtain ⟨hash, -, h⟩ := bind_eq_ok_iff.1 h
  exact ⟨hash ++ ".json", (Except.ok.inj h).symm⟩

/-- **Every store is ordered.** -/
theorem Store.Reached.ordered (h : S.Reached d) : Ordered S d := by
  induction h with
  | opened => exact ordered_opened
  | captured _ new records _ hnew ih => exact ordered_captureMessages ih hnew
  | transitioned _ ht ih => exact ordered_transitionDelivery ih ht
  | destined _ ht ih =>
    rw [Store.putDestination] at ht
    split_ifs at ht
    obtain ⟨path, hpath, ht⟩ := bind_eq_ok_iff.1 ht
    obtain ⟨x, rfl⟩ := destinationPath_eq_ok hpath
    obtain ⟨-, rfl⟩ := Prod.mk.inj (Except.ok.inj ht)
    exact ih.writeFile ⟨by decide, by decide⟩ fun h ↦ absurd h (by decide)
  | undestined _ ht ih =>
    obtain ⟨path, hpath, ht⟩ := bind_eq_ok_iff.1 ht
    obtain ⟨x, rfl⟩ := destinationPath_eq_ok hpath
    obtain rfl := Except.ok.inj ht
    refine ih.set (by simp) ?_ fun D heq ↦ by simp at heq
    rw [watched_append]
    exact fun h ↦ absurd h (by simp)
  | recorded _ ht ih =>
    rw [Store.recordCallback, callbackPath_eq] at ht
    obtain ⟨path, hpath, ht⟩ := bind_eq_ok_iff.1 ht
    obtain ⟨⟨⟩, hvalid, rfl⟩ := map_eq_ok_iff.1 hpath
    split_ifs at ht
    obtain rfl := Except.ok.inj ht
    exact ih.record hvalid
  | deleted _ hx ih =>
    rcases (hx.of_wp (wp_deleteMessageLocked ih)).1 with rfl | hgone
    · exact ih
    · exact hgone.ordered ih
  | emptied _ hx ih => exact (hx.of_wp (wp_deleteConversation ih)).1.ordered

end Sqrzl.Sms
