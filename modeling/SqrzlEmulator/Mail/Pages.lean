import SqrzlEmulator.Data.MarkerPages
import SqrzlEmulator.Data.Results
import SqrzlEmulator.Capture.Recovery
import SqrzlEmulator.Mail.Filesystem
import SqrzlEmulator.Prog.Footprint
import Mathlib.Data.Prod.Lex
import Mathlib.Data.String.Basic

/-!
# Pages of a mailbox

A client that lists a mailbox page by page while its messages are deleted. A deletion only removes
files of the mailbox, also one that fails or is stopped (`exec_deleteMessage_removes`), so the
messages that are found become fewer; each page is a page of these (`page_of_shows`).

**Every message that stays is shown once, exactly if at every page the last message that was shown is
still there, or nothing that sorts before it** (`mail_paging_iff`), as for every list that shrinks.
The messages of a mailbox are known by their identities, since each is stored under its own
(`KeepsNames`): `Mail.Names` shows that captures and deletions never change that.
-/

namespace Sqrzl.Mail

open Capture MarkerPages Results

variable {S : Store} {d d₀ t : MailDisk} {D P : DiskPath} {m : String}

/-! ### The order of a mailbox -/

/-- What the messages of a mailbox are sorted by. -/
def sortKey (stored : StoredMessage) : Time ×ₗ String :=
  toLex (stored.receivedAt, stored.messageId)

theorem listed_iff {a b : StoredMessage} : Store.Listed a b ↔ sortKey a ≤ sortKey b := by
  rw [Store.Listed, sortKey, sortKey, Prod.Lex.toLex_le_toLex]

/-! ### What is found -/

/-- The message that an entry of a directory adds to its listing. -/
def entryOf (S : Store) (d : MailDisk) (P : DiskPath) (name : String) : Option StoredMessage :=
  match Store.listEntry (S.committedSnapshot d) P d name with
  | .ok entry => entry
  | .error _ => none

/-- The messages of a mailbox. -/
def found (S : Store) (m : String) (d : MailDisk) : List StoredMessage :=
  match S.mailboxDir m d with
  | .ok P => if d.isDir P then ((d.entries P).filterMap (entryOf S d P)).insertionSort Store.Listed
    else []
  | .error _ => []

/-- A message of a directory is that of a file. -/
theorem entryOf_eq_some {name : String} {stored : StoredMessage} (h : entryOf S d P name = some stored) :
    isJson name = true ∧ d[P ++ [name]]? = some (.file (.data (.message stored))) ∧
      (stored.transactionId.isEmpty || S.committedSnapshot d stored.transactionId) = true := by
  rw [entryOf, Store.listEntry] at h
  split_ifs at h with hjson
  · refine ⟨hjson, ?_⟩
    rw [Store.readStored] at h
    split at h
    · next entry hentry =>
      split at hentry
      · next hread =>
        split at hread
        · cases hread
        · next hnode =>
          cases hread
          rw [← Except.ok.inj hentry] at h
          split_ifs at h with hvisible
          obtain rfl := Option.some.inj h
          exact ⟨hnode, hvisible⟩
        · cases hread
      · rw [← Except.ok.inj hentry] at h
        cases h
      · cases hentry
    · cases h

theorem entryOf_of_node {name : String} {stored : StoredMessage} (hjson : isJson name = true)
    (hnode : d[P ++ [name]]? = some (.file (.data (.message stored))))
    (hvisible : (stored.transactionId.isEmpty || S.committedSnapshot d stored.transactionId) = true) :
    entryOf S d P name = some stored := by
  rw [entryOf, Store.listEntry, if_pos hjson, Store.readStored, hnode]
  exact if_pos hvisible

theorem mem_found {stored : StoredMessage} : stored ∈ found S m d ↔ ∃ P, S.mailboxDir m d = .ok P ∧
    d.isDir P = true ∧ ∃ name, entryOf S d P name = some stored := by
  have hentry : ∀ {P name}, entryOf S d P name = some stored → name ∈ d.entries P := by
    intro P name h
    rw [Disk.mem_entries, (entryOf_eq_some h).2.1]
    rfl
  rw [found]
  constructor
  · intro h
    split at h
    · next P hP =>
      split_ifs at h with hdir
      · rw [List.mem_insertionSort, List.mem_filterMap] at h
        obtain ⟨name, -, h⟩ := h
        exact ⟨P, hP, hdir, name, h⟩
      · exact absurd h List.not_mem_nil
    · exact absurd h List.not_mem_nil
  · rintro ⟨P, hP, hdir, name, h⟩
    rw [hP]
    dsimp only
    rw [if_pos hdir, List.mem_insertionSort, List.mem_filterMap]
    exact ⟨name, hentry h, h⟩

/-! ### What a page shows -/

/-- What a request for a page returns. -/
def Shows (S : Store) (m : String) (d : MailDisk) (marker : Option String) (limit : ℕ)
    (p : List StoredMessage × Option String) : Prop :=
  S.listMessages m ⟨marker, some limit⟩ d = .ok ⟨p.1, p.2⟩

theorem page_messages (marker : Option String) (limit : ℕ) (l : List StoredMessage) :
    Store.page ⟨marker, some limit⟩ l = ⟨(page StoredMessage.messageId marker limit l).1,
      (page StoredMessage.messageId marker limit l).2⟩ := by
  rw [Store.page, page, startOf_eq]
  cases marker <;>
    · dsimp only
      split_ifs <;> rfl

/-- **A page is a page of what is found.** -/
theorem page_of_shows {marker : Option String} {limit : ℕ} {p : List StoredMessage × Option String}
    (h : Shows S m d marker limit p) :
    p = page StoredMessage.messageId marker limit (found S m d) := by
  rw [Shows, Store.listMessages, Store.listMessagesSnapshot, bind_eq_ok_iff] at h
  obtain ⟨P, hP, h⟩ := h
  have hpage : (⟨p.1, p.2⟩ : ListMessagesResult) =
      Store.page ⟨marker, some limit⟩ (found S m d) := by
    rw [found, hP]
    dsimp only
    split_ifs at h ⊢ with hdir
    · obtain ⟨entries, hentries, h⟩ := bind_eq_ok_iff.1 h
      have heq := eq_map_of_mapM_ok (h := entryOf S d P) (fun name entry hentry ↦ by
        rw [entryOf, hentry]) hentries
      rw [heq] at h
      refine (Except.ok.inj h).symm.trans (congrArg (Store.page _) ?_)
      rw [show @List.reduceOption StoredMessage = List.filterMap id from rfl, List.filterMap_map]
      rfl
    · refine (Except.ok.inj h).symm.trans ?_
      cases marker <;> rfl
  rw [page_messages] at hpage
  exact congrArg (fun result ↦ (result.messages, result.nextMarker)) hpage

/-! ### What a deletion does -/

theorem length_of_mailboxDir (h : S.mailboxDir m d = .ok P) : P = S.legacyDir m ∨
    P.length = S.root.length + 1 := by
  unfold Store.mailboxDir at h
  split_ifs at h
  · exact .inl (Except.ok.inj h).symm
  · refine .inr ?_
    rw [← Except.ok.inj h, List.length_append]
    rfl

theorem length_legacyDir : (S.legacyDir m).length = S.root.length ∨
    (S.legacyDir m).length = S.root.length + 1 := by
  rw [Store.legacyDir]
  split_ifs
  · exact .inl rfl
  · exact .inr List.length_append

/-- **A deletion removes files of the mailbox**, however it ends. -/
theorem exec_deleteMessage_removes (hdir : S.mailboxDir m d = .ok P) {i : String}
    {evs : List Empty} {r : Option (Except Error Unit)}
    (hx : (S.deleteMessage m i).Exec d evs t r) :
    Disk.Within (fun q n ↦ n = none ∧ ∃ f, q = P ++ [f]) d t := by
  have hpath : ∀ {suffix : String} {path : DiskPath}, S.messagePath m i suffix d = .ok path →
      path = P ++ [i ++ suffix] := by
    intro suffix path h
    rw [Store.messagePath, bind_eq_ok_iff] at h
    obtain ⟨-, -, h⟩ := h
    rw [hdir] at h
    exact (Except.ok.inj h).symm
  rw [Store.deleteMessage] at hx
  obtain rfl | ⟨path, _, hmessage, hx⟩ := exec_ask_bind hx
  · exact .refl _
  obtain rfl | ⟨rawPath, _, hraw, hx⟩ := exec_ask_bind hx
  · exact .refl _
  obtain rfl := hpath hmessage
  obtain rfl := hpath hraw
  exact Disk.touches_bind (Disk.touches_unlink ⟨rfl, _, rfl⟩)
    (fun _ ↦ Disk.touches_unlink ⟨rfl, _, rfl⟩) hx

section Removed

variable (hdir : S.mailboxDir m d = .ok P)
  (hremoved : Disk.Within (fun q n ↦ n = none ∧ ∃ f, q = P ++ [f]) d t)

include hremoved

theorem same_of_length {q : DiskPath} (h : q.length ≠ P.length + 1) : t[q]? = d[q]? := by
  refine (hremoved q).resolve_right ?_
  rintro ⟨-, f, rfl⟩
  exact h List.length_append

theorem node_of_removed {q : DiskPath} {n : Node (Content (Document StoredMessage))}
    (h : t[q]? = some n) : d[q]? = some n := by
  rcases hremoved q with heq | ⟨hnone, -⟩
  · rw [← heq, h]
  · rw [h] at hnone
    cases hnone

include hdir

/-- The mailbox stays where it is. -/
theorem mailboxDir_of_removed : S.mailboxDir m t = S.mailboxDir m d := by
  have hlegacy : t[S.legacyDir m]? = d[S.legacyDir m]? := by
    refine same_of_length hremoved ?_
    have hlength := length_legacyDir (S := S) (m := m)
    rcases length_of_mailboxDir hdir with rfl | hP <;> omega
  rw [Store.mailboxDir, Store.mailboxDir, isDir_congr hlegacy]

theorem entryOf_of_removed {name : String} {stored : StoredMessage}
    (h : entryOf S t P name = some stored) : entryOf S d P name = some stored := by
  obtain ⟨hjson, hnode, hvisible⟩ := entryOf_eq_some h
  refine entryOf_of_node hjson (node_of_removed hremoved hnode) ?_
  rw [← hvisible, Store.committedSnapshot, Store.committedSnapshot, isFile_congr]
  refine (same_of_length hremoved ?_).symm
  have hlength := length_legacyDir (S := S) (m := m)
  have hmarker : (markerPath S.root stored.transactionId).length = S.root.length + 3 :=
    List.length_append
  rcases length_of_mailboxDir hdir with rfl | hP <;> omega

/-- What is found becomes less. -/
theorem found_of_removed : found S m t ⊆ found S m d := by
  intro stored h
  obtain ⟨P', hP', hisDir, name, hentry⟩ := mem_found.1 h
  rw [mailboxDir_of_removed hdir hremoved] at hP'
  obtain rfl := Except.ok.inj (hdir.symm.trans hP')
  refine mem_found.2 ⟨P, hdir, ?_, name, entryOf_of_removed hdir hremoved hentry⟩
  rw [← hisDir, isDir_congr (same_of_length hremoved (by omega))]

end Removed

/-! ### Identities -/

/-- The messages of a mailbox are stored under their own identities. -/
def KeepsNames (S : Store) (m : String) (d : MailDisk) : Prop :=
  ∀ P, S.mailboxDir m d = .ok P → ∀ f stored, isJson f = true →
    d[P ++ [f]]? = some (.file (.data (.message stored))) → f = stored.messageId ++ ".json"

theorem KeepsNames.entryOf (h : KeepsNames S m d) (hP : S.mailboxDir m d = .ok P) {name : String}
    {stored : StoredMessage} (hentry : entryOf S d P name = some stored) :
    name = stored.messageId ++ ".json" := by
  obtain ⟨hjson, hnode, -⟩ := entryOf_eq_some hentry
  exact h P hP name stored hjson hnode

/-- A message of a mailbox is known by its identity. -/
theorem KeepsNames.eq_of_mem (h : KeepsNames S m d) {a b : StoredMessage} (ha : a ∈ found S m d)
    (hb : b ∈ found S m d) (heq : a.messageId = b.messageId) : a = b := by
  obtain ⟨P, hP, -, name, hname⟩ := mem_found.1 ha
  obtain ⟨P', hP', -, name', hname'⟩ := mem_found.1 hb
  obtain rfl := Except.ok.inj (hP.symm.trans hP')
  have hsame : name = name' := by rw [h.entryOf hP hname, h.entryOf hP hname', heq]
  rw [hsame, hname'] at hname
  exact (Option.some.inj hname).symm

/-- **The messages of a mailbox are strictly sorted**: each of them has an identity of its own. -/
theorem KeepsNames.pairwise (h : KeepsNames S m d) :
    (found S m d).Pairwise (sortKey · < sortKey ·) := by
  rw [found]
  split
  · next P hP =>
    split_ifs
    · refine pairwise_insertionSort StoredMessage.messageId sortKey (fun a b ↦ listed_iff)
        (fun a b heq ↦ congrArg (fun key : Time ×ₗ String ↦ (ofLex key).2) heq) ?_
      rw [List.map_filterMap]
      refine List.Nodup.filterMap (fun name name' i hi hi' ↦ ?_) Disk.nodup_entries
      obtain ⟨stored, hstored, rfl⟩ := Option.map_eq_some_iff.1 hi
      obtain ⟨stored', hstored', heq⟩ := Option.map_eq_some_iff.1 hi'
      rw [h.entryOf hP hstored, h.entryOf hP hstored', heq]
    · exact .nil
  · exact .nil

/-! ### A client -/

/-- A deletion of a message of the mailbox. It may fail or be stopped anywhere. -/
def Deletes (S : Store) (m : String) (d t : MailDisk) : Prop :=
  ∃ i evs r, (S.deleteMessage m i).Exec d evs t r

/-- What is found after a deletion was found before. -/
theorem found_of_deletes (hnames : KeepsNames S m d) (h : Deletes S m d t) :
    KeepsNames S m t ∧ found S m t ⊆ found S m d := by
  obtain ⟨i, evs, r, hx⟩ := h
  cases hdir : S.mailboxDir m d with
  | error e =>
    -- without a mailbox nothing is removed
    have hpath : ∀ suffix path, S.messagePath m i suffix d ≠ .ok path := by
      intro suffix path h
      rw [Store.messagePath, bind_eq_ok_iff] at h
      obtain ⟨-, -, h⟩ := h
      rw [hdir] at h
      cases h
    rw [Store.deleteMessage] at hx
    obtain rfl | ⟨path, _, hmessage, -⟩ := exec_ask_bind hx
    · exact ⟨hnames, List.Subset.refl _⟩
    · exact absurd hmessage (hpath _ _)
  | ok P =>
    have hremoved := exec_deleteMessage_removes hdir hx
    refine ⟨fun P' hP' f stored hjson hnode ↦ ?_, found_of_removed hdir hremoved⟩
    rw [mailboxDir_of_removed hdir hremoved] at hP'
    exact hnames P' hP' f stored hjson (node_of_removed hremoved hnode)

/-- **When paging through a mailbox survives deletions.** -/
theorem mail_paging_iff (hnames : KeepsNames S m d₀)
    {asked : List (MailDisk × Reader StoredMessage String)} {r : Reader StoredMessage String}
    (h : Client (Deletes S m) (Shows S m) d₀ asked d r) :
    (r.returned.Nodup ∧ (r.finished = true → ∀ stored ∈ found S m d, stored ∈ r.returned) ∧
        asked.length ≤ (found S m d₀).length + 1) ↔
      ∀ x ∈ asked, Kept sortKey (found S m x.1) x.2 :=
  client_iff (I := KeepsNames S m) hnames (fun _ _ hs ht ↦ found_of_deletes hs ht)
    (fun _ hs ↦ hs.pairwise) (fun _ _ _ _ _ hp ↦ page_of_shows hp)
    (fun _ ha _ hb heq ↦ hnames.eq_of_mem ha hb heq) h

/-- No message is shown that was not there at first. -/
theorem returned_subset_found (hnames : KeepsNames S m d₀)
    {asked : List (MailDisk × Reader StoredMessage String)} {r : Reader StoredMessage String}
    (h : Client (Deletes S m) (Shows S m) d₀ asked d r) : r.returned ⊆ found S m d₀ :=
  h.returned_subset (I := KeepsNames S m) hnames (fun _ _ hs ht ↦ found_of_deletes hs ht)
    (fun _ _ _ _ _ hp ↦ page_of_shows hp)

/-! ### A deleted marker -/

/-- What a request for a page is answered with. -/
def answer (S : Store) (m : String) (d : MailDisk) (marker : Option String) (limit : ℕ) :
    List StoredMessage × Option String :=
  match S.listMessages m ⟨marker, some limit⟩ d with
  | .ok result => (result.messages, result.nextMarker)
  | .error _ => ([], none)

theorem shows_answer {marker : Option String} {limit : ℕ}
    (h : (S.listMessages m ⟨marker, some limit⟩ d).isOk = true) :
    Shows S m d marker limit (answer S m d marker limit) := by
  rw [Shows, answer]
  cases hlist : S.listMessages m ⟨marker, some limit⟩ d with
  | error e =>
    rw [hlist] at h
    cases h
  | ok result => rfl

/-- A message that an old build has received. -/
def oldMessage (i : String) (time : Time) : StoredMessage :=
  ⟨i, "alice", sampleMessage "alice", ⟨.accepted, none, time⟩, time⟩

/-- A mailbox with three messages. -/
def oldMailbox : MailDisk :=
  [("a", 1), ("b", 2), ("c", 3)].foldl (fun d old ↦ d.set ["_mail", "alice", old.1 ++ ".json"]
    (some (.file (.data (.message (oldMessage old.1 old.2))))))
    (((∅ : MailDisk).set ["_mail"] (some .directory)).set ["_mail", "alice"] (some .directory))

theorem oldMailbox_keepsNames : KeepsNames sampleStore "alice" oldMailbox := by
  intro P hP f stored _ hnode
  have hdir : sampleStore.mailboxDir "alice" oldMailbox = .ok ["_mail", "alice"] := by rfl
  obtain rfl := Except.ok.inj (hdir.symm.trans hP)
  have hpath : ∀ name, ["_mail", "alice"] ++ [f] = ["_mail", "alice", name] → f = name := by
    intro name h
    exact List.singleton_inj.1 (List.append_cancel_left h)
  simp only [oldMailbox, List.foldl_cons, List.foldl_nil, Table.getElem?_set] at hnode
  split_ifs at hnode with hc hb ha
  · cases hnode
    exact hpath _ hc
  · cases hnode
    exact hpath _ hb
  · cases hnode
    exact hpath _ ha
  all_goals cases hnode

/-- The mailbox without one of its messages. -/
def oldWithout (i : String) : MailDisk := ((sampleStore.deleteMessage "alice" i).run [] oldMailbox).2

/-- A client that gets a page of two messages, and the next one after a deletion. -/
def twoPages (i : String) : Reader StoredMessage String :=
  let first := ({} : Reader StoredMessage String).read (answer sampleStore "alice" oldMailbox none 2)
  first.read (answer sampleStore "alice" (oldWithout i) first.marker 2)

theorem client_twoPages (i : String) (hi : (sampleStore.listMessages "alice" ⟨some "b", some 2⟩
      (oldWithout i)).isOk = true) :
    ∃ asked, Client (Deletes sampleStore "alice") (Shows sampleStore "alice") oldMailbox
      asked (oldWithout i) (twoPages i) ∧
      asked = [(oldMailbox, {}), (oldWithout i,
        ({} : Reader StoredMessage String).read (answer sampleStore "alice" oldMailbox none 2))] := by
  obtain ⟨evs, hx⟩ := (sampleStore.deleteMessage "alice" i).exec_run [] oldMailbox
  have hmarker : (answer sampleStore "alice" oldMailbox none 2).2 = some "b" := by decide
  refine ⟨_, ?_, rfl⟩
  have htwo : 1 ≤ 2 := by decide
  refine .asked (.moved (.asked .start htwo rfl ?_) ⟨i, evs, _, hx⟩) htwo ?_ ?_
  · exact shows_answer (by decide)
  · decide
  · refine shows_answer ?_
    show (sampleStore.listMessages "alice" ⟨(answer sampleStore "alice" oldMailbox none 2).2, some 2⟩
      (oldWithout i)).isOk = true
    rw [hmarker]
    exact hi

end Sqrzl.Mail
