import SqrzlEmulator.Capture.Footprint
import SqrzlEmulator.Mail.Pages

/-!
# The names of messages

On a disk that is `Named`, every document of a message stands under the identity of that message,
which is what a client that pages through a mailbox counts on (`Named.keepsNames`). A disk without
messages is named, and **captures and deletions keep it so**, whatever fails and wherever they are
stopped (`captureBatch_named`, `deleteMessage_named`): the documents that a capture writes are named
by `message_path`, and the names under which they are written first are no `.json` names.
-/

namespace Sqrzl.Mail

open Capture Prog

variable {S : Store} {d t : MailDisk} {m : String}

/-- Every message stands under its own identity. -/
def Named (d : MailDisk) : Prop :=
  ∀ P f stored, isJson f = true → d[P ++ [f]]? = some (.file (.data (.message stored))) →
    f = stored.messageId ++ ".json"

theorem Named.keepsNames (h : Named d) : KeepsNames S m d := fun P _ ↦ h P

/-- A document at its place: a message has the name of its identity. -/
def WellNamed (q : DiskPath) (c : Document StoredMessage) : Prop :=
  ∀ P f stored, isJson f = true → q = P ++ [f] → c = .message stored →
    f = stored.messageId ++ ".json"

theorem Named.set (hd : Named d) {q : DiskPath} {n : Option (Node (Content (Document StoredMessage)))}
    (h : ∀ c, n = some (.file (.data c)) → WellNamed q c) : Named (Table.set d q n) := by
  intro P f stored hjson hnode
  rw [Table.getElem?_set] at hnode
  split at hnode
  · next heq => exact h _ hnode P f stored hjson heq.symm rfl
  · exact hd P f stored hjson hnode

theorem documentary_named : Documentary Named :=
  fun _ _ _ hd hn ↦ hd.set fun c hc ↦ absurd hc (hn c)

theorem WellNamed.allows {q : DiskPath} {c : Document StoredMessage} (h : WellNamed q c) :
    Allows Named q c :=
  fun _ hd ↦ hd.set fun _ hc ↦ (by cases hc; exact h)

theorem wellNamed_of_ne {q : DiskPath} {c : Document StoredMessage} (h : ∀ stored, c ≠ .message stored) :
    WellNamed q c :=
  fun _ _ stored _ _ hc ↦ absurd hc (h stored)

/-! ### Captures -/

/-- Behind the last dot of the name of a file that is being written comes more than an extension. -/
theorem not_isJson_pending {x : String} (hx : '.' ∉ x.toList) (name : String) :
    isJson (name ++ ".pending-" ++ x) = false := by
  have htail : '.' ∉ "pending-".toList ++ x.toList := by
    rw [List.mem_append, not_or]
    exact ⟨by decide, hx⟩
  have hname : (name ++ ".pending-" ++ x).toList =
      (name.toList ++ ['.']) ++ ("pending-".toList ++ x.toList) := by
    simp only [String.toList_append, List.append_assoc]
    rfl
  rw [isJson, Bool.and_eq_false_iff]
  refine .inl (decide_eq_false fun hsuffix ↦ htail ?_)
  rw [hname] at hsuffix
  have hlength : ".json".toList.length ≤ ("pending-".toList ++ x.toList).length := by
    rw [List.length_append]
    exact Nat.le_add_right_of_le (by decide)
  exact (List.suffix_of_suffix_length_le hsuffix (List.suffix_append ..) hlength).subset (by decide)

theorem wellNamed_pending {id : String} (hid : '.' ∉ id.toList) (q : DiskPath)
    (c : Document StoredMessage) : WellNamed (pendingPath q id) c := by
  intro P f stored hjson hq _
  have hf := (List.append_inj' hq rfl).2
  rw [← (List.cons.inj hf).1, not_isJson_pending hid] at hjson
  cases hjson

theorem keeps_ask {α : Type} {g : MailDisk → Except Error α} : (Store.ask g).Keeps Named :=
  (keeps_read g).bind fun r ↦ keeps_ofExcept r

theorem keeps_put {q : DiskPath} {c : Content (Document StoredMessage)}
    (h : ∀ x, c = .data x → WellNamed q x) :
    (Disk.call ioError (Disk.put q c) : MailJob Unit).Keeps Named := by
  refine keeps_call fun d d' hd hd' ↦ ?_
  unfold Disk.put at hd'
  split_ifs at hd'
  rw [← Option.some.inj hd']
  exact hd.set fun x hx ↦ h x (by cases hx; rfl)

/-- A sidecar is no message. -/
theorem keeps_writeAtomic (q : DiskPath) (text : String) :
    (Store.writeAtomic q (.text text)).Keeps Named := by
  have htext : ∀ p, WellNamed p (.text text : Document StoredMessage) := fun _ ↦
    wellNamed_of_ne fun _ h ↦ by cases h
  refine (keeps_createDirAll documentary_named).bind fun _ ↦
    (keeps_put fun _ h ↦ by cases h).bind fun _ d hd ↦ ?_
  refine Disk.wp_call_bind hd hd fun t ht ↦ ?_
  unfold Disk.put at ht
  split_ifs at ht
  obtain rfl := Option.some.inj ht
  have ht := (htext (Store.tmpPath q)).allows d hd
  refine Disk.wp_call ht ht fun u hu ↦ ?_
  -- what is moved is the text that has just been written
  obtain ⟨c, hc, -, rfl⟩ := Disk.rename_eq_some hu
  obtain rfl : Content.data (.text text) = c := by simpa using hc
  have hu := (htext q).allows _ (documentary_named.remove ht (Store.tmpPath q))
  exact ⟨hu, hu⟩

theorem keeps_ensureMailboxDir (m : String) : (S.ensureMailboxDir m).Keeps Named := by
  refine keeps_ask.bind fun dir ↦ (keeps_createDirAll documentary_named).bind fun _ ↦
    keeps_fault.bind fun _ ↦ (keeps_read _).bind fun node ↦ ?_
  split
  · exact keeps_writeAtomic _ _
  · split
    · exact keeps_ret ()
    · exact keeps_fail _
  · exact keeps_fail _

/-- Files that are written by a capture. -/
def FilesNamed (files : List (DiskPath × Document StoredMessage)) : Prop :=
  ∀ f ∈ files, WellNamed f.1 f.2

theorem FilesNamed.append {files files' : List (DiskPath × Document StoredMessage)}
    (h : FilesNamed files) (h' : FilesNamed files') : FilesNamed (files ++ files') :=
  fun f hf ↦ (List.mem_append.1 hf).elim (h f) (h' f)

/-- **The files of a copy are well named**, as `message_path` names them. -/
theorem wp_prepareCopy {m i id : String} {message : Message} {now : Time} (hd : Named d) :
    wp Named (S.prepareCopy m i message id now) (fun r t ↦ Named t ∧
      ∀ copy, r = .ok copy → FilesNamed copy.2) d := by
  have hraw : ∀ (p : DiskPath) (raw : Bytes), WellNamed p (.bytes raw) := fun _ _ ↦
    wellNamed_of_ne fun _ h ↦ by cases h
  rw [Store.prepareCopy, Prog.bind_eq, wp_bind]
  refine wp_mono (keeps_ensureMailboxDir m d hd) (fun _ h ↦ h) fun r t ht _ ↦ ?_
  cases r with
  | error e => exact ⟨ht, fun _ h ↦ by cases h⟩
  | ok _ =>
    show wp Named (Prog.bind (Store.ask _) _) _ t
    rw [Store.ask, Prog.bind_eq, wp_bind, wp_bind, wp_read]
    refine ⟨ht, ?_⟩
    cases hpath : S.messagePath m i ".json" t with
    | error e => exact ⟨ht, ht, fun _ h ↦ by cases h⟩
    | ok path =>
      have hmessage : WellNamed path (.message (Store.copyFor m i message id now)) := by
        rw [Store.messagePath, Results.bind_eq_ok_iff] at hpath
        obtain ⟨-, -, hpath⟩ := hpath
        obtain ⟨dir, -, hpath⟩ := Results.bind_eq_ok_iff.1 hpath
        intro P f stored _ hq hc
        rw [← Except.ok.inj hpath] at hq
        cases hc
        exact (List.cons.inj (List.append_inj' hq rfl).2).1.symm
      refine ⟨ht, ?_⟩
      cases message.rawMime with
      | none =>
        refine ⟨ht, ht, fun copy h f hf ↦ ?_⟩
        cases h
        rw [List.mem_singleton.1 hf]
        exact hmessage
      | some raw =>
        show wp Named (Prog.bind (Store.ask _) _) _ t
        rw [Store.ask, Prog.bind_eq, wp_bind, wp_bind, wp_read]
        refine ⟨ht, ?_⟩
        cases S.messagePath m i ".raw" t with
        | error e => exact ⟨ht, ht, fun _ h ↦ by cases h⟩
        | ok rawPath =>
          refine ⟨ht, ht, ht, fun copy h f hf ↦ ?_⟩
          cases h
          rcases List.mem_cons.1 hf with rfl | hf
          · exact hmessage
          · rw [List.mem_singleton.1 hf]
            exact hraw _ _

theorem wp_prepareMessage {i id : String} {message : Message} {clock : String → String → Time}
    (hd : Named d) : wp Named (S.prepareMessage i message id clock) (fun r t ↦ Named t ∧
      ∀ copies, r = .ok copies → FilesNamed copies.2) d := by
  rw [Store.prepareMessage]
  split_ifs
  · exact ⟨hd, hd, fun _ h ↦ by cases h⟩
  · refine wp_foldEach (J := fun _ acc t ↦ Named t ∧ FilesNamed acc.2) ?_ ?_ _
      ⟨hd, fun _ h ↦ absurd h List.not_mem_nil⟩
    · rintro mailbox _ acc s ⟨hs, hacc⟩
      rw [Prog.bind_eq, wp_bind]
      refine wp_mono (wp_prepareCopy hs) (fun _ h ↦ h) fun r t ht hcopy ↦ ?_
      cases r with
      | error e => exact ⟨ht, fun _ h ↦ by cases h⟩
      | ok copy => exact ⟨ht, ht, hacc.append (hcopy.2 copy rfl)⟩
    · rintro acc s ⟨hs, hacc⟩
      exact ⟨hs, hs, fun _ h ↦ Except.ok.inj h ▸ hacc⟩

/-- **A capture keeps the disk named**, whatever fails and wherever it is stopped. -/
theorem captureBatch_named {messages : List (String × Message)} {records : List RepeatabilityRecord}
    {id : String} {clock : String → String → Time} (hid : S.isUuid id = true) (hd : Named d)
    {evs : List Empty} {r : Option (Except Error (List (List StoredMessage)))}
    (hx : (S.captureBatch messages records id clock).Exec d evs t r) : Named t := by
  refine (hx.of_wp (Q := fun _ ↦ Named) ?_).1
  rw [Store.captureBatch, Prog.bind_eq, wp_bind]
  refine wp_mono (keeps_ofExcept _ d hd) (fun _ h ↦ h) fun r s hs _ ↦ ?_
  cases r with
  | error e => exact hs
  | ok _ =>
    rw [Prog.bind_eq, wp_bind]
    refine wp_foldEach (J := fun _ acc t ↦ Named t ∧ FilesNamed acc.2) ?_ ?_ _
      ⟨hs, fun _ h ↦ absurd h List.not_mem_nil⟩
    · rintro message _ acc s ⟨hs, hacc⟩
      rw [Prog.bind_eq, wp_bind]
      refine wp_mono (wp_prepareMessage hs) (fun _ h ↦ h) fun r t ht hcopies ↦ ?_
      cases r with
      | error e => exact ht
      | ok copies => exact ⟨ht, ht, hacc.append (hcopies.2 copies rfl)⟩
    · rintro acc s ⟨hs, hacc⟩
      refine ⟨hs, ?_⟩
      have hrecords : FilesNamed (records.map fun record ↦
          recordFile S.toExternals S.root { record with transactionId := id }) := by
        intro f hf
        obtain ⟨record, -, rfl⟩ := List.mem_map.1 hf
        exact wellNamed_of_ne fun _ h ↦ by cases h
      have hcommit : ∀ files, FilesNamed files →
          (commit .answered S.root id files : MailJob Unit).Keeps Named := fun files hfiles ↦
        keeps_commit documentary_named .answered fun f hf ↦
          ⟨(wellNamed_pending (S.isUuid_plain id hid).2 f.1 f.2).allows, (hfiles f hf).allows⟩
      exact ((hcommit _ (hacc.append hrecords)).bind fun _ ↦ keeps_ret acc.1) s hs

/-- **A deletion keeps the disk named.** -/
theorem deleteMessage_named {i : String} (hd : Named d) {evs : List Empty}
    {r : Option (Except Error Unit)} (hx : (S.deleteMessage m i).Exec d evs t r) : Named t := by
  have hkeeps : (S.deleteMessage m i).Keeps Named :=
    keeps_ask.bind fun _ ↦ keeps_ask.bind fun _ ↦
      (keeps_unlink documentary_named).bind fun _ ↦ keeps_unlink documentary_named
  exact (hx.of_wp (hkeeps d hd)).1

end Sqrzl.Mail
