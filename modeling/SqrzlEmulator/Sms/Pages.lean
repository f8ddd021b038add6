import SqrzlEmulator.Mail.Pages
import SqrzlEmulator.Sms.Isolation

/-!
# Pages of a conversation

A client that lists a conversation page by page while its messages are deleted, as
`Mail.mail_paging_iff` for a mailbox. A page is a page of what is found (`page_of_shows`), and a
deletion removes nothing but what belongs to its message (`Gone`), so that what is found becomes less
(`found_of_deletes`).

**Both stores look up the marker among the messages that are left, and begin again from the front if
it is not there** (`message_paging_iff`); `shown_again` is a client that gets a message twice because
the last message of its first page was deleted.
-/

namespace Sqrzl.Sms

open Capture MarkerPages Results

variable {S : Store} {d d₀ t : SmsDisk} {peer i j : String}

/-! ### The order of a conversation -/

/-- What the messages of a conversation are sorted by. -/
def sortKey (message : SmsMessage) : Time ×ₗ String :=
  toLex (message.createdAt, message.messageId)

theorem listed_iff {a b : SmsMessage} : Store.Listed a b ↔ sortKey a ≤ sortKey b := by
  rw [Store.Listed, sortKey, sortKey, Prod.Lex.toLex_le_toLex]

/-! ### What is found -/

/-- The message that an entry of a conversation adds to its listing. -/
def entryOf (S : Store) (d : SmsDisk) (i : String) : Option SmsMessage :=
  match S.listEntry (S.committedSnapshot d) d i with
  | .ok entry => entry
  | .error _ => none

/-- The messages of a conversation. -/
def found (S : Store) (peer : String) (d : SmsDisk) : List SmsMessage :=
  match S.messageIdsForPeer peer d with
  | .ok ids => (ids.filterMap (entryOf S d)).insertionSort Store.Listed
  | .error _ => []

theorem entryOf_eq_some {m : SmsMessage} : entryOf S d i = some m ↔ validateId i = .ok () ∧
    d[S.messageFile i]? = some (messageNode m) ∧
      (m.transactionId.isEmpty || S.committedSnapshot d m.transactionId) = true := by
  rw [entryOf, Store.listEntry, messagePath_eq]
  cases hvalid : validateId i with
  | error e =>
    refine iff_of_false (fun h ↦ ?_) (fun h ↦ ?_)
    · cases h
    · cases h.1
  | ok u =>
    dsimp only [Except.map]
    constructor
    · intro h
      refine ⟨rfl, ?_⟩
      rw [Store.readMessagePath] at h
      split at h
      · next entry hentry =>
        split at hentry
        · next hread =>
          split at hread
          · cases hread
          · next hnode =>
            cases hread
            rw [← Except.ok.inj hentry] at h
            split_ifs at h with hvisible
            obtain rfl := Option.some.inj h
            exact ⟨hnode, hvisible⟩
          · cases hread
        · rw [← Except.ok.inj hentry] at h
          cases h
        · cases hentry
      · cases h
    · rintro ⟨-, hnode, hvisible⟩
      rw [Store.readMessagePath, hnode]
      exact if_pos hvisible

theorem Ordered.mem_found (hd : Ordered S d) {m : SmsMessage} : m ∈ found S peer d ↔
    (∃ hash, S.peerHash peer = .ok hash) ∧
      ∃ j, (d[S.entryFile peer j]?).isSome = true ∧ entryOf S d j = some m := by
  rw [found]
  cases hids : S.messageIdsForPeer peer d with
  | error e =>
    refine iff_of_false List.not_mem_nil ?_
    rintro ⟨⟨hash, hhash⟩, -⟩
    rw [messageIdsForPeer_eq, hhash] at hids
    cases hids
  | ok ids =>
    have hhash : ∃ hash, S.peerHash peer = .ok hash := by
      rw [messageIdsForPeer_eq] at hids
      obtain ⟨hash, hhash, -⟩ := map_eq_ok_iff.1 hids
      exact ⟨hash, hhash⟩
    dsimp only
    rw [List.mem_insertionSort, List.mem_filterMap, and_iff_right hhash]
    exact exists_congr fun j ↦ and_congr_left' (hd.mem_messageIdsForPeer hids)

/-! ### What a page shows -/

/-- What a request for a page returns. -/
def Shows (S : Store) (peer : String) (d : SmsDisk) (marker : Option String) (limit : ℕ)
    (p : List SmsMessage × Option String) : Prop :=
  S.listMessages peer ⟨marker, some limit⟩ d = .ok ⟨p.1, p.2⟩

theorem page_messages (marker : Option String) (limit : ℕ) (l : List SmsMessage) :
    Store.page ⟨marker, some limit⟩ l = ⟨(page SmsMessage.messageId marker limit l).1,
      (page SmsMessage.messageId marker limit l).2⟩ := by
  rw [Store.page, page, startOf_eq]
  cases marker <;>
    · dsimp only
      split_ifs <;> rfl

/-- **A page is a page of what is found.** -/
theorem page_of_shows {marker : Option String} {limit : ℕ} {p : List SmsMessage × Option String}
    (h : Shows S peer d marker limit p) :
    p = page SmsMessage.messageId marker limit (found S peer d) := by
  rw [Shows, Store.listMessages, Store.listMessagesSnapshot, bind_eq_ok_iff] at h
  obtain ⟨ids, hids, h⟩ := h
  obtain ⟨entries, hentries, h⟩ := bind_eq_ok_iff.1 h
  have heq := eq_map_of_mapM_ok (h := entryOf S d) (fun i entry hentry ↦ by
    rw [entryOf, hentry]) hentries
  have hpage : (⟨p.1, p.2⟩ : ListSmsMessagesResult) =
      Store.page ⟨marker, some limit⟩ (found S peer d) := by
    rw [found, hids]
    rw [heq] at h
    refine (Except.ok.inj h).symm.trans (congrArg (Store.page _) ?_)
    rw [show @List.reduceOption SmsMessage = List.filterMap id from rfl, List.filterMap_map]
    rfl
  rw [page_messages] at hpage
  exact congrArg (fun result ↦ (result.messages, result.nextMarker)) hpage

/-! ### Identities -/

/-- A message is found by its own identity. -/
theorem Ordered.entryOf (hd : Ordered S d) {m : SmsMessage} (h : entryOf S d i = some m) :
    i = m.messageId := by
  obtain ⟨m', heq, hi, -⟩ := hd.message_of_file (entryOf_eq_some.1 h).2.1
  cases heq
  exact hi.symm

/-- A message of a conversation is known by its identity. -/
theorem Ordered.eq_of_mem (hd : Ordered S d) {a b : SmsMessage} (ha : a ∈ found S peer d)
    (hb : b ∈ found S peer d) (heq : a.messageId = b.messageId) : a = b := by
  obtain ⟨-, i, -, hi⟩ := hd.mem_found.1 ha
  obtain ⟨-, j, -, hj⟩ := hd.mem_found.1 hb
  have hsame : i = j := by rw [hd.entryOf hi, hd.entryOf hj, heq]
  rw [hsame, hj] at hi
  exact (Option.some.inj hi).symm

theorem nodup_messageIdsForPeer {ids : List String} (h : S.messageIdsForPeer peer d = .ok ids) :
    ids.Nodup := by
  rw [messageIdsForPeer_eq] at h
  obtain ⟨-, -, rfl⟩ := map_eq_ok_iff.1 h
  split_ifs
  · rw [List.Perm.nodup_iff (List.perm_insertionSort _ _)]
    refine List.Nodup.filterMap (fun name name' i hi hi' ↦ ?_) Disk.nodup_entries
    rw [(stem_eq_some_iff.1 hi).1, (stem_eq_some_iff.1 hi').1]
  · exact .nil

/-- **The messages of a conversation are strictly sorted.** -/
theorem Ordered.pairwise (hd : Ordered S d) :
    (found S peer d).Pairwise (sortKey · < sortKey ·) := by
  rw [found]
  cases hids : S.messageIdsForPeer peer d with
  | error e => exact .nil
  | ok ids =>
    refine pairwise_insertionSort SmsMessage.messageId sortKey (fun a b ↦ listed_iff)
      (fun a b heq ↦ congrArg (fun key : Time ×ₗ String ↦ (ofLex key).2) heq) ?_
    rw [List.map_filterMap]
    refine List.Nodup.filterMap (fun i i' name h h' ↦ ?_) (nodup_messageIdsForPeer hids)
    obtain ⟨m, hm, rfl⟩ := Option.map_eq_some_iff.1 h
    obtain ⟨m', hm', heq⟩ := Option.map_eq_some_iff.1 h'
    rw [hd.entryOf hm, hd.entryOf hm', heq]

/-! ### A client -/

/-- A deletion of a message of the conversation. It may fail or be stopped anywhere. -/
def Deletes (S : Store) (peer : String) (d t : SmsDisk) : Prop :=
  ∃ i evs r, (S.deleteMessage peer i).Exec d evs t r

/-- What is found after a deletion was found before. -/
theorem found_of_deletes (hd : Ordered S d) (h : Deletes S peer d t) :
    Ordered S t ∧ found S peer t ⊆ found S peer d := by
  obtain ⟨i, evs, r, hx⟩ := h
  rcases (hx.of_wp (wp_deleteMessageLocked hd)).1 with rfl | hg
  · exact ⟨hd, List.Subset.refl _⟩
  · refine ⟨hg.ordered hd, fun m hm ↦ ?_⟩
    obtain ⟨hpeer, j, hj, hm⟩ := (hg.ordered hd).mem_found.1 hm
    refine hd.mem_found.2 ⟨hpeer, j, hg.isSome hj, ?_⟩
    obtain ⟨hvalid, hnode, hvisible⟩ := entryOf_eq_some.1 hm
    refine entryOf_eq_some.2 ⟨hvalid, hg.node hnode, ?_⟩
    rw [← hvisible, Store.committedSnapshot, Store.committedSnapshot, isFile_congr]
    exact (hg.same Removes.not_journal).symm

/-- **When paging through messages survives deletions**, in a mailbox and in a conversation. -/
theorem message_paging_iff (M : Mail.Store) (m : String) (m₀ m' : Mail.MailDisk)
    (mails : List (Mail.MailDisk × Reader Mail.StoredMessage String))
    (reader : Reader Mail.StoredMessage String) (S : Store) (peer : String) (d₀ d : SmsDisk)
    (asked : List (SmsDisk × Reader SmsMessage String)) (r : Reader SmsMessage String) :
    (Mail.KeepsNames M m m₀ → Client (Mail.Deletes M m) (Mail.Shows M m) m₀ mails m' reader →
      ((reader.returned.Nodup ∧
          (reader.finished = true → ∀ a ∈ Mail.found M m m', a ∈ reader.returned) ∧
          mails.length ≤ (Mail.found M m m₀).length + 1) ↔
        ∀ x ∈ mails, Kept Mail.sortKey (Mail.found M m x.1) x.2)) ∧
      (S.Reached d₀ → Client (Deletes S peer) (Shows S peer) d₀ asked d r →
        ((r.returned.Nodup ∧ (r.finished = true → ∀ a ∈ found S peer d, a ∈ r.returned) ∧
            asked.length ≤ (found S peer d₀).length + 1) ↔
          ∀ x ∈ asked, Kept sortKey (found S peer x.1) x.2)) := by
  refine ⟨fun hnames h ↦ Mail.mail_paging_iff hnames h, fun hd h ↦ ?_⟩
  have hordered := hd.ordered
  exact client_iff (I := Ordered S) hordered (fun _ _ hs ht ↦ found_of_deletes hs ht)
    (fun _ hs ↦ hs.pairwise) (fun _ _ _ _ _ hp ↦ page_of_shows hp)
    (fun _ ha _ hb heq ↦ hordered.eq_of_mem ha hb heq) h

/-! ### Clients -/

/-- A message that is deleted before the next page is asked for, and not the last one that was shown:
every other message is shown once. And the one message of the sample store is shown. -/
theorem shown_once :
    ((Mail.twoPages "a").returned.Nodup ∧
      (Mail.twoPages "a").returned.map Mail.StoredMessage.messageId = ["a", "b", "c"]) ∧
    ∃ p, Shows sampleStore "+15550100" sampleDisk none 1 p ∧ p.1.Nodup ∧ p.1.length = 1 := by
  refine ⟨⟨?_, by decide⟩, ?_⟩
  · obtain ⟨asked, hclient, rfl⟩ := Mail.client_twoPages "a" (by decide)
    have hmail := (message_paging_iff Mail.sampleStore "alice" _ _ _ _ sampleStore "+15550100"
      sampleDisk sampleDisk [] {}).1 Mail.oldMailbox_keepsNames hclient
    refine (hmail.2 ?_).1
    intro x hx last hlast
    rcases List.mem_cons.1 hx with rfl | hx
    · cases hlast
    · rw [List.mem_singleton.1 hx] at hlast ⊢
      -- the last message of the first page is the one that is left with its identity
      refine .inl ?_
      change last ∈ (Mail.answer Mail.sampleStore "alice" Mail.oldMailbox none 2).1.getLast? at hlast
      have hlastId : ((Mail.answer Mail.sampleStore "alice" Mail.oldMailbox none 2).1.getLast?).map
          Mail.StoredMessage.messageId = some "b" := by decide
      have hleft : "b" ∈ (Mail.found Mail.sampleStore "alice" (Mail.oldWithout "a")).map
          Mail.StoredMessage.messageId := by decide
      obtain ⟨b, hb, hbId⟩ := List.mem_map.1 hleft
      rw [show _ = some last from hlast] at hlastId
      have hlastFound := Mail.returned_subset_found Mail.oldMailbox_keepsNames hclient
        (List.mem_append_left _ (List.mem_of_getLast? hlast))
      obtain ⟨evs, hx⟩ := (Mail.sampleStore.deleteMessage "alice" "a").exec_run [] Mail.oldMailbox
      have hbFound := (Mail.found_of_deletes Mail.oldMailbox_keepsNames ⟨"a", evs, _, hx⟩).2 hb
      rw [Mail.oldMailbox_keepsNames.eq_of_mem hlastFound hbFound
        ((Option.some.inj hlastId).trans hbId.symm)]
      exact hb
  · cases hlist : sampleStore.listMessages "+15550100" ⟨none, some 1⟩ sampleDisk with
    | error e =>
      have hok : (sampleStore.listMessages "+15550100" ⟨none, some 1⟩ sampleDisk).isOk = true := by
        decide
      rw [hlist] at hok
      cases hok
    | ok result =>
      have hshows : Shows sampleStore "+15550100" sampleDisk none 1
          (result.messages, result.nextMarker) := hlist
      refine ⟨_, hshows, ?_, ?_⟩
      · have hclient := Client.asked (Client.start : Client (Deletes sampleStore "+15550100")
          (Shows sampleStore "+15550100") sampleDisk _ _ _) (by decide : 1 ≤ 1) rfl hshows
        have hsms := (message_paging_iff Mail.sampleStore "alice" Mail.oldMailbox Mail.oldMailbox
          [] {} _ _ _ _ _ _).2 sampleDisk_reached hclient
        refine (hsms.2 ?_).1
        intro x hx last hlast
        rw [List.mem_singleton.1 hx] at hlast
        cases hlast
      · have hlength : ((sampleStore.listMessages "+15550100" ⟨none, some 1⟩
            sampleDisk).toOption.map fun result ↦ result.messages.length) = some 1 := by
          decide
        rw [hlist] at hlength
        exact Option.some.inj hlength

/-- The last message of the first page is deleted: the second page begins from the front again. -/
theorem shown_again : ∃ asked,
    Client (Mail.Deletes Mail.sampleStore "alice") (Mail.Shows Mail.sampleStore "alice")
      Mail.oldMailbox asked (Mail.oldWithout "b") (Mail.twoPages "b") ∧
    (Mail.twoPages "b").returned.map Mail.StoredMessage.messageId = ["a", "b", "a", "c"] ∧
    ¬ (Mail.twoPages "b").returned.Nodup := by
  obtain ⟨asked, hclient, -⟩ := Mail.client_twoPages "b" (by decide)
  have hids : (Mail.twoPages "b").returned.map Mail.StoredMessage.messageId =
      ["a", "b", "a", "c"] := by decide
  refine ⟨asked, hclient, hids, fun hnodup ↦ ?_⟩
  have hsub := Mail.returned_subset_found Mail.oldMailbox_keepsNames hclient
  have hnodupIds := hnodup.map_on fun a ha b hb heq ↦
    Mail.oldMailbox_keepsNames.eq_of_mem (hsub ha) (hsub hb) heq
  rw [hids] at hnodupIds
  exact absurd hnodupIds (by decide)

end Sqrzl.Sms
