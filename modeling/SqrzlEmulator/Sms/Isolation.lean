import SqrzlEmulator.Sms.Reached

/-!
# A deleted message, and the others

What a deletion of one text message means for all others. **Every other message keeps its content,
its media, its callback attempts and its entry, exactly if the identity that was given is not a
single dot** (`deletion_iff`): a single dot is a valid identity, and names the directory of all media
(`dot_deletes_all_media`). A deletion that succeeds leaves nothing of its own message. And the
deletion of a conversation removes the messages whose peer it is, and no others.

A deletion may also fail or be stopped anywhere, so nothing of this depends on how it ends.
-/

namespace Sqrzl.Sms

open Capture Results

variable {S : Store} {d t : SmsDisk} {peer i j : String}

/-! ### The other messages -/

/-- A message is as it was. -/
structure Keeps (S : Store) (d t : SmsDisk) (j : String) : Prop where
  message : S.getMessage j t = S.getMessage j d
  media : ∀ k, S.readMedia j k t = S.readMedia j k d
  callbacks : S.listCallbacks j t = S.listCallbacks j d
  entry : ∀ peer, t[S.entryFile peer j]? = d[S.entryFile peer j]?
  sidecar : ∀ m, S.getMessage j d = .ok m → t[S.sidecarFile m.peer]? = d[S.sidecarFile m.peer]?

/-- Nothing of a message is found. -/
structure Deleted (S : Store) (t : SmsDisk) (i : String) : Prop where
  message : S.getMessage i t = .error .messageNotFound
  media : ∀ k, S.readMedia i k t = .error .messageNotFound
  callbacks : S.listCallbacks i t = .ok []

theorem readMessagePath_congr {p : DiskPath} (h : t[p]? = d[p]?) :
    Store.readMessagePath p t = Store.readMessagePath p d := by
  rw [Store.readMessagePath, Store.readMessagePath, h]

theorem visible_congr (h : ∀ rest, t[S.root ++ transactionsName :: rest]? =
    d[S.root ++ transactionsName :: rest]?) (m : SmsMessage) : S.visible m t = S.visible m d := by
  have hmarker : t[markerPath S.root m.transactionId]? = d[markerPath S.root m.transactionId]? := h _
  rw [Store.visible, Store.visible, isCommitted, isCommitted, isFile_congr hmarker]

/-- What is found of a message depends on its file and on the journal. -/
theorem getMessage_congr (hfile : t[S.messageFile i]? = d[S.messageFile i]?)
    (hjournal : ∀ rest, t[S.root ++ transactionsName :: rest]? =
      d[S.root ++ transactionsName :: rest]?) : S.getMessage i t = S.getMessage i d := by
  rw [Store.getMessage, Store.getMessage, messagePath_eq]
  cases validateId i with
  | error e => rfl
  | ok u =>
    show (Store.readMessagePath (S.messageFile i) t >>= _) =
      (Store.readMessagePath (S.messageFile i) d >>= _)
    rw [readMessagePath_congr hfile]
    simp only [visible_congr hjournal]

theorem getMessage_eq_ok_iff {m : SmsMessage} : S.getMessage i d = .ok m ↔ validateId i = .ok () ∧
    d[S.messageFile i]? = some (messageNode m) ∧ S.visible m d = true := by
  rw [Store.getMessage, messagePath_eq, bind_eq_ok_iff]
  simp only [map_eq_ok_iff, bind_eq_ok_iff]
  constructor
  · rintro ⟨path, ⟨⟨⟩, hvalid, rfl⟩, m', hread, h⟩
    rw [Store.readMessagePath] at hread
    split_ifs at h with hvisible
    obtain rfl := Except.ok.inj h
    split at hread
    · cases hread
    · next hnode =>
      cases hread
      exact ⟨hvalid, hnode, hvisible⟩
    · cases hread
  · rintro ⟨hvalid, hnode, hvisible⟩
    refine ⟨_, ⟨(), hvalid, rfl⟩, m, ?_, if_pos hvisible⟩
    rw [Store.readMessagePath, hnode]

theorem readMedia_congr {k : String} (hmessage : S.getMessage j t = S.getMessage j d)
    (hpath : ∀ path, S.mediaPath j k = .ok path → t[path]? = d[path]?) :
    S.readMedia j k t = S.readMedia j k d := by
  cases hp : S.mediaPath j k with
  | error e => simp only [Store.readMedia, hmessage, hp]; rfl
  | ok path => simp only [Store.readMedia, hmessage, hp, bind, Except.bind, hpath path hp]

section Others

variable (hd : Ordered S d) (hg : Gone S d peer i t) (hne : j ≠ i)

include hg hne

theorem Gone.getMessage : S.getMessage j t = S.getMessage j d := by
  refine getMessage_congr (hg.same fun hr ↦ hne ?_) fun rest ↦ hg.same Removes.not_journal
  have hname : j ++ ".json" = i ++ ".json" := Removes.of_messages hr
  exact (String.append_left_inj _).1 hname

include hd

/-- The media of another message are in a directory of their own. -/
theorem Gone.readMedia (hdot : i ≠ ".") (k : String) : S.readMedia j k t = S.readMedia j k d := by
  cases hm : S.getMessage j d with
  | error e => rw [Store.readMedia, Store.readMedia, hg.getMessage hne, hm]; rfl
  | ok m =>
    have hj := (hd.message_of_file (getMessage_eq_ok_iff.1 hm).2.1).choose_spec.2.2
    refine readMedia_congr (hg.getMessage hne) fun path hpath ↦ hg.same fun hr ↦ ?_
    rw [Store.mediaPath, Store.mediaDir, if_neg hj.2, Store.mediaRoot] at hpath
    obtain ⟨-, -, hpath⟩ := bind_eq_ok_iff.1 hpath
    obtain ⟨-, -, hpath⟩ := bind_eq_ok_iff.1 hpath
    have hbelow : S.root ++ ["media", j] <+: path := by
      rw [← Except.ok.inj hpath, show S.root ++ ["media"] ++ [j] = S.root ++ ["media", j] by simp]
      split_ifs
      · exact List.prefix_refl _
      · exact List.prefix_append _ _
    obtain ⟨rest, rfl⟩ := hbelow
    rw [List.append_assoc] at hr
    rcases removes_iff.1 hr with h | h | ⟨h, -⟩ | ⟨a, h, -⟩ | ⟨-, h | h⟩
    · simp [Store.messageFile] at h
    · simp [Store.entryFile] at h
    · rw [Store.mediaDir, if_neg hdot, Store.mediaRoot, List.append_assoc,
        List.prefix_append_right_inj] at h
      have hij : i = j := by simpa using h
      exact hne hij.symm
    · simp [Store.callbackFile] at h
    · simp [Store.conversation] at h
    · simp [Store.sidecarFile] at h

omit hd in
theorem Gone.attemptOf (name : String) : attemptOf S t j name = attemptOf S d j name := by
  rw [Sms.attemptOf, Sms.attemptOf]
  rcases hg.within (S.root ++ ["callbacks", name]) with heq | ⟨hnone, hr⟩
  · rw [heq]
  · obtain ⟨a, rfl, hnode, rfl⟩ := Removes.of_callbacks hr
    rw [Store.callbackFile] at hnode
    rw [hnone, hnode]
    exact (if_neg hne.symm).symm

theorem Gone.listCallbacks : S.listCallbacks j t = S.listCallbacks j d := by
  rw [hd.listCallbacks_eq, (hg.ordered hd).listCallbacks_eq, funext (hg.attemptOf hne),
    @Disk.filterMap_entries_congr _ t d]
  intro name hname
  rw [Disk.mem_entries, Disk.mem_entries, Store.callbackRoot, List.append_assoc]
  show (t[S.root ++ ["callbacks", name]]?).isSome = true ↔
    (d[S.root ++ ["callbacks", name]]?).isSome = true
  rcases hg.within (S.root ++ ["callbacks", name]) with heq | ⟨hnone, -⟩
  · rw [heq]
  · rw [← hg.attemptOf hne, Sms.attemptOf, hnone] at hname
    cases hname

omit hd in
theorem Gone.entryFile (p : String) : t[S.entryFile p j]? = d[S.entryFile p j]? := by
  rcases hg.within (S.entryFile p j) with heq | ⟨hnone, hr⟩
  · exact heq
  · obtain ⟨hp, hname | hends⟩ := Removes.of_entry hr
    · exact absurd ((String.append_left_inj _).1 hname) hne
    · obtain rfl := S.digest_injective hp
      rw [hnone]
      by_contra hsome
      exact hne (hends j (Option.isSome_iff_ne_none.2 fun h ↦ hsome h.symm))

theorem Gone.sidecarFile {m : SmsMessage} (hm : S.getMessage j d = .ok m) :
    t[S.sidecarFile m.peer]? = d[S.sidecarFile m.peer]? := by
  refine hg.same fun hr ↦ ?_
  obtain ⟨hends, hname | hname⟩ := Removes.of_conversations hr
  · exact digest_ne_sidecar hname.symm
  · obtain rfl := S.digest_injective ((String.append_left_inj _).1 hname)
    exact hne (hends j (hd.indexed j m (getMessage_eq_ok_iff.1 hm).2.1))

theorem Gone.keeps (hdot : i ≠ ".") : Keeps S d t j where
  message := hg.getMessage hne
  media := hg.readMedia hd hne hdot
  callbacks := hg.listCallbacks hd hne
  entry := hg.entryFile hne
  sidecar _ hm := hg.sidecarFile hd hne hm

end Others

/-- **A deletion by another name than a single dot** keeps the others. -/
theorem deletion_keeps (hd : S.Reached d) (hdot : i ≠ ".") {evs : List Empty}
    {r : Option (Except Error Unit)} (hx : (S.deleteMessage peer i).Exec d evs t r) (hne : j ≠ i) :
    Keeps S d t j := by
  rcases (hx.of_wp (wp_deleteMessageLocked hd.ordered)).1 with rfl | hgone
  · exact ⟨rfl, fun _ ↦ rfl, rfl, fun _ ↦ rfl, fun _ _ ↦ rfl⟩
  · exact hgone.keeps hd.ordered hne hdot

/-- Nothing is found of a message whose deletion succeeded. -/
theorem Ends.deleted (hd : Ordered S d) (h : Ends S d peer i (.ok ()) t) : Deleted S t i := by
  obtain ⟨hg, ⟨hvalid, -⟩, hleft⟩ := h
  have hmessage : S.getMessage i t = .error .messageNotFound := by
    rw [Store.getMessage, messagePath_eq, hvalid]
    show (Store.readMessagePath (S.messageFile i) t >>= _) = _
    rw [Store.readMessagePath, hg.message]
    rfl
  refine ⟨hmessage, fun k ↦ ?_, ?_⟩
  · rw [Store.readMedia, hmessage]
    rfl
  · have hordered := hg.ordered hd
    have hl := hordered.listCallbacks_eq i
    rw [hl]
    refine congrArg _ (List.eq_nil_iff_forall_not_mem.2 fun a ha ↦ ?_)
    obtain ⟨hnode, hi⟩ := (hordered.mem_listCallbacks hl).1 ha
    exact hleft _ a hnode hi

/-- **The deletion of a conversation** removes the messages with its peer, and no others. -/
theorem conversation_exact (hd : S.Reached d) {evs : List Empty} {r : Option (Except Error Unit)}
    (hx : (S.deleteConversation peer).Exec d evs t r) :
    (∀ j m, S.getMessage j t = .ok m → S.getMessage j d = .ok m) ∧
      (∀ j m, S.getMessage j d = .ok m → m.peer ≠ peer → S.getMessage j t = .ok m) ∧
      (r = some (.ok ()) → ∀ j m, S.getMessage j t = .ok m → m.peer ≠ peer) ∧
      ∀ e, r = some (.error e) → e = ioError ∨ S.peerHash peer = .error e := by
  obtain ⟨hemptied, hends⟩ := hx.of_wp (wp_deleteConversation hd.ordered)
  have hvisible := visible_congr hemptied.journal
  refine ⟨fun j m hm ↦ ?_, fun j m hm hne ↦ ?_, fun hr j m hm ↦ ?_, fun e hr ↦ (hends _ hr).2⟩
  · obtain ⟨hvalid, hnode, hv⟩ := getMessage_eq_ok_iff.1 hm
    exact getMessage_eq_ok_iff.2 ⟨hvalid, hemptied.messages j _ hnode, hvisible m ▸ hv⟩
  · obtain ⟨hvalid, hnode, hv⟩ := getMessage_eq_ok_iff.1 hm
    exact getMessage_eq_ok_iff.2 ⟨hvalid, hemptied.others j m hnode hne, (hvisible m).trans hv⟩
  · exact (hends _ hr).2 j m (getMessage_eq_ok_iff.1 hm).2.1

/-! ### A single dot -/

/-- A digest without dots: the one of the number below, and an escaped text for every other. -/
def sampleDigest (s : String) : String :=
  if s = "+15550100" then "602cd7fbbe41688e2d90224bcac362db2f1ff2e2ba7487d8585c9ce226cb6d00"
  else "#" ++ String.ofList (s.toList.flatMap fun c ↦
    if c = '.' then ['#', 'd'] else if c = '#' then ['#', 'h'] else [c])

/-- What was escaped. -/
def unescape : List Char → List Char
  | '#' :: 'd' :: rest => '.' :: unescape rest
  | '#' :: 'h' :: rest => '#' :: unescape rest
  | c :: rest => c :: unescape rest
  | [] => []

theorem unescape_flatMap (l : List Char) : unescape (l.flatMap fun c ↦
    if c = '.' then ['#', 'd'] else if c = '#' then ['#', 'h'] else [c]) = l := by
  induction l with
  | nil => rfl
  | cons c l ih =>
    rw [List.flatMap_cons]
    split_ifs with hdot hhash
    · rw [hdot, ← ih]
      simp [unescape, ih]
    · rw [hhash]
      simp [unescape, ih]
    · rw [List.singleton_append, unescape, ih]
      · rintro rest rfl
        exact absurd rfl hhash
      · rintro rest rfl
        exact absurd rfl hhash

theorem sampleDigest_injective : Function.Injective sampleDigest := by
  have hhead : ∀ {a b : String}, "#" ++ a = b → b.toList.head? = some '#' := by
    rintro a b rfl
    rw [String.toList_append]
    rfl
  intro a b h
  unfold sampleDigest at h
  split_ifs at h with ha hb hb
  · rw [ha, hb]
  · exact absurd (hhead h.symm) (by decide)
  · exact absurd (hhead h) (by decide)
  · have hlists := congrArg unescape (String.ofList_injective ((String.append_right_inj _).1 h))
    rw [unescape_flatMap, unescape_flatMap] at hlists
    exact String.toList_injective hlists

theorem sampleDigest_plain (x : String) : '.' ∉ (sampleDigest x).toList := by
  unfold sampleDigest
  split_ifs
  · decide
  · rw [String.toList_append]
    intro h
    rcases List.mem_append.1 h with h | h
    · exact absurd h (by decide)
    · rw [String.toList_ofList] at h
      obtain ⟨c, -, h⟩ := List.mem_flatMap.1 h
      split_ifs at h with hdot
      · exact absurd h (by decide)
      · exact absurd h (by decide)
      · exact hdot (List.mem_singleton.1 h).symm

/-- A store for the examples. -/
def sampleStore : Store where
  digest := sampleDigest
  isUuid x := x = "6f9619ff-8b86-4d01-b42d-00c04fc964ff"
  digest_injective := sampleDigest_injective
  isUuid_plain x hx := by
    rw [decide_eq_true_eq] at hx
    rw [hx]
    decide
  root := ["_sms"]
  digest_plain := sampleDigest_plain

/-- A message with a picture. -/
def sampleNew : NewSmsMessage where
  batchId := none
  provider := .twilio
  providerMessageId := none
  direction := .inbound
  channel := .mms
  «from» := "+15550100"
  «to» := "+15550200"
  body := "look"
  media := [⟨"cat.png", "image/png", some [137, 80], none⟩]
  metadata := ∅

/-- The identities that its first capture draws. -/
def sampleGenerated : Store.Generated where
  messageId := "txt-6f9619ff-8b86-4d01-b42d-00c04fc964ff"
  providerMessageId := "SM6f9619ff8b864d01b42d00c04fc964ff"
  mediaIds := ["media-6f9619ff-8b86-4d01-b42d-00c04fc964ff"]
  now := 1000

/-- The store after its capture. -/
def sampleDisk : SmsDisk :=
  (sampleStore.captureMessages [(sampleNew, sampleGenerated)] []
    "6f9619ff-8b86-4d01-b42d-00c04fc964ff" sampleStore.opened).2

theorem sampleDisk_reached : sampleStore.Reached sampleDisk := by
  refine .captured .opened _ _ (by decide) fun m hm ↦ ?_
  rw [List.mem_singleton.1 hm]
  have huuid : sampleStore.isUuid "6f9619ff-8b86-4d01-b42d-00c04fc964ff" = true := by decide
  refine ⟨⟨_, huuid, rfl⟩, fun k hk ↦ ⟨_, huuid, ?_⟩, rfl, fun peer ↦ ?_⟩
  · rw [List.mem_singleton.1 hk]
    rfl
  exact ⟨getElem?_opened (List.cons_ne_nil _ _), getElem?_opened (List.cons_ne_nil _ _)⟩

/-- The bytes of the picture. -/
def samplePicture (d : SmsDisk) : Option Bytes :=
  ((sampleStore.readMedia "txt-6f9619ff-8b86-4d01-b42d-00c04fc964ff"
    "media-6f9619ff-8b86-4d01-b42d-00c04fc964ff" d).toOption).map Prod.snd

/-- The deletion. The last choice says in which order the entries are removed. -/
def sampleDeletion : Option (Except Error Unit) × SmsDisk :=
  (sampleStore.deleteMessage "+15550100" ".").run [0, 0, 0, 1] sampleDisk

theorem samplePicture_lost : samplePicture sampleDisk = some [137, 80] ∧
    sampleDeletion.1 = some (.error ioError) ∧ samplePicture sampleDeletion.2 = none := by
  decide

/-- **When a deletion keeps to its message**, and that the deletion of a conversation does. -/
theorem deletion_iff (hi : validateId i = .ok ()) :
    ((∀ (S : Store) (d t : SmsDisk) (peer : String) (evs : List Empty)
        (r : Option (Except Error Unit)), S.Reached d → (S.deleteMessage peer i).Exec d evs t r →
          (∀ j, j ≠ i → Keeps S d t j) ∧ (r = some (.ok ()) → Deleted S t i)) ↔ i ≠ ".") ∧
      ∀ (S : Store) (d t : SmsDisk) (peer : String) (evs : List Empty)
        (r : Option (Except Error Unit)), S.Reached d →
          (S.deleteConversation peer).Exec d evs t r →
          (∀ j m, S.getMessage j t = .ok m → S.getMessage j d = .ok m) ∧
          (∀ j m, S.getMessage j d = .ok m → m.peer ≠ peer → S.getMessage j t = .ok m) ∧
          (r = some (.ok ()) → ∀ j m, S.getMessage j t = .ok m → m.peer ≠ peer) ∧
          ∀ e, r = some (.error e) → e = ioError ∨ S.peerHash peer = .error e := by
  refine ⟨⟨?_, fun hdot S d t peer evs r hd hx ↦ ⟨fun j hne ↦ deletion_keeps hd hdot hx hne, ?_⟩⟩,
    fun S d t peer evs r hd hx ↦ conversation_exact hd hx⟩
  · rintro h rfl
    obtain ⟨evs, hx⟩ := (sampleStore.deleteMessage "+15550100" ".").exec_run [0, 0, 0, 1] sampleDisk
    have hkeeps := (h _ _ _ _ _ _ sampleDisk_reached hx).1 "txt-6f9619ff-8b86-4d01-b42d-00c04fc964ff"
      (by decide)
    obtain ⟨hbefore, -, hafter⟩ := samplePicture_lost
    rw [samplePicture, sampleDeletion, hkeeps.media] at hafter
    rw [samplePicture, hafter] at hbefore
    cases hbefore
  · rintro rfl
    exact ((hx.of_wp (wp_deleteMessageLocked hd.ordered)).2 _ rfl).2.deleted hd.ordered

/-- A deletion of the message itself leaves nothing of it. -/
theorem sample_deleted : Deleted sampleStore
    ((sampleStore.deleteMessage "+15550100" "txt-6f9619ff-8b86-4d01-b42d-00c04fc964ff").run []
      sampleDisk).2 "txt-6f9619ff-8b86-4d01-b42d-00c04fc964ff" := by
  obtain ⟨evs, hx⟩ := (sampleStore.deleteMessage "+15550100"
    "txt-6f9619ff-8b86-4d01-b42d-00c04fc964ff").exec_run [] sampleDisk
  have hiff := (deletion_iff (i := "txt-6f9619ff-8b86-4d01-b42d-00c04fc964ff") (by decide)).1
  exact (hiff.2 (by decide) _ _ _ _ _ _ sampleDisk_reached hx).2 (by decide)

/-- A single dot is a valid identity, and its deletion fails. It has removed the media of all
messages by then. -/
theorem dot_deletes_all_media : validateId "." = .ok () ∧ sampleStore.Reached sampleDisk ∧
    samplePicture sampleDisk = some [137, 80] ∧ sampleDeletion.1 = some (.error ioError) ∧
    samplePicture sampleDeletion.2 = none :=
  ⟨by decide, sampleDisk_reached, samplePicture_lost⟩

end Sqrzl.Sms
