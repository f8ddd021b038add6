import SqrzlEmulator.Mail.Model

/-!
# The mail store on the file system

`mail/filesystem.rs`. A mailbox is a directory under the root. Its name is the hashed address, or
the address itself when there is a directory of that name, as old builds have made them. The
directories of the journal and of the records stand beside those of the mailboxes.

Reading operations are functions of a disk. Operations that change it are programs of single file
system calls, each of which can fail, and each of them holds `capture_lock`, so they run one after
the other. The identity of a transaction and the readings of the clock are arguments.
-/

namespace Sqrzl.Mail

open Capture

/-- The file tree of a mail store. -/
abbrev MailDisk : Type := Disk (Content (Document StoredMessage))

/-- Programs of a mail store. -/
abbrev MailJob (α : Type) : Type := Job (Document StoredMessage) α

/-- `FilesystemMailStore`, with the lengths of JSON texts. -/
structure Store extends Externals where
  root : DiskPath
  messageBytes : Message → ℕ
  recordBytes : RepeatabilityRecord → ℕ

/-- `MAILBOX_METADATA` -/
def mailboxMetadata : String := ".mailbox"

/-- `validate_segment` -/
def validateSegment (value : String) : Except Error Unit :=
  if value.isEmpty || '/' ∈ value.toList || '\\' ∈ value.toList || ['.', '.'] <:+: value.toList then
    .error (.invalidRequest ("invalid mail path segment: " ++ value))
  else .ok ()

/-- `path.extension() == Some("json")` -/
def isJson (name : String) : Bool := ".json".toList <:+ name.toList && 5 < name.toList.length

namespace Store

variable (S : Store)

/-! ### Paths -/

/-- `mailbox_storage_key` -/
def storageKey (mailbox : String) : String := "mbx-" ++ S.digest mailbox

/-- `root.join(mailbox)` for a valid segment. A single dot names the root itself. -/
def legacyDir (mailbox : String) : DiskPath := if mailbox = "." then S.root else S.root ++ [mailbox]

/-- `mailbox_dir` -/
def mailboxDir (mailbox : String) (d : MailDisk) : Except Error DiskPath :=
  if mailbox.isEmpty then .error (.invalidRequest "mailbox address must not be empty")
  else if (validateSegment mailbox).isOk && d.isDir (S.legacyDir mailbox) then
    .ok (S.legacyDir mailbox)
  else .ok (S.root ++ [S.storageKey mailbox])

/-- `message_path` and `raw_message_path`, with their suffixes. -/
def messagePath (mailbox messageId suffix : String) (d : MailDisk) : Except Error DiskPath := do
  validateSegment messageId
  let dir ← S.mailboxDir mailbox d
  return dir ++ [messageId ++ suffix]

/-! ### Reading -/

/-- The document of a message. -/
def readStored (path : DiskPath) (d : MailDisk) : Except Error StoredMessage :=
  match d[path]? with
  | none => .error .messageNotFound
  | some (.file (.data (.message stored))) => .ok stored
  | some _ => .error ioError

/-- The messages are listed by their times, and then by their identities. -/
def Listed (a b : StoredMessage) : Prop :=
  a.receivedAt < b.receivedAt ∨ a.receivedAt = b.receivedAt ∧ a.messageId ≤ b.messageId

instance : DecidableRel Listed := fun a b ↦
  inferInstanceAs (Decidable
    (a.receivedAt < b.receivedAt ∨ a.receivedAt = b.receivedAt ∧ a.messageId ≤ b.messageId))

/-- What an entry of a mailbox directory adds to its listing. -/
def listEntry (committed : String → Bool) (dir : DiskPath) (d : MailDisk) (name : String) :
    Except Error (Option StoredMessage) :=
  if isJson name then
    match readStored (dir ++ [name]) d with
    | .ok stored =>
      .ok (if stored.transactionId.isEmpty || committed stored.transactionId then some stored
        else none)
    | .error .messageNotFound => .ok none
    | .error e => .error e
  else .ok none

/-- The page after a marker, of at most `limit` messages. -/
def page (params : ListMessagesParams) (messages : List StoredMessage) : ListMessagesResult :=
  let start := match params.marker with
    | some marker => ((messages.findIdx? (·.messageId == marker)).map (· + 1)).getD 0
    | none => 0
  let rest := messages.drop start
  match params.limit with
  | some limit =>
    if limit < rest.length then
      ⟨rest.take limit, ((rest.take limit).getLast?).map StoredMessage.messageId⟩
    else ⟨rest, none⟩
  | none => ⟨rest, none⟩

/-- `list_messages_snapshot` -/
def listMessagesSnapshot (mailbox : String) (params : ListMessagesParams)
    (committed : String → Bool) (d : MailDisk) : Except Error ListMessagesResult := do
  let dir ← S.mailboxDir mailbox d
  if d.isDir dir then
    let messages ← (d.entries dir).mapM (listEntry committed dir d)
    return page params (messages.reduceOption.insertionSort Listed)
  else return {}

/-- `committed_snapshot` -/
def committedSnapshot (d : MailDisk) (id : String) : Bool := d.isFile (markerPath S.root id)

/-- `list_messages` -/
def listMessages (mailbox : String) (params : ListMessagesParams) (d : MailDisk) :
    Except Error ListMessagesResult :=
  S.listMessagesSnapshot mailbox params (S.committedSnapshot d) d

/-! ### Writing -/

/-- What a function of the disk returns at one moment. -/
def ask {α : Type} (f : MailDisk → Except Error α) : MailJob α := do
  Prog.ofExcept (← Prog.read f)

/-- The temporary beside a file. -/
def tmpPath (path : DiskPath) : DiskPath := path.dropLast ++ [path.getLast?.getD "" ++ ".tmp"]

/-- `write_atomic` -/
def writeAtomic (path : DiskPath) (content : Document StoredMessage) : MailJob Unit := do
  Disk.createDirAll ioError path.dropLast
  Disk.call ioError (Disk.put (tmpPath path) .torn)
  Disk.call ioError (Disk.put (tmpPath path) (.data content))
  Disk.call ioError (Disk.rename (tmpPath path) path)

/-- `ensure_mailbox_dir`: the directory of a mailbox and its sidecar. -/
def ensureMailboxDir (mailbox : String) : MailJob Unit := do
  let dir ← ask (S.mailboxDir mailbox)
  Disk.createDirAll ioError dir
  Disk.fault ioError
  match ← Prog.read fun d : MailDisk ↦ d[dir ++ [mailboxMetadata]]? with
  | none => writeAtomic (dir ++ [mailboxMetadata]) (.text mailbox)
  | some (.file (.data (.text stored))) =>
    if stored = mailbox then return ()
    else Prog.fail (.internalError "mailbox storage key collision")
  | some _ => Prog.fail ioError

/-- The copy of a message for one mailbox. -/
def copyFor (mailbox messageId : String) (message : Message) (id : String) (now : Time) :
    StoredMessage where
  messageId := messageId
  mailbox := mailbox
  message := { message with
    providerMetadata := message.providerMetadata.set transactionMetadata (some (.string id)) }
  deliveryStatus := .accept now
  receivedAt := now

/-- The copy of a message for one mailbox, with its files. -/
def prepareCopy (mailbox messageId : String) (message : Message) (id : String) (now : Time) :
    MailJob (StoredMessage × List (DiskPath × Document StoredMessage)) := do
  S.ensureMailboxDir mailbox
  let path ← ask (S.messagePath mailbox messageId ".json")
  let stored := copyFor mailbox messageId message id now
  match message.rawMime with
  | some raw =>
    let rawPath ← ask (S.messagePath mailbox messageId ".raw")
    return (stored, [(path, .message stored), (rawPath, .bytes raw)])
  | none => return (stored, [(path, .message stored)])

/-- `check_messages` of `budget.rs`. -/
def checkMessages (messages : List Message) (records : List RepeatabilityRecord) :
    Except Error Unit := do
  let budget ← messages.foldlM (fun budget message ↦
    addMessage budget (S.messageBytes message) message) 0
  let _ ← addRecords budget (records.map S.recordBytes)
  return ()

/-- The copies of one message, and their files. -/
def prepareMessage (messageId : String) (message : Message) (id : String)
    (clock : String → String → Time) :
    MailJob (List StoredMessage × List (DiskPath × Document StoredMessage)) := do
  if message.targets.isEmpty then Prog.fail (.invalidRequest "message has no recipients")
  else
    Prog.foldEach (allMailbox :: message.targets) ([], []) fun acc mailbox ↦ do
      let copy ← S.prepareCopy mailbox messageId message id (clock messageId mailbox)
      return (if mailbox ≠ allMailbox then acc.1 ++ [copy.1] else acc.1, acc.2 ++ copy.2)

/-- `capture_batch`, with the identity of its transaction and the readings of the clock. -/
def captureBatch (messages : List (String × Message)) (records : List RepeatabilityRecord)
    (id : String) (clock : String → String → Time) : MailJob (List (List StoredMessage)) := do
  Prog.ofExcept (S.checkMessages (messages.map Prod.snd) records)
  let prepared ← Prog.foldEach messages ([], []) fun acc message ↦ do
    let copies ← S.prepareMessage message.1 message.2 id clock
    return (acc.1 ++ [copies.1], acc.2 ++ copies.2)
  commit .answered S.root id (prepared.2 ++
    records.map fun record ↦ recordFile S.toExternals S.root { record with transactionId := id })
  return prepared.1

/-- `delete_message` -/
def deleteMessage (mailbox messageId : String) : MailJob Unit := do
  let path ← ask (S.messagePath mailbox messageId ".json")
  let rawPath ← ask (S.messagePath mailbox messageId ".raw")
  Disk.call ioError (Disk.unlink path)
  Disk.call ioError (Disk.unlink rawPath)

end Store

/-! ### Asking -/

/-- What a program does that begins with a question. -/
theorem exec_ask_bind {α β : Type} {g : MailDisk → Except Error α} {k : α → MailJob β}
    {s t : MailDisk} {evs : List Empty} {r : Option (Except Error β)} (hx : (Store.ask g >>= k).Exec s evs t r) :
    t = s ∨ ∃ a evs', g s = .ok a ∧ (k a).Exec s evs' t r := by
  have hask : Prog.wp (· = s) (Store.ask g : MailJob α) (fun r t ↦ t = s ∧ r = g s) s := by
    rw [Store.ask, Prog.bind_eq, Prog.wp_bind, Prog.wp_read]
    exact ⟨rfl, Prog.wp_ofExcept.2 ⟨rfl, rfl, rfl⟩⟩
  obtain ⟨hx, -⟩ | ⟨e, hx, -⟩ | ⟨a, u, evs₁, evs₂, hx, hk, -⟩ := hx.of_bind
  · exact .inl (hx.of_wp hask).1
  · exact .inl (hx.of_wp hask).1
  · obtain ⟨rfl, ha⟩ := (hx.of_wp hask).2 _ rfl
    exact .inr ⟨a, evs₂, ha.symm, hk⟩

/-! ### A store with three mailboxes -/

/-- The digests of the names below, and something else for every other text. -/
def sampleDigest (s : String) : String :=
  if s = "alice" then "2bd806c97f0e00af1a1fc3328fa763a9269723c8db8fac4f93af71db186d6e90"
  else if s = "_all" then "497cfcd551611219483b93f17c046ecb778901a72bfa7d64fd31ec217708526d"
  else if s = ".bob" then "b859bcf1f8afc67f49e9742463c2ba156e6bfe62dbe1d11fb60eb840ae6479f2"
  else "#" ++ s

theorem sampleDigest_injective : Function.Injective sampleDigest := by
  have hother : ∀ {a b : String}, "#" ++ a = b → b.toList.head? = some '#' := by
    rintro a b rfl
    simp
  intro a b h
  unfold sampleDigest at h
  split_ifs at h
  all_goals first
    | exact absurd (hother h) (by decide)
    | exact absurd (hother h.symm) (by decide)
    | exact absurd h (by decide)
    | simp_all

/-- A store with these digests. -/
def sampleStore : Store where
  digest := sampleDigest
  isUuid x := x = "6f9619ff-8b86-4d01-b42d-00c04fc964ff" ||
    x = "0e1a7f42-33d1-4c52-9a7e-5d2c8b6a4f10"
  digest_injective := sampleDigest_injective
  isUuid_plain := by
    intro x hx
    simp only [Bool.or_eq_true, decide_eq_true_eq] at hx
    rcases hx with rfl | rfl <;> decide
  root := ["_mail"]
  messageBytes _ := 100
  recordBytes _ := 100

/-- An empty store, in which an old build has made the mailbox `.bob`. -/
def sampleDisk : MailDisk :=
  ((∅ : MailDisk).set ["_mail"] (some .directory)).set ["_mail", ".bob"] (some .directory)

/-- A short message to one recipient. -/
def sampleMessage (recipient : String) : Message where
  sourceProtocol := .smtp
  «from» := ⟨"carol", none⟩
  «to» := [⟨recipient, none⟩]
  cc := []
  bcc := []
  replyTo := []
  subject := "hello"
  headers := ∅
  bodyText := some "hello"
  bodyHtml := none
  attachments := []
  userEngagementTrackingDisabled := none
  providerMetadata := ∅
  rawMime := none
  threadId := none

end Sqrzl.Mail
