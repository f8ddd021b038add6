import SqrzlEmulator.Mail.Model
import SqrzlEmulator.Sms.Delivery

/-!
# The SMS store on the file system

`sms/filesystem.rs`. The root holds one directory each for the messages, for the entries of the
conversations, for stored media, for callback attempts and for destinations. The conversation with a
peer is a directory named by the hashed peer, with an entry for each message, and a sidecar beside
it.

A deletion is a program of single file system calls, each of which can fail when it changes
something; reading is a function of a disk and is answered. (In the source a directory that cannot
be listed counts as an empty one, and the deletion of a conversation then drops its sidecar.) The
other operations change a disk at once: a capture by its transaction, which `Capture.Atomicity` shows
to be all or nothing, and a record by the rename of its temporary. All of them hold `write_lock`, so
they run one after the other. The identities that are generated and the readings of the clock are
arguments.
-/

namespace Sqrzl.Sms

open Capture

/-- The records that are stored as JSON documents. -/
inductive SmsJson where
  | message (message : SmsMessage)
  | attempt (attempt : CallbackAttempt)
  | destination (destination : TextDestination)

/-- The file tree of an SMS store. -/
abbrev SmsDisk : Type := Disk (Content (Document SmsJson))

/-- Programs of an SMS store. -/
abbrev SmsJob (α : Type) : Type := Job (Document SmsJson) α

/-- `FilesystemSmsStore`. A digest is written in hexadecimal digits. -/
structure Store extends Externals where
  root : DiskPath
  digest_plain : ∀ x, '.' ∉ (digest x).toList

/-- `validate_id` -/
def validateId (value : String) : Except Error Unit :=
  if value.isEmpty || '/' ∈ value.toList || '\\' ∈ value.toList || ['.', '.'] <:+: value.toList then
    .error (.invalidRequest ("invalid SMS storage identifier: " ++ value))
  else .ok ()

/-- `path.file_stem()`, if `path.extension()` is this one. -/
def stem (extension name : String) : Option String :=
  let dotted := '.' :: extension.toList
  if dotted <:+ name.toList && dotted.length < name.toList.length then
    some (String.ofList (name.toList.take (name.toList.length - dotted.length)))
  else none

namespace Store

variable (S : Store)

/-! ### Paths -/

/-- `message_path` -/
def messagePath (messageId : String) : Except Error DiskPath := do
  validateId messageId
  return S.root ++ ["messages", messageId ++ ".json"]

/-- `peer_hash` -/
def peerHash (peer : String) : Except Error String :=
  if (Mail.trim peer.toList).isEmpty then .error (.invalidRequest "peer must not be empty")
  else .ok (S.digest peer)

/-- `peer_sidecar` -/
def peerSidecar (peer : String) : Except Error DiskPath := do
  return S.root ++ ["conversations", (← S.peerHash peer) ++ ".peer"]

/-- `peer_index_dir` -/
def peerIndexDir (peer : String) : Except Error DiskPath := do
  return S.root ++ ["conversations", ← S.peerHash peer]

/-- `root.join("media")` -/
def mediaRoot : DiskPath := S.root ++ ["media"]

/-- The directory of the media of a message. A single dot names the one of all media. -/
def mediaDir (messageId : String) : DiskPath :=
  if messageId = "." then S.mediaRoot else S.mediaRoot ++ [messageId]

/-- `media_path` -/
def mediaPath (messageId mediaId : String) : Except Error DiskPath := do
  validateId messageId
  validateId mediaId
  return if mediaId = "." then S.mediaDir messageId else S.mediaDir messageId ++ [mediaId]

/-- `destination_path` -/
def destinationPath (provider : SmsProvider) (localNumber : String) : Except Error DiskPath := do
  return S.root ++ ["destinations", provider.asStr, (← S.peerHash localNumber) ++ ".json"]

/-- `root.join("callbacks")` -/
def callbackRoot : DiskPath := S.root ++ ["callbacks"]

/-- `callback_path` -/
def callbackPath (attemptId : String) : Except Error DiskPath := do
  validateId attemptId
  return S.callbackRoot ++ [attemptId ++ ".json"]

/-! ### Reading -/

/-- `read_message_path` -/
def readMessagePath (path : DiskPath) (d : SmsDisk) : Except Error SmsMessage :=
  match d[path]? with
  | none => .error .messageNotFound
  | some (.file (.data (.message (.message message)))) => .ok message
  | some _ => .error ioError

/-- The identities that have an entry in the conversation with a peer. -/
def messageIdsForPeer (peer : String) (d : SmsDisk) : Except Error (List String) := do
  let dir ← S.peerIndexDir peer
  return if d.isDir dir then ((d.entries dir).filterMap (stem "idx")).insertionSort (· ≤ ·) else []

/-- A message is shown once its transaction is committed. -/
def visible (message : SmsMessage) (d : SmsDisk) : Bool :=
  isCommitted S.isUuid S.root message.transactionId d

/-- `get_message` -/
def getMessage (messageId : String) (d : SmsDisk) : Except Error SmsMessage := do
  let path ← S.messagePath messageId
  let message ← readMessagePath path d
  if S.visible message d then return message else .error .messageNotFound

/-- What an entry of a conversation adds to its listing. -/
def listEntry (committed : String → Bool) (d : SmsDisk) (messageId : String) :
    Except Error (Option SmsMessage) :=
  match S.messagePath messageId with
  | .error _ => .ok none
  | .ok path => match readMessagePath path d with
    | .ok message => .ok (if message.transactionId.isEmpty || committed message.transactionId then
        some message else none)
    | .error .messageNotFound => .ok none
    | .error e => .error e

/-- The messages are listed by their times, and then by their identities. -/
def Listed (a b : SmsMessage) : Prop :=
  a.createdAt < b.createdAt ∨ a.createdAt = b.createdAt ∧ a.messageId ≤ b.messageId

instance : DecidableRel Listed := fun a b ↦
  inferInstanceAs (Decidable
    (a.createdAt < b.createdAt ∨ a.createdAt = b.createdAt ∧ a.messageId ≤ b.messageId))

/-- The page after a marker, of at most `limit` messages. -/
def page (params : ListSmsParams) (messages : List SmsMessage) : ListSmsMessagesResult :=
  let start := match params.marker with
    | some marker => ((messages.findIdx? (·.messageId == marker)).map (· + 1)).getD 0
    | none => 0
  let rest := messages.drop start
  match params.limit with
  | some limit =>
    if limit < rest.length then
      ⟨rest.take limit, ((rest.take limit).getLast?).map SmsMessage.messageId⟩
    else ⟨rest, none⟩
  | none => ⟨rest, none⟩

/-- `list_messages_snapshot` -/
def listMessagesSnapshot (peer : String) (params : ListSmsParams) (committed : String → Bool)
    (d : SmsDisk) : Except Error ListSmsMessagesResult := do
  let ids ← S.messageIdsForPeer peer d
  let messages ← ids.mapM (S.listEntry committed d)
  return page params (messages.reduceOption.insertionSort Listed)

/-- `committed_snapshot` -/
def committedSnapshot (d : SmsDisk) (id : String) : Bool := d.isFile (markerPath S.root id)

/-- `list_messages` -/
def listMessages (peer : String) (params : ListSmsParams) (d : SmsDisk) :
    Except Error ListSmsMessagesResult :=
  S.listMessagesSnapshot peer params (S.committedSnapshot d) d

/-- `read_media` -/
def readMedia (messageId mediaId : String) (d : SmsDisk) : Except Error (SmsMedia × Bytes) := do
  let message ← S.getMessage messageId d
  match message.media.find? (·.mediaId == mediaId) with
  | none => .error .messageNotFound
  | some media =>
    if media.externalUrl.isSome then
      .error (.invalidRequest "external media is referenced, not stored locally")
    else
      match d[← S.mediaPath messageId mediaId]? with
      | none => .error .messageNotFound
      | some (.file (.data (.bytes content))) => return (media, content)
      | some _ => .error ioError

/-- What a file adds to the callback attempts of a message. -/
def callbackEntry (messageId : String) (d : SmsDisk) (name : String) :
    Except Error (Option CallbackAttempt) :=
  if (stem "json" name).isSome then
    match d[S.callbackRoot ++ [name]]? with
    | some (.file (.data (.message (.attempt attempt)))) =>
      .ok (if attempt.messageId = messageId then some attempt else none)
    | _ => .error ioError
  else .ok none

/-- `list_callbacks` -/
def listCallbacks (messageId : String) (d : SmsDisk) : Except Error (List CallbackAttempt) :=
  if d.isDir S.callbackRoot then do
    let attempts ← (d.entries S.callbackRoot).mapM (S.callbackEntry messageId d)
    return attempts.reduceOption.insertionSort fun a b ↦
      a.attemptedAt < b.attemptedAt ∨ a.attemptedAt = b.attemptedAt ∧ a.attemptId ≤ b.attemptId
  else .error ioError

/-! ### Deleting -/

/-- `remove_file_if_present` -/
def removeFileIfPresent (path : DiskPath) : SmsJob Unit := Disk.call ioError (Disk.unlink path)

/-- `remove_dir_if_present` -/
def removeDirIfPresent (path : DiskPath) : SmsJob Unit := do
  if ← Disk.query .answered fun d ↦ d.present path then Disk.removeDirAll ioError path else return ()

/-- `remove_dir_if_present(&self.root.join("media").join(message_id))`. A directory cannot be removed
by the name of a single dot, once it is empty. -/
def removeMedia (messageId : String) : SmsJob Unit :=
  if messageId = "." then do
    if ← Disk.query .answered fun d ↦ d.present S.mediaRoot then
      Disk.clearDir ioError S.mediaRoot
      Prog.fail ioError
    else return ()
  else removeDirIfPresent (S.mediaDir messageId)

/-- What a function of the disk returns at one moment. -/
def ask {α : Type} (f : SmsDisk → Except Error α) : SmsJob α := do
  Prog.ofExcept (← Prog.read f)

/-- Whether the message of a path, as far as it can be read, is one with another peer. -/
def isForeign (path : DiskPath) (peer : String) (d : SmsDisk) : Bool :=
  match readMessagePath path d with
  | .ok message => message.peer != peer
  | .error _ => false

/-- `delete_message_locked`: the callbacks, the media, the entry and last the message. -/
def deleteMessageLocked (peer messageId : String) : SmsJob Unit := do
  let messagePath ← Prog.ofExcept (S.messagePath messageId)
  if ← Prog.read (isForeign messagePath peer) then Prog.fail .messageNotFound
  else
    removeFileIfPresent messagePath
    let dir ← Prog.ofExcept (S.peerIndexDir peer)
    removeFileIfPresent (dir ++ [messageId ++ ".idx"])
    S.removeMedia messageId
    Disk.fault ioError
    let attempts ← ask (S.listCallbacks messageId)
    Prog.forEach attempts fun attempt ↦ do
      let path ← Prog.ofExcept (S.callbackPath attempt.attemptId)
      removeFileIfPresent path
    let ids ← ask (S.messageIdsForPeer peer)
    if ids.isEmpty then
      removeDirIfPresent dir
      let sidecar ← Prog.ofExcept (S.peerSidecar peer)
      removeFileIfPresent sidecar
    else return ()

/-- `delete_message` -/
def deleteMessage (peer messageId : String) : SmsJob Unit := S.deleteMessageLocked peer messageId

/-- `delete_conversation` -/
def deleteConversation (peer : String) : SmsJob Unit := do
  let ids ← ask (S.messageIdsForPeer peer)
  Prog.forEach ids fun messageId ↦ S.deleteMessageLocked peer messageId

/-! ### Writing -/

/-- Make a directory and those above it that are missing. -/
def makeDirs (d : SmsDisk) (path : DiskPath) : SmsDisk :=
  path.inits.tail.foldl (fun d q ↦ if (d[q]?).isSome then d else d.set q (some .directory)) d

/-- Write a file, and the directories above it. -/
def writeFile (d : SmsDisk) (file : DiskPath × Document SmsJson) : SmsDisk :=
  (makeDirs d file.1.dropLast).set file.1 (some (.file (.data file.2)))

/-- What is generated for a message: the identity of the message itself, the one that its provider
gives, those of its media, and the reading of the clock. -/
structure Generated where
  messageId : String
  providerMessageId : String
  mediaIds : List String
  now : Time

/-- `prepare_message` -/
def prepareMessage (new : NewSmsMessage) (g : Generated) (transactionId : String) :
    Except Error (SmsMessage × List (String × Bytes)) :=
  if (Mail.trim new.from.toList).isEmpty || (Mail.trim new.to.toList).isEmpty then
    .error (.invalidRequest "from and to must not be empty")
  else
    let media := new.media.zip g.mediaIds
    .ok ({
      messageId := g.messageId
      batchId := new.batchId
      provider := new.provider
      providerMessageId := new.providerMessageId.getD g.providerMessageId
      direction := new.direction
      channel := new.channel
      «from» := new.from
      «to» := new.to
      body := new.body
      media := media.map fun (item, mediaId) ↦
        { mediaId := mediaId
          filename := item.filename
          contentType := item.contentType
          size := item.content.map List.length
          externalUrl := item.externalUrl }
      metadata := new.metadata.insert transactionMetadata (.string transactionId)
      peer := match new.direction with
        | .outbound => new.to
        | .inbound => new.from
      deliveryState := .accepted
      createdAt := g.now
      updatedAt := g.now },
      media.filterMap fun (item, mediaId) ↦ item.content.map fun content ↦ (mediaId, content))

/-- The files of a message in a capture. -/
def messageFiles (message : SmsMessage) (content : List (String × Bytes)) :
    Except Error (List (DiskPath × Document SmsJson)) := do
  let dir ← S.peerIndexDir message.peer
  let path ← S.messagePath message.messageId
  let media ← content.mapM fun file ↦ do
    return (← S.mediaPath message.messageId file.1, Document.bytes file.2)
  return (path, .message (.message message)) ::
    (dir ++ [message.messageId ++ ".idx"], .bytes []) :: media

/-- Make the conversation of a peer, with its sidecar. -/
def ensureConversation (peer : String) (d : SmsDisk) : Except Error SmsDisk := do
  let dir ← S.peerIndexDir peer
  let sidecar ← S.peerSidecar peer
  let d := makeDirs d dir
  match d[sidecar]? with
  | none => return writeFile d (sidecar, .text peer)
  | some (.file (.data (.text stored))) =>
    if stored = peer then return d else .error (.internalError "SMS peer storage key collision")
  | some _ => .error ioError

/-- One round of `capture_messages`: the conversation of a message, and its files. -/
def captureOne (transactionId : String) (d : SmsDisk) (new : NewSmsMessage × Generated) :
    Except Error (SmsMessage × List (DiskPath × Document SmsJson)) × SmsDisk :=
  match prepareMessage new.1 new.2 transactionId with
  | .error e => (.error e, d)
  | .ok (message, content) => match S.ensureConversation message.peer d with
    | .error e => (.error e, d)
    | .ok d => match S.messageFiles message content with
      | .error e => (.error e, d)
      | .ok files => (.ok (message, files), d)

/-- The rounds of `capture_messages`. -/
def captureAll (transactionId : String) : SmsDisk → List (NewSmsMessage × Generated) →
    Except Error (List (SmsMessage × List (DiskPath × Document SmsJson))) × SmsDisk
  | d, [] => (.ok [], d)
  | d, new :: rest => match S.captureOne transactionId d new with
    | (.error e, d) => (.error e, d)
    | (.ok one, d) => match captureAll transactionId d rest with
      | (.error e, d) => (.error e, d)
      | (.ok others, d) => (.ok (one :: others), d)

/-- The transaction of a capture: its files, and its marker. -/
def commitFiles (transactionId : String) (files : List (DiskPath × Document SmsJson))
    (d : SmsDisk) : Except Error SmsDisk :=
  if files.any (fun file ↦ d.present file.1) || !(files.map Prod.fst).Nodup then
    .error (.invalidRequest "capture destination already exists")
  else
    .ok ((makeDirs (files.foldl writeFile d) (transactionDir S.root transactionId)).set
      (markerPath S.root transactionId) (some (.file .marker)))

/-- `capture_messages`, without the check of its budget. -/
def captureMessages (new : List (NewSmsMessage × Generated)) (records : List RepeatabilityRecord)
    (transactionId : String) (d : SmsDisk) : Except Error (List SmsMessage) × SmsDisk :=
  match S.captureAll transactionId d new with
  | (.error e, d) => (.error e, d)
  | (.ok captured, d) =>
    match S.commitFiles transactionId (captured.flatMap Prod.snd ++ records.map fun record ↦
        recordFile S.toExternals S.root { record with transactionId := transactionId }) d with
    | .error e => (.error e, d)
    | .ok d => (.ok (captured.map Prod.fst), d)

/-- `transition_delivery` -/
def transitionDelivery (messageId : String) (state : SmsDeliveryState) (now : Time) (d : SmsDisk) :
    Except Error (SmsMessage × SmsDisk) :=
  if state = .accepted then
    .error (.invalidRequest "delivery transition must be delivered or failed")
  else do
    let path ← S.messagePath messageId
    let message ← readMessagePath path d
    let message' ← Sms.transitionDelivery message state now
    return (message', if message.deliveryState = .accepted then
      writeFile d (path, .message (.message message')) else d)

/-- `put_destination` -/
def putDestination (provider : SmsProvider) (localNumber callbackUrl : String) (now : Time)
    (d : SmsDisk) : Except Error (TextDestination × SmsDisk) :=
  if (Mail.trim localNumber.toList).isEmpty || (Mail.trim callbackUrl.toList).isEmpty then
    .error (.invalidRequest "local_number and callback_url must not be empty")
  else do
    let path ← S.destinationPath provider localNumber
    let createdAt := match d[path]? with
      | some (.file (.data (.message (.destination destination)))) => destination.createdAt
      | _ => now
    let destination : TextDestination := ⟨provider, localNumber, callbackUrl, createdAt, now⟩
    return (destination, writeFile d (path, .message (.destination destination)))

/-- `delete_destination` -/
def deleteDestination (provider : SmsProvider) (localNumber : String) (d : SmsDisk) :
    Except Error SmsDisk := do
  let path ← S.destinationPath provider localNumber
  return d.set path none

/-- `record_callback` -/
def recordCallback (attempt : CallbackAttempt) (d : SmsDisk) : Except Error SmsDisk := do
  let path ← S.callbackPath attempt.attemptId
  if d.present path then .error (.invalidRequest "callback attempt already exists")
  else return writeFile d (path, .message (.attempt attempt))

/-! ### Runs -/

/-- The directories of a store that has been opened for the first time. -/
def opened : SmsDisk :=
  ["messages", "conversations", "media", "destinations", "callbacks", transactionsName].foldl
    (fun d child ↦ makeDirs d (S.root ++ [child])) ∅

/-- What is generated for a message is a new identity, and there is one for each of its media. -/
structure Generated.New (S : Store) (g : Generated) (new : NewSmsMessage) (d : SmsDisk) : Prop where
  message : ∃ x, S.isUuid x = true ∧ g.messageId = "txt-" ++ x
  media : ∀ k ∈ g.mediaIds, ∃ x, S.isUuid x = true ∧ k = "media-" ++ x
  length : g.mediaIds.length = new.media.length
  absent : ∀ peer, d[S.root ++ ["messages", g.messageId ++ ".json"]]? = none ∧
    d[S.root ++ ["conversations", S.digest peer, g.messageId ++ ".idx"]]? = none

/-- The disks that a store can come to. A deletion may fail or be stopped anywhere. -/
inductive Reached (S : Store) : SmsDisk → Prop
  | opened : Reached S S.opened
  | captured {d : SmsDisk} (h : Reached S d) (new : List (NewSmsMessage × Generated))
      (records : List RepeatabilityRecord) {id : String} (hid : S.isUuid id = true)
      (hnew : ∀ m ∈ new, m.2.New S m.1 d) : Reached S (S.captureMessages new records id d).2
  | transitioned {d t : SmsDisk} (h : Reached S d) {i : String} {state : SmsDeliveryState}
      {now : Time} {message : SmsMessage} (ht : S.transitionDelivery i state now d = .ok (message, t)) :
      Reached S t
  | destined {d t : SmsDisk} (h : Reached S d) {provider : SmsProvider} {number url : String}
      {now : Time} {destination : TextDestination}
      (ht : S.putDestination provider number url now d = .ok (destination, t)) : Reached S t
  | undestined {d t : SmsDisk} (h : Reached S d) {provider : SmsProvider} {number : String}
      (ht : S.deleteDestination provider number d = .ok t) : Reached S t
  | recorded {d t : SmsDisk} (h : Reached S d) {attempt : CallbackAttempt}
      (ht : S.recordCallback attempt d = .ok t) : Reached S t
  | deleted {d t : SmsDisk} (h : Reached S d) {peer i : String} {evs : List Empty}
      {r : Option (Except Error Unit)} (hx : (S.deleteMessage peer i).Exec d evs t r) : Reached S t
  | emptied {d t : SmsDisk} (h : Reached S d) {peer : String} {evs : List Empty}
      {r : Option (Except Error Unit)} (hx : (S.deleteConversation peer).Exec d evs t r) :
      Reached S t

end Store

end Sqrzl.Sms
