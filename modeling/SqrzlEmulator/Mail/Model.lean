import SqrzlEmulator.Capture.Records
import Mathlib.Data.List.Sort

/-!
# The mail data model

The records of `mail/model.rs` with their fields. A hash map is a table, and a point in time is a
number.
-/

namespace Sqrzl.Mail

open Capture (Value Document)

/-- `SourceProtocol` -/
inductive SourceProtocol where
  | smtp
  | sendGrid
  | ses
  | acs
  deriving DecidableEq

/-- A single named email address. -/
structure Address where
  email : String
  name : Option String := none
  deriving DecidableEq

/-- `char::is_whitespace`: the characters with the property `White_Space`. -/
def isWhitespace (c : Char) : Bool :=
  let n := c.toNat
  (9 ≤ n && n ≤ 13) || n == 0x20 || n == 0x85 || n == 0xA0 || n == 0x1680 ||
    (0x2000 ≤ n && n ≤ 0x200A) || n == 0x2028 || n == 0x2029 || n == 0x202F || n == 0x205F ||
    n == 0x3000

/-- `str::trim` -/
def trim (t : Text) : Text :=
  ((t.dropWhile isWhitespace).reverse.dropWhile isWhitespace).reverse

/-- The lowercased, trimmed address used as a mailbox key. -/
def Address.mailboxKey (address : Address) : String :=
  String.ofList ((trim address.email.toList).map Char.toLower)

/-- `Attachment` -/
structure Attachment where
  filename : String
  contentType : String
  content : Bytes
  disposition : Option String
  contentId : Option String
  deriving DecidableEq

/-- `DeliveryState` -/
inductive DeliveryState where
  | accepted
  | delivered
  | bounced
  | rejected
  deriving DecidableEq

/-- `DeliveryStatus` -/
structure DeliveryStatus where
  state : DeliveryState
  detail : Option String
  updatedAt : Time
  deriving DecidableEq

/-- `DeliveryStatus::accepted` -/
def DeliveryStatus.accept (now : Time) : DeliveryStatus := ⟨.accepted, none, now⟩

/-- A captured email message, before it is filed in the mailboxes of its recipients. -/
structure Message where
  sourceProtocol : SourceProtocol
  «from» : Address
  «to» : List Address
  cc : List Address
  bcc : List Address
  replyTo : List Address
  subject : String
  headers : Table String String
  bodyText : Option String
  bodyHtml : Option String
  attachments : List Attachment
  userEngagementTrackingDisabled : Option Bool
  providerMetadata : Table String Value
  rawMime : Option Bytes
  threadId : Option String

/-- All recipients: the mailboxes this message is filed in. -/
def Message.recipients (message : Message) : List Address := message.«to» ++ message.cc ++ message.bcc

/-- A message as filed in one mailbox. -/
structure StoredMessage where
  messageId : String
  mailbox : String
  message : Message
  deliveryStatus : DeliveryStatus
  receivedAt : Time

/-- The transaction that has filed a message. A message of an old build has none. -/
def StoredMessage.transactionId (stored : StoredMessage) : String :=
  ((stored.message.providerMetadata[Capture.transactionMetadata]?).bind Value.asStr).getD ""

/-- `ListMessagesParams` -/
structure ListMessagesParams where
  marker : Option String := none
  limit : Option ℕ := none
  deriving DecidableEq

/-- `ListMessagesResult` -/
structure ListMessagesResult where
  messages : List StoredMessage := []
  nextMarker : Option String := none

/-- Synthetic mailbox holding one copy of every message regardless of recipient. -/
def allMailbox : String := "_all"

/-- The mailboxes of the recipients: sorted, and each of them once. -/
def Message.targets (message : Message) : List String :=
  ((message.recipients.map Address.mailboxKey).insertionSort (· ≤ ·)).destutter (· ≠ ·)

/-! ### Admission -/

/-- `add_message` of `budget.rs`, for a message whose JSON text has this many bytes. -/
def addMessage (budget bytes : ℕ) (message : Message) : Except Error ℕ := do
  let raw := (message.rawMime.map List.length).getD 0
  let bytes ← Capture.jsonBytes bytes
  let budget ← Capture.addBytes budget (3 * bytes)
  (message.targets ++ [allMailbox]).foldlM (fun budget target ↦ do
    let budget ← Capture.addBytes budget bytes
    let budget ← Capture.addBytes budget (Capture.envelopeBytes + target.utf8ByteSize)
    let budget ← Capture.addBytes budget raw
    if target ≠ allMailbox then Capture.addBytes budget bytes else .ok budget) budget

end Sqrzl.Mail
