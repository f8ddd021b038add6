import SqrzlEmulator.Capture.Records

/-!
# The SMS data model

The records of `sms/model.rs` with their fields. A hash map is a table, and a point in time is a
number.
-/

namespace Sqrzl.Sms

open Capture (Value)

/-- `SmsProvider` -/
inductive SmsProvider where
  | twilio
  | sns
  | awsSmsVoiceV2
  | acs
  deriving DecidableEq

/-- `SmsProvider::as_str` -/
def SmsProvider.asStr : SmsProvider → String
  | .twilio => "twilio"
  | .sns => "sns"
  | .awsSmsVoiceV2 => "aws-sms-voice-v2"
  | .acs => "acs"

/-- `SmsDirection` -/
inductive SmsDirection where
  | inbound
  | outbound
  deriving DecidableEq

/-- `SmsChannel` -/
inductive SmsChannel where
  | sms
  | mms
  deriving DecidableEq

/-- `SmsDeliveryState` -/
inductive SmsDeliveryState where
  | accepted
  | delivered
  | failed
  deriving DecidableEq

/-- `SmsMedia`, without its bytes. -/
structure SmsMedia where
  mediaId : String
  filename : String
  contentType : String
  size : Option ℕ := none
  externalUrl : Option String := none
  deriving DecidableEq

/-- `SmsMessage` -/
structure SmsMessage where
  messageId : String
  batchId : Option String
  provider : SmsProvider
  providerMessageId : String
  direction : SmsDirection
  channel : SmsChannel
  «from» : String
  «to» : String
  body : String
  media : List SmsMedia
  metadata : Table String Value
  peer : String
  deliveryState : SmsDeliveryState
  createdAt : Time
  updatedAt : Time

/-- The transaction that has stored a message. A message of an old build has none. -/
def SmsMessage.transactionId (message : SmsMessage) : String :=
  ((message.metadata[Capture.transactionMetadata]?).bind Value.asStr).getD ""

/-- `NewSmsMedia` -/
structure NewSmsMedia where
  filename : String
  contentType : String
  content : Option Bytes
  externalUrl : Option String
  deriving DecidableEq

/-- `NewSmsMessage` -/
structure NewSmsMessage where
  batchId : Option String
  provider : SmsProvider
  providerMessageId : Option String
  direction : SmsDirection
  channel : SmsChannel
  «from» : String
  «to» : String
  body : String
  media : List NewSmsMedia
  metadata : Table String Value

/-- `TextDestination` -/
structure TextDestination where
  provider : SmsProvider
  localNumber : String
  callbackUrl : String
  createdAt : Time
  updatedAt : Time
  deriving DecidableEq

/-- `CallbackKind` -/
inductive CallbackKind where
  | inbound
  | delivery
  deriving DecidableEq

/-- `CallbackAttemptState` -/
inductive CallbackAttemptState where
  | succeeded
  | failed
  deriving DecidableEq

/-- `CallbackAttempt` -/
structure CallbackAttempt where
  attemptId : String
  messageId : String
  kind : CallbackKind
  provider : SmsProvider
  url : String
  requestHeaders : Table String String
  requestBody : String
  responseStatus : Option ℕ
  responseBody : Option String
  error : Option String
  state : CallbackAttemptState
  attemptedAt : Time
  retryOf : Option String

/-- `ListSmsParams` -/
structure ListSmsParams where
  marker : Option String := none
  limit : Option ℕ := none
  deriving DecidableEq

/-- `ListSmsMessagesResult` -/
structure ListSmsMessagesResult where
  messages : List SmsMessage := []
  nextMarker : Option String := none

end Sqrzl.Sms
