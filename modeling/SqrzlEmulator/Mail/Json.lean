import SqrzlEmulator.Data.JsonText
import SqrzlEmulator.Mail.Admission
import Mathlib.Data.List.Destutter

/-!
# JSON documents of the mail store

What is written for a message, for its copies and for a record: the fields of `mail/model.rs` and
`capture.rs` in their order, in snake case. A field that is left out when it is missing is no field
of the object then. The fields of a hash map are written in some order, which does not matter for
how many they are. The crate for time gives the text of a point in time.

**A copy has little more than its message** (`size_copy_le`): its identities, its mailbox, the name of
its transaction and two points in time. And the name of a mailbox is no longer than the address that
it is taken from, which is a part of the message (`size_mailbox_le`).
-/

namespace Sqrzl.Mail

open Capture JsonText

/-! ### Documents -/

/-- The name of a protocol in a document. -/
def sourceText : SourceProtocol → String
  | .smtp => "smtp"
  | .sendGrid => "send_grid"
  | .ses => "ses"
  | .acs => "acs"

/-- The name of a delivery state in a document. -/
def stateText : DeliveryState → String
  | .accepted => "accepted"
  | .delivered => "delivered"
  | .bounced => "bounced"
  | .rejected => "rejected"

/-- Bytes are written as an array of numbers. -/
def bytesJson (bytes : Bytes) : Text := list (bytes.map fun byte ↦ number byte.toNat)

/-- A value of the provider metadata. -/
def valueJson : Value → Text
  | .bool b => JsonText.bool b
  | .number n => number n
  | .string s => JsonText.string s
  | .other text => text.toList

/-- A field that is left out when it is missing. -/
def fieldIfSome {α : Type} (name : String) (text : α → Text) (value : Option α) :
    List (String × Text) :=
  (value.map fun a ↦ (name, text a)).toList

/-- The entries of a table, in the order of their keys. -/
def entriesOf {α : Type} (table : Table String α) : List (String × α) :=
  table.keys.filterMap fun key ↦ table[key]?.map fun a ↦ (key, a)

/-- A hash map. -/
def tableJson {α : Type} (text : α → Text) (table : Table String α) : Text :=
  object ((entriesOf table).map fun entry ↦ (entry.1, text entry.2))

/-- An address. -/
def addressJson (address : Address) : Text :=
  object (("email", JsonText.string address.email) ::
    fieldIfSome "name" JsonText.string address.name)

/-- An attachment. -/
def attachmentJson (attachment : Attachment) : Text :=
  object ([("filename", JsonText.string attachment.filename),
    ("content_type", JsonText.string attachment.contentType),
    ("content", bytesJson attachment.content)] ++
    fieldIfSome "disposition" JsonText.string attachment.disposition ++
    fieldIfSome "content_id" JsonText.string attachment.contentId)

/-- The fields of a message before its provider metadata. -/
def messageFields (message : Message) : List (String × Text) :=
  [("source_protocol", JsonText.string (sourceText message.sourceProtocol)),
    ("from", addressJson message.«from»),
    ("to", list (message.«to».map addressJson)),
    ("cc", list (message.cc.map addressJson)),
    ("bcc", list (message.bcc.map addressJson)),
    ("reply_to", list (message.replyTo.map addressJson)),
    ("subject", JsonText.string message.subject),
    ("headers", tableJson JsonText.string message.headers),
    ("body_text", optional JsonText.string message.bodyText),
    ("body_html", optional JsonText.string message.bodyHtml),
    ("attachments", list (message.attachments.map attachmentJson))] ++
    fieldIfSome "user_engagement_tracking_disabled" JsonText.bool
      message.userEngagementTrackingDisabled

/-- The fields of a message behind its provider metadata. -/
def payloadFields (message : Message) : List (String × Text) :=
  [("raw_mime", optional bytesJson message.rawMime),
    ("thread_id", optional JsonText.string message.threadId)]

/-- A message. -/
def messageJson (message : Message) : Text :=
  object (messageFields message ++
    ("provider_metadata", tableJson valueJson message.providerMetadata) :: payloadFields message)

/-- A delivery status. -/
def statusJson (timeText : Time → Text) (status : DeliveryStatus) : Text :=
  object (("state", JsonText.string (stateText status.state)) ::
    (fieldIfSome "detail" JsonText.string status.detail ++ [("updated_at", timeText status.updatedAt)]))

/-- A stored message. -/
def storedJson (timeText : Time → Text) (stored : StoredMessage) : Text :=
  object [("message_id", JsonText.string stored.messageId),
    ("mailbox", JsonText.string stored.mailbox),
    ("message", messageJson stored.message),
    ("delivery_status", statusJson timeText stored.deliveryStatus),
    ("received_at", timeText stored.receivedAt)]

/-- A repeatability record. -/
def recordJson (record : RepeatabilityRecord) : Text :=
  object [("key", JsonText.string record.key),
    ("request_hash", JsonText.string record.requestHash),
    ("first_sent", JsonText.string record.firstSent),
    ("status", number record.status),
    ("result", object (record.result.map fun entry ↦ (entry.1, valueJson entry.2))),
    ("transaction_id", JsonText.string record.transactionId)]

/-- A store that measures its JSON texts. -/
structure Measures (S : Store) : Prop where
  message : ∀ message, S.messageBytes message = size (messageJson message)
  record : ∀ record, S.recordBytes record = size (recordJson record)

variable {S : Store} {message : Message} {mailbox messageId id : String}

/-! ### Parts of a message -/

theorem size_payload_le : 2 * rawBytes message ≤ size (messageJson message) := by
  have hmem : ("raw_mime", optional bytesJson message.rawMime) ∈ messageFields message ++
      ("provider_metadata", tableJson valueJson message.providerMetadata) :: payloadFields message :=
    List.mem_append_right _ (List.mem_cons_of_mem _ List.mem_cons_self)
  refine le_trans ?_ (size_le_object hmem)
  unfold rawBytes
  cases message.rawMime with
  | none => exact Nat.zero_le _
  | some raw =>
    show 2 * raw.length ≤ size (list (raw.map fun byte ↦ number byte.toNat))
    have hdigits : raw.length ≤ ((raw.map fun byte ↦ number byte.toNat).map size).sum := by
      induction raw with
      | nil => exact le_refl 0
      | cons byte raw ih =>
        have hpos := length_number_pos byte.toNat
        have hsize := length_le_size (number byte.toNat)
        rw [List.map_cons, List.map_cons, List.sum_cons, List.length_cons]
        omega
    rw [size_list, List.length_map]
    omega

theorem size_escapeChar_toLower (c : Char) : size (escapeChar c.toLower) = size (escapeChar c) := by
  have hascii : ∀ n < 128, size (escapeChar (Char.ofNat n).toLower) = size (escapeChar (Char.ofNat n)) := by
    decide
  by_cases hc : c.toNat < 128
  · rw [← Char.ofNat_toNat c]
    exact hascii _ hc
  · have hsame : c.toLower = c := by
      unfold Char.toLower
      rw [dif_neg]
      intro h
      have hle := UInt32.le_iff_toNat_le.1 h.2
      have htoNat : c.val.toNat = c.toNat := rfl
      have hZ : ('Z' : Char).val.toNat = 90 := rfl
      omega
    rw [hsame]

/-- **The name of a mailbox is no longer than the address** that it is taken from. -/
theorem size_mailboxKey_le (address : Address) :
    size (JsonText.string address.mailboxKey) ≤ size (JsonText.string address.email) := by
  have htrim : (trim address.email.toList).Sublist address.email.toList := by
    rw [trim]
    have hright := (List.dropWhile_suffix isWhitespace
      (l := (address.email.toList.dropWhile isWhitespace).reverse)).sublist.reverse
    rw [List.reverse_reverse] at hright
    exact hright.trans (List.dropWhile_suffix _).sublist
  refine le_trans (le_of_eq ?_) (size_string_le (s := String.ofList (trim address.email.toList)) ?_)
  · rw [size_string, size_string, Address.mailboxKey, String.toList_ofList, String.toList_ofList,
      List.map_map]
    refine congrArg (fun l ↦ 2 + List.sum l) (List.map_congr_left fun c _ ↦ ?_)
    exact size_escapeChar_toLower c
  · rw [String.toList_ofList]
    exact htrim

theorem size_address_le {address : Address} (h : address ∈ message.recipients) :
    size (JsonText.string address.email) ≤ size (messageJson message) := by
  have hemail : size (JsonText.string address.email) ≤ size (addressJson address) :=
    size_le_object (f := ("email", JsonText.string address.email)) List.mem_cons_self
  refine hemail.trans ?_
  -- the list of addresses that it is in
  have hlist : ∀ (name : String) (addresses : List Address), address ∈ addresses →
      (name, list (addresses.map addressJson)) ∈ messageFields message →
      size (addressJson address) ≤ size (messageJson message) := by
    intro name addresses hmem hfield
    exact (size_le_list (List.mem_map_of_mem hmem)).trans
      (size_le_object (List.mem_append_left _ hfield))
  rw [Message.recipients, List.mem_append, List.mem_append] at h
  rcases h with (h | h) | h
  · exact hlist "to" _ h (by simp [messageFields])
  · exact hlist "cc" _ h (by simp [messageFields])
  · exact hlist "bcc" _ h (by simp [messageFields])

/-- The name of a recipient's mailbox is no longer than the message. -/
theorem size_mailbox_le (h : mailbox ∈ message.targets) :
    size (JsonText.string mailbox) ≤ size (messageJson message) := by
  have hmem := (List.destutter_sublist (· ≠ ·) _).subset h
  rw [List.mem_insertionSort, List.mem_map] at hmem
  obtain ⟨address, haddress, rfl⟩ := hmem
  exact (size_mailboxKey_le address).trans (size_address_le haddress)

/-! ### Copies -/

/-- A key that is set is one more key, or the same ones. -/
theorem entriesOf_set_perm {α : Type} (table : Table String α) (key : String) (a : α) :
    (entriesOf (table.set key (some a))).Perm
      ((key, a) :: (entriesOf table).filter fun entry ↦ entry.1 ≠ key) := by
  have hkeys : (table.set key (some a)).keys.Perm (key :: table.keys.filter (· ≠ key)) := by
    rw [List.perm_ext_iff_of_nodup (Table.nodup_keys _)]
    · intro k
      rw [Table.mem_keys, Table.getElem?_set, List.mem_cons, List.mem_filter, Table.mem_keys]
      by_cases hk : k = key
      · rw [if_pos hk]
        exact iff_of_true rfl (.inl hk)
      · rw [if_neg hk, or_iff_right hk]
        exact (and_iff_left (decide_eq_true hk)).symm
    · refine List.nodup_cons.2 ⟨fun h ↦ ?_, (Table.nodup_keys table).filter _⟩
      exact of_decide_eq_true (List.mem_filter.1 h).2 rfl
  refine (hkeys.filterMap _).trans ?_
  rw [List.filterMap_cons_some (b := (key, a)) (by rw [Table.getElem?_set, if_pos rfl]; rfl),
    List.filterMap_filter, entriesOf, List.filter_filterMap]
  refine List.Perm.of_eq (congrArg _ (List.filterMap_congr fun k _ ↦ ?_))
  by_cases hk : k = key
  · rw [if_neg (by simpa using hk)]
    cases table[k]? with
    | none => rfl
    | some b => simp [Option.filter, hk]
  · rw [if_pos (by simpa using hk), Table.getElem?_set, if_neg hk]
    cases table[k]? with
    | none => rfl
    | some b => simp [Option.filter, hk]

/-- One more entry adds its bytes and a comma. -/
theorem size_tableJson_set {α : Type} (text : α → Text) (table : Table String α) (key : String)
    (a : α) : size (tableJson text (table.set key (some a))) ≤
      size (tableJson text table) + (size (JsonText.string key) + size (text a) + 2) := by
  have hperm := entriesOf_set_perm table key a
  have hsub : ((entriesOf table).filter fun entry ↦ entry.1 ≠ key).Sublist (entriesOf table) :=
    List.filter_sublist
  have hlength := hperm.length_eq
  have hless := hsub.length_le
  rw [List.length_cons] at hlength
  have hsum := (hperm.map fun entry ↦ size (field (entry.1, text entry.2))).sum_eq
  have hle := List.Sublist.sum_le_sum (hsub.map fun entry ↦ size (field (entry.1, text entry.2)))
    fun x _ ↦ Nat.zero_le x
  rw [List.map_cons, List.sum_cons, size_field] at hsum
  rw [tableJson, tableJson, size_object, size_object, List.map_map, List.map_map, List.length_map,
    List.length_map]
  simp only [Function.comp_def]
  dsimp only at hsum hle
  omega

/-- The transaction of a message adds little to it. -/
theorem size_tagged_le (message : Message) (id : String) :
    size (messageJson { message with
      providerMetadata := message.providerMetadata.set transactionMetadata (some (.string id)) }) ≤
      size (messageJson message) + (size (JsonText.string id) + 32) := by
  have hset := size_tableJson_set valueJson message.providerMetadata transactionMetadata (.string id)
  have hname : size (JsonText.string transactionMetadata) = 29 := by decide
  have hvalue : size (valueJson (.string id)) = size (JsonText.string id) := rfl
  have hreplace := size_object_replace (messageFields message) (payloadFields message)
    "provider_metadata" (tableJson valueJson message.providerMetadata)
    (tableJson valueJson (message.providerMetadata.set transactionMetadata (some (.string id))))
  show size (object (messageFields message ++ ("provider_metadata", tableJson valueJson
    (message.providerMetadata.set transactionMetadata (some (.string id)))) ::
      payloadFields message)) ≤ _
  rw [messageJson]
  omega

/-- **A copy has little more than its message.** -/
theorem size_copy_le (timeText : Time → Text) (now : Time) (htime : size (timeText now) ≤ 64) :
    size (storedJson timeText (Store.copyFor mailbox messageId message id now)) ≤
      size (messageJson message) + size (JsonText.string mailbox) +
        size (JsonText.string messageId) + size (JsonText.string id) + 300 := by
  have htagged := size_tagged_le message id
  have hstatus : size (statusJson timeText (.accept now)) ≤ 100 := by
    have hname : size (JsonText.string "state") = 7 := by decide
    have hstate : size (JsonText.string (stateText .accepted)) = 10 := by decide
    have hupdated : size (JsonText.string "updated_at") = 12 := by decide
    rw [statusJson, size_object]
    simp only [DeliveryStatus.accept, fieldIfSome, Option.map_none, Option.toList_none,
      List.nil_append, List.map_cons, List.map_nil, List.sum_cons, List.sum_nil, List.length_cons,
      List.length_nil, size_field, hname, hstate, hupdated]
    omega
  have hfirst : size (JsonText.string "message_id") = 12 := by decide
  have hmailbox : size (JsonText.string "mailbox") = 9 := by decide
  have hmessage : size (JsonText.string "message") = 9 := by decide
  have hdelivery : size (JsonText.string "delivery_status") = 17 := by decide
  have hreceived : size (JsonText.string "received_at") = 13 := by decide
  rw [storedJson, size_object]
  simp only [Store.copyFor, List.map_cons, List.map_nil, List.sum_cons, List.sum_nil,
    List.length_cons, List.length_nil, size_field, hfirst, hmailbox, hmessage, hdelivery, hreceived]
  omega

/-- The transaction of a record adds its name. -/
theorem size_tagged_record_le (record : RepeatabilityRecord) (id : String) :
    size (recordJson { record with transactionId := id }) ≤
      size (recordJson record) + size (JsonText.string id) := by
  have hreplace := size_object_replace [("key", JsonText.string record.key),
    ("request_hash", JsonText.string record.requestHash),
    ("first_sent", JsonText.string record.firstSent),
    ("status", number record.status),
    ("result", object (record.result.map fun entry ↦ (entry.1, valueJson entry.2)))] []
    "transaction_id" (JsonText.string record.transactionId) (JsonText.string id)
  show size (object ([("key", JsonText.string record.key),
    ("request_hash", JsonText.string record.requestHash),
    ("first_sent", JsonText.string record.firstSent),
    ("status", number record.status),
    ("result", object (record.result.map fun entry ↦ (entry.1, valueJson entry.2)))] ++
    [("transaction_id", JsonText.string id)])) ≤ size (object ([("key", JsonText.string record.key),
    ("request_hash", JsonText.string record.requestHash),
    ("first_sent", JsonText.string record.firstSent),
    ("status", number record.status),
    ("result", object (record.result.map fun entry ↦ (entry.1, valueJson entry.2)))] ++
    [("transaction_id", JsonText.string record.transactionId)])) + _
  omega

end Sqrzl.Mail
