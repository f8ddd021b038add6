import SqrzlEmulator.Capture.Journal

/-!
# Records of a capture store

The mail and the SMS store keep two kinds of documents under their root: messages, of a type `μ` of
their own, and the repeatability records of `capture.rs`, which hold the result of a request for the
next time it is sent. Both are written by a transaction and **name the one that has written them**,
and neither is visible unless that transaction is committed.

`Externals` holds what is computed outside the repository: the hexadecimal SHA-256 digest of a text,
free of collisions, and the parser of UUIDs.
-/

namespace Sqrzl.Capture

/-- A JSON value. What the stores do not look into is kept by its text. -/
inductive Value where
  | bool (b : Bool)
  | number (n : ℕ)
  | string (s : String)
  | other (text : String)
  deriving DecidableEq

/-- `Value::as_str` -/
def Value.asStr : Value → Option String
  | .string s => some s
  | _ => none

/-- The durable fingerprint and wire result of one provider-scoped request. The result is an object,
given by its fields. -/
structure RepeatabilityRecord where
  key : String
  requestHash : String
  firstSent : String
  status : ℕ
  result : List (String × Value)
  transactionId : String
  deriving DecidableEq

/-- The files of a capture store whose messages are of type `μ`. -/
inductive Document (μ : Type) : Type where
  /-- A message, as the JSON document that it is. -/
  | message (m : μ)
  /-- The bytes of a message or of one of its parts. -/
  | bytes (b : Bytes)
  /-- The text of a sidecar. -/
  | text (s : String)
  | record (r : RepeatabilityRecord)

/-- The crates that a capture store calls, and what it relies on. -/
structure Externals where
  /-- `hex::encode(Sha256::digest(text.as_bytes()))` -/
  digest : String → String
  /-- `uuid::Uuid::parse_str(text).is_ok()` -/
  isUuid : String → Bool
  digest_injective : Function.Injective digest
  isUuid_plain : ∀ x, isUuid x = true → x ≠ "" ∧ '.' ∉ x.toList

/-- `TRANSACTION_METADATA` -/
def transactionMetadata : String := "__sqrzl_capture_transaction"

variable {μ : Type} (E : Externals) (root : DiskPath)

/-- `record_path` -/
def recordPath (key : String) : DiskPath := root ++ [recordsName, E.digest key ++ ".json"]

/-- `record_file` -/
def recordFile (record : RepeatabilityRecord) : DiskPath × Document μ :=
  (recordPath E root record.key, .record record)

/-! ### Admission of captures -/

/-- `MAX_CAPTURE_BYTES` -/
def maxCaptureBytes : ℕ := 64 * 1024 * 1024

/-- `ENVELOPE_BYTES` -/
def envelopeBytes : ℕ := 1024

/-- `CaptureBudget::add`, on the bytes that have been counted. -/
def addBytes (budget bytes : ℕ) : Except Error ℕ :=
  if budget + bytes ≤ maxCaptureBytes then .ok (budget + bytes) else .error .captureTooLarge

/-- `json_bytes`, for a value whose JSON text has this many bytes. -/
def jsonBytes (bytes : ℕ) : Except Error ℕ := addBytes 0 bytes

/-- `CaptureBudget::records`, for records whose JSON texts have these lengths. -/
def addRecords (budget : ℕ) (records : List ℕ) : Except Error ℕ :=
  records.foldlM (fun budget record ↦ do
    let bytes ← jsonBytes record
    let budget ← addBytes budget (3 * bytes)
    addBytes budget envelopeBytes) budget

end Sqrzl.Capture
