import SqrzlEmulator.Gcs.Model
import SqrzlEmulator.Prog.Calm

/-!
# The store behind the GCS front door

A handler is a program whose steps are calls of the store. The store is the `Vault` with the records
of the resumable uploads next to it: their sessions and cancellations, and the payloads that are
staged. The adapter keeps the sessions in memory as well (`cache`), and loses them when it is
restarted.

**Any call can fail.** A call that reads fails or answers; a call that changes the store fails
before or after its change, and what it reads itself is answered. Where the store asks whether a file
exists, a query that fails means that it does not: a read can then fail as if there were no bucket or
no object, and **a bucket whose metadata are not found is a bucket without any**. What has failed, and
what was changed, is written to a log, which no handler reads: it is there for statements about runs.

A run in which nothing fails is the value `calm`, and its rules are equations.
-/

namespace Sqrzl.Gcs

open Prog

/-! ### Sessions -/

/-- `ResumableChunk` -/
structure ResumableChunk where
  item : String
  size : ℕ
  crc32c : UInt32
  deriving DecidableEq

/-- `ResumableSession` -/
structure ResumableSession where
  bucket : String
  key : Text
  initiatedViaJson : Option Bool
  contentType : String
  metadata : Table String String
  crc32c : Option UInt32
  ifGenerationMatch : Option String
  ifGenerationNotMatch : Option String
  received : ℕ
  total : Option ℕ
  chunks : List ResumableChunk
  calculatedCrc32c : UInt32
  initiatedAt : Time
  deriving DecidableEq

/-- `UploadCancellation` -/
structure UploadCancellation where
  sessionId : String
  bucket : String
  bucketCreatedAt : Time
  expiresAt : Time
  deriving DecidableEq

/-! ### The state -/

/-- What a failed call was for. -/
inductive Call where
  /-- A read of a retention check. -/
  | retention
  /-- The question whether a bucket has metadata, in an update of the bucket. -/
  | policy
  | other
  deriving DecidableEq

/-- What happened to the store. -/
inductive Event where
  | failed (call : Call)
  /-- An object was stored, with a generation, by the upload of a session if there is one. -/
  | stored (bucket : String) (key : Text) (generation : String) (session : Option String)
  deriving DecidableEq

/-- The store and the adapter. -/
structure System where
  vault : Vault := {}
  sessions : Table String ResumableSession := ∅
  cancellations : Table String UploadCancellation := ∅
  /-- The staged payloads, under their sessions and items. -/
  staged : Table String (Table String Bytes) := ∅
  cache : Table String ResumableSession := ∅
  log : List Event := []

/-- Handlers, and the calls that they make. A handler that fails is answered with an internal
error. -/
abbrev Handler (α : Type) : Type := Prog Event Error System α

namespace System

/-- Write to the log. -/
def note (event : Event) (S : System) : System := { S with log := event :: S.log }

/-- The staged payloads of a session. -/
def payloads (id : String) (S : System) : Table String Bytes := S.staged[id]?.getD ∅

end System

/-! ### Calls -/

section Calls

variable {α : Type}

/-- The error of a call that the operating system has failed. -/
def ioError : Error := .internalError "I/O error"

/-- A call that can only fail. -/
def failing (call : Call) (e : Error) : Handler α :=
  Prog.bind (modify (System.note (.failed call))) fun _ ↦ fail e

/-- The errors of a read that the operating system has failed. -/
def readErrors : List Error := [ioError, .bucketNotFound, .keyNotFound]

/-- A call that reads. -/
def query (call : Call) (m : VaultOp α) : Handler α :=
  .choose fun n ↦
    match n with
    | 0 => Prog.bind (Prog.read fun S ↦ (m S.vault).1) ofExcept
    | n + 1 => failing call (readErrors[n]?.getD ioError)

/-- A call that changes the system by `f` and returns what `g` finds before that. -/
def mutation (f : System → System) (g : System → Except Error α) : Handler α :=
  .choose fun n ↦
    match n with
    | 0 => Prog.bind (act none f g) ofExcept
    | 1 => failing .other ioError
    | _ => Prog.bind (modify f) fun _ ↦ failing .other ioError

/-- The system after a call that leaves a vault, with what there is to log of its result. -/
def System.after (events : α → List Event) (outcome : Except Error α × Vault) (S : System) : System :=
  { S with
    vault := outcome.2
    log := (match outcome.1 with
      | .ok a => events a
      | .error _ => []) ++ S.log }

/-- A call that changes the vault, with what there is to log of it if it succeeds. -/
def change (events : α → List Event) (m : VaultOp α) : Handler α :=
  mutation (fun S ↦ S.after events (m S.vault)) fun S ↦ (m S.vault).1

/-- A bucket as `read_bucket_metadata` finds it when it does not find the file. -/
def Bucket.withoutMetadata (B : Bucket) : Bucket := { B with metadata := ∅ }

/-- `get_bucket`. The question whether there are metadata is a call of its own. -/
def getBucketFor (call metadata : Call) (b : String) : Handler Bucket :=
  .choose fun n ↦
    match n with
    | 0 => query call (Vault.getBucket b)
    | _ => Prog.bind (modify (System.note (.failed metadata))) fun _ ↦
        Prog.bind (Prog.read fun S ↦ (Vault.getBucket b S.vault).1.map Bucket.withoutMetadata) ofExcept

/-- `get_bucket`, where all of it is one call. -/
def getBucket (call : Call) (b : String) : Handler Bucket := getBucketFor call call b

/-- `get_object_metadata` -/
def getObjectMetadata (call : Call) (b : String) (key : Text) : Handler Object :=
  query call do
    let _ ← Vault.getBucket b
    Vault.getObjectMetadata b key

end Calls

/-! ### Their rules -/

section Rules

variable {α : Type} {call : Call} {m : VaultOp α} {S : System}

@[simp] theorem calm_query : (query call m).calm S = (some (m S.vault).1, S) := by
  show (Prog.bind (Prog.read fun S : System ↦ (m S.vault).1) ofExcept).calm S = _
  rw [calm_bind_ok (a := (m S.vault).1) (t := S) rfl, calm_ofExcept]

@[simp] theorem calm_mutation {f : System → System} {g : System → Except Error α} :
    (mutation f g).calm S = (some (g S), f S) := by
  show (Prog.bind (act none f g) ofExcept).calm S = _
  rw [calm_bind_ok (a := g S) (t := f S) rfl, calm_ofExcept]

@[simp] theorem calm_change {events : α → List Event} :
    (change events m).calm S = (some (m S.vault).1, S.after events (m S.vault)) := calm_mutation

theorem calm_change_of {events : α → List Event} {r : Except Error α} {V : Vault}
    (h : m S.vault = (r, V)) : (change events m).calm S = (some r, S.after events (r, V)) :=
  calm_change.trans
    (congrArg (fun outcome : Except Error α × Vault ↦ (some outcome.1, S.after events outcome)) h)

variable {I : System → Prop} {Q : Except Error α → System → Prop}

theorem wp_failing {e : Error} : wp I (failing call e) Q S ↔ I S ∧ I (S.note (.failed call)) ∧
    Q (.error e) (S.note (.failed call)) := by
  simp only [failing, wp_bind, wp_modify, wp_fail, and_self_left]

/-- **A call that reads answers, or it has failed.** -/
theorem wp_query : wp I (query call m) Q S ↔ I S ∧ Q (m S.vault).1 S ∧
    I (S.note (.failed call)) ∧ ∀ e ∈ readErrors, Q (.error e) (S.note (.failed call)) := by
  have hok : wp I (Prog.bind (Prog.read fun S ↦ (m S.vault).1) ofExcept : Handler α) Q S ↔
      I S ∧ Q (m S.vault).1 S := by
    rw [wp_bind, wp_read]
    simp only [wp_ofExcept]
    tauto
  rw [query, wp_choose]
  constructor
  · intro h
    have h0 := hok.1 (h 0)
    refine ⟨h0.1, h0.2, (wp_failing.1 (h 1)).2.1, fun e he ↦ ?_⟩
    obtain ⟨n, hn, rfl⟩ := List.mem_iff_getElem.1 he
    have hfailed := (wp_failing.1 (h (n + 1))).2.2
    rwa [List.getElem?_eq_getElem hn] at hfailed
  · rintro ⟨hI, hQ, hI', hQ'⟩ (_ | n)
    · exact hok.2 ⟨hI, hQ⟩
    · refine wp_failing.2 ⟨hI, hI', hQ' _ ?_⟩
      cases hn : readErrors[n]? with
      | none => exact List.mem_cons_self
      | some e => exact List.mem_of_getElem? hn

/-- **A bucket is read, or not found, or read without its metadata.** -/
theorem wp_getBucketFor {metadata : Call} {b : String} {Q : Except Error Bucket → System → Prop} :
    wp I (getBucketFor call metadata b) Q S ↔ I S ∧ Q (Vault.getBucket b S.vault).1 S ∧
      (I (S.note (.failed call)) ∧ ∀ e ∈ readErrors, Q (.error e) (S.note (.failed call))) ∧
      I (S.note (.failed metadata)) ∧
        Q ((Vault.getBucket b S.vault).1.map Bucket.withoutMetadata) (S.note (.failed metadata)) := by
  have hblind : wp I (Prog.bind (modify (System.note (.failed metadata))) fun _ ↦
      Prog.bind (Prog.read fun S ↦ (Vault.getBucket b S.vault).1.map Bucket.withoutMetadata)
        ofExcept : Handler Bucket) Q S ↔ I S ∧ I (S.note (.failed metadata)) ∧
      Q ((Vault.getBucket b S.vault).1.map Bucket.withoutMetadata) (S.note (.failed metadata)) := by
    rw [wp_bind, wp_modify, wp_bind, wp_read]
    simp only [wp_ofExcept]
    tauto
  rw [getBucketFor, wp_choose]
  constructor
  · intro h
    obtain ⟨hI, hQ, hfailed⟩ := wp_query.1 (h 0)
    exact ⟨hI, hQ, hfailed, (hblind.1 (h 1)).2⟩
  · rintro ⟨hI, hQ, hfailed, hmissing⟩ (_ | n)
    · exact wp_query.2 ⟨hI, hQ, hfailed⟩
    · exact hblind.2 ⟨hI, hmissing⟩

/-- **A call that changes the system answers, or it fails before or after its change.** -/
theorem wp_mutation {f : System → System} {g : System → Except Error α} :
    wp I (mutation f g) Q S ↔ I S ∧ I (f S) ∧ Q (g S) (f S) ∧
      I (S.note (.failed .other)) ∧ Q (.error ioError) (S.note (.failed .other)) ∧
      I ((f S).note (.failed .other)) ∧ Q (.error ioError) ((f S).note (.failed .other)) := by
  have hok : wp I (Prog.bind (act none f g) ofExcept : Handler α) Q S ↔ I S ∧ I (f S) ∧ Q (g S) (f S) := by
    rw [wp_bind, wp_act]
    simp only [wp_ofExcept]
    tauto
  have hlate : wp I (Prog.bind (modify f) fun _ ↦ failing .other ioError : Handler α) Q S ↔ I S ∧ I (f S) ∧
      I ((f S).note (.failed .other)) ∧ Q (.error ioError) ((f S).note (.failed .other)) := by
    rw [wp_bind, wp_modify]
    simp only [wp_failing]
    tauto
  rw [mutation, wp_choose]
  constructor
  · intro h
    have h0 := hok.1 (h 0)
    have h1 := wp_failing.1 (h 1)
    have h2 := hlate.1 (h 2)
    exact ⟨h0.1, h0.2.1, h0.2.2, h1.2.1, h1.2.2, h2.2.2⟩
  · rintro ⟨hI, hf, hQ, hI', hQ', hlast⟩
    intro n
    rcases n with _ | _ | n
    · exact hok.2 ⟨hI, hf, hQ⟩
    · exact wp_failing.2 ⟨hI, hI', hQ'⟩
    · exact hlate.2 ⟨hI, hf, hlast⟩

end Rules

end Sqrzl.Gcs
