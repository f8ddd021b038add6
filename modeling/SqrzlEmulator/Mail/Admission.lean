import SqrzlEmulator.Data.Results
import SqrzlEmulator.Mail.Filesystem

/-!
# Admission of captures

`mail/budget.rs` and `capture/budget.rs`. What a capture may need is added up before anything is
copied, and the sum is compared with `MAX_CAPTURE_BYTES` after every addition. Since a sum only
grows, **a list is admitted exactly if its whole cost is at most the limit** (`checkMessages_eq`).
-/

namespace Sqrzl.Mail

open Capture

variable {f g : ℕ → Except Error ℕ} {a b bytes : ℕ} {S : Store}

/-! ### Steps that add -/

/-- A step that adds a cost to what has been counted, or finds that it is too much. -/
def Adds (f : ℕ → Except Error ℕ) (cost : ℕ) : Prop :=
  ∀ budget ≤ maxCaptureBytes, f budget =
    if budget + cost ≤ maxCaptureBytes then .ok (budget + cost) else .error .captureTooLarge

theorem adds_addBytes (a : ℕ) : Adds (fun budget ↦ addBytes budget a) a := fun _ _ ↦ rfl

theorem adds_ok : Adds .ok 0 := by
  intro budget h
  rw [Nat.add_zero, if_pos h]

theorem Adds.congr (h : Adds f a) (hfg : ∀ budget, g budget = f budget) : Adds g a := by
  intro budget hbudget
  rw [hfg, h budget hbudget]

/-- **Costs add up**: too much at first is too much at the end. -/
theorem Adds.bind (hf : Adds f a) (hg : Adds g b) : Adds (fun budget ↦ f budget >>= g) (a + b) := by
  intro budget hbudget
  show (f budget >>= g) = _
  rw [hf budget hbudget]
  by_cases hfirst : budget + a ≤ maxCaptureBytes
  · rw [if_pos hfirst]
    show g (budget + a) = _
    rw [hg _ hfirst, Nat.add_assoc]
  · rw [if_neg hfirst, if_neg (by omega)]
    rfl

theorem Adds.ite {p : Prop} [Decidable p] (hf : Adds f a) (hg : Adds g b) :
    Adds (fun budget ↦ if p then f budget else g budget) (if p then a else b) := by
  by_cases hp : p
  · rw [if_pos hp]
    exact hf.congr fun budget ↦ if_pos hp
  · rw [if_neg hp]
    exact hg.congr fun budget ↦ if_neg hp

theorem Adds.foldlM {α : Type} {step : ℕ → α → Except Error ℕ} {cost : α → ℕ}
    (h : ∀ x, Adds (fun budget ↦ step budget x) (cost x)) (l : List α) :
    Adds (fun budget ↦ l.foldlM step budget) (l.map cost).sum := by
  induction l with
  | nil => exact adds_ok
  | cons x l ih =>
    rw [List.map_cons, List.sum_cons]
    exact ((h x).bind ih).congr fun budget ↦ List.foldlM_cons

/-- A JSON text is counted by itself first, and what is too long then is too much later. -/
theorem adds_jsonBytes (h : Adds f a) (hle : bytes ≤ a) :
    Adds (fun budget ↦ jsonBytes bytes >>= fun _ ↦ f budget) a := by
  intro budget hbudget
  dsimp only
  rw [jsonBytes, addBytes, Nat.zero_add]
  by_cases hbytes : bytes ≤ maxCaptureBytes
  · rw [if_pos hbytes]
    exact h budget hbudget
  · rw [if_neg hbytes, if_neg (by omega)]
    rfl

/-! ### Costs -/

/-- The bytes of the payload of a message. -/
def rawBytes (message : Message) : ℕ := (message.rawMime.map List.length).getD 0

/-- What the copy of a message for a mailbox may need. -/
def copyCost (bytes raw : ℕ) (target : String) : ℕ :=
  bytes + ((envelopeBytes + target.utf8ByteSize) + (raw + if target ≠ allMailbox then bytes else 0))

/-- What the capture of a message may need. -/
def messageCost (bytes : ℕ) (message : Message) : ℕ :=
  3 * bytes + ((message.targets ++ [allMailbox]).map (copyCost bytes (rawBytes message))).sum

/-- What a record may need. -/
def recordCost (bytes : ℕ) : ℕ := 3 * bytes + envelopeBytes

theorem addMessage_adds (bytes : ℕ) (message : Message) :
    Adds (fun budget ↦ addMessage budget bytes message) (messageCost bytes message) := by
  have hcopy : ∀ target, Adds (fun budget ↦ do
      let budget ← addBytes budget bytes
      let budget ← addBytes budget (envelopeBytes + target.utf8ByteSize)
      let budget ← addBytes budget (rawBytes message)
      if target ≠ allMailbox then addBytes budget bytes else .ok budget)
      (copyCost bytes (rawBytes message) target) := fun target ↦
    (adds_addBytes _).bind ((adds_addBytes _).bind ((adds_addBytes _).bind
      ((adds_addBytes _).ite adds_ok)))
  have hrest := (adds_addBytes (3 * bytes)).bind
    (Adds.foldlM hcopy (message.targets ++ [allMailbox]))
  have hle : bytes ≤ messageCost bytes message := by
    unfold messageCost
    omega
  refine (adds_jsonBytes hrest hle).congr fun budget ↦ ?_
  rw [addMessage, jsonBytes, addBytes, Nat.zero_add]
  split_ifs <;> rfl

theorem addRecords_adds (records : List ℕ) :
    Adds (fun budget ↦ addRecords budget records) (records.map recordCost).sum := by
  refine Adds.foldlM (fun record ↦ ?_) records
  have hrest := (adds_addBytes (3 * record)).bind (adds_addBytes envelopeBytes)
  have hle : record ≤ recordCost record := by
    unfold recordCost
    omega
  refine (adds_jsonBytes hrest hle).congr fun budget ↦ ?_
  rw [jsonBytes, addBytes, Nat.zero_add]
  split_ifs <;> rfl

/-- What a capture may need. -/
def Store.cost (S : Store) (messages : List Message) (records : List RepeatabilityRecord) : ℕ :=
  (messages.map fun message ↦ messageCost (S.messageBytes message) message).sum +
    (records.map fun record ↦ recordCost (S.recordBytes record)).sum

/-- **What is admitted** has a cost of at most the limit. -/
theorem checkMessages_eq (messages : List Message) (records : List RepeatabilityRecord) :
    S.checkMessages messages records =
      if S.cost messages records ≤ maxCaptureBytes then .ok () else .error .captureTooLarge := by
  have hmessages := Adds.foldlM (fun message ↦ addMessage_adds (S.messageBytes message) message)
    messages
  have hboth := hmessages.bind (addRecords_adds (records.map S.recordBytes))
  have hzero := hboth 0 (Nat.zero_le _)
  rw [Nat.zero_add, List.map_map] at hzero
  dsimp only at hzero
  have hcheck : S.checkMessages messages records = ((messages.foldlM (fun budget message ↦
      addMessage budget (S.messageBytes message) message) 0 >>= fun budget ↦
        addRecords budget (records.map S.recordBytes)) >>= fun _ ↦ .ok ()) := by
    rw [Store.checkMessages, bind_assoc]
    rfl
  rw [hcheck, hzero]
  show Except.bind (if S.cost messages records ≤ maxCaptureBytes then _ else _) _ = _
  split_ifs <;> rfl

end Sqrzl.Mail
