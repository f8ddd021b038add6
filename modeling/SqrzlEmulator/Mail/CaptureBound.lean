import SqrzlEmulator.Mail.Json
import SqrzlEmulator.Prog.Footprint

/-!
# The bound of a capture

`check_messages` compares a cost with `MAX_CAPTURE_BYTES` before anything is copied.

**The files of an admitted capture are no more than that** (`batchFiles_le`). A copy for a recipient
may need two JSON texts of its message, and its document is one of them with the name of the
mailbox, which is no longer than the message; a copy for the mailbox `_all` may need only one, and
its name is short. What is generated for a copy fits into the bytes of an envelope, because the
identities are UUIDs.

**No counter wraps** (`addMessageWord_toNat`): on machine words the counters agree with those on
numbers, since every addition to a counter is checked, and the one that is not adds the length of a
string to a small number. And a part of an admitted list is admitted (`checkMessages_sublist`).
-/

namespace Sqrzl.Mail

open Capture JsonText Results

variable {S : Store} {message : Message} {mailbox messageId id : String} {timeText : Time → Text}

/-! ### Identities -/

/-- `Uuid::to_string` -/
def UuidText (id : String) : Prop :=
  id.toList.length = 36 ∧ ∀ c ∈ id.toList, c = '-' ∨ c.isDigit = true ∨ 'a' ≤ c ∧ c ≤ 'f'

/-- The identities of messages: an operation of a client, or a generated one. -/
def MessageId (i : String) : Prop := UuidText i ∨ ∃ u, UuidText u ∧ i = "msg-" ++ u

/-- A character of an identity is written as it is. -/
theorem size_escapeChar_of_uuid {c : Char}
    (h : c = '-' ∨ c.isDigit = true ∨ 'a' ≤ c ∧ c ≤ 'f') : size (escapeChar c) = 1 := by
  have hascii : ∀ n < 128, (Char.ofNat n = '-' ∨ (Char.ofNat n).isDigit = true ∨
      'a' ≤ Char.ofNat n ∧ Char.ofNat n ≤ 'f') → size (escapeChar (Char.ofNat n)) = 1 := by decide
  have hc : c.toNat < 128 := by
    rcases h with rfl | h | ⟨-, h⟩
    · decide
    · have hle : c.val ≤ '9'.val := by
        rw [Char.isDigit, Bool.and_eq_true, decide_eq_true_eq, decide_eq_true_eq] at h
        exact h.2
      have hnine : ('9' : Char).val.toNat = 57 := rfl
      have htoNat : c.val.toNat = c.toNat := rfl
      rw [UInt32.le_iff_toNat_le] at hle
      omega
    · have hf : ('f' : Char).val.toNat = 102 := rfl
      have htoNat : c.val.toNat = c.toNat := rfl
      have hle : c.val.toNat ≤ ('f' : Char).val.toNat := h
      omega
  have hsize := hascii c.toNat hc
  rw [Char.ofNat_toNat] at hsize
  exact hsize h

theorem size_uuid (h : UuidText id) : size (JsonText.string id) = 38 := by
  have hsum : (id.toList.map fun c ↦ size (escapeChar c)) = id.toList.map fun _ ↦ 1 :=
    List.map_congr_left fun c hc ↦ size_escapeChar_of_uuid (h.2 c hc)
  rw [size_string, hsum, List.map_const', List.sum_replicate, h.1]
  rfl

theorem size_messageId_le (h : MessageId messageId) : size (JsonText.string messageId) ≤ 42 := by
  rcases h with h | ⟨u, h, rfl⟩
  · rw [size_uuid h]
    omega
  · have hstart : (("msg-".toList).map fun c ↦ size (escapeChar c)).sum = 4 := by decide
    have hu := size_uuid h
    rw [size_string] at hu
    rw [size_string, String.toList_append, List.map_append, List.sum_append]
    omega

/-! ### Files -/

/-- The documents of a copy. -/
def copyDocuments (messageId : String) (message : Message) (id : String) (now : Time)
    (mailbox : String) : List (Document StoredMessage) :=
  .message (Store.copyFor mailbox messageId message id now) :: (message.rawMime.map .bytes).toList

/-- The bytes of a file. -/
def fileBytes (timeText : Time → Text) : Document StoredMessage → ℕ
  | .message stored => size (storedJson timeText stored)
  | .bytes bytes => bytes.length
  | .text text => text.utf8ByteSize
  | .record record => size (recordJson record)

/-- The bytes of the files of a capture. -/
def totalBytes (timeText : Time → Text) (files : List (DiskPath × Document StoredMessage)) : ℕ :=
  (files.map fun file ↦ fileBytes timeText file.2).sum

theorem totalBytes_append (files files' : List (DiskPath × Document StoredMessage)) :
    totalBytes timeText (files ++ files') = totalBytes timeText files + totalBytes timeText files' := by
  rw [totalBytes, List.map_append, List.sum_append]
  rfl

/-- The messages of a capture and their files, before its transaction. -/
def Store.prepareBatch (S : Store) (messages : List (String × Message)) (id : String)
    (clock : String → String → Time) :
    MailJob (List (List StoredMessage) × List (DiskPath × Document StoredMessage)) :=
  Prog.foldEach messages ([], []) fun acc message ↦ do
    let copies ← S.prepareMessage message.1 message.2 id clock
    return (acc.1 ++ [copies.1], acc.2 ++ copies.2)

/-- The files that a capture passes to `commit`. -/
def Store.batchFiles (S : Store) (records : List RepeatabilityRecord) (id : String)
    (prepared : List (DiskPath × Document StoredMessage)) :
    List (DiskPath × Document StoredMessage) :=
  prepared ++ records.map fun record ↦
    recordFile S.toExternals S.root { record with transactionId := id }

/-! ### What is prepared -/

section Runs

variable {s t : MailDisk} {evs : List Empty}

theorem documents_of_prepareCopy {now : Time}
    {out : StoredMessage × List (DiskPath × Document StoredMessage)}
    (hx : (S.prepareCopy mailbox messageId message id now).Exec s evs t (some (.ok out))) :
    out.2.map Prod.snd = copyDocuments messageId message id now mailbox := by
  obtain ⟨-, u, -, evs₁, -, hx⟩ := Prog.Exec.ok_of_bind hx
  obtain ⟨path, u, -, evs₂, -, hx⟩ := Prog.Exec.ok_of_bind hx
  rw [copyDocuments]
  cases hraw : message.rawMime with
  | none =>
    rw [hraw] at hx
    rw [hx.eq_of_ret]
    rfl
  | some raw =>
    rw [hraw] at hx
    obtain ⟨rawPath, u, -, evs₃, -, hx⟩ := Prog.Exec.ok_of_bind hx
    rw [hx.eq_of_ret]
    rfl

theorem documents_of_prepareMessage {clock : String → String → Time}
    {out : List StoredMessage × List (DiskPath × Document StoredMessage)}
    (hx : (S.prepareMessage messageId message id clock).Exec s evs t (some (.ok out))) :
    out.2.map Prod.snd = (allMailbox :: message.targets).flatMap fun mailbox ↦
      copyDocuments messageId message id (clock messageId mailbox) mailbox := by
  rw [Store.prepareMessage] at hx
  split_ifs at hx
  · cases hx
  · have hdone := Prog.Exec.of_foldEach (J := fun l acc ↦ acc.2.map Prod.snd ++
        (l.flatMap fun mailbox ↦
          copyDocuments messageId message id (clock messageId mailbox) mailbox) =
        (allMailbox :: message.targets).flatMap fun mailbox ↦
          copyDocuments messageId message id (clock messageId mailbox) mailbox) ?_ rfl hx
    · rw [List.flatMap_nil, List.append_nil] at hdone
      exact hdone
    · intro mailbox l acc s t evs acc' hacc hx
      obtain ⟨copy, u, _, evs', hcopy, hx⟩ := Prog.Exec.ok_of_bind hx
      rw [hx.eq_of_ret, ← hacc, List.map_append, documents_of_prepareCopy hcopy,
        List.flatMap_cons, List.append_assoc]

theorem documents_of_prepareBatch {messages : List (String × Message)}
    {clock : String → String → Time}
    {out : List (List StoredMessage) × List (DiskPath × Document StoredMessage)}
    (hx : (S.prepareBatch messages id clock).Exec s evs t (some (.ok out))) :
    out.2.map Prod.snd = messages.flatMap fun message ↦
      (allMailbox :: message.2.targets).flatMap fun mailbox ↦
        copyDocuments message.1 message.2 id (clock message.1 mailbox) mailbox := by
  have hdone := Prog.Exec.of_foldEach (J := fun l acc ↦ acc.2.map Prod.snd ++
      (l.flatMap fun message ↦ (allMailbox :: message.2.targets).flatMap fun mailbox ↦
        copyDocuments message.1 message.2 id (clock message.1 mailbox) mailbox) =
      messages.flatMap fun message ↦ (allMailbox :: message.2.targets).flatMap fun mailbox ↦
        copyDocuments message.1 message.2 id (clock message.1 mailbox) mailbox) ?_ rfl hx
  · rw [List.flatMap_nil, List.append_nil] at hdone
    exact hdone
  · intro message l acc s t evs acc' hacc hx
    obtain ⟨copies, u, _, evs', hcopies, hx⟩ := Prog.Exec.ok_of_bind hx
    rw [hx.eq_of_ret, ← hacc, List.map_append, documents_of_prepareMessage hcopies]
    exact List.append_assoc _ _ _

end Runs

/-! ### The bound -/

/-- **The files of a copy need no more than was reserved for it.** -/
theorem copyDocuments_le {now : Time} (hid : UuidText id) (hmessage : MessageId messageId)
    (htime : size (timeText now) ≤ 64) (hmailbox : mailbox ∈ allMailbox :: message.targets) :
    ((copyDocuments messageId message id now mailbox).map (fileBytes timeText)).sum ≤
      copyCost (size (messageJson message)) (rawBytes message) mailbox := by
  have hcopy := @size_copy_le message mailbox messageId id timeText now htime
  have huuid := size_uuid hid
  have hname := size_messageId_le hmessage
  have hraw : (((message.rawMime.map Document.bytes).toList).map (fileBytes timeText)).sum =
      rawBytes message := by
    unfold rawBytes
    cases message.rawMime with
    | none => rfl
    | some raw => exact Nat.add_zero _
  have hdocuments : ((copyDocuments messageId message id now mailbox).map (fileBytes timeText)).sum =
      size (storedJson timeText (Store.copyFor mailbox messageId message id now)) +
        rawBytes message := by
    rw [copyDocuments, List.map_cons, List.sum_cons, hraw]
    rfl
  have henvelope : envelopeBytes = 1024 := rfl
  rw [hdocuments, copyCost]
  split_ifs with hall
  · -- the name of the mailbox is within the second text
    have hmem := (List.mem_cons.1 hmailbox).resolve_left hall
    have hle := size_mailbox_le hmem
    omega
  · have hlength : size (JsonText.string allMailbox) = 6 := by decide
    rw [not_not.1 hall] at hcopy ⊢
    omega

/-- The files of a message need no more than its cost. -/
theorem messageDocuments_le {clock : String → Time} (hid : UuidText id)
    (hmessage : MessageId messageId) (htime : ∀ now, size (timeText now) ≤ 64) :
    (((allMailbox :: message.targets).flatMap fun mailbox ↦
      copyDocuments messageId message id (clock mailbox) mailbox).map (fileBytes timeText)).sum ≤
        messageCost (size (messageJson message)) message := by
  have hcopies : ∀ l : List String, (∀ mailbox ∈ l, mailbox ∈ allMailbox :: message.targets) →
      ((l.flatMap fun mailbox ↦ copyDocuments messageId message id (clock mailbox) mailbox).map
        (fileBytes timeText)).sum ≤
          (l.map (copyCost (size (messageJson message)) (rawBytes message))).sum := by
    intro l hl
    induction l with
    | nil => exact le_refl 0
    | cons mailbox l ih =>
      have hfirst := @copyDocuments_le _ _ _ _ timeText (clock mailbox) hid hmessage
        (htime _) (hl mailbox List.mem_cons_self)
      have hrest := ih fun mailbox h ↦ hl mailbox (List.mem_cons_of_mem _ h)
      rw [List.flatMap_cons, List.map_append, List.sum_append, List.map_cons, List.sum_cons]
      omega
  have hall := hcopies (allMailbox :: message.targets) fun mailbox h ↦ h
  rw [messageCost, List.map_append, List.sum_append, List.map_singleton, List.sum_singleton]
  rw [List.map_cons, List.sum_cons] at hall
  omega

theorem recordDocument_le (hid : UuidText id) (record : RepeatabilityRecord) :
    size (recordJson { record with transactionId := id }) ≤ recordCost (size (recordJson record)) := by
  have hle := size_tagged_record_le record id
  have huuid := size_uuid hid
  have henvelope : envelopeBytes = 1024 := rfl
  rw [recordCost]
  omega

/-- **The files of an admitted capture are within the limit.** -/
theorem batchFiles_le (hS : Measures S) (htime : ∀ now, size (timeText now) ≤ 64)
    {messages : List (String × Message)} {records : List RepeatabilityRecord}
    (hadmitted : S.checkMessages (messages.map Prod.snd) records = .ok ()) (hid : UuidText id)
    (hids : ∀ message ∈ messages, MessageId message.1) {clock : String → String → Time}
    {s t : MailDisk} {evs : List Empty}
    {prepared : List (List StoredMessage) × List (DiskPath × Document StoredMessage)}
    (hx : (S.prepareBatch messages id clock).Exec s evs t (some (.ok prepared))) :
    totalBytes timeText (S.batchFiles records id prepared.2) ≤ maxCaptureBytes := by
  rw [checkMessages_eq] at hadmitted
  split_ifs at hadmitted with hcost
  have hprepared : totalBytes timeText prepared.2 ≤
      ((messages.map Prod.snd).map fun message ↦ messageCost (S.messageBytes message) message).sum := by
    have hdocuments := documents_of_prepareBatch hx
    rw [totalBytes, ← Function.comp_def, ← List.map_map, hdocuments]
    clear hdocuments hcost hx
    induction messages with
    | nil => exact le_refl 0
    | cons message messages ih =>
      have hfirst := @messageDocuments_le message.2 _ _ _ (clock message.1) hid
        (hids message List.mem_cons_self) htime
      have hrest := ih fun message h ↦ hids message (List.mem_cons_of_mem _ h)
      rw [List.flatMap_cons, List.map_append, List.sum_append, List.map_cons, List.map_cons,
        List.sum_cons, hS.message]
      omega
  have hrecords : totalBytes timeText (records.map fun record ↦
      recordFile S.toExternals S.root { record with transactionId := id }) ≤
        (records.map fun record ↦ recordCost (S.recordBytes record)).sum := by
    rw [totalBytes, List.map_map]
    clear hcost
    induction records with
    | nil => exact le_refl 0
    | cons record records ih =>
      have hfirst := recordDocument_le hid record
      rw [List.map_cons, List.map_cons, List.sum_cons, List.sum_cons, hS.record]
      show size (recordJson { record with transactionId := id }) + _ ≤ _
      omega
  rw [Store.batchFiles, totalBytes_append]
  rw [Store.cost] at hcost
  omega

/-- **A part of what is admitted is admitted.** -/
theorem checkMessages_sublist {messages messages' : List Message}
    {records records' : List RepeatabilityRecord} (hm : messages'.Sublist messages)
    (hr : records'.Sublist records) (h : S.checkMessages messages records = .ok ()) :
    S.checkMessages messages' records' = .ok () := by
  rw [checkMessages_eq] at h ⊢
  split_ifs at h with hcost
  rw [if_pos]
  have hmessages := List.Sublist.sum_le_sum (hm.map fun message ↦
    messageCost (S.messageBytes message) message) fun x _ ↦ Nat.zero_le x
  have hrecords := List.Sublist.sum_le_sum (hr.map fun record ↦
    recordCost (S.recordBytes record)) fun x _ ↦ Nat.zero_le x
  rw [Store.cost] at hcost ⊢
  omega

/-! ### Machine words -/

/-- `u64::checked_add` -/
def checkedAdd (a b : UInt64) : Option UInt64 :=
  if a.toNat + b.toNat < 2 ^ 64 then some (a + b) else none

/-- `u64::checked_mul` -/
def checkedMul (a b : UInt64) : Option UInt64 :=
  if a.toNat * b.toNat < 2 ^ 64 then some (a * b) else none

/-- `CaptureBudget::add` -/
def addWord (budget bytes : UInt64) : Except Error UInt64 :=
  match (checkedAdd budget bytes).filter fun total ↦ total.toNat ≤ maxCaptureBytes with
  | some total => .ok total
  | none => .error .captureTooLarge

/-- `CaptureBudget::copies` -/
def copiesWord (budget bytes copies : UInt64) : Except Error UInt64 :=
  match checkedMul bytes copies with
  | some product => addWord budget product
  | none => .error .captureTooLarge

/-- `json_bytes`, for a text that is written in pieces of these lengths. -/
def jsonWord (pieces : List UInt64) : Except Error UInt64 := pieces.foldlM addWord 0

/-- `add_message` on machine words. The sum of an envelope and a length is not checked. -/
def addMessageWord (budget : UInt64) (pieces : List UInt64) (message : Message) :
    Except Error UInt64 := do
  let raw := UInt64.ofNat (rawBytes message)
  let bytes ← jsonWord pieces
  let budget ← copiesWord budget bytes 3
  (message.targets ++ [allMailbox]).foldlM (fun budget target ↦ do
    let budget ← addWord budget bytes
    let budget ← addWord budget (UInt64.ofNat envelopeBytes + UInt64.ofNat target.utf8ByteSize)
    let budget ← addWord budget raw
    if target ≠ allMailbox then addWord budget bytes else .ok budget) budget

/-- `CaptureBudget::records` on machine words. -/
def addRecordsWord (budget : UInt64) (records : List (List UInt64)) : Except Error UInt64 :=
  records.foldlM (fun budget pieces ↦ do
    let bytes ← jsonWord pieces
    let budget ← copiesWord budget bytes 3
    addWord budget (UInt64.ofNat envelopeBytes)) budget

/-- The bytes of a text that is written in pieces. -/
def totalOf (pieces : List UInt64) : ℕ := (pieces.map UInt64.toNat).sum

/-- A step on machine words that agrees with one on numbers. -/
def Agrees {α : Type} (f : UInt64 → α → Except Error UInt64) (g : ℕ → α → Except Error ℕ)
    (x : α) : Prop :=
  ∀ budget, (f budget x).map UInt64.toNat = g budget.toNat x

theorem map_bind_toNat {x : Except Error UInt64} {y : Except Error ℕ}
    {f : UInt64 → Except Error UInt64} {g : ℕ → Except Error ℕ} (hx : x.map UInt64.toNat = y)
    (hf : ∀ w, x = .ok w → (f w).map UInt64.toNat = g w.toNat) :
    (x >>= f).map UInt64.toNat = y >>= g := by
  subst hx
  cases x with
  | error e => rfl
  | ok w => exact hf w rfl

theorem Agrees.foldlM {α : Type} {f : UInt64 → α → Except Error UInt64}
    {g : ℕ → α → Except Error ℕ} {l : List α} (h : ∀ x ∈ l, Agrees f g x) (budget : UInt64) :
    (l.foldlM f budget).map UInt64.toNat = l.foldlM g budget.toNat := by
  induction l generalizing budget with
  | nil => rfl
  | cons x l ih =>
    rw [List.foldlM_cons, List.foldlM_cons]
    exact map_bind_toNat (h x List.mem_cons_self budget) fun w _ ↦
      ih (fun x hx ↦ h x (List.mem_cons_of_mem _ hx)) w

/-- **A checked addition does not wrap.** -/
theorem addWord_toNat (budget bytes : UInt64) :
    (addWord budget bytes).map UInt64.toNat = addBytes budget.toNat bytes.toNat := by
  have hmax : maxCaptureBytes < 2 ^ 64 := by decide
  rw [addWord, checkedAdd, addBytes]
  by_cases hsum : budget.toNat + bytes.toNat < 2 ^ 64
  · have htoNat : (budget + bytes).toNat = budget.toNat + bytes.toNat := by
      rw [UInt64.toNat_add, Nat.mod_eq_of_lt hsum]
    rw [if_pos hsum]
    by_cases hle : budget.toNat + bytes.toNat ≤ maxCaptureBytes
    · rw [if_pos hle, Option.filter_some, if_pos (by rw [htoNat]; exact decide_eq_true hle)]
      exact congrArg Except.ok htoNat
    · rw [if_neg hle, Option.filter_some,
        if_neg (by rw [htoNat, decide_eq_true_eq]; exact hle)]
      rfl
  · rw [if_neg hsum, if_neg (by omega)]
    rfl

theorem copiesWord_toNat (budget bytes : UInt64) :
    (copiesWord budget bytes 3).map UInt64.toNat = addBytes budget.toNat (3 * bytes.toNat) := by
  have hmax : maxCaptureBytes < 2 ^ 64 := by decide
  have hthree : (3 : UInt64).toNat = 3 := rfl
  rw [copiesWord, checkedMul, hthree]
  by_cases hproduct : bytes.toNat * 3 < 2 ^ 64
  · have htoNat : (bytes * 3).toNat = 3 * bytes.toNat := by
      rw [UInt64.toNat_mul, hthree, Nat.mod_eq_of_lt hproduct, Nat.mul_comm]
    rw [if_pos hproduct, ← htoNat]
    exact addWord_toNat budget (bytes * 3)
  · rw [if_neg hproduct, addBytes, if_neg (by omega)]
    rfl

theorem jsonWord_toNat (pieces : List UInt64) :
    (jsonWord pieces).map UInt64.toNat = jsonBytes (totalOf pieces) := by
  have hfold : (pieces.foldlM addWord 0).map UInt64.toNat =
      pieces.foldlM (fun budget piece ↦ addBytes budget piece.toNat) (0 : UInt64).toNat :=
    Agrees.foldlM (fun piece _ budget ↦ addWord_toNat budget piece) 0
  have hsum := Adds.foldlM (fun piece : UInt64 ↦ adds_addBytes piece.toNat) pieces 0 (Nat.zero_le _)
  rw [jsonWord, hfold]
  exact hsum

/-- **The counters of a message agree with those on numbers**, for all lengths that a string and a
vector can have. -/
theorem addMessageWord_toNat (budget : UInt64) (pieces : List UInt64) (message : Message)
    (hraw : rawBytes message < 2 ^ 63) (htargets : ∀ t ∈ message.targets, t.utf8ByteSize < 2 ^ 63) :
    (addMessageWord budget pieces message).map UInt64.toNat =
      addMessage budget.toNat (totalOf pieces) message := by
  have hrawWord : (UInt64.ofNat (rawBytes message)).toNat = rawBytes message :=
    UInt64.toNat_ofNat_of_lt (by show rawBytes message < 2 ^ 64; omega)
  refine map_bind_toNat (jsonWord_toNat pieces) fun bytes _ ↦ ?_
  refine map_bind_toNat (copiesWord_toNat budget bytes) fun budget _ ↦ ?_
  refine Agrees.foldlM (fun target htarget budget ↦ ?_) budget
  have hlength : target.utf8ByteSize < 2 ^ 63 := by
    rcases List.mem_append.1 htarget with h | h
    · exact htargets target h
    · rw [List.mem_singleton.1 h]
      decide
  have henvelope : (UInt64.ofNat envelopeBytes + UInt64.ofNat target.utf8ByteSize).toNat =
      envelopeBytes + target.utf8ByteSize := by
    have hfixed : (UInt64.ofNat envelopeBytes).toNat = 1024 := rfl
    have htoNat : (UInt64.ofNat target.utf8ByteSize).toNat = target.utf8ByteSize :=
      UInt64.toNat_ofNat_of_lt (by show target.utf8ByteSize < 2 ^ 64; omega)
    rw [UInt64.toNat_add, hfixed, htoNat]
    exact Nat.mod_eq_of_lt (by omega)
  refine map_bind_toNat (addWord_toNat budget bytes) fun budget _ ↦ ?_
  refine map_bind_toNat ((addWord_toNat budget _).trans (by rw [henvelope])) fun budget _ ↦ ?_
  refine map_bind_toNat ((addWord_toNat budget _).trans (by rw [hrawWord]; rfl)) fun budget _ ↦ ?_
  split_ifs
  · exact addWord_toNat budget bytes
  · rfl

theorem addRecordsWord_toNat (budget : UInt64) (records : List (List UInt64)) :
    (addRecordsWord budget records).map UInt64.toNat =
      addRecords budget.toNat (records.map totalOf) := by
  have hfold : (addRecordsWord budget records).map UInt64.toNat =
      records.foldlM (fun budget pieces ↦ do
        let bytes ← jsonBytes (totalOf pieces)
        let budget ← addBytes budget (3 * bytes)
        addBytes budget envelopeBytes) budget.toNat := by
    refine Agrees.foldlM (fun pieces _ budget ↦ ?_) budget
    refine map_bind_toNat (jsonWord_toNat pieces) fun bytes _ ↦ ?_
    refine map_bind_toNat (copiesWord_toNat budget bytes) fun budget _ ↦ ?_
    exact addWord_toNat budget _
  rw [hfold, addRecords, List.foldlM_map]

/-- `check_messages` on machine words, with the pieces in which the texts are written. -/
def checkWords (messages : List (Message × List UInt64)) (records : List (List UInt64)) :
    Except Error Unit := do
  let budget ← messages.foldlM (fun budget message ↦ addMessageWord budget message.2 message.1) 0
  let _ ← addRecordsWord budget records
  return ()

theorem checkWords_eq {pieces : Message → List UInt64}
    {recordPieces : RepeatabilityRecord → List UInt64}
    (hpieces : ∀ message, totalOf (pieces message) = S.messageBytes message)
    (hrecordPieces : ∀ record, totalOf (recordPieces record) = S.recordBytes record)
    {messages : List Message} (records : List RepeatabilityRecord)
    (hlengths : ∀ message ∈ messages,
      rawBytes message < 2 ^ 63 ∧ ∀ t ∈ message.targets, t.utf8ByteSize < 2 ^ 63) :
    checkWords (messages.map fun message ↦ (message, pieces message)) (records.map recordPieces) =
      S.checkMessages messages records := by
  have hmessages : ((messages.map fun message ↦ (message, pieces message)).foldlM
      (fun budget message ↦ addMessageWord budget message.2 message.1) 0).map UInt64.toNat =
        messages.foldlM (fun budget message ↦
          addMessage budget (S.messageBytes message) message) 0 := by
    rw [List.foldlM_map]
    refine Agrees.foldlM (fun message hmem budget ↦ ?_) 0
    rw [← hpieces]
    exact addMessageWord_toNat budget _ message (hlengths message hmem).1 (hlengths message hmem).2
  have hrecords : (records.map recordPieces).map totalOf = records.map S.recordBytes := by
    rw [List.map_map]
    exact List.map_congr_left fun record _ ↦ hrecordPieces record
  rw [checkWords, Store.checkMessages, ← hmessages]
  cases (messages.map fun message ↦ (message, pieces message)).foldlM
      (fun budget message ↦ addMessageWord budget message.2 message.1) 0 with
  | error e => rfl
  | ok budget =>
    show (addRecordsWord budget _ >>= fun _ ↦ Except.ok ()) =
      (addRecords budget.toNat (records.map S.recordBytes) >>= fun _ ↦ Except.ok ())
    rw [← hrecords, ← addRecordsWord_toNat]
    cases addRecordsWord budget (records.map recordPieces) <;> rfl

/-- **Admission is a bound.** What a capture passes to `commit` is within the limit when it is
admitted; the counters on machine words admit the same lists; and a part of an admitted list is
admitted. -/
theorem capture_admission (hS : Measures S) (htime : ∀ now, size (timeText now) ≤ 64) :
    (∀ messages records id clock, S.captureBatch messages records id clock = do
      Prog.ofExcept (S.checkMessages (messages.map Prod.snd) records)
      let prepared ← S.prepareBatch messages id clock
      commit .answered S.root id (S.batchFiles records id prepared.2)
      return prepared.1) ∧
    (∀ messages records id clock s t evs prepared,
      S.checkMessages (messages.map Prod.snd) records = .ok () → UuidText id →
      (∀ message ∈ messages, MessageId message.1) →
      (S.prepareBatch messages id clock).Exec s evs t (some (.ok prepared)) →
      totalBytes timeText (S.batchFiles records id prepared.2) ≤ maxCaptureBytes) ∧
    (∀ (pieces : Message → List UInt64) (recordPieces : RepeatabilityRecord → List UInt64),
      (∀ message, totalOf (pieces message) = S.messageBytes message) →
      (∀ record, totalOf (recordPieces record) = S.recordBytes record) →
      ∀ messages records, (∀ message ∈ messages,
        rawBytes message < 2 ^ 63 ∧ ∀ t ∈ message.targets, t.utf8ByteSize < 2 ^ 63) →
      checkWords (messages.map fun message ↦ (message, pieces message)) (records.map recordPieces) =
        S.checkMessages messages records) ∧
    ∀ messages messages' records records', messages'.Sublist messages → records'.Sublist records →
      S.checkMessages messages records = .ok () → S.checkMessages messages' records' = .ok () :=
  ⟨fun _ _ _ _ ↦ rfl,
    fun _ _ _ _ _ _ _ _ hadmitted hid hids hx ↦ batchFiles_le hS htime hadmitted hid hids hx,
    fun _ _ hpieces hrecordPieces _ records hlengths ↦
      checkWords_eq hpieces hrecordPieces records hlengths,
    fun _ _ _ _ hm hr h ↦ checkMessages_sublist hm hr h⟩

/-- The sample store, measuring its texts. -/
def measuringStore : Store :=
  { sampleStore with
    messageBytes := fun message ↦ size (messageJson message)
    recordBytes := fun record ↦ size (recordJson record) }

/-- A message for Alice is captured: two documents, within the limit. -/
theorem alice_within_limit : ∃ prepared,
    ((measuringStore.prepareBatch
      [("msg-6f9619ff-8b86-4d01-b42d-00c04fc964ff", sampleMessage "alice")]
      "6f9619ff-8b86-4d01-b42d-00c04fc964ff" fun _ _ ↦ 1000).run [] sampleDisk).1 =
        some (.ok prepared) ∧
    totalBytes (fun _ ↦ "\"1970-01-01T00:00:01Z\"".toList)
      (measuringStore.batchFiles [] "6f9619ff-8b86-4d01-b42d-00c04fc964ff" prepared.2) ≤
        maxCaptureBytes := by
  have huuid : UuidText "6f9619ff-8b86-4d01-b42d-00c04fc964ff" := by
    refine ⟨by decide, ?_⟩
    decide
  obtain ⟨evs, hx⟩ := (measuringStore.prepareBatch
    [("msg-6f9619ff-8b86-4d01-b42d-00c04fc964ff", sampleMessage "alice")]
    "6f9619ff-8b86-4d01-b42d-00c04fc964ff" fun _ _ ↦ 1000).exec_run [] sampleDisk
  have hok : (((measuringStore.prepareBatch
      [("msg-6f9619ff-8b86-4d01-b42d-00c04fc964ff", sampleMessage "alice")]
      "6f9619ff-8b86-4d01-b42d-00c04fc964ff" fun _ _ ↦ 1000).run [] sampleDisk).1.map
        Except.isOk) = some true := by decide
  obtain ⟨r, hr, hisOk⟩ := Option.map_eq_some_iff.1 hok
  cases r with
  | error e => cases hisOk
  | ok prepared =>
    rw [hr] at hx
    refine ⟨prepared, hr, ?_⟩
    have hS : Measures measuringStore := ⟨fun _ ↦ rfl, fun _ ↦ rfl⟩
    refine (capture_admission hS fun _ ↦ by decide).2.1 _ [] _ _ _ _ _ _ (by decide +kernel) huuid
      (fun message hmessage ↦ ?_) hx
    rw [List.mem_singleton.1 hmessage]
    exact .inr ⟨_, huuid, rfl⟩

end Sqrzl.Mail
