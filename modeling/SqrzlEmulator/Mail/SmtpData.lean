import SqrzlEmulator.Mail.CaptureBound
import Mathlib.Tactic.Ring

/-!
# The end of SMTP data

`read_data` of `mail/smtp.rs` reads what follows the command `DATA` byte by byte: it collects a line,
looks at it when a line feed comes, and adds it to the payload without one leading dot. A line buffer
keeps no more than the limit and three bytes, and once the payload is too large no more than three.

What the loop has done at the end of a line depends on the bytes of that line alone (`endLine_after`), so
that **it stops at the first line that is a dot and CRLF, at every size, and the payload is too large
exactly if its bytes without the dots are more than the limit** (`dataLoop_spec`). It does not look at
how the line before ended: **it stops at the end of the data exactly if no line feed alone comes before
the first such line** (`reads_iff`).

The limit is never more than a fourteenth of what a capture may reserve. A copy for a recipient
reserves two JSON texts of the message, but one in the mailbox `_all` only one; so **the early limit
agrees with the full check unless `_all` is the only recipient** (`early_limit_iff`).
-/

namespace Sqrzl.Mail

open Capture

/-! ### The loop -/

/-- The bytes that the loop compares with. -/
def lf : UInt8 := 10

/-- A carriage return. -/
def cr : UInt8 := 13

/-- A dot. -/
def dot : UInt8 := 46

/-- `MAX_CAPTURE_BYTES / 14` -/
def rawCaptureLimit : ℕ := maxCaptureBytes / 14

/-- `input_limit` -/
def inputLimit (maxMessageBytes : ℕ) : ℕ := min maxMessageBytes rawCaptureLimit

/-- `line.strip_prefix(b".").unwrap_or(&line)` -/
def unescape (line : Bytes) : Bytes := if line.head? = some dot then line.tail else line

/-- The variables of the loop. -/
structure DataState where
  raw : Bytes := []
  line : Bytes := []
  tooLarge : Bool := false

/-- What is kept of a byte. -/
def DataState.keep (limit : ℕ) (s : DataState) (byte : UInt8) : DataState :=
  let lineLimit := if s.tooLarge then 3 else limit + 3
  if s.line.length < lineLimit then { s with line := s.line ++ [byte] }
  else { s with tooLarge := true, raw := [] }

/-- What is done with a line when a line feed has come, and whether the loop ends. -/
def DataState.endLine (limit : ℕ) (s : DataState) : DataState × Bool :=
  let endedWithCrlf : Bool := [cr, lf] <:+ s.line
  let line := if endedWithCrlf then s.line.take (s.line.length - 2) else s.line.dropLast
  if endedWithCrlf && line = [dot] then ({ s with line := line }, true)
  else if s.tooLarge then ({ s with line := [] }, false)
  else if limit < s.raw.length + ((unescape line).length + 1) then
    ({ raw := [], line := [], tooLarge := true }, false)
  else ({ s with raw := s.raw ++ (unescape line ++ [lf]), line := [] }, false)

/-- The loop of `read_data`. A stream that ends in between leaves nothing. -/
def dataLoop (limit : ℕ) (s : DataState) : Bytes → Option DataState × Bytes
  | [] => (none, [])
  | byte :: rest =>
    if byte = lf then
      match (s.keep limit byte).endLine limit with
      | (s, true) => (some s, rest)
      | (s, false) => dataLoop limit s rest
    else dataLoop limit (s.keep limit byte) rest

/-- `read_data`, with what is left of the stream. -/
def readData (maxMessageBytes : ℕ) (stream : Bytes) : Except Error (Option Bytes) × Bytes :=
  match dataLoop (inputLimit maxMessageBytes) {} stream with
  | (none, rest) => (.ok none, rest)
  | (some s, rest) =>
    if s.tooLarge && inputLimit maxMessageBytes < maxMessageBytes then
      (.error .captureTooLarge, rest)
    else if s.tooLarge then
      (.error (.invalidRequest ("message exceeds the " ++ toString maxMessageBytes ++
        "-byte emulator limit")), rest)
    else (.ok (some s.raw), rest)

/-! ### Lines -/

/-- The lines of a stream, each without its line feed, and what comes behind the last of them. -/
def splitLines : Bytes → List Bytes × Bytes
  | [] => ([], [])
  | byte :: rest =>
    if byte = lf then ([] :: (splitLines rest).1, (splitLines rest).2)
    else match (splitLines rest).1 with
      | [] => ([], byte :: (splitLines rest).2)
      | line :: lines => ((byte :: line) :: lines, (splitLines rest).2)

/-- A stream of these lines. -/
def joinLines (lines : List Bytes) (tail : Bytes) : Bytes :=
  lines.flatMap (fun line ↦ line ++ [lf]) ++ tail

/-- Whether a line ends with CRLF. -/
def EndsCrlf (line : Bytes) : Prop := line.getLast? = some cr

instance (line : Bytes) : Decidable (EndsCrlf line) := inferInstanceAs (Decidable (_ = _))

/-- A line without its CRLF, or without its line feed. -/
def contentOf (line : Bytes) : Bytes := if EndsCrlf line then line.dropLast else line

/-- A dot and CRLF. -/
def dotLine : Bytes := [dot, cr]

/-- The payload of these lines: without one leading dot, and with a line feed each. -/
def payload (lines : List Bytes) : Bytes :=
  lines.flatMap fun line ↦ unescape (contentOf line) ++ [lf]

variable {lines : List Bytes} {line body tail stream : Bytes} {limit : ℕ} {s : DataState}

theorem joinLines_cons : joinLines (line :: lines) tail = line ++ lf :: joinLines lines tail := by
  rw [joinLines, List.flatMap_cons, List.append_assoc, List.append_assoc]
  rfl

theorem splitLines_spec (stream : Bytes) : stream = joinLines (splitLines stream).1 (splitLines stream).2 ∧
    (∀ line ∈ (splitLines stream).1, lf ∉ line) ∧ lf ∉ (splitLines stream).2 := by
  induction stream with
  | nil => exact ⟨rfl, fun line h ↦ absurd h List.not_mem_nil, List.not_mem_nil⟩
  | cons byte rest ih =>
    obtain ⟨hrest, hlines, htail⟩ := ih
    rw [splitLines]
    by_cases hbyte : byte = lf
    · rw [if_pos hbyte]
      refine ⟨?_, fun line h ↦ ?_, htail⟩
      · rw [joinLines_cons, hbyte]
        exact congrArg (lf :: ·) hrest
      · rcases List.mem_cons.1 h with rfl | h
        · exact List.not_mem_nil
        · exact hlines line h
    · rw [if_neg hbyte]
      cases hsplit : (splitLines rest).1 with
      | nil =>
        rw [hsplit] at hrest
        refine ⟨congrArg (byte :: ·) hrest, fun line h ↦ absurd h List.not_mem_nil, fun h ↦ ?_⟩
        rcases List.mem_cons.1 h with h | h
        · exact hbyte h.symm
        · exact htail h
      | cons line lines =>
        rw [hsplit] at hrest hlines
        rw [joinLines_cons] at hrest
        refine ⟨?_, fun other h ↦ ?_, htail⟩
        · show byte :: rest = joinLines ((byte :: line) :: lines) _
          rw [joinLines_cons]
          exact congrArg (byte :: ·) hrest
        · rcases List.mem_cons.1 h with rfl | h
          · intro hmem
            rcases List.mem_cons.1 hmem with hmem | hmem
            · exact hbyte hmem.symm
            · exact hlines line List.mem_cons_self hmem
          · exact hlines other (List.mem_cons_of_mem _ h)

/-! ### One line -/

/-- What is kept of the bytes of a line, from the state at its beginning. -/
def DataState.after (limit : ℕ) (s : DataState) (body : Bytes) : DataState :=
  if s.tooLarge then { s with line := body.take 3 }
  else if body.length ≤ limit + 3 then { s with line := body }
  else { raw := [], line := body.take (limit + 3), tooLarge := true }

/-- The state at the beginning of the next line. -/
def DataState.next (limit : ℕ) (s : DataState) (line : Bytes) : DataState :=
  if s.tooLarge || limit < s.raw.length + ((unescape (contentOf line)).length + 1) then
    { tooLarge := true }
  else { s with raw := s.raw ++ (unescape (contentOf line) ++ [lf]), line := [] }

section Line

variable (hs : s.tooLarge = true → s.raw = [])

include hs

/-- **Bytes without a line feed extend the line.** -/
theorem keep_after (byte : UInt8) :
    (s.after limit body).keep limit byte = s.after limit (body ++ [byte]) := by
  have hlength : (body ++ [byte]).length = body.length + 1 := List.length_append
  obtain ⟨raw, line, tooLarge⟩ := s
  cases tooLarge with
  | true =>
    obtain rfl : raw = [] := hs rfl
    show (if (body.take 3).length < 3 then ⟨[], body.take 3 ++ [byte], true⟩
      else ⟨[], body.take 3, true⟩ : DataState) = ⟨[], (body ++ [byte]).take 3, true⟩
    rw [List.length_take]
    by_cases hlen : body.length < 3
    · rw [if_pos (by omega), List.take_of_length_le (by omega), List.take_of_length_le (by omega)]
    · rw [if_neg (by omega), List.take_append_of_le_length (by omega)]
  | false =>
    unfold DataState.after
    dsimp only
    rw [if_neg Bool.false_ne_true, if_neg Bool.false_ne_true]
    by_cases hlen : body.length ≤ limit + 3
    · rw [if_pos hlen]
      show (if body.length < limit + 3 then ⟨raw, body ++ [byte], false⟩
        else ⟨[], body, true⟩ : DataState) = _
      by_cases hroom : body.length < limit + 3
      · rw [if_pos hroom, if_pos (by omega)]
      · rw [if_neg hroom, if_neg (by omega), List.take_append_of_le_length (by omega),
          List.take_of_length_le (by omega)]
    · rw [if_neg hlen, if_neg (by omega)]
      show (if (body.take (limit + 3)).length < 3 then
          ⟨[], body.take (limit + 3) ++ [byte], true⟩
        else ⟨[], body.take (limit + 3), true⟩ : DataState) = _
      rw [List.length_take, if_neg (by omega), List.take_append_of_le_length (by omega)]

theorem dataLoop_after (hbody : lf ∉ body) (before rest : Bytes) :
    dataLoop limit (s.after limit before) (body ++ lf :: rest) =
      match ((s.after limit (before ++ body)).keep limit lf).endLine limit with
      | (s, true) => (some s, rest)
      | (s, false) => dataLoop limit s rest := by
  induction body generalizing before with
  | nil =>
    rw [List.nil_append, List.append_nil, dataLoop, if_pos rfl]
  | cons byte body ih =>
    have hbyte : byte ≠ lf := fun h ↦ hbody (h ▸ List.mem_cons_self)
    rw [List.cons_append, dataLoop, if_neg hbyte, keep_after hs,
      ih (fun h ↦ hbody (List.mem_cons_of_mem _ h)), List.append_assoc]
    rfl

end Line

/-- A line that is kept as it is. -/
theorem crlf_suffix_iff : [cr, lf] <:+ line ++ [lf] ↔ EndsCrlf line := by
  rw [EndsCrlf]
  constructor
  · rintro ⟨a, ha⟩
    have hline : a ++ [cr] = line := List.append_cancel_right (by rw [List.append_assoc]; exact ha)
    rw [← hline, List.getLast?_concat]
  · intro h
    obtain ⟨a, rfl⟩ := List.getLast?_eq_some_iff.1 h
    exact ⟨a, by rw [List.append_assoc]; rfl⟩

theorem not_crlf_suffix (h : lf ∉ line) : ¬ [cr, lf] <:+ line := by
  rintro ⟨a, rfl⟩
  exact h (List.mem_append_right _ (List.mem_cons_of_mem _ List.mem_cons_self))

theorem eq_dotLine_iff : EndsCrlf line ∧ contentOf line = [dot] ↔ line = dotLine := by
  constructor
  · rintro ⟨hend, hcontent⟩
    rw [contentOf, if_pos hend] at hcontent
    obtain ⟨a, rfl⟩ := List.getLast?_eq_some_iff.1 hend
    rw [List.dropLast_concat] at hcontent
    rw [hcontent]
    rfl
  · rintro rfl
    exact ⟨rfl, rfl⟩

/-- A line feed ends a line that was kept as it is. -/
theorem endLine_kept (hbody : s.line = body ++ [lf]) : s.endLine limit =
    if body = dotLine then ({ s with line := [dot] }, true)
    else if s.tooLarge then ({ s with line := [] }, false)
    else if limit < s.raw.length + ((unescape (contentOf body)).length + 1) then
      ({ tooLarge := true }, false)
    else ({ s with raw := s.raw ++ (unescape (contentOf body) ++ [lf]), line := [] }, false) := by
  have hcontent : (if decide ([cr, lf] <:+ s.line) = true then s.line.take (s.line.length - 2)
      else s.line.dropLast) = contentOf body := by
    rw [hbody, List.dropLast_concat, contentOf]
    simp only [decide_eq_true_eq, crlf_suffix_iff]
    split_ifs with hend
    · rw [List.length_append, List.length_singleton, List.take_append_of_le_length (by omega),
        List.dropLast_eq_take]
      rfl
    · rfl
  have hcrlf : [cr, lf] <:+ s.line ↔ EndsCrlf body := by rw [hbody, crlf_suffix_iff]
  unfold DataState.endLine
  simp only [hcontent]
  simp only [decide_eq_true_eq, Bool.and_eq_true, hcrlf, eq_dotLine_iff]
  split_ifs with hdot
  · rw [hdot]
    rfl
  all_goals rfl

/-- A line that was cut off, or has no room for its line feed. -/
theorem endLine_cut (hline : lf ∉ s.line) (hlarge : s.tooLarge = true) :
    s.endLine limit = ({ s with line := [] }, false) := by
  have hcrlf : decide ([cr, lf] <:+ s.line) = false := decide_eq_false (not_crlf_suffix hline)
  unfold DataState.endLine
  simp only [hcrlf, Bool.false_and, Bool.false_eq_true, if_false, hlarge, if_true]

theorem length_unescape : line.length ≤ (unescape line).length + 1 := by
  rw [unescape]
  split_ifs
  · rw [List.length_tail]
    omega
  · omega

theorem length_contentOf : line.length ≤ (contentOf line).length + 1 := by
  rw [contentOf]
  split_ifs
  · rw [List.length_dropLast]
    omega
  · omega

/-- **The end of a line** depends on its bytes, and on what the payload was before. -/
theorem endLine_after (hs : s.tooLarge = true → s.raw = []) (hbody : lf ∉ body) :
    ((s.after limit body).keep limit lf).endLine limit =
      if body = dotLine then ({ s with line := [dot] }, true) else (s.next limit body, false) := by
  have hlength : (body ++ [lf]).length = body.length + 1 := List.length_append
  have hlong : 3 ≤ body.length → body ≠ dotLine := by
    rintro h rfl
    exact absurd h (by decide)
  rw [keep_after hs]
  obtain ⟨raw, line, tooLarge⟩ := s
  cases tooLarge with
  | true =>
    obtain rfl : raw = [] := hs rfl
    show DataState.endLine limit ⟨[], (body ++ [lf]).take 3, true⟩ = _
    by_cases hlen : body.length < 3
    · rw [List.take_of_length_le (by omega), endLine_kept rfl]
      rfl
    · rw [List.take_append_of_le_length (by omega), endLine_cut (fun h ↦
        hbody (List.mem_of_mem_take h)) rfl, if_neg (hlong (by omega))]
      rfl
  | false =>
    by_cases hlen : body.length + 1 ≤ limit + 3
    · have hafter : DataState.after limit ⟨raw, line, false⟩ (body ++ [lf]) =
          ⟨raw, body ++ [lf], false⟩ := by
        show (if (body ++ [lf]).length ≤ limit + 3 then _ else _) = _
        rw [if_pos (by omega)]
      rw [hafter, endLine_kept rfl, DataState.next]
      simp only [Bool.false_eq_true, if_false, Bool.false_or, decide_eq_true_eq]
      split_ifs <;> rfl
    · have hafter : DataState.after limit ⟨raw, line, false⟩ (body ++ [lf]) =
          ⟨[], (body ++ [lf]).take (limit + 3), true⟩ := by
        show (if (body ++ [lf]).length ≤ limit + 3 then _ else _) = _
        rw [if_neg (by omega)]
      have hcontent := @length_contentOf body
      have hunescape := @length_unescape (contentOf body)
      rw [hafter, List.take_append_of_le_length (by omega), endLine_cut (fun h ↦
        hbody (List.mem_of_mem_take h)) rfl, if_neg (hlong (by omega)), DataState.next]
      simp only [Bool.false_or, decide_eq_true_eq]
      rw [if_pos (by omega)]

/-! ### The payload -/

/-- The state behind these lines. -/
def stateOf (limit : ℕ) (before : List Bytes) : DataState :=
  if (payload before).length ≤ limit then { raw := payload before } else { tooLarge := true }

theorem payload_concat {before : List Bytes} :
    payload (before ++ [line]) = payload before ++ (unescape (contentOf line) ++ [lf]) := by
  rw [payload, payload, List.flatMap_append, List.flatMap_singleton]

/-- **One line takes the payload of the lines before to the payload with it.** -/
theorem next_stateOf {before : List Bytes} :
    (stateOf limit before).next limit line = stateOf limit (before ++ [line]) := by
  have hlength : (payload before ++ (unescape (contentOf line) ++ [lf])).length =
      (payload before).length + ((unescape (contentOf line)).length + 1) := by
    rw [List.length_append, List.length_append, List.length_singleton]
  rw [stateOf, stateOf, payload_concat, hlength, DataState.next]
  by_cases hbefore : (payload before).length ≤ limit
  · rw [if_pos hbefore]
    simp only [Bool.false_or, decide_eq_true_eq]
    by_cases hmore : limit < (payload before).length + ((unescape (contentOf line)).length + 1)
    · rw [if_pos hmore, if_neg (Nat.not_le_of_lt hmore)]
    · rw [if_neg hmore, if_pos (Nat.not_lt.1 hmore)]
  · simp only [if_neg hbefore, Bool.true_or, if_true]
    rw [if_neg (by omega)]

/-- The lines before the first one that is a dot and CRLF, and those behind it. -/
def firstDotLine : List Bytes → Option (List Bytes × List Bytes)
  | [] => none
  | line :: lines =>
    if line = dotLine then some ([], lines)
    else (firstDotLine lines).map fun split ↦ (line :: split.1, split.2)

/-- **The loop ends at the first line that is a dot and CRLF**, and the payload is that of the lines
before it. -/
theorem dataLoop_spec (hlines : ∀ line ∈ lines, lf ∉ line) (htail : lf ∉ tail)
    (before : List Bytes) : dataLoop limit (stateOf limit before) (joinLines lines tail) =
      match firstDotLine lines with
      | none => (none, [])
      | some (payloadLines, behind) =>
        (some { stateOf limit (before ++ payloadLines) with line := [dot] },
          joinLines behind tail) := by
  have hs : ∀ before, (stateOf limit before).tooLarge = true → (stateOf limit before).raw = [] := by
    intro before h
    unfold stateOf at h ⊢
    split_ifs at h ⊢
    rfl
  have hafter : ∀ before, (stateOf limit before).after limit [] = stateOf limit before := by
    intro before
    have hnil : ([] : Bytes).length ≤ limit + 3 := Nat.zero_le _
    unfold stateOf DataState.after
    rw [if_pos hnil]
    split_ifs <;> rfl
  induction lines generalizing before with
  | nil =>
    show dataLoop limit (stateOf limit before) tail = (none, [])
    -- a line that never ends
    have hopen : ∀ (body : Bytes) (s : DataState), lf ∉ body → dataLoop limit s body = (none, []) := by
      intro body
      induction body with
      | nil => exact fun s _ ↦ rfl
      | cons byte body ih =>
        intro s h
        have hbyte : byte ≠ lf := by
          rintro rfl
          exact h List.mem_cons_self
        rw [dataLoop, if_neg hbyte]
        exact ih _ fun hmem ↦ h (List.mem_cons_of_mem _ hmem)
    exact hopen tail _ htail
  | cons line lines ih =>
    have hline := hlines line List.mem_cons_self
    rw [joinLines_cons, ← hafter before, dataLoop_after (hs before) hline, List.nil_append,
      endLine_after (hs before) hline, firstDotLine]
    by_cases hdot : line = dotLine
    · rw [if_pos hdot, if_pos hdot]
      dsimp only
      rw [List.append_nil]
    · rw [if_neg hdot, if_neg hdot]
      dsimp only
      rw [next_stateOf, ih (fun line h ↦ hlines line (List.mem_cons_of_mem _ h))]
      cases firstDotLine lines with
      | none => rfl
      | some split =>
        show (some _, _) = (some _, _)
        rw [List.append_assoc]
        rfl

/-- What `read_data` returns for a payload. -/
def payloadResult (maxMessageBytes : ℕ) (bytes : Bytes) : Except Error (Option Bytes) :=
  if bytes.length ≤ inputLimit maxMessageBytes then .ok (some bytes)
  else if inputLimit maxMessageBytes < maxMessageBytes then .error .captureTooLarge
  else .error (.invalidRequest ("message exceeds the " ++ toString maxMessageBytes ++
    "-byte emulator limit"))

theorem readData_spec (maxMessageBytes : ℕ) (stream : Bytes) : readData maxMessageBytes stream =
    match firstDotLine (splitLines stream).1 with
    | none => (.ok none, [])
    | some (payloadLines, behind) => (payloadResult maxMessageBytes (payload payloadLines),
        joinLines behind (splitLines stream).2) := by
  obtain ⟨hstream, hlines, htail⟩ := splitLines_spec stream
  have hloop := @dataLoop_spec _ _ (inputLimit maxMessageBytes) hlines htail []
  have hstart : stateOf (inputLimit maxMessageBytes) [] = {} := if_pos (Nat.zero_le _)
  rw [hstart, ← hstream] at hloop
  rw [readData, hloop]
  cases firstDotLine (splitLines stream).1 with
  | none => rfl
  | some split =>
    dsimp only
    rw [List.nil_append, stateOf, payloadResult]
    by_cases hsize : (payload split.1).length ≤ inputLimit maxMessageBytes
    · rw [if_pos hsize, if_pos hsize]
      rfl
    · rw [if_neg hsize, if_neg hsize]
      simp only [Bool.true_and, decide_eq_true_eq, if_true]
      split_ifs <;> rfl

/-! ### The end of the data -/

/-- The lines before the first one that is a dot and CRLF **and stands at the beginning or behind a
CRLF**, and those behind it. -/
def endOfData : Bool → List Bytes → Option (List Bytes × List Bytes)
  | _, [] => none
  | behindCrlf, line :: lines =>
    if line = dotLine ∧ behindCrlf = true then some ([], lines)
    else (endOfData (EndsCrlf line) lines).map fun split ↦ (line :: split.1, split.2)

/-- **What the end of the data asks for**: what is returned, and where the stream goes on. -/
def Reads (maxMessageBytes : ℕ) (stream : Bytes) : Prop :=
  match endOfData true (splitLines stream).1 with
  | none => readData maxMessageBytes stream = (.ok none, [])
  | some (payloadLines, behind) =>
    (readData maxMessageBytes stream).2 = joinLines behind (splitLines stream).2 ∧
      (readData maxMessageBytes stream).1 = payloadResult maxMessageBytes (payload payloadLines)

/-- The first line that is a dot and CRLF stands at the beginning or behind a CRLF. -/
def DotBehindCrlf (lines : List Bytes) : Prop :=
  ∀ before behind, firstDotLine lines = some (before, behind) → ∀ last ∈ before.getLast?, EndsCrlf last

/-- The end of the data is a dot and CRLF. -/
theorem endOfData_eq_some {behindCrlf : Bool} {before behind : List Bytes}
    (h : endOfData behindCrlf lines = some (before, behind)) : lines = before ++ dotLine :: behind := by
  induction lines generalizing behindCrlf before with
  | nil => cases h
  | cons line lines ih =>
    rw [endOfData] at h
    split_ifs at h with hdot
    · obtain ⟨rfl, rfl⟩ := Prod.mk.inj (Option.some.inj h)
      rw [hdot.1]
      rfl
    · obtain ⟨split, hsplit, heq⟩ := Option.map_eq_some_iff.1 h
      obtain ⟨rfl, rfl⟩ := Prod.mk.inj heq
      rw [List.cons_append, ← ih hsplit]

/-- Whether the lines end behind a CRLF. -/
def behindCrlf (start : Bool) (before : List Bytes) : Bool :=
  match before.getLast? with
  | none => start
  | some last => EndsCrlf last

/-- **The two ends agree, or the end of the data comes later.** -/
theorem endOfData_eq {start : Bool} {before behind : List Bytes}
    (h : firstDotLine lines = some (before, behind)) : endOfData start lines =
      if behindCrlf start before then some (before, behind)
      else (endOfData true behind).map fun split ↦ (before ++ dotLine :: split.1, split.2) := by
  induction lines generalizing before start with
  | nil => cases h
  | cons line lines ih =>
    rw [firstDotLine] at h
    split_ifs at h with hdot
    · obtain ⟨rfl, rfl⟩ := Prod.mk.inj (Option.some.inj h)
      rw [endOfData, show behindCrlf start [] = start from rfl]
      cases start with
      | true => rw [if_pos ⟨hdot, rfl⟩, if_pos rfl]
      | false =>
        rw [if_neg fun h ↦ Bool.false_ne_true h.2, if_neg Bool.false_ne_true, hdot]
        rfl
    · obtain ⟨split, hsplit, heq⟩ := Option.map_eq_some_iff.1 h
      obtain ⟨rfl, rfl⟩ := Prod.mk.inj heq
      have hlast : behindCrlf start (line :: split.1) = behindCrlf (EndsCrlf line) split.1 := by
        unfold behindCrlf
        rw [List.getLast?_cons]
        cases split.1.getLast? <;> rfl
      rw [endOfData, if_neg fun h ↦ hdot h.1, ih hsplit, hlast]
      split_ifs
      · rfl
      · rw [Option.map_map]
        rfl

theorem endOfData_eq_none {start : Bool} (h : firstDotLine lines = none) :
    endOfData start lines = none := by
  induction lines generalizing start with
  | nil => rfl
  | cons line lines ih =>
    rw [firstDotLine] at h
    split_ifs at h with hdot
    rw [endOfData, if_neg fun h ↦ hdot h.1, ih (Option.map_eq_none_iff.1 h)]
    rfl

theorem length_joinLines : (joinLines lines tail).length =
    (lines.map fun line ↦ line.length + 1).sum + tail.length := by
  rw [joinLines, List.length_append, List.length_flatMap]
  simp only [List.length_append, List.length_singleton]

/-- **When reading stops at the end of the data.** -/
theorem reads_iff (maxMessageBytes : ℕ) (stream : Bytes) :
    Reads maxMessageBytes stream ↔ DotBehindCrlf (splitLines stream).1 := by
  have hspec := readData_spec maxMessageBytes stream
  rw [Reads]
  cases hfirst : firstDotLine (splitLines stream).1 with
  | none =>
    rw [hfirst] at hspec
    rw [endOfData_eq_none hfirst]
    refine iff_of_true hspec fun before behind h ↦ ?_
    rw [hfirst] at h
    cases h
  | some split =>
    obtain ⟨before, behind⟩ := split
    rw [hfirst] at hspec
    have hiff : DotBehindCrlf (splitLines stream).1 ↔ behindCrlf true before = true := by
      unfold DotBehindCrlf behindCrlf
      rw [hfirst]
      constructor
      · intro h
        have hlast := h before behind rfl
        cases hgetLast : before.getLast? with
        | none => rfl
        | some last => exact decide_eq_true (hlast last hgetLast)
      · rintro h before' behind' heq last hlast
        obtain ⟨rfl, rfl⟩ := Prod.mk.inj (Option.some.inj heq)
        rw [show before.getLast? = some last from hlast] at h
        exact of_decide_eq_true h
    rw [hiff, endOfData_eq hfirst]
    by_cases hcrlf : behindCrlf true before = true
    · rw [if_pos hcrlf]
      refine iff_of_true ?_ hcrlf
      rw [hspec]
      exact ⟨rfl, rfl⟩
    · rw [if_neg hcrlf]
      refine iff_of_false ?_ hcrlf
      cases hend : endOfData true behind with
      | none =>
        -- the data has no end, but something is returned
        show ¬ readData maxMessageBytes stream = _
        rw [hspec]
        intro h
        have hresult := congrArg Prod.fst h
        dsimp only at hresult
        unfold payloadResult at hresult
        split_ifs at hresult
        cases hresult
      | some split =>
        -- what is left is longer than what is behind the end
        rintro ⟨hrest, -⟩
        rw [hspec] at hrest
        have hlength := congrArg List.length hrest
        rw [@endOfData_eq_some _ _ split.1 split.2 hend] at hlength
        simp only [length_joinLines, List.map_append, List.sum_append, List.map_cons,
          List.sum_cons] at hlength
        omega

/-! ### The early limit -/

variable {S : Store} {message : Message}

/-- What the early limit rejects, the full check rejects too. -/
def EarlyLimitAgrees (S : Store) (maxMessageBytes : ℕ) (message : Message) : Prop :=
  ∀ raw, message.rawMime = some raw →
    payloadResult maxMessageBytes raw = .error .captureTooLarge →
      S.checkMessages [message] [] = .error .captureTooLarge

/-- A recipient has a mailbox of its own, or the texts of the copies for `_all` alone are too much,
unless the early limit is not reached. -/
def Reserved (S : Store) (maxMessageBytes : ℕ) (message : Message) : Prop :=
  maxMessageBytes ≤ rawCaptureLimit ∨ rawBytes message ≤ rawCaptureLimit ∨
    (∃ target ∈ message.targets, target ≠ allMailbox) ∨
      maxCaptureBytes < (message.targets.length + 4) * S.messageBytes message +
        (message.targets.length + 1) * (rawBytes message + 1028)

theorem payloadResult_eq_tooLarge_iff {maxMessageBytes : ℕ} {raw : Bytes} :
    payloadResult maxMessageBytes raw = .error .captureTooLarge ↔
      rawCaptureLimit < maxMessageBytes ∧ rawCaptureLimit < raw.length := by
  have hlimit : inputLimit maxMessageBytes = min maxMessageBytes rawCaptureLimit := rfl
  unfold payloadResult
  constructor
  · intro h
    split_ifs at h with hsize hearly
    · omega
    · cases h
  · rintro ⟨hearly, hsize⟩
    rw [if_neg (by omega), if_pos (by omega)]

/-- Copies for `_all` only. -/
theorem cost_of_all {bytes raw : ℕ} {targets : List String} (h : ∀ t ∈ targets, t = allMailbox) :
    (targets.map (copyCost bytes raw)).sum = targets.length * (bytes + (raw + 1028)) := by
  have hall : copyCost bytes raw allMailbox = bytes + (raw + 1028) := by
    have henvelope : envelopeBytes = 1024 := rfl
    have hname : allMailbox.utf8ByteSize = 4 := by decide
    rw [copyCost, if_neg (not_not.2 rfl)]
    omega
  induction targets with
  | nil => rw [List.map_nil, List.sum_nil, List.length_nil, Nat.zero_mul]
  | cons t targets ih =>
    rw [List.map_cons, List.sum_cons, ih fun t ht ↦ h t (List.mem_cons_of_mem _ ht),
      h t List.mem_cons_self, hall, List.length_cons, Nat.add_mul, Nat.one_mul, Nat.add_comm]

/-- **When the early limit agrees with the full check.** -/
theorem early_limit_iff (hS : Measures S) (maxMessageBytes : ℕ) (hraw : message.rawMime.isSome) :
    EarlyLimitAgrees S maxMessageBytes message ↔ Reserved S maxMessageBytes message := by
  obtain ⟨raw, hraw⟩ := Option.isSome_iff_exists.1 hraw
  have hbytes : rawBytes message = raw.length := by rw [rawBytes, hraw]; rfl
  have hjson : 2 * rawBytes message ≤ S.messageBytes message := by
    rw [hS.message]
    exact size_payload_le
  have hlast : copyCost (S.messageBytes message) (rawBytes message) allMailbox =
      S.messageBytes message + (rawBytes message + 1028) := by
    have h := @cost_of_all (S.messageBytes message) (rawBytes message)
      [allMailbox] fun t ht ↦ List.mem_singleton.1 ht
    rw [List.map_singleton, List.sum_singleton, List.length_singleton, Nat.one_mul] at h
    exact h
  have hcheck : S.checkMessages [message] [] = .error .captureTooLarge ↔
      maxCaptureBytes < messageCost (S.messageBytes message) message := by
    rw [checkMessages_eq, Store.cost]
    simp only [List.map_cons, List.map_nil, List.sum_cons, List.sum_nil, Nat.add_zero]
    split_ifs with hle
    · exact iff_of_false (fun h ↦ by cases h) (by omega)
    · exact iff_of_true rfl (by omega)
  have hagrees : EarlyLimitAgrees S maxMessageBytes message ↔
      (rawCaptureLimit < maxMessageBytes ∧ rawCaptureLimit < rawBytes message →
        maxCaptureBytes < messageCost (S.messageBytes message) message) := by
    rw [EarlyLimitAgrees, hcheck, hbytes]
    constructor
    · intro h hlimit
      exact h raw hraw (payloadResult_eq_tooLarge_iff.2 hlimit)
    · intro h raw' hraw' hresult
      obtain rfl := Option.some.inj (hraw.symm.trans hraw')
      exact h (payloadResult_eq_tooLarge_iff.1 hresult)
  have hcost : messageCost (S.messageBytes message) message = 3 * S.messageBytes message +
      ((message.targets.map (copyCost (S.messageBytes message) (rawBytes message))).sum +
        (S.messageBytes message + (rawBytes message + 1028))) := by
    rw [messageCost, List.map_append, List.sum_append, List.map_singleton, List.sum_singleton, hlast]
  rw [hagrees, Reserved, hcost]
  by_cases hown : ∃ target ∈ message.targets, target ≠ allMailbox
  · -- six texts and two payloads
    refine iff_of_true (fun hlimit ↦ ?_) (.inr (.inr (.inl hown)))
    obtain ⟨target, htarget, hne⟩ := hown
    have hone := List.single_le_sum (fun x _ ↦ Nat.zero_le x) _
      (List.mem_map_of_mem (f := copyCost (S.messageBytes message) (rawBytes message)) htarget)
    rw [copyCost, if_pos hne] at hone
    have hlimit' : rawCaptureLimit = 4793490 := rfl
    have hmax : maxCaptureBytes = 67108864 := rfl
    omega
  · have hall : ∀ t ∈ message.targets, t = allMailbox := fun t ht ↦ by
      by_contra hne
      exact hown ⟨t, ht, hne⟩
    rw [cost_of_all hall]
    have hsum : 3 * S.messageBytes message + (message.targets.length *
        (S.messageBytes message + (rawBytes message + 1028)) +
          (S.messageBytes message + (rawBytes message + 1028))) =
        (message.targets.length + 4) * S.messageBytes message +
          (message.targets.length + 1) * (rawBytes message + 1028) := by ring
    rw [hsum, or_iff_right hown]
    constructor
    · intro h
      by_contra hnot
      simp only [not_or, not_le, not_lt] at hnot
      exact absurd (h ⟨hnot.1, hnot.2.1⟩) (Nat.not_lt_of_le hnot.2.2)
    · rintro (h | h | h) ⟨hmax, hsize⟩
      · exact absurd h (Nat.not_le_of_lt hmax)
      · exact absurd h (Nat.not_le_of_lt hsize)
      · exact h

/-- **When reading data meets its protocol**: it stops at the end of the data, exactly if no line
feed alone comes before the first dot and CRLF, and its early limit agrees with the full check,
exactly if there is a recipient beside `_all`. -/
theorem read_data_iff (hS : Measures S) (maxMessageBytes : ℕ) :
    (∀ stream, Reads maxMessageBytes stream ↔ DotBehindCrlf (splitLines stream).1) ∧
      ∀ message : Message, message.rawMime.isSome →
        (EarlyLimitAgrees S maxMessageBytes message ↔ Reserved S maxMessageBytes message) :=
  ⟨reads_iff maxMessageBytes, fun _ hraw ↦ early_limit_iff hS maxMessageBytes hraw⟩

/-- The data of a client that writes lines as the protocol asks: `a`, and a line of two dots. -/
theorem plain_data : Reads 100 [97, 13, 10, 46, 46, 13, 10, 46, 13, 10] :=
  ((read_data_iff (S := measuringStore) ⟨fun _ ↦ rfl, fun _ ↦ rfl⟩ 100).1 _).2 (by
    intro before behind h last hlast
    have hfirst : firstDotLine (splitLines [97, 13, 10, 46, 46, 13, 10, 46, 13, 10]).1 =
        some ([[97, 13], [46, 46, 13]], []) := by decide
    obtain ⟨rfl, rfl⟩ := Prod.mk.inj (Option.some.inj (hfirst.symm.trans h))
    rw [← Option.some.inj (show some [46, 46, 13] = some last from hlast)]
    rfl)

/-- A dot and CRLF behind a line feed alone ends the message: what follows, `b`, is read as a
command. -/
theorem smuggled_data :
    readData 100 [97, 10, 46, 13, 10, 98, 13, 10, 46, 13, 10] =
      (.ok (some [97, 10]), [98, 13, 10, 46, 13, 10]) ∧
    endOfData true (splitLines [97, 10, 46, 13, 10, 98, 13, 10, 46, 13, 10]).1 =
      some ([[97], [46, 13], [98, 13]], []) ∧
    ¬ Reads 100 [97, 10, 46, 13, 10, 98, 13, 10, 46, 13, 10] := by
  have hread : readData 100 [97, 10, 46, 13, 10, 98, 13, 10, 46, 13, 10] =
      (.ok (some [97, 10]), [98, 13, 10, 46, 13, 10]) := by decide
  have hend : endOfData true (splitLines [97, 10, 46, 13, 10, 98, 13, 10, 46, 13, 10]).1 =
      some ([[97], [46, 13], [98, 13]], []) := by decide
  refine ⟨hread, hend, ?_⟩
  rw [Reads, hend, hread]
  rintro ⟨h, -⟩
  exact absurd h (by decide)

end Sqrzl.Mail
