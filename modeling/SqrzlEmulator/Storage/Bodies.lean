import SqrzlEmulator.Data.Results
import SqrzlEmulator.Storage.Scratch
import SqrzlEmulator.Storage.VersionDelete

/-!
# Request bodies, in memory and on disk

The server takes the body of a request in one of two ways. `collect_body` keeps it in memory.
`spool_body_to_disk` writes it to a scratch file while it arrives, so that a large object is never
in memory as a whole, and hands on the file with its digests. Which of the two it is, is decided
from the head of the request, **so nothing may depend on it**.

* What `collect_body` accepts with a limit is what it accepts without one, if it is not too long
  (`collectBody_some_eq_ok_iff`); in which frames the body arrives does not matter.
* Spooling answers what collecting answers, or with a failure of the disk, and it changes nothing
  but its own file, which is there exactly if it has succeeded (`spooling_refines_collecting`). The
  result of a run of spooling is found by following the frames with both (`wp_spoolFrame`).
* An object that is written from the spooled file leaves the history that the buffered one leaves,
  and the write succeeds with the one exactly if it does with the other
  (`spooled_object_is_buffered_object`).
-/

namespace Sqrzl.Staging

open Prog

/-! ### `collect_body` -/

/-- What `collect_body` does with a frame, given the data before. -/
def collectFrame (maxRequestBytes : ℕ) (bytes : Bytes) : Frame → Except CollectBodyError Bytes
  | .failed message => .error (.bodyRead message)
  | .trailers names => do
    rejectS3ChecksumTrailers names
    return bytes
  | .data data =>
    let nextLen := min (bytes.length + data.length) (2 ^ 64 - 1)
    if maxRequestBytes < nextLen then .error (.bodyTooLarge maxRequestBytes)
    else .ok (bytes ++ data)

/-- `BodyExt::collect`: the data of all frames, and the names of all trailers. -/
def collectFrames : List Frame → Except CollectBodyError (Bytes × List String)
  | [] => .ok ([], [])
  | .failed message :: _ => .error (.bodyRead message)
  | .trailers names :: frames => do
    let (data, trailers) ← collectFrames frames
    return (data, names ++ trailers)
  | .data piece :: frames => do
    let (data, trailers) ← collectFrames frames
    return (piece ++ data, trailers)

/-- `collect_body` -/
def collectBody (frames : List Frame) : Option ℕ → Except CollectBodyError Bytes
  | none => do
    let (data, trailers) ← collectFrames frames
    rejectS3ChecksumTrailers trailers
    return data
  | some maxRequestBytes => frames.foldlM (collectFrame maxRequestBytes) []

/-! ### What is accepted -/

/-- The data of a frame. -/
def Frame.bytes : Frame → Bytes
  | .data piece => piece
  | _ => []

/-- The names of the trailers of a frame. -/
def Frame.trailerNames : Frame → List String
  | .trailers names => names
  | _ => []

/-- A frame that has arrived, and without the trailer of an S3 checksum. -/
def Frame.Accepted : Frame → Prop
  | .failed _ => False
  | .trailers names => rejectS3ChecksumTrailers names = .ok ()
  | .data _ => True

/-- The data of a body. -/
def bodyBytes (frames : List Frame) : Bytes := frames.flatMap Frame.bytes

/-- A length as it is counted. -/
def counted (bytes : Bytes) : ℕ := min bytes.length (2 ^ 64 - 1)

theorem counted_append (bytes data : Bytes) :
    counted (bytes ++ data) = min (counted bytes + data.length) (2 ^ 64 - 1) := by
  simp only [counted, List.length_append]
  omega

theorem counted_le_append (bytes data : Bytes) : counted bytes ≤ counted (bytes ++ data) := by
  simp only [counted, List.length_append]
  omega

section Collect

variable {frames : List Frame} {max : ℕ}

/-- A frame is taken exactly if it is accepted and its data still fit. -/
theorem collectFrame_eq_ok_iff {before after : Bytes} {frame : Frame}
    (hbefore : counted before ≤ max) :
    collectFrame max before frame = .ok after ↔
      frame.Accepted ∧ after = before ++ frame.bytes ∧ counted after ≤ max := by
  cases frame with
  | failed message => exact ⟨fun h ↦ (by cases h), fun h ↦ h.1.elim⟩
  | trailers names =>
    simp only [collectFrame, Frame.Accepted, Frame.bytes, List.append_nil]
    cases hnames : rejectS3ChecksumTrailers names with
    | error e => exact ⟨fun h ↦ (by cases h), fun h ↦ by cases h.1⟩
    | ok u =>
      show Except.ok before = Except.ok after ↔ _
      constructor
      · intro h
        obtain rfl := Except.ok.inj h
        exact ⟨rfl, rfl, hbefore⟩
      · rintro ⟨-, rfl, -⟩
        rfl
  | data piece =>
    simp only [collectFrame, Frame.Accepted, Frame.bytes, true_and]
    have hcount : min (before.length + piece.length) (2 ^ 64 - 1) = counted (before ++ piece) := by
      rw [counted, List.length_append]
    rw [hcount]
    by_cases hlarge : max < counted (before ++ piece)
    · rw [if_pos hlarge]
      refine ⟨fun h ↦ (by cases h), fun h ↦ ?_⟩
      obtain ⟨rfl, hle⟩ := h
      omega
    · rw [if_neg hlarge]
      constructor
      · intro h
        obtain rfl := Except.ok.inj h
        exact ⟨rfl, by omega⟩
      · rintro ⟨rfl, -⟩
        rfl

/-- A body is taken piece by piece exactly if it is accepted as a whole. -/
theorem foldlM_collectFrame_eq_ok_iff {before after : Bytes} (hbefore : counted before ≤ max) :
    frames.foldlM (collectFrame max) before = .ok after ↔
      (∀ frame ∈ frames, frame.Accepted) ∧ after = before ++ bodyBytes frames ∧
        counted after ≤ max := by
  induction frames generalizing before with
  | nil =>
    show Except.ok before = Except.ok after ↔ _
    simp only [bodyBytes, List.flatMap_nil, List.append_nil, List.not_mem_nil, false_implies,
      implies_true, true_and, Except.ok.injEq]
    constructor
    · rintro rfl
      exact ⟨rfl, hbefore⟩
    · rintro ⟨rfl, -⟩
      rfl
  | cons frame frames ih =>
    have hassoc : before ++ bodyBytes (frame :: frames) =
        before ++ frame.bytes ++ bodyBytes frames := by
      rw [bodyBytes, List.flatMap_cons, List.append_assoc, bodyBytes]
    rw [List.foldlM_cons, hassoc, List.forall_mem_cons]
    cases hstep : collectFrame max before frame with
    | error e =>
      refine ⟨fun h ↦ (by cases h), fun h ↦ ?_⟩
      obtain ⟨⟨haccepted, -⟩, rfl, hle⟩ := h
      have hfit := (counted_le_append (before ++ frame.bytes) (bodyBytes frames)).trans hle
      have hok := (collectFrame_eq_ok_iff hbefore).2 ⟨haccepted, rfl, hfit⟩
      rw [hstep] at hok
      cases hok
    | ok middle =>
      obtain ⟨haccepted, rfl, hfit⟩ := (collectFrame_eq_ok_iff hbefore).1 hstep
      show frames.foldlM (collectFrame max) (before ++ frame.bytes) = .ok after ↔ _
      rw [ih hfit]
      exact ⟨fun h ↦ ⟨⟨haccepted, h.1⟩, h.2⟩, fun h ↦ ⟨h.1.2, h.2⟩⟩

/-- The name of the trailer of an S3 checksum. -/
def isChecksumTrailer (name : String) : Bool := "x-amz-checksum-".toList.isPrefixOf name.toList

theorem rejectS3ChecksumTrailers_eq_ok_iff {names : List String} :
    rejectS3ChecksumTrailers names = .ok () ↔ ∀ name ∈ names, ¬ isChecksumTrailer name := by
  have hdef : rejectS3ChecksumTrailers names = if names.any isChecksumTrailer then
      .error (.bodyRead "S3 checksum trailers are unsupported") else .ok () := rfl
  rw [hdef, ← List.any_eq_false]
  cases names.any isChecksumTrailer with
  | true => exact ⟨fun h ↦ (by cases h), fun h ↦ (by cases h)⟩
  | false => exact ⟨fun _ ↦ rfl, fun _ ↦ rfl⟩

/-- A frame that has arrived. -/
def Frame.Arrived (frame : Frame) : Prop := ∀ message, frame ≠ .failed message

theorem collectFrames_cons {frame : Frame} (h : frame.Arrived) :
    collectFrames (frame :: frames) = (collectFrames frames).map fun collected ↦
      (frame.bytes ++ collected.1, frame.trailerNames ++ collected.2) := by
  cases frame with
  | failed message => exact absurd rfl (h message)
  | trailers names => rw [collectFrames]; cases collectFrames frames <;> rfl
  | data piece => rw [collectFrames]; cases collectFrames frames <;> rfl

/-- Reading all frames succeeds exactly if none has failed. -/
theorem collectFrames_eq_ok_iff {collected : Bytes × List String} :
    collectFrames frames = .ok collected ↔ (∀ frame ∈ frames, frame.Arrived) ∧
      collected = (bodyBytes frames, frames.flatMap Frame.trailerNames) := by
  induction frames generalizing collected with
  | nil =>
    show Except.ok ([], []) = Except.ok collected ↔ _
    rw [Except.ok.injEq, eq_comm]
    exact ⟨fun h ↦ ⟨fun _ hmem ↦ absurd hmem (List.not_mem_nil), h⟩, And.right⟩
  | cons frame frames ih =>
    rw [List.forall_mem_cons, bodyBytes, List.flatMap_cons, List.flatMap_cons, ← bodyBytes]
    by_cases harrived : frame.Arrived
    · rw [collectFrames_cons harrived]
      constructor
      · intro h
        obtain ⟨rest, hrest, rfl⟩ := Results.map_eq_ok_iff.1 h
        obtain ⟨hall, rfl⟩ := ih.1 hrest
        exact ⟨⟨harrived, hall⟩, rfl⟩
      · rintro ⟨⟨-, hall⟩, rfl⟩
        rw [ih.2 ⟨hall, rfl⟩]
        rfl
    · obtain ⟨message, hmessage⟩ := not_forall_not.1 harrived
      subst hmessage
      exact ⟨fun h ↦ (by cases h), fun h ↦ absurd h.1.1 harrived⟩

theorem Frame.accepted_iff {frame : Frame} :
    frame.Accepted ↔ frame.Arrived ∧ ∀ name ∈ frame.trailerNames, ¬ isChecksumTrailer name := by
  cases frame with
  | failed message => exact ⟨False.elim, fun h ↦ absurd rfl (h.1 message)⟩
  | trailers names =>
    exact rejectS3ChecksumTrailers_eq_ok_iff.trans ⟨fun h ↦ ⟨fun _ heq ↦ (by cases heq), h⟩, And.right⟩
  | data piece =>
    refine ⟨fun _ ↦ ⟨fun _ heq ↦ (by cases heq), fun _ h ↦ ?_⟩, fun _ ↦ trivial⟩
    exact absurd h (List.not_mem_nil)

/-- **What `collect_body` accepts without a limit.** -/
theorem collectBody_none_eq_ok_iff {data : Bytes} :
    collectBody frames none = .ok data ↔
      (∀ frame ∈ frames, frame.Accepted) ∧ data = bodyBytes frames := by
  rw [collectBody, Results.bind_eq_ok_iff]
  constructor
  · rintro ⟨collected, hcollected, h⟩
    obtain ⟨harrived, rfl⟩ := collectFrames_eq_ok_iff.1 hcollected
    obtain ⟨u, hu, hdata⟩ := Results.bind_eq_ok_iff.1 h
    have hclean := rejectS3ChecksumTrailers_eq_ok_iff.1 hu
    refine ⟨fun frame hframe ↦ Frame.accepted_iff.2 ⟨harrived frame hframe, fun name hname ↦ ?_⟩,
      (Except.ok.inj hdata).symm⟩
    exact hclean name (List.mem_flatMap.2 ⟨frame, hframe, hname⟩)
  · rintro ⟨haccepted, rfl⟩
    refine ⟨_, collectFrames_eq_ok_iff.2 ⟨fun frame hframe ↦ ?_, rfl⟩,
      Results.bind_eq_ok_iff.2 ⟨(), rejectS3ChecksumTrailers_eq_ok_iff.2 fun name hname ↦ ?_, rfl⟩⟩
    · exact (Frame.accepted_iff.1 (haccepted frame hframe)).1
    · obtain ⟨frame, hframe, hmem⟩ := List.mem_flatMap.1 hname
      exact (Frame.accepted_iff.1 (haccepted frame hframe)).2 name hmem

/-- **What `collect_body` accepts with a limit** is what it accepts without, if it is not too
long. -/
theorem collectBody_some_eq_ok_iff {data : Bytes} :
    collectBody frames (some max) = .ok data ↔
      collectBody frames none = .ok data ∧ counted data ≤ max := by
  have hempty : counted [] ≤ max := Nat.zero_le max
  rw [collectBody_none_eq_ok_iff, and_assoc]
  exact foldlM_collectFrame_eq_ok_iff hempty

end Collect

/-! ### Spooling -/

/-- The failures of the disk while a body is spooled. -/
def spoolFailures : List CollectBodyError :=
  [.bodyRead "Failed to create spool dir", .bodyRead "Failed to create spool file",
    .bodyRead "Failed to write spool file", .bodyRead "Failed to flush spool file",
    .bodyRead "Failed to sync spool file"]

section Spool

variable {uuid path : String} {frames : List Frame} {max : ℕ} {s : Store}

/-- The payload of data that are in a file. -/
def payloadOf (path : String) (data : Bytes) : SpooledPayload where
  path := path
  len := counted data
  digested := data

/-- **A frame is spooled as it is collected**, unless the disk fails. -/
theorem wp_spoolFrame {I : Store → Prop} {Q : Except CollectBodyError (ℕ × Bytes) → Store → Prop}
    {data : Bytes} {frame : Frame} (hI : ∀ d, I (writeFile path (some d) s))
    (hok : ∀ after, collectFrame max data frame = .ok after →
      Q (.ok (counted after, after)) (writeFile path (some after) s))
    (herr : ∀ e d, collectFrame max data frame = .error e ∨ e ∈ spoolFailures →
      Q (.error e) (writeFile path (some d) s)) :
    wp I (spoolFrame path max (counted data, data) frame) Q (writeFile path (some data) s) := by
  cases frame with
  | failed message => exact ⟨hI data, herr _ data (.inl rfl)⟩
  | trailers names =>
    refine wp_ofExcept_bind (hI data) (fun e he ↦ herr e data (.inl ?_)) fun u hu ↦ ?_
    · rw [collectFrame, he]
      rfl
    · refine ⟨hI data, hok data ?_⟩
      rw [collectFrame, hu]
      rfl
  | data piece =>
    have hcount : min (data.length + piece.length) (2 ^ 64 - 1) = counted (data ++ piece) := by
      rw [counted, List.length_append]
    have hframe : collectFrame max data (.data piece) =
        if max < counted (data ++ piece) then .error (.bodyTooLarge max)
        else .ok (data ++ piece) := by
      rw [collectFrame, hcount]
    rw [spoolFrame, ← counted_append]
    by_cases hlarge : max < counted (data ++ piece)
    · rw [if_pos hlarge] at hframe ⊢
      exact ⟨hI data, herr _ data (.inl hframe)⟩
    · rw [if_neg hlarge] at hframe ⊢
      refine wp_bind.2 (wp_copyInto hI ⟨hI _, hok _ hframe⟩ fun d ↦ ?_)
      exact herr _ d (.inr (by simp [spoolFailures]))

/-- **Frames are spooled as they are collected**, unless the disk fails. -/
theorem wp_foldEach_spoolFrame {I : Store → Prop}
    {Q : Except CollectBodyError (ℕ × Bytes) → Store → Prop}
    (hI : ∀ d, I (writeFile path (some d) s))
    (hok : ∀ data, collectBody frames (some max) = .ok data →
      Q (.ok (counted data, data)) (writeFile path (some data) s))
    (herr : ∀ e d, collectBody frames (some max) = .error e ∨ e ∈ spoolFailures →
      Q (.error e) (writeFile path (some d) s)) :
    wp I (foldEach frames (0, []) (spoolFrame path max)) Q (writeFile path (some []) s) := by
  refine wp_foldEach (J := fun rest before t ↦ ∃ data, before = (counted data, data) ∧
      t = writeFile path (some data) s ∧
      rest.foldlM (collectFrame max) data = collectBody frames (some max))
    (fun frame rest before t hJ ↦ ?_) (fun before t hJ ↦ ?_) frames ⟨[], rfl, rfl, rfl⟩
  · obtain ⟨data, rfl, rfl, hrest⟩ := hJ
    rw [List.foldlM_cons] at hrest
    refine wp_spoolFrame hI (fun after hafter ↦ ?_) fun e d he ↦ herr e d (he.imp_left fun he ↦ ?_)
    · rw [hafter] at hrest
      exact ⟨after, rfl, rfl, hrest⟩
    · rw [← hrest, he]
      rfl
  · obtain ⟨data, rfl, rfl, hrest⟩ := hJ
    exact ⟨hI data, hok data hrest.symm⟩

/-- What spooling may answer, when it starts in `s`. -/
def Spooled (path : String) (frames : List Frame) (max : ℕ) (s : Store) :
    Except CollectBodyError SpooledPayload → Store → Prop
  | .ok payload, t => ∃ data, collectBody frames (some max) = .ok data ∧
      payload = payloadOf path data ∧ t = writeFile path (some data) s
  | .error e, t => (collectBody frames (some max) = .error e ∨ e ∈ spoolFailures) ∧ t = s

/-- What a kill may leave. -/
def SpoolLeft (path : String) (s t : Store) : Prop :=
  t = s ∨ ∃ data, t = writeFile path (some data) s

/-- **A spooled body is a collected one.** Spooling answers as collecting does, or with a failure of
the disk. When it answers with a payload, the body is in the file and nothing else has changed, and
otherwise nothing has changed. -/
theorem wp_spoolBodyToDisk (hs : s.payloads[spoolPath uuid]? = none) :
    wp (SpoolLeft (spoolPath uuid) s) (spoolBodyToDisk uuid frames max)
      (Spooled (spoolPath uuid) frames max s) s := by
  have hremove : ∀ data,
      writeFile (spoolPath uuid) none (writeFile (spoolPath uuid) data s) = s := by
    intro data
    rw [writeFile_writeFile, writeFile, Table.set_eq_self _ hs]
  have hnone : writeFile (spoolPath uuid) none s = s := by
    rw [writeFile, Table.set_eq_self _ hs]
  have hleft : ∀ data, SpoolLeft (spoolPath uuid) s (writeFile (spoolPath uuid) (some data) s) :=
    fun data ↦ .inr ⟨data, rfl⟩
  have hclean : ∀ e data, collectBody frames (some max) = .error e ∨ e ∈ spoolFailures →
      wp (SpoolLeft (spoolPath uuid) s)
        (removeScratch (spoolPath uuid) : Prog Event CollectBodyError Store Unit)
        (fun _ t ↦ SpoolLeft (spoolPath uuid) s t ∧
          Spooled (spoolPath uuid) frames max s (.error e) t)
        (writeFile (spoolPath uuid) (some data) s) := by
    intro e data he
    refine wp_modify.2 ⟨hleft data, ?_⟩
    rw [hremove]
    exact ⟨.inl rfl, .inl rfl, he, rfl⟩
  rw [spoolBodyToDisk]
  refine wp_fileCall_bind (.inl rfl) (fun t ht ↦ ?_) ⟨.inr (by simp [spoolFailures]), rfl⟩
  obtain rfl := Option.some.inj ht
  rw [wp_onError, spoolFrames]
  refine wp_fileCall_bind (.inl rfl) (fun t ht ↦ ?_) ?_
  · obtain rfl := Option.some.inj ht
    refine wp_bind.2 (wp_foldEach_spoolFrame hleft (fun data hdata ↦ ?_) hclean)
    refine wp_fileCall_bind (hleft data) (fun t ht ↦ ?_)
      (hclean _ data (.inr (by simp [spoolFailures])))
    obtain rfl := Option.some.inj ht
    refine wp_fileCall_bind (hleft data) (fun t ht ↦ ?_)
      (hclean _ data (.inr (by simp [spoolFailures])))
    obtain rfl := Option.some.inj ht
    exact ⟨hleft data, hleft data, data, hdata, rfl, rfl⟩
  · refine wp_modify.2 ⟨.inl rfl, ?_⟩
    rw [hnone]
    exact ⟨.inl rfl, .inl rfl, .inr (by simp [spoolFailures]), rfl⟩

/-! ### Runs in which the disk does not fail -/

theorem returns_spoolFrame {data after : Bytes} {frame : Frame}
    (h : collectFrame max data frame = .ok after) :
    (spoolFrame path max (counted data, data) frame).Returns (writeFile path (some data) s)
      (.ok (counted after, after)) (writeFile path (some after) s) := by
  cases frame with
  | failed message => cases h
  | trailers names =>
    obtain ⟨u, hu, hafter⟩ := Results.bind_eq_ok_iff.1 h
    obtain rfl := Except.ok.inj hafter
    rw [spoolFrame, hu]
    exact ⟨_, .ret _ _⟩
  | data piece =>
    have hcount : min (data.length + piece.length) (2 ^ 64 - 1) = counted (data ++ piece) := by
      rw [counted, List.length_append]
    rw [collectFrame, hcount] at h
    rw [spoolFrame, ← counted_append]
    by_cases hlarge : max < counted (data ++ piece)
    · rw [if_pos hlarge] at h
      cases h
    · rw [if_neg hlarge] at h
      obtain rfl := Except.ok.inj h
      rw [if_neg hlarge]
      exact (returns_copyInto data piece).bind ⟨_, .ret _ _⟩

theorem returns_spoolFrame_error {data : Bytes} {frame : Frame} {e : CollectBodyError}
    (h : collectFrame max data frame = .error e) :
    (spoolFrame path max (counted data, data) frame).Returns (writeFile path (some data) s)
      (.error e) (writeFile path (some data) s) := by
  cases frame with
  | failed message =>
    obtain rfl := Except.error.inj h
    exact ⟨_, .fail _ _⟩
  | trailers names =>
    rw [spoolFrame]
    cases hnames : rejectS3ChecksumTrailers names with
    | ok u =>
      rw [collectFrame, hnames] at h
      cases h
    | error e' =>
      rw [collectFrame, hnames] at h
      obtain rfl := Except.error.inj h
      exact ⟨_, .fail _ _⟩
  | data piece =>
    have hcount : min (data.length + piece.length) (2 ^ 64 - 1) = counted (data ++ piece) := by
      rw [counted, List.length_append]
    rw [collectFrame, hcount] at h
    rw [spoolFrame, ← counted_append]
    by_cases hlarge : max < counted (data ++ piece)
    · rw [if_pos hlarge] at h ⊢
      obtain rfl := Except.error.inj h
      exact ⟨_, .fail _ _⟩
    · rw [if_neg hlarge] at h
      cases h

/-- A disk that does not fail gives what collecting gives. -/
theorem returns_foldEach_spoolFrame {data : Bytes} :
    (∀ body, frames.foldlM (collectFrame max) data = .ok body →
      (foldEach frames (counted data, data) (spoolFrame path max)).Returns
        (writeFile path (some data) s) (.ok (counted body, body))
        (writeFile path (some body) s)) ∧
    ∀ e, frames.foldlM (collectFrame max) data = .error e → ∃ left,
      (foldEach frames (counted data, data) (spoolFrame path max)).Returns
        (writeFile path (some data) s) (.error e) (writeFile path (some left) s) := by
  induction frames generalizing data with
  | nil =>
    refine ⟨fun body h ↦ ?_, fun e h ↦ (by cases h)⟩
    obtain rfl := Except.ok.inj h
    exact ⟨_, .ret _ _⟩
  | cons frame frames ih =>
    rw [List.foldlM_cons]
    cases hframe : collectFrame max data frame with
    | error e =>
      refine ⟨fun body h ↦ (by cases h), fun e' h ↦ ?_⟩
      obtain rfl := Except.error.inj h
      exact ⟨data, (returns_spoolFrame_error hframe).bind_error⟩
    | ok after =>
      refine ⟨fun body h ↦ (returns_spoolFrame hframe).bind (ih.1 body h), fun e h ↦ ?_⟩
      obtain ⟨left, hleft⟩ := ih.2 e h
      exact ⟨left, (returns_spoolFrame hframe).bind hleft⟩

/-- **The disk need not fail**: what collecting gives, spooling can give. -/
theorem exists_returns_spoolBodyToDisk (uuid : String) (frames : List Frame) (max : ℕ) (s : Store) :
    ∃ t, (spoolBodyToDisk uuid frames max).Returns s
      ((collectBody frames (some max)).map (payloadOf (spoolPath uuid))) t := by
  have hframes := @returns_foldEach_spoolFrame (spoolPath uuid) frames max s []
  have hcreate : (fileCall (.bodyRead "Failed to create spool file")
      (some ∘ writeFile (spoolPath uuid) (some [])) :
      Prog Event CollectBodyError Store Unit).Returns s (.ok ())
      (writeFile (spoolPath uuid) (some []) s) := returns_fileCall rfl
  rw [spoolBodyToDisk]
  cases hbody : collectBody frames (some max) with
  | ok body =>
    refine ⟨writeFile (spoolPath uuid) (some body) s, (returns_fileCall rfl).bind ?_⟩
    refine Returns.onError ?_ _
    rw [spoolFrames]
    refine hcreate.bind ?_
    refine (hframes.1 body hbody).bind ?_
    exact (returns_fileCall rfl).bind ((returns_fileCall rfl).bind ⟨_, .ret _ _⟩)
  | error e =>
    obtain ⟨left, hleft⟩ := hframes.2 e hbody
    refine ⟨writeFile (spoolPath uuid) none s, (returns_fileCall rfl).bind ?_⟩
    have hrun : (spoolFrames frames max (spoolPath uuid)).Returns s (.error e)
        (writeFile (spoolPath uuid) (some left) s) := by
      rw [spoolFrames]
      refine hcreate.bind ?_
      exact hleft.bind_error
    refine hrun.onError_error (r := .ok ()) ?_
    rw [← writeFile_writeFile (spoolPath uuid) (some left) none]
    exact ⟨_, .step rfl (.ret _ _)⟩

/-- **Spooling refines collecting.** -/
theorem spooling_refines_collecting (uuid : String) (frames : List Frame) (max : ℕ) (s : Store)
    (hs : s.payloads[spoolPath uuid]? = none) :
    (∀ r t, (spoolBodyToDisk uuid frames max).Returns s r t →
      Spooled (spoolPath uuid) frames max s r t) ∧
    (∃ t, (spoolBodyToDisk uuid frames max).Returns s
      ((collectBody frames (some max)).map (payloadOf (spoolPath uuid))) t) ∧
    (∀ t, (spoolBodyToDisk uuid frames max).Stops s t → SpoolLeft (spoolPath uuid) s t) ∧
    ∀ data, collectBody frames (some max) = .ok data ↔
      collectBody frames none = .ok data ∧ counted data ≤ max :=
  ⟨fun _ _ h ↦ h.of_wp (wp_spoolBodyToDisk hs), exists_returns_spoolBodyToDisk uuid frames max s,
    fun _ h ↦ h.of_wp (wp_spoolBodyToDisk hs), fun _ ↦ collectBody_some_eq_ok_iff⟩

end Spool

/-- A body of two frames is in the file when it has been spooled. -/
theorem two_frames_spooled : ∃ t,
    (spoolBodyToDisk "u" [.data [1], .data [2]] 2).Returns {}
      (.ok (payloadOf (spoolPath "u") [1, 2])) t ∧
    t = writeFile (spoolPath "u") (some [1, 2]) {} := by
  obtain ⟨hall, ⟨t, ht⟩, -⟩ := spooling_refines_collecting "u" [.data [1], .data [2]] 2 {}
    Std.ExtTreeMap.getElem?_empty
  obtain ⟨data, hdata, -, hfile⟩ := hall _ t ht
  obtain rfl : [1, 2] = data := Except.ok.inj hdata
  exact ⟨t, ht, hfile⟩

/-! ### The object that is written -/

section Stored

variable {E : Env} {b : String} {key : Text} {s : Store} {path : String} {data : Bytes}

/-- A file outside of the buckets does not matter to a key. -/
theorem keeps_writeFile {H : History} {file : Option Bytes}
    (h : Keeps E b key ((Store.bucket E b).get s) H) :
    Keeps E b key ((Store.bucket E b).get (writeFile path file s)) H :=
  h.congr id id le_rfl

/-- **A streamed write leaves what a buffered one leaves.** -/
theorem streamed_alike {o : Object} {H : History} {r r' : Except Error Bool} {u u' : Store}
    (hfree : s.objectLocks.cells = ∅) (hbucket : ((Store.bucket E b).get s).dir.isSome)
    (hkeeps : Keeps E b key ((Store.bucket E b).get s) H) (hkey : o.key = key)
    (hstreamed : ((ObjectCall.current (.putObjectStreamed o path)).run E b key).Returns
      (writeFile path (some data) s) r u)
    (hbuffered : ((ObjectCall.current (.putObject { o with data := data })).run E b key).Returns
      s r' u') :
    r.isOk = r'.isOk ∧ ∃ H', Keeps E b key ((Store.bucket E b).get u) H' ∧
      Keeps E b key ((Store.bucket E b).get u') H' := by
  have hnamed : (ObjectCall.current (.putObjectStreamed o path)).Named key := by
    intro o' ho'
    obtain rfl := Option.some.inj ho'
    exact hkey
  have hnamed' : (ObjectCall.current (.putObject { o with data := data })).Named key := by
    intro o' ho'
    obtain rfl := Option.some.inj ho'
    exact hkey
  have hfree' : (writeFile path (some data) s).objectLocks.cells = ∅ := hfree
  have hbucket' : ((Store.bucket E b).get (writeFile path (some data) s)).dir.isSome := hbucket
  obtain ⟨-, ⟨H₁, hH₁, hcondition₁, heffect₁⟩, -, -⟩ :=
    ObjectCall.returns_run hfree' hbucket' (keeps_writeFile hkeeps) hnamed hstreamed
  obtain ⟨-, ⟨H₂, hH₂, hcondition₂, heffect₂⟩, -, -⟩ :=
    ObjectCall.returns_run hfree hbucket hkeeps hnamed' hbuffered
  have hbytes : (BodySource.spooled path).bytes o
      ((Store.bucket E b).get (writeFile path (some data) s)) = some data := by
    show (writeFile path (some data) s).payloads[path]? = some data
    rw [payloads_writeFile, Table.getElem?_set, if_pos rfl]
  rcases r with e | _ | _
  · rcases r' with e' | _ | _
    · obtain ⟨-, rfl⟩ := heffect₁
      obtain ⟨-, rfl⟩ := heffect₂
      exact ⟨rfl, _, hH₁, hH₂⟩
    · cases hcondition₂ rfl
    · obtain ⟨d, hd, hlen, -⟩ := heffect₂
      obtain rfl := Option.some.inj hd
      exact absurd ⟨_, hbytes, hlen⟩ heffect₁.1
  · cases hcondition₁ rfl
  · obtain ⟨d, hd, hlen, rfl⟩ := heffect₁
    obtain rfl := Option.some.inj (hbytes.symm.trans hd)
    rcases r' with e' | _ | _
    · exact absurd ⟨data, rfl, hlen⟩ heffect₂.1
    · cases hcondition₂ rfl
    · obtain ⟨d, hd, -, rfl⟩ := heffect₂
      obtain rfl := Option.some.inj hd
      exact ⟨rfl, _, hH₁, hH₂⟩

/-- **A spooled object is a buffered object.** When a body has been spooled, it can be collected,
and whatever is written to a key from the spooled file succeeds exactly if it does from memory, and
leaves the same history of the key. -/
theorem spooled_object_is_buffered_object {allowed : ObjectCall → BucketState → Prop}
    (hs : Reached E b key allowed s) (hbucket : ((Store.bucket E b).get s).dir.isSome)
    (uuid : String) (frames : List Frame) (max : ℕ) (habsent : s.payloads[spoolPath uuid]? = none)
    {payload : SpooledPayload} {t : Store}
    (hspooled : (spoolBodyToDisk uuid frames max).Returns s (.ok payload) t) :
    collectBody frames (some max) = .ok payload.digested ∧
      ∀ o : Object, o.key = key → ∀ r u r' u',
        ((ObjectCall.current (.putObjectStreamed o payload.path)).run E b key).Returns t r u →
        ((ObjectCall.current (.putObject { o with data := payload.digested })).run E b key).Returns
          s r' u' →
        r.isOk = r'.isOk ∧ ∃ H, Keeps E b key ((Store.bucket E b).get u) H ∧
          Keeps E b key ((Store.bucket E b).get u') H := by
  obtain ⟨data, hdata, rfl, rfl⟩ := hspooled.of_wp (wp_spoolBodyToDisk habsent)
  refine ⟨hdata, fun o hkey r u r' u' hstreamed hbuffered ↦ ?_⟩
  obtain ⟨hfree, H, hH⟩ := hs.keeps
  exact streamed_alike hfree hbucket hH hkey hstreamed hbuffered

end Stored

/-- One byte is written from a spooled file and from memory. -/
theorem spooled_byte_is_buffered_byte : ∃ t r u r' u' H,
    (spoolBodyToDisk "u" [.data [97]] 1).Returns versionedStore
      (.ok (payloadOf (spoolPath "u") [97])) t ∧
    ((ObjectCall.current (.putObjectStreamed (oneByte 97) (spoolPath "u"))).run .simple "b"
      ['k']).Returns t r u ∧
    ((ObjectCall.current (.putObject { oneByte 97 with data := [97] })).run .simple "b"
      ['k']).Returns versionedStore r' u' ∧
    r.isOk = r'.isOk ∧ Keeps .simple "b" ['k'] ((Store.bucket .simple "b").get u) H ∧
      Keeps .simple "b" ['k'] ((Store.bucket .simple "b").get u') H := by
  have hfresh : Reached .simple "b" ['k'] (fun _ _ ↦ True) versionedStore :=
    .fresh rfl objectIdDir_versionedStore
  have habsent : versionedStore.payloads[spoolPath "u"]? = none := Std.ExtTreeMap.getElem?_empty
  obtain ⟨t, ht⟩ := exists_returns_spoolBodyToDisk "u" [.data [97]] 1 versionedStore
  obtain ⟨data, hdata, -, rfl⟩ := ht.of_wp (wp_spoolBodyToDisk habsent)
  obtain rfl : [97] = data := Except.ok.inj hdata
  have hspooled : Reached .simple "b" ['k'] (fun _ _ ↦ True)
      (writeFile (spoolPath "u") (some [97]) versionedStore) :=
    hfresh.elsewhere rfl (fun _ h ↦ h) (fun h ↦ h) le_rfl
  obtain ⟨r, u, hstreamed, -⟩ := hspooled.exists_call isSome_versionedStore
    (keeps_of_none objectIdDir_versionedStore)
    (.current (.putObjectStreamed (oneByte 97) (spoolPath "u"))) (by rintro _ ⟨⟩; rfl) trivial
  obtain ⟨r', u', hbuffered, -⟩ := hfresh.exists_call isSome_versionedStore
    (keeps_of_none objectIdDir_versionedStore)
    (.current (.putObject { oneByte 97 with data := [97] })) (by rintro _ ⟨⟩; rfl) trivial
  obtain ⟨hr, H, hH, hH'⟩ := (spooled_object_is_buffered_object hfresh isSome_versionedStore "u" _ 1
    habsent ht).2 _ rfl r u r' u' hstreamed hbuffered
  exact ⟨_, r, u, r', u', H, ht, hstreamed, hbuffered, hr, hH, hH'⟩

end Sqrzl.Staging
