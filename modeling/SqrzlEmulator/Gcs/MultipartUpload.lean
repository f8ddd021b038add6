import SqrzlEmulator.Auth.Verified
import SqrzlEmulator.Gcs.Model
import SqrzlEmulator.Mail.SmtpMessage
import SqrzlEmulator.S3.FormUpload

/-!
# Uploads in two parts

The two parsers of `multipart/related` uploads in `providers/gcs.rs`. `parse_multipart_upload` has
the body in memory: it takes one part after the other, and tells the metadata of the object from its
media by the content types. `parse_spooled_multipart_upload` has the body in a file: it reads lines
until the media begin, and looks for the closing boundary at the end of the file.

**The two agree on what is encoded as it should be** (`parsers_agree`): the metadata first, at least
one header in each part, and no boundary inside of a part. Both then return what was encoded, and
where a body does not begin with its boundary both fail. On other bodies they differ: the parser of
files insists on the order of the parts, and bounds what it reads into memory.

Errors of the disk are left out, and so is the text of an error of the JSON parser.
-/

namespace Sqrzl.Gcs.Related

open S3 Auth Percent Splitting Collapse

/-! ### Metadata -/

section Metadata

variable (C : Crates)

/-- An error about a request. -/
def invalid {α : Type} (message : String) : Except UploadMetadataError α :=
  .error (.invalid message)

/-- The fields that the metadata of an upload can have. -/
def uploadMetadataFields : List String := ["name", "bucket", "contentType", "metadata", "crc32c"]

/-- The text of a field, which must be one that `admits` lets through. -/
def textField (value : Json) (field : String) (admits : String → Bool) (message : String) :
    Except UploadMetadataError (Option String) :=
  match value.get field with
  | none => .ok none
  | some (.string text) => if admits text then .ok (some text) else invalid message
  | some _ => invalid message

/-- The entries of `metadata`. -/
def metadataEntries (fields : List (String × Json)) :
    Except UploadMetadataError (Table String String) :=
  fields.foldlM (fun table field ↦
    match field.2 with
    | .string text => .ok (table.set field.1 (some text))
    | _ => invalid ("Object metadata value " ++ field.1 ++ " must be a string")) ∅

/-- `parse_crc32c` -/
def parseCrc32c : Json → Except UploadMetadataError UInt32
  | .string text =>
    match C.base64Decode text with
    | none => invalid "Object metadata crc32c must be base64-encoded big-endian bytes"
    | some bytes =>
      match fromBeBytes bytes with
      | none => invalid "Object metadata crc32c must decode to exactly four bytes"
      | some crc32c => .ok crc32c
  | _ => invalid "Object metadata crc32c must be a base64-encoded string"

/-- The metadata in a JSON object. -/
def readUploadMetadata (fields : List (String × Json)) :
    Except UploadMetadataError ParsedUploadMetadata := do
  match fields.find? fun field ↦ !uploadMetadataFields.contains field.1 with
  | some field => .error (.unsupported
      ("Object metadata field " ++ field.1 ++ " is not supported by this emulator surface"))
  | none => pure ()
  let object := Json.object fields
  let _ ← textField object "bucket" (fun _ ↦ true) "Object metadata bucket must be a string"
  let name ← textField object "name" (fun _ ↦ true) "Object metadata name must be a string"
  let contentType ← textField object "contentType" (fun text ↦ text ≠ "")
    "Object metadata contentType must be a non-empty string"
  let metadata ← match object.get "metadata" with
    | some (.object entries) => metadataEntries entries
    | some _ => invalid "Object metadata metadata must be a JSON object"
    | none => .ok ∅
  let crc32c ← match object.get "crc32c" with
    | some value => (parseCrc32c C value).map some
    | none => .ok none
  return ⟨name, contentType, metadata, crc32c⟩

/-- `parse_json_upload_metadata` -/
def parseJsonUploadMetadata (body : Bytes) : Except UploadMetadataError ParsedUploadMetadata :=
  if body.isEmpty then .ok {}
  else
    match C.parseJson body with
    | none => invalid "Invalid object metadata JSON"
    | some (.object fields) => readUploadMetadata C fields
    | some _ => invalid "Object metadata must be a JSON object"

end Metadata

/-! ### Headers -/

/-- `str::trim_matches('"')` -/
def trimQuoteMarks (t : Text) : Text :=
  ((t.dropWhile (· = '"')).reverse.dropWhile (· = '"')).reverse

/-- `multipart_boundary` -/
def multipartBoundary (contentType : Text) : Option Text :=
  (contentType.splitOn ';').findSome? fun part ↦
    (stripStart "boundary=".toList (trimmed part)).map trimQuoteMarks

/-- The value of a content type header. -/
def contentTypeHeader (header : Text) : Option Text :=
  match Sqrzl.splitOnce ':' header with
  | some (name, value) =>
    if equalFolded (trimmed name) "content-type" then some (trimmed value) else none
  | none => none

/-- The content type of a part. -/
def partContentType (headers : Text) : Option Text :=
  (Mail.lines headers).findSome? contentTypeHeader

/-- The text speaks of JSON. -/
def mentionsJson (t : Text) : Bool := Occurs "application/json".toList (toLower t)

/-- The content type of an object. -/
def objectContentType (media : Option Text) (metadata : ParsedUploadMetadata) : String :=
  ((media.map String.ofList).or metadata.contentType).getD "application/octet-stream"

/-! ### The parser of bodies in memory -/

section Buffered

variable (C : Crates)

/-- What was found in the parts so far. -/
structure PartsState where
  metadata : Option ParsedUploadMetadata := none
  mediaContentType : Option Text := none
  data : Option Bytes := none

/-- A part, with its headers. -/
def addPart (state : PartsState) (headers : Text) (rawBody : Bytes) :
    Except UploadMetadataError PartsState :=
  if (partContentType headers).any mentionsJson then
    if state.metadata.isSome then invalid "Multipart upload contains multiple metadata parts"
    else (parseJsonUploadMetadata C rawBody).map fun metadata ↦
      { state with metadata := some metadata }
  else if state.data.isSome then invalid "Multipart upload contains multiple media parts"
  else .ok { state with mediaContentType := partContentType headers, data := some rawBody }

/-- The loop of `parse_multipart_upload`, from where the cursor is. -/
def readParts (marker : Bytes) (state : PartsState) (rest : Bytes) :
    Except UploadMetadataError PartsState :=
  if ¬ marker <+: rest then invalid "Malformed multipart boundary"
  else
    let behind := rest.drop marker.length
    if dashes <+: behind then .ok state
    else if ¬ crlf <+: behind then invalid "Multipart boundary must be followed by CRLF"
    else
      let part := behind.drop crlf.length
      match findSub (crlf ++ crlf) part with
      | none => invalid "Missing multipart part headers"
      | some headersEnd =>
        match fromUtf8 (part.take headersEnd) with
        | none => invalid "Multipart part headers must be UTF-8"
        | some headers =>
          let payload := part.drop (headersEnd + (crlf ++ crlf).length)
          match hnext : findSub (crlf ++ marker) payload with
          | none => invalid "Missing closing multipart boundary"
          | some nextBoundary =>
            match addPart C state headers (payload.take nextBoundary) with
            | .error e => .error e
            | .ok state => readParts marker state (payload.drop (nextBoundary + crlf.length))
termination_by rest.length
decreasing_by
  have hle := add_length_le_of_findSub hnext
  have hcrlf : crlf.length = 2 := rfl
  rw [List.length_append] at hle
  simp only [payload, part, behind, List.length_drop] at hle ⊢
  omega

/-- `parse_multipart_upload` -/
def parseMultipartUpload (contentType : Text) (body : Bytes) :
    Except UploadMetadataError (ParsedUploadMetadata × String × Bytes) :=
  match multipartBoundary contentType with
  | none => invalid "Missing multipart boundary"
  | some boundary =>
    if ¬ boundaryMarker boundary <+: body then
      invalid "Multipart body does not start with its boundary"
    else
      match readParts C (boundaryMarker boundary) {} body with
      | .error e => .error e
      | .ok state =>
        match state.metadata, state.data with
        | none, _ => invalid "Missing multipart object metadata"
        | some _, none => invalid "Missing multipart object data"
        | some metadata, some data =>
          .ok (metadata, objectContentType state.mediaContentType metadata, data)

end Buffered

/-! ### The parser of bodies in a file -/

section Spooled

variable (E : Env) (C : Crates)

/-- `MAX_CONTROL_BYTES` -/
def maxControlBytes : ℕ := 1024 * 1024

/-- `read_until(b'\n')`: the line, with its end, and what is behind it. -/
def readLine (rest : Bytes) : Bytes × Bytes :=
  let line := rest.takeWhile (· ≠ 10)
  (line ++ (rest.drop line.length).take 1, rest.drop (line.length + 1))

theorem readLine_append (rest : Bytes) : (readLine rest).1 ++ (readLine rest).2 = rest := by
  have hline : rest.takeWhile (· ≠ 10) = rest.take (rest.takeWhile (· ≠ 10)).length :=
    List.prefix_iff_eq_take.1 (List.takeWhile_prefix _)
  rw [readLine]
  dsimp only
  generalize rest.takeWhile (· ≠ 10) = line at hline
  rw [List.append_assoc, ← List.drop_drop, List.take_append_drop]
  calc line ++ rest.drop line.length
      = rest.take line.length ++ rest.drop line.length := by rw [← hline]
    _ = rest := List.take_append_drop _ _

theorem length_readLine (h : (readLine rest).1 ≠ []) : (readLine rest).2.length < rest.length := by
  have happend := congrArg List.length (readLine_append rest)
  have hpos := List.length_pos_iff.2 h
  rw [List.length_append] at happend
  omega

/-- The loop of `read_multipart_headers`. -/
def readHeaderLines (limit : ℕ) (bytes rest : Bytes) : Except UploadMetadataError (Bytes × Bytes) :=
  let line := (readLine rest).1
  if h : line = [] then invalid "Missing multipart part headers"
  else if line = crlf then .ok (bytes, (readLine rest).2)
  else if limit < (bytes ++ line).length then
    invalid "Multipart headers exceed the control-body limit"
  else readHeaderLines limit (bytes ++ line) (readLine rest).2
termination_by rest.length
decreasing_by exact length_readLine h

/-- `read_multipart_headers` -/
def readMultipartHeaders (limit : ℕ) (rest : Bytes) : Except UploadMetadataError (Text × Bytes) :=
  match readHeaderLines limit [] rest with
  | .error e => .error e
  | .ok (bytes, rest) =>
    match fromUtf8 bytes with
    | none => invalid "Multipart part headers must be UTF-8"
    | some headers => .ok (headers, rest)

/-- The loop that reads the metadata, up to the line of the boundary. -/
def readMetadataLines (boundaryLine bytes rest : Bytes) :
    Except UploadMetadataError (Bytes × Bytes) :=
  let line := (readLine rest).1
  if h : line = [] then invalid "Missing multipart media boundary"
  else if line = boundaryLine then .ok (bytes, (readLine rest).2)
  else if maxControlBytes < (bytes ++ line).length then
    invalid "Multipart metadata exceeds the 1 MiB control-body limit"
  else readMetadataLines boundaryLine (bytes ++ line) (readLine rest).2
termination_by rest.length
decreasing_by exact length_readLine h

/-- Bytes without the line breaks at their end. -/
def stripBreaks (bytes : Bytes) : Bytes :=
  if h : crlf <:+ bytes then stripBreaks (bytes.take (bytes.length - crlf.length)) else bytes
termination_by bytes.length
decreasing_by
  have hle := h.length_le
  have hcrlf : crlf.length = 2 := rfl
  rw [List.length_take]
  omega

/-- `SpooledMultipartUpload` -/
structure SpooledMultipartUpload where
  metadata : ParsedUploadMetadata
  contentType : String
  offset : ℕ
  len : ℕ
  crc32c : UInt32

/-- The bytes of the media. -/
def SpooledMultipartUpload.media (upload : SpooledMultipartUpload) (file : Bytes) : Bytes :=
  (file.drop upload.offset).take upload.len

/-- The checksum of what is left, taken from a buffer of `n` bytes. -/
def crc32cOf (n : ℕ) (checksum : UInt32) (remaining : Bytes) : UInt32 :=
  if h : remaining = [] ∨ n = 0 then checksum
  else crc32cOf n (E.crc32cAppend checksum (remaining.take n)) (remaining.drop n)
termination_by remaining.length
decreasing_by
  obtain ⟨hne, hn⟩ := not_or.1 h
  have hpos := List.length_pos_iff.2 hne
  rw [List.length_drop]
  omega

/-- Where the media of a file end, if the file ends with the closing boundary. -/
def mediaEnd (closing file : Bytes) : Except UploadMetadataError ℕ :=
  let tail := file.drop (file.length - (closing.length + 2))
  let trailing := if crlf <:+ tail then 2 else 0
  if (tail.drop (tail.length - closing.length - trailing)).take closing.length ≠ closing then
    invalid "Missing closing multipart boundary"
  else .ok (file.length - closing.length - trailing)

/-- What stands behind the headers of the media, of a file of which `rest` is left. -/
def spooledMedia (closing file : Bytes) (metadata : ParsedUploadMetadata) (headers : Text)
    (rest : Bytes) : Except UploadMetadataError SpooledMultipartUpload :=
  let offset := file.length - rest.length
  if file.length < offset + closing.length then invalid "Missing closing multipart boundary"
  else
    match mediaEnd closing file with
    | .error e => .error e
    | .ok stop =>
      if stop < offset then invalid "Multipart media range is invalid"
      else .ok ⟨metadata, objectContentType (partContentType headers) metadata, offset,
        stop - offset, crc32cOf E (64 * 1024) 0 ((file.drop offset).take (stop - offset))⟩

/-- `parse_spooled_multipart_upload` -/
def parseSpooledMultipartUpload (contentType : Text) (file : Bytes) :
    Except UploadMetadataError SpooledMultipartUpload :=
  match multipartBoundary contentType with
  | none => invalid "Missing multipart boundary"
  | some boundary => do
    let boundaryLine := boundaryMarker boundary ++ crlf
    let (line, rest) := readLine file
    if line ≠ boundaryLine then invalid "Multipart body does not start with its boundary"
    let (metadataHeaders, rest) ← readMultipartHeaders maxControlBytes rest
    if !mentionsJson metadataHeaders then
      invalid "The first multipart part must contain object metadata JSON"
    let (metadataBody, rest) ← readMetadataLines boundaryLine [] rest
    let metadata ← parseJsonUploadMetadata C (stripBreaks metadataBody)
    let (mediaHeaders, rest) ← readMultipartHeaders maxControlBytes rest
    spooledMedia E (crlf ++ boundaryMarker boundary ++ dashes) file metadata mediaHeaders rest

end Spooled

/-! ### What is encoded as it should be -/

/-- An upload, by what its two parts consist of. -/
structure RelatedUpload where
  metadataHeaders : List Text
  metadata : Bytes
  mediaHeaders : List Text
  media : Bytes
  /-- A line break is behind the closing boundary. -/
  ended : Bool := true

/-- The headers of a part, one in each line. -/
def headerBlock (headers : List Text) : Text := ['\r', '\n'].intercalate headers

/-- A part, behind the line of the boundary. -/
def encodePart (headers : List Text) (content : Bytes) : Bytes :=
  utf8 (headerBlock headers) ++ (crlf ++ crlf) ++ content

/-- The body of an upload. -/
def RelatedUpload.encode (upload : RelatedUpload) (boundary : Text) : Bytes :=
  let marker := boundaryMarker boundary
  marker ++ crlf ++ encodePart upload.metadataHeaders upload.metadata ++
    (crlf ++ marker ++ crlf ++ (encodePart upload.mediaHeaders upload.media ++
      (crlf ++ marker ++ dashes ++ if upload.ended then crlf else [])))

/-- A header is a line. -/
def IsHeader (header : Text) : Prop := header ≠ [] ∧ ∀ c ∈ header, c ≠ '\r' ∧ c ≠ '\n'

instance (header : Text) : Decidable (IsHeader header) := inferInstanceAs (Decidable (_ ∧ _))

/-- The headers of a part: there is one, and they are not too long. -/
structure Headers (headers : List Text) : Prop where
  nonempty : headers ≠ []
  lines : ∀ header ∈ headers, IsHeader header
  short : (utf8 (headerBlock headers) ++ crlf).length ≤ maxControlBytes

/-- **What an upload must be like**, whose metadata are read as `m`. -/
structure RelatedUpload.WellFormed (C : Crates) (boundary : Text) (upload : RelatedUpload)
    (m : ParsedUploadMetadata) : Prop where
  oneLine : ∀ c ∈ boundary, c ≠ '\r' ∧ c ≠ '\n'
  metadataHeaders : Headers upload.metadataHeaders
  /-- The metadata are declared as JSON. -/
  json : (upload.metadataHeaders.findSome? contentTypeHeader).any mentionsJson
  /-- The metadata are read as `m`, are not too long, and none of their lines begins with the
  boundary. -/
  metadata : parseJsonUploadMetadata C upload.metadata = .ok m
  short : (upload.metadata ++ crlf).length ≤ maxControlBytes
  metadataLines : ¬ Occurs (10 :: boundaryMarker boundary) (10 :: upload.metadata)
  mediaHeaders : Headers upload.mediaHeaders
  /-- The media are not declared as JSON. -/
  notJson : ¬ (upload.mediaHeaders.findSome? contentTypeHeader).any mentionsJson
  media : ¬ Occurs (crlf ++ boundaryMarker boundary) upload.media

/-! ### Headers of an encoded part -/

section HeaderLines

variable {headers : List Text} {header t : Text} {rest : Bytes}

theorem headerBlock_cons (hne : headers ≠ []) :
    headerBlock (header :: headers) = header ++ '\r' :: '\n' :: headerBlock headers := by
  rw [headerBlock, List.intercalate_cons_of_ne_nil hne, List.append_assoc]
  rfl

theorem headerBlock_singleton : headerBlock [header] = header := List.intercalate_singleton

theorem lines_append (h : IsHeader header) :
    Mail.lines (header ++ '\r' :: '\n' :: t) = header :: Mail.lines t := by
  have hn : '\n' ∉ header ++ ['\r'] := by
    rw [List.mem_append, not_or]
    exact ⟨fun hmem ↦ (h.2 _ hmem).2 rfl, by decide⟩
  have hstrip : Mail.stripReturn (header ++ ['\r']) = header := by
    rw [Mail.stripReturn, List.getLast?_concat, if_pos rfl, List.dropLast_concat]
  have hsplit : (header ++ '\r' :: '\n' :: t).splitOn '\n' =
      (header ++ ['\r']) :: t.splitOn '\n' := by
    rw [List.append_cons, List.splitOn_append_cons_self, List.splitOn_eq_singleton hn]
    rfl
  have hne : t.splitOn '\n' ≠ [] := List.splitOn_ne_nil _ _
  rw [Mail.lines, Mail.lines, hsplit, List.dropLast_cons_of_ne_nil hne, List.map_cons, hstrip,
    List.cons_append]
  congr 2
  rw [List.getLast?_cons, List.getLast?_eq_some_getLast hne]
  rfl

theorem lines_header (h : IsHeader header) : Mail.lines header = [header] := by
  have hn : '\n' ∉ header := fun hmem ↦ (h.2 _ hmem).2 rfl
  rw [Mail.lines, List.splitOn_eq_singleton hn]
  rw [List.dropLast_singleton, List.map_nil, List.nil_append, List.getLast?_singleton,
    Option.toList_some]
  simp [h.1]

/-- **The lines of the headers are the headers**, with or without a line break behind the last. -/
theorem lines_headerBlock (hne : headers ≠ []) (h : ∀ header ∈ headers, IsHeader header) :
    Mail.lines (headerBlock headers) = headers ∧
      Mail.lines (headerBlock headers ++ ['\r', '\n']) = headers := by
  induction headers with
  | nil => exact absurd rfl hne
  | cons header headers ih =>
    have hheader := h header List.mem_cons_self
    rcases eq_or_ne headers [] with rfl | hheaders
    · rw [headerBlock_singleton]
      exact ⟨lines_header hheader, lines_append hheader⟩
    · obtain ⟨ih₁, ih₂⟩ := ih hheaders fun q hq ↦ h q (List.mem_cons_of_mem _ hq)
      rw [headerBlock_cons hheaders]
      refine ⟨by rw [lines_append hheader, ih₁], ?_⟩
      rw [List.append_assoc, List.cons_append, List.cons_append, lines_append hheader, ih₂]

theorem IsHeader.utf8 (h : IsHeader header) :
    utf8 header ≠ [] ∧ (13 : UInt8) ∉ Percent.utf8 header ∧ (10 : UInt8) ∉ Percent.utf8 header :=
  ⟨fun hnil ↦ h.1 (utf8_eq_nil hnil), lineBreak_not_mem_utf8 h.2⟩

theorem utf8_headerBlock_cons (hne : headers ≠ []) :
    utf8 (headerBlock (header :: headers)) =
      utf8 header ++ 13 :: 10 :: utf8 (headerBlock headers) := by
  have hcr : String.utf8EncodeChar '\r' = [13] := by decide
  have hlf : String.utf8EncodeChar '\n' = [10] := by decide
  rw [headerBlock_cons hne, utf8_append, utf8_cons, utf8_cons, hcr, hlf]
  rfl

theorem utf8_headerBlock_ne_nil (hne : headers ≠ []) (h : ∀ header ∈ headers, IsHeader header) :
    utf8 (headerBlock headers) ≠ [] := by
  cases headers with
  | nil => exact absurd rfl hne
  | cons header headers =>
    have hbytes := (h header List.mem_cons_self).utf8.1
    rcases eq_or_ne headers [] with rfl | hheaders
    · rw [headerBlock_singleton]
      exact hbytes
    · rw [utf8_headerBlock_cons hheaders]
      exact List.append_ne_nil_of_left_ne_nil hbytes _

/-- **There is no empty line among the headers**, and they begin and end in a line. -/
theorem headerBlock_bytes (hne : headers ≠ []) (h : ∀ header ∈ headers, IsHeader header) :
    (utf8 (headerBlock headers)).IsChain (fun a b ↦ ¬ (a = 10 ∧ b = 13)) ∧
      (∀ b ∈ (utf8 (headerBlock headers)).head?, b ≠ 13) ∧
      ∀ b ∈ (utf8 (headerBlock headers)).getLast?, b ∉ crlf ++ crlf := by
  have hline : ∀ {l : Bytes}, (10 : UInt8) ∉ l → l.IsChain fun a b ↦ ¬ (a = 10 ∧ b = 13) := by
    intro l hl
    refine List.Pairwise.isChain (List.pairwise_of_forall_mem_list fun a ha b _ hab ↦ ?_)
    exact hl (hab.1 ▸ ha)
  induction headers with
  | nil => exact absurd rfl hne
  | cons header headers ih =>
    obtain ⟨hbytes, hcr, hlf⟩ := (h header List.mem_cons_self).utf8
    have hhead : ∀ b ∈ (utf8 header).head?, b ≠ 13 := fun b hb heq ↦
      hcr (heq ▸ List.mem_of_mem_head? hb)
    rcases eq_or_ne headers [] with rfl | hheaders
    · rw [headerBlock_singleton]
      refine ⟨hline hlf, hhead, fun b hb hmem ↦ ?_⟩
      have hbmem := List.mem_of_getLast? hb
      simp only [crlf, List.cons_append, List.nil_append, List.mem_cons, List.not_mem_nil,
        or_false] at hmem
      rcases hmem with rfl | rfl | rfl | rfl
      · exact hcr hbmem
      · exact hlf hbmem
      · exact hcr hbmem
      · exact hlf hbmem
    · obtain ⟨hchain, hfirst, hlast⟩ := ih hheaders fun q hq ↦ h q (List.mem_cons_of_mem _ hq)
      have hblock := utf8_headerBlock_ne_nil hheaders fun q hq ↦ h q (List.mem_cons_of_mem _ hq)
      rw [utf8_headerBlock_cons hheaders]
      refine ⟨?_, ?_, ?_⟩
      · have hrest : (13 :: 10 :: utf8 (headerBlock headers)).IsChain
            (fun a b : UInt8 ↦ ¬ (a = 10 ∧ b = 13)) := by
          have hstart : (10 :: utf8 (headerBlock headers)).IsChain
              (fun a b : UInt8 ↦ ¬ (a = 10 ∧ b = 13)) :=
            List.isChain_cons.2 ⟨fun y hy hxy ↦ hfirst y hy hxy.2, hchain⟩
          exact List.isChain_cons_cons.2 ⟨by decide, hstart⟩
        refine List.isChain_append.2 ⟨hline hlf, hrest, fun a ha b _ hab ↦ ?_⟩
        exact hlf (hab.1 ▸ List.mem_of_getLast? ha)
      · rw [List.head?_append_of_ne_nil _ hbytes]
        exact hhead
      · rw [List.getLast?_append_of_ne_nil _ (List.cons_ne_nil _ _), List.getLast?_cons_cons,
          List.getLast?_cons_of_ne_nil hblock]
        exact hlast

end HeaderLines

/-! ### The parser of bodies in memory, on an encoded part -/

section Parts

variable {C : Crates} {headers : List Text} {content rest marker : Bytes} {boundary : Text}

theorem findSub_headerBlock (hheaders : Headers headers) :
    findSub (crlf ++ crlf) (encodePart headers content) =
      some (utf8 (headerBlock headers)).length := by
  obtain ⟨hchain, -, hlast⟩ := headerBlock_bytes hheaders.nonempty hheaders.lines
  rw [encodePart]
  refine findSub_append_of_last (fun hocc ↦ ?_) hlast
  have hempty := hchain.infix hocc
  revert hempty
  decide

/-- The boundary is not in the line break that comes before it. -/
theorem not_mem_marker (h : ∀ c ∈ boundary, c ≠ '\r' ∧ c ≠ '\n') :
    (13 : UInt8) ∉ boundaryMarker boundary ∧ (10 : UInt8) ∉ boundaryMarker boundary := by
  obtain ⟨hcr, hlf⟩ := lineBreak_not_mem_utf8 h
  rw [boundaryMarker, List.mem_append, List.mem_append, not_or, not_or]
  exact ⟨⟨by decide, hcr⟩, by decide, hlf⟩

/-- **One part is read**, up to the boundary behind it. -/
theorem readParts_part (state : PartsState) (hheaders : Headers headers)
    (hmarker : (13 : UInt8) ∉ marker) (hcontent : ¬ Occurs (crlf ++ marker) content) :
    readParts C marker state (marker ++ crlf ++ encodePart headers content ++
        (crlf ++ marker ++ rest)) =
      match addPart C state (headerBlock headers) content with
      | .error e => .error e
      | .ok state => readParts C marker state (marker ++ rest) := by
  have hstart : marker <+: marker ++ crlf ++ encodePart headers content ++
      (crlf ++ marker ++ rest) := by
    rw [List.append_assoc, List.append_assoc]
    exact List.prefix_append _ _
  have hbehind : (marker ++ crlf ++ encodePart headers content ++ (crlf ++ marker ++ rest)).drop
      marker.length = crlf ++ encodePart headers (content ++ (crlf ++ marker ++ rest)) := by
    rw [encodePart, encodePart, List.append_assoc, List.append_assoc, List.drop_left]
    simp only [List.append_assoc]
  have hpart : (crlf ++ encodePart headers (content ++ (crlf ++ marker ++ rest))).drop crlf.length =
      encodePart headers (content ++ (crlf ++ marker ++ rest)) := List.drop_left
  have htake : (encodePart headers (content ++ (crlf ++ marker ++ rest))).take
      (utf8 (headerBlock headers)).length = utf8 (headerBlock headers) := by
    rw [encodePart, List.append_assoc, List.take_left]
  have hdrop : (encodePart headers (content ++ (crlf ++ marker ++ rest))).drop
      ((utf8 (headerBlock headers)).length + (crlf ++ crlf).length) =
        content ++ (crlf ++ marker) ++ rest := by
    rw [encodePart, List.drop_left' List.length_append]
    simp only [List.append_assoc]
  have hfind : findSub (crlf ++ marker) (content ++ (crlf ++ marker) ++ rest) =
      some content.length := by
    refine findSub_append_of_head (fun hmem ↦ ?_) hcontent
    rcases List.mem_cons.1 hmem with h | h
    · revert h
      decide
    · exact hmarker h
  have hnext : (content ++ (crlf ++ marker) ++ rest).drop (content.length + crlf.length) =
      marker ++ rest := by
    rw [List.append_assoc, List.append_assoc, ← List.append_assoc content,
      List.drop_left' List.length_append]
  rw [readParts, if_neg (not_not_intro hstart)]
  dsimp only
  rw [hbehind, if_neg (by rintro ⟨v, h⟩; cases h), if_neg (not_not_intro (List.prefix_append _ _)),
    hpart, findSub_headerBlock hheaders]
  dsimp only
  rw [htake, fromUtf8_eq_some_iff.2 rfl]
  dsimp only
  split
  · next h =>
    rw [hdrop, hfind] at h
    cases h
  · next n h =>
    rw [hdrop, hfind] at h
    obtain rfl := Option.some.inj h
    rw [hdrop, hnext, List.append_assoc, List.take_left]

theorem partContentType_headerBlock (hheaders : Headers headers) :
    partContentType (headerBlock headers) = headers.findSome? contentTypeHeader := by
  rw [partContentType, (lines_headerBlock hheaders.nonempty hheaders.lines).1]

theorem not_occurs_of_lines (h : ¬ Occurs (10 :: marker) (10 :: content)) :
    ¬ Occurs (crlf ++ marker) content := by
  rintro ⟨u, v, rfl⟩
  exact h ⟨10 :: u ++ [13], v, by simp [crlf]⟩

variable {upload : RelatedUpload} {m : ParsedUploadMetadata} {contentType : Text}

/-- **Two parts are read**, the first and then the second. -/
theorem parse_of_parts {mediaContentType : Option Text} {data : Bytes} {state : PartsState}
    (hboundary : multipartBoundary contentType = some boundary)
    (hline : ∀ c ∈ boundary, c ≠ '\r' ∧ c ≠ '\n') (hfirst : Headers upload.metadataHeaders)
    (hcontent : ¬ Occurs (crlf ++ boundaryMarker boundary) upload.metadata)
    (hadd : addPart C {} (headerBlock upload.metadataHeaders) upload.metadata = .ok state)
    (hsecond : Headers upload.mediaHeaders)
    (hmedia : ¬ Occurs (crlf ++ boundaryMarker boundary) upload.media)
    (hboth : addPart C state (headerBlock upload.mediaHeaders) upload.media =
      .ok ⟨some m, mediaContentType, some data⟩) :
    parseMultipartUpload C contentType (upload.encode boundary) =
      .ok (m, objectContentType mediaContentType m, data) := by
  obtain ⟨hcr, -⟩ := not_mem_marker hline
  have hstart : boundaryMarker boundary <+: upload.encode boundary := by
    rw [RelatedUpload.encode, List.append_assoc, List.append_assoc]
    exact List.prefix_append _ _
  have hend : ∀ state stop, readParts C (boundaryMarker boundary) state
      (boundaryMarker boundary ++ (dashes ++ stop)) = .ok state := by
    intro state stop
    rw [readParts, if_neg (not_not_intro (List.prefix_append _ _)), List.drop_left,
      if_pos (List.prefix_append _ _)]
  have hparts : readParts C (boundaryMarker boundary) {} (upload.encode boundary) =
      .ok ⟨some m, mediaContentType, some data⟩ := by
    rw [RelatedUpload.encode, List.append_assoc (crlf ++ boundaryMarker boundary),
      readParts_part _ hfirst hcr hcontent, hadd]
    dsimp only
    have hassoc : ∀ part stop : Bytes, boundaryMarker boundary ++ (crlf ++ (part ++
        (crlf ++ boundaryMarker boundary ++ dashes ++ stop))) = boundaryMarker boundary ++ crlf ++
          part ++ (crlf ++ boundaryMarker boundary ++ (dashes ++ stop)) := by
      intro part stop
      simp only [List.append_assoc]
    rw [hassoc, readParts_part _ hsecond hcr hmedia, hboth]
    exact hend _ _
  rw [parseMultipartUpload, hboundary]
  dsimp only
  rw [if_neg (not_not_intro hstart), hparts]

/-- **The parser of bodies in memory returns what was encoded.** -/
theorem parse_encode (hboundary : multipartBoundary contentType = some boundary)
    (h : upload.WellFormed C boundary m) :
    parseMultipartUpload C contentType (upload.encode boundary) =
      .ok (m, objectContentType (upload.mediaHeaders.findSome? contentTypeHeader) m,
        upload.media) := by
  have hmetadata : addPart C {} (headerBlock upload.metadataHeaders) upload.metadata =
      .ok { metadata := some m } := by
    rw [addPart, partContentType_headerBlock h.metadataHeaders, if_pos h.json, if_neg (by decide),
      h.metadata]
    rfl
  have hmedia : addPart C { metadata := some m } (headerBlock upload.mediaHeaders) upload.media =
      .ok ⟨some m, upload.mediaHeaders.findSome? contentTypeHeader, some upload.media⟩ := by
    rw [addPart, partContentType_headerBlock h.mediaHeaders, if_neg h.notJson]
    rfl
  exact parse_of_parts hboundary h.oneLine h.metadataHeaders (not_occurs_of_lines h.metadataLines)
    hmetadata h.mediaHeaders h.media hmedia

end Parts

/-! ### The parser of bodies in a file, line by line -/

section FileLines

variable {headers : List Text} {line rest bytes : Bytes} {limit : ℕ}

theorem readLine_line (rest : Bytes) (h : (10 : UInt8) ∉ line) :
    readLine (line ++ 10 :: rest) = (line ++ [10], rest) := by
  have htake : (line ++ 10 :: rest).takeWhile (· ≠ 10) = line := by
    have hall : ∀ b ∈ line, decide (b ≠ 10) = true :=
      fun b hb ↦ decide_eq_true fun heq : b = 10 ↦ h (heq ▸ hb)
    rw [List.takeWhile_append_of_pos hall, List.takeWhile_cons_of_neg (by decide), List.append_nil]
  rw [readLine, htake, List.drop_left, ← List.drop_drop, List.drop_left]
  rfl

/-- The line of the boundary is read. -/
theorem readLine_boundary {boundary : Text} (h : ∀ c ∈ boundary, c ≠ '\r' ∧ c ≠ '\n') :
    readLine (boundaryMarker boundary ++ crlf ++ rest) =
      (boundaryMarker boundary ++ crlf, rest) := by
  have hline : (10 : UInt8) ∉ boundaryMarker boundary ++ [13] := by
    rw [List.mem_append, not_or]
    exact ⟨(not_mem_marker h).2, by decide⟩
  have heq := readLine_line rest hline
  rw [List.append_assoc, List.append_assoc] at heq
  rwa [List.append_assoc]

theorem readHeaderLines_crlf :
    readHeaderLines limit bytes (crlf ++ rest) = .ok (bytes, rest) := by
  have hreturn : (10 : UInt8) ∉ [(13 : UInt8)] := by decide
  have hline : readLine (crlf ++ rest) = (crlf, rest) := readLine_line rest hreturn
  have hne : crlf ≠ [] := List.cons_ne_nil _ _
  rw [readHeaderLines, hline]
  exact (dif_neg hne).trans (if_pos rfl)

theorem readHeaderLines_header {header : Text} (hheader : IsHeader header)
    (hshort : (bytes ++ (utf8 header ++ crlf)).length ≤ limit) :
    readHeaderLines limit bytes (utf8 header ++ (crlf ++ rest)) =
      readHeaderLines limit (bytes ++ (utf8 header ++ crlf)) rest := by
  obtain ⟨hne, hcr, hlf⟩ := hheader.utf8
  have hline : readLine (utf8 header ++ (crlf ++ rest)) = (utf8 header ++ crlf, rest) := by
    have hlf' : (10 : UInt8) ∉ utf8 header ++ [13] := by
      rw [List.mem_append, not_or]
      exact ⟨hlf, by decide⟩
    have heq := readLine_line rest hlf'
    rwa [List.append_assoc, List.append_assoc] at heq
  have hlong : utf8 header ++ crlf ≠ crlf := by
    intro heq
    have hlen := congrArg List.length heq
    have hpos := List.length_pos_iff.2 hne
    rw [List.length_append] at hlen
    omega
  rw [readHeaderLines, hline, dif_neg (List.append_ne_nil_of_left_ne_nil hne _), if_neg hlong,
    if_neg (Nat.not_lt.2 hshort)]

/-- **The headers of a part are read** up to the empty line behind them. -/
theorem readHeaderLines_headerBlock (hne : headers ≠ []) (h : ∀ header ∈ headers, IsHeader header) :
    ∀ bytes : Bytes, (bytes ++ (utf8 (headerBlock headers) ++ crlf)).length ≤ limit →
      readHeaderLines limit bytes (utf8 (headerBlock headers) ++ (crlf ++ (crlf ++ rest))) =
        .ok (bytes ++ (utf8 (headerBlock headers) ++ crlf), rest) := by
  induction headers with
  | nil => exact absurd rfl hne
  | cons header headers ih =>
    intro bytes hshort
    have hheader := h header List.mem_cons_self
    rcases eq_or_ne headers [] with rfl | hheaders
    · rw [headerBlock_singleton] at hshort ⊢
      rw [readHeaderLines_header hheader hshort, readHeaderLines_crlf]
    · have hblock : utf8 (headerBlock (header :: headers)) =
          utf8 header ++ crlf ++ utf8 (headerBlock headers) := by
        rw [utf8_headerBlock_cons hheaders, List.append_assoc]
        rfl
      rw [hblock] at hshort ⊢
      have hall : bytes ++ (utf8 header ++ crlf ++ utf8 (headerBlock headers) ++ crlf) =
          (bytes ++ (utf8 header ++ crlf)) ++ (utf8 (headerBlock headers) ++ crlf) := by
        simp only [List.append_assoc]
      rw [hall] at hshort ⊢
      have hfirst : (bytes ++ (utf8 header ++ crlf)).length ≤ limit := by
        rw [List.length_append] at hshort
        omega
      rw [List.append_assoc (utf8 header ++ crlf), List.append_assoc (utf8 header),
        readHeaderLines_header hheader hfirst]
      exact ih hheaders (fun q hq ↦ h q (List.mem_cons_of_mem _ hq)) _ hshort

/-- **The metadata are read** up to the line of the boundary. -/
theorem readMetadataLines_spec {marker : Bytes} (hmarker : (10 : UInt8) ∉ marker) (n : ℕ) :
    ∀ content bytes : Bytes, content.length ≤ n → (content = [] ∨ content.getLast? = some 10) →
      ¬ Occurs (10 :: (marker ++ crlf)) (10 :: content) →
      (bytes ++ content).length ≤ maxControlBytes →
      readMetadataLines (marker ++ crlf) bytes (content ++ (marker ++ crlf ++ rest)) =
        .ok (bytes ++ content, rest) := by
  have hboundary : readLine (marker ++ crlf ++ rest) = (marker ++ crlf, rest) := by
    have hlf : (10 : UInt8) ∉ marker ++ [13] := by
      rw [List.mem_append, not_or]
      exact ⟨hmarker, by decide⟩
    have heq := readLine_line rest hlf
    rw [List.append_assoc, List.append_assoc] at heq
    rwa [List.append_assoc]
  have hnil : ∀ bytes, readMetadataLines (marker ++ crlf) bytes ([] ++ (marker ++ crlf ++ rest)) =
      .ok (bytes ++ [], rest) := by
    intro bytes
    have hne : marker ++ crlf ≠ [] := List.append_ne_nil_of_right_ne_nil _ (List.cons_ne_nil _ _)
    rw [List.nil_append, List.append_nil, readMetadataLines, hboundary]
    exact (dif_neg hne).trans (if_pos rfl)
  -- The induction is on the length of what is left in front of the boundary.
  induction n with
  | zero =>
    intro content bytes hlen _ _ _
    obtain rfl := List.eq_nil_of_length_eq_zero (Nat.le_zero.1 hlen)
    exact hnil bytes
  | succ n ih =>
    intro content bytes hlen hlast hocc hshort
    rcases hlast with rfl | hlast
    · exact hnil bytes
    obtain ⟨line, content', rfl, hline⟩ :=
      List.eq_append_cons_of_mem (List.mem_of_getLast? hlast)
    have hread : readLine (line ++ 10 :: content' ++ (marker ++ crlf ++ rest)) =
        (line ++ [10], content' ++ (marker ++ crlf ++ rest)) := by
      rw [List.append_assoc]
      exact readLine_line _ hline
    have hne : line ++ [10] ≠ [] := List.append_ne_nil_of_right_ne_nil _ (List.cons_ne_nil _ _)
    have hother : line ++ [10] ≠ marker ++ crlf := by
      intro heq
      refine hocc ⟨[], content', ?_⟩
      rw [← heq]
      simp
    have hall : bytes ++ (line ++ 10 :: content') = bytes ++ (line ++ [10]) ++ content' := by simp
    rw [hall] at hshort ⊢
    have hfits : (bytes ++ (line ++ [10])).length ≤ maxControlBytes := by
      rw [List.length_append] at hshort
      omega
    have hlast' : content' = [] ∨ content'.getLast? = some 10 := by
      rcases eq_or_ne content' [] with hc | hc
      · exact Or.inl hc
      · rw [List.getLast?_append_of_ne_nil _ (List.cons_ne_nil _ _),
          List.getLast?_cons_of_ne_nil hc] at hlast
        exact Or.inr hlast
    rw [readMetadataLines, hread]
    refine (dif_neg hne).trans ((if_neg hother).trans ((if_neg (Nat.not_lt.2 hfits)).trans ?_))
    refine ih content' _ ?_ hlast' (fun hocc' ↦ hocc ?_) hshort
    · rw [List.length_append, List.length_cons] at hlen
      omega
    · refine hocc'.trans (List.IsSuffix.isInfix ⟨10 :: line, ?_⟩)
      simp

theorem stripBreaks_append : stripBreaks (bytes ++ crlf) = stripBreaks bytes := by
  rw [stripBreaks, dif_pos (List.suffix_append _ _)]
  congr 1
  rw [List.length_append, Nat.add_sub_cancel, List.take_left]

/-- Line breaks behind a document do not matter, if they do not matter to the JSON parser. -/
theorem parseJson_stripBreaks {C : Crates} (hjson : ∀ l, C.parseJson (l ++ crlf) = C.parseJson l)
    (l : Bytes) : C.parseJson (stripBreaks l) = C.parseJson l := by
  induction l using stripBreaks.induct with
  | case1 l h ih =>
    rw [stripBreaks, dif_pos h, ih]
    obtain ⟨l', rfl⟩ := h
    rw [List.length_append, Nat.add_sub_cancel, List.take_left, hjson]
  | case2 l h => rw [stripBreaks, dif_neg h]

theorem parseJsonUploadMetadata_stripBreaks {C : Crates} {m : ParsedUploadMetadata}
    (hjson : ∀ l, C.parseJson (l ++ crlf) = C.parseJson l) (hempty : C.parseJson [] = none)
    {l : Bytes} (h : parseJsonUploadMetadata C l = .ok m) :
    parseJsonUploadMetadata C (stripBreaks l) = .ok m := by
  rcases eq_or_ne (stripBreaks l) [] with hnil | hne
  · -- A document of line breaks only is none, so that there is none at all.
    rcases eq_or_ne l [] with rfl | hl
    · rw [hnil]
      exact h
    · have hnone := parseJson_stripBreaks hjson l
      rw [hnil, hempty] at hnone
      rw [parseJsonUploadMetadata, if_neg (by simpa using hl), ← hnone] at h
      cases h
  · have hl : l ≠ [] := by
      rintro rfl
      refine hne ?_
      rw [stripBreaks, dif_neg (by decide)]
    rw [parseJsonUploadMetadata, if_neg (by simpa using hl)] at h
    rw [parseJsonUploadMetadata, if_neg (by simpa using hne), parseJson_stripBreaks hjson]
    exact h

end FileLines

/-! ### The parser of bodies in a file, on an encoded upload -/

section Files

variable {E : Env} {C : Crates} {boundary : Text} {upload : RelatedUpload}
  {m : ParsedUploadMetadata} {contentType : Text} {pre marker : Bytes}

/-- The checksum of a file is that of its bytes, whatever the size of the buffer. -/
theorem crc32cOf_eq {n : ℕ} (hn : n ≠ 0) (remaining : Bytes) :
    ∀ checksum, crc32cOf E n checksum remaining = E.crc32cAppend checksum remaining := by
  induction hlen : remaining.length using Nat.strong_induction_on generalizing remaining with
  | _ k ih =>
    intro checksum
    rw [crc32cOf]
    split
    · next h =>
      obtain rfl := h.resolve_right hn
      rw [E.crc32cAppend_nil]
    · next h =>
      obtain ⟨hne, -⟩ := not_or.1 h
      have hpos := List.length_pos_iff.2 hne
      rw [ih (remaining.drop n).length (by rw [List.length_drop]; omega) _ rfl,
        ← E.crc32cAppend_append, List.take_append_drop]

/-- **The closing boundary is found at the end of the file**, with or without a line break behind
it. -/
theorem mediaEnd_eq (pre marker : Bytes) (ended : Bool) :
    mediaEnd (crlf ++ marker ++ dashes)
      (pre ++ (crlf ++ marker ++ dashes ++ if ended then crlf else [])) = .ok pre.length := by
  have hcrlf : crlf.length = 2 := rfl
  have hend : (crlf ++ marker ++ dashes).getLast? = some 45 := by
    have hdashes : dashes ≠ [] := List.cons_ne_nil _ _
    rw [List.getLast?_append_of_ne_nil _ hdashes]
    rfl
  generalize crlf ++ marker ++ dashes = closing at hend ⊢
  rw [mediaEnd]
  cases ended with
  | true =>
    have hlen : (pre ++ (closing ++ crlf)).length - (closing.length + 2) = pre.length := by
      rw [List.length_append, List.length_append]
      omega
    have hzero : (closing ++ crlf).length - closing.length - 2 = 0 := by
      rw [List.length_append]
      omega
    rw [if_pos rfl, hlen, List.drop_left, if_pos (List.suffix_append _ _), hzero, List.drop_zero,
      List.take_left, if_neg (not_not_intro rfl), Nat.sub_sub, hlen]
  | false =>
    have hlen : (pre ++ (closing ++ [])).length - (closing.length + 2) = pre.length - 2 := by
      rw [List.append_nil, List.length_append]
      omega
    have htail : (pre ++ (closing ++ [])).drop (pre.length - 2) =
        pre.drop (pre.length - 2) ++ closing := by
      rw [List.append_nil, List.drop_append_of_le_length (Nat.sub_le _ _)]
    have hclosing : closing ≠ [] := by
      rintro rfl
      cases hend
    have hnot : ¬ crlf <:+ pre.drop (pre.length - 2) ++ closing := by
      rintro ⟨u, hu⟩
      have hlast := congrArg List.getLast? hu
      have hne : crlf ≠ [] := List.cons_ne_nil _ _
      rw [List.getLast?_append_of_ne_nil _ hclosing, hend,
        List.getLast?_append_of_ne_nil _ hne] at hlast
      revert hlast
      decide
    have hdrop : (pre.drop (pre.length - 2) ++ closing).length - closing.length - 0 =
        (pre.drop (pre.length - 2)).length := by
      rw [List.length_append]
      omega
    have hend' : (if false = true then crlf else []) = [] := rfl
    rw [hend', hlen, htail, if_neg hnot, hdrop, List.drop_left, List.take_length,
      if_neg (not_not_intro rfl), List.append_nil, List.length_append]
    congr 1
    omega

/-- **The media are what stands between the headers and the closing boundary.** -/
theorem spooledMedia_eq (pre marker : Bytes) (m : ParsedUploadMetadata) (headers : Text)
    (media : Bytes) (ended : Bool) :
    spooledMedia E (crlf ++ marker ++ dashes)
      (pre ++ (media ++ (crlf ++ marker ++ dashes ++ if ended then crlf else []))) m headers
        (media ++ (crlf ++ marker ++ dashes ++ if ended then crlf else [])) =
      .ok ⟨m, objectContentType (partContentType headers) m, pre.length, media.length,
        E.crc32cAppend 0 media⟩ := by
  have hmedia := mediaEnd_eq (pre ++ media) marker ended
  rw [List.append_assoc pre, List.length_append] at hmedia
  generalize hstop : (crlf ++ marker ++ dashes ++ if ended then crlf else []) = stop at hmedia ⊢
  have hclosing : (crlf ++ marker ++ dashes).length ≤ stop.length := by
    rw [← hstop]
    exact (List.prefix_append _ _).length_le
  have hoffset : (pre ++ (media ++ stop)).length - (media ++ stop).length = pre.length := by
    rw [List.length_append]
    omega
  rw [spooledMedia]
  rw [hoffset, if_neg (by rw [List.length_append, List.length_append]; omega), hmedia]
  dsimp only
  rw [if_neg (by omega), Nat.add_sub_cancel_left, List.drop_left, List.take_left,
    crc32cOf_eq (by decide)]

theorem Headers.read {headers : List Text} (h : Headers headers) (rest : Bytes) :
    readMultipartHeaders maxControlBytes (utf8 (headerBlock headers) ++ (crlf ++ (crlf ++ rest))) =
      .ok (headerBlock headers ++ ['\r', '\n'], rest) := by
  have hcrlf : utf8 ['\r', '\n'] = crlf := by decide
  have htext : fromUtf8 (utf8 (headerBlock headers) ++ crlf) =
      some (headerBlock headers ++ ['\r', '\n']) := by
    rw [← hcrlf, ← utf8_append]
    exact fromUtf8_eq_some_iff.2 rfl
  rw [readMultipartHeaders, readHeaderLines_headerBlock h.nonempty h.lines [] h.short]
  dsimp only
  rw [List.nil_append, htext]

theorem header_isInfix {headers : List Text} {header : Text} (hmem : header ∈ headers) :
    header <:+: headerBlock headers := by
  induction headers with
  | nil => exact absurd hmem List.not_mem_nil
  | cons first headers ih =>
    rcases eq_or_ne headers [] with rfl | hheaders
    · obtain rfl := List.mem_singleton.1 hmem
      rw [headerBlock_singleton]
    · rw [headerBlock_cons hheaders]
      rcases List.mem_cons.1 hmem with rfl | hmem
      · exact (List.prefix_append _ _).isInfix
      · have hrest : headerBlock headers <:+ first ++ '\r' :: '\n' :: headerBlock headers :=
          ⟨first ++ ['\r', '\n'], by simp⟩
        exact (ih hmem).trans hrest.isInfix

theorem trimmed_isInfix (t : Text) : trimmed t <:+: t := by
  have hfirst : t.dropWhile isWhitespace <:+ t := List.dropWhile_suffix _
  have hlast : trimmed t <+: t.dropWhile isWhitespace := by
    rw [trimmed, ← List.reverse_suffix, List.reverse_reverse]
    exact List.dropWhile_suffix _
  exact hlast.isInfix.trans hfirst.isInfix

/-- What a header says is said in the headers. -/
theorem mentionsJson_of_mem {headers : List Text} {header value : Text} (stop : Text)
    (hmem : header ∈ headers) (hvalue : contentTypeHeader header = some value)
    (hjson : mentionsJson value) : mentionsJson (headerBlock headers ++ stop) := by
  have hpart : value <:+: header := by
    rw [contentTypeHeader] at hvalue
    split at hvalue
    · next name text hsplit =>
      split at hvalue
      · obtain rfl := Option.some.inj hvalue
        rw [Auth.eq_of_splitOnce hsplit]
        exact (trimmed_isInfix text).trans ⟨name ++ [':'], [], by simp⟩
      · cases hvalue
    · cases hvalue
  have hall : value <:+: headerBlock headers ++ stop :=
    (hpart.trans (header_isInfix hmem)).trans (List.prefix_append _ _).isInfix
  rw [mentionsJson, decide_eq_true_eq] at hjson ⊢
  exact hjson.trans (hall.map Char.toLower)

/-- **The parser of bodies in a file returns what was encoded.** -/
theorem parseSpooled_encode (hjson : ∀ l, C.parseJson (l ++ crlf) = C.parseJson l)
    (hempty : C.parseJson [] = none) (hboundary : multipartBoundary contentType = some boundary)
    (h : upload.WellFormed C boundary m) :
    ∃ u, parseSpooledMultipartUpload E C contentType (upload.encode boundary) = .ok u ∧
      u.metadata = m ∧
      u.contentType = objectContentType (upload.mediaHeaders.findSome? contentTypeHeader) m ∧
      u.media (upload.encode boundary) = upload.media ∧
      u.crc32c = E.crc32cAppend 0 upload.media := by
  obtain ⟨hcr, hlf⟩ := not_mem_marker h.oneLine
  generalize hmarker : boundaryMarker boundary = marker at hcr hlf
  generalize hstop : (crlf ++ marker ++ dashes ++ if upload.ended then crlf else []) = stop
  -- What is left of the file, from the end to the start.
  let mediaPart := utf8 (headerBlock upload.mediaHeaders) ++
    (crlf ++ (crlf ++ (upload.media ++ stop)))
  let behindMetadata := upload.metadata ++ crlf ++ (marker ++ crlf ++ mediaPart)
  have hmediaHeaders := h.mediaHeaders.read (upload.media ++ stop)
  have hmetadataBody : readMetadataLines (marker ++ crlf) [] behindMetadata =
      .ok (upload.metadata ++ crlf, mediaPart) := by
    refine readMetadataLines_spec hlf _ _ [] le_rfl (Or.inr ?_) (fun hocc ↦ ?_) h.short
    · have hne : crlf ≠ [] := List.cons_ne_nil _ _
      rw [List.getLast?_append_of_ne_nil _ hne]
      rfl
    · have hshorter : Occurs (10 :: marker) (10 :: upload.metadata ++ 13 :: [10]) :=
        (List.IsPrefix.isInfix ⟨crlf, by simp⟩).trans hocc
      have hnot : (13 : UInt8) ∉ 10 :: marker := by
        rw [List.mem_cons, not_or]
        exact ⟨by decide, hcr⟩
      rcases (occurs_append_cons hnot).1 hshorter with hocc | hocc
      · exact h.metadataLines (hmarker ▸ hocc)
      · have hlen := hocc.length_le
        have hpos : 2 ≤ marker.length := by
          rw [← hmarker, boundaryMarker, List.length_append]
          exact Nat.le_add_right 2 _
        simp only [List.length_cons, List.length_nil] at hlen
        omega
  have hmetadataHeaders := h.metadataHeaders.read behindMetadata
  have hfile : upload.encode boundary = marker ++ crlf ++
      (utf8 (headerBlock upload.metadataHeaders) ++ (crlf ++ (crlf ++ behindMetadata))) := by
    rw [RelatedUpload.encode]
    rw [hmarker, hstop]
    simp only [encodePart, behindMetadata, mediaPart, List.append_assoc]
  have hmetadata := parseJsonUploadMetadata_stripBreaks hjson hempty h.metadata
  rw [← stripBreaks_append] at hmetadata
  have hstated : mentionsJson (headerBlock upload.metadataHeaders ++ ['\r', '\n']) := by
    obtain ⟨value, hvalue, hmentions⟩ := Option.any_eq_true _ _ |>.1 h.json
    obtain ⟨header, hmem, hheader⟩ := List.exists_of_findSome?_eq_some hvalue
    exact mentionsJson_of_mem _ hmem hheader hmentions
  have hfirst : readLine (upload.encode boundary) = (marker ++ crlf,
      utf8 (headerBlock upload.metadataHeaders) ++ (crlf ++ (crlf ++ behindMetadata))) := by
    rw [hfile, ← hmarker]
    exact readLine_boundary h.oneLine
  -- The media begin behind all of that.
  obtain ⟨pre, hpre⟩ : ∃ pre, upload.encode boundary = pre ++ (upload.media ++ stop) := by
    refine ⟨marker ++ crlf ++ (utf8 (headerBlock upload.metadataHeaders) ++ (crlf ++ (crlf ++
      (upload.metadata ++ crlf ++ (marker ++ crlf ++ (utf8 (headerBlock upload.mediaHeaders) ++
        (crlf ++ crlf))))))), ?_⟩
    rw [hfile]
    simp only [behindMetadata, mediaPart, List.append_assoc]
  have hmedia : spooledMedia E _ _ _ _ _ = _ := spooledMedia_eq pre marker m
    (headerBlock upload.mediaHeaders ++ ['\r', '\n']) upload.media upload.ended
  rw [hstop, ← hpre] at hmedia
  have hcontentType : partContentType (headerBlock upload.mediaHeaders ++ ['\r', '\n']) =
      upload.mediaHeaders.findSome? contentTypeHeader := by
    rw [partContentType, (lines_headerBlock h.mediaHeaders.nonempty h.mediaHeaders.lines).2]
  rw [hcontentType] at hmedia
  refine ⟨⟨m, _, pre.length, upload.media.length, E.crc32cAppend 0 upload.media⟩, ?_, rfl, rfl,
    ?_, rfl⟩
  · rw [parseSpooledMultipartUpload, hboundary]
    dsimp only
    rw [hfirst, hmarker]
    dsimp only
    have hbind : ∀ {α β : Type} (a : α) (f : α → Except UploadMetadataError β),
        (Except.ok a >>= f) = f a := fun _ _ ↦ rfl
    rw [if_neg (not_not_intro rfl), hmetadataHeaders, hbind]
    dsimp only
    rw [if_neg (by rw [hstated]; decide), hmetadataBody, hbind]
    dsimp only
    rw [hmetadata, hbind, hmediaHeaders, hbind]
    exact hmedia
  · rw [SpooledMultipartUpload.media, hpre]
    dsimp only
    rw [List.drop_left, List.take_left]

/-- What is read is not the same when the media come first. -/
def RelatedUpload.swapped (upload : RelatedUpload) : RelatedUpload :=
  { upload with
    metadataHeaders := upload.mediaHeaders
    metadata := upload.media
    mediaHeaders := upload.metadataHeaders
    media := upload.metadata }

/-- **The parser of bodies in memory takes the parts in any order.** -/
theorem parse_swapped (hboundary : multipartBoundary contentType = some boundary)
    (h : upload.WellFormed C boundary m) :
    parseMultipartUpload C contentType (upload.swapped.encode boundary) =
      .ok (m, objectContentType (upload.mediaHeaders.findSome? contentTypeHeader) m,
        upload.media) := by
  have hmedia : addPart C {} (headerBlock upload.mediaHeaders) upload.media =
      .ok ⟨none, upload.mediaHeaders.findSome? contentTypeHeader, some upload.media⟩ := by
    rw [addPart, partContentType_headerBlock h.mediaHeaders, if_neg h.notJson]
    rfl
  have hmetadata : addPart C ⟨none, upload.mediaHeaders.findSome? contentTypeHeader,
      some upload.media⟩ (headerBlock upload.metadataHeaders) upload.metadata =
        .ok ⟨some m, upload.mediaHeaders.findSome? contentTypeHeader, some upload.media⟩ := by
    have hnone : ¬ (none : Option ParsedUploadMetadata).isSome := by decide
    rw [addPart, partContentType_headerBlock h.metadataHeaders, if_pos h.json]
    refine (if_neg hnone).trans ?_
    rw [h.metadata]
    rfl
  exact parse_of_parts hboundary h.oneLine h.mediaHeaders h.media hmedia h.metadataHeaders
    (not_occurs_of_lines h.metadataLines) hmetadata

/-- **The parser of bodies in a file insists on the metadata first.** -/
theorem parseSpooled_swapped (hboundary : multipartBoundary contentType = some boundary)
    (h : upload.WellFormed C boundary m)
    (hjson : ¬ mentionsJson (headerBlock upload.mediaHeaders ++ ['\r', '\n'])) :
    parseSpooledMultipartUpload E C contentType (upload.swapped.encode boundary) =
      invalid "The first multipart part must contain object metadata JSON" := by
  obtain ⟨rest, hrest⟩ : ∃ rest, upload.swapped.encode boundary = boundaryMarker boundary ++ crlf ++
      (utf8 (headerBlock upload.mediaHeaders) ++ (crlf ++ (crlf ++ rest))) := by
    refine ⟨upload.media ++ (crlf ++ boundaryMarker boundary ++ crlf ++
      (encodePart upload.metadataHeaders upload.metadata ++ (crlf ++ boundaryMarker boundary ++
        dashes ++ if upload.ended then crlf else []))), ?_⟩
    show boundaryMarker boundary ++ crlf ++ encodePart upload.mediaHeaders upload.media ++ _ = _
    simp only [encodePart, List.append_assoc]
    rfl
  rw [parseSpooledMultipartUpload, hboundary]
  dsimp only
  rw [hrest, readLine_boundary h.oneLine]
  dsimp only
  rw [if_neg (not_not_intro rfl), h.mediaHeaders.read]
  have hnot : (!mentionsJson (headerBlock upload.mediaHeaders ++ ['\r', '\n'])) = true := by
    rw [eq_false_of_ne_true hjson]
    rfl
  exact if_pos hnot

/-- **Both parsers fail** on a body that does not begin with the line of its boundary. -/
theorem parsers_fail {body : Bytes} (hbody : ∀ boundary, multipartBoundary contentType =
    some boundary → ¬ boundaryMarker boundary ++ crlf <+: body) :
    (∃ e, parseMultipartUpload C contentType body = .error e) ∧
      ∃ e, parseSpooledMultipartUpload E C contentType body = .error e := by
  rcases hboundary : multipartBoundary contentType with _ | boundary
  · constructor
    · rw [parseMultipartUpload, hboundary]
      exact ⟨_, rfl⟩
    · rw [parseSpooledMultipartUpload, hboundary]
      exact ⟨_, rfl⟩
  have hstart := hbody boundary hboundary
  constructor
  · rw [parseMultipartUpload, hboundary]
    dsimp only
    by_cases hmarker : boundaryMarker boundary <+: body
    · obtain ⟨behind, rfl⟩ := hmarker
      rw [if_neg (not_not_intro (List.prefix_append _ _)), readParts,
        if_neg (not_not_intro (List.prefix_append _ _)), List.drop_left]
      by_cases hdashes : dashes <+: behind
      · rw [if_pos hdashes]
        exact ⟨_, rfl⟩
      · have hcrlf : ¬ crlf <+: behind := fun h ↦ hstart (by
          rw [List.prefix_append_right_inj]
          exact h)
        rw [if_neg hdashes, if_pos hcrlf]
        exact ⟨_, rfl⟩
    · rw [if_pos hmarker]
      exact ⟨_, rfl⟩
  · have hline : (readLine body).1 ≠ boundaryMarker boundary ++ crlf := by
      intro heq
      refine hstart ⟨(readLine body).2, ?_⟩
      rw [← heq]
      exact readLine_append body
    rw [parseSpooledMultipartUpload, hboundary]
    dsimp only
    rw [if_pos hline]
    exact ⟨_, rfl⟩

variable (E) in
/-- **The two parsers agree** on every upload that is encoded as it should be: both return its
metadata, its content type and its media, and nothing else. They also agree that a body must begin
with the line of its boundary. Where the media come first only one of them returns the upload. -/
theorem parsers_agree (hjson : ∀ l, C.parseJson (l ++ crlf) = C.parseJson l)
    (hempty : C.parseJson [] = none) (contentType : Text) :
    (∀ boundary (upload : RelatedUpload) m, multipartBoundary contentType = some boundary →
      upload.WellFormed C boundary m →
        parseMultipartUpload C contentType (upload.encode boundary) =
          .ok (m, objectContentType (upload.mediaHeaders.findSome? contentTypeHeader) m,
            upload.media) ∧
        (∃ u, parseSpooledMultipartUpload E C contentType (upload.encode boundary) = .ok u ∧
          u.metadata = m ∧
          u.contentType = objectContentType (upload.mediaHeaders.findSome? contentTypeHeader) m ∧
          u.media (upload.encode boundary) = upload.media ∧
          u.crc32c = E.crc32cAppend 0 upload.media) ∧
        parseMultipartUpload C contentType (upload.swapped.encode boundary) =
          .ok (m, objectContentType (upload.mediaHeaders.findSome? contentTypeHeader) m,
            upload.media) ∧
        (¬ mentionsJson (headerBlock upload.mediaHeaders ++ ['\r', '\n']) →
          parseSpooledMultipartUpload E C contentType (upload.swapped.encode boundary) =
            invalid "The first multipart part must contain object metadata JSON")) ∧
    ∀ body, (∀ boundary, multipartBoundary contentType = some boundary →
      ¬ boundaryMarker boundary ++ crlf <+: body) →
        (∃ e, parseMultipartUpload C contentType body = .error e) ∧
          ∃ e, parseSpooledMultipartUpload E C contentType body = .error e := by
  refine ⟨fun boundary upload m hboundary h ↦ ?_, fun body hbody ↦ parsers_fail hbody⟩
  exact ⟨parse_encode hboundary h, parseSpooled_encode hjson hempty hboundary h,
    parse_swapped hboundary h, parseSpooled_swapped hboundary h⟩

/-! ### An upload -/

/-- The JSON parser, on an object without fields. -/
def Crates.empty : Crates :=
  { Crates.simple with
    parseJson := fun l ↦ if stripBreaks l = [123, 125] then some (.object []) else none }

/-- A short text without a name. -/
def note : RelatedUpload where
  metadataHeaders := ["Content-Type: application/json; charset=UTF-8".toList]
  metadata := [123, 125]
  mediaHeaders := ["Content-Type: text/plain".toList]
  media := [104, 105, 13, 10, 45, 45]

theorem note_wellFormed : note.WellFormed Crates.empty "b".toList {} where
  oneLine := by decide
  metadataHeaders := ⟨by decide, by decide, by decide +kernel⟩
  json := by decide +kernel
  metadata := by
    have hstrip : stripBreaks [123, 125] = [123, 125] := by
      rw [stripBreaks, dif_neg (by decide)]
    have hparse : Crates.empty.parseJson [123, 125] = some (.object []) := if_pos hstrip
    show parseJsonUploadMetadata Crates.empty [123, 125] = _
    rw [parseJsonUploadMetadata, if_neg (by decide), hparse]
    rfl
  short := by decide +kernel
  metadataLines := by decide +kernel
  mediaHeaders := ⟨by decide, by decide, by decide +kernel⟩
  notJson := by decide +kernel
  media := by decide +kernel

theorem parseJson_empty : (∀ l, Crates.empty.parseJson (l ++ crlf) = Crates.empty.parseJson l) ∧
    Crates.empty.parseJson [] = none := by
  refine ⟨fun l ↦ ?_, ?_⟩
  · show (if stripBreaks (l ++ crlf) = _ then _ else _) = _
    rw [stripBreaks_append]
    rfl
  · have hstrip : stripBreaks [] = [] := by rw [stripBreaks, dif_neg (by decide)]
    show (if stripBreaks [] = _ then _ else _) = _
    rw [hstrip]
    rfl

theorem parsers_agree_note :
    parseMultipartUpload Crates.empty "multipart/related; boundary=b".toList
        (note.encode "b".toList) = .ok ({}, "text/plain", [104, 105, 13, 10, 45, 45]) ∧
      ∃ u, parseSpooledMultipartUpload Env.simple Crates.empty
        "multipart/related; boundary=b".toList (note.encode "b".toList) = .ok u ∧
          u.media (note.encode "b".toList) = [104, 105, 13, 10, 45, 45] := by
  have hboundary : multipartBoundary "multipart/related; boundary=b".toList = some "b".toList := by
    decide +kernel
  have hcontentType : objectContentType (note.mediaHeaders.findSome? contentTypeHeader) {} =
      "text/plain" := by decide +kernel
  obtain ⟨hbuffered, ⟨u, hspooled, -, -, hmedia, -⟩, -⟩ :=
    (parsers_agree Env.simple parseJson_empty.1 parseJson_empty.2
      "multipart/related; boundary=b".toList).1 "b".toList note {} hboundary note_wellFormed
  rw [hcontentType] at hbuffered
  exact ⟨hbuffered, u, hspooled, hmedia⟩

/-- **The parsers differ** on the same upload with its media first. -/
theorem parsers_differ_note :
    ∃ result e, parseMultipartUpload Crates.empty "multipart/related; boundary=b".toList
        (note.swapped.encode "b".toList) = .ok result ∧
      parseSpooledMultipartUpload Env.simple Crates.empty "multipart/related; boundary=b".toList
        (note.swapped.encode "b".toList) = .error e := by
  have hboundary : multipartBoundary "multipart/related; boundary=b".toList = some "b".toList := by
    decide +kernel
  exact ⟨_, _, parse_swapped hboundary note_wellFormed,
    parseSpooled_swapped hboundary note_wellFormed (by decide +kernel)⟩

end Files

end Sqrzl.Gcs.Related
