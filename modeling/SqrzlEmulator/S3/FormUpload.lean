import SqrzlEmulator.Auth.Policy
import SqrzlEmulator.Data.Numerals
import SqrzlEmulator.Data.Splitting
import SqrzlEmulator.Data.Unescape

/-!
# Uploads from a browser form

`parse_multipart_form_upload` of `server/handlers/bucket/helpers.rs`: the body of a form is split at
the boundary, and the fields `key` and `file` are taken out of its parts.

**The bytes that are split at are `--` and the boundary**, wherever they are, and not only at the
beginning of a line; the two dashes that end the last boundary are taken off every part; and the
content type of every part counts. So a file is stored as it was sent exactly if neither it nor the
key has the boundary in it or ends with two dashes, and the last content type of the form is the one
of the file (`parse_form_upload_iff`). A boundary in quotation marks is not found
(`parse_of_quoted`).
-/

namespace Sqrzl.S3

open Auth Percent Splitting

/-! ### The parser -/

/-- `slice::strip_suffix` -/
def stripSuffix (stop l : Bytes) : Option Bytes :=
  if stop <:+ l then some (l.take (l.length - stop.length)) else none

/-- `slice::strip_prefix` -/
def stripPrefix (start l : Bytes) : Option Bytes :=
  if start <+: l then some (l.drop start.length) else none

/-- `"\r\n"` -/
def crlf : Bytes := [13, 10]

/-- `"--"` -/
def dashes : Bytes := [45, 45]

/-- What the headers of a part say. -/
structure PartHead where
  fieldName : Option Text := none
  filename : Option Text := none
  fileContentType : Text

/-- `str::trim_end_matches('"')` -/
def trimEndQuotes (t : Text) : Text := (t.reverse.dropWhile (· = '"')).reverse

/-- A parameter of a disposition. -/
def readToken (head : PartHead) (token : Text) : PartHead :=
  match stripStart "name=\"".toList token with
  | some name => { head with fieldName := some (trimEndQuotes name) }
  | none =>
    match stripStart "filename=\"".toList token with
    | some name => { head with filename := some (trimEndQuotes name) }
    | none => head

/-- A header of a part. -/
def readHeader (head : PartHead) (header : Text) : PartHead :=
  let lower := toLower header
  if "content-disposition:".toList.isPrefixOf lower then
    (((header.splitOn ';').drop 1).map trimmed).foldl readToken head
  else if "content-type:".toList.isPrefixOf lower then
    { head with
      fileContentType := match Sqrzl.splitOnce ':' header with
        | none => "application/octet-stream".toList
        | some (_, value) => trimmed value }
  else
    head

/-- The headers of a part, one in each line. -/
def readHeaders (fileContentType rawHeaders : Text) : PartHead :=
  (splitAt ['\r', '\n'] (List.cons_ne_nil _ _) rawHeaders).foldl readHeader
    { fileContentType := fileContentType }

/-- What was taken out of the parts so far. -/
structure FormState where
  key : Option Text := none
  file : Option Bytes := none
  fileContentType : Text := "application/octet-stream".toList

/-- A part without the dashes of the last boundary. -/
def withoutDashes (part : Bytes) : Bytes :=
  (stripSuffix (dashes ++ crlf) part <|> stripSuffix dashes part).getD part

/-- What a part adds. -/
def readPart (state : FormState) (rawPart : Bytes) : Option FormState :=
  let part := (stripPrefix crlf rawPart).getD rawPart
  if part.isEmpty || part = dashes ++ crlf || part = dashes then some state
  else
    match Splitting.splitOnce (crlf ++ crlf) (withoutDashes part) with
    | none => some state
    | some (rawHeaders, rawBody) =>
      let fieldBody := (stripSuffix crlf rawBody).getD rawBody
      match fromUtf8 rawHeaders with
      | none => none
      | some rawHeaders =>
        let head := readHeaders state.fileContentType rawHeaders
        if head.fieldName = some "key".toList then
          (fromUtf8 fieldBody).map fun key ↦
            { state with key := some key, fileContentType := head.fileContentType }
        else if head.fieldName = some "file".toList && head.filename.isSome then
          some { state with file := some fieldBody, fileContentType := head.fileContentType }
        else
          some { state with fileContentType := head.fileContentType }

/-- The bytes that parts are split at. -/
def boundaryMarker (boundary : Text) : Bytes := dashes ++ utf8 boundary

theorem boundaryMarker_ne_nil (boundary : Text) : boundaryMarker boundary ≠ [] := List.cons_ne_nil _ _

/-- The boundary that a content type names. -/
def boundaryOf (contentType : Text) : Option Text :=
  ((contentType.splitOn ';').map trimmed).findSome? (stripStart "boundary=".toList)

/-- What was found in all parts. -/
def FormState.finish (state : FormState) : Option (Text × Bytes × Text) :=
  match state.key, state.file with
  | some key, some file => some (key, file, state.fileContentType)
  | _, _ => none

/-- `parse_multipart_form_upload` -/
def parseMultipartFormUpload (contentType : Text) (body : Bytes) : Option (Text × Bytes × Text) :=
  (boundaryOf contentType).bind fun boundary ↦
    ((splitAt (boundaryMarker boundary) (boundaryMarker_ne_nil boundary) body).foldlM readPart
      {}).bind FormState.finish

/-! ### Forms -/

/-- A parameter in quotation marks. -/
def parameter (start value : Text) : Text := start ++ value ++ ['"']

/-- A field of a form. -/
structure FormField where
  name : Text
  filename : Option Text := none
  contentType : Option Text := none
  content : Bytes

namespace FormField

/-- The field holds the key. -/
def isKey (field : FormField) : Bool := field.name = "key".toList

/-- The field holds the file. -/
def isFile (field : FormField) : Bool := field.name = "file".toList && field.filename.isSome

/-- The parameters of the disposition. -/
def parameters (field : FormField) : List Text :=
  parameter "name=\"".toList field.name ::
    (field.filename.map (parameter "filename=\"".toList)).toList

/-- The header that names the field. -/
def disposition (field : FormField) : Text :=
  "Content-Disposition: form-data".toList ++ field.parameters.flatMap fun p ↦ ';' :: ' ' :: p

/-- The headers of the field. -/
def head (field : FormField) : Text :=
  match field.contentType with
  | none => field.disposition
  | some contentType =>
    field.disposition ++ ['\r', '\n'] ++ ("Content-Type: ".toList ++ contentType)

/-- What stands between two boundaries. -/
def block (field : FormField) : Bytes :=
  crlf ++ (utf8 field.head ++ (crlf ++ crlf) ++ (field.content ++ crlf))

end FormField

/-- The form, each part after a boundary, and two dashes after the last one. -/
def encodeForm (boundary : Text) (fields : List FormField) : Bytes :=
  fields.flatMap (fun field ↦ boundaryMarker boundary ++ field.block) ++
    (boundaryMarker boundary ++ (dashes ++ crlf))

/-- The characters of a boundary. -/
def boundaryChars : Text :=
  "0123456789abcdefghijklmnopqrstuvwxyzABCDEFGHIJKLMNOPQRSTUVWXYZ'()+_,-./:=? ".toList

/-- A boundary does not end with a space. -/
structure IsBoundary (boundary : Text) : Prop where
  ne_nil : boundary ≠ []
  chars : ∀ c ∈ boundary, c ∈ boundaryChars
  last : boundary.getLast? ≠ some ' '

/-- A boundary as the content type has it. -/
def writtenBoundary (quoted : Bool) (boundary : Text) : Text :=
  if quoted then '"' :: boundary ++ ['"'] else boundary

/-- The content type of a form. -/
def formContentType (quoted : Bool) (boundary : Text) : Text :=
  "multipart/form-data; boundary=".toList ++ writtenBoundary quoted boundary

/-- A text without quotation marks, semicolons and line breaks. -/
def PlainText (t : Text) : Prop := ∀ c ∈ t, c ≠ '"' ∧ c ≠ ';' ∧ c ≠ '\r' ∧ c ≠ '\n'

/-- What the headers of a field can hold. -/
structure FormField.WellFormed (field : FormField) : Prop where
  name : PlainText field.name
  filename : ∀ filename ∈ field.filename, PlainText filename
  contentType : ∀ contentType ∈ field.contentType, trimmed contentType = contentType ∧
    ∀ c ∈ contentType, c ≠ '\r' ∧ c ≠ '\n'

/-! ### Reading a head -/

variable {field : FormField} {t : Text}

theorem stripStart_append (start t : Text) : stripStart start (start ++ t) = some t := by
  rw [stripStart, if_pos (List.isPrefixOf_iff_prefix.2 (List.prefix_append _ _)), List.drop_left]

theorem dropWhile_of_head {p : Char → Bool} (h : ∀ c ∈ t.head?, p c = false) :
    t.dropWhile p = t := by
  cases t with
  | nil => rfl
  | cons c t => rw [List.dropWhile_cons, if_neg (by rw [h c rfl]; decide)]

/-- Only what is around a text is trimmed. -/
theorem trimmed_space (hfirst : ∀ c ∈ t.head?, isWhitespace c = false)
    (hlast : ∀ c ∈ t.getLast?, isWhitespace c = false) : trimmed (' ' :: t) = t := by
  rw [trimmed, List.dropWhile_cons, if_pos (by decide), dropWhile_of_head hfirst,
    dropWhile_of_head (by rwa [List.head?_reverse]), List.reverse_reverse]

theorem trimEndQuotes_concat (h : '"' ∉ t) : trimEndQuotes (t ++ ['"']) = t := by
  have hhead : ∀ c ∈ t.reverse.head?, decide (c = '"') = false := by
    intro c hc
    have hmem : c ∈ t := List.mem_reverse.1 (List.mem_of_mem_head? hc)
    exact decide_eq_false fun heq ↦ h (heq ▸ hmem)
  rw [trimEndQuotes, List.reverse_concat, List.dropWhile_cons, if_pos (by decide),
    dropWhile_of_head hhead, List.reverse_reverse]

/-- A parameter is trimmed to itself. -/
theorem trimmed_parameter {start value : Text} (hne : start ≠ [])
    (hstart : ∀ c ∈ start, isWhitespace c = false) :
    trimmed (' ' :: parameter start value) = parameter start value := by
  refine trimmed_space (fun c hc ↦ ?_) fun c hc ↦ ?_
  · rw [parameter, List.append_assoc, List.head?_append_of_ne_nil _ hne] at hc
    exact hstart c (List.mem_of_mem_head? hc)
  · rw [parameter, List.getLast?_concat] at hc
    obtain rfl : '"' = c := Option.some.inj hc
    decide

/-- Texts without semicolons are found again between semicolons. -/
theorem splitOn_flatMap {first : Text} {ps : List Text} (hfirst : ';' ∉ first)
    (hps : ∀ p ∈ ps, ';' ∉ p) :
    (first ++ ps.flatMap fun p ↦ ';' :: ' ' :: p).splitOn ';' = first :: ps.map (' ' :: ·) := by
  induction ps generalizing first with
  | nil => rw [List.flatMap_nil, List.append_nil, List.splitOn_eq_singleton hfirst, List.map_nil]
  | cons p ps ih =>
    have hp : ';' ∉ ' ' :: p := fun hmem ↦
      (List.mem_cons.1 hmem).elim (by decide) (hps p List.mem_cons_self)
    rw [List.flatMap_cons, List.cons_append, List.splitOn_append_cons_self,
      List.splitOn_eq_singleton hfirst, ih hp fun q hq ↦ hps q (List.mem_cons_of_mem _ hq)]
    rfl

/-- The tokens of a disposition behind its first one are its parameters. -/
theorem tokens_disposition (h : field.WellFormed) :
    ((field.disposition.splitOn ';').drop 1).map trimmed = field.parameters := by
  have hparameter : ∀ {start value : Text}, ';' ∉ start → PlainText value →
      ';' ∉ parameter start value := by
    intro start value hstart hvalue hmem
    rcases List.mem_append.1 hmem with hmem | hmem
    · rcases List.mem_append.1 hmem with hmem | hmem
      · exact hstart hmem
      · exact (hvalue _ hmem).2.1 rfl
    · exact absurd hmem (by decide)
  have hps : ∀ p ∈ field.parameters, ';' ∉ p ∧ trimmed (' ' :: p) = p := by
    intro p hp
    rcases List.mem_cons.1 hp with rfl | hp
    · exact ⟨hparameter (by decide) h.name, trimmed_parameter (by decide) (by decide)⟩
    · obtain ⟨filename, hfilename, rfl⟩ := Option.map_eq_some_iff.1 (Option.mem_toList.1 hp)
      exact ⟨hparameter (by decide) (h.filename filename hfilename),
        trimmed_parameter (by decide) (by decide)⟩
  have hfirst : ';' ∉ "Content-Disposition: form-data".toList := by decide
  have htrimmed : field.parameters.map (fun p ↦ trimmed (' ' :: p)) = field.parameters.map id :=
    List.map_congr_left fun p hp ↦ (hps p hp).2
  have hsplit : field.disposition.splitOn ';' =
      "Content-Disposition: form-data".toList :: field.parameters.map (' ' :: ·) :=
    splitOn_flatMap hfirst fun p hp ↦ (hps p hp).1
  rw [hsplit, List.drop_succ_cons, List.drop_zero, List.map_map]
  exact htrimmed.trans (List.map_id _)

/-- A disposition names the field. -/
theorem readHeader_disposition (h : field.WellFormed) (contentType : Text) :
    readHeader { fileContentType := contentType } field.disposition =
      ⟨some field.name, field.filename, contentType⟩ := by
  have hlower : "content-disposition:".toList.isPrefixOf (toLower field.disposition) = true := by
    have hstart : "content-disposition:".toList <+:
        toLower "Content-Disposition: form-data".toList := by decide
    have happend : toLower field.disposition = toLower "Content-Disposition: form-data".toList ++
        toLower (field.parameters.flatMap fun p ↦ ';' :: ' ' :: p) := List.map_append
    rw [List.isPrefixOf_iff_prefix, happend]
    exact hstart.trans (List.prefix_append _ _)
  have hquote : ∀ {t : Text}, PlainText t → trimEndQuotes (t ++ ['"']) = t := fun ht ↦
    trimEndQuotes_concat fun hmem ↦ (ht _ hmem).1 rfl
  have hname : ∀ head : PartHead, readToken head (parameter "name=\"".toList field.name) =
      { head with fieldName := some field.name } := by
    intro head
    rw [readToken, parameter, List.append_assoc, stripStart_append]
    dsimp only
    rw [hquote h.name]
  have hfilename : ∀ (head : PartHead) (filename : Text), PlainText filename →
      readToken head (parameter "filename=\"".toList filename) =
        { head with filename := some filename } := by
    intro head filename hplain
    have hother : stripStart "name=\"".toList (parameter "filename=\"".toList filename) = none := rfl
    rw [readToken, hother, parameter, List.append_assoc, stripStart_append]
    dsimp only
    rw [hquote hplain]
  rw [readHeader, if_pos hlower, tokens_disposition h, FormField.parameters, List.foldl_cons, hname]
  cases hfile : field.filename with
  | none => rfl
  | some filename =>
    rw [Option.map_some, Option.toList_some, List.foldl_cons, List.foldl_nil,
      hfilename _ _ (h.filename filename hfile)]

/-- A content type is read from its header. -/
theorem readHeader_contentType {contentType : Text} (h : trimmed contentType = contentType)
    (head : PartHead) : readHeader head ("Content-Type: ".toList ++ contentType) =
      { head with fileContentType := contentType } := by
  have hother : "content-disposition:".toList.isPrefixOf
      (toLower ("Content-Type: ".toList ++ contentType)) = false := rfl
  have hlower : "content-type:".toList.isPrefixOf
      (toLower ("Content-Type: ".toList ++ contentType)) = true := rfl
  have hsplit : Sqrzl.splitOnce ':' ("Content-Type: ".toList ++ contentType) =
      some ("Content-Type".toList, ' ' :: contentType) :=
    splitOnce_eq_some_iff.2 ⟨by decide, rfl⟩
  have htrimmed : trimmed (' ' :: contentType) = contentType := by
    rw [trimmed, List.dropWhile_cons, if_pos (by decide)]
    exact h
  simp only [readHeader, hother, hlower, hsplit, htrimmed, if_true, Bool.false_eq_true, if_false]

/-- There are no line breaks in a disposition. -/
theorem lineBreak_not_mem_disposition (h : field.WellFormed) :
    ∀ c ∈ field.disposition, c ≠ '\r' ∧ c ≠ '\n' := by
  have hparameter : ∀ {start value : Text}, (∀ c ∈ start, c ≠ '\r' ∧ c ≠ '\n') → PlainText value →
      ∀ c ∈ parameter start value, c ≠ '\r' ∧ c ≠ '\n' := by
    intro start value hstart hvalue c hc
    rcases List.mem_append.1 hc with hc | hc
    · rcases List.mem_append.1 hc with hc | hc
      · exact hstart c hc
      · exact ⟨(hvalue c hc).2.2.1, (hvalue c hc).2.2.2⟩
    · rw [List.mem_singleton.1 hc]
      decide
  have hps : ∀ p ∈ field.parameters, ∀ c ∈ p, c ≠ '\r' ∧ c ≠ '\n' := by
    intro p hp
    rcases List.mem_cons.1 hp with rfl | hp
    · exact hparameter (by decide) h.name
    · obtain ⟨filename, hfilename, rfl⟩ := Option.map_eq_some_iff.1 (Option.mem_toList.1 hp)
      exact hparameter (by decide) (h.filename filename hfilename)
  intro c hc
  rcases List.mem_append.1 hc with hc | hc
  · exact (by decide : ∀ c ∈ "Content-Disposition: form-data".toList, c ≠ '\r' ∧ c ≠ '\n') c hc
  · obtain ⟨p, hp, hc⟩ := List.mem_flatMap.1 hc
    simp only [List.mem_cons] at hc
    rcases hc with rfl | rfl | hc
    · decide
    · decide
    · exact hps p hp c hc

/-- **What the headers of a field say is read.** -/
theorem readHeaders_head (h : field.WellFormed) (contentType : Text) :
    readHeaders contentType field.head =
      ⟨some field.name, field.filename, field.contentType.getD contentType⟩ := by
  have hline : ∀ {t : Text}, (∀ c ∈ t, c ≠ '\r' ∧ c ≠ '\n') → ¬ Occurs ['\r', '\n'] t := by
    rintro t ht ⟨u, v, rfl⟩
    exact (ht '\r' (by simp)).1 rfl
  have hdisposition := lineBreak_not_mem_disposition h
  rw [readHeaders, FormField.head]
  cases htype : field.contentType with
  | none =>
    dsimp only
    rw [splitAt_of_not_occurs (hline hdisposition), List.foldl_cons, List.foldl_nil,
      readHeader_disposition h]
    rfl
  | some ct =>
    obtain ⟨htrimmed, hct⟩ := h.contentType ct htype
    have hsecond : ¬ Occurs ['\r', '\n'] ("Content-Type: ".toList ++ ct) :=
      hline fun c hc ↦ (List.mem_append.1 hc).elim
        ((by decide : ∀ c ∈ "Content-Type: ".toList, c ≠ '\r' ∧ c ≠ '\n') c) (hct c)
    have hlast : ∀ c ∈ field.disposition.getLast?, c ∉ ['\r', '\n'] := by
      intro c hc hmem
      have hc' := hdisposition c (List.mem_of_getLast? hc)
      simp only [List.mem_cons, List.not_mem_nil, or_false] at hmem
      exact hmem.elim hc'.1 hc'.2
    dsimp only
    rw [splitAt_append (hline hdisposition) hlast, splitAt_of_not_occurs hsecond, List.foldl_cons,
      List.foldl_cons, List.foldl_nil, readHeader_disposition h, readHeader_contentType htrimmed]
    rfl

/-! ### Reading a part -/

theorem not_mem_utf8 {b : UInt8} (hb : b.toNat < 128) (h : ∀ c ∈ t, c.toNat ≠ b.toNat) :
    b ∉ utf8 t := by
  intro hmem
  obtain ⟨c, hc, hbc⟩ := List.mem_flatMap.1 hmem
  exact h c hc (toNat_eq_of_mem hb hbc)

/-- The bytes of a line have no line breaks. -/
theorem lineBreak_not_mem_utf8 (h : ∀ c ∈ t, c ≠ '\r' ∧ c ≠ '\n') :
    (13 : UInt8) ∉ utf8 t ∧ (10 : UInt8) ∉ utf8 t := by
  have hne : ∀ {c d : Char}, c ≠ d → c.toNat ≠ d.toNat := fun hcd heq ↦
    hcd (Char.ext (UInt32.toNat_inj.1 heq))
  exact ⟨not_mem_utf8 (by decide) fun c hc ↦ hne (h c hc).1,
    not_mem_utf8 (by decide) fun c hc ↦ hne (h c hc).2⟩

/-- **There is no empty line among the headers**, and they end in a line. -/
theorem head_lines (h : field.WellFormed) : ¬ Occurs (crlf ++ crlf) (utf8 field.head) ∧
    ∀ b ∈ (utf8 field.head).getLast?, b ∉ crlf ++ crlf := by
  have hcount : ∀ {l : Bytes}, l.count 10 ≤ 1 → ¬ Occurs (crlf ++ crlf) l := by
    intro l hl hocc
    have hle := (List.IsInfix.sublist hocc).count_le (10 : UInt8)
    have htwo : (crlf ++ crlf).count (10 : UInt8) = 2 := by decide
    omega
  have hlast : ∀ {l l' : Bytes}, l ≠ [] → (13 : UInt8) ∉ l ∧ (10 : UInt8) ∉ l →
      ∀ b ∈ (l' ++ l).getLast?, b ∉ crlf ++ crlf := by
    intro l l' hne hl b hb hmem
    rw [List.getLast?_append_of_ne_nil _ hne] at hb
    have hbl := List.mem_of_getLast? hb
    simp only [crlf, List.cons_append, List.nil_append, List.mem_cons, List.not_mem_nil,
      or_false] at hmem
    rcases hmem with rfl | rfl | rfl | rfl
    · exact hl.1 hbl
    · exact hl.2 hbl
    · exact hl.1 hbl
    · exact hl.2 hbl
  have hdisposition := lineBreak_not_mem_utf8 (lineBreak_not_mem_disposition h)
  have hfirst : utf8 field.disposition ≠ [] := by
    have hstart : "Content-Disposition: form-data".toList ≠ [] := by decide
    intro hnil
    have hempty : "Content-Disposition: form-data".toList ++
        (field.parameters.flatMap fun p ↦ ';' :: ' ' :: p) = [] := utf8_eq_nil hnil
    exact List.append_ne_nil_of_left_ne_nil hstart _ hempty
  rw [FormField.head]
  cases htype : field.contentType with
  | none =>
    dsimp only
    refine ⟨hcount (by rw [List.count_eq_zero.2 hdisposition.2]; exact Nat.zero_le 1), ?_⟩
    have hend := @hlast _ [] hfirst hdisposition
    rwa [List.nil_append] at hend
  | some ct =>
    obtain ⟨-, hct⟩ := h.contentType ct htype
    have hline := lineBreak_not_mem_utf8 (t := "Content-Type: ".toList ++ ct) fun c hc ↦
      (List.mem_append.1 hc).elim
        ((by decide : ∀ c ∈ "Content-Type: ".toList, c ≠ '\r' ∧ c ≠ '\n') c) (hct c)
    have hsecond : utf8 ("Content-Type: ".toList ++ ct) ≠ [] := by
      have hstart : "Content-Type: ".toList ≠ [] := by decide
      exact fun hnil ↦ List.append_ne_nil_of_left_ne_nil hstart _ (utf8_eq_nil hnil)
    dsimp only
    rw [utf8_append]
    refine ⟨hcount ?_, hlast hsecond hline⟩
    have hbreak : (utf8 ['\r', '\n']).count (10 : UInt8) = 1 := by decide
    rw [utf8_append, List.count_append, List.count_append, List.count_eq_zero.2 hdisposition.2,
      List.count_eq_zero.2 hline.2, hbreak]

theorem stripSuffix_append (a stop : Bytes) : stripSuffix stop (a ++ stop) = some a := by
  rw [stripSuffix, if_pos (List.suffix_append _ _), List.length_append, Nat.add_sub_cancel,
    List.take_left]

/-- What is kept of a content: the dashes at its end are lost, and a line break before them. -/
def keptContent (content : Bytes) : Bytes :=
  if dashes <:+ content then
    (stripSuffix crlf (content.take (content.length - 2))).getD (content.take (content.length - 2))
  else content

/-- **A content is kept exactly if it does not end with two dashes.** -/
theorem keptContent_eq_iff {content : Bytes} :
    keptContent content = content ↔ ¬ dashes <:+ content := by
  rw [keptContent]
  split
  · next hdashes =>
    refine iff_of_false (fun heq ↦ ?_) (not_not.2 hdashes)
    have hstrip : ∀ l : Bytes, ((stripSuffix crlf l).getD l).length ≤ l.length := by
      intro l
      rw [stripSuffix]
      split
      · exact List.length_take_le' _ _
      · exact Nat.le_refl _
    have hle := hstrip (content.take (content.length - 2))
    have htwo : 2 ≤ content.length := hdashes.length_le
    rw [heq, List.length_take] at hle
    omega
  · next hdashes => exact iff_of_true rfl hdashes

/-- The dashes at the end of a part are those at the end of its content. -/
theorem withoutDashes_eq {before content : Bytes} :
    withoutDashes (before ++ (crlf ++ crlf) ++ (content ++ crlf)) =
      before ++ (crlf ++ crlf) ++
        if dashes <:+ content then content.take (content.length - 2) else content ++ crlf := by
  rw [withoutDashes]
  by_cases hdashes : dashes <:+ content
  · obtain ⟨rest, rfl⟩ := hdashes
    have hpart : before ++ (crlf ++ crlf) ++ (rest ++ dashes ++ crlf) =
        before ++ (crlf ++ crlf) ++ rest ++ (dashes ++ crlf) := by simp
    have htake : (rest ++ dashes).take ((rest ++ dashes).length - 2) = rest := by
      rw [List.length_append, show dashes.length = 2 from rfl, Nat.add_sub_cancel, List.take_left]
    rw [hpart, stripSuffix_append, if_pos (List.suffix_append _ _), htake]
    rfl
  · have hboth : ¬ dashes ++ crlf <:+ before ++ (crlf ++ crlf) ++ (content ++ crlf) := by
      rintro ⟨u, hu⟩
      have hcut : u ++ dashes = (before ++ [13, 10, 13]) ++ 10 :: content := by
        refine @List.append_cancel_right _ _ crlf _ ?_
        rw [List.append_assoc, hu]
        simp [crlf]
      rcases List.append_eq_append_iff.1 hcut with ⟨c, -, hc⟩ | ⟨c, -, hc⟩
      · -- the line break before the content is not a dash
        have hmem : (10 : UInt8) ∈ dashes := by
          rw [hc]
          simp
        exact absurd hmem (by decide)
      · cases c with
        | nil =>
          have hmem : (10 : UInt8) ∈ dashes := by
            rw [show dashes = 10 :: content from hc.symm]
            exact List.mem_cons_self
          exact absurd hmem (by decide)
        | cons x c =>
          obtain ⟨-, rfl⟩ := List.cons_eq_cons.1 hc
          exact hdashes (List.suffix_append _ _)
    have hlast : ¬ dashes <:+ before ++ (crlf ++ crlf) ++ (content ++ crlf) := by
      rintro ⟨u, hu⟩
      rw [← List.append_assoc _ content crlf] at hu
      exact absurd (List.append_inj' hu rfl).2 (by decide)
    rw [stripSuffix, if_neg hboth, stripSuffix, if_neg hlast, if_neg hdashes]
    rfl

/-- **What a field adds.** -/
theorem readPart_block (h : field.WellFormed) (state : FormState) :
    readPart state field.block =
      let contentType := field.contentType.getD state.fileContentType
      if field.isKey then
        (fromUtf8 (keptContent field.content)).map fun key ↦
          { state with key := some key, fileContentType := contentType }
      else if field.isFile then
        some { state with file := some (keptContent field.content), fileContentType := contentType }
      else some { state with fileContentType := contentType } := by
  have hstart : (stripPrefix crlf field.block).getD field.block =
      utf8 field.head ++ (crlf ++ crlf) ++ (field.content ++ crlf) := by
    rw [FormField.block, stripPrefix, if_pos (List.prefix_append _ _), Option.getD_some,
      List.drop_left]
  have hnot : ¬ ((utf8 field.head ++ (crlf ++ crlf) ++ (field.content ++ crlf)).isEmpty ||
      utf8 field.head ++ (crlf ++ crlf) ++ (field.content ++ crlf) = dashes ++ crlf ||
      utf8 field.head ++ (crlf ++ crlf) ++ (field.content ++ crlf) = dashes) := by
    have hcount : 2 ≤ (utf8 field.head ++ (crlf ++ crlf) ++ (field.content ++ crlf)).count 10 := by
      have htwo : (crlf ++ crlf).count (10 : UInt8) = 2 := by decide
      rw [List.count_append, List.count_append, htwo]
      omega
    have hfew : ([] : Bytes).count 10 < 2 ∧ (dashes ++ crlf).count 10 < 2 ∧ dashes.count 10 < 2 := by
      decide
    simp only [Bool.or_eq_true, List.isEmpty_iff, decide_eq_true_eq]
    rintro ((heq | heq) | heq)
    · exact absurd (heq ▸ hcount) (not_le.2 hfew.1)
    · exact absurd (heq ▸ hcount) (not_le.2 hfew.2.1)
    · exact absurd (heq ▸ hcount) (not_le.2 hfew.2.2)
  have hbody : (stripSuffix crlf (if dashes <:+ field.content then
      field.content.take (field.content.length - 2) else field.content ++ crlf)).getD
        (if dashes <:+ field.content then field.content.take (field.content.length - 2)
          else field.content ++ crlf) = keptContent field.content := by
    rw [keptContent]
    split
    · rfl
    · rw [stripSuffix_append]
      rfl
  obtain ⟨hlines, hlast⟩ := head_lines h
  rw [readPart]
  simp only [hstart, if_neg hnot, withoutDashes_eq, splitOnce_append hlines hlast,
    fromUtf8_eq_some_iff.2 rfl, readHeaders_head h, hbody]
  simp only [FormField.isKey, FormField.isFile, Option.some.injEq, decide_eq_true_eq]
  rfl

/-! ### Splitting a form -/

variable {boundary : Text} {fields : List FormField} {word : Bytes}

/-- A word without line breaks is in one of the lines around a part, or of the part. -/
theorem occurs_part {before behind : Bytes} (hr : (13 : UInt8) ∉ word) (hn : (10 : UInt8) ∉ word)
    (hne : word ≠ []) : Occurs word (before ++ (field.block ++ behind)) ↔ Occurs word before ∨
      Occurs word (utf8 field.head) ∨ Occurs word field.content ∨ Occurs word behind := by
  have hnil : ¬ Occurs word [] := fun h ↦ hne (List.infix_nil.1 h)
  have hlines : before ++ (field.block ++ behind) = before ++ 13 :: ([] ++ 10 ::
      (utf8 field.head ++ 13 :: ([] ++ 10 :: ([] ++ 13 :: ([] ++ 10 ::
        (field.content ++ 13 :: ([] ++ 10 :: behind))))))) := by
    simp [FormField.block, crlf]
  rw [hlines]
  simp only [occurs_append_cons hr, occurs_append_cons hn, hnil, false_or]

theorem occurs_block (hr : (13 : UInt8) ∉ word) (hn : (10 : UInt8) ∉ word) (hne : word ≠ []) :
    Occurs word field.block ↔ Occurs word (utf8 field.head) ∨ Occurs word field.content := by
  have hnil : ¬ Occurs word [] := fun h ↦ hne (List.infix_nil.1 h)
  have hpart := @occurs_part field _ [] [] hr hn hne
  simpa only [List.nil_append, List.append_nil, hnil, false_or, or_false] using hpart

theorem getLast?_block (field : FormField) : field.block.getLast? = some 10 := by
  have hblock : field.block = (crlf ++ (utf8 field.head ++ (crlf ++ crlf) ++
      (field.content ++ [13]))) ++ [10] := by
    simp [FormField.block, crlf]
  rw [hblock, List.getLast?_concat]

/-- There are no line breaks in a boundary, and no quotation marks. -/
theorem IsBoundary.not_mem (h : IsBoundary boundary) :
    (13 : UInt8) ∉ utf8 boundary ∧ (10 : UInt8) ∉ utf8 boundary ∧ (34 : UInt8) ∉ utf8 boundary := by
  have hchars : ∀ c ∈ boundaryChars, c.toNat ≠ 13 ∧ c.toNat ≠ 10 ∧ c.toNat ≠ 34 := by decide
  exact ⟨not_mem_utf8 (by decide) fun c hc ↦ (hchars c (h.chars c hc)).1,
    not_mem_utf8 (by decide) fun c hc ↦ (hchars c (h.chars c hc)).2.1,
    not_mem_utf8 (by decide) fun c hc ↦ (hchars c (h.chars c hc)).2.2⟩

/-- The bytes that parts are split at are not in a line break. -/
theorem IsBoundary.marker (h : IsBoundary boundary) :
    (13 : UInt8) ∉ boundaryMarker boundary ∧ (10 : UInt8) ∉ boundaryMarker boundary := by
  obtain ⟨hr, hn, -⟩ := h.not_mem
  exact ⟨fun hmem ↦ (List.mem_append.1 hmem).elim (by decide) hr,
    fun hmem ↦ (List.mem_append.1 hmem).elim (by decide) hn⟩

/-- The end of a form is not split. -/
theorem not_occurs_end (h : IsBoundary boundary) :
    ¬ Occurs (boundaryMarker boundary) (dashes ++ crlf) := by
  obtain ⟨hr, hn⟩ := h.marker
  have hend : dashes ++ crlf = dashes ++ 13 :: ([] ++ 10 :: []) := rfl
  have hnil : ¬ Occurs (boundaryMarker boundary) [] :=
    fun hocc ↦ boundaryMarker_ne_nil boundary (List.infix_nil.1 hocc)
  rw [hend, occurs_append_cons hr, occurs_append_cons hn]
  rintro (hocc | hocc | hocc)
  · -- a boundary is longer than two dashes
    have hle := List.IsInfix.length_le hocc
    have hpos : 0 < (utf8 boundary).length :=
      List.length_pos_iff.2 fun hnil ↦ h.ne_nil (utf8_eq_nil hnil)
    rw [boundaryMarker, List.length_append] at hle
    omega
  · exact hnil hocc
  · exact hnil hocc

/-- **A form is split into its parts**, if the boundary is in none of them. -/
theorem splitAt_encodeForm (h : IsBoundary boundary)
    (hfree : ∀ field ∈ fields, ¬ Occurs (boundaryMarker boundary) field.block) :
    splitAt (boundaryMarker boundary) (boundaryMarker_ne_nil boundary) (encodeForm boundary fields) =
      [] :: fields.map FormField.block ++ [dashes ++ crlf] := by
  -- the induction is on the fields behind a first part
  have hsplit : ∀ (fields : List FormField) (first : Bytes),
      (∀ field ∈ fields, ¬ Occurs (boundaryMarker boundary) field.block) →
      ¬ Occurs (boundaryMarker boundary) first →
      (∀ b ∈ first.getLast?, b ∉ boundaryMarker boundary) →
      splitAt (boundaryMarker boundary) (boundaryMarker_ne_nil boundary)
        (first ++ encodeForm boundary fields) =
          first :: fields.map FormField.block ++ [dashes ++ crlf] := by
    intro fields
    induction fields with
    | nil =>
      intro first _ hfirst hlast
      rw [encodeForm, List.flatMap_nil, List.nil_append, ← List.append_assoc,
        splitAt_append hfirst hlast, splitAt_of_not_occurs (not_occurs_end h)]
      rfl
    | cons field fields ih =>
      intro first hfree hfirst hlast
      have hform : first ++ encodeForm boundary (field :: fields) =
          first ++ boundaryMarker boundary ++ (field.block ++ encodeForm boundary fields) := by
        simp [encodeForm]
      rw [hform, splitAt_append hfirst hlast, ih field.block
        (fun f hf ↦ hfree f (List.mem_cons_of_mem _ hf)) (hfree field List.mem_cons_self) ?_]
      · rfl
      · intro b hb
        rw [getLast?_block] at hb
        obtain rfl := Option.some.inj hb
        exact h.marker.2
  have hnil : ¬ Occurs (boundaryMarker boundary) [] :=
    fun hocc ↦ boundaryMarker_ne_nil boundary (List.infix_nil.1 hocc)
  exact hsplit fields [] hfree hnil fun b hb ↦ by cases hb

/-! ### What is found -/

theorem stripPrefix_getD_suffix (start l : Bytes) : (stripPrefix start l).getD l <:+ l := by
  rw [stripPrefix]
  split
  · exact List.drop_suffix _ _
  · exact List.suffix_rfl

theorem stripSuffix_getD_isPrefix (stop l : Bytes) : (stripSuffix stop l).getD l <+: l := by
  rw [stripSuffix]
  split
  · exact List.take_prefix _ _
  · exact List.prefix_rfl

theorem withoutDashes_isPrefix (part : Bytes) : withoutDashes part <+: part := by
  rw [withoutDashes]
  cases hboth : stripSuffix (dashes ++ crlf) part with
  | none => exact stripSuffix_getD_isPrefix dashes part
  | some rest =>
    have hprefix := stripSuffix_getD_isPrefix (dashes ++ crlf) part
    rwa [hboth] at hprefix

/-- **A part adds a key or a file, or neither**, and what it adds is in the part. -/
theorem readPart_cases {state state' : FormState} {part : Bytes}
    (h : readPart state part = some state') :
    (state'.key = state.key ∧ state'.file = state.file) ∨
      (∃ key, utf8 key <:+: part ∧ state'.key = some key ∧ state'.file = state.file) ∨
      ∃ file, file <:+: part ∧ state'.key = state.key ∧ state'.file = some file := by
  rw [readPart] at h
  dsimp only at h
  split at h
  · obtain rfl := Option.some.inj h
    exact .inl ⟨rfl, rfl⟩
  · split at h
    · obtain rfl := Option.some.inj h
      exact .inl ⟨rfl, rfl⟩
    · next rawHeaders rawBody hsplit =>
      have hwithin : (stripSuffix crlf rawBody).getD rawBody <:+: part := by
        have hbody : rawBody <:+ withoutDashes ((stripPrefix crlf part).getD part) := by
          obtain ⟨i, -, hi⟩ := Option.map_eq_some_iff.1 hsplit
          rw [← (Prod.mk.inj hi).2]
          exact List.drop_suffix _ _
        exact (stripSuffix_getD_isPrefix _ _).isInfix.trans <| hbody.isInfix.trans <|
          (withoutDashes_isPrefix _).isInfix.trans (stripPrefix_getD_suffix _ _).isInfix
      split at h
      · cases h
      · split at h
        · obtain ⟨key, hkey, rfl⟩ := Option.map_eq_some_iff.1 h
          exact .inr (.inl ⟨key, fromUtf8_eq_some_iff.1 hkey ▸ hwithin, rfl, rfl⟩)
        · split at h
          · obtain rfl := Option.some.inj h
            exact .inr (.inr ⟨_, hwithin, rfl, rfl⟩)
          · obtain rfl := Option.some.inj h
            exact .inl ⟨rfl, rfl⟩

/-- **A single part does not have both a key and a file.** -/
theorem finish_readPart (part : Bytes) : (readPart {} part).bind FormState.finish = none := by
  cases hread : readPart {} part with
  | none => rfl
  | some state =>
    rw [Option.bind_some, FormState.finish]
    rcases readPart_cases hread with ⟨hkey, -⟩ | ⟨key, -, hkey, hfile⟩ | ⟨file, -, hkey, hfile⟩
    · rw [hkey]
    · rw [hkey, hfile]
    · rw [hkey]

/-- What has the boundary nowhere in it. -/
structure FormState.Free (word : Bytes) (state : FormState) : Prop where
  key : ∀ key ∈ state.key, ¬ Occurs word (utf8 key)
  file : ∀ file ∈ state.file, ¬ Occurs word file

theorem free_of_readPart {state state' : FormState} {part : Bytes} (hs : state.Free word)
    (hpart : ¬ Occurs word part) (h : readPart state part = some state') : state'.Free word := by
  rcases readPart_cases h with ⟨hkey, hfile⟩ | ⟨key, hwithin, hkey, hfile⟩ | ⟨file, hwithin, hkey, hfile⟩
  · exact ⟨hkey ▸ hs.key, hfile ▸ hs.file⟩
  · refine ⟨fun k hk hocc ↦ ?_, hfile ▸ hs.file⟩
    rw [hkey] at hk
    obtain rfl := Option.some.inj hk
    exact hpart (List.IsInfix.trans hocc hwithin)
  · refine ⟨hkey ▸ hs.key, fun f hf hocc ↦ ?_⟩
    rw [hfile] at hf
    obtain rfl := Option.some.inj hf
    exact hpart (List.IsInfix.trans hocc hwithin)

theorem free_of_foldlM {state state' : FormState} {parts : List Bytes} (hs : state.Free word)
    (hparts : ∀ part ∈ parts, ¬ Occurs word part) (h : parts.foldlM readPart state = some state') :
    state'.Free word := by
  induction parts generalizing state with
  | nil => exact Option.some.inj h ▸ hs
  | cons part parts ih =>
    rw [List.foldlM_cons] at h
    obtain ⟨state'', hread, hrest⟩ := Option.bind_eq_some_iff.1 h
    exact ih (free_of_readPart hs (hparts part List.mem_cons_self) hread)
      (fun part hpart ↦ hparts part (List.mem_cons_of_mem _ hpart)) hrest

theorem finish_eq_some_iff {state : FormState} {key : Text} {file : Bytes} {contentType : Text} :
    state.finish = some (key, file, contentType) ↔
      state.key = some key ∧ state.file = some file ∧ state.fileContentType = contentType := by
  rw [FormState.finish]
  cases state.key with
  | none => simp
  | some k =>
    cases state.file with
    | none => simp
    | some f => simp

/-- **What is found has the boundary nowhere in it.** -/
theorem not_occurs_of_parse {contentType : Text} {body : Bytes} {key : Text} {file : Bytes}
    {fileContentType : Text} (hb : boundaryOf contentType = some boundary)
    (h : parseMultipartFormUpload contentType body = some (key, file, fileContentType)) :
    ¬ Occurs (boundaryMarker boundary) (utf8 key) ∧ ¬ Occurs (boundaryMarker boundary) file := by
  rw [parseMultipartFormUpload, hb, Option.bind_some] at h
  obtain ⟨state, hfold, hfinish⟩ := Option.bind_eq_some_iff.1 h
  obtain ⟨hkey, hfile, -⟩ := finish_eq_some_iff.1 hfinish
  have hempty : FormState.Free (boundaryMarker boundary) {} := by
    refine ⟨fun k hk ↦ ?_, fun f hf ↦ ?_⟩
    · cases hk
    · cases hf
  have hfree := free_of_foldlM hempty (fun part hpart ↦ not_occurs_of_mem hpart) hfold
  exact ⟨hfree.key key hkey, hfree.file file hfile⟩

/-- The boundary that was written is read. -/
theorem boundaryOf_formContentType (h : IsBoundary boundary) (quoted : Bool) :
    boundaryOf (formContentType quoted boundary) = some (writtenBoundary quoted boundary) := by
  have hchars : ∀ c ∈ boundaryChars, c ≠ ';' ∧ (c ≠ ' ' → isWhitespace c = false) := by decide
  have hwritten : ';' ∉ writtenBoundary quoted boundary ∧
      ∃ c, (writtenBoundary quoted boundary).getLast? = some c ∧ isWhitespace c = false := by
    cases quoted with
    | false =>
      refine ⟨fun hmem ↦ (hchars _ (h.chars _ hmem)).1 rfl, boundary.getLast h.ne_nil, ?_, ?_⟩
      · exact List.getLast?_eq_some_getLast h.ne_nil
      · refine (hchars _ (h.chars _ (List.getLast_mem _))).2 fun hspace ↦ h.last ?_
        rw [List.getLast?_eq_some_getLast h.ne_nil, hspace]
    | true =>
      refine ⟨fun hmem ↦ ?_, '"', List.getLast?_concat, by decide⟩
      have hcases : ';' = '"' ∨ ';' ∈ boundary ∨ ';' = '"' := by
        simpa [writtenBoundary] using hmem
      rcases hcases with heq | hmem | heq
      · exact absurd heq (by decide)
      · exact (hchars _ (h.chars _ hmem)).1 rfl
      · exact absurd heq (by decide)
  obtain ⟨hsemicolon, c, hlast, hc⟩ := hwritten
  have hsplit : (formContentType quoted boundary).splitOn ';' = "multipart/form-data".toList ::
      ["boundary=".toList ++ writtenBoundary quoted boundary].map (' ' :: ·) := by
    have hfirst : ';' ∉ "multipart/form-data".toList := by decide
    refine (congrArg (List.splitOn ';') ?_).trans (splitOn_flatMap hfirst fun p hp ↦ ?_)
    · rw [List.flatMap_singleton]
      rfl
    · rw [List.mem_singleton.1 hp]
      exact fun hmem ↦ (List.mem_append.1 hmem).elim (by decide) hsemicolon
  have htrimmed : trimmed (' ' :: ("boundary=".toList ++ writtenBoundary quoted boundary)) =
      "boundary=".toList ++ writtenBoundary quoted boundary := by
    refine trimmed_space (fun d hd ↦ ?_) fun d hd ↦ ?_
    · obtain rfl : 'b' = d := Option.some.inj hd
      decide
    · rw [List.getLast?_append, hlast, Option.some_or] at hd
      obtain rfl := Option.some.inj hd
      exact hc
  have hother : stripStart "boundary=".toList (trimmed "multipart/form-data".toList) = none := by
    decide
  rw [boundaryOf, hsplit, List.map_cons, List.map_singleton, List.map_singleton, htrimmed,
    List.findSome?_cons, hother]
  dsimp only
  rw [List.findSome?_cons, stripStart_append]

/-- **A boundary in quotation marks is not found.** -/
theorem parse_of_quoted (h : IsBoundary boundary)
    (hfree : ∀ field ∈ fields, ¬ Occurs (boundaryMarker (writtenBoundary true boundary))
      (utf8 field.head) ∧ ¬ Occurs (boundaryMarker (writtenBoundary true boundary)) field.content) :
    parseMultipartFormUpload (formContentType true boundary) (encodeForm boundary fields) = none := by
  have hmarker : (13 : UInt8) ∉ boundaryMarker (writtenBoundary true boundary) ∧
      (10 : UInt8) ∉ boundaryMarker (writtenBoundary true boundary) ∧
      (34 : UInt8) ∈ boundaryMarker (writtenBoundary true boundary) := by
    have hwritten : boundaryMarker (writtenBoundary true boundary) =
        [45, 45, 34] ++ utf8 boundary ++ [34] := by
      rw [boundaryMarker, writtenBoundary, if_pos rfl, utf8_append]
      rfl
    obtain ⟨hr, hn, -⟩ := h.not_mem
    rw [hwritten]
    refine ⟨?_, ?_, List.mem_append_right _ (List.mem_singleton_self _)⟩
    · simp [hr]
    · simp [hn]
  obtain ⟨hr, hn, hquote⟩ := hmarker
  have hline : ∀ {l : Bytes}, (34 : UInt8) ∉ l →
      ¬ Occurs (boundaryMarker (writtenBoundary true boundary)) l :=
    fun hl hocc ↦ hl ((List.IsInfix.sublist hocc).subset hquote)
  have hbefore : (34 : UInt8) ∉ boundaryMarker boundary := fun hmem ↦
    (List.mem_append.1 hmem).elim (by decide) h.not_mem.2.2
  have hnowhere : ¬ Occurs (boundaryMarker (writtenBoundary true boundary))
      (encodeForm boundary fields) := by
    induction fields with
    | nil =>
      refine hline fun hmem ↦ ?_
      rw [encodeForm, List.flatMap_nil, List.nil_append] at hmem
      exact (List.mem_append.1 hmem).elim hbefore (by decide)
    | cons field fields ih =>
      have hform : encodeForm boundary (field :: fields) =
          boundaryMarker boundary ++ (field.block ++ encodeForm boundary fields) := by
        simp [encodeForm]
      rw [hform, occurs_part hr hn (boundaryMarker_ne_nil _)]
      obtain ⟨hhead, hcontent⟩ := hfree field List.mem_cons_self
      rintro (hocc | hocc | hocc | hocc)
      · exact hline hbefore hocc
      · exact hhead hocc
      · exact hcontent hocc
      · exact ih (fun f hf ↦ hfree f (List.mem_cons_of_mem _ hf)) hocc
  rw [parseMultipartFormUpload, boundaryOf_formContentType h, Option.bind_some,
    splitAt_of_not_occurs hnowhere, List.foldlM_cons]
  show ((readPart {} _).bind fun state ↦ some state).bind _ = none
  rw [Option.bind_fun_some, finish_readPart]

/-- The content type that a form ends up with. -/
def lastContentType (fields : List FormField) : Text :=
  (fields.filterMap (·.contentType)).getLast?.getD "application/octet-stream".toList

theorem map_getLast?_cons {α β : Type} (f : α → β) (a : α) (l : List α) (b : Option β) :
    ((a :: l).getLast?.map f).or b = (l.getLast?.map f).or (some (f a)) := by
  rw [List.getLast?_cons]
  cases l.getLast? <;> rfl

/-- **What is found in the parts of a form**: the last key, the last file and the last content
type. -/
theorem found_of_foldlM (h : ∀ field ∈ fields, field.WellFormed) {state state' : FormState}
    (hfold : (fields.map FormField.block).foldlM readPart state = some state') :
    state'.key.map utf8 = ((fields.filter (·.isKey)).getLast?.map (keptContent ·.content)).or
        (state.key.map utf8) ∧
      state'.file = ((fields.filter (·.isFile)).getLast?.map (keptContent ·.content)).or state.file ∧
      state'.fileContentType =
        (fields.filterMap (·.contentType)).getLast?.getD state.fileContentType := by
  induction fields generalizing state with
  | nil =>
    obtain rfl := Option.some.inj hfold
    exact ⟨rfl, rfl, rfl⟩
  | cons field fields ih =>
    rw [List.map_cons, List.foldlM_cons] at hfold
    obtain ⟨state'', hread, hrest⟩ := Option.bind_eq_some_iff.1 hfold
    obtain ⟨hkey, hfile, htype⟩ := ih (fun f hf ↦ h f (List.mem_cons_of_mem _ hf)) hrest
    rw [readPart_block (h field List.mem_cons_self)] at hread
    have htypes : ∀ contentType, state''.fileContentType = field.contentType.getD contentType →
        (fields.filterMap (·.contentType)).getLast?.getD state''.fileContentType =
          ((field :: fields).filterMap (·.contentType)).getLast?.getD contentType := by
      intro contentType hstate
      rw [hstate, List.filterMap_cons]
      cases field.contentType with
      | none => rfl
      | some ct =>
        dsimp only
        rw [List.getLast?_cons]
        rfl
    dsimp only at hread
    split at hread
    · next hisKey =>
      have hnotFile : field.isFile = false := by
        have hname := of_decide_eq_true hisKey
        rw [FormField.isFile, hname]
        rfl
      obtain ⟨key, hbytes, rfl⟩ := Option.map_eq_some_iff.1 hread
      refine ⟨?_, ?_, htype.trans (htypes _ rfl)⟩
      · rw [hkey, List.filter_cons_of_pos hisKey, map_getLast?_cons, fromUtf8_eq_some_iff.1 hbytes]
        rfl
      · rw [hfile, List.filter_cons_of_neg (by rw [hnotFile]; decide)]
    · next hisKey =>
      split at hread
      · next hisFile =>
        obtain rfl := Option.some.inj hread
        refine ⟨?_, ?_, htype.trans (htypes _ rfl)⟩
        · rw [hkey, List.filter_cons_of_neg hisKey]
        · rw [hfile, List.filter_cons_of_pos hisFile, map_getLast?_cons]
      · next hisFile =>
        obtain rfl := Option.some.inj hread
        refine ⟨?_, ?_, htype.trans (htypes _ rfl)⟩
        · rw [hkey, List.filter_cons_of_neg hisKey]
        · rw [hfile, List.filter_cons_of_neg hisFile]

/-- Parts are read if the keys are texts. -/
theorem exists_foldlM (h : ∀ field ∈ fields, field.WellFormed)
    (hkeys : ∀ field ∈ fields, field.isKey = true → ∃ key, keptContent field.content = utf8 key)
    (state : FormState) :
    ∃ state', (fields.map FormField.block).foldlM readPart state = some state' := by
  induction fields generalizing state with
  | nil => exact ⟨state, rfl⟩
  | cons field fields ih =>
    have hread : ∃ state', readPart state field.block = some state' := by
      rw [readPart_block (h field List.mem_cons_self)]
      dsimp only
      split
      · next hisKey =>
        obtain ⟨key, hkey⟩ := hkeys field List.mem_cons_self hisKey
        rw [fromUtf8_eq_some_iff.2 hkey]
        exact ⟨_, rfl⟩
      · split
        · exact ⟨_, rfl⟩
        · exact ⟨_, rfl⟩
    obtain ⟨state', hread⟩ := hread
    rw [List.map_cons, List.foldlM_cons, hread]
    exact ih (fun f hf ↦ h f (List.mem_cons_of_mem _ hf))
      (fun f hf ↦ hkeys f (List.mem_cons_of_mem _ hf)) state'

/-- A form without the boundary in its parts. -/
theorem parse_encodeForm (hb : IsBoundary boundary)
    (hfree : ∀ field ∈ fields, ¬ Occurs (boundaryMarker boundary) field.block) :
    parseMultipartFormUpload (formContentType false boundary) (encodeForm boundary fields) =
      ((fields.map FormField.block).foldlM readPart {}).bind FormState.finish := by
  have hfirst : readPart {} [] = some {} := rfl
  have hlast : ∀ state, readPart state (dashes ++ crlf) = some state := by
    intro state
    rw [readPart]
    exact if_pos (by decide)
  have hwritten : writtenBoundary false boundary = boundary := rfl
  rw [parseMultipartFormUpload, boundaryOf_formContentType hb, hwritten, Option.bind_some,
    splitAt_encodeForm hb hfree, List.cons_append, List.foldlM_cons, hfirst]
  show (List.foldlM readPart {} (fields.map FormField.block ++ [dashes ++ crlf])).bind _ = _
  rw [List.foldlM_append]
  cases List.foldlM readPart {} (fields.map FormField.block) with
  | none => rfl
  | some state =>
    show (List.foldlM readPart state [dashes ++ crlf]).bind _ = _
    rw [List.foldlM_cons, hlast]
    rfl

/-! ### Uploads -/

/-- The field of the key. -/
def keyField (key : Text) (contentType : Option Text) : FormField where
  name := "key".toList
  contentType := contentType
  content := utf8 key

/-- The field of the file. -/
def fileField (filename : Text) (contentType : Option Text) (content : Bytes) : FormField where
  name := "file".toList
  filename := some filename
  contentType := contentType
  content := content

section Form

variable {key filename : Text} {content : Bytes} {keyType fileType : Option Text}
  {others : List FormField}
  (hperm : fields.Perm (keyField key keyType :: fileField filename fileType content :: others))

include hperm

/-- Nothing but the key and the file can have the boundary in it. -/
theorem not_occurs_content (hcontents : ∀ field ∈ others, ¬ Occurs word field.content)
    (hkey : ¬ Occurs word (utf8 key)) (hcontent : ¬ Occurs word content) :
    ∀ field ∈ fields, ¬ Occurs word field.content := by
  intro field hfield
  rcases List.mem_cons.1 (hperm.mem_iff.1 hfield) with rfl | hfield
  · exact hkey
  · rcases List.mem_cons.1 hfield with rfl | hfield
    · exact hcontent
    · exact hcontents field hfield

variable (hothers : ∀ field ∈ others, field.isKey = false ∧ field.isFile = false)

include hothers

theorem filter_isKey : fields.filter (·.isKey) = [keyField key keyType] := by
  refine List.perm_singleton.1 ((hperm.filter _).trans (List.Perm.of_eq ?_))
  rw [List.filter_cons_of_pos rfl, List.filter_cons_of_neg (by exact Bool.false_ne_true),
    List.filter_eq_nil_iff.2 fun field hfield ↦ by rw [(hothers field hfield).1]; decide]

theorem filter_isFile : fields.filter (·.isFile) = [fileField filename fileType content] := by
  refine List.perm_singleton.1 ((hperm.filter _).trans (List.Perm.of_eq ?_))
  rw [List.filter_cons_of_neg (by exact Bool.false_ne_true), List.filter_cons_of_pos rfl,
    List.filter_eq_nil_iff.2 fun field hfield ↦ by rw [(hothers field hfield).2]; decide]

/-- What is found in a form whose boundary is written without quotation marks. -/
theorem parse_unquoted_iff (hb : IsBoundary boundary) (hwell : ∀ field ∈ fields, field.WellFormed)
    (hheads : ∀ field ∈ fields, ¬ Occurs (boundaryMarker boundary) (utf8 field.head))
    (hcontents : ∀ field ∈ others, ¬ Occurs (boundaryMarker boundary) field.content)
    (fileContentType : Text) :
    parseMultipartFormUpload (formContentType false boundary) (encodeForm boundary fields) =
        some (key, content, fileContentType) ↔
      (∀ value ∈ [utf8 key, content],
        ¬ Occurs (boundaryMarker boundary) value ∧ ¬ dashes <:+ value) ∧
      lastContentType fields = fileContentType := by
  have hkeys := filter_isKey hperm hothers
  have hfiles := filter_isFile hperm hothers
  obtain ⟨hr, hn⟩ := hb.marker
  have hparse : ¬ Occurs (boundaryMarker boundary) (utf8 key) →
      ¬ Occurs (boundaryMarker boundary) content →
      parseMultipartFormUpload (formContentType false boundary) (encodeForm boundary fields) =
        ((fields.map FormField.block).foldlM readPart {}).bind FormState.finish := by
    intro hkey hcontent
    refine parse_encodeForm hb fun field hfield hocc ↦ ?_
    rcases (occurs_block hr hn (boundaryMarker_ne_nil _)).1 hocc with hocc | hocc
    · exact hheads field hfield hocc
    · exact not_occurs_content hperm hcontents hkey hcontent field hfield hocc
  have hfound : ∀ {state : FormState},
      (fields.map FormField.block).foldlM readPart {} = some state →
      state.key.map utf8 = some (keptContent (utf8 key)) ∧ state.file = some (keptContent content) ∧
        state.fileContentType = lastContentType fields := by
    intro state hfold
    obtain ⟨hkey, hfile, htype⟩ := found_of_foldlM hwell hfold
    rw [hkeys] at hkey
    rw [hfiles] at hfile
    exact ⟨hkey, hfile, htype⟩
  constructor
  · intro h
    obtain ⟨hkey, hcontent⟩ := not_occurs_of_parse (boundaryOf_formContentType hb false) h
    rw [hparse hkey hcontent] at h
    obtain ⟨state, hfold, hfinish⟩ := Option.bind_eq_some_iff.1 h
    obtain ⟨hkeyIs, hfileIs, htypeIs⟩ := finish_eq_some_iff.1 hfinish
    obtain ⟨hkeyKept, hfileKept, htypeKept⟩ := hfound hfold
    rw [hkeyIs] at hkeyKept
    rw [hfileIs] at hfileKept
    have hkeyDashes := keptContent_eq_iff.1 (Option.some.inj hkeyKept).symm
    have hfileDashes := keptContent_eq_iff.1 (Option.some.inj hfileKept).symm
    refine ⟨fun value hvalue ↦ ?_, htypeKept.symm.trans htypeIs⟩
    simp only [List.mem_cons, List.not_mem_nil, or_false] at hvalue
    rcases hvalue with rfl | rfl
    · exact ⟨hkey, hkeyDashes⟩
    · exact ⟨hcontent, hfileDashes⟩
  · rintro ⟨hvalues, htype⟩
    obtain ⟨hkey, hkeyDashes⟩ := hvalues (utf8 key) (by simp)
    obtain ⟨hcontent, hfileDashes⟩ := hvalues content (by simp)
    have hkeyKept := keptContent_eq_iff.2 hkeyDashes
    have hread : ∀ field ∈ fields, field.isKey = true →
        ∃ key, keptContent field.content = utf8 key := by
      intro field hfield hisKey
      have hmem : field ∈ fields.filter (·.isKey) := List.mem_filter.2 ⟨hfield, hisKey⟩
      rw [hkeys] at hmem
      rw [List.mem_singleton.1 hmem]
      exact ⟨key, hkeyKept⟩
    obtain ⟨state, hfold⟩ := exists_foldlM hwell hread {}
    obtain ⟨hkeyIs, hfileIs, htypeIs⟩ := hfound hfold
    rw [hkeyKept] at hkeyIs
    rw [keptContent_eq_iff.2 hfileDashes] at hfileIs
    obtain ⟨key', hkey', hbytes⟩ := Option.map_eq_some_iff.1 hkeyIs
    obtain rfl := utf8_injective hbytes
    rw [hparse hkey hcontent, hfold]
    exact finish_eq_some_iff.2 ⟨hkey', hfileIs, htypeIs.trans htype⟩

end Form

/-- **When a form is stored as it was sent**, in whatever order its fields come: exactly if the
boundary is written without quotation marks, the key and the file neither have it in them nor end
with two dashes, and the last content type of the form is the one of the file. -/
theorem parse_form_upload_iff (hb : IsBoundary boundary) (quoted : Bool) (key filename : Text)
    (content : Bytes) (keyType fileType : Option Text) {others : List FormField}
    (hperm : fields.Perm (keyField key keyType :: fileField filename fileType content :: others))
    (hwell : ∀ field ∈ fields, field.WellFormed)
    (hothers : ∀ field ∈ others, field.isKey = false ∧ field.isFile = false)
    (hheads : ∀ field ∈ fields,
      ¬ Occurs (boundaryMarker (writtenBoundary quoted boundary)) (utf8 field.head))
    (hcontents : ∀ field ∈ others,
      ¬ Occurs (boundaryMarker (writtenBoundary quoted boundary)) field.content) :
    parseMultipartFormUpload (formContentType quoted boundary) (encodeForm boundary fields) =
        some (key, content, fileType.getD "application/octet-stream".toList) ↔
      quoted = false ∧ (∀ value ∈ [utf8 key, content],
        ¬ Occurs (boundaryMarker boundary) value ∧ ¬ dashes <:+ value) ∧
      lastContentType fields = fileType.getD "application/octet-stream".toList := by
  cases quoted with
  | true =>
    refine iff_of_false (fun h ↦ ?_) fun h ↦ ?_
    · obtain ⟨hkey, hcontent⟩ := not_occurs_of_parse (boundaryOf_formContentType hb true) h
      rw [parse_of_quoted hb fun field hfield ↦ ⟨hheads field hfield,
        not_occurs_content hperm hcontents hkey hcontent field hfield⟩] at h
      cases h
    · cases h.1
  | false =>
    rw [parse_unquoted_iff hperm hothers hb hwell hheads hcontents, and_iff_right rfl]

/-- A form with a file before its key. -/
def smallForm (content : Bytes) : List FormField :=
  [fileField "a.txt".toList (some "text/plain".toList) content, keyField "k".toList none]

theorem smallForm_wellFormed (content : Bytes) : ∀ field ∈ smallForm content, field.WellFormed := by
  have hfile : PlainText "file".toList := by unfold PlainText; decide
  have hkey : PlainText "key".toList := by unfold PlainText; decide
  have hname : PlainText "a.txt".toList := by unfold PlainText; decide
  intro field hfield
  simp only [smallForm, List.mem_cons, List.not_mem_nil, or_false] at hfield
  rcases hfield with rfl | rfl
  · refine ⟨hfile, fun filename hfilename ↦ ?_, fun contentType htype ↦ ?_⟩
    · obtain rfl := Option.some.inj hfilename
      exact hname
    · obtain rfl := Option.some.inj htype
      decide
  · refine ⟨hkey, fun filename hfilename ↦ ?_, fun contentType htype ↦ ?_⟩
    · cases hfilename
    · cases htype

/-- **When a form with a file before its key is stored as it was sent**, if its boundary is `b`. -/
theorem parse_smallForm_iff (content : Bytes)
    (hheads : ∀ field ∈ smallForm content,
      ¬ Occurs (boundaryMarker "b".toList) (utf8 field.head)) :
    parseMultipartFormUpload (formContentType false "b".toList)
        (encodeForm "b".toList (smallForm content)) =
        some ("k".toList, content, "text/plain".toList) ↔
      (∀ value ∈ [utf8 "k".toList, content],
        ¬ Occurs (boundaryMarker "b".toList) value ∧ ¬ dashes <:+ value) ∧
      lastContentType (smallForm content) = "text/plain".toList := by
  have hperm : (smallForm content).Perm
      (keyField "k".toList none ::
        fileField "a.txt".toList (some "text/plain".toList) content :: []) :=
    List.Perm.swap _ _ []
  refine parse_unquoted_iff hperm (fun field hfield ↦ ?_) ⟨by decide, by decide, by decide⟩
    (smallForm_wellFormed content) hheads (fun field hfield ↦ ?_) _
  · cases hfield
  · cases hfield

/-- **A file that ends with two dashes is not stored as it was sent.** -/
theorem file_with_dashes : parseMultipartFormUpload (formContentType false "b".toList)
      (encodeForm "b".toList (smallForm [97, 45, 45])) ≠
    some ("k".toList, [97, 45, 45], "text/plain".toList) := by
  intro h
  have hvalues := ((parse_smallForm_iff [97, 45, 45] (by decide +kernel)).1 h).1
  obtain ⟨-, hdashes⟩ := hvalues [97, 45, 45] (by decide)
  exact hdashes (by decide)

/-- A file that comes before its key. -/
theorem file_before_key : parseMultipartFormUpload (formContentType false "b".toList)
      (encodeForm "b".toList (smallForm [1, 2, 3])) =
    some ("k".toList, [1, 2, 3], "text/plain".toList) := by
  have hperm : (smallForm [1, 2, 3]).Perm
      (keyField "k".toList none ::
        fileField "a.txt".toList (some "text/plain".toList) [1, 2, 3] :: []) :=
    List.Perm.swap _ _ []
  refine (parse_form_upload_iff ⟨by decide, by decide, by decide⟩ false "k".toList
    "a.txt".toList [1, 2, 3] none (some "text/plain".toList) hperm
    (smallForm_wellFormed _) (fun field hfield ↦ ?_) (by decide +kernel) fun field hfield ↦ ?_).2 ?_
  · cases hfield
  · cases hfield
  · decide +kernel

end Sqrzl.S3
