import Mathlib.Data.List.DropRight

/-!
# Documents and their events

A document as the list of the pieces that it is written with (`Piece`, `written`), and what a reader
reports of it (`events`): the characters up to the next markup or reference together as one text,
and **each reference as an event of its own**, so that a text with a reference in it comes in several
parts. A reader may be told to trim, and then white space is taken off each of these parts and not
off the whole (`reported`).

`Reads` says that a reader reports the events of every document that is written so, and `Resolves`
what the resolver of references does to a text without any and to a reference alone. `scanner` is a
reader, with a proof that it is one (`scanner_reads`).
-/

namespace Xml

variable {ε : Type} {c : Char} {name t : List Char} {trim : Bool}

/-! ### Events -/

/-- What a reader reports. -/
inductive Event where
  /-- The beginning of an element, with the keys of its attributes, as far as they can be read. -/
  | start (name : List Char) (attributes : List (Option (List Char)))
  | stop (name : List Char)
  | empty (name : List Char)
  | text (content : List Char)
  | cData (content : List Char)
  | generalRef (name : List Char)
  | docType
  /-- A declaration, a comment or a processing instruction. -/
  | aside
  deriving DecidableEq

/-- What a document is written with. -/
inductive Piece where
  | declaration
  | start (name : List Char) (attributes : List (List Char × List Char))
  | stop (name : List Char)
  | char (c : Char)
  | ref (name : List Char)
  | cData (content : List Char)
  deriving DecidableEq

/-- An attribute. -/
def writtenAttribute (a : List Char × List Char) : List Char :=
  a.1 ++ '=' :: '"' :: (a.2 ++ ['"'])

/-- The characters of a piece. -/
def Piece.written : Piece → List Char
  | .declaration => "<?xml version=\"1.0\" encoding=\"UTF-8\"?>".toList
  | .start name attributes =>
    '<' :: (name ++ (attributes.flatMap fun a ↦ ' ' :: writtenAttribute a) ++ ['>'])
  | .stop name => '<' :: '/' :: (name ++ ['>'])
  | .char c => [c]
  | .ref name => '&' :: (name ++ [';'])
  | .cData content => "<![CDATA[".toList ++ (content ++ "]]>".toList)

/-- The characters of a document. -/
def written (pieces : List Piece) : List Char := pieces.flatMap Piece.written

@[simp] theorem written_nil : written [] = [] := rfl

@[simp] theorem written_cons (piece : Piece) (pieces : List Piece) :
    written (piece :: pieces) = piece.written ++ written pieces := rfl

@[simp] theorem written_append (pieces pieces' : List Piece) :
    written (pieces ++ pieces') = written pieces ++ written pieces' := List.flatMap_append

/-- Character data. -/
def chars (t : List Char) : List Piece := t.map .char

@[simp] theorem chars_cons : chars (c :: t) = .char c :: chars t := rfl

/-- A character joins the text that follows it. -/
def pushChar (c : Char) : List Event → List Event
  | .text t :: events => .text (c :: t) :: events
  | events => .text [c] :: events

/-- What a piece adds in front of the events that follow it. -/
def Piece.push : Piece → List Event → List Event
  | .declaration, events => .aside :: events
  | .start name attributes, events => .start name (attributes.map fun a ↦ some a.1) :: events
  | .stop name, events => .stop name :: events
  | .char c, events => pushChar c events
  | .ref name, events => .generalRef name :: events
  | .cData content, events => .cData content :: events

/-- The events of a document. -/
def events (pieces : List Piece) : List Event := pieces.foldr Piece.push []

@[simp] theorem events_nil : events [] = [] := rfl

@[simp] theorem events_cons (piece : Piece) (pieces : List Piece) :
    events (piece :: pieces) = piece.push (events pieces) := rfl

theorem pushChar_of_not_text {l : List Event} (h : ∀ t es, l ≠ .text t :: es) :
    pushChar c l = .text [c] :: l := by
  unfold pushChar
  split
  · next t es => exact absurd rfl (h t es)
  · rfl

/-- Pieces that are not characters. -/
def Piece.isChar : Piece → Bool
  | .char _ => true
  | _ => false

theorem Piece.push_append {piece : Piece} (h : piece.isChar = false) (l l' : List Event) :
    piece.push (l ++ l') = piece.push l ++ l' := by
  cases piece with
  | char c => cases h
  | declaration | start | stop | ref | cData => rfl

theorem Piece.push_ne_text {piece : Piece} (h : piece.isChar = false) (l : List Event) :
    ∀ t es, piece.push l ≠ .text t :: es := by
  intro t es heq
  cases piece with
  | char c => cases h
  | declaration | start | stop | ref | cData => cases heq

theorem pushChar_append {l l' : List Event} (h : ∀ t es, l' ≠ .text t :: es) :
    pushChar c (l ++ l') = pushChar c l ++ l' := by
  cases l with
  | nil => exact pushChar_of_not_text h
  | cons event l => cases event with
    | text t => rfl
    | start | stop | empty | cData | generalRef | docType | aside => rfl

/-- **Markup and references separate what is in front of them from what is behind.** -/
theorem events_append {piece : Piece} (h : piece.isChar = false) (pieces pieces' : List Piece) :
    events (pieces ++ piece :: pieces') = events pieces ++ events (piece :: pieces') := by
  induction pieces with
  | nil => rfl
  | cons p pieces ih =>
    rw [List.cons_append, events_cons, ih, events_cons]
    cases hp : p.isChar with
    | false => exact p.push_append hp _ _
    | true =>
      cases p with
      | char c => exact pushChar_append (piece.push_ne_text h _)
      | declaration | start | stop | ref | cData => cases hp

theorem events_append_of_markup {pieces' : List Piece} (h : ∀ c rest, pieces' ≠ .char c :: rest)
    (pieces : List Piece) : events (pieces ++ pieces') = events pieces ++ events pieces' := by
  cases pieces' with
  | nil => rw [List.append_nil, events_nil, List.append_nil]
  | cons piece pieces' =>
    refine events_append ?_ pieces pieces'
    cases piece with
    | char c => exact absurd rfl (h c pieces')
    | declaration | start | stop | ref | cData => rfl

/-- Characters alone are one text. -/
theorem events_chars (ht : t ≠ []) : events (chars t) = [.text t] := by
  induction t with
  | nil => exact absurd rfl ht
  | cons c t ih =>
    rw [chars_cons, events_cons]
    cases t with
    | nil => rfl
    | cons d t => rw [ih (List.cons_ne_nil d t)]; rfl

/-- The texts of a list that begins with a character. -/
theorem mem_pushChar {l : List Event} {t : List Char} (h : .text t ∈ pushChar c l) :
    t = [c] ∨ (∃ u, .text u ∈ l ∧ t = c :: u) ∨ .text t ∈ l := by
  unfold pushChar at h
  split at h
  · next u es =>
    rcases List.mem_cons.1 h with heq | hmem
    · exact .inr (.inl ⟨u, List.mem_cons_self, Event.text.inj heq⟩)
    · exact .inr (.inr (List.mem_cons_of_mem _ hmem))
  · rcases List.mem_cons.1 h with heq | hmem
    · exact .inl (Event.text.inj heq)
    · exact .inr (.inr hmem)

/-- **The characters of a text that is reported are characters of the document.** -/
theorem char_mem_of_text_mem {pieces : List Piece} {t : List Char}
    (h : .text t ∈ events pieces) : ∀ c ∈ t, .char c ∈ pieces := by
  induction pieces generalizing t with
  | nil => cases h
  | cons piece pieces ih =>
    intro c hc
    rw [events_cons] at h
    have htail : ∀ {u : List Char}, .text u ∈ events pieces → c ∈ u → .char c ∈ piece :: pieces :=
      fun hu hcu ↦ List.mem_cons_of_mem _ (ih hu c hcu)
    cases piece with
    | char d =>
      rcases mem_pushChar h with rfl | ⟨u, hu, rfl⟩ | hmem
      · rw [List.mem_singleton.1 hc]
        exact List.mem_cons_self
      · rcases List.mem_cons.1 hc with rfl | hcu
        · exact List.mem_cons_self
        · exact htail hu hcu
      · exact htail hmem hc
    | declaration | start | stop | ref | cData =>
      rcases List.mem_cons.1 h with heq | hmem
      · cases heq
      · exact htail hmem hc

/-- The references that are reported are those of the document. -/
theorem generalRef_mem_events {pieces : List Piece} :
    .generalRef name ∈ events pieces ↔ .ref name ∈ pieces := by
  induction pieces with
  | nil => exact iff_of_false List.not_mem_nil List.not_mem_nil
  | cons piece pieces ih =>
    rw [events_cons, List.mem_cons, ← ih]
    cases piece with
    | char c =>
      rw [or_iff_right fun h ↦ (by cases h)]
      show .generalRef name ∈ pushChar c (events pieces) ↔ _
      unfold pushChar
      split
      · next t es heq =>
        rw [heq, List.mem_cons, List.mem_cons, or_iff_right fun h ↦ (by cases h),
          or_iff_right fun h ↦ (by cases h)]
      · rw [List.mem_cons, or_iff_right fun h ↦ (by cases h)]
    | ref name' =>
      show .generalRef name ∈ .generalRef name' :: events pieces ↔ _
      rw [List.mem_cons]
      exact or_congr_left ⟨fun h ↦ congrArg _ (Event.generalRef.inj h),
        fun h ↦ congrArg _ (Piece.ref.inj h)⟩
    | declaration | start | stop | cData =>
      refine ⟨fun h ↦ .inr ((List.mem_cons.1 h).resolve_left fun heq ↦ ?_), fun h ↦
        List.mem_cons_of_mem _ (h.resolve_left fun heq ↦ ?_)⟩
      · cases heq
      · cases heq

/-! ### Trimming -/

/-- The white space of the format. -/
def isBlank (c : Char) : Bool := c = ' ' || c = '\t' || c = '\r' || c = '\n'

/-- A text without the white space around it. -/
def trimBlanks (t : List Char) : List Char := (t.dropWhile isBlank).rdropWhile isBlank

/-- A text event of which nothing is left is not reported. -/
def trimEvent : Event → Option Event
  | .text t => if trimBlanks t = [] then none else some (.text (trimBlanks t))
  | event => some event

/-- What a reader reports, with or without trimming. -/
def reported (trim : Bool) (pieces : List Piece) : List Event :=
  if trim then (events pieces).filterMap trimEvent else events pieces

theorem reported_append {piece : Piece} (h : piece.isChar = false) (pieces pieces' : List Piece) :
    reported trim (pieces ++ piece :: pieces') =
      reported trim pieces ++ reported trim (piece :: pieces') := by
  cases trim with
  | false => exact events_append h pieces pieces'
  | true =>
    show ((events _).filterMap trimEvent) = _
    rw [events_append h, List.filterMap_append]
    rfl

theorem trimBlanks_of_blank (h : ∀ c ∈ t, isBlank c = true) : trimBlanks t = [] := by
  rw [trimBlanks, List.dropWhile_eq_nil_iff.2 h]
  rfl

theorem trimBlanks_isInfix (t : List Char) : trimBlanks t <:+: t :=
  (List.rdropWhile_prefix isBlank _).isInfix.trans (List.dropWhile_suffix _).isInfix

/-- What is trimmed once stays as it is. -/
theorem trimBlanks_trimBlanks (t : List Char) : trimBlanks (trimBlanks t) = trimBlanks t := by
  have hhead : (trimBlanks t).dropWhile isBlank = trimBlanks t := by
    rw [List.dropWhile_eq_self_iff]
    intro hpos
    obtain ⟨rest, hrest⟩ := List.rdropWhile_prefix isBlank (t.dropWhile isBlank)
    change trimBlanks t ++ rest = _ at hrest
    have hne : t.dropWhile isBlank ≠ [] := by
      intro hnil
      rw [hnil] at hrest
      rw [(List.append_eq_nil_iff.1 hrest).1] at hpos
      exact absurd hpos (Nat.lt_irrefl 0)
    have hget : (trimBlanks t)[0] = (t.dropWhile isBlank).head hne := by
      rw [List.head_eq_getElem]
      simp only [← hrest, List.getElem_append_left hpos]
    rw [hget]
    exact Bool.eq_false_iff.1 (List.head_dropWhile_not isBlank hne)
  show ((trimBlanks t).dropWhile isBlank).rdropWhile isBlank = trimBlanks t
  rw [hhead]
  exact List.rdropWhile_idempotent _ _

theorem reported_chars (t : List Char) : reported true (chars t) =
    if trimBlanks t = [] then [] else [.text (trimBlanks t)] := by
  cases t with
  | nil => rfl
  | cons c t =>
    show (events (chars (c :: t))).filterMap trimEvent = _
    rw [events_chars (List.cons_ne_nil c t)]
    show ([.text (c :: t)] : List Event).filterMap trimEvent = _
    split_ifs with h
    · exact List.filterMap_cons_none (if_pos h)
    · exact List.filterMap_cons_some (if_neg h)

/-- White space in front of markup is not reported. -/
theorem reported_layout {piece : Piece} (h : piece.isChar = false)
    (ht : ∀ c ∈ t, isBlank c = true) (pieces : List Piece) :
    reported true (chars t ++ piece :: pieces) = reported true (piece :: pieces) := by
  rw [reported_append h, reported_chars, if_pos (trimBlanks_of_blank ht), List.nil_append]

/-- **A text that is reported is trimmed**, not empty, and of characters of the document. -/
theorem text_mem_reported {pieces : List Piece} (h : .text t ∈ reported true pieces) :
    t ≠ [] ∧ trimBlanks t = t ∧ ∀ c ∈ t, .char c ∈ pieces := by
  obtain ⟨event, hevent, htrim⟩ := List.mem_filterMap.1 h
  cases event with
  | text u =>
    change (if trimBlanks u = [] then none else some (Event.text (trimBlanks u))) = _ at htrim
    split_ifs at htrim with hne
    obtain rfl := Event.text.inj (Option.some.inj htrim)
    exact ⟨hne, trimBlanks_trimBlanks u, fun c hc ↦
      char_mem_of_text_mem hevent c ((trimBlanks_isInfix u).subset hc)⟩
  | start | stop | empty | cData | generalRef | docType | aside => cases htrim

/-! ### Documents -/

/-- The names of elements and attributes. -/
def IsName (name : List Char) : Prop := name ≠ [] ∧ ∀ c ∈ name, c.isAlpha ∨ c = ':'

instance (name : List Char) : Decidable (IsName name) :=
  inferInstanceAs (Decidable (_ ∧ _))

/-- The value of an attribute, in the characters of an address. -/
def IsAttributeValue (value : List Char) : Prop := ∀ c ∈ value, c.isAlphanum ∨ c ∈ ":/.-".toList

instance (value : List Char) : Decidable (IsAttributeValue value) :=
  inferInstanceAs (Decidable (∀ c ∈ value, _))

/-- The attributes of an element, each key once. -/
def AreAttributes (attributes : List (List Char × List Char)) : Prop :=
  (attributes.map (·.1)).Nodup ∧ ∀ a ∈ attributes, IsName a.1 ∧ IsAttributeValue a.2

instance (attributes : List (List Char × List Char)) : Decidable (AreAttributes attributes) :=
  inferInstanceAs (Decidable (_ ∧ _))

/-- What may stand in an element: every element in it is closed again. -/
inductive Content : List Piece → Prop
  | nil : Content []
  | char {c : Char} {pieces : List Piece} (hlt : c ≠ '<') (hamp : c ≠ '&') (h : Content pieces) :
      Content (.char c :: pieces)
  | ref {name : List Char} {pieces : List Piece} (hname : IsName name) (h : Content pieces) :
      Content (.ref name :: pieces)
  | cData {content : List Char} {pieces : List Piece} (hcontent : ¬ "]]>".toList <:+: content)
      (h : Content pieces) : Content (.cData content :: pieces)
  | element {name : List Char} {attributes : List (List Char × List Char)}
      {inner pieces : List Piece} (hname : IsName name) (hattributes : AreAttributes attributes)
      (hinner : Content inner) (h : Content pieces) :
      Content (.start name attributes :: (inner ++ .stop name :: pieces))

theorem Content.append {pieces pieces' : List Piece} (h : Content pieces) (h' : Content pieces') :
    Content (pieces ++ pieces') := by
  induction h with
  | nil => exact h'
  | char hlt hamp _ ih => exact .char hlt hamp ih
  | ref hname _ ih => exact .ref hname ih
  | cData hcontent _ ih => exact .cData hcontent ih
  | @element name attributes inner pieces hname hattributes hinner _ _ ih =>
    rw [List.cons_append, List.append_assoc, List.cons_append]
    exact .element hname hattributes hinner ih

theorem Content.chars (h : ∀ c ∈ t, c ≠ '<' ∧ c ≠ '&') : Content (chars t) := by
  induction t with
  | nil => exact .nil
  | cons c t ih =>
    obtain ⟨hlt, hamp⟩ := h c List.mem_cons_self
    exact .char hlt hamp (ih fun d hd ↦ h d (List.mem_cons_of_mem _ hd))

theorem Content.flatMap {α : Type} {f : α → List Piece} {l : List α}
    (h : ∀ a ∈ l, Content (f a)) : Content (l.flatMap f) := by
  induction l with
  | nil => exact .nil
  | cons a l ih =>
    rw [List.flatMap_cons]
    exact (h a List.mem_cons_self).append (ih fun b hb ↦ h b (List.mem_cons_of_mem _ hb))

/-- An element, with what it holds. -/
def element (name : List Char) (attributes : List (List Char × List Char)) (inner : List Piece) :
    List Piece :=
  .start name attributes :: (inner ++ [.stop name])

theorem written_element (name : List Char) (attributes : List (List Char × List Char))
    (inner : List Piece) : written (element name attributes inner) =
      (Piece.start name attributes).written ++ (written inner ++ (Piece.stop name).written) := by
  rw [element, written_cons, written_append, written_cons, written_nil, List.append_nil]

theorem events_element (name : List Char) (attributes : List (List Char × List Char))
    (inner : List Piece) : events (element name attributes inner) =
      .start name (attributes.map fun a ↦ some a.1) :: (events inner ++ [.stop name]) := by
  rw [element, events_cons, events_append (by rfl)]
  rfl

/-- The events of elements, one after the other. -/
theorem events_flatMap {α : Type} {f : α → List Piece} (h : ∀ a c rest, f a ≠ .char c :: rest)
    (l : List α) : events (l.flatMap f) = l.flatMap fun a ↦ events (f a) := by
  induction l with
  | nil => rfl
  | cons a l ih =>
    rw [List.flatMap_cons, List.flatMap_cons, ← ih]
    refine events_append_of_markup (fun c rest heq ↦ ?_) (f a)
    clear ih
    induction l with
    | nil => cases heq
    | cons b l ih =>
      rw [List.flatMap_cons] at heq
      cases hb : f b with
      | nil => exact ih (by rwa [hb] at heq)
      | cons piece pieces =>
        rw [hb, List.cons_append] at heq
        exact h b c pieces (hb.trans (congrArg (· :: pieces) (List.cons.inj heq).1))

theorem Content.of_element {attributes : List (List Char × List Char)} {inner : List Piece}
    (hname : IsName name) (hattributes : AreAttributes attributes) (hinner : Content inner) :
    Content (Xml.element name attributes inner) := .element hname hattributes hinner .nil

/-- A document: one element, after a declaration on a line of its own or alone. -/
inductive IsDocument : List Piece → Prop
  | root {name : List Char} {attributes : List (List Char × List Char)} {inner : List Piece}
      (hname : IsName name) (hattributes : AreAttributes attributes) (hinner : Content inner) :
      IsDocument (element name attributes inner)
  | declared {name : List Char} {attributes : List (List Char × List Char)} {inner : List Piece}
      (hname : IsName name) (hattributes : AreAttributes attributes) (hinner : Content inner) :
      IsDocument (.declaration :: .char '\n' :: element name attributes inner)

/-- **A reader reports the events of every document.** -/
structure Reads (read : Bool → List Char → List (Except ε Event)) : Prop where
  read_written : ∀ {trim pieces}, IsDocument pieces →
    read trim (written pieces) = (reported trim pieces).map .ok

/-! ### References -/

/-- The references that stand for the special characters. -/
def references : List (Char × List Char) :=
  [('&', "amp".toList), ('<', "lt".toList), ('>', "gt".toList), ('"', "quot".toList),
    ('\'', "apos".toList)]

/-- A character of which a document has a reference only. -/
def isSpecial (c : Char) : Bool := c ∈ references.map (·.1)

/-- A character, or the reference to it. -/
def escapeChar (c : Char) : Piece :=
  match references.lookup c with
  | some name => .ref name
  | none => .char c

/-- A text with its special characters written as references. -/
def escaped (t : List Char) : List Piece := t.map escapeChar

theorem escapeChar_of_not_special (h : isSpecial c = false) : escapeChar c = .char c := by
  rw [escapeChar, List.lookup_eq_none_iff.2]
  intro r hr
  have hmem : c ∉ references.map (·.1) := of_decide_eq_false h
  rw [bne_iff_ne]
  rintro rfl
  exact hmem (List.mem_map_of_mem hr)

theorem escapeChar_of_special (h : isSpecial c = true) :
    ∃ name, (c, name) ∈ references ∧ escapeChar c = .ref name := by
  have hmem : c ∈ references.map (·.1) := of_decide_eq_true h
  simp only [references, List.map_cons, List.map_nil, List.mem_cons, List.not_mem_nil,
    or_false] at hmem
  rcases hmem with rfl | rfl | rfl | rfl | rfl
  · exact ⟨"amp".toList, by decide, rfl⟩
  · exact ⟨"lt".toList, by decide, rfl⟩
  · exact ⟨"gt".toList, by decide, rfl⟩
  · exact ⟨"quot".toList, by decide, rfl⟩
  · exact ⟨"apos".toList, by decide, rfl⟩

theorem isName_of_mem_references {r : Char × List Char} (h : r ∈ references) : IsName r.2 := by
  simp only [references, List.mem_cons, List.not_mem_nil, or_false] at h
  rcases h with rfl | rfl | rfl | rfl | rfl <;> decide

theorem escaped_of_not_special (h : ∀ c ∈ t, isSpecial c = false) : escaped t = chars t :=
  List.map_congr_left fun c hc ↦ escapeChar_of_not_special (h c hc)

/-- A special character is not written as a character. -/
theorem isSpecial_of_char_mem (h : .char c ∈ escaped t) : isSpecial c = false := by
  obtain ⟨d, -, hd⟩ := List.mem_map.1 h
  cases hspecial : isSpecial d with
  | false =>
    rw [escapeChar_of_not_special hspecial] at hd
    rw [← Piece.char.inj hd, hspecial]
  | true =>
    obtain ⟨name, -, hname⟩ := escapeChar_of_special hspecial
    rw [hname] at hd
    cases hd

theorem Content.escaped (t : List Char) : Content (escaped t) := by
  induction t with
  | nil => exact .nil
  | cons c t ih =>
    show Content (escapeChar c :: Xml.escaped t)
    cases hspecial : isSpecial c with
    | false =>
      have hne : c ≠ '<' ∧ c ≠ '&' := by
        refine ⟨?_, ?_⟩ <;> rintro rfl <;> revert hspecial <;> decide
      rw [escapeChar_of_not_special hspecial]
      exact .char hne.1 hne.2 ih
    | true =>
      obtain ⟨name, hmem, hname⟩ := escapeChar_of_special hspecial
      rw [hname]
      exact .ref (isName_of_mem_references hmem) ih

/-- A text that is the same after it has been trimmed and that needs no references. -/
def IsPlain (t : List Char) : Prop :=
  t ≠ [] ∧ trimBlanks t = t ∧ ∀ c ∈ t, isSpecial c = false

instance (t : List Char) : Decidable (IsPlain t) := inferInstanceAs (Decidable (_ ∧ _))

theorem isPlain_of_forall (hne : t ≠ [])
    (h : ∀ c ∈ t, isBlank c = false ∧ isSpecial c = false) : IsPlain t := by
  refine ⟨hne, ?_, fun c hc ↦ (h c hc).2⟩
  have hdrop : t.dropWhile isBlank = t := by
    rw [List.dropWhile_eq_self_iff]
    exact fun hpos ↦ Bool.eq_false_iff.1 (h _ (List.getElem_mem hpos)).1
  rw [trimBlanks, hdrop, List.rdropWhile_eq_self_iff]
  exact fun hlast ↦ Bool.eq_false_iff.1 (h _ (List.getLast_mem hlast)).1

/-- **A plain text is reported as it is.** -/
theorem reported_plain (h : IsPlain t) {piece : Piece} (hpiece : piece.isChar = false)
    (pieces : List Piece) : reported true (escaped t ++ piece :: pieces) =
      .text t :: reported true (piece :: pieces) := by
  obtain ⟨hne, htrim, hspecial⟩ := h
  rw [reported_append hpiece, escaped_of_not_special hspecial, reported_chars, htrim, if_neg hne]
  rfl

/-! ### Documents in lines -/

/-- White space up to the next markup. -/
def IsLead (pieces : List Piece) : Prop :=
  ∃ ws piece rest, pieces = chars ws ++ piece :: rest ∧ (∀ c ∈ ws, isBlank c = true) ∧
    piece.isChar = false

/-- **What is reported of pieces**, whatever comes behind them. -/
def Emits (pieces : List Piece) (l : List Event) : Prop :=
  ∀ rest, IsLead rest →
    IsLead (pieces ++ rest) ∧ reported true (pieces ++ rest) = l ++ reported true rest

theorem IsLead.of_markup {piece : Piece} (h : piece.isChar = false) (rest : List Piece) :
    IsLead (piece :: rest) := ⟨[], piece, rest, rfl, fun _ hc ↦ absurd hc List.not_mem_nil, h⟩

theorem Emits.nil : Emits [] [] := fun _ hrest ↦ ⟨hrest, rfl⟩

theorem Emits.append {pieces pieces' : List Piece} {l l' : List Event} (h : Emits pieces l)
    (h' : Emits pieces' l') : Emits (pieces ++ pieces') (l ++ l') := by
  intro rest hrest
  obtain ⟨hlead', hreported'⟩ := h' rest hrest
  obtain ⟨hlead, hreported⟩ := h _ hlead'
  rw [List.append_assoc, List.append_assoc]
  exact ⟨hlead, hreported.trans (congrArg _ hreported')⟩

theorem Emits.flatMap {α : Type} {f : α → List Piece} {g : α → List Event} {l : List α}
    (h : ∀ a ∈ l, Emits (f a) (g a)) : Emits (l.flatMap f) (l.flatMap g) := by
  induction l with
  | nil => exact .nil
  | cons a l ih =>
    rw [List.flatMap_cons, List.flatMap_cons]
    exact (h a List.mem_cons_self).append (ih fun b hb ↦ h b (List.mem_cons_of_mem _ hb))

/-- White space is not reported. -/
theorem Emits.chars (ht : ∀ c ∈ t, isBlank c = true) : Emits (chars t) [] := by
  rintro rest ⟨ws, piece, rest', rfl, hws, hpiece⟩
  have happend : Xml.chars t ++ (Xml.chars ws ++ piece :: rest') =
      Xml.chars (t ++ ws) ++ piece :: rest' := by
    rw [← List.append_assoc]
    exact congrArg (· ++ _) (List.map_append).symm
  have hblank : ∀ c ∈ t ++ ws, isBlank c = true := fun c hc ↦
    (List.mem_append.1 hc).elim (ht c) (hws c)
  rw [happend, reported_layout hpiece hblank, List.nil_append, reported_layout hpiece hws]
  exact ⟨⟨_, piece, rest', rfl, hblank, hpiece⟩, rfl⟩

/-- An element is reported with what is reported of its content. -/
theorem Emits.element {inner : List Piece} {l : List Event} (h : Emits inner l) (name : List Char)
    (attributes : List (List Char × List Char)) : Emits (element name attributes inner)
      (.start name (attributes.map fun a ↦ some a.1) :: (l ++ [.stop name])) := by
  intro rest _
  obtain ⟨-, hinner⟩ := h (.stop name :: rest) (.of_markup rfl rest)
  have hpieces : Xml.element name attributes inner ++ rest =
      .start name attributes :: (inner ++ .stop name :: rest) := by
    simp only [Xml.element, List.cons_append, List.append_assoc, List.nil_append]
  rw [hpieces]
  refine ⟨.of_markup rfl _, ?_⟩
  show .start name _ :: reported true (inner ++ .stop name :: rest) = _
  rw [hinner]
  simp only [List.cons_append, List.append_assoc, List.nil_append]
  rfl

/-- An element is reported with whatever is reported of its content. -/
theorem Emits.any (inner : List Piece) (name : List Char)
    (attributes : List (List Char × List Char)) : Emits (Xml.element name attributes inner)
      (.start name (attributes.map fun a ↦ some a.1) :: (reported true inner ++ [.stop name])) := by
  intro rest _
  have hpieces : Xml.element name attributes inner ++ rest =
      .start name attributes :: (inner ++ .stop name :: rest) := by
    simp only [Xml.element, List.cons_append, List.append_assoc, List.nil_append]
  rw [hpieces]
  refine ⟨.of_markup rfl _, ?_⟩
  show .start name _ :: reported true (inner ++ .stop name :: rest) = _
  rw [reported_append rfl]
  simp only [List.cons_append, List.append_assoc, List.nil_append]
  rfl

/-- Of a text, nothing but texts and references is reported. -/
theorem mem_reported_escaped {event : Event} (h : event ∈ reported true (escaped t)) :
    (∃ u, event = .text u) ∨ ∃ name, event = .generalRef name := by
  have hevents : ∀ {pieces : List Piece}, (∀ piece ∈ pieces, ∃ c, piece = escapeChar c) →
      ∀ event ∈ events pieces, (∃ u, event = .text u) ∨ ∃ name, event = .generalRef name := by
    intro pieces
    induction pieces with
    | nil => exact fun _ event h ↦ absurd h List.not_mem_nil
    | cons piece pieces ih =>
      intro hpieces event hevent
      obtain ⟨⟨c, rfl⟩, hrest⟩ := List.forall_mem_cons.1 hpieces
      have htail := ih hrest
      rw [events_cons] at hevent
      cases hspecial : isSpecial c with
      | true =>
        obtain ⟨name, -, hname⟩ := escapeChar_of_special hspecial
        rw [hname] at hevent
        rcases List.mem_cons.1 hevent with rfl | hevent
        · exact .inr ⟨name, rfl⟩
        · exact htail event hevent
      | false =>
        rw [escapeChar_of_not_special hspecial] at hevent
        change event ∈ pushChar c (events pieces) at hevent
        unfold pushChar at hevent
        split at hevent
        · next u es heq =>
          rcases List.mem_cons.1 hevent with rfl | hevent
          · exact .inl ⟨_, rfl⟩
          · exact htail event (heq ▸ List.mem_cons_of_mem _ hevent)
        · rcases List.mem_cons.1 hevent with rfl | hevent
          · exact .inl ⟨_, rfl⟩
          · exact htail event hevent
  obtain ⟨event', hevent', htrim⟩ := List.mem_filterMap.1 h
  have hpieces : ∀ piece ∈ escaped t, ∃ c, piece = escapeChar c := by
    intro piece hpiece
    obtain ⟨c, -, rfl⟩ := List.mem_map.1 hpiece
    exact ⟨c, rfl⟩
  rcases hevents hpieces event' hevent' with ⟨u, rfl⟩ | ⟨name, rfl⟩
  · change (if trimBlanks u = [] then none else some (Event.text (trimBlanks u))) = _ at htrim
    split_ifs at htrim
    exact .inl ⟨_, (Option.some.inj htrim).symm⟩
  · exact .inr ⟨name, (Option.some.inj htrim).symm⟩

/-- The texts of an element: at most one, if the text is plain. -/
def textEvents (t : List Char) : List Event := if t = [] then [] else [.text t]

/-- **A plain text is reported with its element**, and an empty one not at all. -/
theorem Emits.text (h : t = [] ∨ IsPlain t) (name : List Char) :
    Emits (Xml.element name [] (escaped t)) (.start name [] :: (textEvents t ++ [.stop name])) := by
  intro rest _
  have hpieces : Xml.element name [] (escaped t) ++ rest =
      .start name [] :: (escaped t ++ .stop name :: rest) := by
    simp only [Xml.element, List.cons_append, List.append_assoc, List.nil_append]
  rw [hpieces]
  refine ⟨.of_markup rfl _, ?_⟩
  show .start name [] :: reported true (escaped t ++ .stop name :: rest) = _
  rcases h with rfl | hplain
  · rfl
  · rw [reported_plain hplain rfl, textEvents, if_neg hplain.1]
    rfl

/-- What is reported of a document. -/
theorem Emits.document {root : List Piece} {l : List Event} (h : Emits root l) (name : List Char)
    (attributes : List (List Char × List Char)) :
    reported true (.declaration :: .char '\n' :: Xml.element name attributes root) =
      .aside :: .start name (attributes.map fun a ↦ some a.1) :: (l ++ [.stop name]) := by
  have hroot : reported true (Xml.element name attributes root) =
      .start name (attributes.map fun a ↦ some a.1) :: (l ++ [.stop name]) := by
    obtain ⟨-, hinner⟩ := h [.stop name] (.of_markup rfl [])
    show .start name _ :: reported true (root ++ [.stop name]) = _
    rw [hinner]
    rfl
  show .aside :: reported true (Xml.chars ['\n'] ++ Xml.element name attributes root) = _
  rw [← hroot]
  exact congrArg _ (reported_layout rfl (by decide) _)

/-- **What the resolver does to a text without references, and to a reference alone.** -/
structure Resolves (unescape : List Char → Except ε (List Char)) : Prop where
  plain : ∀ {t}, '&' ∉ t → unescape t = .ok t
  special : ∀ {c name}, (c, name) ∈ references → unescape ('&' :: (name ++ [';'])) = .ok [c]
  /-- A reference that can be resolved stands for something. -/
  ne_nil : ∀ {name t}, unescape ('&' :: (name ++ [';'])) = .ok t → t ≠ []

/-! ### A reader -/

/-- Where the scanner is, with what it has seen there, the last character first. -/
inductive Mode where
  | content
  | markup (seen : List Char)
  | reference (seen : List Char)
  | cData (seen : List Char)

/-- The event of a piece of markup, from what stands between its brackets. -/
def ofMarkup (markup : List Char) : Event :=
  match markup with
  | '?' :: _ => .aside
  | '/' :: name => .stop name
  | _ =>
    let words := markup.splitOn ' '
    .start (words.headD []) (words.tail.map fun word ↦ some (word.takeWhile (· ≠ '=')))

/-- The events of a text. -/
def scan : Mode → List Char → List Event
  | _, [] => []
  | .content, c :: rest =>
    if c = '<' then scan (.markup []) rest
    else if c = '&' then scan (.reference []) rest
    else pushChar c (scan .content rest)
  | .markup seen, c :: rest =>
    if c = '>' then ofMarkup seen.reverse :: scan .content rest
    else if c = '[' ∧ seen.reverse = "![CDATA".toList then scan (.cData []) rest
    else scan (.markup (c :: seen)) rest
  | .reference seen, c :: rest =>
    if c = ';' then .generalRef seen.reverse :: scan .content rest
    else scan (.reference (c :: seen)) rest
  | .cData seen, c :: rest =>
    if c = '>' ∧ seen.take 2 = [']', ']'] then .cData (seen.drop 2).reverse :: scan .content rest
    else scan (.cData (c :: seen)) rest

theorem scan_content (c : Char) (rest : List Char) : scan .content (c :: rest) =
    if c = '<' then scan (.markup []) rest
    else if c = '&' then scan (.reference []) rest
    else pushChar c (scan .content rest) := rfl

theorem scan_markup (seen rest : List Char) (c : Char) : scan (.markup seen) (c :: rest) =
    if c = '>' then ofMarkup seen.reverse :: scan .content rest
    else if c = '[' ∧ seen.reverse = "![CDATA".toList then scan (.cData []) rest
    else scan (.markup (c :: seen)) rest := rfl

theorem scan_reference (seen rest : List Char) (c : Char) : scan (.reference seen) (c :: rest) =
    if c = ';' then .generalRef seen.reverse :: scan .content rest
    else scan (.reference (c :: seen)) rest := rfl

theorem scan_cData (seen rest : List Char) (c : Char) : scan (.cData seen) (c :: rest) =
    if c = '>' ∧ seen.take 2 = [']', ']'] then .cData (seen.drop 2).reverse :: scan .content rest
    else scan (.cData (c :: seen)) rest := rfl

/-- Markup without a bracket in it, up to its end. -/
theorem scan_markup_append {markup : List Char} (h : ∀ c ∈ markup, c ≠ '>' ∧ c ≠ '[')
    (seen rest : List Char) : scan (.markup seen) (markup ++ '>' :: rest) =
      ofMarkup (seen.reverse ++ markup) :: scan .content rest := by
  induction markup generalizing seen with
  | nil =>
    rw [List.nil_append, scan_markup, if_pos rfl, List.append_nil]
  | cons c markup ih =>
    obtain ⟨hgt, hbracket⟩ := h c List.mem_cons_self
    rw [List.cons_append, scan_markup, if_neg hgt, if_neg fun h ↦ hbracket h.1,
      ih (fun d hd ↦ h d (List.mem_cons_of_mem _ hd)), List.reverse_cons, List.append_assoc]
    rfl

theorem scan_reference_append (h : ';' ∉ name) (seen rest : List Char) :
    scan (.reference seen) (name ++ ';' :: rest) =
      .generalRef (seen.reverse ++ name) :: scan .content rest := by
  induction name generalizing seen with
  | nil => rw [List.nil_append, scan_reference, if_pos rfl, List.append_nil]
  | cons c name ih =>
    have hne : c ≠ ';' := fun heq ↦ h (heq ▸ List.mem_cons_self)
    rw [List.cons_append, scan_reference, if_neg hne,
      ih fun hmem ↦ h (List.mem_cons_of_mem _ hmem), List.reverse_cons, List.append_assoc]
    rfl

/-- A section of character data, up to the first place where it can end. -/
theorem scan_cData_append {content : List Char} {seen : List Char}
    (h : ¬ "]]>".toList <:+: seen.reverse ++ content) (rest : List Char) :
    scan (.cData seen) (content ++ ("]]>".toList ++ rest)) =
      .cData (seen.reverse ++ content) :: scan .content rest := by
  induction content generalizing seen with
  | nil =>
    show scan (.cData seen) (']' :: ']' :: '>' :: rest) = _
    rw [scan_cData, if_neg fun h ↦ absurd h.1 (by decide), scan_cData,
      if_neg fun h ↦ absurd h.1 (by decide), scan_cData, if_pos ⟨rfl, rfl⟩, List.append_nil]
    rfl
  | cons c content ih =>
    have hend : ¬ (c = '>' ∧ seen.take 2 = [']', ']']) := by
      rintro ⟨rfl, htake⟩
      refine h ⟨(seen.drop 2).reverse, content, ?_⟩
      have hseen : seen.reverse = (seen.drop 2).reverse ++ [']', ']'] := by
        conv_lhs => rw [← List.take_append_drop 2 seen, htake, List.reverse_append]
        rfl
      rw [hseen, List.append_assoc, List.append_assoc]
      rfl
    have hcons : (c :: seen).reverse ++ content = seen.reverse ++ c :: content := by
      rw [List.reverse_cons, List.append_assoc]
      rfl
    rw [List.cons_append, scan_cData, if_neg hend, ih (by rwa [hcons]), hcons]

theorem IsName.notMem (h : IsName name) {c : Char} (hc : c.isAlpha = false) (hne : c ≠ ':') :
    c ∉ name := by
  intro hmem
  rcases h.2 c hmem with halpha | rfl
  · rw [hc] at halpha
    cases halpha
  · exact hne rfl

theorem writtenAttribute_notMem {a : List Char × List Char} {c : Char} (hname : IsName a.1)
    (hvalue : IsAttributeValue a.2) (hc : c.isAlphanum = false)
    (hne : c ∉ ":/.-=\"".toList) : c ∉ writtenAttribute a := by
  have halpha : c.isAlpha = false := (Bool.or_eq_false_iff.1 hc).1
  have hlist : ∀ {d : Char}, d ∈ ":/.-=\"".toList → c ≠ d := fun hd heq ↦ hne (heq ▸ hd)
  intro hmem
  rcases List.mem_append.1 hmem with hmem | hmem
  · exact hname.notMem halpha (hlist (by decide)) hmem
  rcases List.mem_cons.1 hmem with heq | hmem
  · exact hlist (by decide) heq
  rcases List.mem_cons.1 hmem with heq | hmem
  · exact hlist (by decide) heq
  rcases List.mem_append.1 hmem with hmem | hmem
  · rcases hvalue c hmem with halnum | hother
    · rw [hc] at halnum
      cases halnum
    · have hsub : ":/.-".toList ⊆ ":/.-=\"".toList := by decide
      exact hne (hsub hother)
  · exact hlist (by decide) (List.mem_singleton.1 hmem)

theorem takeWhile_writtenAttribute {a : List Char × List Char} (hname : IsName a.1) :
    (writtenAttribute a).takeWhile (· ≠ '=') = a.1 := by
  have hall : ∀ c ∈ a.1, decide (c ≠ '=') = true := by
    intro c hc
    refine decide_eq_true fun heq ↦ ?_
    exact hname.notMem (c := '=') (by decide) (by decide) (heq ▸ hc)
  rw [writtenAttribute, List.takeWhile_append_of_pos hall, List.takeWhile_cons_of_neg (by decide),
    List.append_nil]

/-- The words of a tag are its name and its attributes. -/
theorem splitOn_tag (hname : ' ' ∉ name) {attributes : List (List Char × List Char)}
    (hattributes : ∀ a ∈ attributes, IsName a.1 ∧ IsAttributeValue a.2) :
    (name ++ attributes.flatMap fun a ↦ ' ' :: writtenAttribute a).splitOn ' ' =
      name :: attributes.map writtenAttribute := by
  induction attributes generalizing name with
  | nil =>
    rw [List.flatMap_nil, List.append_nil]
    exact List.splitOn_eq_singleton hname
  | cons a attributes ih =>
    obtain ⟨hkey, hvalue⟩ := hattributes a List.mem_cons_self
    have hfirst : ∀ c ∈ name, (c == ' ') = false := by
      intro c hc
      refine beq_eq_false_iff_ne.2 fun heq ↦ ?_
      rw [heq] at hc
      exact hname hc
    rw [List.flatMap_cons, List.map_cons, ← ih
      (writtenAttribute_notMem hkey hvalue (by decide) (by decide))
      fun b hb ↦ hattributes b (List.mem_cons_of_mem _ hb)]
    exact List.splitOnP_append_cons_of_forall_mem hfirst ' ' rfl _

theorem ofMarkup_tag (hname : IsName name) {attributes : List (List Char × List Char)}
    (hattributes : ∀ a ∈ attributes, IsName a.1 ∧ IsAttributeValue a.2) :
    ofMarkup (name ++ attributes.flatMap fun a ↦ ' ' :: writtenAttribute a) =
      .start name (attributes.map fun a ↦ some a.1) := by
  obtain ⟨c, rest, rfl⟩ := List.exists_cons_of_ne_nil hname.1
  have hquestion : c ≠ '?' := fun heq ↦
    hname.notMem (c := '?') (by decide) (by decide) (heq ▸ List.mem_cons_self)
  have hslash : c ≠ '/' := fun heq ↦
    hname.notMem (c := '/') (by decide) (by decide) (heq ▸ List.mem_cons_self)
  have hmarkup : ∀ l : List Char, ofMarkup (c :: l) = .start (((c :: l).splitOn ' ').headD [])
      (((c :: l).splitOn ' ').tail.map fun word ↦ some (word.takeWhile (· ≠ '='))) := by
    intro l
    unfold ofMarkup
    split
    · next heq => exact absurd (List.cons.inj heq).1 hquestion
    · next heq => exact absurd (List.cons.inj heq).1 hslash
    · rfl
  rw [List.cons_append, hmarkup, ← List.cons_append,
    splitOn_tag (hname.notMem (by decide) (by decide)) hattributes, List.tail_cons, List.map_map]
  refine congrArg _ (List.map_congr_left fun a ha ↦ ?_)
  exact congrArg some (takeWhile_writtenAttribute (hattributes a ha).1)

/-- **The scanner finds what was written**, and goes on behind it. -/
theorem scan_written {pieces : List Piece} (h : Content pieces) (rest : List Char) :
    scan .content (written pieces ++ rest) = pieces.foldr Piece.push (scan .content rest) := by
  induction h generalizing rest with
  | nil => rfl
  | @char c pieces hlt hamp _ ih =>
    rw [written_cons, List.append_assoc, List.foldr_cons, ← ih]
    show scan .content (c :: (written pieces ++ rest)) = _
    rw [scan_content, if_neg hlt, if_neg hamp]
    rfl
  | @ref name pieces hname _ ih =>
    rw [written_cons, List.append_assoc, List.foldr_cons, ← ih]
    show scan (.reference []) (name ++ [';'] ++ (written pieces ++ rest)) = _
    rw [List.append_assoc]
    exact scan_reference_append (hname.notMem (by decide) (by decide)) [] _
  | @cData content pieces hcontent _ ih =>
    rw [written_cons, List.append_assoc, List.foldr_cons, ← ih]
    show scan (.cData []) (content ++ "]]>".toList ++ (written pieces ++ rest)) = _
    rw [List.append_assoc]
    exact @scan_cData_append _ [] hcontent _
  | @element name attributes inner pieces hname hattributes _ _ ihInner ih =>
    rw [written_cons, written_append, written_cons, List.foldr_cons, List.foldr_append,
      List.foldr_cons, ← ih, List.append_assoc, List.append_assoc, List.append_assoc]
    have hstop : scan .content ((Piece.stop name).written ++ (written pieces ++ rest)) =
        .stop name :: scan .content (written pieces ++ rest) := by
      show scan (.markup []) ('/' :: (name ++ ['>']) ++ (written pieces ++ rest)) = _
      rw [List.cons_append, List.append_assoc, ← List.cons_append]
      refine scan_markup_append (fun c hc ↦ ?_) [] _
      rcases List.mem_cons.1 hc with rfl | hmem
      · exact ⟨by decide, by decide⟩
      · refine ⟨?_, ?_⟩ <;> rintro rfl
        · exact hname.notMem (c := '>') (by decide) (by decide) hmem
        · exact hname.notMem (c := '[') (by decide) (by decide) hmem
    have hstart : ∀ l, scan .content ((Piece.start name attributes).written ++ l) =
        .start name (attributes.map fun a ↦ some a.1) :: scan .content l := by
      intro l
      show scan (.markup []) (name ++ (attributes.flatMap fun a ↦ ' ' :: writtenAttribute a) ++
        ['>'] ++ l) = _
      rw [List.append_assoc, ← ofMarkup_tag hname hattributes.2]
      refine scan_markup_append (fun c hc ↦ ?_) [] _
      rcases List.mem_append.1 hc with hmem | hmem
      · refine ⟨?_, ?_⟩ <;> rintro rfl
        · exact hname.notMem (c := '>') (by decide) (by decide) hmem
        · exact hname.notMem (c := '[') (by decide) (by decide) hmem
      · obtain ⟨a, ha, hmem⟩ := List.mem_flatMap.1 hmem
        obtain ⟨hkey, hvalue⟩ := hattributes.2 a ha
        rcases List.mem_cons.1 hmem with rfl | hmem
        · exact ⟨by decide, by decide⟩
        · refine ⟨?_, ?_⟩ <;> rintro rfl
          · exact writtenAttribute_notMem hkey hvalue (c := '>') (by decide) (by decide) hmem
          · exact writtenAttribute_notMem hkey hvalue (c := '[') (by decide) (by decide) hmem
    rw [hstart, ihInner, hstop]
    rfl

/-- A reader that never fails. -/
def scanner (trim : Bool) (document : List Char) : List (Except ε Event) :=
  (if trim then (scan .content document).filterMap trimEvent else scan .content document).map .ok

/-- **The scanner is a reader.** -/
theorem scanner_reads : Reads (ε := ε) scanner := by
  have hscan : ∀ {pieces}, IsDocument pieces → scan .content (written pieces) = events pieces := by
    intro pieces h
    have hcontent : ∀ {pieces}, Content pieces → scan .content (written pieces) = events pieces := by
      intro pieces h
      have hwritten := scan_written h []
      rwa [List.append_nil] at hwritten
    cases h with
    | root hname hattributes hinner => exact hcontent (.of_element hname hattributes hinner)
    | declared hname hattributes hinner =>
      have hdeclaration : ∀ l, scan .content (Piece.declaration.written ++ l) =
          .aside :: scan .content l := by
        intro l
        exact @scan_markup_append "?xml version=\"1.0\" encoding=\"UTF-8\"?".toList
          (by decide) [] l
      rw [written_cons, hdeclaration, hcontent (.char (by decide) (by decide)
        (.of_element hname hattributes hinner))]
      rfl
  refine ⟨fun {trim pieces} h ↦ ?_⟩
  rw [scanner, hscan h]
  rfl

/-- A resolver of the references to the special characters. -/
def resolver (error : ε) (t : List Char) : Except ε (List Char) :=
  if '&' ∉ t then .ok t
  else match references.find? fun r ↦ '&' :: (r.2 ++ [';']) = t with
    | some r => .ok [r.1]
    | none => .error error

theorem resolver_resolves (error : ε) : Resolves (resolver error) := by
  refine ⟨fun h ↦ if_pos h, fun h ↦ ?_, fun {name t} h ↦ ?_⟩
  · simp only [references, List.mem_cons, Prod.mk.injEq, List.not_mem_nil, or_false] at h
    rcases h with ⟨rfl, rfl⟩ | ⟨rfl, rfl⟩ | ⟨rfl, rfl⟩ | ⟨rfl, rfl⟩ | ⟨rfl, rfl⟩ <;> rfl
  · rw [resolver, if_neg (not_not.2 List.mem_cons_self)] at h
    split at h
    · rw [← Except.ok.inj h]
      exact List.cons_ne_nil _ _
    · cases h

end Xml
