import SqrzlEmulator.Azure.Model
import SqrzlEmulator.Data.Lossy

/-!
# The document of a block list

`parse_block_list`: one state machine goes through the events that the XML reader reports, and checks
the grammar of the document together with the selection of blocks. Every block of a list that it
accepts has an identity (`parseBlockList_identified`).
-/

namespace Sqrzl.Azure

/-- `valid_xml_characters` -/
def validXmlCharacters (xml : Text) : Bool :=
  xml.all fun c ↦ c = '\t' || c = '\n' || c = '\r' || (0x20 ≤ c.toNat && c.toNat ≤ 0xD7FF) ||
    (0xE000 ≤ c.toNat && c.toNat ≤ 0xFFFD) || 0x10000 ≤ c.toNat

/-- `xml_name_start` -/
def xmlNameStart (c : Char) : Bool :=
  c = ':' || c = '_' || c.isAlpha ||
    [(0xC0, 0xD6), (0xD8, 0xF6), (0xF8, 0x2FF), (0x370, 0x37D), (0x37F, 0x1FFF), (0x200C, 0x200D),
      (0x2070, 0x218F), (0x2C00, 0x2FEF), (0x3001, 0xD7FF), (0xF900, 0xFDCF), (0xFDF0, 0xFFFD),
      (0x10000, 0xEFFFF)].any fun range ↦ range.1 ≤ c.toNat && c.toNat ≤ range.2

/-- `valid_xml_name` -/
def validXmlName : Text → Bool
  | [] => false
  | c :: rest => xmlNameStart c && rest.all fun c ↦ xmlNameStart c || c = '-' || c = '.' ||
      c.isDigit || c.toNat = 0xB7 || (0x300 ≤ c.toNat && c.toNat ≤ 0x36F) ||
      (0x203F ≤ c.toNat && c.toNat ≤ 0x2040)

/-- `block_selector` -/
def blockSelector (name : Text) : Option BlockSelector :=
  if name = "Latest".toList then some .latest
  else if name = "Committed".toList then some .committed
  else if name = "Uncommitted".toList then some .uncommitted
  else none

/-- `xml_space` -/
def xmlSpace (value : Text) : Bool := value.all fun c ↦ c = ' ' || c = '\t' || c = '\n' || c = '\r'

/-- The characters that stand for a reference by name. -/
def namedReference (name : Text) : Option Char :=
  (["lt".toList, "gt".toList, "amp".toList, "apos".toList, "quot".toList].zip
    ['<', '>', '&', '\'', '"']).lookup name

/-- The variables of the loop. -/
structure BlockListState where
  rootSeen : Bool := false
  rootClosed : Bool := false
  /-- `current_element`, by its name and what it selects. -/
  current : Option (Text × BlockSelector) := none
  blockId : Text := []
  references : List BlockReference := []
  declarationAllowed : Bool := true

namespace BlockListState

/-- `append_block_text` -/
def appendBlockText (s : BlockListState) (value : Text) : Except BlockListError BlockListState :=
  if !validXmlCharacters value then .error .invalidXmlDocument
  else if s.current.isSome then .ok { s with blockId := s.blockId ++ value }
  else if !xmlSpace value then .error .invalidBlockList
  else .ok s

/-- The loop is between the tags of the root. -/
def inRoot (s : BlockListState) : Bool := s.rootSeen && !s.rootClosed

/-- The arms of the loop, without `declaration_allowed = false` behind them. -/
def arm (unescape : Text → Option Text) (xml : Text) (s : BlockListState) :
    BlockListEvent → Except BlockListError BlockListState
  | .start _ false | .empty _ false => .error .invalidXmlDocument
  | .start name true =>
    if !s.rootSeen && name = "BlockList".toList then .ok { s with rootSeen := true }
    else match blockSelector name with
      | some selector =>
        if s.inRoot && s.current.isNone then
          .ok { s with current := some (name, selector), blockId := [] }
        else .error .invalidBlockList
      | none => .error .invalidBlockList
  | .empty name true =>
    if !s.rootSeen && name = "BlockList".toList then
      .ok { s with rootSeen := true, rootClosed := true }
    else .error .invalidBlockList
  | .stop name =>
    match s.current with
    | some (current, selector) =>
      if current ≠ name then .error .invalidXmlDocument
      else if s.blockId.isEmpty then .error .invalidBlockList
      else .ok { s with
        references := s.references ++ [⟨String.ofList s.blockId, selector⟩]
        blockId := [], current := none }
    | none =>
      if s.inRoot && name = "BlockList".toList then .ok { s with rootClosed := true }
      else .error .invalidXmlDocument
  | .text content =>
    if !s.inRoot then
      if xmlSpace content then .ok s else .error .invalidXmlDocument
    else match unescape content with
      | some value => s.appendBlockText value
      | none => .error .invalidXmlDocument
  | .generalRef name resolved =>
    if !s.inRoot then .error .invalidXmlDocument
    else match resolved with
      | none => .error .invalidXmlDocument
      | some character =>
        match character <|> namedReference name with
        | some c => s.appendBlockText [c]
        | none => .error .invalidXmlDocument
  | .cData content =>
    if s.current.isSome then .ok { s with blockId := s.blockId ++ content }
    else .error .invalidBlockList
  | .declaration valid =>
    if s.declarationAllowed && "<?xml".toList.isPrefixOf xml && valid then .ok s
    else .error .invalidXmlDocument
  | .instruction target =>
    if !validXmlName target || eqIgnoreCase (String.ofList target) "xml" then
      .error .invalidXmlDocument
    else .ok s
  | .comment => .ok s
  | .docType => .error .invalidBlockList

/-- What is made of the end of the document. -/
def finish (s : BlockListState) : Except BlockListError (List BlockReference) :=
  if s.current.isSome || s.inRoot then .error .invalidXmlDocument
  else if !s.rootSeen then .error .invalidBlockList
  else .ok s.references

end BlockListState

/-- The loop of `parse_block_list`. -/
def readBlockList (unescape : Text → Option Text) (xml : Text) :
    List (Option BlockListEvent) → BlockListState → Except BlockListError (List BlockReference)
  | [], s => s.finish
  | none :: _, _ => .error .invalidXmlDocument
  | some event :: events, s => do
    let s ← s.arm unescape xml event
    readBlockList unescape xml events { s with declarationAllowed := false }

/-- `parse_block_list`, on a body that `str::from_utf8` takes: one that is decoded without loss. -/
def Codec.parseBlockList (C : Codec) (body : Bytes) : Except BlockListError (List BlockReference) :=
  let xml := Lossy.decode body
  if Percent.utf8 xml ≠ body || !validXmlCharacters xml then .error .invalidXmlDocument
  else
    let xml := if xml.head? = some '\uFEFF' then xml.tail else xml
    readBlockList C.unescapeXml xml (C.readXml xml) {}

/-! ### What is accepted -/

section Accepted

variable {unescape : Text → Option Text} {xml : Text} {s s' : BlockListState}

/-- Every block that has been read has an identity. -/
def BlockListState.Identified (s : BlockListState) : Prop := ∀ block ∈ s.references, block.id ≠ ""

theorem BlockListState.Identified.append {value : Text} (hs : s.Identified)
    (h : s.appendBlockText value = .ok s') : s'.Identified := by
  unfold appendBlockText at h
  split at h
  · cases h
  · split at h
    · cases h
      exact hs
    · split at h
      · cases h
      · cases h
        exact hs

/-- The end of a block is the only event that adds one. -/
theorem BlockListState.Identified.arm {event : BlockListEvent} (hs : s.Identified)
    (h : s.arm unescape xml event = .ok s') : s'.Identified := by
  unfold BlockListState.arm at h
  split at h
  · cases h
  · cases h
  · split at h
    · cases h
      exact hs
    · split at h
      · split at h
        · cases h
          exact hs
        · cases h
      · cases h
  · split at h
    · cases h
      exact hs
    · cases h
  · split at h
    · split at h
      · cases h
      · split at h
        · cases h
        · next hid =>
          cases h
          intro block hblock
          rcases List.mem_append.1 hblock with hold | hnew
          · exact hs block hold
          · obtain rfl := List.mem_singleton.1 hnew
            intro hempty
            have hnil : s.blockId = [] := by simpa using hempty
            exact hid (by rw [hnil]; rfl)
    · split at h
      · cases h
        exact hs
      · cases h
  · split at h
    · split at h
      · cases h
        exact hs
      · cases h
    · split at h
      · exact hs.append h
      · cases h
  · split at h
    · cases h
    · split at h
      · cases h
      · split at h
        · exact hs.append h
        · cases h
  · split at h
    · cases h
      exact hs
    · cases h
  · split at h
    · cases h
      exact hs
    · cases h
  · split at h
    · cases h
    · cases h
      exact hs
  · cases h
    exact hs
  · cases h

/-- **Every block of a list that is accepted has an identity.** -/
theorem BlockListState.Identified.readBlockList {events : List (Option BlockListEvent)}
    {blocks : List BlockReference} (hs : s.Identified)
    (h : readBlockList unescape xml events s = .ok blocks) : ∀ block ∈ blocks, block.id ≠ "" := by
  induction events generalizing s with
  | nil =>
    unfold Azure.readBlockList finish at h
    split at h
    · cases h
    · split at h
      · cases h
      · cases h
        exact hs
  | cons event events ih =>
    cases event with
    | none => cases h
    | some event =>
      unfold Azure.readBlockList at h
      cases harm : s.arm unescape xml event with
      | error e =>
        rw [harm] at h
        cases h
      | ok s' =>
        rw [harm] at h
        have hs' : s'.Identified := hs.arm harm
        exact ih (s := { s' with declarationAllowed := false }) hs' h

theorem parseBlockList_identified {C : Codec} {body : Bytes} {blocks : List BlockReference}
    (h : C.parseBlockList body = .ok blocks) : ∀ block ∈ blocks, block.id ≠ "" := by
  unfold Codec.parseBlockList at h
  dsimp only at h
  split at h
  · cases h
  · exact BlockListState.Identified.readBlockList (s := {}) (fun _ h ↦ absurd h List.not_mem_nil) h

end Accepted

end Sqrzl.Azure
