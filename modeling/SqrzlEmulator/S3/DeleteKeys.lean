import Mathlib.Data.List.Forall2
import SqrzlEmulator.Auth.Policy
import SqrzlEmulator.Data.Items
import SqrzlEmulator.Data.Xml

/-!
# Deleting many objects

`parse_delete_keys` of `server/handlers/bucket/helpers.rs`: the objects that a Delete document
names. The parser goes through the events of the document with a stack of the open elements, and
adds texts and character data to the value that is open. **A reference is passed over**, so a value
that is written with one loses the character that the reference stands for.

## Delete documents

`DeleteDocument` is a document in its parts, and `Says` what it has to look like to name a list of
objects: white space between the elements only, one key and at most one version and one ETag for
each object, at most one `Quiet`, and between one and a thousand objects. References are allowed in
values, where they stand for what they are resolved to.

**What is accepted is exactly what is a Delete document once its references are taken out**
(`parse_delete_keys_ok_iff`). So the parser is right about all documents without references, and
about those with references only if neither they nor what remains of them is a Delete document
(`parse_delete_keys_iff`).
-/

namespace Sqrzl.S3

open Xml

/-! ### The parser -/

/-- A key, a version and an ETag. -/
abbrev DeleteObjectEntry : Type := Text × Option Text × Option Text

/-- The elements that hold a value. -/
inductive DeleteField where
  | key
  | versionId
  | eTag
  | quiet
  deriving DecidableEq

/-- The name of the element. -/
def DeleteField.name : DeleteField → Text
  | .key => "Key".toList
  | .versionId => "VersionId".toList
  | .eTag => "ETag".toList
  | .quiet => "Quiet".toList

/-- The element of a name, if it holds a value. -/
def DeleteField.ofName (name : Text) : Option DeleteField :=
  if name = "Key".toList then some .key
  else if name = "VersionId".toList then some .versionId
  else if name = "ETag".toList then some .eTag
  else if name = "Quiet".toList then some .quiet
  else none

/-- What is said about a value outside its element. -/
def DeleteField.malformed : DeleteField → Text
  | .key => "Malformed Delete request Key".toList
  | .versionId => "Malformed Delete request VersionId".toList
  | .eTag => "Malformed Delete request ETag".toList
  | .quiet => "Malformed Delete request Quiet".toList

/-- What is said about a value that is not one. -/
def DeleteField.invalid : DeleteField → Text
  | .key => "Each Object must contain a non-empty Key".toList
  | .versionId => "VersionId must not be empty".toList
  | .eTag => "ETag must not be empty".toList
  | .quiet => "Quiet must be true or false".toList

/-- The values that the element can hold. -/
def DeleteField.accepts (field : DeleteField) (value : Text) : Bool :=
  match field with
  | .quiet => value = "true".toList || value = "false".toList
  | _ => !value.isEmpty

/-- The state of the parser; the stack begins with the innermost element. -/
structure DeleteState where
  rootClosed : Bool := false
  stack : List Text := []
  currentKey : Option Text := none
  currentVersion : Option Text := none
  currentEtag : Option Text := none
  currentQuiet : Option Text := none
  quietSeen : Bool := false
  objects : List DeleteObjectEntry := []
  deriving DecidableEq

namespace DeleteState

/-- The value that is being read. -/
def current (s : DeleteState) : DeleteField → Option Text
  | .key => s.currentKey
  | .versionId => s.currentVersion
  | .eTag => s.currentEtag
  | .quiet => s.currentQuiet

/-- The state with another value for a field. -/
def setCurrent (s : DeleteState) (field : DeleteField) (value : Option Text) : DeleteState :=
  match field with
  | .key => { s with currentKey := value }
  | .versionId => { s with currentVersion := value }
  | .eTag => { s with currentEtag := value }
  | .quiet => { s with currentQuiet := value }

/-- Attributes are for the root only, and only to name its schema. -/
def attributesAreValid (s : DeleteState) (name : Text) (attributes : List (Option Text)) : Bool :=
  attributes.all fun found ↦ found.any fun key ↦
    s.stack.isEmpty && name = "Delete".toList && "xmlns".toList.isPrefixOf key

/-- An object begins. -/
def openObject (s : DeleteState) : DeleteState :=
  { s with
    stack := "Object".toList :: s.stack
    currentKey := none
    currentVersion := none
    currentEtag := none }

/-- The one `Quiet` begins. -/
def openQuiet (s : DeleteState) : DeleteState :=
  { s with stack := "Quiet".toList :: s.stack, quietSeen := true, currentQuiet := some [] }

/-- `Event::Start` -/
def start (s : DeleteState) (name : Text) (attributes : List (Option Text)) :
    Except Text DeleteState :=
  if s.rootClosed then .error "Unexpected XML after the Delete document".toList
  else if !s.attributesAreValid name attributes then
    .error "Delete request elements contain unsupported attributes".toList
  else if s.stack = [] then
    if name ≠ "Delete".toList then .error "Delete must be the document root".toList
    else .ok { s with stack := [name] }
  else if s.stack = ["Delete".toList] then
    if name = "Object".toList then
      if 1000 ≤ s.objects.length then
        .error "Delete requests may contain at most 1000 objects".toList
      else .ok s.openObject
    else if name = "Quiet".toList ∧ s.quietSeen = false then .ok s.openQuiet
    else .error "Delete may contain only Object entries and one Quiet element".toList
  else if s.stack = ["Object".toList, "Delete".toList] then
    if name = "Key".toList ∧ s.currentKey = none then
      .ok { s with stack := name :: s.stack, currentKey := some [] }
    else if name = "VersionId".toList ∧ s.currentVersion = none then
      .ok { s with stack := name :: s.stack, currentVersion := some [] }
    else if name = "ETag".toList ∧ s.currentEtag = none then
      .ok { s with stack := name :: s.stack, currentEtag := some [] }
    else .error "Object may contain one Key, VersionId, and ETag element".toList
  else .error "Delete request elements have invalid nesting".toList

/-- `str::trim().is_empty()` -/
def isBlankText (value : Text) : Bool := value.all Auth.isWhitespace

/-- `Event::Text` and `Event::CData`, with what is said about characters between the elements. -/
def append (s : DeleteState) (unexpected value : Text) : Except Text DeleteState :=
  match s.stack.head?.bind DeleteField.ofName with
  | some field =>
    match s.current field with
    | some read => .ok (s.setCurrent field (some (read ++ value)))
    | none => .error field.malformed
  | none => if isBlankText value then .ok s else .error unexpected

/-- The end of an object. -/
def finishObject (s : DeleteState) : Except Text DeleteState :=
  match s.currentKey.filter (!·.isEmpty) with
  | some key => .ok { s with
      currentKey := none, currentVersion := none, currentEtag := none
      objects := s.objects ++ [(key, s.currentVersion, s.currentEtag)] }
  | none => .error "Each Object must contain a non-empty Key".toList

/-- What is checked at the end of an element. -/
def finishElement (s : DeleteState) (name : Text) : Except Text DeleteState :=
  match DeleteField.ofName name with
  | some field => if (s.current field).any field.accepts then .ok s else .error field.invalid
  | none =>
    if name = "Object".toList then s.finishObject
    else if name = "Delete".toList then
      if s.objects = [] then .error "Delete must contain at least one Object".toList
      else .ok { s with rootClosed := true }
    else .ok s

/-- `Event::End` -/
def stop (s : DeleteState) (name : Text) : Except Text DeleteState :=
  if s.stack.head? ≠ some name then
    .error "Delete request elements are not properly nested".toList
  else do
    let s ← s.finishElement name
    return { s with stack := s.stack.tail }

/-- What an event does. -/
def step (unescape : Text → Except Text Text) (s : DeleteState) :
    Xml.Event → Except Text DeleteState
  | .start name attributes => s.start name attributes
  | .empty _ => .error "Delete request elements must not be empty".toList
  | .text content => do
    let value ← unescape content
    s.append "Unexpected text in Delete request".toList value
  | .cData content => s.append "Unexpected CDATA in Delete request".toList content
  | .stop name => s.stop name
  | .docType => .error "Delete requests must not contain a document type".toList
  | .generalRef _ => .ok s
  | .aside => .ok s

end DeleteState

/-- `parse_delete_keys` -/
def parseDeleteKeys (read : Bool → Text → List (Except Text Xml.Event))
    (unescape : Text → Except Text Text) (xml : Text) : Except Text (List DeleteObjectEntry) := do
  let s ← (read false xml).foldlM (fun s event ↦ do s.step unescape (← event)) ({} : DeleteState)
  if !s.rootClosed || s.stack ≠ [] then
    .error "Malformed Delete request XML".toList
  else
    return s.objects

/-! ### Delete documents -/

/-- A part of a value, or of what is between the elements. -/
inductive Chunk where
  | text (content : Text)
  | cData (content : Text)
  | ref (name : Text)
  deriving DecidableEq

namespace Chunk

/-- The event of a part. -/
def event : Chunk → Xml.Event
  | .text content => .text content
  | .cData content => .cData content
  | .ref name => .generalRef name

/-- The part is a reference. -/
def isRef : Chunk → Bool
  | .ref _ => true
  | _ => false

/-- What a part stands for. -/
def value (unescape : Text → Except Text Text) : Chunk → Option Text
  | .text content => (unescape content).toOption
  | .cData content => some content
  | .ref name => (unescape ('&' :: (name ++ [';']))).toOption

/-- White space, written out. -/
def IsBlank (unescape : Text → Except Text Text) (chunk : Chunk) : Prop :=
  chunk.isRef = false ∧
    ∃ value, chunk.value unescape = some value ∧ DeleteState.isBlankText value = true

end Chunk

/-- What the parts of a value stand for together. -/
def valueOf (unescape : Text → Except Text Text) : List Chunk → Option Text
  | [] => some []
  | chunk :: chunks =>
    (chunk.value unescape).bind fun value ↦ (valueOf unescape chunks).map (value ++ ·)

/-- A value that its element can hold. -/
def DeleteField.Holds (unescape : Text → Except Text Text) (field : DeleteField)
    (chunks : List Chunk) (value : Text) : Prop :=
  valueOf unescape chunks = some value ∧ field.accepts value = true

/-- The element of a value. -/
def DeleteField.events (field : DeleteField) (chunks : List Chunk) : List Xml.Event :=
  .start field.name [] :: (chunks.map Chunk.event ++ [.stop field.name])

/-- What is in an object. -/
inductive ObjectItem where
  | blank (chunk : Chunk)
  | value (field : DeleteField) (chunks : List Chunk)
  deriving DecidableEq

namespace ObjectItem

/-- The events of an item. -/
def events : ObjectItem → List Xml.Event
  | .blank chunk => [chunk.event]
  | .value field chunks => field.events chunks

/-- An item that the parser accepts on its own. -/
def IsValid (unescape : Text → Except Text Text) : ObjectItem → Prop
  | .blank chunk => chunk.IsBlank unescape
  | .value field chunks => field ≠ .quiet ∧ ∃ value, field.Holds unescape chunks value

/-- The value of a field, if this is its element. -/
def valueFor (unescape : Text → Except Text Text) (field : DeleteField) : ObjectItem → Option Text
  | .blank _ => none
  | .value field' chunks => if field' = field then valueOf unescape chunks else none

/-- The values of a field. -/
def values (unescape : Text → Except Text Text) (field : DeleteField)
    (items : List ObjectItem) : List Text :=
  items.filterMap (valueFor unescape field)

/-- **The entry of an object**: one key, and at most one version and one ETag. -/
def Says (unescape : Text → Except Text Text) (items : List ObjectItem)
    (entry : DeleteObjectEntry) : Prop :=
  (∀ item ∈ items, item.IsValid unescape) ∧ values unescape .key items = [entry.1] ∧
    values unescape .versionId items = entry.2.1.toList ∧
    values unescape .eTag items = entry.2.2.toList

end ObjectItem

/-- What is in the root. -/
inductive DeleteItem where
  | blank (chunk : Chunk)
  | object (items : List ObjectItem)
  | quiet (chunks : List Chunk)
  deriving DecidableEq

namespace DeleteItem

/-- The events of an item. -/
def events : DeleteItem → List Xml.Event
  | .blank chunk => [chunk.event]
  | .object items =>
    .start "Object".toList [] :: (items.flatMap ObjectItem.events ++ [.stop "Object".toList])
  | .quiet chunks => DeleteField.quiet.events chunks

/-- An item that the parser accepts on its own; objects are judged by `ObjectItem.Says`. -/
def IsValid (unescape : Text → Except Text Text) : DeleteItem → Prop
  | .blank chunk => chunk.IsBlank unescape
  | .object _ => True
  | .quiet chunks => ∃ value, DeleteField.quiet.Holds unescape chunks value

/-- The items of an object. -/
def object? : DeleteItem → Option (List ObjectItem)
  | .object items => some items
  | _ => none

/-- The item is a `Quiet`. -/
def isQuiet : DeleteItem → Bool
  | .quiet _ => true
  | _ => false

end DeleteItem

/-- A document in its parts. -/
structure DeleteDocument where
  before : List Chunk
  attributes : List Text
  items : List DeleteItem
  after : List Chunk
  deriving DecidableEq

namespace DeleteDocument

/-- The events of a document. -/
def events (document : DeleteDocument) : List Xml.Event :=
  document.before.map Chunk.event ++
    .start "Delete".toList (document.attributes.map some) ::
      (document.items.flatMap DeleteItem.events ++
        .stop "Delete".toList :: document.after.map Chunk.event)

/-- **What a Delete document says**: which objects are to be deleted, in order. -/
structure Says (unescape : Text → Except Text Text) (document : DeleteDocument)
    (entries : List DeleteObjectEntry) : Prop where
  before : ∀ chunk ∈ document.before, chunk.IsBlank unescape
  attributes : ∀ key ∈ document.attributes, "xmlns".toList.isPrefixOf key = true
  items : ∀ item ∈ document.items, item.IsValid unescape
  quiet : document.items.countP DeleteItem.isQuiet ≤ 1
  objects : List.Forall₂ (ObjectItem.Says unescape) (document.items.filterMap DeleteItem.object?)
    entries
  ne_nil : entries ≠ []
  length_le : entries.length ≤ 1000
  after : ∀ chunk ∈ document.after, chunk.IsBlank unescape

end DeleteDocument

/-- **The events of a Delete document**, comments and the like apart. -/
def IsDeleteDocument (unescape : Text → Except Text Text) (events : List Xml.Event)
    (entries : List DeleteObjectEntry) : Prop :=
  ∃ document : DeleteDocument,
    document.events = events.filter (· ≠ .aside) ∧ document.Says unescape entries

/-- References. -/
def isReference : Xml.Event → Bool
  | .generalRef _ => true
  | _ => false

/-- The events that are left when the references are taken out. -/
def withoutReferences (events : List Xml.Event) : List Xml.Event :=
  events.filter (!isReference ·)

/-! ### Steps of the parser -/

section Steps

variable {unescape : Text → Except Text Text} {s s' : DeleteState} {field : DeleteField}
  {name value : Text} {stack : List Text} {event : Xml.Event} {events : List Xml.Event}
  {attributes : List (Option Text)} {entries : List DeleteObjectEntry}

theorem ofName_eq_some_iff : DeleteField.ofName name = some field ↔ name = field.name := by
  constructor
  · intro h
    unfold DeleteField.ofName at h
    split_ifs at h with h₁ h₂ h₃ h₄
    · exact Option.some.inj h ▸ h₁
    · exact Option.some.inj h ▸ h₂
    · exact Option.some.inj h ▸ h₃
    · exact Option.some.inj h ▸ h₄
  · rintro rfl
    cases field <;> rfl

theorem ofName_name (field : DeleteField) : DeleteField.ofName field.name = some field :=
  ofName_eq_some_iff.2 rfl

theorem name_injective {field' : DeleteField} (h : field.name = field'.name) : field = field' :=
  Option.some.inj (by rw [← ofName_name field, h, ofName_name])

@[simp] theorem current_setCurrent (s : DeleteState) (field : DeleteField) (value : Option Text) :
    (s.setCurrent field value).current field = value := by cases field <;> rfl

theorem current_setCurrent_of_ne {field' : DeleteField} (h : field' ≠ field)
    (value : Option Text) : (s.setCurrent field value).current field' = s.current field' := by
  cases field <;> cases field' <;> first | rfl | exact absurd rfl h

@[simp] theorem setCurrent_setCurrent (s : DeleteState) (field : DeleteField)
    (value value' : Option Text) :
    (s.setCurrent field value).setCurrent field value' = s.setCurrent field value' := by
  cases field <;> rfl

theorem setCurrent_eq_self {read : Option Text} (h : s.current field = read) :
    s.setCurrent field read = s := by
  cases field <;> cases h <;> rfl

@[simp] theorem stack_setCurrent (s : DeleteState) (field : DeleteField) (value : Option Text) :
    (s.setCurrent field value).stack = s.stack := by cases field <;> rfl

@[simp] theorem rootClosed_setCurrent (s : DeleteState) (field : DeleteField)
    (value : Option Text) : (s.setCurrent field value).rootClosed = s.rootClosed := by
  cases field <;> rfl

theorem append_value {read : Text} (hstack : s.stack = field.name :: stack)
    (hread : s.current field = some read) (unexpected : Text) :
    s.append unexpected value = .ok (s.setCurrent field (some (read ++ value))) := by
  rw [DeleteState.append, hstack, List.head?_cons, Option.bind_some, ofName_name]
  dsimp only
  rw [hread]

/-- Between the elements there may be white space. -/
theorem append_between_iff {unexpected : Text}
    (hstack : s.stack.head?.bind DeleteField.ofName = none) :
    s.append unexpected value = .ok s' ↔ DeleteState.isBlankText value = true ∧ s' = s := by
  rw [DeleteState.append, hstack]
  dsimp only
  split_ifs with h
  · exact ⟨fun heq ↦ ⟨h, (Except.ok.inj heq).symm⟩, fun heq ↦ by rw [heq.2]⟩
  · exact iff_of_false (fun heq ↦ by cases heq) fun heq ↦ h heq.1

/-- What is said about characters does not matter where they are accepted. -/
theorem append_ok {unexpected : Text} (h : s.append unexpected value = .ok s')
    (unexpected' : Text) : s.append unexpected' value = .ok s' := by
  unfold DeleteState.append at h ⊢
  split at h
  · exact h
  · split_ifs at h ⊢
    exact h

/-- A part of a text is added to what is open. -/
theorem step_chunk_iff {chunk : Chunk} (h : chunk.isRef = false) :
    s.step unescape chunk.event = .ok s' ↔
      ∃ value, chunk.value unescape = some value ∧ s.append [] value = .ok s' := by
  cases chunk with
  | ref name => cases h
  | cData content =>
    refine ⟨fun hstep ↦ ⟨content, rfl, append_ok hstep []⟩, ?_⟩
    rintro ⟨value, hvalue, happend⟩
    obtain rfl := Option.some.inj hvalue
    exact append_ok happend _
  | text content =>
    show (unescape content >>= _) = _ ↔ ∃ value, (unescape content).toOption = some value ∧ _
    cases unescape content with
    | error e => exact iff_of_false (fun h ↦ by cases h) fun ⟨_, h, _⟩ ↦ by cases h
    | ok content =>
      refine ⟨fun hstep ↦ ⟨content, rfl, append_ok hstep []⟩, ?_⟩
      rintro ⟨value, hvalue, happend⟩
      obtain rfl := Option.some.inj hvalue
      exact append_ok happend _

/-- Attributes inside of the root are refused. -/
theorem attributesAreValid_iff (hstack : s.stack ≠ []) :
    s.attributesAreValid name attributes = true ↔ attributes = [] := by
  cases attributes with
  | nil => exact iff_of_true rfl rfl
  | cons a attributes =>
    refine iff_of_false (fun h ↦ ?_) (List.cons_ne_nil _ _)
    have hfirst := List.all_eq_true.1 h a List.mem_cons_self
    cases a with
    | none => cases hfirst
    | some key =>
      rw [Option.any_some, List.isEmpty_eq_false_iff.2 hstack] at hfirst
      cases hfirst

theorem start_root_iff (hroot : s.rootClosed = false) (hstack : s.stack = []) :
    s.start name attributes = .ok s' ↔
      (name = "Delete".toList ∧ ∃ keys : List Text, attributes = keys.map some ∧
        ∀ key ∈ keys, "xmlns".toList.isPrefixOf key = true) ∧ s' = { s with stack := [name] } := by
  rw [DeleteState.start, if_neg (Bool.eq_false_iff.1 hroot), if_pos hstack]
  have hvalid : name = "Delete".toList → (s.attributesAreValid name attributes = true ↔
      ∃ keys : List Text, attributes = keys.map some ∧
        ∀ key ∈ keys, "xmlns".toList.isPrefixOf key = true) := by
    rintro rfl
    constructor
    · intro h
      induction attributes with
      | nil => exact ⟨[], rfl, fun key hkey ↦ by cases hkey⟩
      | cons a attributes ih =>
        obtain ⟨hfirst, hrest⟩ := Bool.and_eq_true_iff.1 h
        obtain ⟨keys, rfl, hkeys⟩ := ih hrest
        cases a with
        | none => cases hfirst
        | some key =>
          change (s.stack.isEmpty && _ && _) = true at hfirst
          rw [hstack] at hfirst
          exact ⟨key :: keys, rfl, List.forall_mem_cons.2 ⟨hfirst, hkeys⟩⟩
    · rintro ⟨keys, rfl, hkeys⟩
      refine List.all_eq_true.2 fun a ha ↦ ?_
      obtain ⟨key, hkey, rfl⟩ := List.mem_map.1 ha
      rw [Option.any_some, hstack]
      exact hkeys key hkey
  by_cases hname : name = "Delete".toList
  · rw [if_neg (not_not.2 hname), ← hvalid hname, and_iff_right hname]
    cases s.attributesAreValid name attributes with
    | false => exact iff_of_false (fun h ↦ by cases h) fun h ↦ by cases h.1
    | true => exact ⟨fun h ↦ ⟨rfl, (Except.ok.inj h).symm⟩, fun h ↦ by rw [h.2]; rfl⟩
  · rw [if_pos hname]
    refine iff_of_false (fun h ↦ ?_) fun h ↦ hname h.1.1
    split_ifs at h

/-- What may begin in the root. -/
theorem start_delete_iff (hroot : s.rootClosed = false) (hstack : s.stack = ["Delete".toList]) :
    s.start name attributes = .ok s' ↔ attributes = [] ∧
      ((name = "Object".toList ∧ s.objects.length < 1000 ∧ s' = s.openObject) ∨
        (name = "Quiet".toList ∧ s.quietSeen = false ∧ s' = s.openQuiet)) := by
  have hne : s.stack ≠ [] := hstack ▸ List.cons_ne_nil _ _
  rw [DeleteState.start, if_neg (Bool.eq_false_iff.1 hroot), if_neg hne, if_pos hstack,
    ← @attributesAreValid_iff _ name _ hne]
  cases s.attributesAreValid name attributes with
  | false => exact iff_of_false (fun h ↦ by cases h) fun h ↦ by cases h.1
  | true =>
    rw [and_iff_right rfl, if_neg (by decide)]
    by_cases hobject : name = "Object".toList
    · have hquiet : name ≠ "Quiet".toList := hobject ▸ (by decide)
      rw [if_pos hobject]
      split_ifs with hlength
      · refine iff_of_false (fun h ↦ by cases h) fun h ↦ ?_
        rcases h with ⟨-, hlt, -⟩ | ⟨heq, -⟩
        · omega
        · exact hquiet heq
      · refine ⟨fun h ↦ .inl ⟨hobject, by omega, (Except.ok.inj h).symm⟩, fun h ↦ ?_⟩
        rcases h with ⟨-, -, rfl⟩ | ⟨heq, -⟩
        · rfl
        · exact absurd heq hquiet
    · rw [if_neg hobject]
      split_ifs with hquiet
      · refine ⟨fun h ↦ .inr ⟨hquiet.1, hquiet.2, (Except.ok.inj h).symm⟩, fun h ↦ ?_⟩
        rcases h with ⟨heq, -⟩ | ⟨-, -, rfl⟩
        · exact absurd heq hobject
        · rfl
      · refine iff_of_false (fun h ↦ by cases h) fun h ↦ ?_
        rcases h with ⟨heq, -⟩ | ⟨heq, hseen, -⟩
        · exact hobject heq
        · exact hquiet ⟨heq, hseen⟩

/-- What may begin in an object. -/
theorem start_object_iff (hroot : s.rootClosed = false)
    (hstack : s.stack = ["Object".toList, "Delete".toList]) :
    s.start name attributes = .ok s' ↔ attributes = [] ∧ ∃ field : DeleteField,
      field ≠ .quiet ∧ name = field.name ∧ s.current field = none ∧
        s' = { s.setCurrent field (some []) with stack := name :: s.stack } := by
  have hne : s.stack ≠ [] := hstack ▸ List.cons_ne_nil _ _
  have hdelete : s.stack ≠ ["Delete".toList] := hstack ▸ (by decide)
  rw [DeleteState.start, if_neg (Bool.eq_false_iff.1 hroot), if_neg hne, if_neg hdelete,
    if_pos hstack, ← @attributesAreValid_iff _ name _ hne]
  cases s.attributesAreValid name attributes with
  | false => exact iff_of_false (fun h ↦ by cases h) fun h ↦ by cases h.1
  | true =>
    rw [and_iff_right rfl, if_neg (by decide)]
    constructor
    · intro h
      split_ifs at h with hkey hversion hetag
      · exact ⟨.key, by decide, hkey.1, hkey.2, (Except.ok.inj h).symm⟩
      · exact ⟨.versionId, by decide, hversion.1, hversion.2, (Except.ok.inj h).symm⟩
      · exact ⟨.eTag, by decide, hetag.1, hetag.2, (Except.ok.inj h).symm⟩
    · rintro ⟨field, hfield, rfl, hnone, rfl⟩
      cases field with
      | key => exact if_pos ⟨rfl, hnone⟩
      | versionId => exact (if_neg fun h ↦ absurd h.1 (by decide)).trans (if_pos ⟨rfl, hnone⟩)
      | eTag =>
        exact (if_neg fun h ↦ absurd h.1 (by decide)).trans
          ((if_neg fun h ↦ absurd h.1 (by decide)).trans (if_pos ⟨rfl, hnone⟩))
      | quiet => exact absurd rfl hfield

/-- Nothing may begin in a value, or behind the root. -/
theorem start_value_ne (hstack : s.stack = field.name :: stack) (hne : stack ≠ []) :
    s.start name attributes ≠ .ok s' := by
  intro h
  have hdelete : s.stack ≠ ["Delete".toList] := by
    rw [hstack]
    intro heq
    exact hne (List.cons.inj heq).2
  have hobject : s.stack ≠ ["Object".toList, "Delete".toList] := by
    rw [hstack]
    intro heq
    have hname := (List.cons.inj heq).1
    cases field <;> exact absurd hname (by decide)
  unfold DeleteState.start at h
  rw [if_neg (hstack ▸ List.cons_ne_nil _ _ : s.stack ≠ []), if_neg hdelete, if_neg hobject] at h
  split_ifs at h

theorem start_closed_ne (hroot : s.rootClosed = true) : s.start name attributes ≠ .ok s' := by
  intro h
  rw [DeleteState.start, if_pos hroot] at h
  cases h

/-- An element ends if it is the innermost one. -/
theorem stop_iff {top : Text} (hstack : s.stack = top :: stack) :
    s.stop name = .ok s' ↔ name = top ∧
      ∃ finished, s.finishElement name = .ok finished ∧
        s' = { finished with stack := finished.stack.tail } := by
  rw [DeleteState.stop, hstack, List.head?_cons]
  split_ifs with h
  · exact iff_of_false (fun heq ↦ by cases heq) fun heq ↦ h (congrArg some heq.1.symm)
  · have htop : name = top := (Option.some.inj (not_not.1 h)).symm
    rw [and_iff_right htop]
    cases s.finishElement name with
    | error e => exact iff_of_false (fun heq ↦ by cases heq) fun ⟨_, heq, _⟩ ↦ by cases heq
    | ok finished =>
      constructor
      · intro heq
        exact ⟨finished, rfl, (Except.ok.inj heq).symm⟩
      · rintro ⟨finished', hfinished, rfl⟩
        obtain rfl := Except.ok.inj hfinished
        rfl

theorem finishElement_value_iff :
    s.finishElement field.name = .ok s' ↔ (s.current field).any field.accepts = true ∧ s' = s := by
  rw [DeleteState.finishElement, ofName_name]
  dsimp only
  split_ifs with h
  · exact ⟨fun heq ↦ ⟨h, (Except.ok.inj heq).symm⟩, fun heq ↦ by rw [heq.2]⟩
  · exact iff_of_false (fun heq ↦ by cases heq) fun heq ↦ h heq.1

theorem finishElement_object : s.finishElement "Object".toList = s.finishObject := rfl

theorem finishElement_delete_iff :
    s.finishElement "Delete".toList = .ok s' ↔
      s.objects ≠ [] ∧ s' = { s with rootClosed := true } := by
  show (if s.objects = [] then _ else _) = _ ↔ _
  split_ifs with h
  · exact iff_of_false (fun heq ↦ by cases heq) fun heq ↦ heq.1 h
  · exact ⟨fun heq ↦ ⟨h, (Except.ok.inj heq).symm⟩, fun heq ↦ by rw [heq.2]⟩

/-! ### Runs of the parser -/

/-- What the rest of the events leads to. -/
def Accepts (unescape : Text → Except Text Text) (s : DeleteState) (events : List Xml.Event)
    (entries : List DeleteObjectEntry) : Prop :=
  ∃ final, events.foldlM (·.step unescape) s = .ok final ∧ final.rootClosed = true ∧
    final.stack = [] ∧ final.objects = entries

theorem accepts_nil_iff : Accepts unescape s [] entries ↔
    s.rootClosed = true ∧ s.stack = [] ∧ s.objects = entries := by
  constructor
  · rintro ⟨final, hfold, h⟩
    obtain rfl := Except.ok.inj hfold
    exact h
  · exact fun h ↦ ⟨s, rfl, h⟩

theorem accepts_cons_iff : Accepts unescape s (event :: events) entries ↔
    ∃ s', s.step unescape event = .ok s' ∧ Accepts unescape s' events entries := by
  unfold Accepts
  rw [List.foldlM_cons]
  cases s.step unescape event with
  | error e =>
    refine iff_of_false (fun ⟨final, h, _⟩ ↦ ?_) fun ⟨s', h, _⟩ ↦ ?_
    · cases h
    · cases h
  | ok s' =>
    constructor
    · exact fun h ↦ ⟨s', rfl, h⟩
    · rintro ⟨s'', hs, h⟩
      obtain rfl := Except.ok.inj hs
      exact h

/-- Events that the parser does not pass over. -/
def isKept : Xml.Event → Bool
  | .generalRef _ | .aside => false
  | _ => true

theorem accepts_filter_isKept :
    Accepts unescape s (events.filter isKept) entries ↔ Accepts unescape s events entries := by
  induction events generalizing s with
  | nil => rfl
  | cons event events ih =>
    cases hkept : isKept event with
    | true =>
      rw [List.filter_cons_of_pos hkept, accepts_cons_iff, accepts_cons_iff]
      exact exists_congr fun s' ↦ and_congr_right fun _ ↦ ih
    | false =>
      rw [List.filter_cons_of_neg (Bool.eq_false_iff.1 hkept), ih, accepts_cons_iff]
      have hstep : s.step unescape event = .ok s := by
        cases event with
        | generalRef name => rfl
        | aside => rfl
        | start | stop | empty | text | cData | docType => cases hkept
      constructor
      · exact fun h ↦ ⟨s, hstep, h⟩
      · rintro ⟨s', hs', h⟩
        rw [hstep] at hs'
        obtain rfl := Except.ok.inj hs'
        exact h

/-- What the parser does not pass over is markup or a part of a text. -/
theorem chunk_of_isKept (h : isKept event = true) :
    (∃ chunk : Chunk, chunk.isRef = false ∧ event = chunk.event) ∨
      (∃ name attributes, event = .start name attributes) ∨ (∃ name, event = .stop name) ∨
      ∀ {s s' : DeleteState}, s.step unescape event ≠ .ok s' := by
  cases event with
  | text content => exact .inl ⟨.text content, rfl, rfl⟩
  | cData content => exact .inl ⟨.cData content, rfl, rfl⟩
  | start name attributes => exact .inr (.inl ⟨name, attributes, rfl⟩)
  | stop name => exact .inr (.inr (.inl ⟨name, rfl⟩))
  | empty name => exact .inr (.inr (.inr fun h ↦ by cases h))
  | docType => exact .inr (.inr (.inr fun h ↦ by cases h))
  | generalRef name => cases h
  | aside => cases h

theorem isRef_of_isKept {chunk : Chunk} (h : isKept chunk.event = true) : chunk.isRef = false := by
  cases chunk with
  | text | cData => rfl
  | ref => cases h

@[simp] theorem valueOf_cons_eq_some_iff {chunk : Chunk} {chunks : List Chunk} :
    valueOf unescape (chunk :: chunks) = some value ↔
      ∃ a b, chunk.value unescape = some a ∧ valueOf unescape chunks = some b ∧ a ++ b = value := by
  rw [valueOf, Option.bind_eq_some_iff]
  constructor
  · rintro ⟨a, ha, h⟩
    obtain ⟨b, hb, rfl⟩ := Option.map_eq_some_iff.1 h
    exact ⟨a, b, ha, hb, rfl⟩
  · rintro ⟨a, b, ha, hb, rfl⟩
    exact ⟨a, ha, by rw [hb]; rfl⟩

/-- **A value is read up to the end of its element.** -/
theorem accepts_value_iff {read : Text} (hstack : s.stack = field.name :: stack) (hne : stack ≠ [])
    (hread : s.current field = some read) (hkept : ∀ event ∈ events, isKept event = true) :
    Accepts unescape s events entries ↔ ∃ chunks value rest,
      events = chunks.map Chunk.event ++ .stop field.name :: rest ∧
      valueOf unescape chunks = some value ∧ field.accepts (read ++ value) = true ∧
      Accepts unescape { s.setCurrent field (some (read ++ value)) with stack := stack } rest
        entries := by
  induction events generalizing s read with
  | nil =>
    refine iff_of_false (fun h ↦ ?_) fun ⟨chunks, value, rest, h, _⟩ ↦ ?_
    · rw [accepts_nil_iff, hstack] at h
      exact absurd h.2.1 (List.cons_ne_nil _ _)
    · exact absurd h.symm (List.append_ne_nil_of_right_ne_nil _ (List.cons_ne_nil _ _))
  | cons event events ih =>
    obtain ⟨hfirst, hrest⟩ := List.forall_mem_cons.1 hkept
    have hchunk : ∀ {chunk : Chunk} {value : Text}, chunk.isRef = false →
        chunk.value unescape = some value → ∀ {s'}, s.step unescape chunk.event = .ok s' ↔
          s' = s.setCurrent field (some (read ++ value)) := by
      intro chunk value href hvalue s'
      rw [step_chunk_iff href]
      constructor
      · rintro ⟨value', hvalue', happend⟩
        rw [hvalue] at hvalue'
        obtain rfl := Option.some.inj hvalue'
        rw [append_value hstack hread] at happend
        exact (Except.ok.inj happend).symm
      · rintro rfl
        exact ⟨value, hvalue, append_value hstack hread _⟩
    rw [accepts_cons_iff]
    constructor
    · rintro ⟨s', hstep, h⟩
      rcases @chunk_of_isKept unescape _ hfirst with
        ⟨chunk, href, rfl⟩ | ⟨name, attributes, rfl⟩ | ⟨name, rfl⟩ | hno
      · obtain ⟨value, hvalue, -⟩ := (step_chunk_iff href).1 hstep
        obtain rfl := (hchunk href hvalue).1 hstep
        obtain ⟨chunks, value', rest, rfl, hvalue', haccepts, h⟩ :=
          (ih ((stack_setCurrent ..).trans hstack) (current_setCurrent ..) hrest).1 h
        rw [setCurrent_setCurrent, List.append_assoc] at h
        rw [List.append_assoc] at haccepts
        exact ⟨chunk :: chunks, value ++ value', rest, rfl,
          valueOf_cons_eq_some_iff.2 ⟨_, _, hvalue, hvalue', rfl⟩, haccepts, h⟩
      · exact absurd hstep (start_value_ne hstack hne)
      · obtain ⟨rfl, finished, hfinish, rfl⟩ := (stop_iff hstack).1 hstep
        obtain ⟨haccepts, rfl⟩ := finishElement_value_iff.1 hfinish
        rw [hread, Option.any_some] at haccepts
        refine ⟨[], [], events, rfl, rfl, by rwa [List.append_nil], ?_⟩
        rw [List.append_nil, setCurrent_eq_self hread]
        rwa [hstack] at h
      · exact absurd hstep hno
    · rintro ⟨chunks, value, rest, hevents, hvalue, haccepts, h⟩
      cases chunks with
      | nil =>
        obtain ⟨rfl, rfl⟩ := List.cons.inj hevents
        obtain rfl := Option.some.inj hvalue
        rw [List.append_nil, setCurrent_eq_self hread] at h
        rw [List.append_nil] at haccepts
        have hfinish : s.finishElement field.name = .ok s :=
          finishElement_value_iff.2 ⟨by rwa [hread, Option.any_some], rfl⟩
        refine ⟨_, (stop_iff hstack).2 ⟨rfl, s, hfinish, rfl⟩, ?_⟩
        rwa [hstack]
      | cons chunk chunks =>
        obtain ⟨rfl, rfl⟩ := List.cons.inj hevents
        obtain ⟨a, b, ha, hb, rfl⟩ := valueOf_cons_eq_some_iff.1 hvalue
        refine ⟨_, (hchunk (isRef_of_isKept hfirst) ha).2 rfl,
          (ih ((stack_setCurrent ..).trans hstack) (current_setCurrent ..) hrest).2
            ⟨chunks, b, rest, rfl, hb, ?_, ?_⟩⟩
        · rwa [List.append_assoc]
        · rwa [setCurrent_setCurrent, List.append_assoc]

/-- The values of a field, the one that is already there in front. -/
def combined (unescape : Text → Except Text Text) (s : DeleteState) (items : List ObjectItem)
    (field : DeleteField) : List Text :=
  (s.current field).toList ++ ObjectItem.values unescape field items

/-- The state at the end of an object. -/
def afterItems (unescape : Text → Except Text Text) (s : DeleteState) (items : List ObjectItem) :
    DeleteState :=
  { s with
    currentKey := (combined unescape s items .key).head?
    currentVersion := (combined unescape s items .versionId).head?
    currentEtag := (combined unescape s items .eTag).head? }

theorem afterItems_nil : afterItems unescape s [] = s := by
  have hhead : ∀ read : Option Text, (read.toList ++ []).head? = read := by
    intro read
    cases read <;> rfl
  show { s with
    currentKey := (s.currentKey.toList ++ []).head?
    currentVersion := (s.currentVersion.toList ++ []).head?
    currentEtag := (s.currentEtag.toList ++ []).head? } = s
  rw [hhead, hhead, hhead]

theorem values_value_cons {chunks : List Chunk} (h : valueOf unescape chunks = some value)
    (items : List ObjectItem) (field' : DeleteField) :
    ObjectItem.values unescape field' (.value field chunks :: items) =
      (if field = field' then [value] else []) ++ ObjectItem.values unescape field' items := by
  unfold ObjectItem.values
  by_cases hfield : field = field'
  · have hvalue : ObjectItem.valueFor unescape field' (.value field chunks) = some value :=
      (if_pos hfield).trans h
    rw [List.filterMap_cons_some hvalue, if_pos hfield]
    rfl
  · have hvalue : ObjectItem.valueFor unescape field' (.value field chunks) = none :=
      if_neg hfield
    rw [List.filterMap_cons_none hvalue, if_neg hfield]
    rfl

/-- A value that has been read counts like one that was there before. -/
theorem combined_value {chunks : List Chunk} (hnone : s.current field = none)
    (h : valueOf unescape chunks = some value) (items : List ObjectItem) (field' : DeleteField) :
    combined unescape s (.value field chunks :: items) field' =
      combined unescape (s.setCurrent field (some value)) items field' := by
  unfold combined
  rw [values_value_cons h]
  by_cases hfield : field' = field
  · subst hfield
    rw [hnone, current_setCurrent, if_pos rfl]
    rfl
  · rw [current_setCurrent_of_ne hfield, if_neg (Ne.symm hfield)]
    rfl

theorem afterItems_value {chunks : List Chunk} (hfield : field ≠ .quiet)
    (hnone : s.current field = none) (h : valueOf unescape chunks = some value)
    (items : List ObjectItem) :
    afterItems unescape s (.value field chunks :: items) =
      afterItems unescape (s.setCurrent field (some value)) items := by
  unfold afterItems
  rw [combined_value hnone h, combined_value hnone h, combined_value hnone h]
  cases field with
  | quiet => exact absurd rfl hfield
  | key | versionId | eTag => rfl

theorem setCurrent_reopened (hstack : s.stack = stack) (read read' : Option Text) :
    { ({ s.setCurrent field read with stack := name :: s.stack } : DeleteState).setCurrent field
      read' with stack := stack } = s.setCurrent field read' := by
  subst hstack
  cases field <;> rfl

/-- A part of a text between the elements. -/
theorem step_blank_iff {chunk : Chunk} (href : chunk.isRef = false)
    (hbetween : s.stack.head?.bind DeleteField.ofName = none) :
    s.step unescape chunk.event = .ok s' ↔ chunk.IsBlank unescape ∧ s' = s := by
  rw [step_chunk_iff href]
  constructor
  · rintro ⟨value, hvalue, happend⟩
    obtain ⟨hblank, rfl⟩ := (append_between_iff hbetween).1 happend
    exact ⟨⟨href, value, hvalue, hblank⟩, rfl⟩
  · rintro ⟨⟨-, value, hvalue, hblank⟩, rfl⟩
    exact ⟨value, hvalue, (append_between_iff hbetween).2 ⟨hblank, rfl⟩⟩

/-- The parser stands in front of the items of an object. -/
structure InObject (s : DeleteState) (events : List Xml.Event) : Prop where
  root : s.rootClosed = false
  stack : s.stack = ["Object".toList, "Delete".toList]
  kept : ∀ event ∈ events, isKept event = true

/-- What an item of an object makes of the state. -/
def ObjectItem.Reads (unescape : Text → Except Text Text) (s : DeleteState) (item : ObjectItem)
    (s' : DeleteState) : Prop :=
  item.IsValid unescape ∧
    match item with
    | .blank _ => s' = s
    | .value field chunks => s.current field = none ∧
        ∃ value, valueOf unescape chunks = some value ∧ s' = s.setCurrent field (some value)

theorem InObject.reads {item : ObjectItem} (h : InObject s (item.events ++ events))
    (hreads : item.Reads unescape s s') : InObject s' events := by
  have hkept : ∀ event ∈ events, isKept event = true := fun event hevent ↦
    h.kept event (List.mem_append_right _ hevent)
  cases item with
  | blank chunk =>
    obtain ⟨-, rfl⟩ := hreads
    exact ⟨h.root, h.stack, hkept⟩
  | value field chunks =>
    obtain ⟨-, -, value, -, rfl⟩ := hreads
    exact ⟨(rootClosed_setCurrent ..).trans h.root, (stack_setCurrent ..).trans h.stack, hkept⟩

theorem stack_of_finishObject {finished : DeleteState} (h : s.finishObject = .ok finished) :
    finished.stack = s.stack := by
  unfold DeleteState.finishObject at h
  split at h
  · exact (Except.ok.inj h) ▸ rfl
  · cases h

/-- The element of a value in an object. -/
theorem accepts_field_iff (h : InObject s (.start field.name [] :: events)) :
    Accepts unescape { s.setCurrent field (some []) with stack := field.name :: s.stack } events
        entries ↔ ∃ chunks value rest, events = chunks.map Chunk.event ++ .stop field.name :: rest ∧
      field.Holds unescape chunks value ∧
      Accepts unescape (s.setCurrent field (some value)) rest entries := by
  have hread : ({ s.setCurrent field (some []) with
      stack := field.name :: s.stack } : DeleteState).current field = some [] := by
    cases field <;> rfl
  rw [accepts_value_iff (congrArg _ h.stack) (List.cons_ne_nil _ _) hread
    (List.forall_mem_cons.1 h.kept).2]
  simp only [List.nil_append, setCurrent_reopened h.stack, DeleteField.Holds, and_assoc]

/-- **An object is read item by item.** -/
theorem accepts_item_iff (h : InObject s events) :
    Accepts unescape s events entries ↔
      (∃ rest finished, events = .stop "Object".toList :: rest ∧ s.finishObject = .ok finished ∧
        Accepts unescape { finished with stack := ["Delete".toList] } rest entries) ∨
      ∃ item s' rest, events = ObjectItem.events item ++ rest ∧ item.Reads unescape s s' ∧
        Accepts unescape s' rest entries := by
  have hbetween : s.stack.head?.bind DeleteField.ofName = none := by rw [h.stack]; rfl
  constructor
  · intro hall
    cases events with
    | nil =>
      rw [accepts_nil_iff, h.stack] at hall
      exact absurd hall.2.1 (List.cons_ne_nil _ _)
    | cons event events =>
      obtain ⟨s', hstep, haccepts⟩ := accepts_cons_iff.1 hall
      rcases @chunk_of_isKept unescape _ (List.forall_mem_cons.1 h.kept).1 with
        ⟨chunk, href, rfl⟩ | ⟨name, attributes, rfl⟩ | ⟨name, rfl⟩ | hno
      · obtain ⟨hblank, rfl⟩ := (step_blank_iff href hbetween).1 hstep
        exact .inr ⟨.blank chunk, s', events, rfl, ⟨hblank, rfl⟩, haccepts⟩
      · obtain ⟨rfl, field, hfield, rfl, hnone, rfl⟩ :=
          (start_object_iff h.root h.stack).1 hstep
        obtain ⟨chunks, value, rest, rfl, hholds, haccepts⟩ := (accepts_field_iff h).1 haccepts
        refine .inr ⟨.value field chunks, _, rest, ?_,
          ⟨⟨hfield, value, hholds⟩, hnone, value, hholds.1, rfl⟩, haccepts⟩
        simp only [ObjectItem.events, DeleteField.events, List.cons_append, List.append_assoc,
          List.nil_append]
      · obtain ⟨rfl, finished, hfinish, rfl⟩ := (stop_iff h.stack).1 hstep
        rw [finishElement_object] at hfinish
        refine .inl ⟨events, finished, rfl, hfinish, ?_⟩
        rwa [stack_of_finishObject hfinish, h.stack] at haccepts
      · exact absurd hstep hno
  · rintro (⟨rest, finished, rfl, hfinish, haccepts⟩ | ⟨item, s', rest, rfl, hreads, haccepts⟩)
    · refine accepts_cons_iff.2 ⟨_, (stop_iff h.stack).2 ⟨rfl, finished, hfinish, rfl⟩, ?_⟩
      rwa [stack_of_finishObject hfinish, h.stack]
    · cases item with
      | blank chunk =>
        obtain ⟨hblank, rfl⟩ := hreads
        exact accepts_cons_iff.2 ⟨s', (step_blank_iff hblank.1 hbetween).2 ⟨hblank, rfl⟩, haccepts⟩
      | value field chunks =>
        obtain ⟨⟨hfield, value, hholds⟩, hnone, value', hvalue', rfl⟩ := hreads
        obtain rfl := Option.some.inj (hholds.1.symm.trans hvalue')
        simp only [ObjectItem.events, DeleteField.events, List.cons_append, List.append_assoc,
          List.nil_append] at h ⊢
        exact accepts_cons_iff.2 ⟨_, (start_object_iff h.root h.stack).2
          ⟨rfl, field, hfield, rfl, hnone, rfl⟩,
          (accepts_field_iff h).2 ⟨chunks, value, rest, rfl, hholds, haccepts⟩⟩

/-- A value that is there is the only one of its field. -/
theorem combined_length_of_some {items : List ObjectItem} {read : Text}
    (hread : s.current field = some read) (h : (combined unescape s items field).length ≤ 1) :
    ObjectItem.values unescape field items = [] := by
  rw [combined, hread, Option.toList_some, List.singleton_append, List.length_cons] at h
  exact List.length_eq_zero_iff.1 (by omega)

/-- **What the items of an object make of the state**, if no field is there twice. -/
theorem steps_items_iff {items : List ObjectItem} :
    Items.Steps (fun s item s' ↦ ObjectItem.Reads unescape s item s') s items s' ↔
      (∀ item ∈ items, item.IsValid unescape) ∧
      (∀ field, field ≠ .quiet → (combined unescape s items field).length ≤ 1) ∧
      s' = afterItems unescape s items := by
  induction items generalizing s with
  | nil =>
    rw [Items.steps_nil_iff, afterItems_nil]
    refine ⟨fun h ↦ ⟨fun item hitem ↦ absurd hitem List.not_mem_nil, fun field _ ↦ ?_, h⟩,
      fun h ↦ h.2.2⟩
    show ((s.current field).toList ++ []).length ≤ 1
    rw [List.append_nil]
    exact Option.length_toList_le
  | cons item items ih =>
    simp only [Items.steps_cons_iff, ih]
    cases item with
    | blank chunk =>
      constructor
      · rintro ⟨s', ⟨hblank, rfl⟩, hvalid, h⟩
        exact ⟨List.forall_mem_cons.2 ⟨hblank, hvalid⟩, h⟩
      · rintro ⟨hvalid, h⟩
        obtain ⟨hblank, hvalid⟩ := List.forall_mem_cons.1 hvalid
        exact ⟨s, ⟨hblank, rfl⟩, hvalid, h⟩
    | value field chunks =>
      constructor
      · rintro ⟨_, ⟨hfirst, hnone, value, hvalue, rfl⟩, hvalid, hlength, rfl⟩
        refine ⟨List.forall_mem_cons.2 ⟨hfirst, hvalid⟩, fun field' hfield' ↦ ?_,
          (afterItems_value hfirst.1 hnone hvalue items).symm⟩
        rw [combined_value hnone hvalue]
        exact hlength field' hfield'
      · rintro ⟨hvalid, hlength, rfl⟩
        obtain ⟨⟨hfield, value, hvalue, haccepts⟩, hvalid⟩ := List.forall_mem_cons.1 hvalid
        have hnone : s.current field = none := by
          cases hread : s.current field with
          | none => rfl
          | some read =>
            have hnil := combined_length_of_some hread (hlength field hfield)
            rw [values_value_cons hvalue, if_pos rfl] at hnil
            exact absurd hnil (List.cons_ne_nil _ _)
        refine ⟨_, ⟨⟨hfield, value, hvalue, haccepts⟩, hnone, value, hvalue, rfl⟩, hvalid,
          fun field' hfield' ↦ ?_, afterItems_value hfield hnone hvalue items⟩
        rw [← combined_value hnone hvalue]
        exact hlength field' hfield'

/-- **The items of an object are read up to its end.** -/
theorem accepts_items_iff (hroot : s.rootClosed = false)
    (hstack : s.stack = ["Object".toList, "Delete".toList])
    (hkept : ∀ event ∈ events, isKept event = true) :
    Accepts unescape s events entries ↔ ∃ items rest finished,
      events = items.flatMap ObjectItem.events ++ .stop "Object".toList :: rest ∧
      (∀ item ∈ items, item.IsValid unescape) ∧
      (∀ field, field ≠ .quiet → (combined unescape s items field).length ≤ 1) ∧
      (afterItems unescape s items).finishObject = .ok finished ∧
      Accepts unescape { finished with stack := ["Delete".toList] } rest entries := by
  have hev : ∀ item, ObjectItem.events item ≠ [] := by
    intro item
    cases item <;> exact List.cons_ne_nil _ _
  rw [Items.accepts_iff (A := fun s events ↦ Accepts unescape s events entries) (G := InObject)
    (R := fun s item s' ↦ ObjectItem.Reads unescape s item s') hev InObject.reads accepts_item_iff
    ⟨hroot, hstack, hkept⟩]
  constructor
  · rintro ⟨items, _, _, rfl, hsteps, rest, finished, rfl, hfinish, h⟩
    obtain ⟨hvalid, hlength, rfl⟩ := steps_items_iff.1 hsteps
    exact ⟨items, rest, finished, rfl, hvalid, hlength, hfinish, h⟩
  · rintro ⟨items, rest, finished, rfl, hvalid, hlength, hfinish, h⟩
    exact ⟨items, _, _, rfl, steps_items_iff.2 ⟨hvalid, hlength, rfl⟩, rest, finished, rfl, hfinish,
      h⟩

/-- The values of a valid item are values of its element. -/
theorem accepts_of_mem_values {items : List ObjectItem}
    (hvalid : ∀ item ∈ items, item.IsValid unescape)
    (h : value ∈ ObjectItem.values unescape field items) : field.accepts value = true := by
  obtain ⟨item, hitem, hvalue⟩ := List.mem_filterMap.1 h
  have hitemValid := hvalid item hitem
  cases item with
  | blank chunk => cases hvalue
  | value field' chunks =>
    change (if field' = field then _ else none) = _ at hvalue
    obtain ⟨-, value', hholds, haccepts⟩ := hitemValid
    split_ifs at hvalue with hfield
    rw [hholds] at hvalue
    exact Option.some.inj hvalue ▸ hfield ▸ haccepts

theorem eq_head?_toList_of_length_le {α : Type} {l : List α} (h : l.length ≤ 1) :
    l = l.head?.toList := by
  match l with
  | [] => rfl
  | [a] => rfl
  | a :: b :: l => exact absurd h (by simp)

/-- **An object is read up to its end**, and its entry is added to the others. -/
theorem accepts_object_iff (hroot : s.rootClosed = false)
    (hstack : s.stack = ["Object".toList, "Delete".toList])
    (hfresh : ∀ field, field ≠ .quiet → s.current field = none)
    (hkept : ∀ event ∈ events, isKept event = true) :
    Accepts unescape s events entries ↔ ∃ items entry rest,
      events = items.flatMap ObjectItem.events ++ .stop "Object".toList :: rest ∧
      ObjectItem.Says unescape items entry ∧
      Accepts unescape { s with stack := ["Delete".toList], objects := s.objects ++ [entry] } rest
        entries := by
  have hcombined : ∀ items field, field ≠ .quiet →
      combined unescape s items field = ObjectItem.values unescape field items := by
    intro items field hfield
    rw [combined, hfresh field hfield]
    rfl
  have hstate : ∀ objects, ({ s with
      stack := ["Delete".toList], currentKey := none, currentVersion := none, currentEtag := none
      objects := objects } : DeleteState) =
        { s with stack := ["Delete".toList], objects := objects } := by
    have hkey : none = s.currentKey := (hfresh .key (by decide)).symm
    have hversion : none = s.currentVersion := (hfresh .versionId (by decide)).symm
    have hetag : none = s.currentEtag := (hfresh .eTag (by decide)).symm
    intro objects
    obtain ⟨rootClosed, stack, key, version, etag, quiet, seen, before⟩ := s
    cases hkey
    cases hversion
    cases hetag
    rfl
  rw [accepts_items_iff hroot hstack hkept]
  constructor
  · rintro ⟨items, rest, finished, rfl, hvalid, hlen, hfinish, h⟩
    have hvalues : ∀ field, field ≠ .quiet → ObjectItem.values unescape field items =
        (combined unescape s items field).head?.toList := by
      intro field hfield
      rw [← hcombined items field hfield]
      exact eq_head?_toList_of_length_le (hlen field hfield)
    unfold DeleteState.finishObject at hfinish
    split at hfinish
    · next key hkey =>
      obtain ⟨hkey, -⟩ := Option.filter_eq_some_iff.1 hkey
      refine ⟨items, (key, (afterItems unescape s items).currentVersion,
        (afterItems unescape s items).currentEtag), rest, rfl, ⟨hvalid, ?_,
        hvalues .versionId (by decide), hvalues .eTag (by decide)⟩, ?_⟩
      · rw [hvalues .key (by decide)]
        change ((afterItems unescape s items).currentKey).toList = _
        rw [hkey]
        rfl
      · rw [← Except.ok.inj hfinish] at h
        exact (hstate _) ▸ h
    · cases hfinish
  · rintro ⟨items, entry, rest, rfl, ⟨hvalid, hkey, hversion, hetag⟩, h⟩
    have hnonempty : (!entry.1.isEmpty) = true :=
      @accepts_of_mem_values _ .key _ _ hvalid (hkey ▸ List.mem_singleton_self _)
    have hafter : afterItems unescape s items = { s with
        currentKey := some entry.1, currentVersion := entry.2.1, currentEtag := entry.2.2 } := by
      have hhead : ∀ read : Option Text, read.toList.head? = read := by
        intro read
        cases read <;> rfl
      unfold afterItems
      rw [hcombined items .key (by decide), hcombined items .versionId (by decide),
        hcombined items .eTag (by decide), hkey, hversion, hetag, hhead, hhead]
      rfl
    have hfinish : (afterItems unescape s items).finishObject = .ok { s with
        currentKey := none, currentVersion := none, currentEtag := none
        objects := s.objects ++ [entry] } := by
      rw [hafter, DeleteState.finishObject]
      dsimp only
      rw [Option.filter_some, if_pos hnonempty]
    refine ⟨items, rest, _, rfl, hvalid, fun field hfield ↦ ?_, hfinish, ?_⟩
    · rw [hcombined items field hfield]
      cases field with
      | key => rw [hkey]; exact Nat.le_refl 1
      | versionId => rw [hversion]; exact Option.length_toList_le
      | eTag => rw [hetag]; exact Option.length_toList_le
      | quiet => exact absurd rfl hfield
    · exact (hstate _).symm ▸ h

/-- Outside of the root there is a blank chunk, or an element begins. -/
theorem step_outside_cases {event : Xml.Event} (hstack : s.stack = []) (hkept : isKept event = true)
    (hstep : s.step unescape event = .ok s') :
    (∃ chunk : Chunk, event = chunk.event ∧ chunk.IsBlank unescape ∧ s' = s) ∨
      ∃ name attributes, event = .start name attributes := by
  rcases @chunk_of_isKept unescape _ hkept with
    ⟨chunk, href, rfl⟩ | ⟨name, attributes, rfl⟩ | ⟨name, rfl⟩ | hno
  · have hbetween : s.stack.head?.bind DeleteField.ofName = none := by rw [hstack]; rfl
    obtain ⟨hblank, hs⟩ := (step_blank_iff href hbetween).1 hstep
    exact .inl ⟨chunk, rfl, hblank, hs⟩
  · exact .inr ⟨name, attributes, rfl⟩
  · change s.stop name = _ at hstep
    rw [DeleteState.stop, hstack, if_pos fun h ↦ by cases h] at hstep
    cases hstep
  · exact absurd hstep hno

/-- Behind the root there is white space only. -/
theorem accepts_after_iff (hroot : s.rootClosed = true) (hstack : s.stack = [])
    (hkept : ∀ event ∈ events, isKept event = true) :
    Accepts unescape s events entries ↔ s.objects = entries ∧ ∃ chunks : List Chunk,
      events = chunks.map Chunk.event ∧ ∀ chunk ∈ chunks, chunk.IsBlank unescape := by
  have hbetween : s.stack.head?.bind DeleteField.ofName = none := by rw [hstack]; rfl
  induction events with
  | nil =>
    rw [accepts_nil_iff, and_iff_right hroot, and_iff_right hstack]
    exact ⟨fun h ↦ ⟨h, [], rfl, fun chunk h ↦ absurd h List.not_mem_nil⟩, And.left⟩
  | cons event events ih =>
    obtain ⟨hfirst, hrest⟩ := List.forall_mem_cons.1 hkept
    rw [accepts_cons_iff]
    constructor
    · rintro ⟨s', hstep, h⟩
      rcases step_outside_cases hstack hfirst hstep with
        ⟨chunk, rfl, hblank, rfl⟩ | ⟨name, attributes, rfl⟩
      · obtain ⟨hobjects, chunks, rfl, hchunks⟩ := (ih hrest).1 h
        exact ⟨hobjects, chunk :: chunks, rfl, List.forall_mem_cons.2 ⟨hblank, hchunks⟩⟩
      · exact absurd hstep (start_closed_ne hroot)
    · rintro ⟨hobjects, chunks, hevents, hchunks⟩
      cases chunks with
      | nil => cases hevents
      | cons chunk chunks =>
        obtain ⟨rfl, rfl⟩ := List.cons.inj hevents
        obtain ⟨hblank, hblanks⟩ := List.forall_mem_cons.1 hchunks
        exact ⟨s, (step_blank_iff hblank.1 hbetween).2 ⟨hblank, rfl⟩,
          (ih hrest).2 ⟨hobjects, chunks, rfl, hblanks⟩⟩

/-- In front of the root there is white space only. -/
theorem accepts_before_iff (hroot : s.rootClosed = false) (hstack : s.stack = [])
    (hkept : ∀ event ∈ events, isKept event = true) :
    Accepts unescape s events entries ↔ ∃ (before : List Chunk) (keys : List Text) (rest : List Xml.Event),
      events = before.map Chunk.event ++ .start "Delete".toList (keys.map some) :: rest ∧
      (∀ chunk ∈ before, chunk.IsBlank unescape) ∧
      (∀ key ∈ keys, "xmlns".toList.isPrefixOf key = true) ∧
      Accepts unescape { s with stack := ["Delete".toList] } rest entries := by
  have hbetween : s.stack.head?.bind DeleteField.ofName = none := by rw [hstack]; rfl
  induction events with
  | nil =>
    refine iff_of_false (fun h ↦ ?_) fun ⟨before, keys, rest, h, _⟩ ↦ ?_
    · rw [accepts_nil_iff, hroot] at h
      exact absurd h.1 Bool.false_ne_true
    · exact absurd h.symm (List.append_ne_nil_of_right_ne_nil _ (List.cons_ne_nil _ _))
  | cons event events ih =>
    obtain ⟨hfirst, hrest⟩ := List.forall_mem_cons.1 hkept
    rw [accepts_cons_iff]
    constructor
    · rintro ⟨s', hstep, h⟩
      rcases step_outside_cases hstack hfirst hstep with
        ⟨chunk, rfl, hblank, rfl⟩ | ⟨name, attributes, rfl⟩
      · obtain ⟨before, keys, rest, rfl, hbefore, hkeys, h⟩ := (ih hrest).1 h
        exact ⟨chunk :: before, keys, rest, rfl, List.forall_mem_cons.2 ⟨hblank, hbefore⟩, hkeys, h⟩
      · obtain ⟨⟨rfl, keys, rfl, hkeys⟩, rfl⟩ := (start_root_iff hroot hstack).1 hstep
        exact ⟨[], keys, events, rfl, fun chunk h ↦ absurd h List.not_mem_nil, hkeys, h⟩
    · rintro ⟨before, keys, rest, hevents, hbefore, hkeys, h⟩
      cases before with
      | nil =>
        obtain ⟨rfl, rfl⟩ := List.cons.inj hevents
        exact ⟨_, (start_root_iff hroot hstack).2 ⟨⟨rfl, keys, rfl, hkeys⟩, rfl⟩, h⟩
      | cons chunk before =>
        obtain ⟨rfl, rfl⟩ := List.cons.inj hevents
        obtain ⟨hblank, hblanks⟩ := List.forall_mem_cons.1 hbefore
        exact ⟨s, (step_blank_iff hblank.1 hbetween).2 ⟨hblank, rfl⟩,
          (ih hrest).2 ⟨before, keys, rest, rfl, hblanks, hkeys, h⟩⟩

/-- The parser stands in front of the items of the root. -/
structure InRoot (s : DeleteState) (events : List Xml.Event) : Prop where
  root : s.rootClosed = false
  stack : s.stack = ["Delete".toList]
  length_le : s.objects.length ≤ 1000
  kept : ∀ event ∈ events, isKept event = true

/-- What an item of the root makes of the state. -/
def DeleteItem.Reads (unescape : Text → Except Text Text) (s : DeleteState) (item : DeleteItem)
    (s' : DeleteState) : Prop :=
  match item with
  | .blank chunk => chunk.IsBlank unescape ∧ s' = s
  | .object items => s.objects.length < 1000 ∧ ∃ entry, ObjectItem.Says unescape items entry ∧
      s' = { s.openObject with stack := ["Delete".toList], objects := s.objects ++ [entry] }
  | .quiet chunks => s.quietSeen = false ∧
      ∃ value, DeleteField.quiet.Holds unescape chunks value ∧
        s' = { s.openQuiet.setCurrent .quiet (some value) with stack := ["Delete".toList] }

theorem InRoot.reads {item : DeleteItem} (h : InRoot s (item.events ++ events))
    (hreads : item.Reads unescape s s') : InRoot s' events := by
  have hkept : ∀ event ∈ events, isKept event = true := fun event hevent ↦
    h.kept event (List.mem_append_right _ hevent)
  cases item with
  | blank chunk =>
    obtain ⟨-, rfl⟩ := hreads
    exact ⟨h.root, h.stack, h.length_le, hkept⟩
  | object items =>
    obtain ⟨hlt, entry, -, rfl⟩ := hreads
    refine ⟨h.root, rfl, ?_, hkept⟩
    show (s.objects ++ [entry]).length ≤ 1000
    rw [List.length_append, List.length_singleton]
    omega
  | quiet chunks =>
    obtain ⟨-, value, -, rfl⟩ := hreads
    exact ⟨h.root, rfl, h.length_le, hkept⟩

/-- An object of the root. -/
theorem accepts_openObject_iff (h : InRoot s (.start "Object".toList [] :: events)) :
    Accepts unescape s.openObject events entries ↔ ∃ items entry rest,
      .start "Object".toList [] :: events = (DeleteItem.object items).events ++ rest ∧
      ObjectItem.Says unescape items entry ∧
      Accepts unescape { s.openObject with
        stack := ["Delete".toList], objects := s.objects ++ [entry] } rest entries := by
  have hfresh : ∀ field : DeleteField, field ≠ .quiet → s.openObject.current field = none := by
    intro field hfield
    cases field with
    | quiet => exact absurd rfl hfield
    | key | versionId | eTag => rfl
  rw [accepts_object_iff (s := s.openObject) h.root (congrArg _ h.stack) hfresh
    (List.forall_mem_cons.1 h.kept).2]
  simp only [DeleteItem.events, List.cons_append, List.append_assoc, List.nil_append,
    List.cons.injEq, true_and]
  rfl

/-- The one `Quiet` of the root. -/
theorem accepts_openQuiet_iff (h : InRoot s (.start "Quiet".toList [] :: events)) :
    Accepts unescape s.openQuiet events entries ↔ ∃ chunks value rest,
      .start "Quiet".toList [] :: events = (DeleteItem.quiet chunks).events ++ rest ∧
      DeleteField.quiet.Holds unescape chunks value ∧
      Accepts unescape { s.openQuiet.setCurrent .quiet (some value) with
        stack := ["Delete".toList] } rest entries := by
  have hstack : s.openQuiet.stack = DeleteField.quiet.name :: ["Delete".toList] :=
    congrArg ("Quiet".toList :: ·) h.stack
  have hread : s.openQuiet.current .quiet = some [] := rfl
  have hevents : ∀ (chunks : List Chunk) (rest : List Xml.Event),
      .start "Quiet".toList [] :: events = (DeleteItem.quiet chunks).events ++ rest ↔
        events = chunks.map Chunk.event ++ .stop DeleteField.quiet.name :: rest := by
    intro chunks rest
    have hshape : (DeleteItem.quiet chunks).events ++ rest = .start "Quiet".toList [] ::
        (chunks.map Chunk.event ++ .stop DeleteField.quiet.name :: rest) :=
      congrArg (Xml.Event.start "Quiet".toList [] :: ·) (List.append_assoc ..)
    rw [hshape, List.cons_inj_right]
  refine (accepts_value_iff hstack (List.cons_ne_nil _ _) hread
    (List.forall_mem_cons.1 h.kept).2).trans ?_
  constructor
  · rintro ⟨chunks, value, rest, h, hvalue, haccepts, hrest⟩
    exact ⟨chunks, value, rest, (hevents chunks rest).2 h, ⟨hvalue, haccepts⟩, hrest⟩
  · rintro ⟨chunks, value, rest, h, ⟨hvalue, haccepts⟩, hrest⟩
    exact ⟨chunks, value, rest, (hevents chunks rest).1 h, hvalue, haccepts, hrest⟩

/-- **The root is read item by item.** -/
theorem accepts_rootItem_iff (h : InRoot s events) :
    Accepts unescape s events entries ↔
      (∃ after : List Chunk, events = .stop "Delete".toList :: after.map Chunk.event ∧
        s.objects ≠ [] ∧ s.objects = entries ∧ ∀ chunk ∈ after, chunk.IsBlank unescape) ∨
      ∃ item s' rest, events = DeleteItem.events item ++ rest ∧ item.Reads unescape s s' ∧
        Accepts unescape s' rest entries := by
  have hbetween : s.stack.head?.bind DeleteField.ofName = none := by rw [h.stack]; rfl
  have hclosed : ({ s with rootClosed := true, stack := s.stack.tail } : DeleteState).stack = [] := by
    show s.stack.tail = []
    rw [h.stack]
    rfl
  constructor
  · intro hall
    cases events with
    | nil =>
      rw [accepts_nil_iff, h.root] at hall
      exact absurd hall.1 Bool.false_ne_true
    | cons event events =>
      obtain ⟨hfirst, hrest⟩ := List.forall_mem_cons.1 h.kept
      obtain ⟨s', hstep, haccepts⟩ := accepts_cons_iff.1 hall
      rcases @chunk_of_isKept unescape _ hfirst with
        ⟨chunk, href, rfl⟩ | ⟨name, attributes, rfl⟩ | ⟨name, rfl⟩ | hno
      · obtain ⟨hblank, rfl⟩ := (step_blank_iff href hbetween).1 hstep
        exact .inr ⟨.blank chunk, s', events, rfl, ⟨hblank, rfl⟩, haccepts⟩
      · obtain ⟨rfl, ⟨rfl, hlt, rfl⟩ | ⟨rfl, hseen, rfl⟩⟩ :=
          (start_delete_iff h.root h.stack).1 hstep
        · obtain ⟨items, entry, rest, hevents, hentry, haccepts⟩ :=
            (accepts_openObject_iff h).1 haccepts
          exact .inr ⟨.object items, _, rest, hevents, ⟨hlt, entry, hentry, rfl⟩, haccepts⟩
        · obtain ⟨chunks, value, rest, hevents, hholds, haccepts⟩ :=
            (accepts_openQuiet_iff h).1 haccepts
          exact .inr ⟨.quiet chunks, _, rest, hevents, ⟨hseen, value, hholds, rfl⟩, haccepts⟩
      · obtain ⟨rfl, finished, hfinish, rfl⟩ := (stop_iff h.stack).1 hstep
        obtain ⟨hne, rfl⟩ := finishElement_delete_iff.1 hfinish
        obtain ⟨hobjects, after, rfl, hafter⟩ := (accepts_after_iff rfl hclosed hrest).1 haccepts
        exact .inl ⟨after, rfl, hne, hobjects, hafter⟩
      · exact absurd hstep hno
  · rintro (⟨after, rfl, hne, hobjects, hafter⟩ | ⟨item, s', rest, rfl, hreads, haccepts⟩)
    · exact accepts_cons_iff.2 ⟨_, (stop_iff h.stack).2
        ⟨rfl, _, finishElement_delete_iff.2 ⟨hne, rfl⟩, rfl⟩,
        (accepts_after_iff rfl hclosed (List.forall_mem_cons.1 h.kept).2).2
          ⟨hobjects, after, rfl, hafter⟩⟩
    · cases item with
      | blank chunk =>
        obtain ⟨hblank, rfl⟩ := hreads
        exact accepts_cons_iff.2 ⟨s', (step_blank_iff hblank.1 hbetween).2 ⟨hblank, rfl⟩, haccepts⟩
      | object items =>
        obtain ⟨hlt, entry, hentry, rfl⟩ := hreads
        exact accepts_cons_iff.2 ⟨_, (start_delete_iff h.root h.stack).2
          ⟨rfl, .inl ⟨rfl, hlt, rfl⟩⟩,
          (accepts_openObject_iff h).2 ⟨items, entry, rest, rfl, hentry, haccepts⟩⟩
      | quiet chunks =>
        obtain ⟨hseen, value, hholds, rfl⟩ := hreads
        exact accepts_cons_iff.2 ⟨_, (start_delete_iff h.root h.stack).2
          ⟨rfl, .inr ⟨rfl, hseen, rfl⟩⟩,
          (accepts_openQuiet_iff h).2 ⟨chunks, value, rest, rfl, hholds, haccepts⟩⟩

/-- **What the items of the root add to the objects**, if there are not too many. -/
theorem steps_root_iff {items : List DeleteItem} {objects : List DeleteObjectEntry}
    (hlength : s.objects.length ≤ 1000) :
    (∃ s', Items.Steps (fun s item s' ↦ DeleteItem.Reads unescape s item s') s items s' ∧
        s'.objects = objects) ↔
      (∀ item ∈ items, item.IsValid unescape) ∧
      items.countP DeleteItem.isQuiet + (if s.quietSeen then 1 else 0) ≤ 1 ∧
      ∃ added, List.Forall₂ (ObjectItem.Says unescape) (items.filterMap DeleteItem.object?) added ∧
        s.objects ++ added = objects ∧ objects.length ≤ 1000 := by
  induction items generalizing s with
  | nil =>
    simp only [Items.steps_nil_iff, exists_eq_left]
    constructor
    · rintro rfl
      refine ⟨fun item hitem ↦ absurd hitem List.not_mem_nil, ?_, [], .nil, List.append_nil _,
        hlength⟩
      split_ifs <;> decide
    · rintro ⟨-, -, added, hadded, hobjects, -⟩
      cases hadded
      rwa [List.append_nil] at hobjects
  | cons item items ih =>
    simp only [Items.steps_cons_iff]
    cases item with
    | blank chunk =>
      constructor
      · rintro ⟨s', ⟨_, ⟨hblank, rfl⟩, hsteps⟩, hobjects⟩
        obtain ⟨hvalid, h⟩ := (ih hlength).1 ⟨s', hsteps, hobjects⟩
        exact ⟨List.forall_mem_cons.2 ⟨hblank, hvalid⟩, h⟩
      · rintro ⟨hvalid, h⟩
        obtain ⟨hblank, hvalid⟩ := List.forall_mem_cons.1 hvalid
        obtain ⟨s', hsteps, hobjects⟩ := (ih hlength).2 ⟨hvalid, h⟩
        exact ⟨s', ⟨s, ⟨hblank, rfl⟩, hsteps⟩, hobjects⟩
    | object contents =>
      have hadd : ∀ entry, s.objects.length < 1000 → ({ s.openObject with
          stack := ["Delete".toList], objects := s.objects ++ [entry] } :
            DeleteState).objects.length ≤ 1000 := by
        intro entry hlt
        show (s.objects ++ [entry]).length ≤ 1000
        rw [List.length_append, List.length_singleton]
        omega
      constructor
      · rintro ⟨s', ⟨_, ⟨hlt, entry, hentry, rfl⟩, hsteps⟩, hobjects⟩
        obtain ⟨hvalid, hquiet, added, hadded, happend, hle⟩ :=
          (ih (hadd entry hlt)).1 ⟨s', hsteps, hobjects⟩
        refine ⟨List.forall_mem_cons.2 ⟨trivial, hvalid⟩, hquiet, entry :: added,
          .cons hentry hadded, ?_, hle⟩
        rw [← happend, List.append_assoc]
        rfl
      · rintro ⟨hvalid, hquiet, added, hadded, happend, hle⟩
        obtain ⟨entry, others, hentry, hothers, rfl⟩ := List.forall₂_cons_left_iff.1 hadded
        have hlt : s.objects.length < 1000 := by
          rw [← happend, List.length_append, List.length_cons] at hle
          omega
        obtain ⟨s', hsteps, hobjects⟩ := (ih (hadd entry hlt)).2
          ⟨(List.forall_mem_cons.1 hvalid).2, hquiet, others, hothers,
            (List.append_assoc ..).trans happend, hle⟩
        exact ⟨s', ⟨_, ⟨hlt, entry, hentry, rfl⟩, hsteps⟩, hobjects⟩
    | quiet chunks =>
      rw [List.countP_cons_of_pos rfl]
      constructor
      · rintro ⟨s', ⟨_, ⟨hseen, value, hholds, rfl⟩, hsteps⟩, hobjects⟩
        obtain ⟨hvalid, hquiet, h⟩ := (ih (by exact hlength)).1 ⟨s', hsteps, hobjects⟩
        refine ⟨List.forall_mem_cons.2 ⟨⟨value, hholds⟩, hvalid⟩, ?_, h⟩
        rw [hseen]
        exact hquiet
      · rintro ⟨hvalid, hquiet, h⟩
        obtain ⟨⟨value, hholds⟩, hvalid⟩ := List.forall_mem_cons.1 hvalid
        have hseen : s.quietSeen = false := by
          cases hseen : s.quietSeen with
          | false => rfl
          | true =>
            rw [hseen, if_pos rfl] at hquiet
            omega
        rw [hseen] at hquiet
        obtain ⟨s', hsteps, hobjects⟩ := (ih (s := { s.openQuiet.setCurrent .quiet (some value) with
          stack := ["Delete".toList] }) hlength).2 ⟨hvalid, hquiet, h⟩
        exact ⟨s', ⟨_, ⟨hseen, value, hholds, rfl⟩, hsteps⟩, hobjects⟩

/-- **The items of the root are read up to its end.** -/
theorem accepts_root_iff (hroot : s.rootClosed = false) (hstack : s.stack = ["Delete".toList])
    (hlength : s.objects.length ≤ 1000) (hkept : ∀ event ∈ events, isKept event = true) :
    Accepts unescape s events entries ↔
      ∃ (items : List DeleteItem) (added : List DeleteObjectEntry) (after : List Chunk),
      events = items.flatMap DeleteItem.events ++ .stop "Delete".toList :: after.map Chunk.event ∧
      (∀ item ∈ items, item.IsValid unescape) ∧
      items.countP DeleteItem.isQuiet + (if s.quietSeen then 1 else 0) ≤ 1 ∧
      List.Forall₂ (ObjectItem.Says unescape) (items.filterMap DeleteItem.object?) added ∧
      s.objects ++ added = entries ∧ entries ≠ [] ∧ entries.length ≤ 1000 ∧
      ∀ chunk ∈ after, chunk.IsBlank unescape := by
  have hev : ∀ item, DeleteItem.events item ≠ [] := by
    intro item
    cases item <;> exact List.cons_ne_nil _ _
  rw [Items.accepts_iff (A := fun s events ↦ Accepts unescape s events entries) (G := InRoot)
    (R := fun s item s' ↦ DeleteItem.Reads unescape s item s') hev InRoot.reads accepts_rootItem_iff
    ⟨hroot, hstack, hlength, hkept⟩]
  constructor
  · rintro ⟨items, s', _, rfl, hsteps, after, rfl, hne, hobjects, hafter⟩
    obtain ⟨hvalid, hquiet, added, hadded, happend, hle⟩ :=
      (steps_root_iff hlength).1 ⟨s', hsteps, hobjects⟩
    exact ⟨items, added, after, rfl, hvalid, hquiet, hadded, happend, hobjects ▸ hne, hle, hafter⟩
  · rintro ⟨items, added, after, rfl, hvalid, hquiet, hadded, happend, hne, hle, hafter⟩
    obtain ⟨s', hsteps, hobjects⟩ :=
      (steps_root_iff hlength).2 ⟨hvalid, hquiet, added, hadded, happend, hle⟩
    exact ⟨items, s', _, rfl, hsteps, after, rfl, hobjects ▸ hne, hobjects, hafter⟩

/-- **The parser accepts exactly the Delete documents**, if nothing is passed over. -/
theorem accepts_iff (hkept : ∀ event ∈ events, isKept event = true) :
    Accepts unescape {} events entries ↔
      ∃ document : DeleteDocument, document.events = events ∧ document.Says unescape entries := by
  rw [accepts_before_iff rfl rfl hkept]
  constructor
  · rintro ⟨before, keys, rest, rfl, hbefore, hkeys, h⟩
    have hrest : ∀ event ∈ rest, isKept event = true := fun event hevent ↦
      hkept event (List.mem_append_right _ (List.mem_cons_of_mem _ hevent))
    obtain ⟨items, added, after, rfl, hitems, hquiet, hdescribes, hadded, hne, hle, hafter⟩ :=
      (accepts_root_iff (by rfl) (by rfl) (Nat.zero_le _) hrest).1 h
    obtain rfl : added = entries := hadded
    exact ⟨⟨before, keys, items, after⟩, rfl, hbefore, hkeys, hitems, hquiet, hdescribes, hne, hle,
      hafter⟩
  · rintro ⟨⟨before, keys, items, after⟩, rfl, h⟩
    have hrest : ∀ event ∈ items.flatMap DeleteItem.events ++
        .stop "Delete".toList :: after.map Chunk.event, isKept event = true := fun event hevent ↦
      hkept event (List.mem_append_right _ (List.mem_cons_of_mem _ hevent))
    exact ⟨before, keys, _, rfl, h.before, h.attributes,
      (accepts_root_iff (by rfl) (by rfl) (Nat.zero_le _) hrest).2 ⟨items, entries, after, rfl,
        h.items, h.quiet, h.objects, rfl, h.ne_nil, h.length_le, h.after⟩⟩

end Steps

/-! ### What is accepted -/

section Parse

variable {read : Bool → Text → List (Except Text Xml.Event)} {unescape : Text → Except Text Text}
  {xml : Text} {events : List Xml.Event} {entries : List DeleteObjectEntry}

theorem parseDeleteKeys_ok_iff_accepts (hread : read false xml = events.map .ok) :
    parseDeleteKeys read unescape xml = .ok entries ↔ Accepts unescape {} events entries := by
  have hfold : ∀ s : DeleteState, (events.map Except.ok).foldlM
      (fun s event ↦ (do s.step unescape (← event) : Except Text DeleteState)) s =
        events.foldlM (·.step unescape) s := by
    intro s
    rw [List.foldlM_map]
    rfl
  rw [parseDeleteKeys, hread, hfold]
  unfold Accepts
  cases events.foldlM (fun s e ↦ s.step unescape e) ({} : DeleteState) with
  | error e =>
    refine iff_of_false (fun h ↦ by cases h) fun ⟨final, h, _⟩ ↦ by cases h
  | ok final =>
    show (if (!final.rootClosed || decide (final.stack ≠ [])) = true then _ else _) = _ ↔ _
    constructor
    · intro h
      split_ifs at h with hcond
      obtain ⟨hroot, hstack⟩ := Bool.or_eq_false_iff.1 (Bool.eq_false_iff.2 hcond)
      exact ⟨final, rfl, Bool.not_eq_false' .. ▸ hroot, not_not.1 (of_decide_eq_false hstack),
        Except.ok.inj h⟩
    · rintro ⟨final', hfinal, hroot, hstack, hobjects⟩
      obtain rfl := Except.ok.inj hfinal
      rw [hroot, hstack, if_neg (by decide)]
      exact congrArg _ hobjects

/-- A document that cannot be read to its end is refused. -/
theorem parseDeleteKeys_of_error {message : Text}
    (hread : .error message ∈ read false xml) : ∃ e, parseDeleteKeys read unescape xml = .error e := by
  have hfold : ∀ (events : List (Except Text Xml.Event)) (s : DeleteState),
      .error message ∈ events → ∃ e, events.foldlM
        (fun s event ↦ (do s.step unescape (← event) : Except Text DeleteState)) s = .error e := by
    intro events
    induction events with
    | nil => exact fun s h ↦ absurd h List.not_mem_nil
    | cons event events ih =>
      intro s h
      rw [List.foldlM_cons]
      cases event with
      | error e => exact ⟨e, rfl⟩
      | ok event =>
        have hmem : .error message ∈ events := by
          rcases List.mem_cons.1 h with heq | hmem
          · cases heq
          · exact hmem
        show ∃ e, (s.step unescape event >>= _) = _
        cases s.step unescape event with
        | error e => exact ⟨e, rfl⟩
        | ok s' => exact ih s' hmem
  obtain ⟨e, he⟩ := hfold _ {} hread
  exact ⟨e, by rw [parseDeleteKeys, he]; rfl⟩

theorem filter_isKept_eq (events : List Xml.Event) :
    events.filter isKept = (withoutReferences events).filter (· ≠ .aside) := by
  rw [withoutReferences, List.filter_filter]
  refine List.filter_congr fun event _ ↦ ?_
  cases event <;> rfl

/-- **What is accepted is exactly what is a Delete document without its references.** -/
theorem parse_delete_keys_ok_iff (hread : read false xml = events.map .ok) :
    parseDeleteKeys read unescape xml = .ok entries ↔
      IsDeleteDocument unescape (withoutReferences events) entries := by
  rw [parseDeleteKeys_ok_iff_accepts hread, ← accepts_filter_isKept,
    accepts_iff fun event hevent ↦ (List.mem_filter.1 hevent).2, filter_isKept_eq]
  rfl

end Parse

end Sqrzl.S3
