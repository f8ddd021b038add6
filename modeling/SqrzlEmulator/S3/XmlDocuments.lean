import SqrzlEmulator.Data.Texts
import SqrzlEmulator.Data.Xml

/-!
# Tagging and access control documents

The writers of `utils/xml.rs` and the parsers of `utils/xml/parse.rs` for the tags of an object and
for the grants of a bucket or an object. The parsers let the reader trim, pass over references, and
keep the last text of an element.

**A text survives exactly if it is plain**: not empty, without white space around it and without
special characters. What a parser keeps is always plain, because it comes from a text that was
reported (`text_mem_reported`), and a plain text is reported as it is (`reported_plain`).
-/

namespace Sqrzl.S3

open Xml

/-! ### Reading -/

/-- A parser that goes through the events of a document. -/
def parseEvents {σ : Type} (step : σ → Xml.Event → Except Text σ) (failure : Text → Text)
    (stream : List (Except Text Xml.Event)) (init : σ) : Except Text σ :=
  stream.foldlM (fun s event ↦ match event with
    | .ok event => step s event
    | .error e => .error (failure e)) init

/-- `XML parse error: {e}` -/
def xmlParseError (e : Text) : Text := "XML parse error: ".toList ++ e

/-- The namespace of the documents. -/
def s3Namespace : List (Text × Text) :=
  [("xmlns".toList, "http://s3.amazonaws.com/doc/2006-03-01/".toList)]

/-- Characters between the elements. -/
def layout (s : String) : List Piece := chars s.toList

/-- An element that holds a text, written by `escape_xml`. -/
def textElement (name : String) (text : String) : List Piece :=
  element name.toList [] (escaped text.toList)

/-! ### Tags -/

/-- The element of a tag. -/
def tagPieces (tag : String × String) : List Piece :=
  layout "\n    " ++ element "Tag".toList [] (textElement "Key" tag.1 ++ textElement "Value" tag.2)

/-- The root element of a set of tags. -/
def taggingRoot (tags : Table String String) : List Piece :=
  layout "\n  " ++
    (element "TagSet".toList [] (tags.toList.flatMap tagPieces ++ layout "\n  ") ++ layout "\n")

/-- `tagging_xml`; a table lists its entries in the order of the keys. -/
def taggingXml (tags : Table String String) : Text :=
  written (.declaration :: .char '\n' :: element "Tagging".toList s3Namespace (taggingRoot tags))

/-- The state of `parse_tagging_xml`. -/
structure TaggingState where
  inKey : Bool := false
  inValue : Bool := false
  currentKey : Option String := none
  tags : Table String String := ∅

namespace TaggingState

/-- A text, in the element that it is in. -/
def readText (s : TaggingState) (text : String) : Except Text TaggingState :=
  if s.inKey then .ok { s with currentKey := some text }
  else if s.inValue then
    match s.currentKey with
    | some key => .ok { s with currentKey := none, tags := s.tags.insert key text }
    | none => .error "InvalidTagKey".toList
  else .ok s

/-- What an event does. -/
def step (unescape : Text → Except Text Text) (s : TaggingState) :
    Xml.Event → Except Text TaggingState
  | .start name _ => .ok
    (if name = "Key".toList then { s with inKey := true }
    else if name = "Value".toList then { s with inValue := true }
    else s)
  | .stop name => .ok
    (if name = "Key".toList then { s with inKey := false }
    else if name = "Value".toList then { s with inValue := false }
    else s)
  | .text content => do s.readText (String.ofList (← unescape content))
  | _ => .ok s

end TaggingState

/-- What is wrong with a tag. -/
def tagError (tag : String × String) : Option Text :=
  if tag.1.isEmpty then some "InvalidTagKey".toList
  else if 128 < tag.1.utf8ByteSize then some "InvalidTagKey".toList
  else if 256 < tag.2.utf8ByteSize then some "InvalidTagValue".toList
  else none

/-- The limits for the tags of an object. -/
def checkTags (tags : Table String String) : Except Text (Table String String) :=
  if 10 < tags.size then .error "TooManyTags".toList
  else match tags.toList.findSome? tagError with
    | some e => .error e
    | none => .ok tags

/-- `parse_tagging_xml` -/
def parseTaggingXml (read : Bool → Text → List (Except Text Xml.Event))
    (unescape : Text → Except Text Text) (body : Text) : Except Text (Table String String) := do
  let s ← parseEvents (TaggingState.step unescape) id (read true body) {}
  checkTags s.tags

/-! ### Grants -/

/-- An owner. -/
structure Owner where
  id : String
  displayName : String
  deriving DecidableEq

/-- The attributes that tell the type of a grantee. -/
def instanceNamespace (type : String) : List (Text × Text) :=
  [("xmlns:xsi".toList, "http://www.w3.org/2001/XMLSchema-instance".toList),
    ("xsi:type".toList, type.toList)]

/-- `permission_xml_value` -/
def permissionXmlValue : Permission → String
  | .read => "READ"
  | .write => "WRITE"
  | .readAcp => "READ_ACP"
  | .writeAcp => "WRITE_ACP"
  | .fullControl => "FULL_CONTROL"

/-- `grantee_xml` -/
def granteeXml : Grantee → List Piece
  | .canonicalUser id displayName => element "Grantee".toList (instanceNamespace "CanonicalUser")
    (textElement "ID" id ++ displayName.elim [] (textElement "DisplayName"))
  | .group uri => element "Grantee".toList (instanceNamespace "Group") (textElement "URI" uri)

/-- A grant of `explicit_acl_grants`. -/
def grantXml (grant : Grant) : List Piece :=
  layout "\n        " ++ element "Grant".toList [] (layout "\n            " ++
    (granteeXml grant.grantee ++ (layout "\n            " ++
      (textElement "Permission" (permissionXmlValue grant.permission) ++ layout "\n        "))))

/-- `explicit_acl_grants` -/
def explicitAclGrants (acl : Acl) : List Piece := acl.grants.flatMap grantXml

/-- A grant to a group, on lines of their own. -/
def groupGrantXml (uri permission : String) : List Piece :=
  layout "\n        " ++ element "Grant".toList [] (layout "\n            " ++
    (element "Grantee".toList (instanceNamespace "Group") (layout "\n                " ++
      (textElement "URI" uri ++ layout "\n            ")) ++ (layout "\n            " ++
        (textElement "Permission" permission ++ layout "\n        "))))

/-- `default_acl_grants` -/
def defaultAclGrants (owner : Owner) (canned : CannedAcl) : List Piece :=
  layout "\n        " ++ element "Grant".toList [] (layout "\n            " ++
    (element "Grantee".toList (instanceNamespace "CanonicalUser") (layout "\n                " ++
      (textElement "ID" owner.id ++ (layout "\n                " ++
        (textElement "DisplayName" owner.displayName ++ layout "\n            ")))) ++
      (layout "\n            " ++
        (textElement "Permission" "FULL_CONTROL" ++ layout "\n        ")))) ++
    match canned with
    | .private | .bucketOwnerRead | .bucketOwnerFullControl => []
    | .publicRead => groupGrantXml "http://acs.amazonaws.com/groups/global/AllUsers" "READ"
    | .publicReadWrite =>
      groupGrantXml "http://acs.amazonaws.com/groups/global/AllUsers" "READ" ++
        groupGrantXml "http://acs.amazonaws.com/groups/global/AllUsers" "WRITE"
    | .authenticatedRead =>
      groupGrantXml "http://acs.amazonaws.com/groups/global/AuthenticatedUsers" "READ"

/-- The root element of an access control list. -/
def aclRoot (owner : Owner) (acl : Acl) : List Piece :=
  layout "\n    " ++ (element "Owner".toList [] (layout "\n        " ++
    (textElement "ID" owner.id ++ (layout "\n        " ++
      (textElement "DisplayName" owner.displayName ++ layout "\n    ")))) ++
    (layout "\n    " ++ (element "AccessControlList".toList []
      ((if acl.grants.isEmpty then defaultAclGrants owner acl.canned else explicitAclGrants acl) ++
        layout "\n    ") ++ layout "\n")))

/-- `acl_xml` -/
def aclXml (owner : Owner) (acl : Acl) : Text :=
  written (.declaration :: .char '\n' ::
    element "AccessControlPolicy".toList s3Namespace (aclRoot owner acl))

/-- The state of `parse_acl_xml`. -/
structure AclState where
  grants : List Grant := []
  inGrant : Bool := false
  currentTag : Option Text := none
  currentId : Option String := none
  currentDisplayName : Option String := none
  currentUri : Option String := none
  currentPermission : Option Permission := none
  deriving DecidableEq

/-- The permission of a text. -/
def permissionOf (text : String) : Option Permission :=
  if text = "READ" then some .read
  else if text = "WRITE" then some .write
  else if text = "READ_ACP" then some .readAcp
  else if text = "WRITE_ACP" then some .writeAcp
  else if text = "FULL_CONTROL" then some .fullControl
  else none

namespace AclState

/-- `Event::Start` -/
def start (s : AclState) (name : Text) : AclState :=
  if name = "Grant".toList then
    { s with
      inGrant := true, currentId := none, currentDisplayName := none, currentUri := none
      currentPermission := none, currentTag := some name }
  else { s with currentTag := some name }

/-- The grantee that has been read. -/
def grantee? (s : AclState) : Option Grantee :=
  match s.currentId, s.currentUri with
  | some id, _ => some (.canonicalUser id s.currentDisplayName)
  | none, some uri => some (.group uri)
  | none, none => none

/-- `Event::End` -/
def stop (s : AclState) (name : Text) : Except Text AclState :=
  if name = "Grant".toList then
    match s.currentPermission, s.grantee? with
    | none, _ => .error "Missing ACL permission".toList
    | some _, none => .error "Missing ACL grantee".toList
    | some permission, some grantee => .ok { s with
      grants := s.grants ++ [⟨grantee, permission⟩], inGrant := false, currentTag := none
      currentPermission := none, currentId := none
      currentDisplayName := if s.currentId.isSome then none else s.currentDisplayName
      currentUri := if s.currentId.isSome then s.currentUri else none }
  else .ok { s with currentTag := none }

/-- A text inside of a grant. -/
def readText (s : AclState) (text : String) : Except Text AclState :=
  if s.currentTag = some "ID".toList then .ok { s with currentId := some text }
  else if s.currentTag = some "DisplayName".toList then
    .ok { s with currentDisplayName := some text }
  else if s.currentTag = some "URI".toList then .ok { s with currentUri := some text }
  else if s.currentTag = some "Permission".toList then
    match permissionOf text with
    | some permission => .ok { s with currentPermission := some permission }
    | none => .error ("Unsupported ACL permission: ".toList ++ text.toList)
  else .ok s

/-- What an event does. -/
def step (unescape : Text → Except Text Text) (s : AclState) : Xml.Event → Except Text AclState
  | .start name _ => .ok (s.start name)
  | .stop name => s.stop name
  | .text content =>
    if s.inGrant then do s.readText (String.ofList (← unescape content)) else .ok s
  | _ => .ok s

end AclState

/-- `parse_acl_xml` -/
def parseAclXml (read : Bool → Text → List (Except Text Xml.Event))
    (unescape : Text → Except Text Text) (body : Text) : Except Text Acl := do
  let s ← parseEvents (AclState.step unescape) xmlParseError (read true body) {}
  return { canned := .private, grants := s.grants }

/-! ### What is written -/

/-- Content in which no special character is written as such. -/
structure IsWritten (pieces : List Piece) : Prop where
  content : Xml.Content pieces
  notSpecial : ∀ c, .char c ∈ pieces → isSpecial c = false

namespace IsWritten

variable {pieces pieces' : List Piece}

theorem nil : IsWritten [] := ⟨.nil, fun _ h ↦ absurd h List.not_mem_nil⟩

theorem append (h : IsWritten pieces) (h' : IsWritten pieces') : IsWritten (pieces ++ pieces') :=
  ⟨h.content.append h'.content, fun c hc ↦
    (List.mem_append.1 hc).elim (h.notSpecial c) (h'.notSpecial c)⟩

theorem flatMap {α : Type} {f : α → List Piece} {l : List α} (h : ∀ a ∈ l, IsWritten (f a)) :
    IsWritten (l.flatMap f) := by
  refine ⟨Content.flatMap fun a ha ↦ (h a ha).content, fun c hc ↦ ?_⟩
  obtain ⟨a, ha, hc⟩ := List.mem_flatMap.1 hc
  exact (h a ha).notSpecial c hc

theorem layout {text : String} (h : ∀ c ∈ text.toList, isBlank c = true) :
    IsWritten (layout text) := by
  have hblank : ∀ c, isBlank c = true → (c ≠ '<' ∧ c ≠ '&') ∧ isSpecial c = false := by
    intro c hc
    simp only [isBlank, Bool.or_eq_true, decide_eq_true_eq] at hc
    rcases hc with ((rfl | rfl) | rfl) | rfl <;> decide
  refine ⟨Content.chars fun c hc ↦ (hblank c (h c hc)).1, fun c hc ↦ ?_⟩
  obtain ⟨d, hd, heq⟩ := List.mem_map.1 hc
  exact Piece.char.inj heq ▸ (hblank d (h d hd)).2

theorem element {name : Text} {attributes : List (Text × Text)} (hname : IsName name)
    (hattributes : AreAttributes attributes) (h : IsWritten pieces) :
    IsWritten (element name attributes pieces) := by
  refine ⟨Content.of_element hname hattributes h.content, fun c hc ↦ h.notSpecial c ?_⟩
  rcases List.mem_append.1 ((List.mem_cons.1 hc).resolve_left fun heq ↦ (by cases heq)) with hc | hc
  · exact hc
  · cases List.mem_singleton.1 hc

theorem text {name : String} (hname : IsName name.toList) (text : String) :
    IsWritten (textElement name text) :=
  element hname ⟨List.nodup_nil, fun _ ha ↦ absurd ha List.not_mem_nil⟩
    ⟨Content.escaped _, fun _ ↦ isSpecial_of_char_mem⟩

theorem optionElim {α : Type} {f : α → List Piece} (h : ∀ a, IsWritten (f a)) (o : Option α) :
    IsWritten (o.elim [] f) := by
  cases o with
  | none => exact nil
  | some a => exact h a

end IsWritten

section Documents

variable {read : Bool → Text → List (Except Text Xml.Event)} {unescape : Text → Except Text Text}
  {name : Text} {attributes : List (Text × Text)} {root : List Piece}

/-- A document with a declaration. -/
def declared (name : Text) (attributes : List (Text × Text)) (root : List Piece) : List Piece :=
  .declaration :: .char '\n' :: element name attributes root

/-- **Every text that is reported of a document is plain.** -/
theorem IsWritten.plain (h : IsWritten root) {t : Text}
    (ht : .text t ∈ reported true (declared name attributes root)) : IsPlain t := by
  obtain ⟨hne, htrim, hchars⟩ := text_mem_reported ht
  refine ⟨hne, htrim, fun c hc ↦ ?_⟩
  have hmem := hchars c hc
  rcases List.mem_cons.1 ((List.mem_cons.1 hmem).resolve_left fun heq ↦ (by cases heq)) with
    heq | hmem
  · rw [Piece.char.inj heq]
    decide
  · rcases List.mem_append.1 ((List.mem_cons.1 hmem).resolve_left fun heq ↦ (by cases heq)) with
      hmem | hmem
    · exact h.notSpecial c hmem
    · cases List.mem_singleton.1 hmem

theorem unescape_plain (hresolves : Resolves unescape) {t : Text} (h : IsPlain t) :
    unescape t = .ok t := by
  refine hresolves.plain fun hmem ↦ ?_
  have hspecial := h.2.2 '&' hmem
  exact absurd hspecial (by decide)

/-- A parser goes through what is reported. -/
theorem parseEvents_declared (hreads : Reads read) {σ : Type}
    {step : σ → Xml.Event → Except Text σ} {failure : Text → Text} (hname : IsName name)
    (hattributes : AreAttributes attributes) (h : IsWritten root) (init : σ) :
    parseEvents step failure (read true (written (declared name attributes root))) init =
      (reported true (declared name attributes root)).foldlM step init := by
  have hread := @Reads.read_written _ read hreads true _ (.declared hname hattributes h.content)
  unfold declared parseEvents
  rw [hread, List.foldlM_map]

/-- What each step of a parser keeps, a run keeps. -/
theorem foldlM_keeps {σ : Type} {step : σ → Xml.Event → Except Text σ} {P : σ → Prop}
    {events : List Xml.Event}
    (hstep : ∀ s s' event, event ∈ events → P s → step s event = .ok s' → P s') {s s' : σ}
    (hs : P s) (h : events.foldlM step s = .ok s') : P s' := by
  induction events generalizing s with
  | nil => exact Except.ok.inj h ▸ hs
  | cons event events ih =>
    rw [List.foldlM_cons] at h
    cases hfirst : step s event with
    | error e =>
      rw [hfirst] at h
      cases h
    | ok s₁ =>
      rw [hfirst] at h
      exact ih (fun s s' e he ↦ hstep s s' e (List.mem_cons_of_mem _ he))
        (hstep s s₁ event List.mem_cons_self hs hfirst) h

theorem foldlM_append_ok {σ : Type} {step : σ → Xml.Event → Except Text σ}
    {events events' : List Xml.Event} {s s' : σ} (h : events.foldlM step s = .ok s') :
    (events ++ events').foldlM step s = events'.foldlM step s' := by
  rw [List.foldlM_append, h]
  rfl

/-- Every string of a value is plain. -/
def ArePlain (strings : List String) : Prop := ∀ text ∈ strings, IsPlain text.toList

instance (strings : List String) : Decidable (ArePlain strings) :=
  inferInstanceAs (Decidable (∀ text ∈ strings, _))

/-! ### Tags come back -/

/-- The strings of tags. -/
def tagStrings (tags : Table String String) : List String :=
  tags.toList.flatMap fun tag ↦ [tag.1, tag.2]

theorem taggingRoot_isWritten (tags : Table String String) : IsWritten (taggingRoot tags) := by
  have hnone : AreAttributes [] := ⟨List.nodup_nil, fun a ha ↦ absurd ha List.not_mem_nil⟩
  have htag : ∀ tag, IsWritten (tagPieces tag) := fun tag ↦
    (IsWritten.layout (by decide)).append (.element (by decide) hnone
      ((IsWritten.text (by decide) _).append (.text (by decide) _)))
  exact (IsWritten.layout (by decide)).append ((IsWritten.element (by decide) hnone
    ((IsWritten.flatMap fun tag _ ↦ htag tag).append (.layout (by decide)))).append
      (.layout (by decide)))

/-- The events of an element with a plain text. -/
def plainEvents (name text : String) : List Xml.Event :=
  [.start name.toList [], .text text.toList, .stop name.toList]

theorem emits_plain {text : String} (h : IsPlain text.toList) (name : String) :
    Emits (textElement name text) (plainEvents name text) := by
  have hemits := Emits.text (.inr h) name.toList
  rwa [textEvents, if_neg h.1] at hemits

/-- The events of a tag. -/
def tagEvents (tag : String × String) : List Xml.Event :=
  .start "Tag".toList [] :: (plainEvents "Key" tag.1 ++ plainEvents "Value" tag.2 ++
    [.stop "Tag".toList])

theorem emits_taggingRoot {tags : Table String String} (h : ArePlain (tagStrings tags)) :
    Emits (taggingRoot tags) (.start "TagSet".toList [] ::
      (tags.toList.flatMap tagEvents ++ [.stop "TagSet".toList])) := by
  have htag : ∀ tag ∈ tags.toList, Emits (tagPieces tag) (tagEvents tag) := by
    intro tag hmem
    have hkey : IsPlain tag.1.toList := h _ (List.mem_flatMap.2 ⟨tag, hmem, by simp⟩)
    have hvalue : IsPlain tag.2.toList := h _ (List.mem_flatMap.2 ⟨tag, hmem, by simp⟩)
    exact (Emits.chars (by decide)).append
      (((emits_plain hkey _).append (emits_plain hvalue _)).element _ _)
  have hset := ((Emits.flatMap htag).append (Emits.chars (t := "\n  ".toList) (by decide))).element
    "TagSet".toList []
  rw [List.append_nil] at hset
  have hroot := (Emits.chars (t := "\n  ".toList) (by decide)).append
    (hset.append (Emits.chars (t := "\n".toList) (by decide)))
  rwa [List.append_nil, List.nil_append] at hroot

/-- **A tag that is read is added to the others.** -/
theorem fold_tagEvents (hresolves : Resolves unescape) {tag : String × String}
    (hkey : IsPlain tag.1.toList) (hvalue : IsPlain tag.2.toList) (tags : Table String String) :
    (tagEvents tag).foldlM (TaggingState.step unescape) { tags := tags } =
      .ok { tags := tags.insert tag.1 tag.2 } := by
  have htext : ∀ {text : String}, IsPlain text.toList → ∀ s : TaggingState,
      s.step unescape (.text text.toList) = s.readText text := by
    intro text h s
    show (unescape text.toList >>= fun t ↦ s.readText (String.ofList t)) = _
    rw [unescape_plain hresolves h]
    show s.readText (String.ofList text.toList) = _
    rw [String.ofList_toList]
  show (do
    let s ← TaggingState.step unescape { inKey := true, tags := tags } (.text tag.1.toList)
    let s ← s.step unescape (.stop "Key".toList)
    let s ← s.step unescape (.start "Value".toList [])
    let s ← s.step unescape (.text tag.2.toList)
    let s ← s.step unescape (.stop "Value".toList)
    s.step unescape (.stop "Tag".toList)) = _
  rw [htext hkey]
  show (TaggingState.step unescape { inValue := true, currentKey := some tag.1, tags := tags }
    (.text tag.2.toList) >>= _) = _
  rw [htext hvalue]
  rfl

theorem foldl_insert_toList (tags : Table String String) :
    tags.toList.foldl (fun m tag ↦ m.insert tag.1 tag.2) ∅ = tags := by
  have hfold : ∀ (l : List (String × String)) (m : Table String String),
      (l.Pairwise fun a b ↦ a.1 ≠ b.1) → ∀ key,
      (l.foldl (fun m tag ↦ m.insert tag.1 tag.2) m)[key]? =
        ((l.find? fun tag ↦ tag.1 = key).map (·.2)).or m[key]? := by
    intro l
    induction l with
    | nil => exact fun m _ key ↦ rfl
    | cons tag l ih =>
      intro m hl key
      obtain ⟨hfirst, hrest⟩ := List.pairwise_cons.1 hl
      rw [List.foldl_cons, ih _ hrest, Std.ExtTreeMap.getElem?_insert]
      by_cases hkey : tag.1 = key
      · have hnone : l.find? (fun tag ↦ tag.1 = key) = none := by
          refine List.find?_eq_none.2 fun other hother ↦ ?_
          rw [decide_eq_true_eq]
          exact fun heq ↦ hfirst other hother (hkey.trans heq.symm)
        rw [hnone, List.find?_cons_of_pos (by rw [decide_eq_true_eq]; exact hkey), if_pos (by
          rw [hkey]; exact Std.ReflCmp.compare_self)]
        rfl
      · rw [List.find?_cons_of_neg (by rw [decide_eq_true_eq]; exact hkey), if_neg fun h ↦
          hkey (Std.LawfulEqOrd.eq_of_compare h)]
  have hkeys : tags.toList.Pairwise fun a b ↦ a.1 ≠ b.1 := by
    refine (Std.ExtTreeMap.distinct_keys_toList (t := tags)).imp fun h heq ↦ h ?_
    rw [heq]
    exact Std.ReflCmp.compare_self
  refine Std.ExtTreeMap.ext_getElem? fun key ↦ ?_
  rw [hfold _ _ hkeys, Std.ExtTreeMap.getElem?_empty, Option.or_none]
  cases hfind : tags.toList.find? fun tag ↦ tag.1 = key with
  | none =>
    cases hget : tags[key]? with
    | none => rfl
    | some value =>
      have hmem := Std.ExtTreeMap.mem_toList_iff_getElem?_eq_some.2 hget
      exact absurd (List.find?_eq_none.1 hfind _ hmem) (by simp)
  | some tag =>
    have hmem := List.mem_of_find?_eq_some hfind
    have hkey : tag.1 = key := by
      have hfound := List.find?_some hfind
      exact of_decide_eq_true hfound
    have hget := Std.ExtTreeMap.mem_toList_iff_getElem?_eq_some.1 (show (tag.1, tag.2) ∈ _ from hmem)
    rw [← hkey, hget]
    rfl

theorem fold_tags (hresolves : Resolves unescape) {l : List (String × String)}
    (h : ∀ tag ∈ l, IsPlain tag.1.toList ∧ IsPlain tag.2.toList) (tags : Table String String) :
    (l.flatMap tagEvents).foldlM (TaggingState.step unescape) { tags := tags } =
      .ok { tags := l.foldl (fun m tag ↦ m.insert tag.1 tag.2) tags } := by
  induction l generalizing tags with
  | nil => rfl
  | cons tag l ih =>
    obtain ⟨hkey, hvalue⟩ := h tag List.mem_cons_self
    rw [List.flatMap_cons, foldlM_append_ok (fold_tagEvents hresolves hkey hvalue tags),
      ih fun other hother ↦ h other (List.mem_cons_of_mem _ hother)]
    rfl

/-- What is read of the tags is plain. -/
def TaggingState.IsPlain (s : TaggingState) : Prop :=
  (∀ key ∈ s.currentKey, Xml.IsPlain key.toList) ∧ ∀ key value : String,
    s.tags[key]? = some value → Xml.IsPlain key.toList ∧ Xml.IsPlain value.toList

/-- What a parser of tags keeps of its texts. -/
theorem tagging_keeps {s s' : TaggingState} {event : Xml.Event} (hresolves : Resolves unescape)
    (hevent : ∀ t, event = .text t → IsPlain t) (hs : s.IsPlain)
    (h : s.step unescape event = .ok s') : s'.IsPlain := by
  cases event with
  | start name attributes =>
    obtain rfl := Except.ok.inj h
    split_ifs <;> exact hs
  | stop name =>
    obtain rfl := Except.ok.inj h
    split_ifs <;> exact hs
  | text t =>
    have hplain := hevent t rfl
    have htext : IsPlain (String.ofList t).toList := by rwa [String.toList_ofList]
    change (unescape t >>= fun t ↦ s.readText (String.ofList t)) = _ at h
    rw [unescape_plain hresolves hplain] at h
    change s.readText (String.ofList t) = _ at h
    unfold TaggingState.readText at h
    split_ifs at h
    · obtain rfl := Except.ok.inj h
      refine ⟨fun key hkey ↦ ?_, hs.2⟩
      rw [← Option.some.inj hkey]
      exact htext
    · split at h
      · next key hkey =>
        obtain rfl := Except.ok.inj h
        refine ⟨fun key hkey ↦ (by cases hkey), fun key' value' hvalue ↦ ?_⟩
        rw [Std.ExtTreeMap.getElem?_insert] at hvalue
        split_ifs at hvalue with heq
        · rw [← Std.LawfulEqOrd.eq_of_compare heq, ← Option.some.inj hvalue]
          exact ⟨hs.1 key hkey, htext⟩
        · exact hs.2 key' value' hvalue
      · cases h
    · obtain rfl := Except.ok.inj h
      exact hs
  | empty | cData | generalRef | docType | aside =>
    obtain rfl := Except.ok.inj h
    exact hs

/-- **When tags come back as they were**: exactly if all keys and values are plain. -/
theorem tagging_round_trip_iff (hreads : Reads read) (hresolves : Resolves unescape)
    {tags : Table String String} (htags : checkTags tags = .ok tags) :
    parseTaggingXml read unescape (taggingXml tags) = .ok tags ↔ ArePlain (tagStrings tags) := by
  have hparse : parseTaggingXml read unescape (taggingXml tags) =
      (reported true (declared "Tagging".toList s3Namespace (taggingRoot tags))).foldlM
        (TaggingState.step unescape) {} >>= fun s ↦ checkTags s.tags := by
    have hroot := @parseEvents_declared _ "Tagging".toList s3Namespace _ hreads _
      (TaggingState.step unescape) id (by decide) (by decide) (taggingRoot_isWritten tags) {}
    rw [← hroot]
    rfl
  rw [hparse]
  constructor
  · intro h
    cases hfold : (reported true (declared "Tagging".toList s3Namespace (taggingRoot tags))).foldlM
        (TaggingState.step unescape) {} with
    | error e =>
      rw [hfold] at h
      cases h
    | ok s =>
      rw [hfold] at h
      change checkTags s.tags = .ok tags at h
      have hsame : s.tags = tags := by
        unfold checkTags at h
        split_ifs at h
        split at h
        · cases h
        · exact Except.ok.inj h
      have hplain := foldlM_keeps (P := TaggingState.IsPlain)
        (fun s s' event hevent hs hstep ↦ tagging_keeps hresolves (fun t ht ↦
          (taggingRoot_isWritten tags).plain (ht ▸ hevent)) hs hstep)
        ⟨fun key hkey ↦ (by cases hkey), fun key value hvalue ↦ (by
          rw [show (({} : TaggingState).tags) = ∅ from rfl, Std.ExtTreeMap.getElem?_empty] at hvalue
          cases hvalue)⟩ hfold
      intro text htext
      obtain ⟨tag, htag, htext⟩ := List.mem_flatMap.1 htext
      have hget := Std.ExtTreeMap.mem_toList_iff_getElem?_eq_some.1
        (show (tag.1, tag.2) ∈ _ from htag)
      obtain ⟨hkey, hvalue⟩ := hplain.2 tag.1 tag.2 (hsame ▸ hget)
      simp only [List.mem_cons, List.not_mem_nil, or_false] at htext
      rcases htext with rfl | rfl
      · exact hkey
      · exact hvalue
  · intro h
    have hentries : ∀ tag ∈ tags.toList, IsPlain tag.1.toList ∧ IsPlain tag.2.toList := by
      intro tag htag
      exact ⟨h _ (List.mem_flatMap.2 ⟨tag, htag, by simp⟩),
        h _ (List.mem_flatMap.2 ⟨tag, htag, by simp⟩)⟩
    have hfold : (reported true (declared "Tagging".toList s3Namespace (taggingRoot tags))).foldlM
        (TaggingState.step unescape) {} = .ok { tags := tags } := by
      unfold declared
      rw [(emits_taggingRoot h).document]
      show (tags.toList.flatMap tagEvents ++ [Event.stop "TagSet".toList] ++
        [Event.stop "Tagging".toList]).foldlM (TaggingState.step unescape) { tags := ∅ } = _
      rw [List.append_assoc, foldlM_append_ok (fold_tags hresolves hentries ∅),
        foldl_insert_toList]
      rfl
    rw [hfold]
    exact htags

/-! ### Grants come back -/

/-- The strings of a grant. -/
def grantStrings (grant : Grant) : List String :=
  match grant.grantee with
  | .canonicalUser id displayName => id :: displayName.toList
  | .group uri => [uri]

/-- The strings of the grants. -/
def aclStrings (acl : Acl) : List String := acl.grants.flatMap grantStrings

theorem permissionOf_xmlValue (permission : Permission) :
    permissionOf (permissionXmlValue permission) = some permission := by
  cases permission <;> rfl

theorem permission_isPlain (permission : Permission) :
    IsPlain (permissionXmlValue permission).toList := by
  cases permission <;> decide

theorem noAttributes : AreAttributes [] :=
  ⟨List.nodup_nil, fun _ ha ↦ absurd ha List.not_mem_nil⟩

theorem instanceNamespace_areAttributes :
    AreAttributes (instanceNamespace "CanonicalUser") ∧
      AreAttributes (instanceNamespace "Group") := by decide

theorem grantXml_isWritten (grant : Grant) : IsWritten (grantXml grant) := by
  have hgrantee : IsWritten (granteeXml grant.grantee) := by
    cases grant.grantee with
    | canonicalUser id displayName =>
      exact .element (by decide) instanceNamespace_areAttributes.1
        ((IsWritten.text (by decide) id).append (IsWritten.optionElim
          (fun name ↦ .text (by decide) name) displayName))
    | group uri =>
      exact .element (by decide) instanceNamespace_areAttributes.2 (.text (by decide) uri)
  exact (IsWritten.layout (by decide)).append (.element (by decide) noAttributes
    ((IsWritten.layout (by decide)).append (hgrantee.append ((IsWritten.layout (by decide)).append
      ((IsWritten.text (by decide) _).append (.layout (by decide)))))))

theorem aclRoot_isWritten (owner : Owner) {acl : Acl} (hgrants : acl.grants ≠ []) :
    IsWritten (aclRoot owner acl) := by
  have hlist : IsWritten (if acl.grants.isEmpty then defaultAclGrants owner acl.canned
      else explicitAclGrants acl) := by
    rw [List.isEmpty_eq_false_iff.2 hgrants]
    exact IsWritten.flatMap fun grant _ ↦ grantXml_isWritten grant
  have howner : IsWritten (layout "\n        " ++ (textElement "ID" owner.id ++
      (layout "\n        " ++ (textElement "DisplayName" owner.displayName ++ layout "\n    ")))) :=
    (IsWritten.layout (by decide)).append ((IsWritten.text (by decide) _).append
      ((IsWritten.layout (by decide)).append ((IsWritten.text (by decide) _).append
        (.layout (by decide)))))
  exact (IsWritten.layout (by decide)).append ((IsWritten.element (by decide) noAttributes howner).append
    ((IsWritten.layout (by decide)).append ((IsWritten.element (by decide) noAttributes
      (hlist.append (.layout (by decide)))).append (.layout (by decide)))))

/-- The events of a grantee. -/
def granteeEvents : Grantee → List Xml.Event
  | .canonicalUser id displayName => .start "Grantee".toList
      ((instanceNamespace "CanonicalUser").map fun a ↦ some a.1) ::
    (plainEvents "ID" id ++ displayName.elim [] (plainEvents "DisplayName") ++
      [.stop "Grantee".toList])
  | .group uri => .start "Grantee".toList
      ((instanceNamespace "Group").map fun a ↦ some a.1) ::
    (plainEvents "URI" uri ++ [.stop "Grantee".toList])

/-- The events of a grant. -/
def grantEvents (grant : Grant) : List Xml.Event :=
  .start "Grant".toList [] :: (granteeEvents grant.grantee ++
    plainEvents "Permission" (permissionXmlValue grant.permission) ++ [.stop "Grant".toList])

theorem emits_grantXml {grant : Grant} (h : ArePlain (grantStrings grant)) :
    Emits (grantXml grant) (grantEvents grant) := by
  have hgrantee : Emits (granteeXml grant.grantee) (granteeEvents grant.grantee) := by
    unfold ArePlain grantStrings at h
    cases hcase : grant.grantee with
    | canonicalUser id displayName =>
      rw [hcase] at h
      have hid : IsPlain id.toList := h id List.mem_cons_self
      have hname : Emits (displayName.elim [] (textElement "DisplayName"))
          (displayName.elim [] (plainEvents "DisplayName")) := by
        cases displayName with
        | none => exact .nil
        | some name => exact emits_plain (h name (by simp)) _
      exact ((emits_plain hid _).append hname).element _ _
    | group uri =>
      rw [hcase] at h
      exact (emits_plain (h uri List.mem_cons_self) _).element _ _
  have hpermission := emits_plain (permission_isPlain grant.permission) "Permission"
  have hinner := (Emits.chars (t := "\n            ".toList) (by decide)).append (hgrantee.append
    ((Emits.chars (t := "\n            ".toList) (by decide)).append (hpermission.append
      (Emits.chars (t := "\n        ".toList) (by decide)))))
  have hgrant := (Emits.chars (t := "\n        ".toList) (by decide)).append
    (hinner.element "Grant".toList [])
  rw [List.nil_append, List.nil_append, List.append_nil, List.nil_append] at hgrant
  exact hgrant

/-- A text inside of a grant is read as it is. -/
theorem acl_step_text (hresolves : Resolves unescape) {text : String} (h : IsPlain text.toList)
    {s : AclState} (hs : s.inGrant = true) :
    s.step unescape (.text text.toList) = s.readText text := by
  show (if s.inGrant then (unescape text.toList >>= fun t ↦ s.readText (String.ofList t))
    else .ok s) = _
  rw [if_pos hs, unescape_plain hresolves h]
  show s.readText (String.ofList text.toList) = _
  rw [String.ofList_toList]

theorem fold_acl_field (hresolves : Resolves unescape) {name text : String}
    (h : IsPlain text.toList) (hname : name.toList ≠ "Grant".toList) {s s' : AclState}
    (hs : s.inGrant = true)
    (hread : ({ s with currentTag := some name.toList } : AclState).readText text = .ok s') :
    (plainEvents name text).foldlM (AclState.step unescape) s =
      .ok { s' with currentTag := none } := by
  have hstart : s.step unescape (.start name.toList []) =
      .ok { s with currentTag := some name.toList } := congrArg Except.ok (if_neg hname)
  have hstop : s'.step unescape (.stop name.toList) = .ok { s' with currentTag := none } :=
    if_neg hname
  have htext : ({ s with currentTag := some name.toList } : AclState).step unescape
      (.text text.toList) = .ok s' :=
    (acl_step_text hresolves h (s := { s with currentTag := some name.toList }) hs).trans hread
  show (s.step unescape (.start name.toList []) >>= fun s ↦
    s.step unescape (.text text.toList) >>= fun s ↦
    s.step unescape (.stop name.toList) >>= fun s ↦ .ok s) = _
  rw [hstart]
  show (({ s with currentTag := some name.toList } : AclState).step unescape
    (.text text.toList) >>= fun s ↦ s.step unescape (.stop name.toList) >>= fun s ↦ .ok s) = _
  rw [htext]
  show (s'.step unescape (.stop name.toList) >>= fun s ↦ .ok s) = _
  rw [hstop]
  rfl

/-- The state in a grant whose grantee has been read. -/
def AclState.inside (s : AclState) (grantee : Grantee) : AclState :=
  match grantee with
  | .canonicalUser id displayName => { s with
      inGrant := true, currentTag := none, currentId := some id
      currentDisplayName := displayName, currentUri := none, currentPermission := none }
  | .group uri => { s with
      inGrant := true, currentTag := none, currentId := none, currentDisplayName := none
      currentUri := some uri, currentPermission := none }

theorem fold_granteeEvents (hresolves : Resolves unescape) {grant : Grant}
    (h : ArePlain (grantStrings grant)) (s : AclState) :
    (granteeEvents grant.grantee).foldlM (AclState.step unescape) (s.start "Grant".toList) =
      .ok (s.inside grant.grantee) := by
  unfold ArePlain grantStrings at h
  have hgrantee : ∀ attributes, (s.start "Grant".toList).step unescape
      (.start "Grantee".toList attributes) = .ok { s with
        inGrant := true, currentId := none, currentDisplayName := none, currentUri := none
        currentPermission := none, currentTag := some "Grantee".toList } := fun _ ↦ rfl
  cases hcase : grant.grantee with
  | canonicalUser id displayName =>
    rw [hcase] at h
    have hid := @fold_acl_field _ hresolves "ID" _ (h id List.mem_cons_self) (by decide)
      { s with
        inGrant := true, currentId := none, currentDisplayName := none, currentUri := none
        currentPermission := none, currentTag := some "Grantee".toList } _ rfl rfl
    have hname : ∀ state : AclState, state.inGrant = true →
        state = { state with currentTag := none, currentDisplayName := none } →
        (displayName.elim [] (plainEvents "DisplayName")).foldlM (AclState.step unescape) state =
          .ok { state with currentDisplayName := displayName } := by
      intro state hin hstate
      cases displayName with
      | none =>
        rw [hstate]
        rfl
      | some name =>
        refine (@fold_acl_field _ hresolves "DisplayName" _ (h name (by simp)) (by decide)
          _ _ hin rfl).trans ?_
        rw [hstate]
    show (AclState.step unescape (s.start "Grant".toList) (.start "Grantee".toList _) >>= _) = _
    rw [hgrantee]
    show (plainEvents "ID" id ++ displayName.elim [] (plainEvents "DisplayName") ++
      [Event.stop "Grantee".toList]).foldlM (AclState.step unescape) { s with
        inGrant := true, currentId := none, currentDisplayName := none, currentUri := none
        currentPermission := none, currentTag := some "Grantee".toList } = _
    rw [List.append_assoc, foldlM_append_ok hid, foldlM_append_ok (hname _ rfl rfl)]
    rfl
  | group uri =>
    rw [hcase] at h
    have huri := @fold_acl_field _ hresolves "URI" _ (h uri List.mem_cons_self) (by decide)
      { s with
        inGrant := true, currentId := none, currentDisplayName := none, currentUri := none
        currentPermission := none, currentTag := some "Grantee".toList } _ rfl rfl
    show (AclState.step unescape (s.start "Grant".toList) (.start "Grantee".toList _) >>= _) = _
    rw [hgrantee]
    show (plainEvents "URI" uri ++ [Event.stop "Grantee".toList]).foldlM (AclState.step unescape)
      { s with
        inGrant := true, currentId := none, currentDisplayName := none, currentUri := none
        currentPermission := none, currentTag := some "Grantee".toList } = _
    rw [foldlM_append_ok huri]
    rfl

/-- **A grant that is read is added to the others.** -/
theorem fold_grantEvents (hresolves : Resolves unescape) {grant : Grant}
    (h : ArePlain (grantStrings grant)) (s : AclState) :
    ∃ s', (grantEvents grant).foldlM (AclState.step unescape) s = .ok s' ∧
      s'.grants = s.grants ++ [grant] ∧ s'.inGrant = false := by
  have hin : (s.inside grant.grantee).inGrant = true := by cases grant.grantee <;> rfl
  have hread : ({ s.inside grant.grantee with currentTag := some "Permission".toList } :
      AclState).readText (permissionXmlValue grant.permission) = .ok { s.inside grant.grantee with
        currentTag := some "Permission".toList, currentPermission := some grant.permission } := by
    unfold AclState.readText
    rw [if_neg (by show some "Permission".toList ≠ some "ID".toList; decide),
      if_neg (by show some "Permission".toList ≠ some "DisplayName".toList; decide),
      if_neg (by show some "Permission".toList ≠ some "URI".toList; decide), if_pos rfl,
      permissionOf_xmlValue]
  have hpermission := @fold_acl_field _ hresolves "Permission" _ (permission_isPlain grant.permission)
    (by decide) _ _ hin hread
  have hstop : ∃ s', ({ s.inside grant.grantee with
      currentTag := none, currentPermission := some grant.permission } : AclState).stop
        "Grant".toList = .ok s' ∧ s'.grants = s.grants ++ [grant] ∧ s'.inGrant = false := by
    obtain ⟨grantee, permission⟩ := grant
    cases grantee with
    | canonicalUser id displayName => exact ⟨_, rfl, rfl, rfl⟩
    | group uri => exact ⟨_, rfl, rfl, rfl⟩
  obtain ⟨s', hfinish, hgrants, hout⟩ := hstop
  refine ⟨s', ?_, hgrants, hout⟩
  show (granteeEvents grant.grantee ++ plainEvents "Permission" (permissionXmlValue grant.permission) ++
    [Event.stop "Grant".toList]).foldlM (AclState.step unescape) (s.start "Grant".toList) = _
  rw [List.append_assoc, foldlM_append_ok (fold_granteeEvents hresolves h s),
    foldlM_append_ok hpermission]
  show (AclState.stop _ "Grant".toList >>= fun s ↦ .ok s) = _
  exact (congrArg (· >>= fun s ↦ Except.ok s) hfinish).trans rfl

theorem fold_grants (hresolves : Resolves unescape) {grants : List Grant}
    (h : ∀ grant ∈ grants, ArePlain (grantStrings grant)) {s : AclState} (hs : s.inGrant = false) :
    ∃ s', (grants.flatMap grantEvents).foldlM (AclState.step unescape) s = .ok s' ∧
      s'.grants = s.grants ++ grants ∧ s'.inGrant = false := by
  induction grants generalizing s with
  | nil => exact ⟨s, rfl, (List.append_nil _).symm, hs⟩
  | cons grant grants ih =>
    obtain ⟨s₁, hfirst, hgrants₁, hs₁⟩ := fold_grantEvents hresolves (h grant List.mem_cons_self) s
    obtain ⟨s₂, hrest, hgrants₂, hs₂⟩ := ih (fun g hg ↦ h g (List.mem_cons_of_mem _ hg)) hs₁
    refine ⟨s₂, ?_, ?_, hs₂⟩
    · rw [List.flatMap_cons, foldlM_append_ok hfirst, hrest]
    · rw [hgrants₂, hgrants₁, List.append_assoc]
      rfl

/-- Outside of the grants, texts are passed over. -/
theorem fold_acl_outside {text : Text} {s : AclState} (hs : s.inGrant = false) :
    (reported true (escaped text)).foldlM (AclState.step unescape) s = .ok s := by
  have hall : ∀ l : List Xml.Event, (∀ event ∈ l, (∃ u, event = .text u) ∨
      ∃ name, event = .generalRef name) → l.foldlM (AclState.step unescape) s = .ok s := by
    intro l
    induction l with
    | nil => exact fun _ ↦ rfl
    | cons event l ih =>
      intro h
      obtain ⟨hfirst, hrest⟩ := List.forall_mem_cons.1 h
      have hstep : s.step unescape event = .ok s := by
        rcases hfirst with ⟨u, rfl⟩ | ⟨name, rfl⟩
        · show (if s.inGrant then _ else _) = _
          rw [hs]
          rfl
        · rfl
      rw [List.foldlM_cons, hstep]
      exact ih hrest
  exact hall _ fun event hevent ↦ mem_reported_escaped hevent

/-- The events of an owner. -/
def ownerEvents (owner : Owner) : List Xml.Event :=
  .start "Owner".toList [] ::
    ((.start "ID".toList [] :: (reported true (escaped owner.id.toList) ++ [.stop "ID".toList])) ++
      (.start "DisplayName".toList [] :: (reported true (escaped owner.displayName.toList) ++
        [.stop "DisplayName".toList])) ++ [.stop "Owner".toList])

theorem fold_ownerEvents (owner : Owner) {s : AclState} (hs : s.inGrant = false) :
    (ownerEvents owner).foldlM (AclState.step unescape) s = .ok { s with currentTag := none } := by
  have hfield : ∀ {name text : String} {s : AclState}, name.toList ≠ "Grant".toList →
      s.inGrant = false →
      (Event.start name.toList [] :: (reported true (escaped text.toList) ++
        [Event.stop name.toList])).foldlM (AclState.step unescape) s =
          .ok { s with currentTag := none } := by
    intro name text s hname hs
    have hstart : s.step unescape (.start name.toList []) =
        .ok { s with currentTag := some name.toList } := congrArg Except.ok (if_neg hname)
    rw [List.foldlM_cons, hstart]
    have houtside := @fold_acl_outside unescape text.toList
      { s with currentTag := some name.toList } hs
    show (reported true (escaped text.toList) ++ [Event.stop name.toList]).foldlM
      (AclState.step unescape) { s with currentTag := some name.toList } = _
    rw [foldlM_append_ok houtside]
    show (AclState.stop _ name.toList >>= fun s ↦ .ok s) = _
    rw [AclState.stop, if_neg hname]
    rfl
  show ((.start "ID".toList [] :: (reported true (escaped owner.id.toList) ++
    [Event.stop "ID".toList])) ++ (.start "DisplayName".toList [] ::
      (reported true (escaped owner.displayName.toList) ++ [Event.stop "DisplayName".toList])) ++
        [Event.stop "Owner".toList]).foldlM (AclState.step unescape)
          { s with currentTag := some "Owner".toList } = _
  have hid := @hfield "ID" owner.id { s with currentTag := some "Owner".toList } (by decide) hs
  have hname := @hfield "DisplayName" owner.displayName { s with currentTag := none } (by decide) hs
  rw [List.append_assoc, foldlM_append_ok hid, foldlM_append_ok hname]
  rfl

theorem emits_aclRoot (owner : Owner) {acl : Acl} (hgrants : acl.grants ≠ [])
    (h : ArePlain (aclStrings acl)) : Emits (aclRoot owner acl) (ownerEvents owner ++
      (.start "AccessControlList".toList [] ::
        (acl.grants.flatMap grantEvents ++ [.stop "AccessControlList".toList]))) := by
  have hlist : Emits (if acl.grants.isEmpty then defaultAclGrants owner acl.canned
      else explicitAclGrants acl) (acl.grants.flatMap grantEvents) := by
    rw [List.isEmpty_eq_false_iff.2 hgrants]
    refine Emits.flatMap fun grant hgrant ↦ emits_grantXml fun text htext ↦ h text ?_
    exact List.mem_flatMap.2 ⟨grant, hgrant, htext⟩
  have howner := ((Emits.chars (t := "\n        ".toList) (by decide)).append
    ((Emits.any (escaped owner.id.toList) "ID".toList []).append
      ((Emits.chars (t := "\n        ".toList) (by decide)).append
        ((Emits.any (escaped owner.displayName.toList) "DisplayName".toList []).append
          (Emits.chars (t := "\n    ".toList) (by decide)))))).element "Owner".toList []
  have hacl := (hlist.append (Emits.chars (t := "\n    ".toList) (by decide))).element
    "AccessControlList".toList []
  have hroot := (Emits.chars (t := "\n    ".toList) (by decide)).append (howner.append
    ((Emits.chars (t := "\n    ".toList) (by decide)).append (hacl.append
      (Emits.chars (t := "\n".toList) (by decide)))))
  simp only [List.nil_append, List.append_nil] at hroot
  exact hroot

/-- What is read of the grants is plain. -/
def AclState.IsPlain (s : AclState) : Prop :=
  (∀ grant ∈ s.grants, ArePlain (grantStrings grant)) ∧
    (∀ text ∈ s.currentId, Xml.IsPlain text.toList) ∧
    (∀ text ∈ s.currentDisplayName, Xml.IsPlain text.toList) ∧
    ∀ text ∈ s.currentUri, Xml.IsPlain text.toList

/-- What a parser of grants keeps of its texts. -/
theorem acl_keeps {s s' : AclState} {event : Xml.Event} (hresolves : Resolves unescape)
    (hevent : ∀ t, event = .text t → Xml.IsPlain t) (hs : s.IsPlain)
    (h : s.step unescape event = .ok s') : s'.IsPlain := by
  obtain ⟨hgrants, hid, hname, huri⟩ := hs
  cases event with
  | start name attributes =>
    obtain rfl := Except.ok.inj h
    unfold AclState.start
    split_ifs
    · exact ⟨hgrants, fun _ h ↦ (by cases h), fun _ h ↦ (by cases h), fun _ h ↦ (by cases h)⟩
    · exact ⟨hgrants, hid, hname, huri⟩
  | stop name =>
    change s.stop name = _ at h
    rw [AclState.stop] at h
    by_cases hgrant : name = "Grant".toList
    · rw [if_pos hgrant] at h
      split at h
      · cases h
      · cases h
      · next permission grantee hpermission hgrantee =>
        obtain rfl := Except.ok.inj h
        have hnew : ArePlain (grantStrings ⟨grantee, permission⟩) := by
          unfold AclState.grantee? at hgrantee
          split at hgrantee
          · next id hcurrent =>
            obtain rfl := Option.some.inj hgrantee
            intro text htext
            rcases List.mem_cons.1 htext with rfl | htext
            · exact hid _ hcurrent
            · exact hname _ (Option.mem_toList.1 htext)
          · next uri hnone hcurrent =>
            obtain rfl := Option.some.inj hgrantee
            intro text htext
            rw [List.mem_singleton.1 htext]
            exact huri _ hcurrent
          · cases hgrantee
        refine ⟨fun grant hgrant ↦ ?_, fun _ h ↦ (by cases h), fun text htext ↦ ?_,
          fun text htext ↦ ?_⟩
        · rcases List.mem_append.1 hgrant with hgrant | hgrant
          · exact hgrants grant hgrant
          · rw [List.mem_singleton.1 hgrant]
            exact hnew
        · dsimp only at htext
          split_ifs at htext
          · cases htext
          · exact hname text htext
        · dsimp only at htext
          split_ifs at htext
          · exact huri text htext
          · cases htext
    · rw [if_neg hgrant] at h
      obtain rfl := Except.ok.inj h
      exact ⟨hgrants, hid, hname, huri⟩
  | text t =>
    have htext : Xml.IsPlain (String.ofList t).toList := by
      rw [String.toList_ofList]
      exact hevent t rfl
    change (if s.inGrant then (unescape t >>= fun t ↦ s.readText (String.ofList t)) else .ok s) = _
      at h
    split_ifs at h
    · rw [unescape_plain hresolves (hevent t rfl)] at h
      change s.readText (String.ofList t) = _ at h
      have hsome : ∀ text ∈ some (String.ofList t), Xml.IsPlain text.toList := by
        intro text hmem
        rw [← Option.some.inj hmem]
        exact htext
      unfold AclState.readText at h
      split_ifs at h
      · obtain rfl := Except.ok.inj h
        exact ⟨hgrants, hsome, hname, huri⟩
      · obtain rfl := Except.ok.inj h
        exact ⟨hgrants, hid, hsome, huri⟩
      · obtain rfl := Except.ok.inj h
        exact ⟨hgrants, hid, hname, hsome⟩
      · split at h
        · obtain rfl := Except.ok.inj h
          exact ⟨hgrants, hid, hname, huri⟩
        · cases h
      · obtain rfl := Except.ok.inj h
        exact ⟨hgrants, hid, hname, huri⟩
    · obtain rfl := Except.ok.inj h
      exact ⟨hgrants, hid, hname, huri⟩
  | empty | cData | generalRef | docType | aside =>
    obtain rfl := Except.ok.inj h
    exact ⟨hgrants, hid, hname, huri⟩

/-- **When grants come back as they were**: exactly if all their strings are plain. -/
theorem acl_round_trip_iff (hreads : Reads read) (hresolves : Resolves unescape) (owner : Owner)
    {acl : Acl} (hgrants : acl.grants ≠ []) (hcanned : acl.canned = .private) :
    parseAclXml read unescape (aclXml owner acl) = .ok acl ↔ ArePlain (aclStrings acl) := by
  have hparse : parseAclXml read unescape (aclXml owner acl) =
      (reported true (declared "AccessControlPolicy".toList s3Namespace (aclRoot owner acl))).foldlM
        (AclState.step unescape) {} >>= fun s ↦ .ok { canned := .private, grants := s.grants } := by
    have hroot := @parseEvents_declared _ "AccessControlPolicy".toList s3Namespace _ hreads _
      (AclState.step unescape) xmlParseError (by decide) (by decide)
      (aclRoot_isWritten owner hgrants) {}
    rw [← hroot]
    rfl
  rw [hparse]
  constructor
  · intro h
    cases hfold : (reported true (declared "AccessControlPolicy".toList s3Namespace
        (aclRoot owner acl))).foldlM (AclState.step unescape) {} with
    | error e =>
      rw [hfold] at h
      cases h
    | ok s =>
      rw [hfold] at h
      have hsame : s.grants = acl.grants := congrArg Acl.grants (Except.ok.inj h)
      have hplain := foldlM_keeps (P := AclState.IsPlain)
        (fun s s' event hevent hs hstep ↦ acl_keeps hresolves (fun t ht ↦
          (aclRoot_isWritten owner hgrants).plain (ht ▸ hevent)) hs hstep)
        ⟨fun _ h ↦ (by cases h), fun _ h ↦ (by cases h), fun _ h ↦ (by cases h),
          fun _ h ↦ (by cases h)⟩ hfold
      intro text htext
      obtain ⟨grant, hgrant, htext⟩ := List.mem_flatMap.1 htext
      exact hplain.1 grant (hsame ▸ hgrant) text htext
  · intro h
    have heach : ∀ grant ∈ acl.grants, ArePlain (grantStrings grant) := fun grant hgrant text htext ↦
      h text (List.mem_flatMap.2 ⟨grant, hgrant, htext⟩)
    obtain ⟨s', hfold, hsame, -⟩ := fold_grants hresolves heach
      (s := { currentTag := some "AccessControlList".toList }) rfl
    unfold declared
    rw [(emits_aclRoot owner hgrants h).document]
    show ((ownerEvents owner ++ (Event.start "AccessControlList".toList [] ::
      (acl.grants.flatMap grantEvents ++ [Event.stop "AccessControlList".toList])) ++
        [Event.stop "AccessControlPolicy".toList]).foldlM (AclState.step unescape)
          { currentTag := some "AccessControlPolicy".toList } >>= _) = _
    rw [List.append_assoc, foldlM_append_ok (fold_ownerEvents owner rfl)]
    show ((acl.grants.flatMap grantEvents ++ [Event.stop "AccessControlList".toList] ++
      [Event.stop "AccessControlPolicy".toList]).foldlM (AclState.step unescape)
        { currentTag := some "AccessControlList".toList } >>= _) = _
    rw [List.append_assoc, foldlM_append_ok hfold]
    show Except.ok ({ canned := .private, grants := s'.grants } : Acl) = _
    rw [hsame]
    obtain ⟨canned, grants⟩ := acl
    cases hcanned
    rfl

end Documents

end Sqrzl.S3
