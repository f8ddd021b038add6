import SqrzlEmulator.Lifecycle.Rules
import SqrzlEmulator.S3.XmlDocuments

/-!
# Lifecycle documents

`lifecycle_xml` of `utils/xml.rs` and `parse_lifecycle_xml` of `utils/xml/parse.rs`, for the
lifecycle rules of a bucket. The parser keeps the last text of an element, and begins each element
with an empty one, so that an empty text survives here.

**Rules come back as they were exactly if each of their texts is empty or plain**
(`lifecycle_round_trip_iff`). With the tags and the grants, this is when a configuration survives
that is read and written back (`documents_round_trip_iff`).
-/

namespace Sqrzl.S3

open Xml

/-! ### Lifecycle rules -/

/-- A line with an element, if there is something to write. -/
def line (indent name : String) (text : Option String) : List Piece :=
  text.elim [] fun text ↦ layout indent ++ (textElement name text ++ layout "\n")

/-- An element on several lines, if there is something to write. -/
def block (indent name : String) (inner : Option (List Piece)) : List Piece :=
  inner.elim [] fun inner ↦ layout indent ++ (element name.toList []
    (layout "\n" ++ (inner ++ layout indent)) ++ layout "\n")

/-- `bool::to_string` -/
def boolText (b : Bool) : String := if b then "true" else "false"

/-- The text of a status. -/
def statusText : Lifecycle.Status → String
  | .enabled => "Enabled"
  | .disabled => "Disabled"

/-- The element of a filter. -/
def filterPieces (filter : Lifecycle.Filter) : List Piece :=
  line "      " "Prefix" (filter.keyPrefix.map String.ofList) ++
    filter.tags.flatMap fun tag ↦ block "      " "Tag"
      (some (line "        " "Key" (some tag.key) ++ line "        " "Value" (some tag.value)))

/-- The element of an expiration. -/
def expirationPieces (expiration : Lifecycle.Expiration) : List Piece :=
  line "      " "Days" (expiration.days.map toString) ++ (line "      " "Date" expiration.date ++
    line "      " "ExpiredObjectDeleteMarker" (expiration.expiredObjectDeleteMarker.map boolText))

/-- The element of a transition. -/
def transitionPieces (transition : Lifecycle.Transition) : List Piece :=
  line "      " "Days" (transition.days.map toString) ++ (line "      " "Date" transition.date ++
    line "      " "StorageClass" (some (Lifecycle.storageClassToStr transition.storageClass)))

/-- The element of a rule. -/
def rulePieces (rule : Lifecycle.Rule) : List Piece :=
  line "    " "ID" rule.id ++ (line "    " "Status" (some (statusText rule.status)) ++
    (block "    " "Filter" (rule.filter.map filterPieces) ++
      (block "    " "Expiration" (rule.expiration.map expirationPieces) ++
        (block "    " "NoncurrentVersionExpiration" (rule.noncurrentDays.map fun days ↦
          line "      " "NoncurrentDays" (some (toString days))) ++
          rule.transitions.flatMap fun transition ↦
            block "    " "Transition" (some (transitionPieces transition))))))

/-- The root element of a configuration. -/
def lifecycleRoot (rules : List Lifecycle.Rule) : List Piece :=
  layout "\n" ++ rules.flatMap fun rule ↦ block "  " "Rule" (some (rulePieces rule))

/-- `lifecycle_xml` -/
def lifecycleXml (rules : List Lifecycle.Rule) : Text :=
  written (.declaration :: .char '\n' ::
    element "LifecycleConfiguration".toList [] (lifecycleRoot rules))

/-- `LifecycleParseState` -/
structure LifecycleParseState where
  rules : List Lifecycle.Rule := []
  currentRule : Option Lifecycle.Rule := none
  currentFilter : Option Lifecycle.Filter := none
  currentExpiration : Option Lifecycle.Expiration := none
  /-- `current_noncurrent_version_expiration` -/
  currentNoncurrentDays : Option ℕ := none
  currentTransition : Option Lifecycle.Transition := none
  currentTag : Option Lifecycle.Tag := none
  text : String := ""
  deriving DecidableEq

/-- The elements that mean something in a lifecycle document. -/
inductive LifecycleElement where
  | rule | id | status
  | filter | keyPrefix | tag | key | value
  | expiration | days | date | expiredObjectDeleteMarker
  | noncurrentVersionExpiration | noncurrentDays
  | transition | storageClass
  deriving DecidableEq

/-- The name of an element. -/
def LifecycleElement.name : LifecycleElement → String
  | .rule => "Rule"
  | .id => "ID"
  | .status => "Status"
  | .filter => "Filter"
  | .keyPrefix => "Prefix"
  | .tag => "Tag"
  | .key => "Key"
  | .value => "Value"
  | .expiration => "Expiration"
  | .days => "Days"
  | .date => "Date"
  | .expiredObjectDeleteMarker => "ExpiredObjectDeleteMarker"
  | .noncurrentVersionExpiration => "NoncurrentVersionExpiration"
  | .noncurrentDays => "NoncurrentDays"
  | .transition => "Transition"
  | .storageClass => "StorageClass"

/-- The elements, in the order in which they are compared. -/
def LifecycleElement.all : List LifecycleElement :=
  [.rule, .id, .status, .filter, .keyPrefix, .tag, .key, .value, .expiration, .days, .date,
    .expiredObjectDeleteMarker, .noncurrentVersionExpiration, .noncurrentDays, .transition,
    .storageClass]

/-- The element of a name. -/
def LifecycleElement.ofName (name : Text) : Option LifecycleElement :=
  LifecycleElement.all.find? fun e ↦ e.name.toList = name

namespace LifecycleParseState

/-- `LifecycleParseState::start` -/
def start (s : LifecycleParseState) (name : Text) : LifecycleParseState :=
  let s := match LifecycleElement.ofName name with
    | some .rule => { s with currentRule := some { status := .disabled } }
    | some .filter => { s with currentFilter := some {} }
    | some .expiration => { s with currentExpiration := some {} }
    | some .noncurrentVersionExpiration => { s with currentNoncurrentDays := some 0 }
    | some .transition => { s with currentTransition := some { storageClass := .standard } }
    | some .tag => { s with currentTag := some ⟨"", ""⟩ }
    | _ => s
  { s with text := "" }

/-- `end_rule_field` -/
def endRuleField (s : LifecycleParseState) (e : LifecycleElement) : LifecycleParseState :=
  match e with
  | .id => { s with currentRule := s.currentRule.map fun rule ↦ { rule with id := some s.text } }
  | .status => { s with currentRule := s.currentRule.map fun rule ↦
      { rule with status := if s.text = "Enabled" then .enabled else .disabled } }
  | _ => s

/-- `finish_tag` -/
def finishTag (s : LifecycleParseState) : LifecycleParseState :=
  match s.currentFilter, s.currentTag with
  | some filter, some tag =>
    { s with
      currentFilter := some { filter with tags := filter.tags ++ [tag] }
      currentTag := none }
  | _, _ => { s with currentTag := none }

/-- `end_filter_field` -/
def endFilterField (s : LifecycleParseState) (e : LifecycleElement) : LifecycleParseState :=
  match e with
  | .keyPrefix => { s with currentFilter := s.currentFilter.map fun filter ↦
      { filter with keyPrefix := some s.text.toList } }
  | .key => { s with currentTag := s.currentTag.map fun tag ↦ { tag with key := s.text } }
  | .value => { s with currentTag := s.currentTag.map fun tag ↦ { tag with value := s.text } }
  | .tag => s.finishTag
  | _ => s

/-- `set_days` -/
def setDays (s : LifecycleParseState) : LifecycleParseState :=
  match parseU32 s.text, s.currentExpiration, s.currentTransition with
  | some days, some expiration, _ =>
    { s with currentExpiration := some { expiration with days := some days } }
  | some days, none, some transition =>
    { s with currentTransition := some { transition with days := some days } }
  | _, _, _ => s

/-- `set_noncurrent_days` -/
def setNoncurrentDays (s : LifecycleParseState) : LifecycleParseState :=
  match parseU32 s.text with
  | some days => { s with currentNoncurrentDays := s.currentNoncurrentDays.map fun _ ↦ days }
  | none => s

/-- `set_date` -/
def setDate (s : LifecycleParseState) : LifecycleParseState :=
  match s.currentExpiration with
  | some expiration => { s with currentExpiration := some { expiration with date := some s.text } }
  | none => { s with currentTransition := s.currentTransition.map fun transition ↦
      { transition with date := some s.text } }

/-- `end_action_field` -/
def endActionField (s : LifecycleParseState) (e : LifecycleElement) : LifecycleParseState :=
  match e with
  | .days => s.setDays
  | .noncurrentDays => s.setNoncurrentDays
  | .date => s.setDate
  | .expiredObjectDeleteMarker =>
    { s with currentExpiration := s.currentExpiration.map fun expiration ↦
      { expiration with expiredObjectDeleteMarker := some (s.text = "true") } }
  | .storageClass =>
    { s with currentTransition := s.currentTransition.map fun transition ↦
      { transition with storageClass :=
          if s.text = "GLACIER" then .glacier
          else if s.text = "DEEP_ARCHIVE" then .deepArchive
          else .standard } }
  | _ => s

/-- `close_element` -/
def closeElement (s : LifecycleParseState) (e : LifecycleElement) : LifecycleParseState :=
  match e with
  | .filter => { s with
      currentFilter := none
      currentRule := s.currentRule.map fun rule ↦
        { rule with filter := s.currentFilter.orElse fun _ ↦ rule.filter } }
  | .expiration => { s with
      currentExpiration := none
      currentRule := s.currentRule.map fun rule ↦
        { rule with expiration := s.currentExpiration.orElse fun _ ↦ rule.expiration } }
  | .noncurrentVersionExpiration => { s with
      currentNoncurrentDays := none
      currentRule := s.currentRule.map fun rule ↦
        { rule with noncurrentDays := s.currentNoncurrentDays.orElse fun _ ↦ rule.noncurrentDays } }
  | .transition => { s with
      currentTransition := none
      currentRule := s.currentRule.map fun rule ↦
        { rule with transitions := rule.transitions ++ s.currentTransition.toList } }
  | .rule => { s with currentRule := none, rules := s.rules ++ s.currentRule.toList }
  | _ => s

/-- `LifecycleParseState::end` -/
def stop (s : LifecycleParseState) (name : Text) : LifecycleParseState :=
  let s := match LifecycleElement.ofName name with
    | some e => (((s.endRuleField e).endFilterField e).endActionField e).closeElement e
    | none => s
  { s with text := "" }

/-- What an event does; a text that cannot be resolved counts as empty. -/
def apply (unescape : Text → Except Text Text) (s : LifecycleParseState) :
    Xml.Event → LifecycleParseState
  | .start name _ => s.start name
  | .text content => { s with text := ((unescape content).toOption.map String.ofList).getD "" }
  | .stop name => s.stop name
  | _ => s

end LifecycleParseState

/-- `parse_lifecycle_xml` -/
def parseLifecycleXml (read : Bool → Text → List (Except Text Xml.Event))
    (unescape : Text → Except Text Text) (body : Text) : Except Text (List Lifecycle.Rule) := do
  let s ← parseEvents (fun s event ↦ .ok (s.apply unescape event)) xmlParseError
    (read true body) ({} : LifecycleParseState)
  return s.rules

/-! ### What is written -/

section Documents

variable {read : Bool → Text → List (Except Text Xml.Event)} {unescape : Text → Except Text Text}

theorem IsWritten.line {indent name : String} (hindent : ∀ c ∈ indent.toList, isBlank c = true)
    (hname : IsName name.toList) (text : Option String) : IsWritten (line indent name text) :=
  IsWritten.optionElim (fun text ↦ (IsWritten.layout hindent).append
    ((IsWritten.text hname text).append (.layout (by decide)))) text

theorem IsWritten.block {indent name : String} (hindent : ∀ c ∈ indent.toList, isBlank c = true)
    (hname : IsName name.toList) {inner : Option (List Piece)}
    (h : ∀ pieces ∈ inner, IsWritten pieces) : IsWritten (block indent name inner) := by
  cases inner with
  | none => exact .nil
  | some pieces =>
    exact (IsWritten.layout hindent).append ((IsWritten.element hname noAttributes
      ((IsWritten.layout (by decide)).append ((h pieces rfl).append (.layout hindent)))).append
        (.layout (by decide)))

theorem filterPieces_isWritten (filter : Lifecycle.Filter) : IsWritten (filterPieces filter) :=
  (IsWritten.line (by decide) (by decide) _).append (.flatMap fun tag _ ↦
    .block (by decide) (by decide) fun pieces hpieces ↦ by
      rw [← Option.some.inj hpieces]
      exact (IsWritten.line (by decide) (by decide) _).append (.line (by decide) (by decide) _))

theorem rulePieces_isWritten (rule : Lifecycle.Rule) : IsWritten (rulePieces rule) := by
  refine (IsWritten.line (by decide) (by decide) _).append
    ((IsWritten.line (by decide) (by decide) _).append
    ((IsWritten.block (by decide) (by decide) fun pieces hpieces ↦ ?_).append
    ((IsWritten.block (by decide) (by decide) fun pieces hpieces ↦ ?_).append
    ((IsWritten.block (by decide) (by decide) fun pieces hpieces ↦ ?_).append
    (.flatMap fun transition _ ↦ .block (by decide) (by decide) fun pieces hpieces ↦ ?_)))))
  · obtain ⟨filter, -, rfl⟩ := Option.map_eq_some_iff.1 hpieces
    exact filterPieces_isWritten filter
  · obtain ⟨expiration, -, rfl⟩ := Option.map_eq_some_iff.1 hpieces
    exact (IsWritten.line (by decide) (by decide) _).append
      ((IsWritten.line (by decide) (by decide) _).append (.line (by decide) (by decide) _))
  · obtain ⟨days, -, rfl⟩ := Option.map_eq_some_iff.1 hpieces
    exact .line (by decide) (by decide) _
  · rw [← Option.some.inj hpieces]
    exact (IsWritten.line (by decide) (by decide) _).append
      ((IsWritten.line (by decide) (by decide) _).append (.line (by decide) (by decide) _))

theorem lifecycleRoot_isWritten (rules : List Lifecycle.Rule) : IsWritten (lifecycleRoot rules) :=
  (IsWritten.layout (by decide)).append (.flatMap fun rule _ ↦
    .block (by decide) (by decide) fun pieces hpieces ↦ by
      rw [← Option.some.inj hpieces]
      exact rulePieces_isWritten rule)

/-! ### What is reported -/

/-- What a lifecycle document keeps of a text. -/
def Survives (text : String) : Prop := text.toList = [] ∨ IsPlain text.toList

instance (text : String) : Decidable (Survives text) := inferInstanceAs (Decidable (_ ∨ _))

/-- The texts of a filter. -/
def filterStrings (filter : Lifecycle.Filter) : List String :=
  (filter.keyPrefix.map String.ofList).toList ++ filter.tags.flatMap fun tag ↦ [tag.key, tag.value]

/-- The texts of a rule. -/
def ruleStrings (rule : Lifecycle.Rule) : List String :=
  rule.id.toList ++ (rule.filter.toList.flatMap filterStrings ++
    (rule.expiration.toList.flatMap (·.date.toList) ++ rule.transitions.flatMap (·.date.toList)))

/-- The events of an element with a text. -/
def lineEvents (name : String) (text : Option String) : List Xml.Event :=
  text.elim [] fun text ↦
    .start name.toList [] :: (textEvents text.toList ++ [.stop name.toList])

/-- The events of an element with other elements. -/
def blockEvents (name : String) (inner : Option (List Xml.Event)) : List Xml.Event :=
  inner.elim [] fun inner ↦ .start name.toList [] :: (inner ++ [.stop name.toList])

theorem emits_line {indent : String} (hindent : ∀ c ∈ indent.toList, isBlank c = true)
    (name : String) {text : Option String} (h : ∀ t ∈ text, Survives t) :
    Emits (line indent name text) (lineEvents name text) := by
  cases text with
  | none => exact .nil
  | some text =>
    have hline := (Emits.chars hindent).append ((Emits.text (h text rfl) name.toList).append
      (Emits.chars (t := "\n".toList) (by decide)))
    rw [List.nil_append, List.append_nil] at hline
    exact hline

theorem emits_block {indent : String} (hindent : ∀ c ∈ indent.toList, isBlank c = true)
    (name : String) {α : Type} {pieces : α → List Piece} {events : α → List Xml.Event}
    {inner : Option α} (h : ∀ a ∈ inner, Emits (pieces a) (events a)) :
    Emits (block indent name (inner.map pieces)) (blockEvents name (inner.map events)) := by
  cases inner with
  | none => exact .nil
  | some a =>
    have hinner := (Emits.chars (t := "\n".toList) (by decide)).append
      ((h a rfl).append (Emits.chars hindent))
    rw [List.nil_append, List.append_nil] at hinner
    have hblock := (Emits.chars hindent).append ((hinner.element name.toList []).append
      (Emits.chars (t := "\n".toList) (by decide)))
    rw [List.nil_append, List.append_nil] at hblock
    exact hblock

theorem emits_some_block {indent : String} (hindent : ∀ c ∈ indent.toList, isBlank c = true)
    (name : String) {pieces : List Piece} {events : List Xml.Event} (h : Emits pieces events) :
    Emits (block indent name (some pieces)) (blockEvents name (some events)) :=
  @emits_block _ hindent name Unit (fun _ ↦ pieces) (fun _ ↦ events) (some ()) fun _ _ ↦ h

/-- The events of a tag. -/
def tagLines (tag : Lifecycle.Tag) : List Xml.Event :=
  lineEvents "Key" (some tag.key) ++ lineEvents "Value" (some tag.value)

/-- The events of a filter. -/
def filterEvents (filter : Lifecycle.Filter) : List Xml.Event :=
  lineEvents "Prefix" (filter.keyPrefix.map String.ofList) ++
    filter.tags.flatMap fun tag ↦ blockEvents "Tag" (some (tagLines tag))

/-- The events of an expiration. -/
def expirationEvents (expiration : Lifecycle.Expiration) : List Xml.Event :=
  lineEvents "Days" (expiration.days.map toString) ++ (lineEvents "Date" expiration.date ++
    lineEvents "ExpiredObjectDeleteMarker" (expiration.expiredObjectDeleteMarker.map boolText))

/-- The events of a transition. -/
def transitionEvents (transition : Lifecycle.Transition) : List Xml.Event :=
  lineEvents "Days" (transition.days.map toString) ++ (lineEvents "Date" transition.date ++
    lineEvents "StorageClass" (some (Lifecycle.storageClassToStr transition.storageClass)))

/-- The events of a rule. -/
def ruleEvents (rule : Lifecycle.Rule) : List Xml.Event :=
  lineEvents "ID" rule.id ++ (lineEvents "Status" (some (statusText rule.status)) ++
    (blockEvents "Filter" (rule.filter.map filterEvents) ++
      (blockEvents "Expiration" (rule.expiration.map expirationEvents) ++
        (blockEvents "NoncurrentVersionExpiration" (rule.noncurrentDays.map fun days ↦
          lineEvents "NoncurrentDays" (some (toString days))) ++
          rule.transitions.flatMap fun transition ↦
            blockEvents "Transition" (some (transitionEvents transition))))))

/-- A number survives. -/
theorem survives_toString (n : ℕ) : Survives (toString n) := by
  refine .inr ?_
  rw [toList_toString]
  refine isPlain_of_forall (toDigits_ne_nil n) fun c hc ↦ ?_
  have hdigit := List.all_eq_true.1 (all_isDigit_toDigits n) c hc
  have hneither : ∀ d : Char, d.isDigit = false → c ≠ d := by
    rintro d hd rfl
    rw [hdigit] at hd
    cases hd
  refine ⟨?_, ?_⟩
  · simp only [isBlank, Bool.or_eq_false_iff, decide_eq_false_iff_not]
    exact ⟨⟨⟨hneither _ (by decide), hneither _ (by decide)⟩, hneither _ (by decide)⟩,
      hneither _ (by decide)⟩
  · refine decide_eq_false fun hmem ↦ ?_
    simp only [references, List.map_cons, List.map_nil, List.mem_cons, List.not_mem_nil,
      or_false] at hmem
    rcases hmem with rfl | rfl | rfl | rfl | rfl <;> exact absurd hdigit (by decide)

theorem emits_filter {filter : Lifecycle.Filter} (h : ∀ t ∈ filterStrings filter, Survives t) :
    Emits (filterPieces filter) (filterEvents filter) := by
  refine (emits_line (by decide) _ fun t ht ↦ h t (List.mem_append_left _
    (Option.mem_toList.2 ht))).append (.flatMap fun tag htag ↦ ?_)
  have hmem : ∀ t ∈ [tag.key, tag.value], Survives t := fun t ht ↦
    h t (List.mem_append_right _ (List.mem_flatMap.2 ⟨tag, htag, ht⟩))
  have hkey : ∀ t ∈ some tag.key, Survives t := fun t ht ↦
    hmem t (Option.some.inj ht ▸ List.mem_cons_self)
  have hvalue : ∀ t ∈ some tag.value, Survives t := fun t ht ↦
    hmem t (Option.some.inj ht ▸ List.mem_cons_of_mem _ (List.mem_singleton_self _))
  have hlines : Emits (line "        " "Key" (some tag.key) ++
      line "        " "Value" (some tag.value)) (tagLines tag) :=
    (emits_line (by decide) _ hkey).append (emits_line (by decide) _ hvalue)
  exact emits_some_block (by decide) _ hlines

theorem survives_days (days : Option ℕ) : ∀ t ∈ days.map toString, Survives t := by
  intro t ht
  obtain ⟨n, -, rfl⟩ := Option.map_eq_some_iff.1 ht
  exact survives_toString n

theorem emits_expiration {expiration : Lifecycle.Expiration}
    (h : ∀ t ∈ expiration.date, Survives t) :
    Emits (expirationPieces expiration) (expirationEvents expiration) := by
  have hmarker : ∀ t ∈ expiration.expiredObjectDeleteMarker.map boolText, Survives t := by
    intro t ht
    obtain ⟨b, -, rfl⟩ := Option.map_eq_some_iff.1 ht
    cases b <;> decide
  exact (emits_line (by decide) _ (survives_days _)).append
    ((emits_line (by decide) _ h).append (emits_line (by decide) _ hmarker))

theorem emits_transition {transition : Lifecycle.Transition}
    (h : ∀ t ∈ transition.date, Survives t) :
    Emits (transitionPieces transition) (transitionEvents transition) := by
  have hclass : ∀ t ∈ some (Lifecycle.storageClassToStr transition.storageClass), Survives t := by
    intro t ht
    rw [← Option.some.inj ht]
    cases transition.storageClass <;> decide
  exact (emits_line (by decide) _ (survives_days _)).append
    ((emits_line (by decide) _ h).append (emits_line (by decide) _ hclass))

theorem emits_rule {rule : Lifecycle.Rule} (h : ∀ t ∈ ruleStrings rule, Survives t) :
    Emits (rulePieces rule) (ruleEvents rule) := by
  have hid : ∀ t ∈ rule.id, Survives t := fun t ht ↦
    h t (List.mem_append_left _ (Option.mem_toList.2 ht))
  have hfilter : ∀ filter ∈ rule.filter, ∀ t ∈ filterStrings filter, Survives t :=
    fun filter hfilter t ht ↦ h t (List.mem_append_right _ (List.mem_append_left _
      (List.mem_flatMap.2 ⟨filter, Option.mem_toList.2 hfilter, ht⟩)))
  have hexpiration : ∀ expiration ∈ rule.expiration, ∀ t ∈ expiration.date, Survives t :=
    fun expiration hexp t ht ↦ h t (List.mem_append_right _ (List.mem_append_right _
      (List.mem_append_left _ (List.mem_flatMap.2 ⟨expiration, Option.mem_toList.2 hexp,
        Option.mem_toList.2 ht⟩))))
  have htransition : ∀ transition ∈ rule.transitions, ∀ t ∈ transition.date, Survives t :=
    fun transition htr t ht ↦ h t (List.mem_append_right _ (List.mem_append_right _
      (List.mem_append_right _ (List.mem_flatMap.2 ⟨transition, htr, Option.mem_toList.2 ht⟩))))
  have hstatus : ∀ t ∈ some (statusText rule.status), Survives t := by
    intro t ht
    rw [← Option.some.inj ht]
    cases rule.status <;> decide
  have hnoncurrent : ∀ days ∈ rule.noncurrentDays, Emits
      (line "      " "NoncurrentDays" (some (toString days)))
      (lineEvents "NoncurrentDays" (some (toString days))) := fun days _ ↦
    emits_line (by decide) _ (survives_days (some days))
  refine (emits_line (by decide) _ hid).append ((emits_line (by decide) _ hstatus).append
    ((emits_block (by decide) _ fun filter hf ↦ emits_filter (hfilter filter hf)).append
    ((emits_block (by decide) _ fun expiration hexp ↦ ?_).append
    ((emits_block (by decide) _ hnoncurrent).append (.flatMap fun transition htr ↦ ?_)))))
  · exact emits_expiration (hexpiration expiration hexp)
  · exact emits_some_block (by decide) _ (emits_transition (htransition transition htr))

theorem emits_lifecycleRoot {rules : List Lifecycle.Rule}
    (h : ∀ rule ∈ rules, ∀ t ∈ ruleStrings rule, Survives t) :
    Emits (lifecycleRoot rules)
      (rules.flatMap fun rule ↦ blockEvents "Rule" (some (ruleEvents rule))) := by
  have hrules : Emits (rules.flatMap fun rule ↦ block "  " "Rule" (some (rulePieces rule)))
      (rules.flatMap fun rule ↦ blockEvents "Rule" (some (ruleEvents rule))) := by
    refine Emits.flatMap fun rule hrule ↦ ?_
    exact emits_some_block (by decide) _ (emits_rule (h rule hrule))
  exact (Emits.chars (t := "\n".toList) (by decide)).append hrules

/-! ### What is read -/

theorem ofName_elementName (e : LifecycleElement) :
    LifecycleElement.ofName e.name.toList = some e := by
  cases e <;> rfl

/-- What the end of an element does with the text in it. -/
def LifecycleParseState.stopped (s : LifecycleParseState) (e : LifecycleElement) :
    LifecycleParseState :=
  { (((s.endRuleField e).endFilterField e).endActionField e).closeElement e with text := "" }

theorem stop_elementName (s : LifecycleParseState) (e : LifecycleElement) :
    s.stop e.name.toList = s.stopped e := by
  unfold LifecycleParseState.stop
  rw [ofName_elementName]
  rfl

/-- The elements that hold a text. -/
def LifecycleElement.isLine : LifecycleElement → Bool
  | .id | .status | .keyPrefix | .key | .value | .days | .date | .expiredObjectDeleteMarker
  | .noncurrentDays | .storageClass => true
  | _ => false

theorem start_line {e : LifecycleElement} (he : e.isLine = true) (s : LifecycleParseState) :
    s.start e.name.toList = { s with text := "" } := by
  unfold LifecycleParseState.start
  rw [ofName_elementName]
  cases e with
  | id | status | keyPrefix | key | value | days | date | expiredObjectDeleteMarker
  | noncurrentDays | storageClass => rfl
  | rule | filter | tag | expiration | noncurrentVersionExpiration | transition => cases he

/-- **The text of an element is there at its end.** -/
theorem foldl_line (hresolves : Resolves unescape) {e : LifecycleElement} (he : e.isLine = true)
    {text : String} (h : Survives text) (s : LifecycleParseState) :
    (lineEvents e.name (some text)).foldl (LifecycleParseState.apply unescape) s =
      ({ s with text := text } : LifecycleParseState).stopped e := by
  show (textEvents text.toList ++ [Event.stop e.name.toList]).foldl
      (LifecycleParseState.apply unescape)
    (s.start e.name.toList) = _
  rw [start_line he, ← stop_elementName]
  rcases h with hnil | hplain
  · have hempty : text = "" := by rw [← String.ofList_toList (s := text), hnil]
    rw [hempty]
    rfl
  · rw [textEvents, if_neg hplain.1]
    show LifecycleParseState.stop { s with
      text := ((unescape text.toList).toOption.map String.ofList).getD "" } _ = _
    rw [unescape_plain hresolves hplain]
    show LifecycleParseState.stop { s with text := String.ofList text.toList } _ = _
    rw [String.ofList_toList]

theorem foldl_block {e : LifecycleElement} {inner : List Xml.Event} (s : LifecycleParseState) :
    (blockEvents e.name (some inner)).foldl (LifecycleParseState.apply unescape) s =
      (inner.foldl (LifecycleParseState.apply unescape) (s.start e.name.toList)).stopped e := by
  show (inner ++ [Event.stop e.name.toList]).foldl (LifecycleParseState.apply unescape)
    (s.start e.name.toList) = _
  rw [List.foldl_append, ← stop_elementName]
  rfl

theorem parseU32_toString {n : ℕ} (h : n < 2 ^ 32) : parseU32 (toString n) = some n := by
  rw [parseU32, parseU64_toString (lt_trans h (by decide)), Option.filter_some, if_pos]
  exact decide_eq_true h

/-- The numbers of a rule are those of the source. -/
def InRange (rule : Lifecycle.Rule) : Prop :=
  (∀ expiration ∈ rule.expiration, ∀ days ∈ expiration.days, days < 2 ^ 32) ∧
    (∀ days ∈ rule.noncurrentDays, days < 2 ^ 32) ∧
    ∀ transition ∈ rule.transitions, ∀ days ∈ transition.days, days < 2 ^ 32

instance (rule : Lifecycle.Rule) : Decidable (InRange rule) :=
  inferInstanceAs (Decidable (_ ∧ _ ∧ _))

/-- The state in a rule. -/
def inRule (rules : List Lifecycle.Rule) (rule : Lifecycle.Rule) : LifecycleParseState :=
  { rules := rules, currentRule := some rule }

section Fold

variable (hresolves : Resolves unescape) {rules : List Lifecycle.Rule} {rule : Lifecycle.Rule}

include hresolves

theorem fold_id (hnone : rule.id = none) {text : Option String} (h : ∀ t ∈ text, Survives t) :
    (lineEvents "ID" text).foldl (LifecycleParseState.apply unescape) (inRule rules rule) =
      inRule rules { rule with id := text } := by
  cases text with
  | none =>
    obtain ⟨id, status, filter, expiration, noncurrentDays, transitions⟩ := rule
    cases hnone
    rfl
  | some text => exact (foldl_line hresolves (e := .id) rfl (h text rfl) _).trans rfl

theorem fold_status (status : Lifecycle.Status) :
    (lineEvents "Status" (some (statusText status))).foldl
        (LifecycleParseState.apply unescape) (inRule rules rule) =
      inRule rules { rule with status := status } := by
  have hsurvives : Survives (statusText status) := by cases status <;> decide
  refine (foldl_line hresolves (e := .status) rfl hsurvives _).trans ?_
  cases status <;> rfl

/-- The state in a filter. -/
theorem fold_tagBlock (filter : Lifecycle.Filter) {tag : Lifecycle.Tag}
    (hkey : Survives tag.key) (hvalue : Survives tag.value) :
    (blockEvents "Tag" (some (tagLines tag))).foldl (LifecycleParseState.apply unescape)
        { inRule rules rule with currentFilter := some filter } =
      { inRule rules rule with
        currentFilter := some { filter with tags := filter.tags ++ [tag] } } := by
  refine (foldl_block (e := .tag) _).trans ?_
  show (((lineEvents "Key" (some tag.key) ++ lineEvents "Value" (some tag.value)).foldl
    (LifecycleParseState.apply unescape) { inRule rules rule with
      currentFilter := some filter, currentTag := some ⟨"", ""⟩ })).stopped .tag = _
  have hfirst := foldl_line hresolves (e := .key) rfl hkey { inRule rules rule with
    currentFilter := some filter, currentTag := some ⟨"", ""⟩ }
  have hsecond := foldl_line hresolves (e := .value) rfl hvalue { inRule rules rule with
    currentFilter := some filter, currentTag := some ⟨tag.key, ""⟩ }
  rw [List.foldl_append]
  exact congrArg (LifecycleParseState.stopped · .tag)
    ((congrArg (List.foldl (LifecycleParseState.apply unescape) · _) hfirst).trans hsecond)

theorem fold_tagBlocks {tags : List Lifecycle.Tag}
    (h : ∀ tag ∈ tags, Survives tag.key ∧ Survives tag.value) (filter : Lifecycle.Filter) :
    (tags.flatMap fun tag ↦ blockEvents "Tag" (some (tagLines tag))).foldl
        (LifecycleParseState.apply unescape)
        { inRule rules rule with currentFilter := some filter } =
      { inRule rules rule with
        currentFilter := some { filter with tags := filter.tags ++ tags } } := by
  induction tags generalizing filter with
  | nil =>
    rw [List.append_nil]
    rfl
  | cons tag tags ih =>
    obtain ⟨⟨hkey, hvalue⟩, hrest⟩ := List.forall_mem_cons.1 h
    rw [List.flatMap_cons, List.foldl_append, fold_tagBlock hresolves filter hkey hvalue, ih hrest,
      List.append_assoc]
    rfl

theorem fold_filter (hnone : rule.filter = none) {filter : Option Lifecycle.Filter}
    (h : ∀ f ∈ filter, ∀ t ∈ filterStrings f, Survives t) :
    (blockEvents "Filter" (filter.map filterEvents)).foldl (LifecycleParseState.apply unescape)
        (inRule rules rule) = inRule rules { rule with filter := filter } := by
  cases filter with
  | none =>
    obtain ⟨id, status, filter, expiration, noncurrentDays, transitions⟩ := rule
    cases hnone
    rfl
  | some filter =>
    have hstrings := h filter rfl
    have hpre : ∀ t ∈ filter.keyPrefix.map String.ofList, Survives t := fun t ht ↦
      hstrings t (List.mem_append_left _ (Option.mem_toList.2 ht))
    have htags : ∀ tag ∈ filter.tags, Survives tag.key ∧ Survives tag.value := fun tag htag ↦
      ⟨hstrings _ (List.mem_append_right _ (List.mem_flatMap.2 ⟨tag, htag, List.mem_cons_self⟩)),
        hstrings _ (List.mem_append_right _ (List.mem_flatMap.2 ⟨tag, htag,
          List.mem_cons_of_mem _ (List.mem_singleton_self _)⟩))⟩
    refine (foldl_block (e := .filter) _).trans ?_
    have hline : (lineEvents "Prefix" (filter.keyPrefix.map String.ofList)).foldl
        (LifecycleParseState.apply unescape) { inRule rules rule with currentFilter := some {} } =
          { inRule rules rule with currentFilter := some ⟨filter.keyPrefix, []⟩ } := by
      cases hcase : filter.keyPrefix with
      | none => rfl
      | some pre =>
        rw [hcase] at hpre
        refine (foldl_line hresolves (e := .keyPrefix) rfl (hpre _ rfl) _).trans ?_
        show { inRule rules rule with
          currentFilter := some ⟨some (String.ofList pre).toList, []⟩ } = _
        rw [String.toList_ofList]
    show ((lineEvents "Prefix" (filter.keyPrefix.map String.ofList) ++
      filter.tags.flatMap fun tag ↦ blockEvents "Tag" (some (tagLines tag))).foldl
        (LifecycleParseState.apply unescape)
          { inRule rules rule with currentFilter := some {} }).stopped .filter = _
    rw [List.foldl_append, hline, fold_tagBlocks hresolves htags]
    rfl

theorem fold_expiration (hnone : rule.expiration = none) {expiration : Option Lifecycle.Expiration}
    (hdate : ∀ e ∈ expiration, ∀ t ∈ e.date, Survives t)
    (hdays : ∀ e ∈ expiration, ∀ days ∈ e.days, days < 2 ^ 32) :
    (blockEvents "Expiration" (expiration.map expirationEvents)).foldl
        (LifecycleParseState.apply unescape)
        (inRule rules rule) = inRule rules { rule with expiration := expiration } := by
  cases expiration with
  | none =>
    obtain ⟨id, status, filter, expiration, noncurrentDays, transitions⟩ := rule
    cases hnone
    rfl
  | some expiration =>
    obtain ⟨days, date, marker⟩ := expiration
    have hfirst : (lineEvents "Days" (days.map toString)).foldl (LifecycleParseState.apply unescape)
        { inRule rules rule with currentExpiration := some {} } =
          { inRule rules rule with currentExpiration := some { days := days } } := by
      cases days with
      | none => rfl
      | some days =>
        refine (foldl_line hresolves (e := .days) rfl (survives_toString days) _).trans ?_
        show { (({ inRule rules rule with
          currentExpiration := some {}, text := toString days } : LifecycleParseState).setDays) with
            text := "" } = _
        unfold LifecycleParseState.setDays
        dsimp only
        rw [parseU32_toString (hdays _ rfl _ rfl)]
        rfl
    have hsecond : (lineEvents "Date" date).foldl (LifecycleParseState.apply unescape)
        { inRule rules rule with currentExpiration := some { days := days } } =
          { inRule rules rule with currentExpiration := some { days := days, date := date } } := by
      cases date with
      | none => rfl
      | some date => exact (foldl_line hresolves (e := .date) rfl (hdate _ rfl _ rfl) _).trans rfl
    have hthird : (lineEvents "ExpiredObjectDeleteMarker" (marker.map boolText)).foldl
        (LifecycleParseState.apply unescape)
        { inRule rules rule with currentExpiration := some { days := days, date := date } } =
          { inRule rules rule with currentExpiration := some ⟨days, date, marker⟩ } := by
      cases marker with
      | none => rfl
      | some marker =>
        have hsurvives : Survives (boolText marker) := by cases marker <;> decide
        refine (foldl_line hresolves (e := .expiredObjectDeleteMarker) rfl hsurvives _).trans ?_
        cases marker <;> rfl
    refine (foldl_block (e := .expiration) _).trans ?_
    show ((lineEvents "Days" (days.map toString) ++ (lineEvents "Date" date ++
      lineEvents "ExpiredObjectDeleteMarker" (marker.map boolText))).foldl
          (LifecycleParseState.apply unescape)
        { inRule rules rule with currentExpiration := some {} }).stopped .expiration = _
    rw [List.foldl_append, hfirst, List.foldl_append, hsecond, hthird]
    rfl

theorem fold_noncurrent (hnone : rule.noncurrentDays = none) {days : Option ℕ}
    (hdays : ∀ n ∈ days, n < 2 ^ 32) :
    (blockEvents "NoncurrentVersionExpiration" (days.map fun n ↦
        lineEvents "NoncurrentDays" (some (toString n)))).foldl (LifecycleParseState.apply unescape)
        (inRule rules rule) = inRule rules { rule with noncurrentDays := days } := by
  cases days with
  | none =>
    obtain ⟨id, status, filter, expiration, noncurrentDays, transitions⟩ := rule
    cases hnone
    rfl
  | some n =>
    refine (foldl_block (e := .noncurrentVersionExpiration) _).trans ?_
    refine (congrArg (LifecycleParseState.stopped · .noncurrentVersionExpiration)
      (foldl_line hresolves (e := .noncurrentDays) rfl (survives_toString n) _)).trans ?_
    show LifecycleParseState.stopped { (({ inRule rules rule with
      currentNoncurrentDays := some 0, text := toString n } :
        LifecycleParseState).setNoncurrentDays) with text := "" } .noncurrentVersionExpiration = _
    unfold LifecycleParseState.setNoncurrentDays
    dsimp only
    rw [parseU32_toString (hdays n rfl)]
    rfl

theorem fold_transition {transition : Lifecycle.Transition}
    (hdate : ∀ t ∈ transition.date, Survives t) (hdays : ∀ n ∈ transition.days, n < 2 ^ 32) :
    (blockEvents "Transition" (some (transitionEvents transition))).foldl
        (LifecycleParseState.apply unescape)
        (inRule rules rule) =
      inRule rules { rule with transitions := rule.transitions ++ [transition] } := by
  obtain ⟨days, date, storageClass⟩ := transition
  have hfirst : (lineEvents "Days" (days.map toString)).foldl (LifecycleParseState.apply unescape)
      { inRule rules rule with currentTransition := some { storageClass := .standard } } =
        { inRule rules rule with
          currentTransition := some { days := days, storageClass := .standard } } := by
    cases days with
    | none => rfl
    | some days =>
      refine (foldl_line hresolves (e := .days) rfl (survives_toString days) _).trans ?_
      show { (({ inRule rules rule with
        currentTransition := some { storageClass := .standard }, text := toString days } :
          LifecycleParseState).setDays) with text := "" } = _
      unfold LifecycleParseState.setDays
      dsimp only
      rw [parseU32_toString (hdays _ rfl)]
      rfl
  have hsecond : (lineEvents "Date" date).foldl (LifecycleParseState.apply unescape)
      { inRule rules rule with
        currentTransition := some { days := days, storageClass := .standard } } =
        { inRule rules rule with currentTransition := some ⟨days, date, .standard⟩ } := by
    cases date with
    | none => rfl
    | some date => exact (foldl_line hresolves (e := .date) rfl (hdate _ rfl) _).trans rfl
  have hthird : (lineEvents "StorageClass"
      (some (Lifecycle.storageClassToStr storageClass))).foldl (LifecycleParseState.apply unescape)
      { inRule rules rule with currentTransition := some ⟨days, date, .standard⟩ } =
        { inRule rules rule with currentTransition := some ⟨days, date, storageClass⟩ } := by
    have hsurvives : Survives (Lifecycle.storageClassToStr storageClass) := by
      cases storageClass <;> decide
    refine (foldl_line hresolves (e := .storageClass) rfl hsurvives _).trans ?_
    cases storageClass <;> rfl
  refine (foldl_block (e := .transition) _).trans ?_
  show ((lineEvents "Days" (days.map toString) ++ (lineEvents "Date" date ++
    lineEvents "StorageClass" (some (Lifecycle.storageClassToStr storageClass)))).foldl
      (LifecycleParseState.apply unescape) { inRule rules rule with
        currentTransition := some { storageClass := .standard } }).stopped .transition = _
  rw [List.foldl_append, hfirst, List.foldl_append, hsecond, hthird]
  rfl

theorem fold_transitions {transitions : List Lifecycle.Transition}
    (h : ∀ transition ∈ transitions, (∀ t ∈ transition.date, Survives t) ∧
      ∀ n ∈ transition.days, n < 2 ^ 32) :
    (transitions.flatMap fun transition ↦
        blockEvents "Transition" (some (transitionEvents transition))).foldl
            (LifecycleParseState.apply unescape)
        (inRule rules rule) =
      inRule rules { rule with transitions := rule.transitions ++ transitions } := by
  induction transitions generalizing rule with
  | nil =>
    rw [List.append_nil]
    rfl
  | cons transition transitions ih =>
    obtain ⟨⟨hdate, hdays⟩, hrest⟩ := List.forall_mem_cons.1 h
    rw [List.flatMap_cons, List.foldl_append, fold_transition hresolves hdate hdays, ih hrest,
      List.append_assoc]
    rfl

/-- **A rule that is read is added to the others.** -/
theorem fold_rule (h : ∀ t ∈ ruleStrings rule, Survives t) (hrange : InRange rule) :
    (blockEvents "Rule" (some (ruleEvents rule))).foldl
        (LifecycleParseState.apply unescape) { rules := rules } =
      { rules := rules ++ [rule] } := by
  obtain ⟨id, status, filter, expiration, noncurrentDays, transitions⟩ := rule
  refine (foldl_block (e := .rule) _).trans ?_
  have hid : ∀ t ∈ id, Survives t := fun t ht ↦
    h t (List.mem_append_left _ (Option.mem_toList.2 ht))
  have hfilter : ∀ f ∈ filter, ∀ t ∈ filterStrings f, Survives t := fun f hf t ht ↦
    h t (List.mem_append_right _ (List.mem_append_left _
      (List.mem_flatMap.2 ⟨f, Option.mem_toList.2 hf, ht⟩)))
  have hdate : ∀ e ∈ expiration, ∀ t ∈ e.date, Survives t := fun e he t ht ↦
    h t (List.mem_append_right _ (List.mem_append_right _ (List.mem_append_left _
      (List.mem_flatMap.2 ⟨e, Option.mem_toList.2 he, Option.mem_toList.2 ht⟩))))
  have htransitions : ∀ transition ∈ transitions, (∀ t ∈ transition.date, Survives t) ∧
      ∀ n ∈ transition.days, n < 2 ^ 32 := fun transition htr ↦
    ⟨fun t ht ↦ h t (List.mem_append_right _ (List.mem_append_right _ (List.mem_append_right _
      (List.mem_flatMap.2 ⟨transition, htr, Option.mem_toList.2 ht⟩)))), hrange.2.2 transition htr⟩
  have hfold : (ruleEvents ⟨id, status, filter, expiration, noncurrentDays, transitions⟩).foldl
      (LifecycleParseState.apply unescape) (inRule rules { status := .disabled }) =
        inRule rules ⟨id, status, filter, expiration, noncurrentDays, transitions⟩ := by
    unfold ruleEvents
    rw [List.foldl_append, fold_id hresolves rfl hid, List.foldl_append, fold_status hresolves,
      List.foldl_append, fold_filter hresolves rfl hfilter, List.foldl_append,
      fold_expiration hresolves rfl hdate hrange.1, List.foldl_append,
      fold_noncurrent hresolves rfl hrange.2.1, fold_transitions hresolves htransitions]
    rfl
  exact (congrArg (LifecycleParseState.stopped · .rule) hfold).trans rfl

theorem fold_rules {added : List Lifecycle.Rule}
    (h : ∀ rule ∈ added, (∀ t ∈ ruleStrings rule, Survives t) ∧ InRange rule) :
    (added.flatMap fun rule ↦ blockEvents "Rule" (some (ruleEvents rule))).foldl
        (LifecycleParseState.apply unescape) { rules := rules } = { rules := rules ++ added } := by
  induction added generalizing rules with
  | nil =>
    rw [List.append_nil]
    rfl
  | cons rule added ih =>
    obtain ⟨⟨hstrings, hrange⟩, hrest⟩ := List.forall_mem_cons.1 h
    rw [List.flatMap_cons, List.foldl_append, fold_rule hresolves hstrings hrange, ih hrest,
      List.append_assoc]
    rfl

end Fold

/-! ### What is kept -/

/-- The texts of a rule survive. -/
def RuleKept (rule : Lifecycle.Rule) : Prop := ∀ t ∈ ruleStrings rule, Survives t

theorem ruleKept_iff {rule : Lifecycle.Rule} :
    RuleKept rule ↔ (∀ t ∈ rule.id, Survives t) ∧
      (∀ f ∈ rule.filter, ∀ t ∈ filterStrings f, Survives t) ∧
      (∀ e ∈ rule.expiration, ∀ t ∈ e.date, Survives t) ∧
      ∀ transition ∈ rule.transitions, ∀ t ∈ transition.date, Survives t := by
  simp only [RuleKept, ruleStrings, List.forall_mem_append, List.forall_mem_flatMap,
    Option.mem_toList, Option.mem_def]

theorem filterStrings_kept_iff {filter : Lifecycle.Filter} :
    (∀ t ∈ filterStrings filter, Survives t) ↔
      (∀ pre ∈ filter.keyPrefix, Survives (String.ofList pre)) ∧
        ∀ tag ∈ filter.tags, Survives tag.key ∧ Survives tag.value := by
  have hpre : (∀ t ∈ (filter.keyPrefix.map String.ofList).toList, Survives t) ↔
      ∀ pre ∈ filter.keyPrefix, Survives (String.ofList pre) := by
    cases filter.keyPrefix with
    | none => exact ⟨fun _ _ h ↦ (by cases h), fun _ _ h ↦ (by cases h)⟩
    | some pre =>
      exact ⟨fun h _ ht ↦ Option.some.inj ht ▸ h _ (List.mem_singleton_self _),
        fun h _ ht ↦ List.mem_singleton.1 ht ▸ h pre rfl⟩
  unfold filterStrings
  rw [List.forall_mem_append, hpre, List.forall_mem_flatMap]
  simp only [List.forall_mem_cons, List.not_mem_nil, false_implies, implies_true, and_true]

/-- **What a parser of rules holds survives.** -/
structure LifecycleParseState.Kept (s : LifecycleParseState) : Prop where
  rules : ∀ rule ∈ s.rules, RuleKept rule
  rule : ∀ rule ∈ s.currentRule, RuleKept rule
  filter : ∀ filter ∈ s.currentFilter, ∀ t ∈ filterStrings filter, Survives t
  expiration : ∀ expiration ∈ s.currentExpiration, ∀ t ∈ expiration.date, Survives t
  transition : ∀ transition ∈ s.currentTransition, ∀ t ∈ transition.date, Survives t
  tag : ∀ tag ∈ s.currentTag, Survives tag.key ∧ Survives tag.value
  text : Survives s.text

namespace LifecycleParseState

variable {s : LifecycleParseState}

theorem survives_empty : Survives "" := .inl rfl

theorem Kept.withText (h : s.Kept) {text : String} (htext : Survives text) :
    ({ s with text := text } : LifecycleParseState).Kept :=
  { h with text := htext }

theorem Kept.start (h : s.Kept) (name : Text) : (s.start name).Kept := by
  refine Kept.withText ?_ survives_empty
  split
  · refine { h with rule := fun rule hrule ↦ ?_ }
    rw [← Option.some.inj hrule]
    exact fun t ht ↦ absurd ht List.not_mem_nil
  · refine { h with filter := fun filter hfilter ↦ ?_ }
    rw [← Option.some.inj hfilter]
    exact fun t ht ↦ absurd ht List.not_mem_nil
  · refine { h with expiration := fun expiration hexpiration t ht ↦ ?_ }
    rw [← Option.some.inj hexpiration] at ht
    cases ht
  · exact { h with }
  · refine { h with transition := fun transition htransition t ht ↦ ?_ }
    rw [← Option.some.inj htransition] at ht
    cases ht
  · refine { h with tag := fun tag htag ↦ ?_ }
    rw [← Option.some.inj htag]
    exact ⟨survives_empty, survives_empty⟩
  · exact h

theorem Kept.endRuleField (h : s.Kept) (e : LifecycleElement) : (s.endRuleField e).Kept := by
  unfold LifecycleParseState.endRuleField
  split
  · refine { h with rule := fun rule hrule ↦ ?_ }
    obtain ⟨old, hold, rfl⟩ := Option.map_eq_some_iff.1 hrule
    obtain ⟨-, hfilter, hexpiration, htransitions⟩ := ruleKept_iff.1 (h.rule old hold)
    exact ruleKept_iff.2 ⟨fun t ht ↦ Option.some.inj ht ▸ h.text, hfilter, hexpiration,
      htransitions⟩
  · refine { h with rule := fun rule hrule ↦ ?_ }
    obtain ⟨old, hold, rfl⟩ := Option.map_eq_some_iff.1 hrule
    exact ruleKept_iff.2 (ruleKept_iff.1 (h.rule old hold))
  · exact h

theorem Kept.endFilterField (h : s.Kept) (e : LifecycleElement) : (s.endFilterField e).Kept := by
  unfold LifecycleParseState.endFilterField
  split
  · refine { h with filter := fun filter hfilter ↦ ?_ }
    obtain ⟨old, hold, rfl⟩ := Option.map_eq_some_iff.1 hfilter
    refine filterStrings_kept_iff.2 ⟨fun pre hpre ↦ ?_,
      (filterStrings_kept_iff.1 (h.filter old hold)).2⟩
    rw [← Option.some.inj hpre, String.ofList_toList]
    exact h.text
  · refine { h with tag := fun tag htag ↦ ?_ }
    obtain ⟨old, hold, rfl⟩ := Option.map_eq_some_iff.1 htag
    exact ⟨h.text, (h.tag old hold).2⟩
  · refine { h with tag := fun tag htag ↦ ?_ }
    obtain ⟨old, hold, rfl⟩ := Option.map_eq_some_iff.1 htag
    exact ⟨(h.tag old hold).1, h.text⟩
  · unfold LifecycleParseState.finishTag
    split
    · next filter tag hfilter htag =>
      refine { h with filter := fun new hnew ↦ ?_, tag := fun _ h ↦ (by cases h) }
      obtain ⟨hpre, htags⟩ := filterStrings_kept_iff.1 (h.filter filter hfilter)
      rw [← Option.some.inj hnew]
      exact filterStrings_kept_iff.2 ⟨hpre, List.forall_mem_append.2
        ⟨htags, List.forall_mem_singleton.2 (h.tag tag htag)⟩⟩
    · exact { h with tag := fun _ h ↦ (by cases h) }
  · exact h

theorem Kept.endActionField (h : s.Kept) (e : LifecycleElement) : (s.endActionField e).Kept := by
  unfold LifecycleParseState.endActionField
  split
  · unfold LifecycleParseState.setDays
    split
    · next days expiration _ hexpiration =>
      refine { h with expiration := fun new hnew ↦ ?_ }
      rw [← Option.some.inj hnew]
      exact h.expiration expiration hexpiration
    · next days transition _ hexpiration htransition =>
      refine { h with transition := fun new hnew ↦ ?_ }
      rw [← Option.some.inj hnew]
      exact h.transition transition htransition
    · exact h
  · unfold LifecycleParseState.setNoncurrentDays
    split
    · exact { h with }
    · exact h
  · unfold LifecycleParseState.setDate
    split
    · next expiration hexpiration =>
      refine { h with expiration := fun new hnew t ht ↦ ?_ }
      rw [← Option.some.inj hnew] at ht
      exact Option.some.inj ht ▸ h.text
    · refine { h with transition := fun new hnew t ht ↦ ?_ }
      obtain ⟨old, hold, rfl⟩ := Option.map_eq_some_iff.1 hnew
      exact Option.some.inj ht ▸ h.text
  · refine { h with expiration := fun new hnew ↦ ?_ }
    obtain ⟨old, hold, rfl⟩ := Option.map_eq_some_iff.1 hnew
    exact h.expiration old hold
  · refine { h with transition := fun new hnew ↦ ?_ }
    obtain ⟨old, hold, rfl⟩ := Option.map_eq_some_iff.1 hnew
    exact h.transition old hold
  · exact h

theorem Kept.closeElement (h : s.Kept) (e : LifecycleElement) : (s.closeElement e).Kept := by
  have orElse : ∀ {α : Type} {o o' : Option α} {a : α}, a ∈ (o.orElse fun _ ↦ o') →
      a ∈ o ∨ a ∈ o' := by
    intro α o o' a ha
    cases o with
    | none => exact .inr ha
    | some b => exact .inl ha
  unfold LifecycleParseState.closeElement
  split
  · refine { h with filter := fun _ h ↦ (by cases h), rule := fun rule hrule ↦ ?_ }
    obtain ⟨old, hold, rfl⟩ := Option.map_eq_some_iff.1 hrule
    obtain ⟨hid, hfilter, hexpiration, htransitions⟩ := ruleKept_iff.1 (h.rule old hold)
    exact ruleKept_iff.2 ⟨hid, fun f hf ↦ (orElse hf).elim (h.filter f) (hfilter f),
      hexpiration, htransitions⟩
  · refine { h with expiration := fun _ h ↦ (by cases h), rule := fun rule hrule ↦ ?_ }
    obtain ⟨old, hold, rfl⟩ := Option.map_eq_some_iff.1 hrule
    obtain ⟨hid, hfilter, hexpiration, htransitions⟩ := ruleKept_iff.1 (h.rule old hold)
    exact ruleKept_iff.2 ⟨hid, hfilter,
      fun e he ↦ (orElse he).elim (h.expiration e) (hexpiration e), htransitions⟩
  · refine { h with rule := fun rule hrule ↦ ?_ }
    obtain ⟨old, hold, rfl⟩ := Option.map_eq_some_iff.1 hrule
    exact ruleKept_iff.2 (ruleKept_iff.1 (h.rule old hold))
  · refine { h with transition := fun _ h ↦ (by cases h), rule := fun rule hrule ↦ ?_ }
    obtain ⟨old, hold, rfl⟩ := Option.map_eq_some_iff.1 hrule
    obtain ⟨hid, hfilter, hexpiration, htransitions⟩ := ruleKept_iff.1 (h.rule old hold)
    exact ruleKept_iff.2 ⟨hid, hfilter, hexpiration, List.forall_mem_append.2
      ⟨htransitions, fun t ht ↦ h.transition t (Option.mem_toList.1 ht)⟩⟩
  · exact { h with
      rule := fun _ h ↦ (by cases h)
      rules := List.forall_mem_append.2
        ⟨h.rules, fun rule hrule ↦ h.rule rule (Option.mem_toList.1 hrule)⟩ }
  · exact h

theorem Kept.stop (h : s.Kept) (name : Text) : (s.stop name).Kept := by
  refine Kept.withText ?_ survives_empty
  split
  · exact (((h.endRuleField _).endFilterField _).endActionField _).closeElement _
  · exact h

/-- **An event keeps it so**, if a text that is reported is plain. -/
theorem Kept.apply (hresolves : Resolves unescape) (h : s.Kept) {event : Xml.Event}
    (hevent : ∀ t, event = .text t → IsPlain t) : (s.apply unescape event).Kept := by
  cases event with
  | start name attributes => exact h.start name
  | stop name => exact h.stop name
  | text content =>
    refine h.withText (.inr ?_)
    rw [unescape_plain hresolves (hevent content rfl)]
    show IsPlain (String.ofList content).toList
    rw [String.toList_ofList]
    exact hevent content rfl
  | empty | cData | generalRef | docType | aside => exact h

end LifecycleParseState

/-- What a fold keeps of a state. -/
theorem foldl_keeps {σ : Type} {step : σ → Xml.Event → σ} {P : σ → Prop} {l : List Xml.Event}
    (hstep : ∀ s, ∀ event ∈ l, P s → P (step s event)) {s : σ} (hs : P s) :
    P (l.foldl step s) := by
  induction l generalizing s with
  | nil => exact hs
  | cons event l ih =>
    exact ih (fun s e he ↦ hstep s e (List.mem_cons_of_mem _ he))
      (hstep s event List.mem_cons_self hs)

/-- A parser that never fails goes through all events. -/
theorem foldlM_ok {σ : Type} {step : σ → Xml.Event → σ} (l : List Xml.Event) (s : σ) :
    l.foldlM (fun s event ↦ (Except.ok (step s event) : Except Text σ)) s =
      .ok (l.foldl step s) := by
  induction l generalizing s with
  | nil => rfl
  | cons event l ih => exact ih (step s event)

/-- **When rules come back as they were**: exactly if each of their texts is empty or plain. -/
theorem lifecycle_round_trip_iff (hreads : Reads read) (hresolves : Resolves unescape)
    {rules : List Lifecycle.Rule} (hrange : ∀ rule ∈ rules, InRange rule) :
    parseLifecycleXml read unescape (lifecycleXml rules) = .ok rules ↔
      ∀ rule ∈ rules, ∀ t ∈ ruleStrings rule, Survives t := by
  have hparse : parseLifecycleXml read unescape (lifecycleXml rules) =
      .ok ((reported true (declared "LifecycleConfiguration".toList []
        (lifecycleRoot rules))).foldl (LifecycleParseState.apply unescape) {}).rules := by
    have hroot := @parseEvents_declared _ "LifecycleConfiguration".toList [] _ hreads _
      (fun s event ↦ .ok (LifecycleParseState.apply unescape s event)) xmlParseError (by decide)
      (by decide) (lifecycleRoot_isWritten rules) ({} : LifecycleParseState)
    rw [foldlM_ok] at hroot
    exact congrArg (· >>= fun s ↦ .ok (LifecycleParseState.rules s)) hroot
  rw [hparse]
  constructor
  · intro h
    have hkept := @foldl_keeps _ (LifecycleParseState.apply unescape) LifecycleParseState.Kept
      (reported true (declared "LifecycleConfiguration".toList [] (lifecycleRoot rules)))
      (fun s event hevent hs ↦ hs.apply hresolves fun t ht ↦
        (lifecycleRoot_isWritten rules).plain (ht ▸ hevent))
      {} ⟨fun _ h ↦ (by cases h), fun _ h ↦ (by cases h), fun _ h ↦ (by cases h),
        fun _ h ↦ (by cases h), fun _ h ↦ (by cases h), fun _ h ↦ (by cases h), .inl rfl⟩
    exact Except.ok.inj h ▸ hkept.rules
  · intro h
    unfold declared
    rw [(emits_lifecycleRoot h).document]
    have hfold := @fold_rules _ hresolves [] rules fun rule hrule ↦
      ⟨h rule hrule, hrange rule hrule⟩
    show Except.ok ((rules.flatMap (fun rule ↦ blockEvents "Rule" (some (ruleEvents rule))) ++
      [Event.stop "LifecycleConfiguration".toList]).foldl
        (LifecycleParseState.apply unescape) {}).rules = _
    rw [List.foldl_append, hfold]
    rfl

/-! ### Round trips -/

/-- **When a configuration survives that is read and written back.** Tags and grants come back as
they were exactly if all their texts are plain, lifecycle rules exactly if each of their texts is
empty or plain. -/
theorem documents_round_trip_iff (hreads : Reads read) (hresolves : Resolves unescape) :
    (∀ tags : Table String String, checkTags tags = .ok tags →
      (parseTaggingXml read unescape (taggingXml tags) = .ok tags ↔ ArePlain (tagStrings tags))) ∧
    (∀ (owner : Owner) (acl : Acl), acl.grants ≠ [] → acl.canned = .private →
      (parseAclXml read unescape (aclXml owner acl) = .ok acl ↔ ArePlain (aclStrings acl))) ∧
    ∀ rules : List Lifecycle.Rule, (∀ rule ∈ rules, InRange rule) →
      (parseLifecycleXml read unescape (lifecycleXml rules) = .ok rules ↔
        ∀ rule ∈ rules, ∀ t ∈ ruleStrings rule, Survives t) :=
  ⟨fun _ htags ↦ tagging_round_trip_iff hreads hresolves htags,
    fun owner _ hgrants hcanned ↦ acl_round_trip_iff hreads hresolves owner hgrants hcanned,
    fun _ hrange ↦ lifecycle_round_trip_iff hreads hresolves hrange⟩

end Documents

/-- A rule on the keys that start with a text. -/
def expiringRule (keyPrefix : String) : Lifecycle.Rule :=
  { id := some "", status := .enabled, filter := some { keyPrefix := some keyPrefix.toList }
    expiration := some { days := some 1 } }

/-- A document whose only rule is on the keys that start with `a>b`. -/
def comparedDocument : Text :=
  ("<LifecycleConfiguration><Rule><ID></ID><Status>Enabled</Status><Filter><Prefix>a>b</Prefix>" ++
    "</Filter><Expiration><Days>1</Days></Expiration></Rule></LifecycleConfiguration>").toList

/-- **A rule on `a>b` is read back as a rule on `b`**, and expires other objects. -/
theorem rule_comes_back_as_another :
    parseLifecycleXml scanner (resolver []) comparedDocument = .ok [expiringRule "a>b"] ∧
      parseLifecycleXml scanner (resolver []) (lifecycleXml [expiringRule "a>b"]) =
        .ok [expiringRule "b"] := by
  refine ⟨?_, ?_⟩ <;> decide +kernel

/-- A rule on an ordinary prefix comes back as it was. -/
theorem plain_rule_comes_back :
    parseLifecycleXml scanner (resolver []) (lifecycleXml [expiringRule "logs/2024 "]) ≠
        .ok [expiringRule "logs/2024 "] ∧
      parseLifecycleXml scanner (resolver []) (lifecycleXml [expiringRule "logs/"]) =
        .ok [expiringRule "logs/"] := by
  have hround := (documents_round_trip_iff scanner_reads (resolver_resolves [])).2.2
  refine ⟨fun h ↦ ?_, (hround _ (by decide)).2 (by decide)⟩
  exact absurd ((hround _ (by decide)).1 h) (by decide)

end Sqrzl.S3
