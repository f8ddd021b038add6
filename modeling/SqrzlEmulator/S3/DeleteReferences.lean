import SqrzlEmulator.S3.DeleteKeys

/-!
# References in Delete documents

What it costs that `parse_delete_keys` passes over references. A Delete document is determined by
its events (`DeleteDocument.events_injective`), and taking the references out of it takes a part
of each value that is written with one (`valueOf_kept`). So what is left of it never names the same
objects (`noReferences_of_says`).

**A Delete document is read as what it says exactly if it has no references**
(`parse_of_isDeleteDocument`). In particular, of the documents that name a list of objects in
values with their special characters written as references, or in sections of character data,
exactly those are read right in which no special character had to be written as a reference
(`parse_deleteDocument_iff`).
-/

namespace Sqrzl.S3

open Xml

/-! ### Events of documents -/

section Injective

variable {chunks : List Chunk}

/-- A list that is written with a mark behind it can be read again, if every entry can be. -/
theorem flatMap_append_cons_inj {α β : Type} {f : α → List β} {mark mark' : β}
    (hself : ∀ a a' rest rest', f a ++ rest = f a' ++ rest' → a = a' ∧ rest = rest')
    (hmark : ∀ a rest rest', f a ++ rest ≠ mark :: rest')
    (hmark' : ∀ a rest rest', f a ++ rest ≠ mark' :: rest') {l l' : List α} {rest rest' : List β}
    (h : l.flatMap f ++ mark :: rest = l'.flatMap f ++ mark' :: rest') :
    l = l' ∧ mark = mark' ∧ rest = rest' := by
  induction l generalizing l' with
  | nil =>
    cases l' with
    | nil => exact ⟨rfl, List.cons.inj h⟩
    | cons a l' =>
      rw [List.flatMap_cons, List.append_assoc] at h
      exact absurd h.symm (hmark a _ _)
  | cons a l ih =>
    rw [List.flatMap_cons, List.append_assoc] at h
    cases l' with
    | nil => exact absurd h (hmark' a _ _)
    | cons a' l' =>
      rw [List.flatMap_cons, List.append_assoc] at h
      obtain ⟨rfl, hrest⟩ := hself a a' _ _ h
      obtain ⟨rfl, hmarks⟩ := ih hrest
      exact ⟨rfl, hmarks⟩

theorem Chunk.event_injective {chunk chunk' : Chunk} (h : chunk.event = chunk'.event) :
    chunk = chunk' := by
  cases chunk <;> cases chunk' <;> cases h <;> rfl

theorem Chunk.event_ne_start (chunk : Chunk) (name : Text) (attributes : List (Option Text)) :
    chunk.event ≠ .start name attributes := by
  intro h
  cases chunk <;> cases h

theorem Chunk.event_ne_stop (chunk : Chunk) (name : Text) : chunk.event ≠ .stop name := by
  intro h
  cases chunk <;> cases h

/-- The parts of a text, up to the markup behind it. -/
theorem chunks_inj {chunks' : List Chunk} {mark mark' : Xml.Event} {rest rest' : List Xml.Event}
    (hmark : ∀ chunk : Chunk, chunk.event ≠ mark) (hmark' : ∀ chunk : Chunk, chunk.event ≠ mark')
    (h : chunks.map Chunk.event ++ mark :: rest = chunks'.map Chunk.event ++ mark' :: rest') :
    chunks = chunks' ∧ mark = mark' ∧ rest = rest' := by
  rw [List.map_eq_flatMap, List.map_eq_flatMap] at h
  refine flatMap_append_cons_inj (fun a a' r r' h ↦ ?_) (fun a r r' h ↦ ?_) (fun a r r' h ↦ ?_) h
  · obtain ⟨hevent, hrest⟩ := List.cons.inj h
    exact ⟨Chunk.event_injective hevent, hrest⟩
  · exact hmark a (List.cons.inj h).1
  · exact hmark' a (List.cons.inj h).1

theorem DeleteField.events_inj {field field' : DeleteField} {chunks' : List Chunk}
    {rest rest' : List Xml.Event}
    (h : field.events chunks ++ rest = field'.events chunks' ++ rest') :
    field = field' ∧ chunks = chunks' ∧ rest = rest' := by
  obtain ⟨hstart, hinner⟩ := List.cons.inj h
  have hfield : field = field' := name_injective (Event.start.inj hstart).1
  change chunks.map Chunk.event ++ [.stop field.name] ++ rest =
    chunks'.map Chunk.event ++ [.stop field'.name] ++ rest' at hinner
  rw [List.append_assoc, List.append_assoc] at hinner
  obtain ⟨hchunks, -, hrest⟩ := chunks_inj (Chunk.event_ne_stop · _) (Chunk.event_ne_stop · _) hinner
  exact ⟨hfield, hchunks, hrest⟩

theorem ObjectItem.events_inj {item item' : ObjectItem} {rest rest' : List Xml.Event}
    (h : item.events ++ rest = item'.events ++ rest') : item = item' ∧ rest = rest' := by
  cases item with
  | blank chunk =>
    cases item' with
    | blank chunk' =>
      obtain ⟨hevent, hrest⟩ := List.cons.inj h
      exact ⟨congrArg _ (Chunk.event_injective hevent), hrest⟩
    | value field chunks => exact absurd (List.cons.inj h).1 (Chunk.event_ne_start _ _ _)
  | value field chunks =>
    cases item' with
    | blank chunk' => exact absurd (List.cons.inj h).1.symm (Chunk.event_ne_start _ _ _)
    | value field' chunks' =>
      obtain ⟨rfl, rfl, hrest⟩ := DeleteField.events_inj h
      exact ⟨rfl, hrest⟩

theorem ObjectItem.events_ne_stop (item : ObjectItem) (name : Text) (rest rest' : List Xml.Event) :
    item.events ++ rest ≠ .stop name :: rest' := by
  intro h
  cases item with
  | blank chunk => exact absurd (List.cons.inj h).1 (Chunk.event_ne_stop _ _)
  | value field chunks => cases (List.cons.inj h).1

theorem DeleteItem.events_inj {item item' : DeleteItem} {rest rest' : List Xml.Event}
    (h : item.events ++ rest = item'.events ++ rest') : item = item' ∧ rest = rest' := by
  have hname : "Object".toList ≠ "Quiet".toList := by decide
  cases item with
  | blank chunk =>
    cases item' with
    | blank chunk' =>
      obtain ⟨hevent, hrest⟩ := List.cons.inj h
      exact ⟨congrArg _ (Chunk.event_injective hevent), hrest⟩
    | object items' => exact absurd (List.cons.inj h).1 (Chunk.event_ne_start _ _ _)
    | quiet chunks' => exact absurd (List.cons.inj h).1 (Chunk.event_ne_start _ _ _)
  | object items =>
    cases item' with
    | blank chunk' => exact absurd (List.cons.inj h).1.symm (Chunk.event_ne_start _ _ _)
    | quiet chunks' => exact absurd (Event.start.inj (List.cons.inj h).1).1 hname
    | object items' =>
      have hinner := (List.cons.inj h).2
      change items.flatMap ObjectItem.events ++ [.stop "Object".toList] ++ rest =
        items'.flatMap ObjectItem.events ++ [.stop "Object".toList] ++ rest' at hinner
      rw [List.append_assoc, List.append_assoc] at hinner
      obtain ⟨rfl, -, hrest⟩ := flatMap_append_cons_inj
        (fun a a' r r' h ↦ ObjectItem.events_inj h) (fun a r r' ↦ a.events_ne_stop _ r r')
        (fun a r r' ↦ a.events_ne_stop _ r r') hinner
      exact ⟨rfl, hrest⟩
  | quiet chunks =>
    cases item' with
    | blank chunk' => exact absurd (List.cons.inj h).1.symm (Chunk.event_ne_start _ _ _)
    | object items' => exact absurd (Event.start.inj (List.cons.inj h).1).1.symm hname
    | quiet chunks' =>
      obtain ⟨-, rfl, hrest⟩ := DeleteField.events_inj h
      exact ⟨rfl, hrest⟩

theorem DeleteItem.events_ne_stop (item : DeleteItem) (name : Text) (rest rest' : List Xml.Event) :
    item.events ++ rest ≠ .stop name :: rest' := by
  intro h
  cases item with
  | blank chunk => exact absurd (List.cons.inj h).1 (Chunk.event_ne_stop _ _)
  | object items => cases (List.cons.inj h).1
  | quiet chunks => cases (List.cons.inj h).1

/-- **A document is determined by its events.** -/
theorem DeleteDocument.events_injective {document document' : DeleteDocument}
    (h : document.events = document'.events) : document = document' := by
  obtain ⟨before, keys, items, after⟩ := document
  obtain ⟨before', keys', items', after'⟩ := document'
  obtain ⟨rfl, hstart, hrest⟩ :=
    chunks_inj (Chunk.event_ne_start · _ _) (Chunk.event_ne_start · _ _) h
  obtain rfl : keys = keys' :=
    List.map_injective_iff.2 (Option.some_injective _) (Event.start.inj hstart).2
  obtain ⟨rfl, -, hafter⟩ := flatMap_append_cons_inj (fun a a' r r' h ↦ DeleteItem.events_inj h)
    (fun a r r' ↦ a.events_ne_stop _ r r') (fun a r r' ↦ a.events_ne_stop _ r r') hrest
  obtain rfl : after = after' :=
    List.map_injective_iff.2 (fun _ _ h ↦ Chunk.event_injective h) hafter
  rfl

end Injective

/-! ### Documents without their references -/

section References

variable {unescape : Text → Except Text Text} {chunks : List Chunk} {value : Text}
  {entries : List DeleteObjectEntry}

/-- The parts that are not references. -/
def keptChunks (chunks : List Chunk) : List Chunk := chunks.filter (!·.isRef)

/-- The item without its references. -/
def ObjectItem.kept : ObjectItem → ObjectItem
  | .blank chunk => .blank chunk
  | .value field chunks => .value field (keptChunks chunks)

/-- The item without its references. -/
def DeleteItem.kept : DeleteItem → DeleteItem
  | .blank chunk => .blank chunk
  | .object items => .object (items.map ObjectItem.kept)
  | .quiet chunks => .quiet (keptChunks chunks)

/-- A document without the references in its values. -/
def DeleteDocument.kept (document : DeleteDocument) : DeleteDocument :=
  { document with items := document.items.map DeleteItem.kept }

@[simp] theorem isReference_event (chunk : Chunk) : isReference chunk.event = chunk.isRef := by
  cases chunk <;> rfl

theorem keptChunks_eq_self (h : ∀ chunk ∈ chunks, chunk.isRef = false) :
    keptChunks chunks = chunks :=
  List.filter_eq_self.2 fun chunk hchunk ↦ by rw [h chunk hchunk]; rfl

/-- **A value loses something with every reference in it.** -/
theorem valueOf_kept (hresolves : Resolves unescape) (h : valueOf unescape chunks = some value) :
    ∃ value', valueOf unescape (keptChunks chunks) = some value' ∧ value'.Sublist value ∧
      ((∀ chunk ∈ chunks, chunk.isRef = false) ∨ value'.length < value.length) := by
  induction chunks generalizing value with
  | nil =>
    obtain rfl := Option.some.inj h
    exact ⟨[], rfl, List.Sublist.refl _, .inl fun chunk h ↦ absurd h List.not_mem_nil⟩
  | cons chunk chunks ih =>
    obtain ⟨a, b, ha, hb, rfl⟩ := valueOf_cons_eq_some_iff.1 h
    obtain ⟨b', hb', hsub, hrefs⟩ := ih hb
    have hle := hsub.length_le
    cases href : chunk.isRef with
    | false =>
      refine ⟨a ++ b', ?_, hsub.append_left a, ?_⟩
      · rw [keptChunks, List.filter_cons_of_pos (by rw [href]; rfl)]
        exact valueOf_cons_eq_some_iff.2 ⟨a, b', ha, hb', rfl⟩
      · refine hrefs.imp (fun h ↦ List.forall_mem_cons.2 ⟨href, h⟩) fun hlt ↦ ?_
        rw [List.length_append, List.length_append]
        omega
    | true =>
      have hpos : 0 < a.length := by
        cases chunk with
        | text | cData => cases href
        | ref name =>
          refine List.length_pos_iff.2 (@Resolves.ne_nil _ _ hresolves name _ ?_)
          change (unescape _).toOption = some a at ha
          cases hresolved : unescape ('&' :: (name ++ [';'])) with
          | error e =>
            rw [hresolved] at ha
            cases ha
          | ok t =>
            rw [hresolved] at ha
            rw [Option.some.inj ha]
      refine ⟨b', ?_, hsub.trans (List.sublist_append_right a b), .inr ?_⟩
      · rwa [keptChunks, List.filter_cons_of_neg (by rw [href]; decide)]
      · rw [List.length_append]
        omega

theorem noRef_of_valueOf_kept (hresolves : Resolves unescape)
    (h : valueOf unescape chunks = some value)
    (hkept : valueOf unescape (keptChunks chunks) = some value) :
    ∀ chunk ∈ chunks, chunk.isRef = false := by
  obtain ⟨value', hvalue', -, hrefs⟩ := valueOf_kept hresolves h
  rw [hkept] at hvalue'
  obtain rfl := Option.some.inj hvalue'
  exact hrefs.resolve_right (Nat.lt_irrefl _)

theorem filter_map_event (chunks : List Chunk) :
    (chunks.map Chunk.event).filter (!isReference ·) = (keptChunks chunks).map Chunk.event := by
  rw [List.filter_map, keptChunks]
  congr 2
  funext chunk
  exact congrArg _ (isReference_event chunk)

theorem DeleteField.events_kept (field : DeleteField) (chunks : List Chunk) :
    (field.events chunks).filter (!isReference ·) = field.events (keptChunks chunks) := by
  show (Event.start field.name [] :: (chunks.map Chunk.event ++ [.stop field.name])).filter _ = _
  rw [List.filter_cons_of_pos rfl, List.filter_append, filter_map_event]
  rfl

theorem Chunk.IsBlank.filter {chunk : Chunk} (h : chunk.IsBlank unescape) :
    [chunk.event].filter (!isReference ·) = [chunk.event] :=
  List.filter_eq_self.2 fun event hevent ↦ by
    rw [List.mem_singleton.1 hevent, isReference_event, h.1]
    rfl

theorem ObjectItem.events_kept {item : ObjectItem} (h : item.IsValid unescape) :
    item.events.filter (!isReference ·) = item.kept.events := by
  cases item with
  | blank chunk => exact Chunk.IsBlank.filter h
  | value field chunks => exact field.events_kept chunks

theorem DeleteItem.events_kept {item : DeleteItem} (h : item.IsValid unescape)
    (hobject : ∀ items, item = .object items → ∀ i ∈ items, i.IsValid unescape) :
    item.events.filter (!isReference ·) = item.kept.events := by
  cases item with
  | blank chunk => exact Chunk.IsBlank.filter h
  | quiet chunks => exact DeleteField.quiet.events_kept chunks
  | object items =>
    show (Event.start "Object".toList [] ::
      (items.flatMap ObjectItem.events ++ [.stop "Object".toList])).filter _ =
        Event.start "Object".toList [] ::
          ((items.map ObjectItem.kept).flatMap ObjectItem.events ++ [.stop "Object".toList])
    rw [List.filter_cons_of_pos rfl, List.filter_append, List.filter_flatMap, List.flatMap_map]
    refine congrArg _ (congrArg (· ++ _) (List.flatMap_congr fun i hi ↦ ?_))
    exact ObjectItem.events_kept (hobject items rfl i hi)

theorem exists_of_forall₂ {α β : Type} {R : α → β → Prop} {l : List α} {l' : List β}
    (h : List.Forall₂ R l l') {a : α} (ha : a ∈ l) : ∃ b, R a b := by
  induction h with
  | nil => cases ha
  | @cons a' b l l' hab _ ih =>
    rcases List.mem_cons.1 ha with rfl | hmem
    · exact ⟨b, hab⟩
    · exact ih hmem

/-- Every object has an entry. -/
theorem DeleteDocument.Says.object {document : DeleteDocument}
    (h : document.Says unescape entries) {items : List ObjectItem}
    (hitems : .object items ∈ document.items) : ∃ entry, ObjectItem.Says unescape items entry :=
  exists_of_forall₂ h.objects (List.mem_filterMap.2 ⟨_, hitems, rfl⟩)

/-- **Taking the references out of a document** is taking them out of its events. -/
theorem DeleteDocument.Says.events_kept {document : DeleteDocument}
    (h : document.Says unescape entries) :
    document.kept.events = withoutReferences document.events := by
  have hblanks : ∀ {chunks : List Chunk}, (∀ chunk ∈ chunks, chunk.IsBlank unescape) →
      (chunks.map Chunk.event).filter (!isReference ·) = chunks.map Chunk.event := by
    intro chunks hchunks
    rw [filter_map_event, keptChunks_eq_self fun chunk hchunk ↦ (hchunks chunk hchunk).1]
  have hitems : (document.items.flatMap DeleteItem.events).filter (!isReference ·) =
      (document.items.map DeleteItem.kept).flatMap DeleteItem.events := by
    rw [List.filter_flatMap, List.flatMap_map]
    refine List.flatMap_congr fun item hitem ↦ DeleteItem.events_kept (h.items item hitem) ?_
    rintro items rfl
    obtain ⟨entry, hentry⟩ := h.object hitem
    exact hentry.1
  show _ = (document.before.map Chunk.event ++ .start "Delete".toList _ ::
    (document.items.flatMap DeleteItem.events ++
      .stop "Delete".toList :: document.after.map Chunk.event)).filter _
  rw [List.filter_append, hblanks h.before, List.filter_cons_of_pos rfl, List.filter_append, hitems,
    List.filter_cons_of_pos rfl, hblanks h.after]
  rfl

theorem eq_of_filterMap_eq {α β : Type} {f g : α → Option β} {l : List α}
    (hsome : ∀ a ∈ l, (f a).isSome = (g a).isSome) (h : l.filterMap f = l.filterMap g) :
    ∀ a ∈ l, f a = g a := by
  induction l with
  | nil => exact fun a ha ↦ absurd ha List.not_mem_nil
  | cons a l ih =>
    obtain ⟨hfirst, hrest⟩ := List.forall_mem_cons.1 hsome
    cases hf : f a with
    | none =>
      rw [hf, Option.isSome_none] at hfirst
      have hg : g a = none := Option.isNone_iff_eq_none.1 (by rw [← Option.not_isSome, ← hfirst]; rfl)
      rw [List.filterMap_cons_none hf, List.filterMap_cons_none hg] at h
      exact List.forall_mem_cons.2 ⟨hf.trans hg.symm, ih hrest h⟩
    | some b =>
      rw [hf, Option.isSome_some] at hfirst
      obtain ⟨b', hg⟩ := Option.isSome_iff_exists.1 hfirst.symm
      rw [List.filterMap_cons_some hf, List.filterMap_cons_some hg] at h
      obtain ⟨rfl, hl⟩ := List.cons.inj h
      exact List.forall_mem_cons.2 ⟨hf.trans hg.symm, ih hrest hl⟩

/-- **An object whose entry stays the same had no references.** -/
theorem ObjectItem.Says.noRef (hresolves : Resolves unescape) {items : List ObjectItem}
    {entry : DeleteObjectEntry} (h : ObjectItem.Says unescape items entry)
    (hkept : ObjectItem.Says unescape (items.map ObjectItem.kept) entry) {field : DeleteField}
    (hitem : .value field chunks ∈ items) : ∀ chunk ∈ chunks, chunk.isRef = false := by
  have hvalues : ∀ field, field ≠ .quiet →
      ObjectItem.values unescape field items =
        ObjectItem.values unescape field (items.map ObjectItem.kept) := by
    intro field hfield
    cases field with
    | key => exact h.2.1.trans hkept.2.1.symm
    | versionId => exact h.2.2.1.trans hkept.2.2.1.symm
    | eTag => exact h.2.2.2.trans hkept.2.2.2.symm
    | quiet => exact absurd rfl hfield
  have hvalid : ∀ {field' chunks'}, .value field' chunks' ∈ items →
      ∃ value value', valueOf unescape chunks' = some value ∧
        valueOf unescape (keptChunks chunks') = some value' := by
    intro field' chunks' hmem
    obtain ⟨-, value, hvalue, -⟩ := h.1 _ hmem
    obtain ⟨-, value', hvalue', -⟩ := hkept.1 _ (List.mem_map_of_mem hmem)
    exact ⟨value, value', hvalue, hvalue'⟩
  obtain ⟨value, value', hvalue, hvalue'⟩ := hvalid hitem
  have heq := hvalues field (h.1 _ hitem).1
  unfold ObjectItem.values at heq
  rw [List.filterMap_map] at heq
  have hsome : ∀ item ∈ items, (ObjectItem.valueFor unescape field item).isSome =
      ((ObjectItem.valueFor unescape field ∘ ObjectItem.kept) item).isSome := by
    intro item hmem
    cases item with
    | blank chunk => rfl
    | value field' chunks' =>
      obtain ⟨v, v', hv, hv'⟩ := hvalid hmem
      show (if field' = field then valueOf unescape chunks' else none).isSome =
        (if field' = field then valueOf unescape (keptChunks chunks') else none).isSome
      rw [hv, hv']
      split_ifs <;> rfl
  have hpoint := eq_of_filterMap_eq hsome heq _ hitem
  change (if field = field then valueOf unescape chunks else none) =
    (if field = field then valueOf unescape (keptChunks chunks) else none) at hpoint
  rw [if_pos rfl, if_pos rfl, hvalue] at hpoint
  exact noRef_of_valueOf_kept hresolves hvalue hpoint.symm

/-- One of the two values of `Quiet` is not a part of the other. -/
theorem quiet_noRef (hresolves : Resolves unescape) {value' : Text}
    (h : DeleteField.quiet.Holds unescape chunks value)
    (hkept : DeleteField.quiet.Holds unescape (keptChunks chunks) value') :
    ∀ chunk ∈ chunks, chunk.isRef = false := by
  obtain ⟨kept, hvalue, hsub, hrefs⟩ := valueOf_kept hresolves h.1
  rw [hkept.1] at hvalue
  obtain rfl := Option.some.inj hvalue
  refine hrefs.resolve_right fun hlt ↦ ?_
  have hcases : ∀ {t}, DeleteField.quiet.accepts t = true → t = "true".toList ∨ t = "false".toList := by
    intro t ht
    exact (Bool.or_eq_true_iff.1 ht).imp of_decide_eq_true of_decide_eq_true
  rcases hcases h.2 with rfl | rfl
  · rcases hcases hkept.2 with rfl | rfl
    · exact absurd hlt (by decide)
    · exact absurd hlt (by decide)
  · rcases hcases hkept.2 with rfl | rfl
    · exact absurd hsub (by decide)
    · exact absurd hlt (by decide)

theorem isReference_events {field : DeleteField} (h : ∀ chunk ∈ chunks, chunk.isRef = false) :
    ∀ event ∈ field.events chunks, isReference event = false := by
  intro event hevent
  rcases List.mem_cons.1 hevent with rfl | hevent
  · rfl
  rcases List.mem_append.1 hevent with hevent | hevent
  · obtain ⟨chunk, hchunk, rfl⟩ := List.mem_map.1 hevent
    rw [isReference_event, h chunk hchunk]
  · rw [List.mem_singleton.1 hevent]
    rfl

/-- **A document that says the same without its references has none.** -/
theorem noReferences_of_says (hresolves : Resolves unescape) {document : DeleteDocument}
    (h : document.Says unescape entries) (hkept : document.kept.Says unescape entries) :
    ∀ event ∈ document.events, isReference event = false := by
  have hblank : ∀ {chunk : Chunk}, chunk.IsBlank unescape → isReference chunk.event = false := by
    intro chunk hchunk
    rw [isReference_event, hchunk.1]
  have hobjects : ∀ {items}, .object items ∈ document.items → ∃ entry,
      ObjectItem.Says unescape items entry ∧
        ObjectItem.Says unescape (items.map ObjectItem.kept) entry := by
    intro items hitems
    have hmap : document.kept.items.filterMap DeleteItem.object? =
        (document.items.filterMap DeleteItem.object?).map (List.map ObjectItem.kept) := by
      show (document.items.map DeleteItem.kept).filterMap DeleteItem.object? = _
      rw [List.filterMap_map, List.map_filterMap]
      refine List.filterMap_congr fun item _ ↦ ?_
      cases item <;> rfl
    have hobjectsKept := hkept.objects
    rw [hmap, List.forall₂_map_left_iff] at hobjectsKept
    exact exists_of_forall₂ (List.Forall₂.mp (fun _ _ ↦ And.intro) h.objects hobjectsKept)
      (List.mem_filterMap.2 ⟨_, hitems, rfl⟩)
  intro event hevent
  rcases List.mem_append.1 hevent with hevent | hevent
  · obtain ⟨chunk, hchunk, rfl⟩ := List.mem_map.1 hevent
    exact hblank (h.before chunk hchunk)
  rcases List.mem_cons.1 hevent with rfl | hevent
  · rfl
  rcases List.mem_append.1 hevent with hevent | hevent
  · obtain ⟨item, hitem, hevent⟩ := List.mem_flatMap.1 hevent
    cases item with
    | blank chunk =>
      rw [List.mem_singleton.1 hevent]
      exact hblank (h.items _ hitem)
    | quiet chunks =>
      obtain ⟨value, hvalue⟩ := h.items _ hitem
      obtain ⟨value', hvalue'⟩ := hkept.items _ (List.mem_map_of_mem hitem)
      exact isReference_events (quiet_noRef hresolves hvalue hvalue') event hevent
    | object items =>
      obtain ⟨entry, hdescribes, hdescribesKept⟩ := hobjects hitem
      rcases List.mem_cons.1 hevent with rfl | hevent
      · rfl
      rcases List.mem_append.1 hevent with hevent | hevent
      · obtain ⟨item, hmem, hevent⟩ := List.mem_flatMap.1 hevent
        cases item with
        | blank chunk =>
          rw [List.mem_singleton.1 hevent]
          exact hblank (hdescribes.1 _ hmem)
        | value field chunks =>
          exact isReference_events (hdescribes.noRef hresolves hdescribesKept hmem) event hevent
      · rw [List.mem_singleton.1 hevent]
        rfl
  · rcases List.mem_cons.1 hevent with rfl | hevent
    · rfl
    · obtain ⟨chunk, hchunk, rfl⟩ := List.mem_map.1 hevent
      exact hblank (h.after chunk hchunk)

end References

/-! ### What the parser is right about -/

section Right

variable {read : Bool → Text → List (Except Text Xml.Event)} {unescape : Text → Except Text Text}
  {xml : Text} {events : List Xml.Event} {entries : List DeleteObjectEntry}

theorem withoutReferences_eq_self (h : ∀ event ∈ events, isReference event = false) :
    withoutReferences events = events :=
  List.filter_eq_self.2 fun event hevent ↦ by rw [h event hevent]; rfl

/-- **A Delete document is read as what it says exactly if it has no references.** -/
theorem parse_of_isDeleteDocument (hresolves : Resolves unescape)
    (hread : read false xml = events.map .ok) (h : IsDeleteDocument unescape events entries) :
    parseDeleteKeys read unescape xml = .ok entries ↔
      ∀ event ∈ events, isReference event = false := by
  rw [parse_delete_keys_ok_iff hread]
  constructor
  · rintro ⟨document', hevents', hdescribes'⟩
    obtain ⟨document, hevents, hdescribes⟩ := h
    have hdocument : document' = document.kept := by
      refine DeleteDocument.events_injective ?_
      rw [hdescribes.events_kept, hevents, hevents', withoutReferences, withoutReferences,
        List.filter_filter, List.filter_filter]
      exact List.filter_congr fun event _ ↦ Bool.and_comm _ _
    rw [hdocument] at hdescribes'
    have hnone := noReferences_of_says hresolves hdescribes hdescribes'
    intro event hevent
    by_cases haside : event = .aside
    · rw [haside]
      rfl
    · refine hnone event ?_
      rw [hevents]
      exact List.mem_filter.2 ⟨hevent, decide_eq_true haside⟩
  · intro hnone
    rwa [withoutReferences_eq_self hnone]

/-- **When the parser is right about a document**: if it has no references, or is no Delete
document, neither as it is nor without its references. -/
theorem parse_document_iff (hresolves : Resolves unescape)
    (hread : read false xml = events.map .ok) :
    (∀ entries, parseDeleteKeys read unescape xml = .ok entries ↔
        IsDeleteDocument unescape events entries) ↔
      (∀ event ∈ events, isReference event = false) ∨
        (∀ entries, ¬ IsDeleteDocument unescape events entries) ∧
          ∀ entries, ¬ IsDeleteDocument unescape (withoutReferences events) entries := by
  constructor
  · intro h
    rcases Classical.em (∃ entries, IsDeleteDocument unescape events entries) with
      ⟨entries, hentries⟩ | hno
    · exact .inl ((parse_of_isDeleteDocument hresolves hread hentries).1 ((h entries).2 hentries))
    · refine .inr ⟨fun entries hentries ↦ hno ⟨entries, hentries⟩, fun entries hentries ↦ hno ?_⟩
      exact ⟨entries, (h entries).1 ((parse_delete_keys_ok_iff hread).2 hentries)⟩
  · intro h entries
    rw [parse_delete_keys_ok_iff hread]
    rcases h with hnone | ⟨hno, hnoKept⟩
    · rw [withoutReferences_eq_self hnone]
    · exact iff_of_false (hnoKept entries) (hno entries)

end Right

/-! ### Documents that are written -/

/-- `str::replace`, of a character. -/
def replaceChar (c : Char) (text : Text) (t : Text) : Text :=
  t.flatMap fun d ↦ if d = c then text else [d]

/-- `escape_xml_str` -/
def escapeXmlStr (input : Text) : Text :=
  replaceChar '\'' "&apos;".toList (replaceChar '"' "&quot;".toList
    (replaceChar '>' "&gt;".toList (replaceChar '<' "&lt;".toList
      (replaceChar '&' "&amp;".toList input))))

/-- An element: its content between its tags. -/
def tagged (name content : Text) : Text :=
  '<' :: (name ++ '>' :: (content ++ '<' :: '/' :: (name ++ ['>'])))

/-- A part of a value, as it is written. -/
inductive Section where
  | escaped (content : Text)
  | cData (content : Text)
  deriving DecidableEq

namespace Section

/-- What a section stands for. -/
def content : Section → Text
  | .escaped content => content
  | .cData content => content

/-- Sections of character data end at the first place where they can. -/
def IsWritable : Section → Prop
  | .escaped _ => True
  | .cData content => ¬ "]]>".toList <:+: content

instance : DecidablePred IsWritable
  | .escaped _ => isTrue trivial
  | .cData content => inferInstanceAs (Decidable (¬ "]]>".toList <:+: content))

/-- Whether no character has to be written as a reference. -/
def IsPlain : Section → Prop
  | .escaped content => ∀ c ∈ content, isSpecial c = false
  | .cData _ => True

instance : DecidablePred IsPlain
  | .escaped content => inferInstanceAs (Decidable (∀ c ∈ content, isSpecial c = false))
  | .cData _ => isTrue trivial

/-- How a section is written. -/
def written : Section → Text
  | .escaped content => escapeXmlStr content
  | .cData content => "<![CDATA[".toList ++ content ++ "]]>".toList

/-- The pieces of a section. -/
def pieces : Section → List Piece
  | .escaped content => Xml.escaped content
  | .cData content => [.cData content]

end Section

/-- A value in its sections. -/
abbrev Spelling : Type := List Section

/-- What the sections stand for together. -/
def Spelling.value (spelling : Spelling) : Text := spelling.flatMap Section.content

/-- How the sections are written. -/
def Spelling.written (spelling : Spelling) : Text := spelling.flatMap Section.written

/-- An entry in which each value is spelled out. -/
structure SpelledEntry where
  key : Spelling
  version : Option Spelling
  etag : Option Spelling
  deriving DecidableEq

namespace SpelledEntry

/-- The entry. -/
def entry (spelled : SpelledEntry) : DeleteObjectEntry :=
  (spelled.key.value, spelled.version.map Spelling.value, spelled.etag.map Spelling.value)

/-- The elements of an entry. -/
def fields (spelled : SpelledEntry) : List (DeleteField × Spelling) :=
  (.key, spelled.key) :: ((spelled.version.map (DeleteField.versionId, ·)).toList ++
    (spelled.etag.map (DeleteField.eTag, ·)).toList)

/-- How an entry is written. -/
def written (spelled : SpelledEntry) : Text :=
  tagged "Object".toList (spelled.fields.flatMap fun field ↦
    tagged field.1.name field.2.written)

end SpelledEntry

/-- The Delete document of a list of entries. -/
def deleteDocument (spelled : List SpelledEntry) : Text :=
  tagged "Delete".toList (spelled.flatMap SpelledEntry.written)

section Written

variable {read : Bool → Text → List (Except Text Xml.Event)} {unescape : Text → Except Text Text}
  {spelled : List SpelledEntry} {spelling : Spelling}

/-- The replacements, one after the other, are the references to the special characters. -/
theorem escapeXmlStr_eq_written (t : Text) : escapeXmlStr t = Xml.written (Xml.escaped t) := by
  induction t with
  | nil => rfl
  | cons c t ih =>
    have hcons : ∀ (d : Char) (text u v : Text),
        replaceChar d text (u ++ v) = replaceChar d text u ++ replaceChar d text v :=
      fun d text u v ↦ List.flatMap_append
    have hchar : escapeXmlStr [c] = (escapeChar c).written := by
      cases hspecial : isSpecial c with
      | true =>
        have hmem : c ∈ references.map (·.1) := of_decide_eq_true hspecial
        simp only [references, List.map_cons, List.map_nil, List.mem_cons, List.not_mem_nil,
          or_false] at hmem
        rcases hmem with rfl | rfl | rfl | rfl | rfl <;> rfl
      | false =>
        have hne : ∀ d ∈ references.map (·.1), c ≠ d := by
          rintro d hd rfl
          exact of_decide_eq_false hspecial hd
        have hother : ∀ d ∈ references.map (·.1), ∀ text, replaceChar d text [c] = [c] := by
          intro d hd text
          show (if c = d then text else [c]) ++ [] = [c]
          rw [if_neg (hne d hd), List.append_nil]
        rw [escapeChar_of_not_special hspecial, escapeXmlStr, hother '&' (by decide),
          hother '<' (by decide), hother '>' (by decide), hother '"' (by decide),
          hother '\'' (by decide)]
        rfl
    show _ = (escapeChar c).written ++ Xml.written (Xml.escaped t)
    rw [← hchar, ← ih]
    show escapeXmlStr ([c] ++ t) = _
    simp only [escapeXmlStr, hcons]

/-- The pieces of the sections. -/
def Spelling.pieces (spelling : Spelling) : List Piece := spelling.flatMap Section.pieces

theorem Spelling.written_pieces (spelling : Spelling) :
    Xml.written spelling.pieces = spelling.written := by
  induction spelling with
  | nil => rfl
  | cons part spelling ih =>
    show Xml.written (part.pieces ++ Spelling.pieces spelling) = part.written ++ _
    rw [written_append, ih]
    cases part with
    | escaped content => exact congrArg (· ++ _) (escapeXmlStr_eq_written content).symm
    | cData content =>
      show (_ ++ (content ++ "]]>".toList)) ++ [] ++ _ = _
      rw [List.append_nil, ← List.append_assoc]
      rfl

theorem Spelling.content_pieces (h : ∀ part ∈ spelling, part.IsWritable) :
    Xml.Content spelling.pieces := by
  refine Content.flatMap fun part hpart ↦ ?_
  cases part with
  | escaped content => exact Content.escaped content
  | cData content => exact .cData (h _ hpart) .nil

/-- The parts in which a value is reported. -/
def pushChunk : Piece → List Chunk → List Chunk
  | .char c, .text t :: chunks => .text (c :: t) :: chunks
  | .char c, chunks => .text [c] :: chunks
  | .ref name, chunks => .ref name :: chunks
  | .cData content, chunks => .cData content :: chunks
  | _, chunks => chunks

/-- The parts of a text that pieces come to. -/
def chunksOf (pieces : List Piece) : List Chunk := pieces.foldr pushChunk []

/-- Pieces of values. -/
def isValuePiece : Piece → Bool
  | .char _ | .ref _ | .cData _ => true
  | _ => false

theorem events_chunksOf {pieces : List Piece} (h : ∀ piece ∈ pieces, isValuePiece piece = true) :
    Xml.events pieces = (chunksOf pieces).map Chunk.event := by
  induction pieces with
  | nil => rfl
  | cons piece pieces ih =>
    obtain ⟨hfirst, hrest⟩ := List.forall_mem_cons.1 h
    rw [events_cons, ih hrest]
    show _ = (pushChunk piece (chunksOf pieces)).map Chunk.event
    cases piece with
    | char c =>
      cases chunksOf pieces with
      | nil => rfl
      | cons chunk chunks => cases chunk <;> rfl
    | ref name => rfl
    | cData content => rfl
    | declaration | start | stop => cases hfirst

/-- What a piece of a value stands for. -/
def pieceValue : Piece → Text
  | .char c => [c]
  | .ref name => ((references.find? fun r ↦ r.2 = name).map (·.1)).toList
  | .cData content => content
  | _ => []

theorem pieceValue_ref {r : Char × List Char} (h : r ∈ references) :
    pieceValue (.ref r.2) = [r.1] := by
  simp only [references, List.mem_cons, List.not_mem_nil, or_false] at h
  rcases h with rfl | rfl | rfl | rfl | rfl <;> rfl

/-- The pieces that values are spelled with. -/
def IsSpelled (piece : Piece) : Prop :=
  (∃ c, c ≠ '&' ∧ piece = .char c) ∨ (∃ r ∈ references, piece = .ref r.2) ∨
    ∃ content, piece = .cData content

theorem IsSpelled.isValuePiece {piece : Piece} (h : IsSpelled piece) :
    isValuePiece piece = true := by
  rcases h with ⟨c, -, rfl⟩ | ⟨r, -, rfl⟩ | ⟨content, rfl⟩ <;> rfl

/-- What is in a text that is reported is no reference. -/
theorem notMem_of_text_mem_chunksOf {pieces : List Piece}
    (h : ∀ piece ∈ pieces, IsSpelled piece) {t : Text} (ht : .text t ∈ chunksOf pieces) :
    '&' ∉ t := by
  have hevents := events_chunksOf fun piece hpiece ↦ (h piece hpiece).isValuePiece
  have hmem : .text t ∈ Xml.events pieces := hevents ▸ List.mem_map_of_mem ht
  intro hamp
  rcases h _ (char_mem_of_text_mem hmem _ hamp) with ⟨c, hc, heq⟩ | ⟨r, -, heq⟩ | ⟨content, heq⟩
  · exact hc (Piece.char.inj heq).symm
  · cases heq
  · cases heq

theorem valueOf_chunksOf (hresolves : Resolves unescape) {pieces : List Piece}
    (h : ∀ piece ∈ pieces, IsSpelled piece) :
    valueOf unescape (chunksOf pieces) = some (pieces.flatMap pieceValue) := by
  induction pieces with
  | nil => rfl
  | cons piece pieces ih =>
    obtain ⟨hfirst, hrest⟩ := List.forall_mem_cons.1 h
    have hvalue := ih hrest
    have hplain : ∀ {t}, '&' ∉ t → (Chunk.text t).value unescape = some t := by
      intro t ht
      show (unescape t).toOption = _
      rw [hresolves.plain ht]
      rfl
    rw [List.flatMap_cons]
    show valueOf unescape (pushChunk piece (chunksOf pieces)) = _
    rcases hfirst with ⟨c, hc, rfl⟩ | ⟨r, hr, rfl⟩ | ⟨content, rfl⟩
    · have hsingle : '&' ∉ [c] := fun hmem ↦ hc (List.mem_singleton.1 hmem).symm
      have hnew : valueOf unescape (.text [c] :: chunksOf pieces) =
          some ([c] ++ pieces.flatMap pieceValue) :=
        valueOf_cons_eq_some_iff.2 ⟨_, _, hplain hsingle, hvalue, rfl⟩
      cases hchunks : chunksOf pieces with
      | nil => rwa [hchunks] at hnew
      | cons chunk chunks =>
        cases chunk with
        | cData | ref => rwa [hchunks] at hnew
        | text t =>
          have hmem : .text t ∈ chunksOf pieces := hchunks ▸ List.mem_cons_self
          have ht := notMem_of_text_mem_chunksOf hrest hmem
          rw [hchunks] at hvalue
          obtain ⟨a, b, ha, hb, hab⟩ := valueOf_cons_eq_some_iff.1 hvalue
          rw [hplain ht] at ha
          obtain rfl := Option.some.inj ha
          have hcons : '&' ∉ c :: t := by
            intro hmem
            rcases List.mem_cons.1 hmem with heq | hmem
            · exact hc heq.symm
            · exact ht hmem
          refine valueOf_cons_eq_some_iff.2 ⟨_, b, hplain hcons, hb, ?_⟩
          rw [← hab]
          rfl
    · refine valueOf_cons_eq_some_iff.2 ⟨_, _, ?_, hvalue, rfl⟩
      show (unescape ('&' :: (r.2 ++ [';']))).toOption = some (pieceValue (.ref r.2))
      rw [hresolves.special (c := r.1) hr, pieceValue_ref hr]
      rfl
    · exact valueOf_cons_eq_some_iff.2 ⟨content, _, rfl, hvalue, rfl⟩

theorem escapeChar_isSpelled (c : Char) :
    IsSpelled (escapeChar c) ∧ pieceValue (escapeChar c) = [c] := by
  cases hspecial : isSpecial c with
  | true =>
    obtain ⟨name, hmem, hname⟩ := escapeChar_of_special hspecial
    rw [hname]
    refine ⟨.inr (.inl ⟨(c, name), hmem, rfl⟩), ?_⟩
    exact pieceValue_ref hmem
  | false =>
    have hamp : c ≠ '&' := by
      rintro rfl
      exact absurd hspecial (by decide)
    rw [escapeChar_of_not_special hspecial]
    exact ⟨.inl ⟨c, hamp, rfl⟩, rfl⟩

theorem Spelling.isSpelled (spelling : Spelling) : ∀ piece ∈ spelling.pieces, IsSpelled piece := by
  intro piece hpiece
  obtain ⟨part, -, hpart⟩ := List.mem_flatMap.1 hpiece
  cases part with
  | escaped content =>
    obtain ⟨c, -, rfl⟩ := List.mem_map.1 hpart
    exact (escapeChar_isSpelled c).1
  | cData content => exact .inr (.inr ⟨content, List.mem_singleton.1 hpart⟩)

theorem Spelling.flatMap_pieceValue (spelling : Spelling) :
    spelling.pieces.flatMap pieceValue = spelling.value := by
  have hescaped : ∀ t : Text, (Xml.escaped t).flatMap pieceValue = t := by
    intro t
    induction t with
    | nil => rfl
    | cons c t ih =>
      show pieceValue (escapeChar c) ++ (Xml.escaped t).flatMap pieceValue = _
      rw [ih, (escapeChar_isSpelled c).2]
      rfl
  induction spelling with
  | nil => rfl
  | cons part spelling ih =>
    show (part.pieces ++ Spelling.pieces spelling).flatMap pieceValue = part.content ++ _
    rw [List.flatMap_append, ih]
    cases part with
    | escaped content => exact congrArg (· ++ _) (hescaped content)
    | cData content => exact congrArg (· ++ _) (List.append_nil content)

theorem written_element_eq (name : Text) (inner : List Piece) :
    Xml.written (element name [] inner) = tagged name (Xml.written inner) := by
  rw [written_element]
  show '<' :: (name ++ [] ++ ['>']) ++ (Xml.written inner ++ '<' :: '/' :: (name ++ ['>'])) = _
  rw [List.append_nil, List.cons_append, List.append_assoc]
  rfl

namespace SpelledEntry

/-- The element of a value. -/
def fieldPieces (field : DeleteField × Spelling) : List Piece :=
  element field.1.name [] field.2.pieces

/-- The element of an entry. -/
def pieces (entry : SpelledEntry) : List Piece :=
  element "Object".toList [] (entry.fields.flatMap fieldPieces)

theorem written_pieces (entry : SpelledEntry) : Xml.written entry.pieces = entry.written := by
  have hfields : Xml.written (entry.fields.flatMap fieldPieces) =
      entry.fields.flatMap fun field ↦ tagged field.1.name field.2.written := by
    refine (List.flatMap_assoc).trans (List.flatMap_congr fun field _ ↦ ?_)
    rw [← Spelling.written_pieces]
    exact written_element_eq _ _
  rw [pieces, written_element_eq, hfields, written]

/-- The items of an entry. -/
def items (entry : SpelledEntry) : List ObjectItem :=
  entry.fields.map fun field ↦ .value field.1 (chunksOf field.2.pieces)

theorem events_pieces (entry : SpelledEntry) :
    Xml.events entry.pieces = (DeleteItem.object entry.items).events := by
  have hfield : ∀ field : DeleteField × Spelling, Xml.events (fieldPieces field) =
      (ObjectItem.value field.1 (chunksOf field.2.pieces)).events := by
    intro field
    rw [fieldPieces, events_element, events_chunksOf fun piece hpiece ↦
      (field.2.isSpelled piece hpiece).isValuePiece]
    rfl
  have hitems : Xml.events (entry.fields.flatMap fieldPieces) =
      entry.items.flatMap ObjectItem.events := by
    rw [events_flatMap fun field c rest heq ↦ (by cases heq), items, List.flatMap_map]
    exact List.flatMap_congr fun field _ ↦ hfield field
  rw [pieces, events_element, hitems]
  rfl

/-- **What the object of an entry says.** -/
theorem says_entry (hresolves : Resolves unescape) {entry : SpelledEntry}
    (hne : ∀ field ∈ entry.fields, field.2.value ≠ []) :
    ObjectItem.Says unescape entry.items entry.entry := by
  have hvalue : ∀ spelling : Spelling,
      valueOf unescape (chunksOf spelling.pieces) = some spelling.value := by
    intro spelling
    rw [valueOf_chunksOf hresolves spelling.isSpelled, spelling.flatMap_pieceValue]
  have hvalues : ∀ (field : DeleteField) (fields : List (DeleteField × Spelling)),
      ObjectItem.values unescape field
        (fields.map fun field ↦ .value field.1 (chunksOf field.2.pieces)) =
        fields.flatMap fun field' ↦ if field'.1 = field then [field'.2.value] else [] := by
    intro field fields
    induction fields with
    | nil => rfl
    | cons field' fields ih =>
      rw [List.map_cons, values_value_cons (hvalue field'.2), ih, List.flatMap_cons]
  refine ⟨fun item hitem ↦ ?_, ?_, ?_, ?_⟩
  · obtain ⟨field, hfield, rfl⟩ := List.mem_map.1 hitem
    have hkind : field.1 ≠ .quiet ∧ field.1.accepts field.2.value = !field.2.value.isEmpty := by
      obtain ⟨key, version, etag⟩ := entry
      rcases List.mem_cons.1 hfield with rfl | hfield
      · exact ⟨fun h ↦ (by cases h), rfl⟩
      rcases List.mem_append.1 hfield with hfield | hfield
      · obtain ⟨spelling, -, rfl⟩ := Option.map_eq_some_iff.1 (Option.mem_toList.1 hfield)
        exact ⟨fun h ↦ (by cases h), rfl⟩
      · obtain ⟨spelling, -, rfl⟩ := Option.map_eq_some_iff.1 (Option.mem_toList.1 hfield)
        exact ⟨fun h ↦ (by cases h), rfl⟩
    refine ⟨hkind.1, field.2.value, hvalue field.2, ?_⟩
    rw [hkind.2, List.isEmpty_eq_false_iff.2 (hne field hfield)]
    rfl
  all_goals
    rw [items, hvalues]
    obtain ⟨key, version, etag⟩ := entry
    cases version <;> cases etag <;> rfl

end SpelledEntry

/-- The parts of the document of a list of entries. -/
def spelledDocument (spelled : List SpelledEntry) : DeleteDocument :=
  ⟨[], [], spelled.map fun entry ↦ .object entry.items, []⟩

/-- The document of some entries. -/
def documentPieces (spelled : List SpelledEntry) : List Piece :=
  element "Delete".toList [] (spelled.flatMap SpelledEntry.pieces)

theorem written_documentPieces (spelled : List SpelledEntry) :
    Xml.written (documentPieces spelled) = deleteDocument spelled := by
  have hentries : Xml.written (spelled.flatMap SpelledEntry.pieces) =
      spelled.flatMap SpelledEntry.written :=
    (List.flatMap_assoc).trans (List.flatMap_congr fun entry _ ↦ entry.written_pieces)
  rw [documentPieces, written_element_eq, hentries, deleteDocument]

theorem events_documentPieces (spelled : List SpelledEntry) :
    Xml.events (documentPieces spelled) = (spelledDocument spelled).events := by
  have hitems : Xml.events (spelled.flatMap SpelledEntry.pieces) =
      (spelled.map fun entry ↦ DeleteItem.object entry.items).flatMap DeleteItem.events := by
    rw [events_flatMap fun entry c rest heq ↦ (by cases heq), List.flatMap_map]
    exact List.flatMap_congr fun entry _ ↦ entry.events_pieces
  rw [documentPieces, events_element, hitems]
  rfl

/-- What can be written is a document. -/
theorem isDocument_documentPieces
    (hwritable : ∀ entry ∈ spelled, ∀ field ∈ entry.fields, ∀ part ∈ field.2, part.IsWritable) :
    IsDocument (documentPieces spelled) := by
  have hnone : AreAttributes [] := ⟨List.nodup_nil, fun a ha ↦ absurd ha List.not_mem_nil⟩
  refine .root (by decide) hnone (Content.flatMap fun entry hentry ↦ ?_)
  refine Content.of_element (by decide) hnone (Content.flatMap fun field hfield ↦ ?_)
  refine Content.of_element ?_ hnone
    (Spelling.content_pieces (hwritable entry hentry field hfield))
  cases field.1 <;> decide

theorem aside_notMem_events (document : DeleteDocument) : .aside ∉ document.events := by
  have hchunks : ∀ chunks : List Chunk, .aside ∉ chunks.map Chunk.event := by
    intro chunks h
    obtain ⟨chunk, -, heq⟩ := List.mem_map.1 h
    cases chunk <;> cases heq
  have hfield : ∀ (field : DeleteField) (chunks : List Chunk), .aside ∉ field.events chunks := by
    intro field chunks h
    rcases List.mem_append.1 ((List.mem_cons.1 h).resolve_left fun heq ↦ (by cases heq)) with h | h
    · exact hchunks chunks h
    · cases List.mem_singleton.1 h
  have hitem : ∀ item : ObjectItem, .aside ∉ item.events := by
    intro item
    cases item with
    | blank chunk => exact hchunks [chunk]
    | value field chunks => exact hfield field chunks
  intro h
  rcases List.mem_append.1 h with h | h
  · exact hchunks _ h
  rcases List.mem_append.1 ((List.mem_cons.1 h).resolve_left fun heq ↦ (by cases heq)) with h | h
  · obtain ⟨item, -, h⟩ := List.mem_flatMap.1 h
    cases item with
    | blank chunk => exact hchunks [chunk] h
    | quiet chunks => exact hfield .quiet chunks h
    | object items =>
      rcases List.mem_append.1 ((List.mem_cons.1 h).resolve_left fun heq ↦ (by cases heq)) with
        h | h
      · obtain ⟨item, -, h⟩ := List.mem_flatMap.1 h
        exact hitem item h
      · cases List.mem_singleton.1 h
  · exact hchunks _ ((List.mem_cons.1 h).resolve_left fun heq ↦ (by cases heq))

/-- **What the document of a list of entries says is the list.** -/
theorem isDeleteDocument_documentPieces (hresolves : Resolves unescape)
    (hne : ∀ entry ∈ spelled, ∀ field ∈ entry.fields, field.2.value ≠ [])
    (hpos : spelled ≠ []) (hlength : spelled.length ≤ 1000) :
    IsDeleteDocument unescape (Xml.events (documentPieces spelled))
      (spelled.map SpelledEntry.entry) := by
  refine ⟨spelledDocument spelled, ?_, ?_⟩
  · rw [events_documentPieces, List.filter_eq_self.2]
    intro event hevent
    refine decide_eq_true fun heq ↦ ?_
    exact aside_notMem_events _ (heq ▸ hevent)
  · have hobjects : (spelledDocument spelled).items.filterMap DeleteItem.object? =
        spelled.map SpelledEntry.items := by
      show (spelled.map _).filterMap DeleteItem.object? = _
      rw [List.filterMap_map, ← List.filterMap_eq_map]
      rfl
    have hmem : ∀ item ∈ (spelledDocument spelled).items, ∃ items, item = .object items := by
      intro item hitem
      obtain ⟨entry, -, rfl⟩ := List.mem_map.1 hitem
      exact ⟨_, rfl⟩
    refine ⟨fun chunk h ↦ absurd h List.not_mem_nil, fun key h ↦ absurd h List.not_mem_nil,
      fun item hitem ↦ ?_, ?_, ?_, ?_, ?_, fun chunk h ↦ absurd h List.not_mem_nil⟩
    · obtain ⟨items, rfl⟩ := hmem item hitem
      trivial
    · rw [List.countP_eq_zero.2 fun item hitem ↦ ?_]
      · exact Nat.zero_le 1
      · obtain ⟨items, rfl⟩ := hmem item hitem
        exact Bool.false_ne_true
    · rw [hobjects, List.forall₂_map_left_iff, List.forall₂_map_right_iff, List.forall₂_same]
      exact fun entry hentry ↦ SpelledEntry.says_entry hresolves (hne entry hentry)
    · exact fun h ↦ hpos (List.map_eq_nil_iff.1 h)
    · rwa [List.length_map]

/-- The references of a document are those of its values. -/
theorem noReferences_documentPieces_iff :
    (∀ event ∈ Xml.events (documentPieces spelled), isReference event = false) ↔
      ∀ entry ∈ spelled, ∀ field ∈ entry.fields, ∀ part ∈ field.2, part.IsPlain := by
  have hpart : ∀ part : Section, (∃ name, .ref name ∈ part.pieces) ↔ ¬ part.IsPlain := by
    intro part
    cases part with
    | cData content =>
      refine iff_of_false (fun ⟨name, h⟩ ↦ ?_) (not_not.2 trivial)
      cases List.mem_singleton.1 h
    | escaped content =>
      constructor
      · rintro ⟨name, h⟩ hplain
        change _ ∈ Xml.escaped content at h
        rw [escaped_of_not_special hplain] at h
        obtain ⟨c, -, heq⟩ := List.mem_map.1 h
        cases heq
      · intro hplain
        obtain ⟨c, hc, hspecial⟩ : ∃ c ∈ content, isSpecial c = true := by
          by_contra hno
          exact hplain fun c hc ↦ Bool.eq_false_iff.2 fun h ↦ hno ⟨c, hc, h⟩
        obtain ⟨name, -, hname⟩ := escapeChar_of_special hspecial
        exact ⟨name, hname ▸ List.mem_map_of_mem hc⟩
  have hmem : ∀ name, .generalRef name ∈ Xml.events (documentPieces spelled) ↔
      ∃ entry ∈ spelled, ∃ field ∈ entry.fields, ∃ part ∈ field.2, .ref name ∈ part.pieces := by
    intro name
    have helement : ∀ {tag attributes inner},
        Piece.ref name ∈ element tag attributes inner ↔ .ref name ∈ inner := by
      intro tag attributes inner
      simp [element]
    rw [generalRef_mem_events, documentPieces, helement, List.mem_flatMap]
    refine exists_congr fun entry ↦ and_congr_right fun _ ↦ ?_
    rw [SpelledEntry.pieces, helement, List.mem_flatMap]
    refine exists_congr fun field ↦ and_congr_right fun _ ↦ ?_
    rw [SpelledEntry.fieldPieces, helement, Spelling.pieces, List.mem_flatMap]
  constructor
  · intro h entry hentry field hfield part hmemPart
    by_contra hplain
    obtain ⟨name, hname⟩ := (hpart part).2 hplain
    have href := h _ ((hmem name).2 ⟨entry, hentry, field, hfield, part, hmemPart, hname⟩)
    cases href
  · intro h event hevent
    cases event with
    | generalRef name =>
      obtain ⟨entry, hentry, field, hfield, part, hmemPart, hname⟩ := (hmem name).1 hevent
      exact absurd (h entry hentry field hfield part hmemPart) ((hpart part).1 ⟨name, hname⟩)
    | start | stop | empty | text | cData | docType | aside => rfl

/-- **When a list of objects that is written out is read as it is.** -/
theorem parse_deleteDocument_iff (hreads : Reads read) (hresolves : Resolves unescape)
    (hwritable : ∀ entry ∈ spelled, ∀ field ∈ entry.fields, ∀ part ∈ field.2, part.IsWritable)
    (hne : ∀ entry ∈ spelled, ∀ field ∈ entry.fields, field.2.value ≠ [])
    (hpos : spelled ≠ []) (hlength : spelled.length ≤ 1000) :
    parseDeleteKeys read unescape (deleteDocument spelled) =
        .ok (spelled.map SpelledEntry.entry) ↔
      ∀ entry ∈ spelled, ∀ field ∈ entry.fields, ∀ part ∈ field.2, part.IsPlain := by
  have hread : read false (deleteDocument spelled) =
      (Xml.events (documentPieces spelled)).map .ok := by
    rw [← written_documentPieces]
    exact hreads.read_written (isDocument_documentPieces hwritable)
  rw [parse_of_isDeleteDocument hresolves hread
    (isDeleteDocument_documentPieces hresolves hne hpos hlength), noReferences_documentPieces_iff]

/-- **When exactly the named objects are deleted.** A list of objects that is written out is read
as it is exactly if no character of it is written as a reference, and a document is read as what it
says, or refused if it is no Delete document, exactly if it has no references or is no Delete
document either way. What cannot be read to its end is refused. -/
theorem parse_delete_keys_iff (hreads : Reads read) (hresolves : Resolves unescape) :
    (∀ spelled : List SpelledEntry,
      (∀ entry ∈ spelled, ∀ field ∈ entry.fields, ∀ part ∈ field.2, part.IsWritable) →
      (∀ entry ∈ spelled, ∀ field ∈ entry.fields, field.2.value ≠ []) →
      spelled ≠ [] → spelled.length ≤ 1000 →
      (parseDeleteKeys read unescape (deleteDocument spelled) =
          .ok (spelled.map SpelledEntry.entry) ↔
        ∀ entry ∈ spelled, ∀ field ∈ entry.fields, ∀ part ∈ field.2, part.IsPlain)) ∧
    (∀ xml events, read false xml = events.map .ok →
      ((∀ entries, parseDeleteKeys read unescape xml = .ok entries ↔
          IsDeleteDocument unescape events entries) ↔
        (∀ event ∈ events, isReference event = false) ∨
          (∀ entries, ¬ IsDeleteDocument unescape events entries) ∧
            ∀ entries, ¬ IsDeleteDocument unescape (withoutReferences events) entries)) ∧
    ∀ xml message, .error message ∈ read false xml →
      ∃ e, parseDeleteKeys read unescape xml = .error e :=
  ⟨fun _ hwritable hne hpos hlength ↦
      parse_deleteDocument_iff hreads hresolves hwritable hne hpos hlength,
    fun _ _ hread ↦ parse_document_iff hresolves hread,
    fun _ _ hread ↦ parseDeleteKeys_of_error hread⟩

/-- An object whose key has a special character in it. -/
def ampersandKey : SpelledEntry :=
  ⟨[.escaped "a&b".toList], none, none⟩

/-- An object whose key is written as character data, special characters and all. -/
def cDataKey : SpelledEntry :=
  ⟨[.cData "a&b".toList], some [.escaped "v1".toList], none⟩

/-- **A key with a special character is read as another one.** -/
theorem ampersand_is_lost :
    parseDeleteKeys scanner (resolver []) (deleteDocument [ampersandKey]) ≠
      .ok [("a&b".toList, none, none)] := by decide

/-- As character data, the same key is read as it is. -/
theorem cData_is_kept :
    parseDeleteKeys scanner (resolver []) (deleteDocument [cDataKey]) =
      .ok [("a&b".toList, some "v1".toList, none)] := by
  refine ((parse_delete_keys_iff scanner_reads (resolver_resolves [])).1 [cDataKey] ?_ ?_ ?_ ?_).2 ?_
  · decide
  · decide
  · decide
  · decide
  · decide

end Written

end Sqrzl.S3
