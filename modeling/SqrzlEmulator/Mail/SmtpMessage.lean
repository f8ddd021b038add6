import SqrzlEmulator.Data.Lossy
import SqrzlEmulator.Data.Splitting
import SqrzlEmulator.Data.Texts
import SqrzlEmulator.Mail.Model

/-!
# Messages from SMTP

`build_message` of `mail/smtp.rs`: the headers and the body of a DATA payload, and the addresses in
the headers. What panics has no value. An index counts characters, so that a slice is in range
exactly if it is in range as one of bytes.

An address is cut out between the first `<` and the last `>`, which are looked for on their own.
**A payload becomes a message exactly if no address that is read has its last `>` before its first
`<`** (`build_message_returns_iff`). Which headers these are does not depend on the envelope.
-/

namespace Sqrzl.Mail

/-! ### Texts -/

/-- A line without the carriage return at its end. -/
def stripReturn (line : Text) : Text := if line.getLast? = some '\r' then line.dropLast else line

/-- `str::lines` -/
def lines (t : Text) : List Text :=
  (t.splitOn '\n').dropLast.map stripReturn ++ (t.splitOn '\n').getLast?.toList.filter (· ≠ [])

/-- `str::find` -/
def find (c : Char) (t : Text) : Option ℕ := t.findIdx? (· = c)

/-- `str::rfind` -/
def rfind (c : Char) (t : Text) : Option ℕ := (find c t.reverse).map (t.length - 1 - ·)

/-- `&t[start..stop]`, which panics if it ends before it begins. -/
def slice (t : Text) (start stop : ℕ) : Option Text :=
  if start ≤ stop ∧ stop ≤ t.length then some ((t.take stop).drop start) else none

/-! ### Addresses -/

/-- What stands between the first `<` and the last `>`, if both occur. -/
def betweenBrackets (value : Text) : Option Text :=
  match find '<' value, rfind '>' value with
  | some start, some stop => slice value (start + 1) stop
  | _, _ => some value

/-- `parse_header_address` -/
def parseHeaderAddress (value : Text) : Option (Option Address) :=
  if trim value = [] then some none
  else (betweenBrackets (trim value)).map fun value ↦
    if value = [] then none else some { email := String.ofList (trim value) }

/-- `parse_header_address_list` -/
def parseHeaderAddressList (value : Text) : Option (List Address) :=
  (value.splitOn ',').foldlM (fun out raw ↦ do
    let address ← parseHeaderAddress raw
    return out ++ address.toList) []

/-! ### Messages -/

/-- The envelope of a message. -/
structure Transaction where
  «from» : Option Address := none
  recipients : List Address := []

/-- A header, if a line is one. -/
def headerLine (line : Text) : Option (String × String) :=
  (splitOnce ':' line).map fun header ↦
    (String.ofList ((trim header.1).map Char.toLower), String.ofList (trim header.2))

/-- The headers and the body of a payload. -/
def splitMessage (raw : Bytes) : Text × Text :=
  (Splitting.splitOnce "\n\n".toList (Lossy.decode raw)).getD (Lossy.decode raw, [])

/-- The headers by their names; the last one of a name counts. -/
def headersOf (headerBlock : Text) : Table String String :=
  (lines headerBlock).foldl (fun headers line ↦ match headerLine line with
    | some (name, value) => headers.insert name value
    | none => headers) ∅

/-- `build_message` -/
def buildMessage (transaction : Transaction) (raw : Bytes) : Option Message := do
  let (headerBlock, body) := splitMessage raw
  let headers := headersOf headerBlock
  let «from» ← parseHeaderAddress
    ((headers["from"]?.or headers["x-envelope-from"]?).getD "unknown@localhost").toList
  let recipients ← parseHeaderAddressList
    ((headers["to"]?.or headers["x-envelope-to"]?).getD "").toList
  let cc ← parseHeaderAddressList (headers["cc"]?.getD "").toList
  let bcc ← parseHeaderAddressList (headers["bcc"]?.getD "").toList
  return {
    sourceProtocol := .smtp
    «from» := transaction.«from».getD («from».getD { email := "unknown@localhost" })
    «to» := if transaction.recipients.isEmpty then recipients else transaction.recipients
    cc := cc
    bcc := bcc
    replyTo := []
    subject := headers["subject"]?.getD ""
    headers := headers
    bodyText := some (String.ofList (trim body))
    bodyHtml := none
    attachments := []
    userEngagementTrackingDisabled := none
    providerMetadata := ∅
    rawMime := some raw
    threadId := none }

/-! ### What is cut out -/

variable {t a b : Text} {c : Char}

theorem find_eq_none (h : c ∉ t) : find c t = none := by
  refine List.findIdx?_eq_none_iff.2 fun d hd ↦ decide_eq_false ?_
  rintro rfl
  exact h hd

theorem find_append_cons (h : c ∉ a) : find c (a ++ c :: b) = some a.length := by
  have ha : a.findIdx? (fun d ↦ decide (d = c)) = none := find_eq_none h
  unfold find
  rw [List.findIdx?_append, ha, List.findIdx?_cons, if_pos (decide_eq_true rfl)]
  show some (0 + a.length) = _
  rw [Nat.zero_add]

theorem rfind_eq_none (h : c ∉ t) : rfind c t = none := by
  rw [rfind, find_eq_none (mt List.mem_reverse.1 h)]
  rfl

theorem rfind_append_cons (h : c ∉ b) : rfind c (a ++ c :: b) = some a.length := by
  have hreverse : (a ++ c :: b).reverse = b.reverse ++ c :: a.reverse := by
    rw [List.reverse_append, List.reverse_cons, List.append_assoc]
    rfl
  rw [rfind, hreverse, find_append_cons (mt List.mem_reverse.1 h), Option.map_some]
  simp only [List.length_append, List.length_cons, List.length_reverse, Option.some.injEq]
  omega

/-- Both brackets occur, and no `>` follows the first `<`. -/
def Crossed (value : Text) : Prop :=
  '<' ∈ value ∧ '>' ∈ value ∧ '>' ∉ value.dropWhile (· ≠ '<')

instance (value : Text) : Decidable (Crossed value) := inferInstanceAs (Decidable (_ ∧ _ ∧ _))

theorem dropWhile_append_cons (h : c ∉ a) : (a ++ c :: b).dropWhile (· ≠ c) = c :: b := by
  rw [List.dropWhile_append_of_pos]
  · exact List.dropWhile_cons_of_neg (by simp)
  · intro d hd
    refine decide_eq_true ?_
    rintro rfl
    exact h hd

/-- **A slice between two brackets is out of range exactly if they are crossed.** -/
theorem betweenBrackets_eq_none_iff : betweenBrackets t = none ↔ Crossed t := by
  unfold betweenBrackets
  by_cases hopen : '<' ∈ t
  swap
  · rw [find_eq_none hopen]
    exact iff_of_false (by simp) fun h ↦ hopen h.1
  by_cases hclose : '>' ∈ t
  swap
  · rw [rfind_eq_none hclose]
    refine iff_of_false ?_ fun h ↦ hclose h.2.1
    cases find '<' t <;> simp
  obtain ⟨a, b, rfl, ha⟩ := List.eq_append_cons_of_mem hopen
  obtain ⟨d, e, hde, he⟩ : ∃ d e, a ++ '<' :: b = d ++ '>' :: e ∧ '>' ∉ e := by
    obtain ⟨e, d, hed, he⟩ := List.eq_append_cons_of_mem (List.mem_reverse.2 hclose)
    refine ⟨d.reverse, e.reverse, ?_, mt List.mem_reverse.1 he⟩
    rw [← List.reverse_reverse (a ++ '<' :: b), hed, List.reverse_append, List.reverse_cons,
      List.append_assoc]
    rfl
  have hrfind : rfind '>' (a ++ '<' :: b) = some d.length := by rw [hde, rfind_append_cons he]
  have hlength := congrArg List.length hde
  simp only [List.length_append, List.length_cons] at hlength
  rw [find_append_cons ha, hrfind]
  show slice _ _ _ = none ↔ _
  rw [slice, Crossed, dropWhile_append_cons ha]
  rcases List.append_eq_append_iff.1 hde with ⟨f, rfl, hbehind⟩ | ⟨f, rfl, hbehind⟩
  · -- the last `>` is behind the first `<`
    have hmem : '>' ∈ '<' :: b := by
      rw [hbehind]
      exact List.mem_append_right _ List.mem_cons_self
    have hpos : f ≠ [] := by
      rintro rfl
      cases hbehind
    have hlen := List.length_pos_iff.2 hpos
    refine iff_of_false ?_ fun h ↦ h.2.2 hmem
    rw [if_pos]
    · exact Option.some_ne_none _
    · simp only [List.length_append, List.length_cons] at hlength ⊢
      omega
  · refine iff_of_true (if_neg ?_) ⟨hopen, hclose, fun hmem ↦ ?_⟩
    · simp only [List.length_append]
      omega
    · cases f with
      | nil => cases hbehind
      | cons x f =>
        obtain ⟨-, rfl⟩ := List.cons_eq_cons.1 hbehind
        exact he (List.mem_append_right f hmem)

/-- A text without the white space around it. -/
theorem trim_spec (t : Text) : ∃ a b, t = a ++ (trim t ++ b) ∧
    (∀ c ∈ a, isWhitespace c = true) ∧ ∀ c ∈ b, isWhitespace c = true := by
  refine ⟨t.takeWhile isWhitespace,
    ((t.dropWhile isWhitespace).reverse.takeWhile isWhitespace).reverse, ?_,
    fun c hc ↦ List.all_eq_true.1 List.all_takeWhile c hc,
    fun c hc ↦ List.all_eq_true.1 List.all_takeWhile c (List.mem_reverse.1 hc)⟩
  rw [trim, ← List.reverse_append, List.takeWhile_append_dropWhile, List.reverse_reverse,
    List.takeWhile_append_dropWhile]

/-- White space around a text crosses no brackets. -/
theorem crossed_trim : Crossed (trim t) ↔ Crossed t := by
  obtain ⟨a, b, heq, ha, hb⟩ := trim_spec t
  have hmem : ∀ c, isWhitespace c = false → (c ∈ trim t ↔ c ∈ t) := by
    intro c hc
    have hout : ∀ l : Text, (∀ d ∈ l, isWhitespace d = true) → c ∉ l := by
      intro l hl hcl
      rw [hl c hcl] at hc
      cases hc
    conv_rhs => rw [heq]
    rw [List.mem_append, List.mem_append]
    exact ⟨fun h ↦ .inr (.inl h), fun h ↦ (h.resolve_left (hout a ha)).resolve_right (hout b hb)⟩
  have hopen := hmem '<' (by decide)
  have hclose := hmem '>' (by decide)
  unfold Crossed
  rw [hopen, hclose]
  refine and_congr_right fun hin ↦ and_congr_right fun _ ↦ not_congr ?_
  obtain ⟨d, e, hde, hd⟩ := List.eq_append_cons_of_mem (hopen.2 hin)
  have hleft : '<' ∉ a ++ d := by
    intro h
    rcases List.mem_append.1 h with h | h
    · exact absurd (ha _ h) (by decide)
    · exact hd h
  have ht : t = a ++ d ++ '<' :: (e ++ b) := by
    conv_lhs => rw [heq, hde]
    simp only [List.append_assoc, List.cons_append]
  conv_rhs => rw [ht, dropWhile_append_cons hleft]
  rw [hde, dropWhile_append_cons hd, ← List.cons_append, List.mem_append]
  exact ⟨.inl, fun h ↦ h.resolve_right fun h ↦ absurd (hb _ h) (by decide)⟩

/-- **An address is read exactly if its brackets are not crossed.** -/
theorem parseHeaderAddress_isSome_iff :
    (parseHeaderAddress t).isSome = true ↔ ¬ Crossed t := by
  rw [← crossed_trim, parseHeaderAddress]
  by_cases hnil : trim t = []
  · rw [if_pos hnil, hnil]
    exact iff_of_true rfl (by decide)
  · rw [if_neg hnil, Option.isSome_map, ← betweenBrackets_eq_none_iff]
    exact Option.isSome_iff_ne_none

theorem parseHeaderAddressList_isSome_iff :
    (parseHeaderAddressList t).isSome = true ↔ ∀ entry ∈ t.splitOn ',', ¬ Crossed entry := by
  have hfold : ∀ (l : List Text) (out : List Address), (l.foldlM (fun out raw ↦ do
      let address ← parseHeaderAddress raw
      return out ++ address.toList) out).isSome = true ↔ ∀ entry ∈ l, ¬ Crossed entry := by
    intro l
    induction l with
    | nil => exact fun _ ↦ iff_of_true rfl fun _ h ↦ absurd h List.not_mem_nil
    | cons entry l ih =>
      intro out
      rw [List.forall_mem_cons, ← parseHeaderAddress_isSome_iff, List.foldlM_cons]
      cases parseHeaderAddress entry with
      | none => exact iff_of_false Bool.false_ne_true fun h ↦ Bool.false_ne_true h.1
      | some address => exact (ih _).trans ⟨fun h ↦ ⟨rfl, h⟩, fun h ↦ h.2⟩
  exact hfold _ _

/-! ### The headers that are read -/

/-- The value of the last header of a name. -/
def headerValue (headerBlock : Text) (name : String) : Option String :=
  ((lines headerBlock).reverse.filterMap headerLine).lookup name

theorem headersOf_getElem? (headerBlock : Text) (name : String) :
    (headersOf headerBlock)[name]? = headerValue headerBlock name := by
  unfold headersOf headerValue
  induction lines headerBlock using List.reverseRecOn with
  | nil => exact Std.ExtTreeMap.getElem?_empty
  | append_singleton lines line ih =>
    rw [List.foldl_append, List.reverse_append, List.reverse_singleton, List.singleton_append]
    cases hline : headerLine line with
    | none =>
      rw [List.filterMap_cons_none hline, ← ih]
      simp only [List.foldl_cons, List.foldl_nil, hline]
    | some header =>
      obtain ⟨key, value⟩ := header
      rw [List.filterMap_cons_some hline, List.lookup_cons]
      simp only [List.foldl_cons, List.foldl_nil, hline]
      rw [Std.ExtTreeMap.getElem?_insert]
      by_cases hkey : key = name
      · rw [if_pos (by rw [hkey]; exact Std.ReflCmp.compare_self), hkey, beq_self_eq_true]
      · rw [if_neg (fun h ↦ hkey (Std.LawfulEqCmp.eq_of_compare h)),
          beq_false_of_ne (Ne.symm hkey)]
        exact ih

/-- **No address that is read has crossed brackets.** Where there is no From header, the header
X-Envelope-From counts, and likewise for To. -/
structure Uncrossed (value : String → Option String) : Prop where
  «from» : ∀ v ∈ (value "from").or (value "x-envelope-from"), ¬ Crossed v.toList
  «to» : ∀ v ∈ (value "to").or (value "x-envelope-to"), ∀ entry ∈ v.toList.splitOn ',',
    ¬ Crossed entry
  cc : ∀ v ∈ value "cc", ∀ entry ∈ v.toList.splitOn ',', ¬ Crossed entry
  bcc : ∀ v ∈ value "bcc", ∀ entry ∈ v.toList.splitOn ',', ¬ Crossed entry

/-- What holds of a value that has a default holds of the value, if it holds of the default. -/
theorem getD_iff {value : Option String} {default : String} {P : String → Prop} (h : P default) :
    P (value.getD default) ↔ ∀ v ∈ value, P v := by
  cases value with
  | none => exact iff_of_true h fun _ hv ↦ absurd hv (Option.not_mem_none _)
  | some v => exact ⟨fun hv w hw ↦ Option.some.inj hw ▸ hv, fun hv ↦ hv v rfl⟩

/-- **When a payload becomes a message**: exactly if no address that is read has crossed
brackets, whatever the envelope is. -/
theorem build_message_returns_iff (transaction : Transaction) (raw : Bytes) :
    (∃ message, buildMessage transaction raw = some message) ↔
      Uncrossed (headerValue (splitMessage raw).1) := by
  have hfrom := (@getD_iff ((headerValue (splitMessage raw).1 "from").or
    (headerValue (splitMessage raw).1 "x-envelope-from")) "unknown@localhost"
    (fun v ↦ (parseHeaderAddress v.toList).isSome = true) (by decide)).trans
    (forall₂_congr fun _ _ ↦ parseHeaderAddress_isSome_iff)
  have hlist : ∀ value : Option String, (parseHeaderAddressList (value.getD "").toList).isSome =
      true ↔ ∀ v ∈ value, ∀ entry ∈ v.toList.splitOn ',', ¬ Crossed entry := by
    intro value
    rw [getD_iff (P := fun v ↦ (parseHeaderAddressList v.toList).isSome = true)
      (by decide)]
    exact forall₂_congr fun v _ ↦ parseHeaderAddressList_isSome_iff
  have hto := hlist ((headerValue (splitMessage raw).1 "to").or
    (headerValue (splitMessage raw).1 "x-envelope-to"))
  have hcc := hlist (headerValue (splitMessage raw).1 "cc")
  have hbcc := hlist (headerValue (splitMessage raw).1 "bcc")
  have hparts : Uncrossed (headerValue (splitMessage raw).1) ↔ _ ∧ _ ∧ _ ∧ _ :=
    ⟨fun h ↦ ⟨h.«from», h.«to», h.cc, h.bcc⟩, fun h ↦ ⟨h.1, h.2.1, h.2.2.1, h.2.2.2⟩⟩
  rw [← Option.isSome_iff_exists, hparts]
  refine Iff.trans ?_ (and_congr hfrom (and_congr hto (and_congr hcc hbcc)))
  unfold buildMessage
  simp only [headersOf_getElem?]
  cases parseHeaderAddress (((headerValue (splitMessage raw).1 "from").or
      (headerValue (splitMessage raw).1 "x-envelope-from")).getD "unknown@localhost").toList with
  | none => exact iff_of_false Bool.false_ne_true fun h ↦ Bool.false_ne_true h.1
  | some «from» =>
    cases parseHeaderAddressList (((headerValue (splitMessage raw).1 "to").or
        (headerValue (splitMessage raw).1 "x-envelope-to")).getD "").toList with
    | none => exact iff_of_false Bool.false_ne_true fun h ↦ Bool.false_ne_true h.2.1
    | some recipients =>
      cases parseHeaderAddressList ((headerValue (splitMessage raw).1 "cc").getD "").toList with
      | none => exact iff_of_false Bool.false_ne_true fun h ↦ Bool.false_ne_true h.2.2.1
      | some cc =>
        cases parseHeaderAddressList ((headerValue (splitMessage raw).1 "bcc").getD "").toList with
        | none => exact iff_of_false Bool.false_ne_true fun h ↦ Bool.false_ne_true h.2.2.2
        | some bcc => exact iff_of_true rfl ⟨rfl, rfl, rfl, rfl⟩

/-- **A header whose brackets are crossed stops the session**: no message comes out of it. -/
theorem crossed_brackets_panic :
    (buildMessage { «from» := some { email := "a@x" }, recipients := [{ email := "b@x" }] }
      (Percent.utf8 "From: >x<\n\nhi\n".toList)).isNone = true := by decide

end Sqrzl.Mail
