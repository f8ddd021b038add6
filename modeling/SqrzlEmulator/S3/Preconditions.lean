import SqrzlEmulator.S3.Copy
import Mathlib.Data.List.TakeWhile

/-!
# The preconditions of writes

`PutObject` and `CopyObject` look at their preconditions twice: `check_put_conditionals` reads the
headers against the metadata of the key before anything is stored, and `mutation_condition` turns
the same headers into the condition under which the store writes (`object/helpers.rs`). Both
handlers refuse an `If-None-Match` that is not `*`.

## Where the two readings differ

* `If-Unmodified-Since` is read by the check only.
* A request with **both** `If-Match` and `If-None-Match` is checked against both, and stored under
  the first one alone.
* A `*` that is **one member of a list** is any ETag to the check, and an ETag of that name to the
  condition, which asks for a `*` only where it is the whole header.

`check_and_commit_agree` says what they have in common where no star is a member of a list. An
`If-Match` on a key that holds nothing is refused by both readings, but as a missing key.
`check_then_store_eq` ties both readings to the handler.
-/

namespace Sqrzl

/-! ### Trimming -/

theorem mem_dropWhile_of_mem {p : Char → Bool} {c : Char} {s : List Char} (hc : p c = false)
    (h : c ∈ s) : c ∈ s.dropWhile p := by
  rw [← List.takeWhile_append_dropWhile (p := p) (l := s), List.mem_append] at h
  refine h.resolve_left fun hmem ↦ ?_
  exact Bool.false_ne_true (hc.symm.trans (List.mem_takeWhile_imp hmem))

/-- A character that is no whitespace is not trimmed. -/
theorem mem_trim {s : String} {c : Char} (hc : c.isWhitespace = false) (h : c ∈ s.toList) :
    c ∈ (trim s).toList := by
  rw [trim, String.toList_ofList, List.mem_reverse]
  refine mem_dropWhile_of_mem hc (List.mem_reverse.2 ?_)
  exact mem_dropWhile_of_mem hc h

theorem splitCommas_of_notMem {s : String} (h : ',' ∉ s.toList) : splitCommas s = [s] := by
  rw [splitCommas, List.splitOn_eq_singleton h]
  simp

/-- A header that is a single star has one member. -/
theorem splitCommas_of_star {value : String} (h : trim value = "*") : splitCommas value = [value] := by
  refine splitCommas_of_notMem fun hcomma ↦ ?_
  have hmem := mem_trim (c := ',') (by decide) hcomma
  rw [h] at hmem
  revert hmem
  decide

namespace S3

/-! ### Members of a list of ETags -/

/-- One member of a list is an ETag that is compared strongly. -/
def NamesEtag (value etag : String) : Prop :=
  ∃ candidate ∈ splitCommas value, normalizeStrongEtag candidate = some etag

/-- One member of a list is a star. -/
def HoldsStar (value : String) : Prop := ∃ candidate ∈ splitCommas value, trim candidate = "*"

/-- An ETag without quotes, surrounding whitespace or the mark of a weak one. All that the store
writes are: digests, digests with the number of parts, and identities. -/
def PlainEtag (etag : String) : Prop := normalizeStrongEtag etag = some etag

section Lists

variable {value etag : String}

theorem strongEtagListMatches_iff (h : PlainEtag etag) :
    strongEtagListMatches value etag = true ↔ HoldsStar value ∨ NamesEtag value etag := by
  rw [strongEtagListMatches, h]
  simp only [List.any_eq_true, Bool.or_eq_true, decide_eq_true_eq, HoldsStar, NamesEtag]
  constructor
  · rintro ⟨candidate, hmem, hstar | hname⟩
    · exact .inl ⟨candidate, hmem, hstar⟩
    · exact .inr ⟨candidate, hmem, hname⟩
  · rintro (⟨candidate, hmem, hstar⟩ | ⟨candidate, hmem, hname⟩)
    · exact ⟨candidate, hmem, .inl hstar⟩
    · exact ⟨candidate, hmem, .inr hname⟩

theorem holdsStar_of_star (h : trim value = "*") : HoldsStar value :=
  ⟨value, by rw [splitCommas_of_star h, List.mem_singleton], h⟩

/-- A single star rejects every ETag there is. -/
theorem weakEtagListMatches_of_star (h : trim value = "*") :
    weakEtagListMatches value etag = true := by
  rw [weakEtagListMatches, splitCommas_of_star h, List.any_cons, normalizeWeakEtag, h]
  rfl

theorem holds_etagIn_iff {o : Object} :
    (ObjectCondition.etagIn ((splitCommas value).filterMap normalizeStrongEtag)).holds (some o) =
      true ↔ NamesEtag value o.etag := by
  simp only [ObjectCondition.holds, Option.any_some, List.any_eq_true, List.mem_filterMap,
    decide_eq_true_eq, NamesEtag]
  constructor
  · rintro ⟨etag, ⟨candidate, hmem, hname⟩, rfl⟩
    exact ⟨candidate, hmem, hname⟩
  · rintro ⟨candidate, hmem, hname⟩
    exact ⟨o.etag, ⟨candidate, hmem, hname⟩, rfl⟩

end Lists

/-! ### The two readings -/

section Readings

variable (C : Codec) (req : Request) (existing : Option Object)

/-- The check before a write lets a request through. -/
def Checked : Prop := checkPutConditionals C req existing = .ok ()

/-- The condition of a write, if there is one, holds of the object. -/
def Committed : Prop := (mutationCondition req).all fun condition ↦ condition.holds existing

/-- Both handlers refuse an `If-None-Match` that is not a star. -/
def UnsupportedForm : Prop := ((req.header "if-none-match").any fun value ↦ trim value ≠ "*") = true

/-- What an `If-Match` on a key that holds nothing is answered with. -/
def noSuchKeyResponse : Refusal := ⟨404, "NoSuchKey", "The specified key does not exist."⟩

/-- The answer to the preconditions of a request that nothing else stands in the way of. -/
def answerPreconditions : Except Refusal Unit := do
  checkPutConditionals C req existing
  if !((mutationCondition req).all fun condition ↦ condition.holds existing) then
    throw preconditionFailedResponse

/-- The object has been changed since the date that the request names. -/
def ModifiedSince (o : Object) : Prop :=
  ((req.header "if-unmodified-since").bind C.parseRfc2822).any (o.lastModified > ·) = true

end Readings

section Agreement

variable {C : Codec} {req : Request} {o : Object}

theorem checked_none_iff : Checked C req none ↔ req.header "if-match" = none := by
  unfold Checked checkPutConditionals
  cases req.header "if-match" with
  | none => exact ⟨fun _ ↦ rfl, fun _ ↦ rfl⟩
  | some value => simp

theorem committed_none_iff : Committed req none ↔ req.header "if-match" = none := by
  unfold Committed mutationCondition
  cases req.header "if-match" with
  | some value =>
    simp only [reduceCtorEq, iff_false]
    split <;> simp [ObjectCondition.holds]
  | none =>
    simp only [iff_true]
    cases req.header "if-none-match" with
    | none => simp
    | some value =>
      simp only [Option.map_some, Option.all_some]
      split <;> simp [ObjectCondition.holds]

/-- A header of a supported form is a star. -/
theorem star_of_supported (h : ¬ UnsupportedForm req) {value : String}
    (hvalue : req.header "if-none-match" = some value) : trim value = "*" := by
  simpa [UnsupportedForm, hvalue] using h

/-- **What is let through by the check** satisfies each of its parts. -/
theorem checked_some_iff (hplain : PlainEtag o.etag) (h : ¬ UnsupportedForm req) :
    Checked C req (some o) ↔
      (∀ value, req.header "if-match" = some value → HoldsStar value ∨ NamesEtag value o.etag) ∧
      ¬ ModifiedSince C req o ∧ req.header "if-none-match" = none := by
  have hmatch : ((req.header "if-match").any fun value ↦ !strongEtagListMatches value o.etag) =
      false ↔
        ∀ value, req.header "if-match" = some value → HoldsStar value ∨ NamesEtag value o.etag := by
    cases req.header "if-match" with
    | none => simp
    | some value =>
      rw [Option.any_some, Bool.not_eq_false', strongEtagListMatches_iff hplain]
      simp
  have hnone : ((req.header "if-none-match").any fun value ↦ weakEtagListMatches value o.etag) =
      false ↔ req.header "if-none-match" = none := by
    cases hvalue : req.header "if-none-match" with
    | none => simp
    | some value =>
      rw [Option.any_some, weakEtagListMatches_of_star (star_of_supported h hvalue)]
      simp
  rw [← hmatch, ← hnone, ModifiedSince, Bool.not_eq_true]
  unfold Checked checkPutConditionals
  simp only
  cases (req.header "if-match").any fun value ↦ !strongEtagListMatches value o.etag with
  | true => exact ⟨fun h ↦ (by cases h), fun h ↦ (by cases h.1)⟩
  | false =>
    cases ((req.header "if-unmodified-since").bind C.parseRfc2822).any (o.lastModified > ·) with
    | true => exact ⟨fun h ↦ (by cases h), fun h ↦ (by cases h.2.1)⟩
    | false =>
      cases (req.header "if-none-match").any fun value ↦ weakEtagListMatches value o.etag with
      | true => exact ⟨fun h ↦ (by cases h), fun h ↦ (by cases h.2.2)⟩
      | false => exact ⟨fun _ ↦ ⟨rfl, rfl, rfl⟩, fun _ ↦ rfl⟩

/-- **What is stored** satisfies the first of the two headers that the request has. -/
theorem committed_some_iff (h : ¬ UnsupportedForm req) :
    Committed req (some o) ↔
      match req.header "if-match" with
      | some value => trim value = "*" ∨ NamesEtag value o.etag
      | none => req.header "if-none-match" = none := by
  unfold Committed mutationCondition
  cases req.header "if-match" with
  | some value =>
    simp only
    split
    · next hstar => simp [ObjectCondition.holds, hstar]
    · next hstar => rw [Option.all_some, holds_etagIn_iff, or_iff_right hstar]
  | none =>
    simp only
    cases hvalue : req.header "if-none-match" with
    | none => simp
    | some value => simp [star_of_supported h hvalue, ObjectCondition.holds]

/-- A refusal of the check is an answer, and so is one of the condition. -/
theorem answer_failed_iff {existing : Option Object} :
    answerPreconditions C req existing = .error preconditionFailedResponse ↔
      ¬ Committed req existing ∧ Checked C req existing ∨
        checkPutConditionals C req existing = .error preconditionFailedResponse := by
  unfold answerPreconditions Committed Checked
  cases hcheck : checkPutConditionals C req existing with
  | error e => simp [bind, Except.bind]
  | ok u =>
    cases hcommit : (mutationCondition req).all fun condition ↦ condition.holds existing with
    | true => simp [bind, Except.bind, pure, Except.pure]
    | false => simp [bind, Except.bind, throw, throwThe, MonadExceptOf.throw]

/-- An object that is there is only ever refused on a precondition. -/
theorem check_some_cases : Checked C req (some o) ∨
    checkPutConditionals C req (some o) = .error preconditionFailedResponse := by
  unfold Checked checkPutConditionals
  simp only
  cases (req.header "if-match").any fun value ↦ !strongEtagListMatches value o.etag with
  | true => exact .inr rfl
  | false =>
    cases ((req.header "if-unmodified-since").bind C.parseRfc2822).any (o.lastModified > ·) with
    | true => exact .inr rfl
    | false =>
      cases (req.header "if-none-match").any fun value ↦ weakEtagListMatches value o.etag with
      | true => exact .inr rfl
      | false => exact .inl rfl

/-- Where an object is there, a request is refused by either of the two readings. -/
theorem answer_failed_some_iff :
    answerPreconditions C req (some o) = .error preconditionFailedResponse ↔
      ¬ (Committed req (some o) ∧ Checked C req (some o)) := by
  rw [answer_failed_iff]
  constructor
  · rintro (⟨hcommit, -⟩ | hcheck) ⟨hcommitted, hchecked⟩
    · exact hcommit hcommitted
    · rw [Checked, hcheck] at hchecked
      cases hchecked
  · intro h
    rcases @check_some_cases C req o with hchecked | hcheck
    · exact .inl ⟨fun hcommitted ↦ h ⟨hcommitted, hchecked⟩, hchecked⟩
    · exact .inr hcheck

/-- A key that holds nothing is never refused on a precondition. -/
theorem answer_none_ne :
    answerPreconditions C req none ≠ .error preconditionFailedResponse := by
  rw [Ne, answer_failed_iff, checked_none_iff, committed_none_iff]
  rintro (⟨hcommit, hcheck⟩ | hcheck)
  · exact hcommit hcheck
  · unfold checkPutConditionals at hcheck
    cases hmatch : req.header "if-match" with
    | none =>
      rw [hmatch] at hcheck
      cases hcheck
    | some value =>
      rw [hmatch] at hcheck
      exact absurd (congrArg Refusal.status (Except.error.inj hcheck)) (by decide)

/-- A key that holds nothing is missing to an `If-Match`. -/
theorem answer_none_missing_iff :
    answerPreconditions C req none = .error noSuchKeyResponse ↔
      (req.header "if-match").isSome := by
  unfold answerPreconditions checkPutConditionals
  cases hmatch : req.header "if-match" with
  | some value => exact ⟨fun _ ↦ rfl, fun _ ↦ rfl⟩
  | none =>
    have hcommit := (@committed_none_iff req).2 hmatch
    unfold Committed at hcommit
    rw [hcommit]
    exact ⟨fun h ↦ (by cases h), fun h ↦ (by cases h)⟩

/-- An object that is there is never missing. -/
theorem answer_some_ne :
    answerPreconditions C req (some o) ≠ .error noSuchKeyResponse := by
  intro h
  by_cases hfailed : answerPreconditions C req (some o) = .error preconditionFailedResponse
  · rw [hfailed] at h
    exact absurd (congrArg Refusal.status (Except.error.inj h)) (by decide)
  · rw [answer_failed_some_iff, not_not] at hfailed
    obtain ⟨hcommit, hcheck⟩ := hfailed
    unfold Committed at hcommit
    unfold Checked at hcheck
    unfold answerPreconditions at h
    rw [hcheck, hcommit] at h
    cases h

/-- **A write is answered with its preconditions.** Where the check of `object_put` and what
`store_put_object` does then meet the same object, nothing but `answerPreconditions` is in their
answer. -/
theorem check_then_store_eq {E : Env} {b : String} {key : Text} {V : Vault} {B : Bucket}
    {object : Object} (hB : V.buckets[b]? = some B) (hsize : object.data.length = object.size)
    (hform : ¬ UnsupportedForm req) :
    ((Prog.Atomic.ofExcept (checkPutConditionals C req (V.record b key).metadata) >>= fun _ ↦
        storePutObject E b key req object : Handler Unit) V).1 =
      answerPreconditions C req (V.record b key).metadata := by
  cases hcheck : checkPutConditionals C req (V.record b key).metadata with
  | error e =>
    rw [Prog.Atomic.ofExcept_bind_of_error rfl, answerPreconditions, hcheck]
    rfl
  | ok u =>
    -- what passed the check has no `If-Match` on a key that holds nothing
    have hfound : ¬ ((req.header "if-match").isSome && (V.record b key).metadata.isNone) = true := by
      intro hmissing
      rw [Bool.and_eq_true, Option.isNone_iff_eq_none] at hmissing
      rw [hmissing.2] at hcheck
      rw [checked_none_iff.1 hcheck] at hmissing
      cases hmissing.1
    obtain ⟨V', hput⟩ := Vault.exists_putObject_ok E key hB hsize
    rw [Prog.Atomic.ofExcept_bind_of_ok rfl, storePutObject,
      Prog.Atomic.refuseIf_bind_of_not (by exact hform), Prog.Atomic.view_bind,
      Prog.Atomic.refuseIf_bind_of_not hfound, answerPreconditions, hcheck]
    cases mutationCondition req with
    | none => exact congrArg Prod.fst (Prog.Atomic.mapError_ok.2 hput)
    | some condition =>
      dsimp only
      rw [Option.all_some]
      cases hc : condition.holds (V.record b key).metadata with
      | true =>
        have hwritten : Vault.putObjectIf E b key object object.data condition V = (.ok true, V') :=
          Vault.mutateIf_of_holds hc hput
        rw [Prog.Atomic.bind_of_ok (Prog.Atomic.mapError_ok.2 hwritten)]
        rfl
      | false =>
        have hrefused : Vault.putObjectIf E b key object object.data condition V = (.ok false, V) := by
          simp only [Vault.putObjectIf, Vault.mutateIf, Prog.Atomic.view_bind, hc]
          rfl
        rw [Prog.Atomic.bind_of_ok (Prog.Atomic.mapError_ok.2 hrefused)]
        rfl

end Agreement

/-- Every part of the check besides the ETag: what the condition of the write does not look at. -/
def Unchanged (C : Codec) (req : Request) (o : Object) : Prop :=
  ¬ ModifiedSince C req o ∧ (req.header "if-match" = none ∨ req.header "if-none-match" = none)

/-- **The check before a write and its condition.** Where a star is never one of several members, a
request of a supported form passes the check exactly when its condition holds of the same object and
nothing that only the check looks at stands against it. It is answered with a failed precondition
exactly when this is not so for an object that is there, and as a missing key exactly when it has an
`If-Match` and there is none. -/
theorem check_and_commit_agree (C : Codec) (req : Request) (existing : Option Object)
    (hform : ¬ UnsupportedForm req) (hplain : ∀ o, existing = some o → PlainEtag o.etag)
    (hstar : ∀ value, req.header "if-match" = some value → HoldsStar value → trim value = "*") :
    (Checked C req existing ↔
        Committed req existing ∧ ∀ o, existing = some o → Unchanged C req o) ∧
      (answerPreconditions C req existing = .error preconditionFailedResponse ↔
        ∃ o, existing = some o ∧ ¬ (Committed req existing ∧ Unchanged C req o)) ∧
      (answerPreconditions C req existing = .error noSuchKeyResponse ↔
        existing = none ∧ (req.header "if-match").isSome) := by
  cases existing with
  | none =>
    refine ⟨by simp [checked_none_iff, committed_none_iff], ?_, ?_⟩
    · simp [answer_none_ne]
    · simp [answer_none_missing_iff]
  | some o =>
    have hchecked : Checked C req (some o) ↔ Committed req (some o) ∧ Unchanged C req o := by
      rw [checked_some_iff (hplain o rfl) hform, committed_some_iff hform, Unchanged]
      cases hmatch : req.header "if-match" with
      | none => simp [and_comm]
      | some value =>
        have hlone : HoldsStar value ↔ trim value = "*" := ⟨hstar value hmatch, holdsStar_of_star⟩
        simp [hlone]
    refine ⟨by simpa using hchecked, ?_, ?_⟩
    · rw [answer_failed_some_iff, hchecked]
      simp
    · simp [answer_some_ne]

/-! ### Requests on one key -/

/-- A write that is to happen under an `If-Match`. -/
def putIfMatch (value : String) : Request where
  route := .objectPut "bucket".toList ['k']
  headers := (∅ : Table String String).set "if-match" (some value)

/-- A write that is to happen to an object that has not been changed. -/
def putUnmodified : Request where
  route := .objectPut "bucket".toList ['k']
  headers := (∅ : Table String String).set "if-unmodified-since"
    (some "Thu, 01 Jan 1970 00:00:00 GMT")

/-- An object with a digest for its ETag. -/
def digestedObject : Object := { plainObject with etag := "cfcd2084" }

theorem digestedObject_plain : PlainEtag digestedObject.etag := by
  unfold PlainEtag
  decide

theorem putIfMatch_supported {value : String} : ¬ UnsupportedForm (putIfMatch value) := by
  have hnone : (putIfMatch value).header "if-none-match" = none := by
    show ((∅ : Table String String).set "if-match" (some value))["if-none-match"]? = none
    rw [Table.getElem?_set, if_neg (by decide)]
    rfl
  simp [UnsupportedForm, hnone]

/-- A list that names the ETag passes both readings. -/
theorem named_etag_read_alike :
    Checked .simple (putIfMatch "\"a\", \"cfcd2084\"") (some digestedObject) ↔
      Committed (putIfMatch "\"a\", \"cfcd2084\"") (some digestedObject) ∧
        ∀ o, some digestedObject = some o →
          Unchanged .simple (putIfMatch "\"a\", \"cfcd2084\"") o := by
  refine (check_and_commit_agree .simple (putIfMatch "\"a\", \"cfcd2084\"")
    (some digestedObject) putIfMatch_supported ?_ ?_).1
  · intro o ho
    obtain rfl := Option.some.inj ho
    exact digestedObject_plain
  · intro value hvalue hstar
    have hmatch : (putIfMatch "\"a\", \"cfcd2084\"").header "if-match" =
        some "\"a\", \"cfcd2084\"" := by decide
    obtain rfl := Option.some.inj (hmatch.symm.trans hvalue)
    have hmembers : splitCommas "\"a\", \"cfcd2084\"" = ["\"a\"", " \"cfcd2084\""] := by
      decide
    obtain ⟨candidate, hmem, hcandidate⟩ := hstar
    rw [hmembers, List.mem_pair] at hmem
    rcases hmem with rfl | rfl
    · exact absurd hcandidate (by decide)
    · exact absurd hcandidate (by decide)

/-- **The two readings differ**: a star in a list passes the check and not the condition, a date
passes the condition and not the check, and a key that holds nothing is not answered with a failed
precondition. -/
theorem star_in_list_read_twice :
    ¬ (Checked .simple (putIfMatch "\"a\", *") (some digestedObject) ↔
      Committed (putIfMatch "\"a\", *") (some digestedObject)) ∧
    ¬ (Checked { Codec.simple with parseRfc2822 := fun _ ↦ some 0 } putUnmodified
        (some { digestedObject with lastModified := 1 }) ↔
      Committed putUnmodified (some { digestedObject with lastModified := 1 })) ∧
    ¬ (answerPreconditions .simple (putIfMatch "\"a\"") none = .error preconditionFailedResponse ↔
      ¬ Committed (putIfMatch "\"a\"") none) := by
  refine ⟨fun h ↦ ?_, fun h ↦ ?_, fun h ↦ ?_⟩
  · have hcheck : Checked .simple (putIfMatch "\"a\", *") (some digestedObject) := by
      unfold Checked
      decide
    have hcommit := h.1 hcheck
    unfold Committed at hcommit
    revert hcommit
    decide
  · have hcommit : Committed putUnmodified (some { digestedObject with lastModified := 1 }) := by
      unfold Committed
      decide
    have hcheck := h.2 hcommit
    unfold Checked at hcheck
    revert hcheck
    decide
  · refine answer_none_ne (h.2 ?_)
    rw [committed_none_iff]
    decide

end S3

end Sqrzl
