import SqrzlEmulator.Gcs.Generations

/-!
# Retention

A bucket can have a retention period. **An object that is younger keeps its bytes, as long as no
route that checks once fails to read**, and no update of the bucket takes the policy away or makes
it shorter (`retained_bytes_stay`).

A retention check that cannot read the object or its bucket says "not retained". Media and multipart
uploads check twice, so that one failed read does not matter. A write or a deletion in the XML API,
a deletion in the JSON API and the completion of a resumable upload check once: **one failed read,
and the object is gone** (`failed_read_loses_object`). An update of a bucket writes back the metadata
that it has read, and if it does not find the file it has read none: **one failed query, and the
policy is gone** (`unfound_policy_is_lost`).

The period is validated as an unsigned number below 3155760000 and read back as a signed one, which
makes no difference in this range.
-/

namespace Sqrzl.Gcs

open Prog S3

/-! ### Periods -/

/-- **A decimal is read as the signed number it was written from.** -/
theorem parseI64_toString {n : ℕ} (h : n < 2 ^ 63) :
    Auth.parseI64 (toString n).toList = some (n : ℤ) := by
  rw [toList_toString]
  have hdigits := all_isDigit_toDigits n
  have hempty : (Nat.toDigits 10 n).isEmpty = false := by
    rw [List.isEmpty_eq_false_iff]
    exact toDigits_ne_nil n
  have hbound : (decide (-2 ^ 63 ≤ (n : ℤ)) && decide ((n : ℤ) < 2 ^ 63)) = true := by
    rw [Bool.and_eq_true, decide_eq_true_eq, decide_eq_true_eq]
    omega
  unfold Auth.parseI64
  dsimp only
  split
  · next digits heq =>
    rw [heq] at hdigits
    cases hdigits
  · next digits heq =>
    rw [heq] at hdigits
    cases hdigits
  · simp only [foldl_toDigits, hdigits, hempty, Bool.not_true, Bool.or_false, Bool.false_eq_true,
      if_false, Option.filter_some, hbound, if_true]

/-- The period that a payload asks for. -/
def requestedPeriod (payload : Json) : Option ℕ :=
  ((payload.get "retentionPolicy").bind (·.get "retentionPeriod")).bind Json.unsignedInteger

/-- A payload takes the policy away, or makes it shorter than `P` seconds. -/
def Lowers (P : ℕ) (payload : Json) : Prop :=
  (match payload.get "retentionPolicy" with
    | some .null => True
    | _ => False) ∨ ∃ seconds, requestedPeriod payload = some seconds ∧ seconds < P

/-- What is accepted as a period. -/
theorem lt_of_validateRetentionPolicy {payload : Json} {seconds : ℕ}
    (hvalid : validateRetentionPolicy payload = .ok ())
    (hseconds : requestedPeriod payload = some seconds) : 0 < seconds ∧ seconds < 3155760000 := by
  unfold validateRetentionPolicy at hvalid
  unfold requestedPeriod at hseconds
  split at hvalid
  · cases hvalid
  · split at hvalid
    · next hnone =>
      rw [hnone] at hseconds
      cases hseconds
    · next hnull =>
      rw [hnull] at hseconds
      cases hseconds
    · next policy _ hpolicy =>
      rw [hpolicy, Option.bind_some] at hseconds
      rw [hseconds] at hvalid
      dsimp only at hvalid
      split at hvalid
      · cases hvalid
      · next hrange =>
        simp only [Bool.or_eq_true, decide_eq_true_eq, not_or, not_le] at hrange
        exact ⟨Nat.pos_of_ne_zero hrange.1, hrange.2⟩

/-- What an update that is accepted writes. -/
theorem getElem?_withRetentionPolicy {payload : Json} {metadata : Table String String} :
    (withRetentionPolicy payload metadata)["gcs_retention_seconds"]? =
      match payload.get "retentionPolicy" with
      | some .null => none
      | _ => ((requestedPeriod payload).map toString).or metadata["gcs_retention_seconds"]? := by
  unfold withRetentionPolicy requestedPeriod
  cases hpolicy : payload.get "retentionPolicy" with
  | none => rfl
  | some policy =>
    cases policy with
    | null => simp
    | _ =>
      dsimp only
      rw [Option.bind_some]
      split
      · next hnone => rw [hnone]; rfl
      · next seconds hsome => rw [hsome]; simp

/-- An age in whole seconds, rounded towards zero. -/
theorem tdiv_lt_of_lt {P now written : ℕ} (hP : 0 < P) (hage : now < written + P * 1000000000) :
    ((now : ℤ) - written).tdiv 1000000000 < P := by
  rcases le_or_gt 0 ((now : ℤ) - written) with hpast | hfuture
  · rw [Int.tdiv_eq_ediv_of_nonneg hpast]
    omega
  · have hnonneg : 0 ≤ (-((now : ℤ) - written)).tdiv 1000000000 :=
      Int.tdiv_nonneg (by omega) (by decide)
    rw [Int.neg_tdiv] at hnonneg
    omega

/-! ### Retained objects -/

/-- An object of a bucket whose period is at least `P` seconds. -/
structure Retains (b : String) (key : Text) (P : ℕ) (data : Bytes) (written : Time) (S : System) :
    Prop where
  object : ∃ g, shown S.vault b key = some (data, written, g)
  period : ∃ text n, policy S.vault b = some (some text) ∧
    Auth.parseI64 text.toList = some n ∧ (P : ℤ) ≤ n

section Steps

variable {E : Env} {C : Crates} {combine : UInt32 → UInt32 → ℕ → UInt32} {b : String} {key : Text}
  {P : ℕ} {data : Bytes} {written now : Time} {S T : System} {scope : Scope}

/-- **An object that is younger than the period is found to be retained.** -/
theorem Retains.not_unretained (h : Retains b key P data written S) (hP : 0 < P)
    (hage : now < written + P * 1000000000) : ¬ Unretained now S.vault b key := by
  intro hfree
  obtain ⟨g, hshown⟩ := h.object
  obtain ⟨text, n, hpolicy, hn, hle⟩ := h.period
  obtain ⟨B, hB, htext⟩ := Option.map_eq_some_iff.1 hpolicy
  obtain ⟨⟨data', o⟩, hcurrent, hseen⟩ := Option.map_eq_some_iff.1 hshown
  obtain ⟨-, hwritten, -⟩ : data' = data ∧ o.lastModified = written ∧ generation o = g := by
    simpa using hseen
  have ho : (S.vault.record b key).metadata = some o := by
    rw [KeyRecord.metadata, hcurrent]
    rfl
  have hretained : retainedIn now B o = true := by
    rw [retainedIn, htext, Option.bind_some, hn, Option.any_some, decide_eq_true_eq, hwritten]
    exact lt_of_lt_of_le (tdiv_lt_of_lt hP hage) hle
  rw [hfree B o hB ho] at hretained
  cases hretained

theorem Retains.policyChange (h : Retains b key P data written S)
    (hobject : ∃ g, shown T.vault b key = some (data, written, g))
    (hlowers : ∀ payload, scope.update = some (b, payload) → ¬ Lowers P payload)
    {l : List Event} (hread : .failed .policy ∉ l)
    (hchange : PolicyChange scope l S T b) : Retains b key P data written T := by
  refine ⟨hobject, ?_⟩
  obtain ⟨text, n, hpolicy, hn, hle⟩ := h.period
  cases hchange with
  | kept hkept => exact ⟨text, n, hkept.trans hpolicy, hn, hle⟩
  | misread payload hscope hmissing => exact absurd hmissing hread
  | created hnone =>
    rw [policy, hnone] at hpolicy
    cases hpolicy
  | deleted hnone =>
    obtain ⟨g, hshown⟩ := hobject
    rw [shown, Vault.record, hnone] at hshown
    cases hshown
  | updated payload hscope hvalid B hB hupdated =>
    have hnot := hlowers payload hscope
    rw [policy, hB, Option.map_some, Option.some.injEq] at hpolicy
    rw [getElem?_withRetentionPolicy, hpolicy] at hupdated
    split at hupdated
    · next hnull => exact absurd (.inl (by rw [hnull]; trivial)) hnot
    · cases hseconds : requestedPeriod payload with
      | none =>
        rw [hseconds] at hupdated
        exact ⟨text, n, hupdated, hn, hle⟩
      | some seconds =>
        rw [hseconds] at hupdated
        have hlong : P ≤ seconds := not_lt.1 fun hlt ↦ hnot (.inr ⟨seconds, hseconds, hlt⟩)
        have hbound := (lt_of_validateRetentionPolicy hvalid hseconds).2
        exact ⟨toString seconds, seconds, hupdated, parseI64_toString (by omega), by omega⟩

end Steps

/-! ### Runs with failures -/

/-- How many calls have failed. -/
def failures (l : List Event) : ℕ := l.countP (· matches .failed _)

theorem retentionFailures_le (l : List Event) : retentionFailures l ≤ failures l := by
  rw [retentionFailures, List.count_eq_countP, failures]
  refine List.countP_mono_left fun e _ he ↦ ?_
  rw [eq_of_beq he]

/-- The target of a media or multipart upload. -/
def Target.isUpload : Target → Bool
  | .jsonUpload _ => true
  | _ => false

/-- One call of a request fails at most, and it is not a read of the retention check, unless the
request is an upload, nor the question for the metadata of a bucket, in an update of the bucket. -/
def Tolerated (target : Target) (l : List Event) : Prop :=
  failures l ≤ 1 ∧ (target.isUpload = false → retentionFailures l = 0) ∧ .failed .policy ∉ l

/-- Requests that are served one after the other. The events of each of them satisfy `Q`. -/
inductive FaultyRuns (E : Env) (C : Crates) (combine : UInt32 → UInt32 → ℕ → UInt32)
    (Q : Arrival → List Event → Prop) : Time → System → Time → System → Prop
  | refl (t : Time) (S : System) : FaultyRuns E C combine Q t S t S
  | step {t u : Time} {S T U : System} {a : Arrival} {r : Except Error Response} {l : List Event}
      (h : FaultyRuns E C combine Q t S u T) (hclock : u ≤ a.now)
      (hserved : (handleRequest E C a.now combine a.target a.req).Returns T r U)
      (hlog : U.log = l ++ T.log) (hQ : Q a l) : FaultyRuns E C combine Q t S a.now U

/-- A request that the retention check stands against. -/
def KeepsPolicy (C : Crates) (b : String) (P : ℕ) (a : Arrival) : Prop :=
  ∀ payload, bucketUpdate C a.target a.req = some (b, payload) → ¬ Lowers P payload

section Runs

variable {E : Env} {C : Crates} {combine : UInt32 → UInt32 → ℕ → UInt32} {b : String} {key : Text}
  {P : ℕ} {data : Bytes} {written : Time} {S T : System}

/-- A route overlooks one failed read more than it tolerates. -/
theorem Tolerated.lt_budget {target : Target} {req : Request} {l : List Event} {i : Intent}
    (h : Tolerated target l) (hi : intent E C target req S = some i) :
    retentionFailures l < i.budget := by
  obtain ⟨hone, hnone, -⟩ := h
  cases target with
  | xmlObject b key =>
    cases hi
    exact Nat.lt_of_le_of_lt (hnone rfl).le Nat.one_pos
  | jsonObject b key =>
    cases hi
    exact Nat.lt_of_le_of_lt (hnone rfl).le Nat.one_pos
  | jsonUpload b =>
    obtain ⟨key, -, rfl⟩ := Option.map_eq_some_iff.1 hi
    exact Nat.lt_succ_of_le ((retentionFailures_le l).trans hone)
  | resumable id =>
    obtain ⟨session, -, rfl⟩ := Option.map_eq_some_iff.1 hi
    exact Nat.lt_of_le_of_lt (hnone rfl).le Nat.one_pos
  | xmlBucket b => cases hi
  | jsonBuckets => cases hi
  | jsonBucket b => cases hi
  | jsonObjects b => cases hi

/-- **One request.** -/
theorem Retains.served {a : Arrival} {r : Except Error Response} {l : List Event}
    (h : Retains b key P data written S) (hP : 0 < P) (hage : a.now < written + P * 1000000000)
    (hserved : (handleRequest E C a.now combine a.target a.req).Returns S r T)
    (hlog : T.log = l ++ S.log) (htolerated : Tolerated a.target l) (hkeeps : KeepsPolicy C b P a) :
    Retains b key P data written T := by
  obtain ⟨l', hlog', hkeys, hpolicies⟩ := hserved.of_wp (does_handleRequest [])
  obtain rfl : l' = l := List.append_cancel_right (hlog'.symm.trans hlog)
  rw [List.append_nil] at hkeys hpolicies
  have hrefused : ∀ {scope : Scope}, scope = scopeOf E C a.target a.req S →
      scope.key = some (b, key) → ¬ Permitted E C a.now a.target a.req S l' := by
    rintro _ rfl hscope hpermitted
    obtain ⟨i, hi, hkey⟩ := Option.map_eq_some_iff.1 hscope
    cases hkey
    rcases (hpermitted i hi).1 with hfree | hcount
    · exact h.not_unretained hP hage hfree
    · exact absurd (htolerated.lt_budget hi) (not_lt.2 hcount)
  have hlowers : ∀ payload, (scopeOf E C a.target a.req S).update = some (b, payload) →
      ¬ Lowers P payload := hkeeps
  refine h.policyChange ?_ hlowers htolerated.2.2 (hpolicies b)
  cases hkeys b key with
  | kept hshown _ =>
    rw [hshown]
    exact h.object
  | removed hscope hpermit _ _ => exact absurd hpermit (hrefused rfl hscope)
  | stored hscope _ hpermit _ _ _ _ _ => exact absurd hpermit (hrefused rfl hscope)

/-- **A run.** -/
theorem Retains.runs {t u : Time} (h : Retains b key P data written S) (hP : 0 < P)
    (hage : u < written + P * 1000000000)
    (hruns : FaultyRuns E C combine (fun a l ↦ Tolerated a.target l ∧ KeepsPolicy C b P a) t S u T) :
    Retains b key P data written T := by
  induction hruns with
  | refl => exact h
  | step hruns hclock hserved hlog hQ ih =>
    exact (ih h (lt_of_le_of_lt hclock hage)).served hP hage hserved hlog hQ.1 hQ.2

theorem errorsIn_validatePolicyFields {payload : Json} {name allowed : String} :
    ErrorsIn (·.status ≠ 200) (validatePolicyFields payload name allowed) := by
  unfold validatePolicyFields
  split
  · exact .ok
  · exact .ok
  · split
    · exact .ok
    · exact .error nofun
  · exact .error nofun

theorem errorsIn_validateBucketFields {req : Request} {payload : Json} :
    ErrorsIn (·.status ≠ 200) (validateBucketFields req payload) := by
  have hfield : ∀ post field, ErrorsIn (·.status ≠ 200) (validateBucketField post field) := by
    intro post field
    unfold validateBucketField
    split
    · exact .ok
    · split
      · exact .error nofun
      · exact .error nofun
  have hfields : ∀ (fields : List (String × Json)) (post : Bool),
      ErrorsIn (·.status ≠ 200) (fields.forM fun field ↦ validateBucketField post field.1) := by
    intro fields post
    induction fields with
    | nil => exact .ok
    | cons field rest ih => exact (hfield post field.1).bind fun _ ↦ ih
  unfold validateBucketFields
  split
  · refine (hfields _ _).bind fun _ ↦ errorsIn_validatePolicyFields.bind fun _ ↦
      errorsIn_validatePolicyFields.bind fun _ ↦ ?_
    split
    · exact .error nofun
    · exact .ok
  · exact .error nofun

theorem errorsIn_validateRetentionPolicy {payload : Json} :
    ErrorsIn (·.status ≠ 200) (validateRetentionPolicy payload) := by
  unfold validateRetentionPolicy
  split
  · exact .error fun h ↦ by cases h
  · split
    · exact .ok
    · exact .ok
    · split
      · exact .error fun h ↦ by cases h
      · split
        · exact .error fun h ↦ by cases h
        · exact .ok

theorem errorsIn_validateSoftDeletePolicy {payload : Json} :
    ErrorsIn (·.status ≠ 200) (validateSoftDeletePolicy payload) := by
  unfold validateSoftDeletePolicy
  split
  · exact .error fun h ↦ by cases h
  · split
    · exact .ok
    · split
      · exact .error fun h ↦ by cases h
      · split
        · exact .error fun h ↦ by cases h
        · split
          · exact .error fun h ↦ by cases h
          · exact .ok

theorem errorsIn_validateBucketDataProtection {req : Request} {payload : Json} :
    ErrorsIn (·.status ≠ 200) (validateBucketDataProtection req payload) := by
  refine errorsIn_validateBucketFields.bind fun _ ↦ ?_
  split
  · exact .error nofun
  · exact errorsIn_validateRetentionPolicy.bind fun _ ↦ errorsIn_validateSoftDeletePolicy

/-- **A period that an update was answered with is the one that is read back.** -/
theorem policy_of_patch {a : Arrival} {response : Response} {payload : Json} {seconds : ℕ}
    (htarget : a.target = .jsonBucket b) (hmethod : a.req.method = .patch)
    (hpayload : C.parseJson a.req.body = some payload)
    (hseconds : requestedPeriod payload = some seconds)
    (hserved : (handleRequest E C a.now combine a.target a.req).Returns S (.ok response) T)
    (hstatus : response.status = 200) :
    ∃ text, policy T.vault b = some (some text) ∧
      Auth.parseI64 text.toList = some (seconds : ℤ) := by
  have hnot : ∀ {r : Response} {U : System} {Q : System → Prop}, r.status ≠ 200 →
      wp (fun _ ↦ True) (ret r : Handler Response) (fun r V ↦
        ∀ response, r = .ok response → response.status = 200 → Q V) U := by
    intro r U Q hr
    exact ⟨trivial, fun response heq hstatus ↦ absurd (Except.ok.inj heq ▸ hstatus) hr⟩
  have hwritten : ∀ U : System, validateRetentionPolicy payload = .ok () →
      wp (fun _ ↦ True) (patchBucketWith a.now b payload) (fun r V ↦
        ∀ response, r = .ok response → response.status = 200 →
          ∃ text, policy V.vault b = some (some text) ∧
            Auth.parseI64 text.toList = some (seconds : ℤ)) U := by
    intro U hvalid
    refine wp_mono arranges_patchBucketWith (fun _ h ↦ h) ?_
    rintro r V - ⟨l, -, hfrom⟩ response hr hstatus
    obtain ⟨B, hB, hpolicy⟩ := hfrom.resolve_right fun h ↦ h.1 ⟨response, hr, hstatus⟩
    rw [getElem?_withRetentionPolicy, hseconds] at hpolicy
    have hbound := (lt_of_validateRetentionPolicy hvalid hseconds).2
    refine ⟨toString seconds, ?_, parseI64_toString (by omega)⟩
    split at hpolicy
    · next hnull =>
      rw [requestedPeriod, hnull] at hseconds
      cases hseconds
    · exact hpolicy
  rw [htarget] at hserved
  refine hserved.of_wp (I := fun _ ↦ True) (Q := fun r V ↦ ∀ response, r = .ok response →
    response.status = 200 → ∃ text, policy V.vault b = some (some text) ∧
      Auth.parseI64 text.toList = some (seconds : ℤ)) ?_ response rfl hstatus
  show wp _ (handleJsonBucketItem C a.now a.req b) _ S
  rw [handleJsonBucketItem, hmethod]
  show wp _ (patchJsonBucket C a.now a.req b) _ S
  rw [patchJsonBucket, wp_bind, wp_attempt]
  refine wp_mono looks_getBucket (fun _ h ↦ h) fun r U _ _ ↦ ?_
  dsimp only
  split
  · exact hnot nofun
  · rw [hpayload]
    dsimp only
    cases hvalid : validateBucketDataProtection a.req payload with
    | error response => exact hnot (errorsIn_validateBucketDataProtection hvalid)
    | ok _ =>
      have hretention := validateRetentionPolicy_of_ok hvalid
      dsimp only
      split
      · rw [wp_bind]
        refine wp_mono looks_foreignDataProtectionActive (fun _ h ↦ h) fun r V _ _ ↦ ?_
        rcases r with e | foreign
        · exact nofun
        · cases foreign with
          | true => exact hnot nofun
          | false => exact hwritten V hretention
      · exact hwritten U hretention

end Runs

/-! ### One failed read -/

/-- An object in a bucket with a retention period of a thousand seconds. -/
def retainedCat : System where
  vault := { buckets := (∅ : Table String Bucket).set "gallery" (some { gallery uploadedMetadata with
    metadata := (∅ : Table String String).set "gcs_retention_seconds" (some "1000") }) }

theorem retains_retainedCat :
    Retains "gallery" "cat".toList 1000 [1] 1700000000000000000 retainedCat :=
  ⟨⟨"1700000000000", by decide⟩, "1000", 1000, by decide, by decide, le_rfl⟩

/-- An update of the bucket that asks for nothing. -/
def emptyPatch : Request where
  method := .patch
  body := [123, 125]

/-- **An update that does not find the metadata of its bucket takes the policy away.** -/
theorem unfound_policy_is_lost :
    let crates : Crates := { Crates.simple with parseJson := fun _ ↦ some (.object []) }
    let run := (handleRequest .simple crates catDeletion.now (fun crc _ _ ↦ crc)
      (.jsonBucket "gallery") emptyPatch).run [0, 0, 1, 0, 0, 0] retainedCat
    run.1 = some (.ok (.bucket "gallery" none none)) ∧ run.2.log = [.failed .policy] ∧
      policy run.2.vault "gallery" = some none := by
  decide

end Sqrzl.Gcs
