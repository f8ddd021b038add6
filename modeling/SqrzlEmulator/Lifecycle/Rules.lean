import SqrzlEmulator.S3.Put

/-!
# Lifecycle rules

The rules of `models/lifecycle.rs`, and the background job of `lifecycle.rs` that applies them to
the store. The job holds the operation gate for a whole pass, so a pass is an operation of the
`Vault`.

A pass reads the clock once, when it begins (`now`); the delete of a key reads it again (`clock`).
Times are in nanoseconds. The store returns a page of at most a thousand objects to a caller that
does not ask for another size, which is what the job does for each rule.

A pass ignores the failures of several calls: `get_bucket_lifecycle`, and for the objects on a page
`get_object_tags`, `delete_object` and `update_object_storage_class` (`Ignored`, `Failures`). A
delete that fails and has happened all the same counts as one that has not failed. The listings of a
bucket end the pass when they fail, and what `apply_noncurrent_version_rule` asks of the store is
answered.
-/

namespace Sqrzl.Lifecycle

open Prog

/-! ### Rules -/

/-- `Status` -/
inductive Status where
  | enabled
  | disabled
  deriving DecidableEq

/-- `Tag` -/
structure Tag where
  key : String
  value : String
  deriving DecidableEq

/-- `Filter` -/
structure Filter where
  keyPrefix : Option Text := none
  tags : List Tag := []
  deriving DecidableEq

/-- `Expiration` -/
structure Expiration where
  days : Option ℕ := none
  date : Option String := none
  expiredObjectDeleteMarker : Option Bool := none
  deriving DecidableEq

/-- `StorageClass` -/
inductive StorageClass where
  | standard
  | glacier
  | deepArchive
  deriving DecidableEq

/-- `Transition` -/
structure Transition where
  days : Option ℕ := none
  date : Option String := none
  storageClass : StorageClass
  deriving DecidableEq

/-- `Rule` -/
structure Rule where
  id : Option String := none
  status : Status := .enabled
  filter : Option Filter := none
  expiration : Option Expiration := none
  /-- `noncurrent_version_expiration.noncurrent_days` -/
  noncurrentDays : Option ℕ := none
  transitions : List Transition := []
  deriving DecidableEq

/-- `Filter::matches` -/
def Filter.matches (f : Filter) (key : Text) (tags : Table String String) : Bool :=
  f.keyPrefix.all (fun start ↦ start.isPrefixOf key) &&
    f.tags.all fun tag ↦ tags[tag.key]? = some tag.value

/-- `rule_matches_filter` -/
def ruleMatchesFilter (rule : Rule) (key : Text) (tags : Table String String) : Bool :=
  rule.filter.all fun f ↦ f.matches key tags

/-- `storage_class_to_str` -/
def storageClassToStr : StorageClass → String
  | .standard => "STANDARD"
  | .glacier => "GLACIER"
  | .deepArchive => "DEEP_ARCHIVE"

/-! ### Dates -/

/-- `num_days`: the whole days from one time to another, rounded towards zero. -/
def numDays (earlier later : Time) : ℤ := ((later : ℤ) - earlier).tdiv 86400000000000

section Dates

/- `NaiveDate::parse_from_str` with `%Y-%m-%d`, at midnight. -/
variable (parseDate : String → Option Time) (now : Time)

/-- The part that `should_expire` and `should_transition` share. -/
def due (lastModified : Time) (days : Option ℕ) (date : Option String) : Bool :=
  days.any (fun days ↦ numDays lastModified now ≥ days) ||
    (date.bind parseDate).any fun date ↦ now ≥ date

/-- `should_expire` -/
def shouldExpire (lastModified : Time) (expiration : Expiration) : Bool :=
  due parseDate now lastModified expiration.days expiration.date

/-- `should_transition` -/
def shouldTransition (lastModified : Time) (transition : Transition) : Bool :=
  due parseDate now lastModified transition.days transition.date

/-- `should_expire_noncurrent_version` -/
def shouldExpireNoncurrentVersion (lastModified : Time) (noncurrentDays : ℕ) : Bool :=
  numDays lastModified now ≥ noncurrentDays

end Dates

/-! ### Protection -/

/-- `positive_duration_or_invalid` -/
def positiveDurationOrInvalid (value : Option String) : Bool :=
  value.any fun value ↦ (parseU64 value).all (· > 0)

/-- `foreign_provider_data_protection_active` -/
def foreignProviderDataProtectionActive (B : Bucket) : Bool :=
  positiveDurationOrInvalid B.metadata["gcs_soft_delete_seconds"]? ||
    positiveDurationOrInvalid B.metadata["gcs_retention_seconds"]? ||
    (B.metadata["azure_versioning_enabled"]?.any fun value ↦ !eqIgnoreCase value "false") ||
    positiveDurationOrInvalid B.metadata["azure_soft_delete_days"]?

/-- `object_has_active_data_protection` -/
def objectHasActiveDataProtection (C : S3.Codec) (now : Time) (o : Object) : Bool :=
  let get (name : String) := o.providerMetadata[name]?
  (get "s3_object_lock_legal_hold").any (fun value ↦ !eqIgnoreCase value "OFF") ||
    (get "s3_object_lock_until").any (fun value ↦
      (S3.parseLockTimestamp C value).all fun until_ ↦ until_ > now) ||
    ((get "s3_object_lock_mode").isSome && (get "s3_object_lock_until").isNone) ||
    S3.hasActiveAzureProtection C now o

/-! ### Calls that fail -/

/-- The keys for which the calls of one rule fail and are ignored. -/
structure Ignored where
  /-- `get_object_tags` -/
  tags : Text → Bool := fun _ ↦ false
  /-- `delete_object` -/
  delete : Text → Bool := fun _ ↦ false
  /-- `update_object_storage_class` -/
  transition : Text → Bool := fun _ ↦ false

/-- The calls of a pass that fail and are ignored, for each bucket. The rules of a bucket are
numbered from zero. -/
structure Failures where
  /-- `get_bucket_lifecycle` -/
  config : String → Bool := fun _ ↦ false
  rule : String → ℕ → Ignored := fun _ _ ↦ {}

/-! ### The current objects -/

/-- The page size of `list_objects` when the caller gives none. -/
def defaultMaxKeys : ℕ := 1000

/-- `list_objects` without a marker, a prefix, a delimiter or a size. -/
def listObjects (B : Bucket) : List Object := B.current.take defaultMaxKeys

/-- `object_tags` -/
def objectTags (e : KeyRecord) : Table String String := (e.metadata.map (·.tags)).getD ∅

/-- `update_object_storage_class` -/
def updateObjectStorageClass (b : String) (key : Text) (storageClass : String) (V : Vault) : Vault :=
  match (V.record b key).current with
  | none => V
  | some (data, o) =>
    V.setRecord b key
      { V.record b key with current := some (data, { o with storageClass := storageClass }) }

section Pass

variable (E : Env) (C : S3.Codec) (parseDate : String → Option Time) (now : Time)
  (clock : Text → Time)

/-- `apply_transition` -/
def applyTransition (F : Ignored) (b : String) (rule : Rule) (o : Object) (V : Vault) : Vault :=
  match rule.transitions.find? (shouldTransition parseDate now o.lastModified) with
  | none => V
  | some transition =>
    let storageClass := storageClassToStr transition.storageClass
    if o.storageClass = storageClass then V
    else if F.transition o.key then V
    else updateObjectStorageClass b o.key storageClass V

/-- The rule expires the object. -/
def expires (rule : Rule) (tags : Table String String) (o : Object) : Bool :=
  ruleMatchesFilter rule o.key tags &&
    rule.expiration.any (shouldExpire parseDate now o.lastModified)

/-- The body of the loop of `apply_current_object_rule`. -/
def applyToObject (F : Ignored) (b : String) (rule : Rule) (V : Vault) (o : Object) : Vault :=
  let tags := if F.tags o.key then ∅ else objectTags (V.record b o.key)
  if !ruleMatchesFilter rule o.key tags then V
  else if rule.expiration.any (shouldExpire parseDate now o.lastModified) then
    if objectHasActiveDataProtection C now o then V
    else if F.delete o.key then V
    else (Vault.deleteObject E (clock o.key) b o.key V).2
  else applyTransition parseDate now F b rule o V

/-- `apply_current_object_rule` -/
def applyCurrentObjectRule (F : Ignored) (b : String) (rule : Rule) : VaultOp Unit := do
  let B ← Vault.getBucket b
  .update fun V ↦ (listObjects B).foldl (applyToObject E C parseDate now clock F b rule) V

/-! ### Noncurrent versions -/

/-- The versions of a key from the latest to the first. -/
def sortVersions (versions : List Object) : List Object :=
  versions.mergeSort fun l r ↦
    ((compare r.lastModified l.lastModified).then (compare l.versionId r.versionId)).isLE

/-- A version that is old enough and not protected. -/
def expirable (noncurrentDays : ℕ) (o : Object) : Bool :=
  shouldExpireNoncurrentVersion now o.lastModified noncurrentDays &&
    !objectHasActiveDataProtection C now o

/-- The body of the loop of `expire_noncurrent_versions`. A deletion that fails is skipped. -/
def expireVersion (b : String) (key : Text) (noncurrentDays : ℕ) (currentVersionId : Option String)
    (V : Vault) (o : Object) : Vault :=
  if currentVersionId = o.versionId then V
  else if !expirable C now noncurrentDays o then V
  else match o.versionId with
    | none => V
    | some id => (Vault.deleteObjectVersion b key id V).2

/-- `expire_noncurrent_versions`, for the versions of one key. -/
def expireNoncurrentVersions (b : String) (noncurrentDays : ℕ) (V : Vault)
    (group : Text × List Object) : Vault :=
  let currentVersionId := (V.record b group.1).metadata.bind (·.versionId)
  (sortVersions group.2).foldl
    (expireVersion C now b group.1 noncurrentDays currentVersionId) V

/-- `filtered_versions_by_key` -/
def filteredVersionsByKey (rule : Rule) (B : Bucket) : List (Text × List Object) :=
  B.objects.toList.filterMap fun entry ↦
    if (entry.2.list entry.1).isEmpty || !ruleMatchesFilter rule entry.1 (objectTags entry.2) then
      none
    else some (entry.1, entry.2.list entry.1)

/-- `apply_noncurrent_version_rule` -/
def applyNoncurrentVersionRule (b : String) (rule : Rule) : VaultOp Unit :=
  match rule.noncurrentDays with
  | none => pure ()
  | some noncurrentDays => do
    let B ← Vault.getBucket b
    .update fun V ↦
      (filteredVersionsByKey rule B).foldl (expireNoncurrentVersions C now b noncurrentDays) V

/-! ### A pass -/

/-- The body of the loop of `apply_lifecycle_rules`. -/
def applyRule (F : Ignored) (b : String) (rule : Rule) : VaultOp Unit := do
  if rule.status ≠ .enabled then return ()
  else
    applyCurrentObjectRule E C parseDate now clock F b rule
    applyNoncurrentVersionRule C now b rule

/-- The loop of `apply_lifecycle_rules`, from the rule with the number `n`. -/
def applyRules (F : ℕ → Ignored) (b : String) : ℕ → List Rule → VaultOp Unit
  | _, [] => pure ()
  | n, rule :: rules => do
    applyRule E C parseDate now clock (F n) b rule
    applyRules F b (n + 1) rules

/-- `apply_lifecycle_rules` -/
def applyLifecycleRules (F : ℕ → Ignored) (b : String) (rules : List Rule) : VaultOp Unit := do
  let B ← Vault.getBucket b
  if foreignProviderDataProtectionActive B then return ()
  else applyRules E C parseDate now clock F b 0 rules

/-- The loop of `execute_lifecycle_rules`, over the buckets and their configurations. -/
def executeFor (F : Failures) (config : String → Option (List Rule)) : List String → VaultOp Unit
  | [] => pure ()
  | b :: buckets => do
    match if F.config b then none else config b with
    | none => pure ()
    | some rules => applyLifecycleRules E C parseDate now clock (F.rule b) b rules
    executeFor F config buckets

/-- `execute_lifecycle_rules` -/
def executeLifecycleRules (F : Failures) (config : String → Option (List Rule)) : VaultOp Unit := do
  let buckets ← .view fun V : Vault ↦ V.buckets.keys
  executeFor E C parseDate now clock F config buckets

end Pass

end Sqrzl.Lifecycle
