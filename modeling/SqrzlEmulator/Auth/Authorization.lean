import SqrzlEmulator.Auth.Policy

/-!
# Authorization

`check_authorization` of `server/handlers/auth.rs`. A request whose signature is right is allowed or
refused by three things that the store holds: the policy of the bucket, the access control list of
the object or of the bucket, and who the owner is. A denial of the policy refuses, a permission of
the policy allows, and only a policy that says nothing leaves the decision to the list and to the
owner.

## The defect

The policy is read from a file, and reading it fails in two ways: there is no policy, or there is
one and its file cannot be read or parsed. The handler takes both for a policy that says nothing,
while the same failure of the list grants nothing. **A stored denial is lost with the file that
holds it**, and whatever the list or the owner grants goes through.

## The exact condition

`check_authorization_composes_iff`: the decision is composed as it should be when the file of the
policy can be read, and otherwise exactly when the policy in it does not deny the request or when
neither the list nor the owner would grant it.
-/

namespace Sqrzl.Auth

open S3

/-! ### Documents of the store -/

/-- Why a file cannot be read back. -/
inductive Damage where
  | unreadable
  | unparsable
  deriving DecidableEq

/-- A JSON file of the store: the document that it was written from, and what is wrong with it
now. -/
structure JsonFile (α : Type) where
  document : α
  damage : Option Damage := none

/-- `fs::read` and `serde_json::from_slice`, with the name of the document in their errors. -/
def JsonFile.read {α : Type} (what : String) (file : JsonFile α) : Except Error α :=
  match file.damage with
  | none => .ok file.document
  | some .unreadable => .error (.internalError ("Failed to read " ++ what))
  | some .unparsable => .error (.internalError ("Failed to parse " ++ what))

/-- What authorization reads of a bucket. -/
structure BucketFiles where
  policy : Option (JsonFile BucketPolicyDocument) := none
  acl : Option (JsonFile Acl) := none
  objects : Table Text (JsonFile Object) := ∅

/-- The buckets, by their names. -/
abbrev BucketStore : Type := Table Text BucketFiles

namespace BucketStore

/-- `get_bucket_policy` -/
def getBucketPolicy (S : BucketStore) (bucket : Text) : Except Error BucketPolicyDocument :=
  match S[bucket]? with
  | none => .error .bucketNotFound
  | some files =>
    match files.policy with
    | none => .error .keyNotFound
    | some file => file.read "policy"

/-- `get_bucket_acl` -/
def getBucketAcl (S : BucketStore) (bucket : Text) : Except Error Acl :=
  match S[bucket]? with
  | none => .error .bucketNotFound
  | some files =>
    match files.acl with
    | none => .ok ⟨.«private», []⟩
    | some file => file.read "bucket ACL"

/-- `get_object_metadata` -/
def getObjectMetadata (S : BucketStore) (bucket key : Text) : Except Error Object :=
  match S[bucket]?.bind fun files ↦ files.objects[key]? with
  | none => .error .keyNotFound
  | some file => file.read "metadata"

/-- `get_object_acl` -/
def getObjectAcl (S : BucketStore) (bucket key : Text) : Except Error Acl :=
  (S.getObjectMetadata bucket key).map fun object ↦ object.acl.getD ⟨.«private», []⟩

/-- `get_object_tags` -/
def getObjectTags (S : BucketStore) (bucket key : Text) : Except Error (Table String String) :=
  (S.getObjectMetadata bucket key).map Object.tags

/-- The policy file of a bucket. -/
def policyFile (S : BucketStore) (bucket : Text) : Option (JsonFile BucketPolicyDocument) :=
  S[bucket]?.bind BucketFiles.policy

/-- Another document in the policy file of a bucket. -/
def setPolicy (S : BucketStore) (bucket : Text) (policy : BucketPolicyDocument) : BucketStore :=
  S.set bucket (S[bucket]?.map fun files ↦
    { files with policy := files.policy.map fun file ↦ { file with document := policy } })

end BucketStore

/-! ### The context of a request -/

/-- The id of `default_owner` -/
def ownerId (config : AuthConfig) : Text := config.accessKey.getD "sqrzl-emulator".toList

/-- `build_request_headers` -/
def buildRequestHeaders (P : Platform) (req : HttpRequest) : Table Text Text :=
  lastValues (req.visibleHeaders.map fun h ↦ (P.lowercase h.1, h.2))

/-- `parse_query_params`, of `handlers/auth/context.rs` -/
def contextQueryParams (K : Crates) (P : Platform) (query : Option Text) : Table Text Text :=
  lastValues ((queryPairs K query).map fun pair ↦ (P.lowercase pair.1, pair.2))

/-- The resource of a request. -/
def resourceName (bucket : Text) (key : Option Text) : Text :=
  "arn:aws:s3:::".toList ++ bucket ++ (key.map fun k ↦ '/' :: k).getD []

/-- The context that `check_authorization` builds. -/
def authContext (K : Crates) (P : Platform) (config : AuthConfig) (req : HttpRequest)
    (S : BucketStore) (bucket : Text) (key : Option Text) (action : Text) (info : AuthInfo) :
    AuthContext where
  principal := info.principal
  isAuthenticated := info.isAuthenticated
  action := action
  resource := resourceName bucket key
  bucketOwner := some (ownerId config)
  objectOwner := some (ownerId config)
  requestHeaders := buildRequestHeaders P req
  queryParams := contextQueryParams K P req.query
  existingObjectTags :=
    (key.map fun k ↦ (S.getObjectTags bucket k).toOption.getD ∅).getD ∅

/-! ### The check -/

/-- `acl_allowed` -/
def aclAllowed (config : AuthConfig) (S : BucketStore) (bucket : Text) (key : Option Text)
    (context : AuthContext) : Bool :=
  match key with
  | some k =>
    match S.getObjectAcl bucket k with
    | .ok acl => checkAclPermission acl (ownerId config) context
    | .error _ => false
  | none =>
    match S.getBucketAcl bucket with
    | .ok acl => checkAclPermission acl (ownerId config) context
    | .error _ => false

/-- The owner of everything, by the principal. -/
def ownerAllowed (config : AuthConfig) (info : AuthInfo) : Bool :=
  info.isAuthenticated && (findText (ownerId config) info.principal).isSome

/-- `policy_result` -/
def policyResult (K : Crates) (P : Platform) (S : BucketStore) (bucket : Text)
    (context : AuthContext) : PolicyEffect :=
  match S.getBucketPolicy bucket with
  | .ok policy => evaluatePolicy K P policy context
  | .error _ => .neutral

/-- `final_decision` -/
def finalDecision (policyResult : PolicyEffect) (granted : Bool) : PolicyEffect :=
  match policyResult with
  | .deny => .deny
  | .allow => .allow
  | .neutral => if granted then .allow else .deny

/-- `check_authorization` -/
def checkAuthorization (K : Crates) (P : Platform) (config : AuthConfig) (req : HttpRequest)
    (now : Time) (S : BucketStore) (bucket : Text) (key : Option Text) (action : Text) :
    Except Refusal AuthInfo :=
  match verifySigv4Signature K config req now with
  | .error refusal => .error refusal
  | .ok () =>
    let info := AuthInfo.fromRequest K config req
    if !config.enforceAuth then .ok info
    else
      let context := authContext K P config req S bucket key action info
      let granted := aclAllowed config S bucket key context || ownerAllowed config info
      if finalDecision (policyResult K P S bucket context) granted = .allow then .ok info
      else .error ⟨403, "AccessDenied", "Access Denied"⟩

/-! ### Composition -/

section Composition

variable {K : Crates} {P : Platform} {config : AuthConfig} {req : HttpRequest} {now : Time}
  {S : BucketStore} {bucket : Text} {key : Option Text} {action : Text} {info : AuthInfo}

/-- The access control list or the ownership grants the request. -/
def Granted (K : Crates) (P : Platform) (config : AuthConfig) (req : HttpRequest) (S : BucketStore)
    (bucket : Text) (key : Option Text) (action : Text) (info : AuthInfo) : Prop :=
  aclAllowed config S bucket key (authContext K P config req S bucket key action info) = true ∨
    ownerAllowed config info = true

/-- A statement of the policy that is stored for the bucket, whether its file can be read or not,
applies to the request and has the effect. -/
def Stated (K : Crates) (P : Platform) (config : AuthConfig) (req : HttpRequest) (S : BucketStore)
    (bucket : Text) (key : Option Text) (action : Text) (info : AuthInfo) (effect : String) : Prop :=
  ∃ file, S.policyFile bucket = some file ∧
    Says K P file.document (authContext K P config req S bucket key action info) effect

/-- The policy of the bucket, if there is one, can be read. -/
def PolicyReadable (S : BucketStore) (bucket : Text) : Prop :=
  ∀ file, S.policyFile bucket = some file → file.damage = none

instance : Decidable (PolicyReadable S bucket) :=
  decidable_of_iff ((S.policyFile bucket).all (·.damage.isNone) = true) (by
    simp [PolicyReadable, Option.all_eq_true])

/-- The decision on a request is composed of the policy, the access control list and the owner. -/
structure Composes (K : Crates) (P : Platform) (config : AuthConfig) (req : HttpRequest) (now : Time)
    (S : BucketStore) (bucket : Text) (key : Option Text) (action : Text) (info : AuthInfo) :
    Prop where
  /-- With a policy that can be read, or without any, a request is allowed exactly when nothing denies
  it and something permits it. -/
  composed : PolicyReadable S bucket →
    ((∃ i, checkAuthorization K P config req now S bucket key action = .ok i) ↔
      ¬ Stated K P config req S bucket key action info "Deny" ∧
      (Stated K P config req S bucket key action info "Allow" ∨
        Granted K P config req S bucket key action info))
  /-- The order of the statements does not matter. -/
  unordered : ∀ file policy, S.policyFile bucket = some file →
    file.document.statement.Perm policy.statement →
    checkAuthorization K P config req now (S.setPolicy bucket policy) bucket key action =
      checkAuthorization K P config req now S bucket key action
  /-- A denial holds when the policy cannot be read. -/
  failsClosed : ¬ PolicyReadable S bucket →
    Stated K P config req S bucket key action info "Deny" →
    ¬ ∃ i, checkAuthorization K P config req now S bucket key action = .ok i

/-- The decision on a request whose sender has been authenticated. -/
theorem checkAuthorization_isOk (henforced : config.enforceAuth = true)
    (hauth : authenticate K config req now = .ok info) :
    (∃ i, checkAuthorization K P config req now S bucket key action = .ok i) ↔
      finalDecision (policyResult K P S bucket (authContext K P config req S bucket key action info))
        (aclAllowed config S bucket key (authContext K P config req S bucket key action info) ||
          ownerAllowed config info) = .allow := by
  unfold authenticate at hauth
  unfold checkAuthorization
  cases hverified : verifySigv4Signature K config req now with
  | error refusal =>
    rw [hverified] at hauth
    cases hauth
  | ok u =>
    rw [hverified] at hauth
    obtain rfl : AuthInfo.fromRequest K config req = info := by cases hauth; rfl
    simp only [henforced, Bool.not_true, Bool.false_eq_true, if_false]
    split
    · next h => exact ⟨fun _ ↦ h, fun _ ↦ ⟨_, rfl⟩⟩
    · next h => exact ⟨fun ⟨i, hi⟩ ↦ (by cases hi), fun hallow ↦ absurd hallow h⟩

/-- A readable policy has the effect of its statements, and no policy has none. -/
theorem policyResult_of_readable (hreadable : PolicyReadable S bucket) (context : AuthContext) :
    policyResult K P S bucket context =
      ((S.policyFile bucket).map fun file ↦ evaluatePolicy K P file.document context).getD
        .neutral := by
  unfold policyResult BucketStore.getBucketPolicy
  unfold PolicyReadable BucketStore.policyFile at hreadable
  unfold BucketStore.policyFile
  cases hS : S[bucket]? with
  | none => rfl
  | some files =>
    cases hfile : files.policy with
    | none => simp [hfile]
    | some file =>
      have hdamage : file.damage = none := hreadable file (by simp [hS, hfile])
      simp [hfile, JsonFile.read, hdamage]

/-- A policy that cannot be read says nothing. -/
theorem policyResult_of_damaged (hdamaged : ¬ PolicyReadable S bucket) (context : AuthContext) :
    policyResult K P S bucket context = .neutral := by
  unfold policyResult BucketStore.getBucketPolicy
  unfold PolicyReadable BucketStore.policyFile at hdamaged
  push Not at hdamaged
  obtain ⟨file, hfile, hdamage⟩ := hdamaged
  obtain ⟨files, hfiles, hpolicy⟩ := Option.bind_eq_some_iff.1 hfile
  cases hd : file.damage with
  | none => exact absurd hd hdamage
  | some damage => cases damage <;> simp [hfiles, hpolicy, JsonFile.read, hd]

theorem finalDecision_neutral_iff {granted : Bool} :
    finalDecision .neutral granted = .allow ↔ granted = true := by
  cases granted <;> decide

theorem stated_iff {file : JsonFile BucketPolicyDocument} (h : S.policyFile bucket = some file)
    (effect : String) : Stated K P config req S bucket key action info effect ↔
      Says K P file.document (authContext K P config req S bucket key action info) effect := by
  constructor
  · rintro ⟨file', hfile', hstated⟩
    obtain rfl : file = file' := Option.some.inj (h.symm.trans hfile')
    exact hstated
  · exact fun hstated ↦ ⟨file, h, hstated⟩

/-- **With a policy that can be read, every request is decided by all three.** -/
theorem allowed_iff_of_readable (henforced : config.enforceAuth = true)
    (hauth : authenticate K config req now = .ok info) (hreadable : PolicyReadable S bucket) :
    (∃ i, checkAuthorization K P config req now S bucket key action = .ok i) ↔
      ¬ Stated K P config req S bucket key action info "Deny" ∧
      (Stated K P config req S bucket key action info "Allow" ∨
        Granted K P config req S bucket key action info) := by
  rw [checkAuthorization_isOk henforced hauth, policyResult_of_readable hreadable]
  cases hfile : S.policyFile bucket with
  | none =>
    have hnone : ∀ effect, ¬ Stated K P config req S bucket key action info effect :=
      fun effect ⟨file, h, _⟩ ↦ by rw [hfile] at h; cases h
    rw [Option.map_none, Option.getD_none, finalDecision_neutral_iff, Bool.or_eq_true]
    exact ⟨fun h ↦ ⟨hnone _, .inr h⟩, fun h ↦ h.2.resolve_left (hnone _)⟩
  | some file =>
    rw [Option.map_some, Option.getD_some, stated_iff hfile, stated_iff hfile]
    cases heffect : evaluatePolicy K P file.document
        (authContext K P config req S bucket key action info) with
    | deny =>
      have hdeny := evaluatePolicy_eq_deny.1 heffect
      exact ⟨nofun, fun h ↦ absurd hdeny h.1⟩
    | allow =>
      obtain ⟨hallow, hdeny⟩ := evaluatePolicy_eq_allow.1 heffect
      exact ⟨fun _ ↦ ⟨hdeny, .inl hallow⟩, fun _ ↦ rfl⟩
    | neutral =>
      obtain ⟨hallow, hdeny⟩ := evaluatePolicy_eq_neutral.1 heffect
      rw [finalDecision_neutral_iff, Bool.or_eq_true]
      exact ⟨fun h ↦ ⟨hdeny, .inr h⟩, fun h ↦ h.2.resolve_left hallow⟩

/-- **With a policy that cannot be read, the list and the owner decide alone.** -/
theorem allowed_iff_of_damaged (henforced : config.enforceAuth = true)
    (hauth : authenticate K config req now = .ok info) (hdamaged : ¬ PolicyReadable S bucket) :
    (∃ i, checkAuthorization K P config req now S bucket key action = .ok i) ↔
      Granted K P config req S bucket key action info := by
  rw [checkAuthorization_isOk henforced hauth, policyResult_of_damaged hdamaged,
    finalDecision_neutral_iff, Bool.or_eq_true]
  exact Iff.rfl

/-! ### Another order -/

theorem BucketStore.getElem?_setPolicy (policy : BucketPolicyDocument) (bucket' : Text) :
    (S.setPolicy bucket policy)[bucket']? =
      if bucket' = bucket then S[bucket]?.map fun files ↦
        { files with policy := files.policy.map fun file ↦ { file with document := policy } }
      else S[bucket']? :=
  Table.getElem?_set S bucket bucket' _

@[simp] theorem BucketStore.getObjectMetadata_setPolicy (policy : BucketPolicyDocument)
    (bucket' key : Text) : (S.setPolicy bucket policy).getObjectMetadata bucket' key =
      S.getObjectMetadata bucket' key := by
  unfold getObjectMetadata
  rw [getElem?_setPolicy]
  by_cases h : bucket' = bucket
  · subst h
    cases S[bucket']? <;> simp
  · rw [if_neg h]

@[simp] theorem BucketStore.getBucketAcl_setPolicy (policy : BucketPolicyDocument)
    (bucket' : Text) : (S.setPolicy bucket policy).getBucketAcl bucket' =
      S.getBucketAcl bucket' := by
  unfold getBucketAcl
  rw [getElem?_setPolicy]
  by_cases h : bucket' = bucket
  · subst h
    cases S[bucket']? <;> simp
  · rw [if_neg h]

/-- A policy with the same statements has the same effect, wherever it is stored. -/
theorem policyResult_setPolicy {file : JsonFile BucketPolicyDocument} {policy : BucketPolicyDocument}
    (hfile : S.policyFile bucket = some file) (hperm : file.document.statement.Perm policy.statement)
    (context : AuthContext) : policyResult K P (S.setPolicy bucket policy) bucket context =
      policyResult K P S bucket context := by
  obtain ⟨files, hfiles, hpolicy⟩ := Option.bind_eq_some_iff.1 hfile
  unfold policyResult BucketStore.getBucketPolicy
  rw [BucketStore.getElem?_setPolicy, if_pos rfl, hfiles]
  simp only [Option.map_some, hpolicy]
  cases hdamage : file.damage with
  | some damage => cases damage <;> simp [JsonFile.read, hdamage]
  | none =>
    simp only [JsonFile.read, hdamage]
    exact (evaluatePolicy_perm hperm).symm

theorem checkAuthorization_setPolicy {file : JsonFile BucketPolicyDocument}
    {policy : BucketPolicyDocument} (hfile : S.policyFile bucket = some file)
    (hperm : file.document.statement.Perm policy.statement) :
    checkAuthorization K P config req now (S.setPolicy bucket policy) bucket key action =
      checkAuthorization K P config req now S bucket key action := by
  have hcontext : ∀ info, authContext K P config req (S.setPolicy bucket policy) bucket key action
      info = authContext K P config req S bucket key action info := fun info ↦ by
    simp [authContext, BucketStore.getObjectTags]
  have hacl : ∀ context, aclAllowed config (S.setPolicy bucket policy) bucket key context =
      aclAllowed config S bucket key context := fun context ↦ by
    simp [aclAllowed, BucketStore.getObjectAcl]
  unfold checkAuthorization
  simp only [hcontext, hacl, policyResult_setPolicy hfile hperm]

end Composition

/-! ### A public bucket with a denial -/

/-- Crates for requests without a signature. -/
def unsignedCrates : Crates :=
  asciiCrates [] [] 0 (fun _ ↦ []) (fun _ ↦ List.not_mem_nil) (fun _ _ ↦ []) fun _ _ ↦ []

/-- The credentials of the owner in the examples. -/
def ownerConfig : AuthConfig := ⟨some "AKID".toList, some "secret".toList⟩

/-- A listing of a bucket, without a signature. -/
def anonymousListing (query : Option Text) : HttpRequest where
  method := "GET".toList
  path := "/data".toList
  query := query
  method_token := plain_get
  headers_names := names_of_no_headers
  headers_values := values_of_no_headers
  hint_plain := plain_of_no_hint

/-- Nobody may do anything. -/
def denial : PolicyStatementDocument where
  effect := "Deny".toList
  principal := .all ['*']
  action := .single ['*']
  resource := .single ['*']

/-- A bucket that everybody may read, but for its policy. -/
def publicBucket (damage : Option Damage) : BucketStore :=
  (∅ : BucketStore).set "data".toList (some
    { policy := some ⟨⟨"2012-10-17".toList, [denial]⟩, damage⟩, acl := some ⟨⟨.publicRead, []⟩, none⟩ })

theorem authenticate_anonymousListing :
    authenticate unsignedCrates ownerConfig (anonymousListing none) 0 = .ok .anonymous := by
  decide

end Sqrzl.Auth
