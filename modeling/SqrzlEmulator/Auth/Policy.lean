import SqrzlEmulator.Auth.Authenticator
import Mathlib.Logic.Function.Iterate

/-!
# Bucket policies and access control lists

The authorization engine of `models/policy.rs`. A bucket policy is a list of statements. A statement
applies to a request when its principal, its actions, its resources and all of its conditions match,
and `evaluatePolicy` folds the statements that apply into one of three effects. An access control
list is a list of grants, of which one has to match.

## What a policy decides

The fold keeps two flags, and its result is that of a policy in which **an explicit denial wins over
every permission**: `evaluatePolicy_eq_deny`, `evaluatePolicy_eq_allow` and
`evaluatePolicy_eq_neutral` read it as statements about the members of the list, so that the order
does not matter. A statement whose effect is neither of the two words has no effect at all.
-/

namespace Sqrzl.Auth

/-- What the engine takes from the standard library. -/
structure Platform where
  /-- `str::to_lowercase` -/
  lowercase : Text → Text
  lowercase_ascii : ∀ t, (t.all fun c ↦ c.toNat < 128) = true → lowercase t = toLower t
  F64 : Type
  /-- `str::parse::<f64>` -/
  parseF64 : Text → Option F64
  /-- `f64::total_cmp` finds no difference. -/
  totalEq : F64 → F64 → Bool
  lt : F64 → F64 → Bool
  le : F64 → F64 → Bool

/-- A platform for ASCII texts and for numbers without a sign and a fraction. -/
def Platform.ascii : Platform where
  lowercase := toLower
  lowercase_ascii _ _ := rfl
  F64 := ℕ
  parseF64 t := parseU64 (String.ofList t)
  totalEq m n := m = n
  lt m n := m < n
  le m n := m ≤ n

/-- `char::is_whitespace` -/
def isWhitespace (c : Char) : Bool :=
  let n := c.toNat
  (9 ≤ n && n ≤ 13) || n = 0x20 || n = 0x85 || n = 0xA0 || n = 0x1680 ||
    (0x2000 ≤ n && n ≤ 0x200A) || n = 0x2028 || n = 0x2029 || n = 0x202F || n = 0x205F || n = 0x3000

/-- `str::trim` -/
def trimmed (t : Text) : Text :=
  ((t.dropWhile isWhitespace).reverse.dropWhile isWhitespace).reverse

/-- `str::eq_ignore_ascii_case` -/
def equalFolded (t : Text) (s : String) : Bool := toLower t = toLower s.toList

/-- `str::trim_start_matches`, which takes the start off as often as it is there. -/
def trimStartMatches (start t : Text) : Text :=
  (fun rest ↦ (stripStart start rest).getD rest)^[t.length] t

/-! ### Documents -/

/-- `serde_json::Value`. A number is the text that it is printed as. -/
inductive Json where
  | null
  | bool (value : Bool)
  | number (printed : Text)
  | string (value : Text)
  | array (values : List Json)
  | object (members : List (Text × Json))

/-- `StringOrArray`, `ActionList` and `ResourceList` -/
inductive Texts where
  | single (text : Text)
  | multiple (texts : List Text)

/-- `Principal` -/
inductive Principal where
  | all (text : Text)
  | aws (list : Texts)

/-- `PolicyStatementDocument` -/
structure PolicyStatementDocument where
  sid : Option Text := none
  effect : Text
  principal : Principal
  action : Texts
  resource : Texts
  condition : Option Json := none

/-- `BucketPolicyDocument` -/
structure BucketPolicyDocument where
  version : Text
  statement : List PolicyStatementDocument

/-- `PolicyEffect` -/
inductive PolicyEffect where
  | allow
  | deny
  | neutral
  deriving DecidableEq

/-- `AuthContext` -/
structure AuthContext where
  principal : Text
  isAuthenticated : Bool
  action : Text
  resource : Text
  bucketOwner : Option Text := none
  objectOwner : Option Text := none
  requestHeaders : Table Text Text := ∅
  queryParams : Table Text Text := ∅
  existingObjectTags : Table String String := ∅

/-! ### Access control lists -/

/-- The group of everybody. -/
def allUsers : String := "http://acs.amazonaws.com/groups/global/AllUsers"

/-- The group of all who have signed their request. -/
def authenticatedUsers : String := "http://acs.amazonaws.com/groups/global/AuthenticatedUsers"

/-- `Acl::to_grants` -/
def toGrants (acl : Acl) (ownerId : Text) : List Grant :=
  if !acl.grants.isEmpty then acl.grants
  else
    let owner : Grant := ⟨.canonicalUser (String.ofList ownerId) none, .fullControl⟩
    match acl.canned with
    | .«private» | .bucketOwnerRead | .bucketOwnerFullControl => [owner]
    | .publicRead => [owner, ⟨.group allUsers, .read⟩]
    | .publicReadWrite => [owner, ⟨.group allUsers, .read⟩, ⟨.group allUsers, .write⟩]
    | .authenticatedRead => [owner, ⟨.group authenticatedUsers, .read⟩]

/-- `permission_covers_action` -/
def permissionCoversAction (permission : Permission) (action : Text) : Bool :=
  match permission with
  | .fullControl => true
  | .read => containsText "GetObject" action || containsText "ListBucket" action
  | .write => containsText "PutObject" action || containsText "DeleteObject" action
  | .readAcp => containsText "GetObjectAcl" action || containsText "GetBucketAcl" action
  | .writeAcp => containsText "PutObjectAcl" action || containsText "PutBucketAcl" action

/-- `grant_matches` -/
def grantMatches (grant : Grant) (context : AuthContext) : Bool :=
  let granteeMatches := match grant.grantee with
    | .canonicalUser id _ => context.principal = id.toList
    | .group uri =>
      if uri = allUsers then true
      else if uri = authenticatedUsers then context.isAuthenticated
      else false
  if !granteeMatches then false
  else permissionCoversAction grant.permission context.action

/-- `check_acl_permission` -/
def checkAclPermission (acl : Acl) (ownerId : Text) (context : AuthContext) : Bool :=
  (toGrants acl ownerId).any fun grant ↦ grantMatches grant context

/-! ### Values of a request -/

/-- `secure_transport_value` -/
def secureTransportValue (context : AuthContext) : Bool :=
  match context.requestHeaders["x-forwarded-proto".toList]? with
  | some value => equalFolded (trimmed (value.takeWhile (· ≠ ','))) "https"
  | none =>
    match context.requestHeaders["x-forwarded-ssl".toList]? with
    | some value => equalFolded value "on" || equalFolded value "true" || value = ['1']
    | none =>
      match context.requestHeaders["x-forwarded-scheme".toList]? with
      | some value => equalFolded value "https"
      | none => false

/-- `source_ip_values` -/
def sourceIpValues (context : AuthContext) : List Text :=
  ((((context.requestHeaders["x-forwarded-for".toList]?).or
    context.requestHeaders["x-real-ip".toList]?).map
      fun value ↦ trimmed (value.takeWhile (· ≠ ','))).filter (!·.isEmpty)).toList

/-- `parse_key_value_pairs` -/
def parseKeyValuePairs (K : Crates) (input : Text) : Table Text Text :=
  lastValues ((input.splitOn '&').filterMap fun pair ↦
    if pair.isEmpty then none
    else (splitOnce '=' pair).map fun named ↦
      ((K.decode named.1).getD [], (K.decode named.2).getD []))

/-- `request_object_tag_values` -/
def requestObjectTagValues (K : Crates) (context : AuthContext) (tagKey : Text) : List Text :=
  ((context.requestHeaders["x-amz-tagging".toList]?).bind
    fun tagging ↦ (parseKeyValuePairs K tagging)[tagKey]?).toList

/-- `values_for_condition_key` -/
def valuesForConditionKey (K : Crates) (P : Platform) (key : Text) (context : AuthContext) :
    List Text :=
  if key = "aws:PrincipalArn".toList || key = "aws:userid".toList then [context.principal]
  else if key = "aws:PrincipalType".toList then
    [if context.isAuthenticated then "Authenticated".toList else "Anonymous".toList]
  else if key = "aws:SecureTransport".toList then
    [if secureTransportValue context then "true".toList else "false".toList]
  else if key = "aws:SourceIp".toList then sourceIpValues context
  else if "s3:ExistingObjectTag/".toList.isPrefixOf key then
    let tagKey := trimStartMatches "s3:ExistingObjectTag/".toList key
    (context.existingObjectTags[String.ofList tagKey]?.map String.toList).toList
  else if "s3:RequestObjectTag/".toList.isPrefixOf key then
    requestObjectTagValues K context (trimStartMatches "s3:RequestObjectTag/".toList key)
  else if "s3:".toList.isPrefixOf key then
    let suffix := P.lowercase (trimStartMatches "s3:".toList key)
    ((context.queryParams[suffix]?).or context.requestHeaders[suffix]?).toList
  else
    let lowered := P.lowercase key
    ((context.requestHeaders[lowered]?).or context.queryParams[lowered]?).toList

/-! ### Conditions -/

/-- What one of the values of `json_values_to_strings` is printed as. -/
def scalarText : Json → Option Text
  | .string value => some value
  | .bool value => some (if value then "true".toList else "false".toList)
  | .number printed => some printed
  | _ => none

/-- `json_values_to_strings` -/
def jsonValuesToStrings : Json → Option (List Text)
  | .array values => values.mapM scalarText
  | value => (scalarText value).map fun text ↦ [text]

/-- `parse_bool` -/
def parseBool (value : Text) : Option Bool :=
  match String.ofList (toLower (trimmed value)) with
  | "true" | "1" | "on" => some true
  | "false" | "0" | "off" => some false
  | _ => none

/-- `null_condition_matches` -/
def nullConditionMatches (requestValues expectedValues : List Text) : Bool :=
  (expectedValues.filterMap parseBool).any (· = requestValues.isEmpty)

/-- `bool_condition_matches` -/
def boolConditionMatches (requestValues expectedValues : List Text) : Bool :=
  if requestValues.isEmpty then false
  else
    let expectedBools := expectedValues.filterMap parseBool
    requestValues.any fun value ↦ (parseBool value).any fun b ↦ expectedBools.contains b

/-- `string_condition_matches` and `wildcard_condition_matches`, over their comparison. -/
def textConditionMatches (matched : Text → Text → Bool) (requestValues expectedValues : List Text)
    (negated : Bool) : Bool :=
  if requestValues.isEmpty then negated
  else if negated then
    requestValues.all fun value ↦ expectedValues.all fun expected ↦ !matched expected value
  else requestValues.any fun value ↦ expectedValues.any fun expected ↦ matched expected value

theorem length_le_length (t : Text) : t.length ≤ t.length := le_rfl

theorem length_le_of_cons {c : Char} {pattern after : Text}
    (h : (c :: pattern).length ≤ after.length) : pattern.length ≤ after.length :=
  Nat.le_of_succ_le h

/-- The loop of `wildcard_match` once it has come to a star: `after` is what follows the last star,
and `tried` is where that star was last tried. -/
def wildcardFrom (after tried pattern value : Text) (h : pattern.length ≤ after.length) : Bool :=
  match value with
  | [] => pattern.all (· = '*')
  | v :: rest =>
    let retry : Bool :=
      match tried with
      | [] => false
      | _ :: tried => wildcardFrom after tried after tried (length_le_length after)
    match pattern with
    | [] => retry
    | c :: pattern =>
      if c = '?' || c = v then wildcardFrom after tried pattern rest (length_le_of_cons h)
      else if c = '*' then wildcardFrom pattern (v :: rest) pattern (v :: rest) (length_le_length pattern)
      else retry
termination_by (after.length, tried.length, pattern.length)

/-- `wildcard_match`, up to the first star -/
def wildcardMatch : (pattern value : Text) → Bool
  | pattern, [] => pattern.all (· = '*')
  | [], _ :: _ => false
  | c :: pattern, v :: rest =>
    if c = '?' || c = v then wildcardMatch pattern rest
    else if c = '*' then wildcardFrom pattern (v :: rest) pattern (v :: rest) (length_le_length pattern)
    else false

/-- `string_condition_matches` -/
def stringConditionMatches : List Text → List Text → Bool → Bool :=
  textConditionMatches fun expected value ↦ value = expected

/-- `wildcard_condition_matches` -/
def wildcardConditionMatches : List Text → List Text → Bool → Bool :=
  textConditionMatches wildcardMatch

/-- `NumericCondition` -/
inductive NumericCondition where
  | equals
  | notEquals
  | lessThan
  | lessThanEquals
  | greaterThan
  | greaterThanEquals
  deriving DecidableEq

/-- The comparison of a number of the request with an expected one. -/
def NumericCondition.compares (P : Platform) :
    NumericCondition → (requested expected : P.F64) → Bool
  | equals, requested, expected => P.totalEq requested expected
  | notEquals, requested, expected => !P.totalEq requested expected
  | lessThan, requested, expected => P.lt requested expected
  | lessThanEquals, requested, expected => P.le requested expected
  | greaterThan, requested, expected => P.lt expected requested
  | greaterThanEquals, requested, expected => P.le expected requested

/-- `numeric_condition_matches` -/
def numericConditionMatches (P : Platform) (requestValues expectedValues : List Text)
    (condition : NumericCondition) : Bool :=
  if requestValues.isEmpty then condition = .notEquals
  else
    let expectedNumbers := expectedValues.filterMap P.parseF64
    if expectedNumbers.isEmpty then false
    else if condition = .notEquals then
      requestValues.all fun value ↦ (P.parseF64 value).any fun requested ↦
        expectedNumbers.all fun expected ↦ condition.compares P requested expected
    else
      requestValues.any fun value ↦ (P.parseF64 value).any fun requested ↦
        expectedNumbers.any fun expected ↦ condition.compares P requested expected

/-- The comparison of a condition operator, by its name. -/
def operatorMatches (P : Platform) (operator : Text) (requestValues expectedValues : List Text) :
    Bool :=
  match String.ofList operator with
  | "Null" => nullConditionMatches requestValues expectedValues
  | "Bool" => boolConditionMatches requestValues expectedValues
  | "StringEquals" | "ArnEquals" => stringConditionMatches requestValues expectedValues false
  | "StringNotEquals" | "ArnNotEquals" => stringConditionMatches requestValues expectedValues true
  | "StringLike" | "ArnLike" => wildcardConditionMatches requestValues expectedValues false
  | "StringNotLike" | "ArnNotLike" => wildcardConditionMatches requestValues expectedValues true
  | "NumericEquals" => numericConditionMatches P requestValues expectedValues .equals
  | "NumericNotEquals" => numericConditionMatches P requestValues expectedValues .notEquals
  | "NumericLessThan" => numericConditionMatches P requestValues expectedValues .lessThan
  | "NumericLessThanEquals" =>
    numericConditionMatches P requestValues expectedValues .lessThanEquals
  | "NumericGreaterThan" => numericConditionMatches P requestValues expectedValues .greaterThan
  | "NumericGreaterThanEquals" =>
    numericConditionMatches P requestValues expectedValues .greaterThanEquals
  | _ => false

/-- `condition_key_matches` -/
def conditionKeyMatches (K : Crates) (P : Platform) (operator key : Text) (expected : Json)
    (context : AuthContext) : Bool :=
  match jsonValuesToStrings expected with
  | none | some [] => false
  | some expectedValues =>
    operatorMatches P operator (valuesForConditionKey K P key context) expectedValues

/-- `condition_operator_matches` -/
def conditionOperatorMatches (K : Crates) (P : Platform) (operator : Text) (operands : Json)
    (context : AuthContext) : Bool :=
  match operands with
  | .object members => members.all fun m ↦ conditionKeyMatches K P operator m.1 m.2 context
  | _ => false

/-- `conditions_match` -/
def conditionsMatch (K : Crates) (P : Platform) (condition : Option Json) (context : AuthContext) :
    Bool :=
  match condition with
  | none => true
  | some (.object members) => members.all fun m ↦ conditionOperatorMatches K P m.1 m.2 context
  | some _ => false

/-! ### Statements -/

/-- `principal_matches` -/
def principalMatches (principal : Principal) (context : AuthContext) : Bool :=
  match principal with
  | .all text => text = ['*']
  | .aws (.single p) => p = context.principal || p = ['*']
  | .aws (.multiple ps) => ps.contains context.principal || ps.contains ['*']

/-- Whether a pattern of a statement, which may end in stars, matches. -/
def patternMatches (always : List Text) (pattern text : Text) : Bool :=
  if always.contains pattern then true
  else if pattern.getLast? = some '*' then
    ((pattern.reverse.dropWhile (· = '*')).reverse).isPrefixOf text
  else pattern = text

/-- One of the texts. -/
def Texts.any (texts : Texts) (p : Text → Bool) : Bool :=
  match texts with
  | .single text => p text
  | .multiple texts => texts.any p

/-- `action_matches` -/
def actionMatches (actions : Texts) (contextAction : Text) : Bool :=
  actions.any fun action ↦ patternMatches [['*'], "s3:*".toList] action contextAction

/-- `resource_matches` -/
def resourceMatches (resources : Texts) (contextResource : Text) : Bool :=
  resources.any fun resource ↦ patternMatches [['*']] resource contextResource

/-- `statement_applies` -/
def statementApplies (K : Crates) (P : Platform) (statement : PolicyStatementDocument)
    (context : AuthContext) : Bool :=
  if !principalMatches statement.principal context then false
  else if !actionMatches statement.action context.action then false
  else if !resourceMatches statement.resource context.resource then false
  else if !conditionsMatch K P statement.condition context then false
  else true

/-- The flags `has_allow` and `has_deny`, behind one statement. -/
def noteStatement (K : Crates) (P : Platform) (context : AuthContext) (flags : Bool × Bool)
    (statement : PolicyStatementDocument) : Bool × Bool :=
  if !statementApplies K P statement context then flags
  else
    match String.ofList statement.effect with
    | "Allow" => (true, flags.2)
    | "Deny" => (flags.1, true)
    | _ => flags

/-- `evaluate_policy` -/
def evaluatePolicy (K : Crates) (P : Platform) (policy : BucketPolicyDocument)
    (context : AuthContext) : PolicyEffect :=
  let flags := policy.statement.foldl (noteStatement K P context) (false, false)
  if flags.2 then .deny else if flags.1 then .allow else .neutral

/-! ### Effects -/

section Effects

variable {K : Crates} {P : Platform} {context : AuthContext} {policy : BucketPolicyDocument}

/-- A statement of the policy applies to the request and has the effect. -/
def Says (K : Crates) (P : Platform) (policy : BucketPolicyDocument) (context : AuthContext)
    (effect : String) : Prop :=
  ∃ statement ∈ policy.statement,
    statementApplies K P statement context = true ∧ statement.effect = effect.toList

/-- What one statement does to the flags. -/
theorem noteStatement_eq (flags : Bool × Bool) (statement : PolicyStatementDocument) :
    noteStatement K P context flags statement =
      (flags.1 || (statementApplies K P statement context && statement.effect = "Allow".toList),
        flags.2 || (statementApplies K P statement context && statement.effect = "Deny".toList)) := by
  have hword : ∀ word : String, String.ofList statement.effect = word ↔
      statement.effect = word.toList := fun word ↦ by
    rw [← String.toList_inj, String.toList_ofList]
  unfold noteStatement
  cases happlies : statementApplies K P statement context with
  | false => simp
  | true =>
    simp only [Bool.not_true, Bool.false_eq_true, if_false, Bool.true_and, ← hword]
    split
    · next h => simp [h]
    · next h => simp [h]
    · next hallow hdeny =>
      rw [decide_eq_false hallow, decide_eq_false hdeny, Bool.or_false, Bool.or_false]

/-- What the statements of a list do to the flags. -/
theorem foldl_noteStatement (statements : List PolicyStatementDocument) (flags : Bool × Bool) :
    statements.foldl (noteStatement K P context) flags =
      (flags.1 || statements.any fun statement ↦
          statementApplies K P statement context && statement.effect = "Allow".toList,
        flags.2 || statements.any fun statement ↦
          statementApplies K P statement context && statement.effect = "Deny".toList) := by
  induction statements generalizing flags with
  | nil => simp
  | cons statement statements ih =>
    rw [List.foldl_cons, ih, noteStatement_eq, List.any_cons, List.any_cons, Bool.or_assoc,
      Bool.or_assoc]

theorem any_effect_iff (effect : String) :
    (policy.statement.any fun statement ↦
        statementApplies K P statement context && statement.effect = effect.toList) = true ↔
      Says K P policy context effect := by
  simp [Says]

/-- **A denial is decisive.** -/
theorem evaluatePolicy_eq_deny :
    evaluatePolicy K P policy context = .deny ↔ Says K P policy context "Deny" := by
  unfold evaluatePolicy
  rw [foldl_noteStatement, ← any_effect_iff]
  grind

/-- **A permission counts when nothing is denied.** -/
theorem evaluatePolicy_eq_allow :
    evaluatePolicy K P policy context = .allow ↔
      Says K P policy context "Allow" ∧ ¬ Says K P policy context "Deny" := by
  unfold evaluatePolicy
  rw [foldl_noteStatement, ← any_effect_iff, ← any_effect_iff]
  grind

theorem evaluatePolicy_eq_neutral :
    evaluatePolicy K P policy context = .neutral ↔
      ¬ Says K P policy context "Allow" ∧ ¬ Says K P policy context "Deny" := by
  unfold evaluatePolicy
  rw [foldl_noteStatement, ← any_effect_iff, ← any_effect_iff]
  grind

/-- The order of the statements does not matter. -/
theorem says_perm {policy' : BucketPolicyDocument} (h : policy.statement.Perm policy'.statement)
    (effect : String) : Says K P policy context effect ↔ Says K P policy' context effect := by
  refine exists_congr fun statement ↦ and_congr_left fun _ ↦ ?_
  exact h.mem_iff

/-- **Policies with the same statements in another order have the same effect.** -/
theorem evaluatePolicy_perm {policy' : BucketPolicyDocument}
    (h : policy.statement.Perm policy'.statement) :
    evaluatePolicy K P policy context = evaluatePolicy K P policy' context := by
  cases heffect : evaluatePolicy K P policy' context with
  | deny =>
    rw [evaluatePolicy_eq_deny] at heffect ⊢
    exact (says_perm h "Deny").2 heffect
  | allow =>
    rw [evaluatePolicy_eq_allow] at heffect ⊢
    rwa [says_perm h, says_perm h]
  | neutral =>
    rw [evaluatePolicy_eq_neutral] at heffect ⊢
    rwa [says_perm h, says_perm h]

end Effects

end Sqrzl.Auth
