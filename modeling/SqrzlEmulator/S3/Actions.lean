import SqrzlEmulator.S3.Request

/-!
# The authorised action and the executed operation

A handler of the S3 front door first names an action and asks `check_authorization` about it, and
then finds out what to do. **Both are read off the query parameters, by two chains of tests.** Where
the two chains look at the parameters in different orders, a request that carries several of them is
authorised as one thing and executed as another.

`plan` is what a handler does with a request: the checks that have to pass, and the operation that
runs if they do. `Operation.required` is what the operation should have been checked for, and
`Aligned` says of which requests this is true.
-/

namespace Sqrzl.S3

/-- An entry of a `DeleteObjects` document: a key, a version and an ETag. -/
abbrev DeleteEntry : Type := Text × Option String × Option String

/-- The operations of the front door. -/
inductive Operation where
  | preflight
  | getBucketRequestPayment
  | getBucketWebsite
  | getBucketCors
  | getLifecycle
  | getBucketPolicy
  | getBucketAcl
  | getBucketVersioning
  | getObjectLockConfiguration
  | listMultipartUploads
  | listObjectVersions
  | listObjects
  | headBucket
  | putLifecycle
  | putRequestPayment
  | putWebsite
  | putCors
  | putVersioning
  | putBucketAcl
  | putPolicy
  | createBucket
  | deleteWebsite
  | deleteCors
  | deleteLifecycle
  | deletePolicy
  | deleteBucket
  | deleteObjects (entries : List DeleteEntry)
  | browserUpload (key : Text)
  | getObjectTagging (key : Text)
  | getObjectAcl (key : Text)
  | getObjectVersion (key : Text) (version : String)
  | listParts (key : Text)
  | getObject (key : Text)
  | putObjectTagging (key : Text)
  | putObjectAcl (key : Text)
  | uploadPartCopy (key : Text)
  | uploadPart (key : Text)
  | copyObject (key : Text)
  | putObject (key : Text)
  | deleteObjectTagging (key : Text)
  | deleteObjectVersion (key : Text) (version : String)
  | deleteObject (key : Text)
  | abortMultipartUpload (key : Text)
  | headObject (key : Text)
  | initiateMultipartUpload (key : Text)
  | completeMultipartUpload (key : Text)

/-- A question for `check_authorization`: an action, on the bucket or on one of its keys. -/
structure Check where
  action : String
  key : Option Text
  deriving DecidableEq

/-- What has to be allowed before an operation runs. -/
def Operation.required : Operation → List Check
  | .preflight => []
  | .getBucketRequestPayment => [⟨"s3:GetBucketRequestPayment", none⟩]
  | .getBucketWebsite => [⟨"s3:GetBucketWebsite", none⟩]
  | .getBucketCors => [⟨"s3:GetBucketCors", none⟩]
  | .getLifecycle => [⟨"s3:GetLifecycleConfiguration", none⟩]
  | .getBucketPolicy => [⟨"s3:GetBucketPolicy", none⟩]
  | .getBucketAcl => [⟨"s3:GetBucketAcl", none⟩]
  | .getBucketVersioning => [⟨"s3:GetBucketVersioning", none⟩]
  | .getObjectLockConfiguration => [⟨"s3:GetBucketObjectLockConfiguration", none⟩]
  | .listMultipartUploads => [⟨"s3:ListBucketMultipartUploads", none⟩]
  | .listObjectVersions => [⟨"s3:ListBucketVersions", none⟩]
  | .listObjects => [⟨"s3:ListBucket", none⟩]
  | .headBucket => [⟨"s3:ListBucket", none⟩]
  | .putLifecycle => [⟨"s3:PutLifecycleConfiguration", none⟩]
  | .putRequestPayment => [⟨"s3:PutBucketRequestPayment", none⟩]
  | .putWebsite => [⟨"s3:PutBucketWebsite", none⟩]
  | .putCors => [⟨"s3:PutBucketCors", none⟩]
  | .putVersioning => [⟨"s3:PutBucketVersioning", none⟩]
  | .putBucketAcl => [⟨"s3:PutBucketAcl", none⟩]
  | .putPolicy => [⟨"s3:PutBucketPolicy", none⟩]
  | .createBucket => [⟨"s3:CreateBucket", none⟩]
  | .deleteWebsite => [⟨"s3:DeleteBucketWebsite", none⟩]
  | .deleteCors => [⟨"s3:DeleteBucketCors", none⟩]
  | .deleteLifecycle => [⟨"s3:DeleteLifecycleConfiguration", none⟩]
  | .deletePolicy => [⟨"s3:DeleteBucketPolicy", none⟩]
  | .deleteBucket => [⟨"s3:DeleteBucket", none⟩]
  | .deleteObjects entries => entries.map fun entry ↦
      ⟨if entry.2.1.isSome then "s3:DeleteObjectVersion" else "s3:DeleteObject", some entry.1⟩
  | .browserUpload key => [⟨"s3:PutObject", some key⟩]
  | .getObjectTagging key => [⟨"s3:GetObject", some key⟩]
  | .getObjectAcl key => [⟨"s3:GetObjectAcl", some key⟩]
  | .getObjectVersion key _ => [⟨"s3:GetObject", some key⟩]
  | .listParts key => [⟨"s3:GetObject", some key⟩]
  | .getObject key => [⟨"s3:GetObject", some key⟩]
  | .putObjectTagging key => [⟨"s3:PutObject", some key⟩]
  | .putObjectAcl key => [⟨"s3:PutObjectAcl", some key⟩]
  | .uploadPartCopy key => [⟨"s3:PutObject", some key⟩]
  | .uploadPart key => [⟨"s3:PutObject", some key⟩]
  | .copyObject key => [⟨"s3:PutObject", some key⟩]
  | .putObject key => [⟨"s3:PutObject", some key⟩]
  | .deleteObjectTagging key => [⟨"s3:DeleteObject", some key⟩]
  | .deleteObjectVersion key _ => [⟨"s3:DeleteObjectVersion", some key⟩]
  | .deleteObject key => [⟨"s3:DeleteObject", some key⟩]
  | .abortMultipartUpload key => [⟨"s3:DeleteObject", some key⟩]
  | .headObject key => [⟨"s3:GetObject", some key⟩]
  | .initiateMultipartUpload key => [⟨"s3:PutObject", some key⟩]
  | .completeMultipartUpload key => [⟨"s3:PutObject", some key⟩]

/-! ### The handlers -/

/-- What a handler does with a request: the checks that have to pass, and the operation that runs if
they do, unless the request is refused for what it says. -/
structure Plan where
  checks : List Check
  operation : Option Operation

/-- The first of the parameters that a request carries decides. -/
def Request.firstOf {α : Type} (req : Request) : List (String × α) → α → α
  | [], otherwise => otherwise
  | (name, a) :: rest, otherwise => if req.has name then a else req.firstOf rest otherwise

/-- `bucket_get_action` -/
def bucketGetAction (req : Request) : String :=
  req.firstOf [("requestPayment", "s3:GetBucketRequestPayment"), ("website", "s3:GetBucketWebsite"),
    ("cors", "s3:GetBucketCors"), ("lifecycle", "s3:GetLifecycleConfiguration"),
    ("policy", "s3:GetBucketPolicy"), ("acl", "s3:GetBucketAcl"),
    ("versioning", "s3:GetBucketVersioning"),
    ("object-lock", "s3:GetBucketObjectLockConfiguration"),
    ("uploads", "s3:ListBucketMultipartUploads"), ("versions", "s3:ListBucketVersions")]
    "s3:ListBucket"

/-- `bucket_subresource_response`, and the listings after it. -/
def bucketGetOperation (req : Request) : Operation :=
  req.firstOf [("requestPayment", .getBucketRequestPayment), ("website", .getBucketWebsite),
    ("cors", .getBucketCors), ("lifecycle", .getLifecycle), ("policy", .getBucketPolicy),
    ("acl", .getBucketAcl), ("versioning", .getBucketVersioning),
    ("object-lock", .getObjectLockConfiguration), ("uploads", .listMultipartUploads),
    ("versions", .listObjectVersions)] .listObjects

/-- `bucket_get_or_list_objects` -/
def bucketGet (req : Request) : Plan :=
  if req.isPreflight then ⟨[], some .preflight⟩
  else ⟨[⟨bucketGetAction req, none⟩], some (bucketGetOperation req)⟩

/-- `bucket_put_action` -/
def bucketPutAction (req : Request) : String :=
  req.firstOf [("versioning", "s3:PutBucketVersioning"),
    ("object-lock", "s3:PutBucketObjectLockConfiguration"),
    ("lifecycle", "s3:PutLifecycleConfiguration"), ("requestPayment", "s3:PutBucketRequestPayment"),
    ("website", "s3:PutBucketWebsite"), ("cors", "s3:PutBucketCors"), ("acl", "s3:PutBucketAcl"),
    ("policy", "s3:PutBucketPolicy")] "s3:CreateBucket"

/-- The dispatch of `bucket_put`. Object lock configurations are not implemented. -/
def bucketPutOperation (req : Request) : Option Operation :=
  req.firstOf [("lifecycle", some .putLifecycle), ("requestPayment", some .putRequestPayment),
    ("website", some .putWebsite), ("cors", some .putCors), ("versioning", some .putVersioning),
    ("object-lock", none), ("acl", some .putBucketAcl), ("policy", some .putPolicy)]
    (some .createBucket)

/-- `bucket_put` -/
def bucketPut (bucket : Text) (req : Request) : Plan :=
  ⟨[⟨bucketPutAction req, none⟩],
    if validBucketName bucket then bucketPutOperation req else none⟩

/-- The action of `bucket_delete`. -/
def bucketDeleteAction (req : Request) : String :=
  req.firstOf [("lifecycle", "s3:DeleteLifecycleConfiguration"),
    ("policy", "s3:DeleteBucketPolicy"), ("website", "s3:DeleteBucketWebsite"),
    ("cors", "s3:DeleteBucketCors")] "s3:DeleteBucket"

/-- The dispatch of `bucket_delete`. Versioning and ACLs cannot be deleted. -/
def bucketDeleteOperation (req : Request) : Option Operation :=
  req.firstOf [("website", some .deleteWebsite), ("cors", some .deleteCors),
    ("lifecycle", some .deleteLifecycle), ("policy", some .deletePolicy), ("versioning", none),
    ("acl", none)] (some .deleteBucket)

/-- `bucket_delete` -/
def bucketDelete (req : Request) : Plan :=
  ⟨[⟨bucketDeleteAction req, none⟩], bucketDeleteOperation req⟩

/-- `bucket_head` -/
def bucketHead : Plan := ⟨[⟨"s3:ListBucket", none⟩], some .headBucket⟩

/-- `unsupported_object_lock_subresource_response` -/
def unsupportedObjectLock (req : Request) : Bool := req.has "retention" || req.has "legal-hold"

/-- `unsupported_version_tagging_response` -/
def versionTagging (req : Request) : Bool := req.has "tagging" && req.has "versionId"

/-- `object_get` -/
def objectGet (key : Text) (req : Request) : Plan :=
  if req.isPreflight then
    ⟨[], some .preflight⟩
  else
    ⟨[⟨"s3:GetObject", some key⟩],
      if unsupportedObjectLock req || versionTagging req then none
      else if req.has "tagging" then some (.getObjectTagging key)
      else if req.has "acl" then some (.getObjectAcl key)
      else match req.queryParam "versionId" with
        | some version => some (.getObjectVersion key version)
        | none => if req.has "uploadId" then some (.listParts key) else some (.getObject key)⟩

/-- `object_put` -/
def objectPut (key : Text) (req : Request) : Plan :=
  ⟨[⟨"s3:PutObject", some key⟩],
    if unsupportedObjectLock req || versionTagging req then none
    else if req.has "tagging" then some (.putObjectTagging key)
    else if req.has "acl" then some (.putObjectAcl key)
    else if req.has "uploadId" && (req.queryParam "partNumber").isSome then
      if (req.header "x-amz-copy-source").isSome then some (.uploadPartCopy key)
      else some (.uploadPart key)
    else if (req.header "x-amz-copy-source").isSome then some (.copyObject key)
    else some (.putObject key)⟩

/-- `object_delete` -/
def objectDelete (key : Text) (req : Request) : Plan :=
  ⟨[⟨"s3:DeleteObject", some key⟩],
    if req.has "uploadId" then some (.abortMultipartUpload key)
    else if versionTagging req then none
    else if req.has "tagging" then some (.deleteObjectTagging key)
    else match req.queryParam "versionId" with
      | some version => some (.deleteObjectVersion key version)
      | none => some (.deleteObject key)⟩

/-- `object_head` -/
def objectHead (key : Text) : Plan := ⟨[⟨"s3:GetObject", some key⟩], some (.headObject key)⟩

/-- `object_post` -/
def objectPost (key : Text) (req : Request) : Plan :=
  if req.has "uploadId" then
    ⟨⟨"s3:PutObject", some key⟩ ::
      (if (req.header "if-match").isSome then [⟨"s3:GetObject", some key⟩] else []),
      some (.completeMultipartUpload key)⟩
  else
    ⟨[⟨"s3:PutObject", some key⟩],
      if req.has "uploads" then some (.initiateMultipartUpload key) else none⟩

section Plans

-- What the bodies of `DeleteObjects` documents and of browser forms say, where they can be read.
variable (parseDeletes : Request → Option (List DeleteEntry)) (parseForm : Request → Option Text)

/-- `bucket_post`. Each key of a `DeleteObjects` document is checked before any is deleted. -/
def bucketPost (req : Request) : Plan :=
  if req.has "delete" then
    match parseDeletes req with
    | some entries =>
      ⟨entries.map fun entry ↦ ⟨"s3:DeleteObject", some entry.1⟩, some (.deleteObjects entries)⟩
    | none => ⟨[], none⟩
  else if (req.header "content-type").any fun value ↦ "multipart/form-data".isPrefixOf value then
    match parseForm req with
    | some key => ⟨[⟨"s3:PutObject", some key⟩], some (.browserUpload key)⟩
    | none => ⟨[], none⟩
  else
    ⟨[], none⟩

/-- What the handlers do with a request. -/
def plan (req : Request) : Plan :=
  match req.route with
  | .bucketGet _ => bucketGet req
  | .bucketPut bucket => bucketPut bucket req
  | .bucketDelete _ => bucketDelete req
  | .bucketHead _ => bucketHead
  | .bucketPost _ => bucketPost parseDeletes parseForm req
  | .objectGet _ key => objectGet key req
  | .objectPut _ key => objectPut key req
  | .objectDelete _ key => objectDelete key req
  | .objectHead _ key => objectHead key
  | .objectPost _ key => objectPost key req

/-- A request is executed: what it was planned as has passed its checks and is admitted by whatever
else the handler looks at. -/
structure Executes (allowed : Check → Bool) (admits : Operation → Bool) (req : Request)
    (op : Operation) : Prop where
  planned : (plan parseDeletes parseForm req).operation = some op
  checked : ∀ c ∈ (plan parseDeletes parseForm req).checks, allowed c = true
  admitted : admits op = true

/-- The requests whose operation is the one that was authorised. -/
def Aligned (req : Request) : Prop :=
  match req.route with
  | .bucketPut bucket => validBucketName bucket →
      ¬ ((req.has "versioning" ∨ req.has "object-lock") ∧
        (req.has "lifecycle" ∨ req.has "requestPayment" ∨ req.has "website" ∨ req.has "cors"))
  | .bucketDelete _ =>
      ¬ ((req.has "lifecycle" ∨ req.has "policy") ∧ (req.has "website" ∨ req.has "cors"))
  | .bucketPost _ => req.has "delete" → ∀ entries, parseDeletes req = some entries →
      ∀ entry ∈ entries, entry.2.1 = none
  | .objectGet _ _ => req.has "acl" → req.isPreflight ∨ unsupportedObjectLock req ∨ req.has "tagging"
  | .objectPut _ _ => req.has "acl" → unsupportedObjectLock req ∨ req.has "tagging"
  | .objectDelete _ _ => req.has "versionId" → req.has "uploadId" ∨ req.has "tagging"
  | _ => True

/-! ### The two chains -/

variable {parseDeletes parseForm} {req : Request}

/-- What an operation needs has been checked. -/
def Plan.Covered (p : Plan) : Prop := ∀ op, p.operation = some op → op.required ⊆ p.checks

/-- Being allowed whatever the checks allow is having been checked. -/
theorem subset_iff_forall_allowed {required checks : List Check} :
    (∀ allowed : Check → Bool, (∀ c ∈ checks, allowed c = true) → ∀ c ∈ required, allowed c = true) ↔
      required ⊆ checks := by
  constructor
  · intro h c hc
    exact of_decide_eq_true (h (fun c ↦ decide (c ∈ checks)) (fun c hc ↦ decide_eq_true hc) c hc)
  · exact fun h allowed hchecks c hc ↦ hchecks c (h hc)

theorem covered_some {checks : List Check} {op : Operation} :
    Plan.Covered ⟨checks, some op⟩ ↔ op.required ⊆ checks := by
  constructor
  · exact fun h ↦ h op rfl
  · rintro h _ ⟨⟩
    exact h

theorem covered_none {checks : List Check} : Plan.Covered ⟨checks, none⟩ := by
  rintro _ ⟨⟩

/-- One check that does not name the action of the operation does not cover it. -/
theorem not_covered_of_ne {op : Operation} {action action' : String} {key : Option Text}
    (hop : op.required = [⟨action', key⟩]) (hne : action' ≠ action) :
    ¬ Plan.Covered ⟨[⟨action, key⟩], some op⟩ := by
  rw [covered_some, hop]
  intro h
  have := List.mem_singleton.1 (h (List.mem_singleton.2 rfl))
  exact hne (congrArg Check.action this)

/-- The check that names the action of the operation covers it. -/
theorem covered_of_eq {op : Operation} {action : String} (hop : op.required = [⟨action, none⟩]) :
    Plan.Covered ⟨[⟨action, none⟩], some op⟩ := by
  rw [covered_some, hop]
  exact fun _ ↦ id

namespace Request

variable {α β : Type} {name : String} {a otherwise : α} {rest : List (String × α)}

theorem firstOf_present (h : req.has name) : req.firstOf ((name, a) :: rest) otherwise = a := by
  rw [firstOf, if_pos h]

theorem firstOf_absent (h : ¬ req.has name) :
    req.firstOf ((name, a) :: rest) otherwise = req.firstOf rest otherwise := by
  rw [firstOf, if_neg h]

/-- Wherever it stands in a chain, a parameter that is absent can be left out. -/
theorem firstOf_append_absent (front : List (String × α)) (h : ¬ req.has name) :
    req.firstOf (front ++ (name, a) :: rest) otherwise = req.firstOf (front ++ rest) otherwise := by
  induction front with
  | nil => exact firstOf_absent h
  | cons head front ih =>
    obtain ⟨first, b⟩ := head
    rw [List.cons_append, List.cons_append, firstOf, firstOf, ih]

/-- **Two chains that look at the parameters in one order decide alike.** -/
theorem firstOf_rel {R : α → β → Prop} {choices : List (String × α)} {choices' : List (String × β)}
    {otherwise' : β} (h : List.Forall₂ (fun x y ↦ x.1 = y.1 ∧ R x.2 y.2) choices choices')
    (hotherwise : R otherwise otherwise') :
    R (req.firstOf choices otherwise) (req.firstOf choices' otherwise') := by
  induction h with
  | nil => exact hotherwise
  | @cons x y _ _ hxy _ ih =>
    obtain ⟨name, a⟩ := x
    obtain ⟨name', b⟩ := y
    obtain ⟨rfl, hab⟩ : name = name' ∧ R a b := hxy
    by_cases hname : req.has name
    · rw [firstOf_present hname, firstOf_present hname]
      exact hab
    · rw [firstOf_absent hname, firstOf_absent hname]
      exact ih

end Request

theorem covered_bucketGet : (bucketGet req).Covered := by
  unfold bucketGet
  split
  · exact covered_some.2 (List.nil_subset _)
  · refine Request.firstOf_rel (R := fun action op ↦ Plan.Covered ⟨[⟨action, none⟩], some op⟩) ?_
      (covered_of_eq rfl)
    repeat' first | exact .nil | refine .cons ⟨rfl, covered_of_eq rfl⟩ ?_

/-- With versioning or an object lock among the parameters, one of the two is the action. -/
theorem bucketPutAction_of_set (h : req.has "versioning" ∨ req.has "object-lock") :
    bucketPutAction req = "s3:PutBucketVersioning" ∨
      bucketPutAction req = "s3:PutBucketObjectLockConfiguration" := by
  unfold bucketPutAction
  by_cases hv : req.has "versioning"
  · exact .inl (Request.firstOf_present hv)
  · rw [Request.firstOf_absent hv, Request.firstOf_present (h.resolve_left hv)]
    exact .inr rfl

/-- With one of four parameters present, it is what the bucket is changed in. -/
theorem bucketPutOperation_of_four (h : req.has "lifecycle" ∨ req.has "requestPayment" ∨
      req.has "website" ∨ req.has "cors") :
    ∃ op action, bucketPutOperation req = some op ∧ op.required = [⟨action, none⟩] ∧
      action ≠ "s3:PutBucketVersioning" ∧ action ≠ "s3:PutBucketObjectLockConfiguration" := by
  unfold bucketPutOperation
  by_cases h₁ : req.has "lifecycle"
  · exact ⟨_, _, Request.firstOf_present h₁, rfl, by decide, by decide⟩
  rw [Request.firstOf_absent h₁]
  by_cases h₂ : req.has "requestPayment"
  · exact ⟨_, _, Request.firstOf_present h₂, rfl, by decide, by decide⟩
  rw [Request.firstOf_absent h₂]
  by_cases h₃ : req.has "website"
  · exact ⟨_, _, Request.firstOf_present h₃, rfl, by decide, by decide⟩
  rw [Request.firstOf_absent h₃]
  have h₄ := ((h.resolve_left h₁).resolve_left h₂).resolve_left h₃
  exact ⟨_, _, Request.firstOf_present h₄, rfl, by decide, by decide⟩

/-- Without versioning and object lock, the dispatch looks at the rest in the order of the
action. -/
theorem bucketPutOperation_of_not_set (h : ¬ (req.has "versioning" ∨ req.has "object-lock")) :
    bucketPutOperation req =
      req.firstOf [("lifecycle", some .putLifecycle), ("requestPayment", some .putRequestPayment),
        ("website", some .putWebsite), ("cors", some .putCors), ("acl", some .putBucketAcl),
        ("policy", some .putPolicy)] (some .createBucket) := by
  obtain ⟨hv, ho⟩ := not_or.1 h
  exact (Request.firstOf_append_absent [_, _, _, _] hv).trans
    (Request.firstOf_append_absent [_, _, _, _] ho)

theorem covered_bucketPut {bucket : Text} : (bucketPut bucket req).Covered ↔
    (validBucketName bucket → ¬ ((req.has "versioning" ∨ req.has "object-lock") ∧
      (req.has "lifecycle" ∨ req.has "requestPayment" ∨ req.has "website" ∨ req.has "cors"))) := by
  unfold bucketPut
  split
  · next hname =>
    by_cases hset : req.has "versioning" ∨ req.has "object-lock"
    · by_cases hfour : req.has "lifecycle" ∨ req.has "requestPayment" ∨ req.has "website" ∨
          req.has "cors"
      · refine iff_of_false ?_ fun h ↦ h hname ⟨hset, hfour⟩
        obtain ⟨op, action, hop, hreq, hv, ho⟩ := bucketPutOperation_of_four hfour
        rw [hop]
        rcases bucketPutAction_of_set hset with haction | haction
        · rw [haction]
          exact not_covered_of_ne hreq hv
        · rw [haction]
          exact not_covered_of_ne hreq ho
      · refine iff_of_true ?_ fun _ h ↦ hfour h.2
        obtain ⟨h₁, h₂, h₃, h₄⟩ : _ ∧ _ ∧ _ ∧ _ := by simpa only [not_or] using hfour
        rw [bucketPutOperation, Request.firstOf_absent h₁, Request.firstOf_absent h₂,
          Request.firstOf_absent h₃, Request.firstOf_absent h₄]
        by_cases hv : req.has "versioning"
        · rw [Request.firstOf_present hv, bucketPutAction, Request.firstOf_present hv]
          exact covered_some.2 fun _ ↦ id
        · rw [Request.firstOf_absent hv, Request.firstOf_present (hset.resolve_left hv)]
          exact covered_none
    · refine iff_of_true ?_ fun _ h ↦ hset h.1
      obtain ⟨hv, ho⟩ := not_or.1 hset
      -- Without the two parameters both chains are the same.
      rw [bucketPutOperation_of_not_set hset, bucketPutAction, Request.firstOf_absent hv,
        Request.firstOf_absent ho]
      refine Request.firstOf_rel (R := fun action op ↦ Plan.Covered ⟨[⟨action, none⟩], op⟩) ?_
        (covered_of_eq rfl)
      repeat' first | exact .nil | refine .cons ⟨rfl, covered_of_eq rfl⟩ ?_
  · next hname => exact iff_of_true covered_none fun h ↦ absurd h hname

/-- With a website or a CORS configuration among the parameters, one of the two is deleted. -/
theorem bucketDeleteOperation_of_two (h : req.has "website" ∨ req.has "cors") :
    bucketDeleteOperation req = some .deleteWebsite ∨
      bucketDeleteOperation req = some .deleteCors := by
  unfold bucketDeleteOperation
  by_cases hw : req.has "website"
  · exact .inl (Request.firstOf_present hw)
  · rw [Request.firstOf_absent hw, Request.firstOf_present (h.resolve_left hw)]
    exact .inr rfl

/-- With a lifecycle or a policy among the parameters, one of the two is the action. -/
theorem bucketDeleteAction_of_two (h : req.has "lifecycle" ∨ req.has "policy") :
    bucketDeleteAction req = "s3:DeleteLifecycleConfiguration" ∨
      bucketDeleteAction req = "s3:DeleteBucketPolicy" := by
  unfold bucketDeleteAction
  by_cases hl : req.has "lifecycle"
  · exact .inl (Request.firstOf_present hl)
  · rw [Request.firstOf_absent hl, Request.firstOf_present (h.resolve_left hl)]
    exact .inr rfl

theorem covered_bucketDelete : (bucketDelete req).Covered ↔
    ¬ ((req.has "lifecycle" ∨ req.has "policy") ∧ (req.has "website" ∨ req.has "cors")) := by
  unfold bucketDelete
  by_cases hset : req.has "lifecycle" ∨ req.has "policy"
  · by_cases htwo : req.has "website" ∨ req.has "cors"
    · refine iff_of_false ?_ fun h ↦ h ⟨hset, htwo⟩
      rcases bucketDeleteAction_of_two hset with ha | ha <;>
        rcases bucketDeleteOperation_of_two htwo with ho | ho <;>
        rw [ha, ho] <;> exact not_covered_of_ne rfl (by decide)
    · refine iff_of_true ?_ fun h ↦ htwo h.2
      obtain ⟨hw, hc⟩ := not_or.1 htwo
      rw [bucketDeleteOperation, Request.firstOf_absent hw, Request.firstOf_absent hc,
        bucketDeleteAction]
      by_cases hl : req.has "lifecycle"
      · rw [Request.firstOf_present hl, Request.firstOf_present hl]
        exact covered_some.2 fun _ ↦ id
      · have hp := hset.resolve_left hl
        rw [Request.firstOf_absent hl, Request.firstOf_absent hl, Request.firstOf_present hp,
          Request.firstOf_present hp]
        exact covered_some.2 fun _ ↦ id
  · refine iff_of_true ?_ fun h ↦ hset h.1
    obtain ⟨hl, hp⟩ := not_or.1 hset
    rw [bucketDeleteAction, Request.firstOf_absent hl, Request.firstOf_absent hp,
      bucketDeleteOperation]
    by_cases hw : req.has "website"
    · rw [Request.firstOf_present hw, Request.firstOf_present hw]
      exact covered_of_eq rfl
    rw [Request.firstOf_absent hw, Request.firstOf_absent hw]
    by_cases hc : req.has "cors"
    · rw [Request.firstOf_present hc, Request.firstOf_present hc]
      exact covered_of_eq rfl
    rw [Request.firstOf_absent hc, Request.firstOf_absent hc, Request.firstOf_absent hl,
      Request.firstOf_absent hp]
    by_cases hv : req.has "versioning"
    · rw [Request.firstOf_present hv]
      exact covered_none
    rw [Request.firstOf_absent hv]
    by_cases ha : req.has "acl"
    · rw [Request.firstOf_present ha]
      exact covered_none
    rw [Request.firstOf_absent ha]
    exact covered_of_eq rfl

theorem covered_bucketPost : (bucketPost parseDeletes parseForm req).Covered ↔
    (req.has "delete" → ∀ entries, parseDeletes req = some entries →
      ∀ entry ∈ entries, entry.2.1 = none) := by
  unfold bucketPost
  split
  · next hdelete =>
    simp only [hdelete, true_implies]
    cases hparse : parseDeletes req with
    | none => exact iff_of_true covered_none nofun
    | some entries =>
      rw [covered_some]
      constructor
      · rintro h _ ⟨⟩ entry hentry
        obtain ⟨other, -, heq⟩ := List.mem_map.1 (h (List.mem_map_of_mem hentry))
        by_contra hsome
        rw [if_pos (Option.isSome_iff_ne_none.2 hsome)] at heq
        have haction : "s3:DeleteObject" = "s3:DeleteObjectVersion" := congrArg Check.action heq
        exact absurd haction (by decide)
      · intro h c hc
        obtain ⟨entry, hentry, rfl⟩ := List.mem_map.1 hc
        rw [h entries rfl entry hentry]
        exact List.mem_map_of_mem hentry
  · next hdelete =>
    refine iff_of_true ?_ fun h ↦ absurd h hdelete
    split
    · split
      · exact covered_some.2 fun _ ↦ id
      · exact covered_none
    · exact covered_none

theorem not_refused_of_not (hlock : ¬ unsupportedObjectLock req = true)
    (htag : ¬ req.has "tagging" = true) :
    ¬ (unsupportedObjectLock req || versionTagging req) = true := by
  simp [versionTagging, hlock, htag]

theorem covered_objectGet {key : Text} : (objectGet key req).Covered ↔
    (req.has "acl" → req.isPreflight ∨ unsupportedObjectLock req ∨ req.has "tagging") := by
  unfold objectGet
  split
  · next hpre => exact iff_of_true (covered_some.2 (List.nil_subset _)) fun _ ↦ .inl hpre
  · next hpre =>
    by_cases hacl : req.has "acl" = true ∧ ¬ (unsupportedObjectLock req = true ∨
        req.has "tagging" = true)
    · obtain ⟨hacl, hno⟩ := hacl
      obtain ⟨hlock, htag⟩ := not_or.1 hno
      rw [if_neg (not_refused_of_not hlock htag), if_neg htag, if_pos hacl]
      exact iff_of_false (not_covered_of_ne rfl (by decide)) fun h ↦ (h hacl).elim hpre hno
    · refine iff_of_true ?_ fun h ↦ .inr ?_
      · split_ifs with h₁ h₂ h₃
        · exact covered_none
        · exact covered_some.2 fun _ ↦ id
        · exact absurd ⟨h₃, not_or.2 ⟨fun h ↦ h₁ (by simp [h]), h₂⟩⟩ hacl
        · split <;> exact covered_some.2 fun _ ↦ id
        · split <;> exact covered_some.2 fun _ ↦ id
      · by_contra hno
        exact hacl ⟨h, hno⟩

theorem covered_objectPut {key : Text} : (objectPut key req).Covered ↔
    (req.has "acl" → unsupportedObjectLock req ∨ req.has "tagging") := by
  unfold objectPut
  by_cases hacl : req.has "acl" = true ∧ ¬ (unsupportedObjectLock req = true ∨
      req.has "tagging" = true)
  · obtain ⟨hacl, hno⟩ := hacl
    obtain ⟨hlock, htag⟩ := not_or.1 hno
    rw [if_neg (not_refused_of_not hlock htag), if_neg htag, if_pos hacl]
    exact iff_of_false (not_covered_of_ne rfl (by decide)) fun h ↦ hno (h hacl)
  · refine iff_of_true ?_ fun h ↦ ?_
    · split_ifs with h₁ h₂ h₃
      · exact covered_none
      · exact covered_some.2 fun _ ↦ id
      · exact absurd ⟨h₃, not_or.2 ⟨fun h ↦ h₁ (by simp [h]), h₂⟩⟩ hacl
      all_goals exact covered_some.2 fun _ ↦ id
    · by_contra hno
      exact hacl ⟨h, hno⟩

theorem covered_objectDelete {key : Text} : (objectDelete key req).Covered ↔
    (req.has "versionId" → req.has "uploadId" ∨ req.has "tagging") := by
  have hversion : req.has "versionId" = (req.queryParam "versionId").isSome := by
    rw [Request.has, Request.queryParam, Std.ExtTreeMap.contains_eq_isSome_getElem?]
  unfold objectDelete
  split_ifs with hup hvt htag
  · exact iff_of_true (covered_some.2 fun _ ↦ id) fun _ ↦ .inl hup
  · refine iff_of_true covered_none fun _ ↦ .inr ?_
    exact (Bool.and_eq_true_iff.1 hvt).1
  · exact iff_of_true (covered_some.2 fun _ ↦ id) fun _ ↦ .inr htag
  · rw [hversion]
    cases req.queryParam "versionId" with
    | none => exact iff_of_true (covered_some.2 fun _ ↦ id) nofun
    | some version =>
      exact iff_of_false (not_covered_of_ne rfl (by decide)) fun h ↦ (h rfl).elim hup htag

theorem covered_objectPost {key : Text} : (objectPost key req).Covered := by
  unfold objectPost
  split
  · exact covered_some.2 fun c hc ↦ List.mem_cons.2 (.inl (List.mem_singleton.1 hc))
  · split
    · exact covered_some.2 fun _ ↦ id
    · exact covered_none

/-- **The operation has been checked exactly when the request is aligned.** -/
theorem covered_plan_iff : (plan parseDeletes parseForm req).Covered ↔ Aligned parseDeletes req := by
  unfold plan Aligned
  cases req.route with
  | bucketGet bucket => exact iff_of_true covered_bucketGet trivial
  | bucketPut bucket => exact covered_bucketPut
  | bucketDelete bucket => exact covered_bucketDelete
  | bucketHead bucket => exact iff_of_true (covered_some.2 fun _ ↦ id) trivial
  | bucketPost bucket => exact covered_bucketPost
  | objectGet bucket key => exact covered_objectGet
  | objectPut bucket key => exact covered_objectPut
  | objectDelete bucket key => exact covered_objectDelete
  | objectHead bucket key => exact iff_of_true (covered_some.2 fun _ ↦ id) trivial
  | objectPost bucket key => exact iff_of_true covered_objectPost trivial

/-- **A request is executed only as what it was authorised as, exactly when it is aligned** or is
refused in any case. -/
theorem executes_as_authorised_iff (parseDeletes : Request → Option (List DeleteEntry))
    (parseForm : Request → Option Text) (req : Request) (admits : Operation → Bool) :
    (∀ allowed op, Executes parseDeletes parseForm allowed admits req op →
      ∀ c ∈ op.required, allowed c = true) ↔
    Aligned parseDeletes req ∨
      ∀ op, (plan parseDeletes parseForm req).operation = some op → admits op = false := by
  constructor
  · intro h
    by_cases hadmitted : ∃ op, (plan parseDeletes parseForm req).operation = some op ∧ admits op = true
    · obtain ⟨op, hop, hadm⟩ := hadmitted
      have hcovered : (plan parseDeletes parseForm req).Covered := by
        intro op' hop'
        obtain rfl : op = op' := Option.some.inj (hop.symm.trans hop')
        exact subset_iff_forall_allowed.1 fun allowed hchecks ↦ h allowed op ⟨hop, hchecks, hadm⟩
      exact .inl (covered_plan_iff.1 hcovered)
    · refine .inr fun op hop ↦ ?_
      rw [Bool.eq_false_iff]
      exact fun hadm ↦ hadmitted ⟨op, hop, hadm⟩
  · rintro (haligned | hrefused) allowed op ⟨hop, hchecks, hadm⟩
    · exact subset_iff_forall_allowed.2 (covered_plan_iff.2 haligned op hop) allowed hchecks
    · rw [hrefused op hop] at hadm
      cases hadm

/-- A request with two parameters: who may only change the versioning of a bucket replaces its
lifecycle. -/
def lifecycleAsVersioning : Request where
  route := .bucketPut "bucket".toList
  query := ((∅ : Table String String).set "versioning" (some "")).set "lifecycle" (some "")

/-- With nothing but `s3:PutBucketVersioning` allowed, the lifecycle of the bucket is replaced. -/
theorem lifecycle_replaced_as_versioning :
    Executes (fun _ ↦ none) (fun _ ↦ none) (fun c ↦ c = ⟨"s3:PutBucketVersioning", none⟩)
      (fun _ ↦ true) lifecycleAsVersioning .putLifecycle ∧
    ∃ c ∈ Operation.putLifecycle.required, c ≠ ⟨"s3:PutBucketVersioning", none⟩ := by
  have hhas : ∀ name, lifecycleAsVersioning.has name = (name = "lifecycle" || name = "versioning") := by
    intro name
    rw [Request.has, Std.ExtTreeMap.contains_eq_isSome_getElem?]
    simp only [lifecycleAsVersioning, Table.getElem?_set]
    split_ifs with h₁ h₂
    · simp [h₁]
    · simp [h₂]
    · simp [h₁, h₂]
  have hplan : plan (fun _ ↦ none) (fun _ ↦ none) lifecycleAsVersioning =
      ⟨[⟨"s3:PutBucketVersioning", none⟩], some .putLifecycle⟩ := by
    have hname : validBucketName "bucket".toList = true := by decide
    show bucketPut "bucket".toList lifecycleAsVersioning = _
    have hversioning : lifecycleAsVersioning.has "versioning" := by rw [hhas]; decide
    have hlifecycle : lifecycleAsVersioning.has "lifecycle" := by rw [hhas]; decide
    rw [bucketPut, if_pos hname, bucketPutAction, bucketPutOperation,
      Request.firstOf_present hversioning, Request.firstOf_present hlifecycle]
  refine ⟨⟨by rw [hplan], fun c hc ↦ ?_, rfl⟩, _, List.mem_singleton.2 rfl, by decide⟩
  rw [hplan] at hc
  exact decide_eq_true (List.mem_singleton.1 hc)

end Plans

end Sqrzl.S3
