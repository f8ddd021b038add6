import SqrzlEmulator.S3.Ranges

/-!
# Reading objects through the S3 front door

`object_get` of `server/handlers/object.rs`. Like `object_put` it asks `check_authorization` before it
looks at anything; after that it deletes the object if a lifecycle rule expires it
(`check_object_expiration`), and answers with the object, one of its versions, or a part of either.

What it answers to a preflight request, and the documents of tags, access control lists and parts, are
a parameter. Responses carry what `ObjectResponse` has; the other headers are left out.
-/

namespace Sqrzl.S3

open Prog

/-- `delete_marker_response`, where the request asks for the version. -/
def markerVersionResponse : Refusal :=
  ⟨405, "MethodNotAllowed", "The specified method is not allowed against this resource."⟩

section Handlers

variable (E : Env) (C : Codec) (parseDate : String → Option Time) (now : Time)

/-- `check_object_expiration`, with the rules that `get_bucket_lifecycle` answers. -/
def checkObjectExpiration (rules : Option (List Lifecycle.Rule)) (b : String) (key : Text) :
    VaultOp Bool := do
  match rules with
  | none => return false
  | some rules =>
    let B ← Vault.getBucket b
    if Lifecycle.foreignProviderDataProtectionActive B then
      return false
    else
      let o ← Vault.getObjectMetadata b key
      if Lifecycle.objectHasActiveDataProtection C now o then
        return false
      else if rules.any fun rule ↦ rule.status = .enabled &&
          Lifecycle.ruleMatchesFilter rule key o.tags &&
          rule.expiration.any (Lifecycle.shouldExpire parseDate now o.lastModified) then
        Vault.deleteObject E now b key
        return true
      else
        return false

/-- `object_full_response` -/
def objectFullResponse (b : String) (key : Text) (req : Request) : Handler ObjectResponse := do
  let found ← .view fun V : Vault ↦ V.stored b key none
  .ofExcept (readAdmissionConditions C req found)
  match (found.mapError storageErrorResponse).bind (payload · none) with
  | .ok o => .ofExcept (objectPayloadResponse C req o 200 none)
  | .error response => do
    let marker ← .view (currentDeleteMarker b key)
    .fail (if marker.isSome then noSuchKeyResponse else response)

/-- `object_version_response` -/
def objectVersionResponse (b : String) (key : Text) (id : String) (req : Request) :
    Handler ObjectResponse := do
  let range ← .ofExcept (match req.header "range" with
    | none => .ok none
    | some value => match parseRange value with
      | some range => .ok (some range)
      | none => .error invalidRange)
  let found ← .view fun V : Vault ↦ V.stored b key (some id)
  .ofExcept (readAdmissionConditions C req found)
  let o ← .ofExcept ((found.mapError storageErrorResponse).bind (payload · range))
  .refuseIf o.isDeleteMarker markerVersionResponse
  .ofExcept (match range with
    | none => objectPayloadResponse C req o 200 none
    | some (start, _) => objectPayloadResponse C req o 206
        (some (o.data, o.data.length, contentRange start (start + (o.data.length - 1)) o.size)))

/-- The checks of `object_get`, up to its dispatch. -/
def admitObjectGet (G : Gate) (rules : Option (List Lifecycle.Rule)) (bucket key : Text)
    (req : Request) : Handler Unit := do
  refuse (G.authorize bucket ⟨"s3:GetObject", some key⟩)
  refuse G.presigned
  let missing ← .view fun V : Vault ↦ V.buckets[String.ofList bucket]?.isNone
  .refuseIf missing ⟨404, "NoSuchBucket", "The specified bucket does not exist."⟩
  .refuseIf (unsupportedObjectLock req)
    ⟨501, "NotImplemented", "The S3 object " ++
      (if req.has "retention" then "retention" else "legal-hold") ++
      " subresource is not supported by this emulator."⟩
  .refuseIf (versionTagging req)
    ⟨501, "NotImplemented", "Version-scoped object tagging is not supported by this emulator subset."⟩
  let conflict ← .view (foreignHistoryConflict C now (String.ofList bucket))
  .refuseIf conflict foreignHistoryConflictResponse
  -- an error of the check counts as an object that has not expired
  let expired ← .attempt (checkObjectExpiration E C parseDate now rules (String.ofList bucket) key)
  .refuseIf (expired.toOption.getD false) ⟨404, "NoSuchKey", "Key not found"⟩

/-- `object_get` -/
def handleObjectGet (others : Operation → Handler ObjectResponse) (G : Gate)
    (rules : Option (List Lifecycle.Rule)) (bucket key : Text) (req : Request) :
    Handler ObjectResponse :=
  if req.isPreflight then
    others .preflight
  else do
    admitObjectGet E C parseDate now G rules bucket key req
    if req.has "tagging" then
      others (.getObjectTagging key)
    else if req.has "acl" then
      others (.getObjectAcl key)
    else
      match req.queryParam "versionId" with
      | some id => objectVersionResponse C (String.ofList bucket) key id req
      | none =>
        if req.has "uploadId" then
          others (.listParts key)
        else
          match req.header "range" with
          | some range => objectRangeResponse C (String.ofList bucket) key req range
          | none => objectFullResponse C (String.ofList bucket) key req

end Handlers

end Sqrzl.S3
