import SqrzlEmulator.Azure.BlockListXml
import SqrzlEmulator.Azure.Blobs

/-!
# The Azure front door: blocks

`put_block` stages a block of a block blob, `put_block_list` makes a blob of staged blocks and of
blocks of the last list, and `get_block_list` shows both.

The blocks of a blob are kept under its `blob_state_key`: the **session** holds the staged ones by
their ids, the **committed list** those of the last list in their order. Each of the two is kept in
the provider state of the store and in a cache, which is looked at first. The bodies are files of
their own, the items, and a block is known by the name of its item.
-/

namespace Sqrzl.Azure

open Prog

/-! ### Sessions and committed lists -/

namespace Adapter

/-- `load_block_session` -/
def blockSession (session : String) (A : Adapter) : Option BlockSession :=
  A.sessionCache[session]? <|> A.sessions[session]?

/-- `load_committed_blocks` -/
def committedBlocks (session : String) (A : Adapter) : List CommittedBlock :=
  (A.committedCache[session]? <|> A.committed[session]?).getD []

/-- What `load_committed_blocks` leaves in the cache. -/
def cacheCommitted (session : String) (A : Adapter) : Adapter :=
  { A with committedCache := A.committedCache.set session (some (A.committedBlocks session)) }

/-- The file of a staged block. -/
def item (session name : String) (A : Adapter) : Option Bytes :=
  A.items[session]?.bind (·[name]?)

/-- Replace the files of a session. A session without files has no directory. -/
def setItems (session : String) (files : Table String Bytes) (A : Adapter) : Adapter :=
  { A with items := A.items.set session (if files.isEmpty then none else some files) }

/-- `save_json`, of a session, with its cache. -/
def setSession (session : String) (blocks : Option BlockSession) (A : Adapter) : Adapter :=
  { A with
    sessions := A.sessions.set session blocks
    sessionCache := A.sessionCache.set session blocks }

/-- `save_json`, of a committed list, with its cache. -/
def setCommitted (session : String) (blocks : List CommittedBlock) (A : Adapter) : Adapter :=
  { A with
    committed := A.committed.set session (some blocks)
    committedCache := A.committedCache.set session (some blocks) }

end Adapter

/-- `load_committed_blocks` -/
def loadCommittedBlocks (session : String) : Handler (List CommittedBlock) := fun A ↦
  (.ok (A.committedBlocks session), A.cacheCommitted session)

section Handlers

variable (E : Env) (C : Codec) (now : Time)

/-! ### `put_block` -/

/-- The refusal of an id of a block. -/
def invalidBlockId : Refusal := ⟨400, "InvalidBlockId",
  "The specified block ID is invalid. The block ID must be Base64-encoded."⟩

/-- The id of the block that a request stages, with its decoded length. -/
def requestedBlock (req : Request) : Except Refusal (String × ℕ) :=
  match req.queryParam "blockid" with
  | none => .error invalidBlockId
  | some id =>
    match C.base64Decode id with
    | none => .error invalidBlockId
    | some decoded =>
      if decoded.isEmpty ∨ decoded.length > 64 then .error invalidBlockId
      else .ok (id, decoded.length)

/-- What `put_block` checks of the blob that is there. -/
def admitBlockOn (c : String) (k : Text) (req : Request) : Handler Unit := do
  match ← .view fun A : Adapter ↦ (A.vault.record c k).metadata with
  | some existing =>
    .ofExcept (ensureLeaseAllows req existing)
    .refuseIf (!conditionsMatchBlob req existing) conditionFailed
    .refuseIf (blobType existing ≠ "BlockBlob")
      ⟨409, "InvalidBlobType", "The operation is not supported for this blob type."⟩
  | none => .refuseIf (req.header "if-match").isSome conditionFailed

/-- The checks of `put_block`: the id of the block, and the session that it goes to. -/
def admitBlock (session c : String) (k : Text) (req : Request) : Handler (String × BlockSession) := do
  .refuseIf (req.body.length > 4000 * 1024 * 1024)
    ⟨413, "RequestBodyTooLarge", "The block exceeds the 4,000 MiB service limit."⟩
  .ofExcept (validateTransactionalChecksum C req)
  let (id, length) ← .ofExcept (requestedBlock C req)
  admitBlockOn c k req
  let found ← .view fun A : Adapter ↦ (A.blockSession session).getD {}
  .refuseIf (found.blocks.keys.any fun id ↦ (C.base64Decode id).all (·.length ≠ length))
    ⟨400, "InvalidBlockId", "All block IDs for a blob must have the same decoded length."⟩
  .refuseIf (!found.blocks.contains id ∧ found.blocks.size ≥ 100000)
    ⟨409, "BlockCountExceedsLimit", "The uncommitted block count exceeds the service limit."⟩
  return (id, found)

/-- Put the body of a block in place, and remember it. -/
def stageBlock (session id item : String) (found : BlockSession) (data : Bytes) (A : Adapter) :
    Adapter :=
  ((A.setItems session ((A.items[session]?.getD ∅).set item (some data))).setSession session
    (some ⟨found.blocks.set id (some ⟨item, data.length⟩)⟩))

/-- `put_block` -/
def putBlock (account c : String) (k : Text) (req : Request) : Handler Response := do
  let session := blobStateKey account c k
  let (id, found) ← admitBlock C session c k req
  let name ← newIdentity E
  .update (stageBlock session id ("uncommitted-" ++ name) found req.body)
  return .empty

/-! ### `put_block_list` -/

/-- `invalid_block_list_response` -/
def invalidBlockListResponse : BlockListError → Refusal
  | .invalidXmlDocument =>
    ⟨400, "InvalidXmlDocument", "The specified XML is not syntactically valid."⟩
  | .invalidBlockList => ⟨400, "InvalidBlockList", "The specified block list is invalid."⟩

/-- The loop of `put_block_list` over its references: their ids are of one length, and an id that
occurs again has the same selector. -/
def validReferences : List BlockReference → Option ℕ → List BlockReference → Bool
  | [], _, _ => true
  | reference :: rest, length, seen =>
    match C.base64Decode reference.id with
    | none => false
    | some decoded =>
      !decoded.isEmpty && length.all (· = decoded.length) &&
        seen.all (fun other ↦ other.id ≠ reference.id || other.selector = reference.selector) &&
        validReferences rest (some (length.getD decoded.length)) (reference :: seen)

/-- The references of a block list, checked. -/
def requestedBlockList (req : Request) : Except Refusal (List BlockReference) :=
  match C.parseBlockList req.body with
  | .error e => .error (invalidBlockListResponse e)
  | .ok references =>
    if references.length > 50000 then
      .error ⟨409, "BlockCountExceedsLimit", "The committed block count exceeds the service limit."⟩
    else if validReferences C references none [] then
      .ok references
    else
      .error (invalidBlockListResponse .invalidBlockList)

/-- The block of a committed list with a given id: the last one, as a map made from the list has
it. -/
def committedBlock (committed : List CommittedBlock) (id : String) : Option CommittedBlock :=
  committed.reverse.find? (·.id = id)

/-- The block that a reference stands for, and whether it is a staged one. -/
def resolveBlock (staged : BlockSession) (committed : List CommittedBlock)
    (reference : BlockReference) : Option (CommittedBlock × Bool) :=
  let stagedBlock := staged.blocks[reference.id]?.map fun block ↦
    ((⟨reference.id, block.item, block.size⟩ : CommittedBlock), true)
  let committedBlock := (committedBlock committed reference.id).map fun block ↦
    ((⟨reference.id, block.item, block.size⟩ : CommittedBlock), false)
  match reference.selector with
  | .uncommitted => stagedBlock
  | .committed => committedBlock
  | .latest => stagedBlock <|> committedBlock

/-- The blocks that a list of references stands for. -/
def resolveBlocks (staged : BlockSession) (committed : List CommittedBlock) :
    List BlockReference → Except Refusal (List (CommittedBlock × Bool))
  | [] => .ok []
  | reference :: rest =>
    match resolveBlock staged committed reference with
    | none => .error ⟨400, "InvalidBlockList",
        "The block list contains unknown block ID " ++ reference.id ++ "."⟩
    | some block => do return block :: (← resolveBlocks staged committed rest)

/-- What `put_block_list` has found. -/
structure PutBlockList where
  existing : Option Object
  resolved : List (CommittedBlock × Bool)
  staged : BlockSession
  condition : ObjectCondition

namespace PutBlockList

/-- The new committed list. -/
def blocks (put : PutBlockList) : List CommittedBlock := put.resolved.map Prod.fst

/-- The size of the new blob. -/
def size (put : PutBlockList) : ℕ := (put.blocks.map (·.size)).sum

/-- The blocks that stay staged. -/
def remaining (put : PutBlockList) : BlockSession where
  blocks := put.staged.blocks.filter fun id _ ↦ !put.resolved.any fun block ↦ block.2 && block.1.id = id

end PutBlockList

/-- What `put_block_list` checks of the blob that is there. -/
def admitListOn (c : String) (k : Text) (req : Request) : Handler (Option Object) := do
  let existing ← admitOverwrite C now c k req
  .refuseIf (existing.any fun existing ↦ !conditionsMatchBlob req existing) conditionFailed
  .refuseIf (existing.any fun existing ↦ blobType existing ≠ "BlockBlob")
    ⟨400, "InvalidBlobType", "The operation is not supported for this blob type."⟩
  return existing

/-- The condition under which a list is committed. -/
def listCondition (req : Request) (requested : Option ObjectCondition) (existing : Option Object) :
    ObjectCondition :=
  if createOnlySas req then .missing
  else requested.getD ((existing.map fun existing ↦ ObjectCondition.etag existing.etag).getD .missing)

/-- The checks of `put_block_list` up to the committed list. -/
def admitBlockList (c : String) (k : Text) (req : Request) :
    Handler (List BlockReference × Option ObjectCondition × Option Object) := do
  .ofExcept (validateTransactionalChecksum C req)
  let references ← .ofExcept (requestedBlockList C req)
  let requested ← .ofExcept (writeCondition req)
  let existing ← admitListOn C now c k req
  return (references, requested, existing)

/-- Resolve the references, and check the size of the blob. -/
def resolveBlockList (session : String) (references : List BlockReference)
    (requested : Option ObjectCondition) (req : Request) (existing : Option Object) :
    Handler PutBlockList := do
  let staged ← .view fun A : Adapter ↦ (A.blockSession session).getD {}
  let committed ← .view (Adapter.committedBlocks session)
  let resolved ← .ofExcept (resolveBlocks staged committed references)
  let put : PutBlockList := ⟨existing, resolved, staged, listCondition req requested existing⟩
  .refuseIf (put.size ≥ 2 ^ 64) ⟨409, "BlockCountExceedsLimit",
    "The committed block list exceeds the maximum blob size."⟩
  return put

/-- The blob that a block list makes. -/
def composedBlob (k : Text) (req : Request) (etag : String) (put : PutBlockList) : Object :=
  let blob := Object.newWithMetadataAndEtag now k [] (contentType req) (metadataFromHeaders req) etag
  inheritLease put.existing
    (setContentProperties req (edit "azure_blob_type" (some "BlockBlob") { blob with size := put.size }))

/-- The bytes of a list of blocks, from their files. -/
def blockBytes (session : String) (A : Adapter) : List CommittedBlock → Option Bytes
  | [] => some []
  | block :: blocks => do
    let data ← A.item session block.item
    let rest ← blockBytes session A blocks
    return data ++ rest

/-- `compose_upload_payloads` -/
def composeUploadPayloads (session c : String) (k : Text) (put : PutBlockList) (blob : Object) :
    Handler Bool := do
  let data ← .find (serverError (.internalError "Failed to open staged upload item")) fun A ↦
    blockBytes session A put.blocks
  onVault (Vault.putObjectIf E c k blob data put.condition)

/-- `retain_upload_items` -/
def retainItems (session : String) (names : List String) (A : Adapter) : Adapter :=
  match A.items[session]? with
  | none => A
  | some files => A.setItems session (files.filter fun name _ ↦ names.contains name)

/-- `record_committed_block_session` -/
def recordCommitted (session : String) (put : PutBlockList) (A : Adapter) : Adapter :=
  let remaining := if put.remaining.blocks.isEmpty then none else some put.remaining
  retainItems session
    (put.blocks.map (·.item) ++ put.remaining.blocks.toList.map fun entry ↦ entry.2.item)
    ((A.setCommitted session put.blocks).setSession session remaining)

/-- `put_block_list` -/
def putBlockList (account c : String) (k : Text) (req : Request) : Handler Response := do
  let session := blobStateKey account c k
  let (references, requested, existing) ← admitBlockList C now c k req
  let _ ← loadCommittedBlocks session
  let put ← resolveBlockList session references requested req existing
  let etag ← newIdentity E
  let written ← composeUploadPayloads E session c k put (composedBlob now k req etag put)
  .refuseIf (!written) (unmet req)
  .update (recordCommitted session put)
  return .empty

/-! ### `get_block_list` -/

/-- What `get_block_list` checks of a request. -/
def requestedLists (req : Request) : Except Refusal String :=
  if (req.queryParam "snapshot").isSome ∨ (req.queryParam "versionid").isSome then
    .error (notImplemented
      "Snapshot and version-scoped block lists are not implemented by the emulator.")
  else
    let selector := (req.queryParam "blocklisttype").getD "committed"
    if selector = "committed" ∨ selector = "uncommitted" ∨ selector = "all" then .ok selector
    else .error (invalidQuery "The value for blocklisttype is invalid.")

/-- What `get_block_list` checks of the blob that is there. -/
def admitListing (c : String) (k : Text) (selector : String) (session : Option BlockSession)
    (req : Request) : Handler Unit := do
  match ← .view fun A : Adapter ↦ (A.vault.record c k).metadata with
  | some existing =>
    .refuseIf (blobType existing ≠ "BlockBlob")
      ⟨400, "InvalidBlobType", "The operation is not supported for this blob type."⟩
    .refuseIf (!conditionsMatchBlob req existing) conditionFailed
    .ofExcept (ensureLeaseAllows req existing)
  | none => .refuseIf (selector = "committed" ∨ session.isNone) blobNotFound

/-- `get_block_list` -/
def getBlockList (account c : String) (k : Text) (req : Request) : Handler Response := do
  let selector ← .ofExcept (requestedLists req)
  let session := blobStateKey account c k
  let committed ← loadCommittedBlocks session
  let staged ← .view (Adapter.blockSession session)
  admitListing c k selector staged req
  return .blockList (if selector = "uncommitted" then [] else committed)
    (if selector = "committed" then [] else (staged.map (·.blocks.toList)).getD [])

end Handlers

end Sqrzl.Azure
