import SqrzlEmulator.Storage.Model

/-!
# Publication of an object generation

The programs of `storage/filesystem/publication.rs`, with the file helpers of
`storage/filesystem/io.rs` that they call, as programs of atomic file-system steps. A rename, a hard
link, an unlink and a creation are one step each; a recursive removal is one step for each entry, in
any order. Synchronisation does not change what a killed process leaves behind and is left out.

## Directories

A `Pair` is a directory that holds `object.blob` and `object.meta.json`, and possibly temporaries. A
stage is a pair. A `Directory` is a pair with a journal and stages; the directory of a version is
one. The directory of an object (`ObjectDir`) also has `versions/`. Files that no program here names
are left out.

`publish_pair` runs on the directories of objects and of versions alike. What differs between the
two is collected in `DirKind`; the payload of a publication may come from outside of the directory,
so that the programs run on any state of which the directory is a part.
-/

namespace Sqrzl

open Prog

/-! ### Directories -/

/-- What a publication does to the public files. -/
structure Change where
  publish : Bool
  clearCurrent : Bool
  removeVersions : List String
  marker : Option Object

/-- The journal record of a publication. -/
structure Publication extends Change where
  /-- The identity of the stage directory. -/
  stage : String

/-- What a file holds. -/
inductive Content where
  | bytes (b : Bytes)
  | object (o : Object)
  | publication (r : Publication)

/-- The files that are not temporaries. -/
inductive FileName where
  | blob
  | metadata
  | journal
  deriving DecidableEq

/-- `object.blob`, `object.meta.json` and the temporaries beside them. -/
structure Pair where
  blob : Option Bytes := none
  metadata : Option Object := none
  temps : Table String Content := ∅

/-- The directory of a version, or of an object without its history. -/
structure Directory where
  pair : Pair := {}
  /-- `.publication.json` -/
  journal : Option Publication := none
  /-- The `.publication-stage-` directories, by their identity. -/
  stages : Table String Pair := ∅

/-- The directory of an object. -/
structure ObjectDir where
  files : Directory := {}
  /-- `versions/` -/
  versions : Option (Table String Directory) := none

instance : Inhabited Pair := ⟨{}⟩
instance : Inhabited Directory := ⟨{}⟩
instance : Inhabited ObjectDir := ⟨{}⟩

/-- The name of a file in the file system. -/
def FileName.text : FileName → String
  | .blob => "object.blob"
  | .metadata => "object.meta.json"
  | .journal => ".publication.json"

namespace Pair

/-- What a file of the pair holds. -/
def content (p : Pair) : FileName → Option Content
  | .blob => p.blob.map .bytes
  | .metadata => p.metadata.map .object
  | .journal => none

/-- Put a file in place, over the one that is there. -/
def place (p : Pair) : FileName → Content → Option Pair
  | .blob, .bytes b => some { p with blob := some b }
  | .metadata, .object o => some { p with metadata := some o }
  | _, _ => none

/-- The temporaries of a pair. -/
@[simps] def tempsLens : Lens Pair (Table String Content) where
  get p := p.temps
  set t p := { p with temps := t }
  get_set _ _ := rfl
  set_set _ _ _ := rfl

end Pair

namespace Directory

/-- Put a file in place, over the one that is there. -/
def place (d : Directory) : FileName → Content → Option Directory
  | .journal, .publication r => some { d with journal := some r }
  | name, c => (d.pair.place name c).map fun p ↦ { d with pair := p }

/-- The pair of a directory. -/
@[simps] def pairLens : Lens Directory Pair where
  get d := d.pair
  set p d := { d with pair := p }
  get_set _ _ := rfl
  set_set _ _ _ := rfl

/-- The temporaries of a directory. -/
@[simps] def tempsLens : Lens Directory (Table String Content) where
  get d := d.pair.temps
  set t d := { d with pair := { d.pair with temps := t } }
  get_set _ _ := rfl
  set_set _ _ _ := rfl

/-- A stage of the directory. -/
@[simps] def stageLens (id : String) : Lens Directory (Option Pair) where
  get d := d.stages[id]?
  set p d := { d with stages := d.stages.set id p }
  get_set p d := by simp
  set_set p q d := by simp

end Directory

namespace ObjectDir

/-- The files of the current version. -/
@[simps] def filesLens : Lens ObjectDir Directory where
  get d := d.files
  set x d := { d with files := x }
  get_set _ _ := rfl
  set_set _ _ _ := rfl

/-- A version in `versions/`; putting one there creates `versions/`. -/
@[simps] def versionLens (id : String) : Lens ObjectDir (Option Directory) where
  get d := (d.versions.getD ∅)[id]?
  set v d := { d with versions := some ((d.versions.getD ∅).set id v) }
  get_set v d := by simp
  set_set v w d := by simp

/-- `versions/` -/
@[simps] def versionsLens : Lens ObjectDir (Option (Table String Directory)) where
  get d := d.versions
  set v d := { d with versions := v }
  get_set _ _ := rfl
  set_set _ _ _ := rfl

end ObjectDir

/-! ### File helpers -/

section Files

variable {σ : Type} (E : Env) (T : Lens σ (Table String Content))

/-- `atomic_write`: write a file beside its destination, and put it in place by a rename. -/
def atomicWriteAs {γ : Type} (T : Lens σ (Table String γ)) (ev : Option Event) (file : String)
    (empty c : γ) (place : σ → γ → Option σ) : Op σ Unit :=
  .choose fun n ↦
    let temp := "." ++ file ++ "." ++ E.uuid n ++ ".tmp"
    onError (do
      sys (.internalError "Failed to create temp file") fun s ↦
        some (T.set ((T.get s).set temp (some empty)) s)
      sys (.internalError "Failed to write temp file") fun s ↦
        some (T.set ((T.get s).set temp (some c)) s)
      .io ev (fun s ↦ (T.get s)[temp]?.bind (place (T.set ((T.get s).set temp none) s)))
        (fun _ ↦ .ret ()) (.fail (.internalError "Failed to commit temp file")))
      (sys (.internalError "Failed to remove temp file") fun s ↦
        some (T.set ((T.get s).set temp none) s))

/-- `atomic_write`, of a file of an object. -/
def atomicWrite (ev : Option Event) (name : FileName) (c : Content)
    (place : σ → FileName → Content → Option σ) : Op σ Unit :=
  atomicWriteAs E T ev name.text (.bytes []) c fun s ↦ place s name

/-- Copy a file beside its destination, and put the copy in place by a rename. -/
def atomicCopy (source : σ → Option Content) (place : σ → Content → Option σ) : Op σ Unit :=
  .choose fun n ↦
    let temp := ".copy-" ++ E.uuid n ++ ".tmp"
    onError (do
      sys (.internalError "Failed to copy staged payload") fun s ↦
        (source s).map fun c ↦ T.set ((T.get s).set temp (some c)) s
      sys (.internalError "Failed to publish copied payload") fun s ↦
        (T.get s)[temp]?.bind (place (T.set ((T.get s).set temp none) s)))
      (sys (.internalError "Failed to remove temp file") fun s ↦
        some (T.set ((T.get s).set temp none) s))

/-- Link a file to its destination, and copy it where linking fails. Some file systems have no hard
links, so the copy can happen to any file. -/
def hardLinkOrCopy (source : σ → Option Content) (place : σ → Content → Option σ) : Op σ Unit :=
  .choose fun
    | 0 => .io none (fun s ↦ (source s).bind (place s)) (fun _ ↦ .ret ())
      (atomicCopy E T source place)
    | _ => atomicCopy E T source place

end Files

/-! ### Recursive removal -/

/-- The entries of a directory. -/
inductive Entry where
  | file (name : FileName)
  | temp (name : String)
  | stage (id : String)

namespace Pair

/-- The entries of a listing. -/
def entries (p : Pair) : List Entry :=
  (if p.blob.isSome then [.file .blob] else []) ++
    (if p.metadata.isSome then [.file .metadata] else []) ++ p.temps.keys.map .temp

/-- The pair without one of its files. -/
def unlink (p : Pair) : Entry → Pair
  | .file .blob => { p with blob := none }
  | .file .metadata => { p with metadata := none }
  | .temp name => { p with temps := p.temps.set name none }
  | _ => p

end Pair

namespace Directory

/-- The entries of a listing. -/
def entries (d : Directory) : List Entry :=
  d.pair.entries ++ (if d.journal.isSome then [.file .journal] else []) ++ d.stages.keys.map .stage

/-- Remove an entry that is not a directory. -/
def unlink (d : Directory) : Entry → Directory
  | .file .journal => { d with journal := none }
  | e => { d with pair := d.pair.unlink e }

end Directory

/-- Remove a stage with all that is in it. -/
def removeStage (message : String) (id : String) : Op Directory Unit := do
  let stage ← sysRead (.internalError message) fun d ↦ d.stages[id]?
  let entries ← shuffled stage.entries
  forEach entries fun e ↦ sys (.internalError message) fun d ↦
    some { d with stages := d.stages.set id (d.stages[id]?.map (·.unlink e)) }
  sys (.internalError message) fun d ↦ some { d with stages := d.stages.set id none }

/-- Remove an entry of a directory, with all that is in it. -/
def removeEntry (message : String) : Entry → Op Directory Unit
  | .stage id => removeStage message id
  | e => sys (.internalError message) fun d ↦ some (d.unlink e)

/-- Remove the entries of a directory that is itself to be removed. -/
def removeEntries (message : String) : Op Directory Unit := do
  let entries ← read Directory.entries
  let entries ← shuffled entries
  forEach entries (removeEntry message)

/-- `fs::remove_dir_all` on the directory of a version. -/
def removeVersionDir (message : String) (id : String) : Op ObjectDir Unit := do
  zoom ((ObjectDir.versionLens id).comp .existing) (removeEntries message)
  sys (.internalError message) fun d ↦ some ((ObjectDir.versionLens id).set none d)

/-- `fs::remove_dir_all` on `versions/`. -/
def removeVersions (message : String) : Op ObjectDir Unit := do
  let ids ← read fun d ↦ (d.versions.getD ∅).keys
  let ids ← shuffled ids
  forEach ids (removeVersionDir message)
  sys (.internalError message) fun d ↦ some { d with versions := none }

/-- Remove an entry of the directory of an object: one of its files and stages, or `versions/`. -/
def removeObjectEntry (message : String) : Option Entry → Op ObjectDir Unit
  | some e => zoom ObjectDir.filesLens (removeEntry message e)
  | none => removeVersions message

/-- `fs::remove_dir_all` on the directory of an object. -/
def removeObjectDir {σ : Type} (message : String) (dir : Lens σ (Option ObjectDir)) : Op σ Unit := do
  let d ← sysRead (.internalError message) dir.get
  let entries ← shuffled (d.files.entries.map some ++ if d.versions.isSome then [none] else [])
  zoom (dir.comp .existing) (forEach entries (removeObjectEntry message))
  sys (.internalError message) fun s ↦ some (dir.set none s)

/-! ### Recovery -/

/-- `clean_uncommitted_stages`. -/
def cleanUncommittedStages : Op Directory Unit := do
  let entries ← read fun d ↦ d.stages.keys.map Entry.stage ++ d.pair.temps.keys.map Entry.temp
  let entries ← shuffled entries
  forEach entries (removeEntry "Failed to remove uncommitted publication")

/-- `validate_publication`, on what the stage holds. -/
def Change.validate (r : Change) (stage : Option Pair) : Except Error Unit := do
  if r.publish && (r.clearCurrent || r.marker.isSome) then
    throw (.internalError "Conflicting publication actions")
  unless r.removeVersions.all validVersionId do
    throw .noSuchVersion
  if let some marker := r.marker then
    match marker.versionId with
    | none => throw (.internalError "Missing delete marker identity")
    | some id =>
      unless validVersionId id do
        throw .noSuchVersion
    if marker.size ≠ 0 || !r.clearCurrent then
      throw (.internalError "Invalid delete marker publication")
  if r.publish then
    match stage.bind (·.metadata) with
    | none => throw (.internalError "Cannot recover staged metadata")
    | some object =>
      match stage.bind (·.blob) with
      | none => throw (.internalError "Cannot recover staged body")
      | some body =>
        if body.length ≠ object.size then
          throw (.internalError "Staged object body and metadata sizes disagree")

/-- Check a record against its stage. -/
def validatePublication (r : Publication) : Op Directory Unit := do
  let stage ← read fun d ↦ d.stages[r.stage]?
  ofExcept (r.validate stage)

/-- `publish_staged_file`. -/
def publishStagedFile (E : Env) (stage : String) (name : FileName) : Op Directory Unit :=
  .choose fun n ↦ do
    let temp := ".published-" ++ E.uuid n ++ ".tmp"
    hardLinkOrCopy E Directory.tempsLens (fun d ↦ d.stages[stage]?.bind (·.content name))
      fun d c ↦ some (Directory.tempsLens.set (d.pair.temps.set temp (some c)) d)
    sys (.internalError "Failed to publish staged object generation") fun d ↦
      d.pair.temps[temp]?.bind
        ((Directory.tempsLens.set (d.pair.temps.set temp none) d).place name)

/-- The loop of `apply_history_changes` over the versions to remove. -/
def retireVersion (id : String) : Op ObjectDir Unit := do
  if !validVersionId id then
    .fail .noSuchVersion
  if ← read fun d ↦ ((ObjectDir.versionLens id).get d).isSome then
    if ← read fun d ↦ (((ObjectDir.versionLens id).get d).bind (·.pair.blob)).isSome then
      zoom ((ObjectDir.versionLens id).comp .existing) <|
        sys (.internalError "Failed to remove version body") fun d ↦ some (d.unlink (.file .blob))
    removeVersionDir "Failed to retire historical version" id

/-- The part of `apply_history_changes` that writes a delete marker. -/
def writeMarker (E : Env) (marker : Object) : Op ObjectDir Unit := do
  match marker.versionId with
  | none => .fail (.internalError "Missing marker version identity")
  | some id =>
    if !validVersionId id then
      .fail .noSuchVersion
    sys (.internalError "Failed to create directory") fun d ↦
      some { d with versions := some (d.versions.getD ∅) }
    sys (.internalError "Failed to create directory") fun d ↦
      some ((ObjectDir.versionLens id).set
        (some (((ObjectDir.versionLens id).get d).getD default)) d)
    zoom ((ObjectDir.versionLens id).comp .existing) <|
      atomicWrite E Directory.tempsLens none .blob (.bytes []) Directory.place
    zoom ((ObjectDir.versionLens id).comp .existing) <|
      atomicWrite E Directory.tempsLens none .metadata (.object marker.serialized) Directory.place

/-- The part of `apply_history_changes` that removes the current object. -/
def clearCurrentFile (name : FileName) : Op Directory Unit := do
  if ← read fun d ↦ (d.pair.content name).isSome then
    sys (.internalError "Failed to remove current file") fun d ↦ some (d.unlink (.file name))

/-- `apply_history_changes`. -/
def applyHistoryChanges (E : Env) (r : Change) : Op ObjectDir Unit := do
  forEach r.removeVersions retireVersion
  match r.marker with
  | some marker => writeMarker E marker
  | none => .ret ()
  if r.clearCurrent then
    zoom ObjectDir.filesLens (clearCurrentFile .blob)
    zoom ObjectDir.filesLens (clearCurrentFile .metadata)

/-- What differs between the directories of objects and of versions. -/
structure DirKind (δ : Type) where
  files : Lens δ Directory
  /-- `apply_history_changes` -/
  history : Change → Op δ Unit
  /-- Whether the parent directory is called `versions`. -/
  inVersions : Bool

/-- The directories of objects. -/
@[simps] def objectDirs (E : Env) : DirKind ObjectDir where
  files := ObjectDir.filesLens
  history := applyHistoryChanges E
  inVersions := false

/-- The directories of versions. They have no history of their own, and `publish_pair` records no
changes to it there. -/
@[simps] def versionDirs : DirKind Directory where
  files := ⟨id, fun x _ ↦ x, fun _ _ ↦ rfl, fun _ _ _ ↦ rfl⟩
  history := fun _ ↦ .ret ()
  inVersions := true

section Publish

variable {δ σ : Type} [Inhabited δ] (E : Env) (K : DirKind δ)

/-- `apply_publication`. -/
def applyPublication : Op δ Unit := do
  let r ← sysRead (.internalError "Invalid object publication journal") fun d ↦
    (K.files.get d).journal
  zoom K.files (validatePublication r)
  if r.publish then
    zoom K.files (publishStagedFile E r.stage .blob)
    zoom K.files (publishStagedFile E r.stage .metadata)
  K.history r.toChange
  zoom K.files <| sys (.internalError "Failed to retire publication journal") fun d ↦
    some (d.unlink (.file .journal))
  zoom K.files (removeStage "Failed to clean committed publication" r.stage)

/-- `recover_publication`, on a directory that exists. -/
def recoverPublication : Op δ Unit := do
  if ← read fun d ↦ (K.files.get d).journal.isSome then
    applyPublication E K
  zoom K.files cleanUncommittedStages

/-- Where the bytes of a publication come from. -/
inductive Payload (σ : Type) where
  /-- The data of the object. -/
  | inMemory
  /-- A spooled file, to be moved into place. -/
  | spooled (take : σ → Option (Bytes × σ))
  /-- An immutable file of the store, to be linked. -/
  | stored (source : σ → Option Bytes)

variable (dir : Lens σ (Option δ))

/-- `recover_publication`. -/
def recoverAt : Op σ Unit := do
  if ← read fun s ↦ (dir.get s).isSome then
    zoom (dir.comp .existing) (recoverPublication E K)

/-- Create a directory, its parents first. -/
def createDirectoryDurable (parents : Op σ Unit) : Op σ Unit := do
  if ← read fun s ↦ (dir.get s).isNone then
    parents
    sys (.internalError "Failed to create directory") fun s ↦ some (dir.set (some default) s)

/-- A stage, as a part of the state. -/
def stageLens (id : String) : Lens σ (Option Pair) :=
  ((dir.comp .existing).comp K.files).comp (Directory.stageLens id)

/-- Put a file into a stage. -/
def placeInStage (id : String) (s : σ) (c : Content) : Option σ :=
  (((stageLens K dir id).get s).bind (·.place .blob c)).map fun stage ↦
    (stageLens K dir id).set (some stage) s

/-- Put the bytes of a publication into its stage. A spooled payload is moved there, by a rename or,
from another device, by a copy (`atomic_move`). -/
def stagePayload (id : String) (o : Object) : Payload σ → Op σ Unit
  | .inMemory =>
    zoom ((stageLens K dir id).comp .existing) <|
      atomicWrite E Pair.tempsLens none .blob (.bytes o.data) Pair.place
  | .spooled take =>
    let copied : Op σ Unit := do
      atomicCopy E (((stageLens K dir id).comp .existing).comp Pair.tempsLens)
        (fun s ↦ (take s).map fun y ↦ .bytes y.1) (placeInStage K dir id)
      sys (.internalError "Failed to remove spooled payload") fun s ↦ (take s).map Prod.snd
    do
      sys (.internalError "Failed to sync spooled payload") fun s ↦ (take s).map fun _ ↦ s
      .choose fun
        | 0 => .io none (fun s ↦ (take s).bind fun y ↦ placeInStage K dir id y.2 (.bytes y.1))
          (fun _ ↦ .ret ()) copied
        | _ => copied
  | .stored source =>
    hardLinkOrCopy E (((stageLens K dir id).comp .existing).comp Pair.tempsLens)
      (fun s ↦ (source s).map .bytes) (placeInStage K dir id)

/-- `commit_publication`. The rename of the journal is the decision; a failure before it removes the
stage, a failure after it rolls the decision forward. -/
def commitPublication (r : Publication) : Op δ Unit := do
  onError (zoom K.files (validatePublication r)) (zoom K.files cleanUncommittedStages)
  let outcome ← attempt do
    zoom K.files <|
      atomicWrite E Directory.tempsLens (some .journalCommitted) .journal (.publication r)
        Directory.place
    applyPublication E K
  match outcome with
  | .ok _ => .ret ()
  | .error e =>
    if ← read fun d ↦ (K.files.get d).journal.isSome then
      recoverPublication E K
    else
      zoom K.files cleanUncommittedStages
      .fail e

/-- The common part of `publish_pair` and `change_history`: recover and create the directory, stage
the generation if there is one, and commit the record. -/
def publishRecord (parents : Op σ Unit) (change : Change)
    (staged : Option (Object × Payload σ)) : Op σ Unit := do
  recoverAt E K dir
  createDirectoryDurable dir parents
  .choose fun n ↦ do
    let id := E.uuid n
    sys (.internalError "Failed to create directory") fun s ↦
      some ((stageLens K dir id).set (some (((stageLens K dir id).get s).getD default)) s)
    match staged with
    | some (o, payload) => do
      stagePayload E K dir id o payload
      zoom ((stageLens K dir id).comp .existing) <|
        atomicWrite E Pair.tempsLens none .metadata (.object o.serialized) Pair.place
    | none => .ret ()
    zoom (dir.comp .existing) (commitPublication E K { change with stage := id })

/-- `publish_pair`. -/
def publishPair (parents : Op σ Unit) (o : Object) (payload : Payload σ) : Op σ Unit :=
  publishRecord E K dir parents
    { publish := true
      clearCurrent := false
      removeVersions := if o.versionId = some "null" && !K.inVersions then ["null"] else []
      marker := none } (some (o, payload))

end Publish

/-- The directory of a version, as a part of the state. -/
def versionLens {σ : Type} (dir : Lens σ (Option ObjectDir)) (id : String) :
    Lens σ (Option Directory) :=
  (dir.comp .existing).comp (ObjectDir.versionLens id)

/-- `write_version_snapshot`: publish the current object, with the body that it has, as one of its
versions. -/
def writeVersionSnapshot {σ : Type} (E : Env) (dir : Lens σ (Option ObjectDir))
    (parents : Op σ Unit) (id : String) (o : Object) : Op σ Unit :=
  publishPair E versionDirs (versionLens dir id)
    (createDirectoryDurable ((dir.comp .existing).comp ObjectDir.versionsLens)
      (createDirectoryDurable dir parents))
    (o.withVersionId (some id)) (.stored fun s ↦ (dir.get s).bind (·.files.pair.blob))

/-- `write_object_metadata` on `object.meta.json` of an object. -/
def writeObjectMetadata {σ : Type} (E : Env) (dir : Lens σ (Option ObjectDir)) (o : Object) :
    Op σ Unit :=
  zoom ((dir.comp .existing).comp ObjectDir.filesLens) <|
    atomicWrite E Directory.tempsLens none .metadata (.object o.serialized) Directory.place

/-- `change_history`. -/
def changeHistory {σ : Type} (E : Env) (dir : Lens σ (Option ObjectDir))
    (promoted : Option (Object × (σ → Option Bytes))) (removeVersions : List String)
    (marker : Option Object) (clearCurrent : Bool) : Op σ Unit :=
  publishRecord E (objectDirs E) dir (.ret ())
    { publish := promoted.isSome
      clearCurrent := clearCurrent
      removeVersions := removeVersions
      marker := marker } (promoted.map fun (o, source) ↦ (o, .stored source))

end Sqrzl
