import SqrzlEmulator.Data.Disk
import SqrzlEmulator.Storage.Model

/-!
# The capture journal

`capture.rs` publishes the files of a capture through a journal: a transaction directory with an
intent, which lists every path that the transaction may leave behind, and a marker, whose presence
decides. Both the mail and the SMS store write their captures with `commit`, and run `recover` when
they are opened.

The type `δ` is the data of a captured file. A transaction is named by the text of its identity, and
`isUuid` is the parser of the `uuid` crate. Every call of the file system can fail, the hook can
fail at each of its points, and a file whose writing has been cut off is `torn`.
-/

namespace Sqrzl.Capture

/-- The content of a file in a store of captures. -/
inductive Content (δ : Type) : Type where
  /-- A file that has been created, and is not written to its end. -/
  | torn
  /-- An intent, with its paths. -/
  | intent (paths : List DiskPath)
  /-- The empty marker of a commit. -/
  | marker
  /-- A captured file. -/
  | data (content : δ)
  deriving DecidableEq

variable {δ : Type}

/-- Programs of a store of captures. -/
abbrev Job (δ α : Type) : Type := Prog Empty Error (Disk (Content δ)) α

/-- `TRANSACTIONS` -/
def transactionsName : String := ".capture-transactions"

/-- `RECORDS` -/
def recordsName : String := ".repeatability"

/-- What the operating system reports when a call fails. -/
def ioError : Error := .internalError ""

/-- A document that cannot be read; what `serde_json` says of it is left out. -/
def serializationError : Error := .internalError ""

/-! ### Paths -/

/-- The directory of all transactions. -/
def transactions (root : DiskPath) : DiskPath := root ++ [transactionsName]

/-- The directory of a transaction. -/
def transactionDir (root : DiskPath) (id : String) : DiskPath := root ++ [transactionsName, id]

/-- The marker of a transaction, which is committed when this file is there. -/
def markerPath (root : DiskPath) (id : String) : DiskPath := root ++ [transactionsName, id, "committed"]

/-- The list of the files of a transaction. -/
def intentPath (root : DiskPath) (id : String) : DiskPath := root ++ [transactionsName, id, "intent.json"]

/-- The list before it is moved to its place. -/
def stagedIntentPath (root : DiskPath) (id : String) : DiskPath :=
  root ++ [transactionsName, id, "intent.pending"]

/-- The name under which a file is written before it is published. -/
def pendingPath (path : DiskPath) (id : String) : DiskPath :=
  path.dropLast ++ [path.getLast?.getD "" ++ ".pending-" ++ id]

/-- A component that names an entry, and does not stand for the directory itself, the one above, or
the root. -/
def isNormal (component : String) : Bool :=
  component != "" && component != "." && component != ".." && component != "/"

/-- `validate_relative`: a destination stays below the root. -/
def validateRelative (path : DiskPath) : Except Error Unit :=
  if path.isEmpty || path.any fun component ↦ !isNormal component then
    .error (.invalidRequest "invalid capture journal path")
  else .ok ()

/-- What remains of a path below `root`. -/
def stripPrefix (root path : DiskPath) : Option DiskPath :=
  if root.isPrefixOf path then some (path.drop root.length) else none

/-! ### Committed transactions -/

/-- `is_committed` -/
def isCommitted (isUuid : String → Bool) (root : DiskPath) (id : String) (d : Disk (Content δ)) : Bool :=
  id.isEmpty || (isUuid id && d.isFile (markerPath root id))

/-! ### Small calls -/

/-- `sync_directory`, which changes nothing that is seen here. -/
def syncDirectory : Job δ Unit := Disk.fault ioError

/-- `remove_if_present` -/
def removeIfPresent (path : DiskPath) : Job δ Unit := Disk.call ioError (Disk.unlink path)

/-- Create a file, write it, and wait until it is on the disk. -/
def writeNewSynced (path : DiskPath) (content : Content δ) : Job δ Unit := do
  Disk.call ioError (Disk.createNew path .torn)
  Disk.call ioError (Disk.write path content)
  Disk.fault ioError

/-- The hook of a publication. -/
def hook (_phase : String) (_index : ℕ) : Job δ Unit := Disk.fault (.internalError "hook")

/-! ### Recovery -/

/-- Remove the files that an intent lists. -/
def removeIntended (queries : Queries) (root : DiskPath) (id : String) : Job δ Unit := do
  if ← Disk.query queries fun d ↦ d.isFile (intentPath root id) then
    match ← Disk.readFile ioError (intentPath root id) with
    | .intent paths =>
      Prog.forEach paths fun path ↦ do
        Prog.ofExcept (validateRelative path)
        removeIfPresent (root ++ path)
    | _ => Prog.fail serializationError
  else return ()

/-- Remove what an unfinished transaction has left. -/
def recoverEntry (queries : Queries) (root : DiskPath) (id : String) : Job δ Unit := do
  if ← Disk.query queries fun d ↦ d.isDir (transactionDir root id) then
    if ← Disk.query queries fun d ↦ d.isFile (markerPath root id) then return ()
    else
      removeIntended queries root id
      Disk.removeDirAll ioError (transactionDir root id)
  else return ()

/-- `recover`: **what belongs to transactions without a marker is removed.** -/
def recover (queries : Queries) (root : DiskPath) : Job δ Unit := do
  Disk.createDirAll ioError (transactions root)
  let ids ← Disk.readDir ioError (transactions root)
  Prog.forEach ids fun id ↦ do
    Disk.fault ioError
    recoverEntry queries root id
  syncDirectory

/-! ### Commits -/

/-- Check the destinations of a capture, and collect the paths of its intent. -/
def checkFiles (queries : Queries) (root : DiskPath) (id : String) (files : List (DiskPath × δ)) :
    Job δ (List DiskPath) := do
  let acc ← Prog.foldEach files (([], []) : List DiskPath × List DiskPath) fun acc file ↦
    match stripPrefix root file.1 with
    | none => Prog.fail (.invalidRequest "capture path escapes store")
    | some relative => do
      Prog.ofExcept (validateRelative relative)
      if (← Disk.query queries fun d ↦ d.present file.1) || acc.2.contains file.1 then
        Prog.fail (.invalidRequest "capture destination already exists")
      else return (acc.1 ++ [relative, pendingPath relative id], file.1 :: acc.2)
  return acc.1

/-- Stage the intent of a transaction, and publish it under its name. -/
def publishIntent (root : DiskPath) (id : String) (paths : List DiskPath) : Job δ Unit := do
  hook "prepare" 0
  Disk.call ioError (Disk.createNew (stagedIntentPath root id) .torn)
  Disk.call ioError (Disk.write (stagedIntentPath root id) .torn)
  hook "intent_partial" 0
  Disk.call ioError (Disk.write (stagedIntentPath root id) (.intent paths))
  Disk.fault ioError
  hook "intent_staged" 0
  Disk.call ioError (Disk.rename (stagedIntentPath root id) (intentPath root id))
  hook "intent_published" 0
  syncDirectory
  syncDirectory
  hook "intent" 0

/-- Stage a file next to its destination, and publish it. -/
def publishFile (id : String) (file : DiskPath × δ) (index : ℕ) : Job δ Unit := do
  Disk.createDirAll ioError file.1.dropLast
  writeNewSynced (pendingPath file.1 id) (.data file.2)
  hook "stage" index
  Disk.call ioError (Disk.rename (pendingPath file.1 id) file.1)
  hook "publish" index
  syncDirectory
  hook "file" index

/-- Everything between the creation of the transaction directory and the result. -/
def publish (root : DiskPath) (id : String) (files : List (DiskPath × δ)) (paths : List DiskPath) :
    Job δ Unit := do
  publishIntent root id paths
  Prog.forEach files.zipIdx fun file ↦ publishFile id file.1 file.2
  writeNewSynced (markerPath root id) .marker
  hook "commit_marker" files.length
  syncDirectory
  hook "commit" files.length

/-- Remove the files of a transaction that could not be published, and then its directory. -/
def rollback (root : DiskPath) (id : String) (files : List (DiskPath × δ)) : Job δ Unit := do
  Prog.forEach files fun file ↦ do
    removeIfPresent file.1
    removeIfPresent (pendingPath file.1 id)
  Disk.removeDirAll ioError (transactionDir root id)
  syncDirectory

/-- What a commit does when it has checked its files. -/
def transact (queries : Queries) (root : DiskPath) (id : String) (files : List (DiskPath × δ))
    (paths : List DiskPath) : Job δ Unit := do
  Disk.createDirAll ioError (transactionDir root id)
  match ← (publish root id files paths).attempt with
  | .ok () => return ()
  | .error e => do
    if ← Disk.query queries fun d ↦ d.isFile (markerPath root id) then Prog.fail e
    else
      rollback root id files
      Prog.fail e

/-- `commit`: the intent, the files and last the marker are written. -/
def commit (queries : Queries) (root : DiskPath) (id : String) (files : List (DiskPath × δ)) :
    Job δ Unit := do
  recover queries root
  let paths ← checkFiles queries root id files
  transact queries root id files paths

end Sqrzl.Capture
