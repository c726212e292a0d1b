import Climon.Lib.Directory
import Climon.Lib.Utf8
import Climon.Update.Manifest

namespace Climon.Update.UpdateCommand

open Climon.Cli.Args Climon.Lib.Directory Climon.Lib.Utf8 Climon.Update.Manifest

/-!
# Download, verify and swap

The network, the archive format, the signature scheme and the file system's failures are
parameters; a directory holds the bytes of each file.
-/

abbrev Bytes := List UInt8

abbrev Files := Directory String Bytes

/-! ## Downloads -/

structure Response where
  contentLength : Option UInt64
  /-- What reading at most so many bytes gives. -/
  read : Nat → Except String Bytes

structure ZipEntry where
  isFile : Bool
  name : String
  data : Except String Bytes

/-- What the updater uses of other crates. -/
structure Crates where
  get : String → Except String Response
  zipArchive : Bytes → Except String (List (Except String ZipEntry))
  base64Decode : String → Option Bytes
  /-- `VerifyingKey::from_bytes` succeeds. -/
  validKey : Bytes → Bool
  /-- The key, the message and the signature. -/
  verifyStrict : Bytes → Bytes → Bytes → Bool

def maxArtifactBytes : Nat := 512 * 1024 * 1024

def maxTextBytes : Nat := 64 * 1024

/-- The header can lie, so the cap holds while streaming as well. -/
def readBounded (resp : Response) (max : Nat) (url : String) : Except String Bytes :=
  if resp.contentLength.any fun len => max < len.toNat then
    .error ("Download too large: " ++ toString (resp.contentLength.getD 0) ++ " bytes exceeds " ++
      toString max ++ " for " ++ url)
  else
    match resp.read (max + 1) with
    | .error e => .error ("Download read failed for " ++ url ++ ": " ++ e)
    | .ok bytes =>
      if max < bytes.length then
        .error ("Download too large: exceeds " ++ toString max ++ " bytes for " ++ url)
      else .ok bytes

def download (crates : Crates) (url : String) (max : Nat) : Except String Bytes :=
  match crates.get url with
  | .error e => .error e
  | .ok resp => readBounded resp max url

def downloadText (crates : Crates) (url : String) (max : Nat) : Except String String :=
  (download crates url max).map fun bytes => trim (fromUtf8Lossy bytes)

def verifySignature (crates : Crates) (data : Bytes) (signatureB64 publicKeyB64 : String) : Bool :=
  if publicKeyB64 = "" then false
  else
    match crates.base64Decode publicKeyB64, crates.base64Decode signatureB64 with
    | some rawKey, some sig =>
      if rawKey.length ≠ 32 ∨ sig.length ≠ 64 then false
      else if crates.validKey rawKey then crates.verifyStrict rawKey data sig
      else false
    | _, _ => false

abbrev Archive := List (String × Bytes)

/-- The later of two entries of one name counts: new entries go in front. -/
def unzipEntries : Archive → List (Except String ZipEntry) → Except String Archive
  | out, [] => .ok out
  | _, .error e :: _ => .error ("unzip entry failed: " ++ e)
  | out, .ok file :: rest =>
    if file.isFile then
      match file.data with
      | .error e => .error ("unzip read failed: " ++ e)
      | .ok data => unzipEntries ((file.name, data) :: out) rest
    else unzipEntries out rest

def unzip (crates : Crates) (bytes : Bytes) : Except String Archive :=
  match crates.zipArchive bytes with
  | .error e => .error ("unzip failed: " ++ e)
  | .ok entries => unzipEntries [] entries

/-! ## The swap of one file -/

structure IoError where
  permissionDenied : Bool
  rawOsError : Option Nat
  text : String

def isBusy (e : IoError) : Bool :=
  e.permissionDenied || e.rawOsError == some 32 || e.rawOsError == some 33 || e.rawOsError == some 5

structure SwapResult where
  applied : Bool
  deferred : Bool
  deriving DecidableEq, Repr

/-- What fails while one file is swapped. A file whose metadata cannot be read does not exist. -/
structure SwapFaults where
  /-- The error, and what it leaves of the temporary file. -/
  writeTmp : Option (IoError × Option Bytes)
  statOld : Bool
  removeOld : Bool
  statTarget : Bool
  displace : Option IoError
  place : Option IoError
  restore : Bool
  statTmp : Bool
  removeTmp : Bool

def SwapFaults.none : SwapFaults :=
  { writeTmp := .none, statOld := false, removeOld := false, statTarget := false, displace := .none,
    place := .none, restore := false, statTmp := false, removeTmp := false }

/-- The machine that an update runs on: its system, its file paths and its failures. -/
structure Machine where
  /-- `cfg!(windows)` -/
  windows : Bool
  display : String → String
  /-- The process id and the time, as a temporary file's name has them. -/
  stamp : String → String
  tempdir : Option String
  writeArtifact : Option String
  swap : String → SwapFaults
  cleanup : String → Bool
  orphans : String → Bool

def oldName (name : String) : String := name ++ ".old"

def Machine.tmpName (machine : Machine) (name : String) : String :=
  name ++ ".tmp-" ++ machine.stamp name

/-- `Path::exists` followed by `remove_file`, its result ignored. -/
def removeIfExists (dir : Files) (name : String) (stat remove : Bool) : Files :=
  if (dir name).isSome && !stat && !remove then dir.remove name else dir

/-- `rename(tmp, target)`, and the displaced file back if it fails. -/
def placeTmp (machine : Machine) (dir : Files) (name : String) (displaced : Bool) :
    Files × Except String SwapResult :=
  match (machine.swap name).place with
  | some e =>
    (if displaced && !(machine.swap name).restore then dir.rename (oldName name) name else dir,
      .error ("rename to " ++ machine.display name ++ " failed: " ++ e.text))
  | none => (dir.rename (machine.tmpName name) name, .ok { applied := true, deferred := false })

def windowsSwap (machine : Machine) (dir : Files) (name : String) :
    Files × Except String SwapResult :=
  let faults := machine.swap name
  let dir := removeIfExists dir (oldName name) faults.statOld faults.removeOld
  if (dir name).isSome && !faults.statTarget then
    match faults.displace with
    | some e =>
      if isBusy e then (dir, .ok { applied := false, deferred := true })
      else (dir, .error ("displace " ++ machine.display name ++ " failed: " ++ e.text))
    | none => placeTmp machine (dir.rename name (oldName name)) name true
  else placeTmp machine dir name false

def replaceFileAtomic (machine : Machine) (dir : Files) (name : String) (bytes : Bytes) :
    Files × Except String SwapResult :=
  let faults := machine.swap name
  match faults.writeTmp with
  | some (e, left) =>
    (Function.update dir (machine.tmpName name) left,
      .error ("write " ++ machine.display (machine.tmpName name) ++ " failed: " ++ e.text))
  | none =>
    let dir := dir.write (machine.tmpName name) bytes
    let (dir, result) :=
      if machine.windows then windowsSwap machine dir name else placeTmp machine dir name false
    (removeIfExists dir (machine.tmpName name) faults.statTmp faults.removeTmp, result)

/-! ## The update -/

inductive UpdateStatus where
  | updated
  | upToDate
  | verifyFailed
  | deferred
  | noArtifact
  deriving DecidableEq, Repr

structure UpdateResult where
  status : UpdateStatus
  version : Option String
  deriving DecidableEq, Repr

structure UpdateCommandOptions where
  currentVersion : String
  manifest : Manifest
  publicKeyB64 : String
  platform : String
  arch : String

def msgUpToDate : String := "climon is already up to date"

def msgVerifyFailed : String :=
  "Update aborted: signature verification failed. No changes were made."

def msgDeferred : String :=
  "Update could not be applied right now (files in use). Will retry later."

def removedFiles : List String := ["climon-beta"]

/-- The loop over the files of the install; an entry that the archive lacks is skipped. -/
def swapFiles (machine : Machine) (unzipped : Archive) :
    List InstallFile → Files → Bool → Files × Except String Bool
  | [], dir, deferred => (dir, .ok deferred)
  | f :: files, dir, deferred =>
    match unzipped.lookup f.source with
    | none => swapFiles machine unzipped files dir deferred
    | some data =>
      match replaceFileAtomic machine dir f.dest data with
      | (dir, .error e) => (dir, .error e)
      | (dir, .ok result) => swapFiles machine unzipped files dir (deferred || result.deferred)

def cleanupOldFiles (machine : Machine) (dir : Files) (names : List String) : Files :=
  names.foldl (fun dir name => removeIfExists dir (oldName name) false (machine.cleanup name)) dir

def removeOrphanFiles (machine : Machine) (dir : Files) (names : List String) : Files :=
  names.foldl (fun dir name =>
    let dir := removeIfExists dir name false (machine.orphans name)
    removeIfExists dir (oldName name) false (machine.orphans (oldName name))) dir

/-- The directory after the run, what it printed and its result. -/
structure Outcome where
  dir : Files
  printed : List String
  result : Except String UpdateResult

/-- `none` for an error. -/
def Outcome.status (o : Outcome) : Option UpdateStatus := o.result.toOption.map UpdateResult.status

def runUpdateCommand (crates : Crates) (machine : Machine) (opts : UpdateCommandOptions)
    (dir : Files) : Outcome :=
  if !isNewer opts.manifest opts.currentVersion then
    { dir, printed := [msgUpToDate ++ " (" ++ opts.currentVersion ++ ").\n"],
      result := .ok { status := .upToDate, version := none } }
  else
    match opts.manifest.artifacts.lookup (artifactKey opts.platform opts.arch) with
    | none => { dir, printed := [], result := .ok { status := .noArtifact, version := none } }
    | some artifact =>
      match machine.tempdir with
      | some e => { dir, printed := [], result := .error ("temp dir failed: " ++ e) }
      | none =>
        match download crates artifact.url maxArtifactBytes with
        | .error e => { dir, printed := [], result := .error e }
        | .ok zipBytes =>
          match machine.writeArtifact with
          | some e => { dir, printed := [], result := .error e }
          | none =>
            match downloadText crates artifact.sig maxTextBytes with
            | .error e => { dir, printed := [], result := .error e }
            | .ok sigB64 =>
              if !verifySignature crates zipBytes sigB64 opts.publicKeyB64 then
                { dir, printed := [msgVerifyFailed ++ "\n"],
                  result := .ok { status := .verifyFailed, version := none } }
              else
                match unzip crates zipBytes with
                | .error e => { dir, printed := [], result := .error e }
                | .ok unzipped =>
                  let files := installFilesForPlatform opts.platform
                  match swapFiles machine unzipped files dir false with
                  | (dir, .error e) => { dir, printed := [], result := .error e }
                  | (dir, .ok deferred) =>
                    let dir := cleanupOldFiles machine dir (files.map InstallFile.dest)
                    if deferred then
                      { dir, printed := [msgDeferred ++ "\n"],
                        result := .ok { status := .deferred, version := some opts.manifest.version } }
                    else
                      { dir := removeOrphanFiles machine dir removedFiles,
                        printed := ["Update applied. Start new sessions (or restart the server) to use "
                          ++ opts.manifest.version ++ ".\n"],
                        result := .ok { status := .updated, version := some opts.manifest.version } }

end Climon.Update.UpdateCommand
