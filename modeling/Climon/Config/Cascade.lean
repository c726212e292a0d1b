import Climon.Config.CommentStripping
import Climon.Config.Rendering

namespace Climon.Config.Cascade

open Climon.Config.CommentStripping (parseJsoncConfig)
open Climon.Config.Rendering (renderJsoncConfig)
open Climon.Config.Settings (coerceConfigValueFromSettings findConfigSetting)
open Climon.Lib.JsonText (insertField)
open Climon.Lib.JsonValue

/-!
# The cascade of config files

A setting is looked up in the working directory and above it, up to the home directory, and last in
the global config. It is written to one of these places.
-/

/-! ## Paths -/

/-- A path by its components. -/
structure Path where
  absolute : Bool
  parts : List String
  deriving DecidableEq

namespace Path

def join (path : Path) (name : String) : Path := { path with parts := path.parts ++ [name] }

/-- Absolute and without dots. Links are not followed. -/
def resolve (path currentDir : Path) : Path :=
  let abs := if path.absolute then path else { currentDir with parts := currentDir.parts ++ path.parts }
  { abs with
    parts := abs.parts.foldl
      (fun out part =>
        if part = ".." then out.dropLast else if part = "." then out else out ++ [part]) [] }

/-- Every path starts with the empty one. -/
def startsWith (path boundary : Path) : Bool :=
  boundary == ⟨false, []⟩ ||
    path.absolute == boundary.absolute && boundary.parts.isPrefixOf path.parts

def display (path : Path) : String :=
  (if path.absolute then "/" else "") ++ "/".intercalate path.parts

end Path

/-- The environment, and the directory in which the process runs. -/
structure Env where
  climonHome : Option Path
  home : Path
  currentDir : Path

def getClimonHome (env : Env) : Path := env.climonHome.getD (env.home.join ".climon")

/-! ## Files -/

inductive File where
  | text (raw : List Char)
  | unreadable

/-- The config files of a directory. -/
structure Folder where
  canonical : Option File := none
  legacy : Option File := none
  backup : Option File := none

abbrev Disk (L : Type) := L → Folder

/-- What the operating system and the JSON library do. -/
structure System (L : Type) where
  /-- The directory that a path leads to. -/
  locate : Path → L
  createDirAll : L → Except String Unit
  write : L → Except String Unit
  rename : L → Except String Unit
  fromStr : List Char → Except String Json
  floatText : Rat → List Char

section Reading

variable {L : Type} (sys : System L) (env : Env) (cwd : Path) (key : String) (disk : Disk L)

/-- From a directory, given by its names with the innermost first, up to a boundary. -/
def climb (boundary : Path) (absolute : Bool) : List String → List Path
  | [] => if ⟨absolute, []⟩ = boundary then [] else [⟨absolute, [".climon"]⟩]
  | name :: above =>
    let dir : Path := ⟨absolute, (name :: above).reverse⟩
    if dir = boundary then [] else dir.join ".climon" :: climb boundary absolute above

/-- The candidates before the global config. -/
def projectConfigDirs : List Path :=
  let homeBoundary := env.home.resolve env.currentDir
  let start := cwd.resolve env.currentDir
  if start.startsWith homeBoundary then
    climb homeBoundary start.absolute start.parts.reverse
  else [start.join ".climon"]

def candidateConfigDirs : List Path :=
  let dirs := projectConfigDirs env cwd
  let home := getClimonHome env
  if dirs.contains home then dirs else dirs ++ [home]

/-- The canonical file comes before the legacy one. -/
def existingConfig (folder : Folder) : Option (String × File) :=
  match folder.canonical with
  | some file => some ("config.jsonc", file)
  | none => folder.legacy.map fun file => ("config.json", file)

/-- What cannot be read is taken as empty. -/
def readSparseConfig (dir : Path) : List (String × Json) :=
  match existingConfig (disk (sys.locate dir)) with
  | some (name, .text raw) =>
    match parseJsoncConfig sys.fromStr raw (dir.join name).display with
    | .ok (.object fields) => fields
    | _ => []
  | _ => []

/-- The segments of a dotted key. -/
def split (key : String) : List String := (key.toList.splitOn '.').map String.ofList

/-- Only the first two segments count. -/
def readDottedKey (obj : List (String × Json)) (key : String) : Option Json :=
  match split key with
  | section' :: field :: _ => (obj.lookup section').bind (·.get? field)
  | _ => none

def isGlobalOnly : Bool := (findConfigSetting key).any (·.globalOnly)

def readGlobalConfigSetting : Option Json :=
  readDottedKey (readSparseConfig sys disk (getClimonHome env)) key

/-- The first directory that defines the key decides. -/
def resolveConfigSetting : Option Json :=
  if isGlobalOnly key then readGlobalConfigSetting sys env key disk
  else
    (candidateConfigDirs env cwd).findSome? fun dir =>
      readDottedKey (readSparseConfig sys disk dir) key

end Reading

/-! ## Writing -/

inductive WriteScope where
  | auto
  | local
  | global
  deriving DecidableEq, Repr

section Writing

variable {L : Type} [DecidableEq L] (sys : System L) (env : Env) (cwd : Path) (key : String)
  (scope : WriteScope) (disk : Disk L)

def resolveWriteDir : Path :=
  match scope with
  | .local => (cwd.resolve env.currentDir).join ".climon"
  | .global => getClimonHome env
  | .auto =>
    ((candidateConfigDirs env cwd).find? fun dir =>
      (existingConfig (disk (sys.locate dir))).isSome).getD (getClimonHome env)

def resolveWriteDirForKey : Path :=
  if scope = .auto ∧ isGlobalOnly key = true then getClimonHome env
  else resolveWriteDir sys env cwd scope disk

def splitTwo (key : String) : String × String :=
  let segments := split key
  (segments.headD "", segments.tail.headD "")

/-- What has no fields gives way to an object. -/
def withSetting (obj : List (String × Json)) (names : String × String) (value : Json) :
    List (String × Json) :=
  let entry :=
    match obj.lookup names.1 with
    | some (.object fields) => fields
    | _ => []
  insertField obj names.1 (.object (insertField entry names.2 value))

/-- A legacy file without a canonical one is kept as a backup. What a failed write leaves behind is
not told. -/
def writeSparseConfig (dir : Path) (record : Json) : Except String (Disk L) := do
  let place := sys.locate dir
  let folder := disk place
  sys.createDirAll place
  sys.write place
  let written := { folder with canonical := some (.text (renderJsoncConfig sys.floatText record)) }
  if folder.legacy.isSome && folder.canonical.isNone then
    (sys.rename place).mapError fun e =>
      "Wrote " ++ (dir.join "config.jsonc").display ++ " but failed to back up legacy " ++
        (dir.join "config.json").display ++ " to " ++ (dir.join "config.json.bak").display ++
        ": " ++ e
    return Function.update disk place { written with legacy := none, backup := folder.legacy }
  else return Function.update disk place written

/-- The directory that was written, and the disk then. -/
def writeConfigSetting (value : String) : Except String (Path × Disk L) := do
  let dir := resolveWriteDirForKey sys env cwd key scope disk
  let current := readSparseConfig sys disk dir
  let coerced ← coerceConfigValueFromSettings key value
  let record := withSetting current (splitTwo key) coerced
  let disk' ← writeSparseConfig sys disk dir (.object record)
  return (dir, disk')

end Writing

end Climon.Config.Cascade
