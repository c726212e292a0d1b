import Climon.Cli.Args
import Climon.Lib.JsonValue
import Mathlib.Data.List.SplitOn

namespace Climon.Update.Manifest

open Climon.Cli.Args Climon.Lib.JsonValue

/-! # Release manifests -/

structure ManifestArtifact where
  url : String
  sig : String
  deriving DecidableEq, Repr

/-- The artifacts have distinct keys. -/
structure Manifest where
  version : String
  encryption : Option String
  artifacts : List (String × ManifestArtifact)
  deriving DecidableEq, Repr

/-! ## Versions -/

/-- `str::parse::<i64>` -/
def parseI64 (text : List Char) : Option Int64 :=
  let unsigned (digits : List Char) : Option Nat :=
    if digits ≠ [] ∧ digits.all Char.isDigit then some (Nat.ofDigitChars 10 digits 0) else none
  match text with
  | '-' :: digits =>
    (unsigned digits).bind fun n => if n ≤ 2 ^ 63 then some (Int64.ofInt (-n)) else none
  | '+' :: digits =>
    (unsigned digits).bind fun n => if n < 2 ^ 63 then some (Int64.ofInt n) else none
  | digits => (unsigned digits).bind fun n => if n < 2 ^ 63 then some (Int64.ofInt n) else none

def versionPart (parts : List (List Char)) (i : Nat) : Int64 :=
  (parseI64 (parts.getD i ['0'])).getD 0

/-- Major, minor and patch number; whatever is no number counts as zero. -/
def parse (version : String) : List Int64 :=
  let trimmed := (trim version).toList
  let cleaned :=
    match trimmed with
    | 'v' :: rest => rest
    | _ => trimmed
  let parts := cleaned.splitOn '.'
  [versionPart parts 0, versionPart parts 1, versionPart parts 2]

/-- The difference of the first two parts that differ. -/
def compareParts : List Int64 → List Int64 → Int64
  | a :: as, b :: bs => if a ≠ b then a - b else compareParts as bs
  | _, _ => 0

def compareSemver (a b : String) : Int64 := compareParts (parse a) (parse b)

def isNewer (manifest : Manifest) (current : String) : Bool :=
  0 < compareSemver manifest.version current

theorem compareParts_self (parts : List Int64) : compareParts parts parts = 0 := by
  induction parts with
  | nil => rfl
  | cons part parts ih => simp [compareParts, ih]

/-- Nothing is newer than itself. -/
@[simp] theorem isNewer_self (manifest : Manifest) : isNewer manifest manifest.version = false := by
  simp [isNewer, compareSemver, compareParts_self]

/-- The order of versions, on the numbers themselves. -/
def Precedes (older newer : String) : Prop :=
  (parse older).map Int64.toInt < (parse newer).map Int64.toInt

instance (older newer : String) : Decidable (Precedes older newer) := by
  unfold Precedes
  infer_instance

/-- A version whose numbers carry no minus sign. -/
def Unsigned (version : String) : Prop := ∀ part ∈ parse version, 0 ≤ part

instance (version : String) : Decidable (Unsigned version) :=
  List.decidableBAll _ (parse version)

theorem toInt_sub {a b : Int64} (ha : 0 ≤ a) (hb : 0 ≤ b) : (a - b).toInt = a.toInt - b.toInt := by
  have hlowa := Int64.le_iff_toInt_le.mp ha
  have hlowb := Int64.le_iff_toInt_le.mp hb
  have hhigha := a.toInt_lt
  have hhighb := b.toInt_lt
  simp only [Int64.toInt_zero] at hlowa hlowb
  rw [Int64.toInt_sub]
  apply Int.bmod_eq_of_le <;> omega

/-- Without minus signs the subtraction does not overflow, and so compares. -/
theorem compareParts_pos {as bs : List Int64} (ha : ∀ a ∈ as, 0 ≤ a) (hb : ∀ b ∈ bs, 0 ≤ b)
    (hlen : as.length = bs.length) :
    0 < compareParts as bs ↔ bs.map Int64.toInt < as.map Int64.toInt := by
  induction as generalizing bs with
  | nil =>
    cases bs with
    | nil => simp [compareParts]
    | cons b bs => simp at hlen
  | cons a as ih =>
    cases bs with
    | nil => simp at hlen
    | cons b bs =>
      rw [List.forall_mem_cons] at ha hb
      have htail := ih ha.2 hb.2 (by simpa using hlen)
      simp only [compareParts, List.map_cons, List.cons_lt_cons_iff]
      by_cases heq : a = b
      · subst heq
        simpa using htail
      · have hne : b.toInt ≠ a.toInt := fun h => heq (Int64.toInt_inj.mp h).symm
        rw [if_pos heq, Int64.lt_iff_toInt_lt, toInt_sub ha.1 hb.1]
        simp [hne]

theorem isNewer_iff {manifest : Manifest} {current : String} (hm : Unsigned manifest.version)
    (hc : Unsigned current) : isNewer manifest current = true ↔ Precedes current manifest.version := by
  simp only [isNewer, decide_eq_true_eq]
  exact compareParts_pos hm hc (by simp only [parse, List.length_cons, List.length_nil])

/-! ## Parsing -/

def malformed : String := "Malformed manifest"

def manifestFromValue (data : Json) : Except String Manifest :=
  match data with
  | .object fields =>
    match (fields.lookup "version").bind Json.asStr with
    | none => .error malformed
    | some version =>
      match fields.lookup "artifacts" with
      | some (.object artifacts) =>
        let artifacts := artifacts.map fun (key, value) =>
          (key, { url := ((value.get? "url").bind Json.asStr).getD "",
                  sig := ((value.get? "sig").bind Json.asStr).getD "" : ManifestArtifact })
        match fields.lookup "encryption" with
        | none | some .null => .ok { version, encryption := none, artifacts }
        | some (.string scheme) => .ok { version, encryption := some scheme, artifacts }
        | some _ => .error malformed
      | _ => .error malformed
  | _ => .error malformed

/-- Over the parser of JSON documents. -/
def parseManifest (fromSlice : List UInt8 → Option Json) (bytes : List UInt8) :
    Except String Manifest :=
  match fromSlice bytes with
  | none => .error malformed
  | some data => manifestFromValue data

/-! ## Platforms -/

def osSegment (platform : String) : String :=
  if platform = "win32" then "windows" else if platform = "darwin" then "darwin" else "linux"

def cpuSegment (arch : String) : String := if arch = "arm64" then "arm64" else "x64"

def artifactKey (platform arch : String) : String := osSegment platform ++ "-" ++ cpuSegment arch

structure InstallFile where
  source : String
  dest : String
  deriving DecidableEq, Repr

def installFilesForPlatform (platform : String) : List InstallFile :=
  let exe := if platform = "win32" then ".exe" else ""
  [{ source := "install" ++ exe, dest := "climon" ++ exe },
    { source := "climon-server" ++ exe, dest := "climon-server" ++ exe }]

end Climon.Update.Manifest
