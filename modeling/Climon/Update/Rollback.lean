import Climon.Lib.AssocList
import Climon.Update.AllOrNothing

namespace Climon.Update.Rollback

open Climon.Lib.AssocList Climon.Lib.Directory Climon.Lib.JsonValue Climon.Lib.Utf8 Climon.Update.AllOrNothing
  Climon.Update.Manifest Climon.Update.UpdateCommand

/-! # What the signature says of a version -/

variable {crates : Crates} {machine : Machine} {opts : UpdateCommandOptions} {dir : Files}

/-! ## Manifests that can be served -/

def artifactValue (artifact : ManifestArtifact) : Json :=
  .object [("url", .string artifact.url), ("sig", .string artifact.sig)]

def manifestValue (manifest : Manifest) : Json :=
  .object [("version", .string manifest.version),
    ("artifacts", .object (manifest.artifacts.map fun entry => (entry.1, artifactValue entry.2))),
    ("encryption", manifest.encryption.elim .null .string)]

/-- Parsing rules no manifest out. -/
theorem manifestFromValue_manifestValue (manifest : Manifest) :
    manifestFromValue (manifestValue manifest) = .ok manifest := by
  obtain ⟨version, encryption, artifacts⟩ := manifest
  have hartifacts : ∀ read : Json → ManifestArtifact,
      (∀ artifact, read (artifactValue artifact) = artifact) →
        (artifacts.map fun entry => (entry.1, artifactValue entry.2)).map
          (fun entry => (entry.1, read entry.2)) = artifacts := by
    intro read hread
    simp [List.map_map, Function.comp_def, hread]
  have hread := hartifacts (fun value =>
    { url := ((value.get? "url").bind Json.asStr).getD "",
      sig := ((value.get? "sig").bind Json.asStr).getD "" }) (fun _ => rfl)
  cases encryption with
  | none => exact congrArg (fun entries => Except.ok (Manifest.mk version none entries)) hread
  | some scheme =>
    exact congrArg (fun entries => Except.ok (Manifest.mk version (some scheme) entries)) hread

/-! ## Builds -/

/-- A signed artifact: which version it is of, and for which platform. -/
structure Build where
  version : String
  key : String
  zip : Bytes
  sig : Bytes
  unsigned : Unsigned version

/-- What verifies under the embedded key is what the vendor signed. -/
def VendorOnly (crates : Crates) (publicKeyB64 : String) (vendor : Build → Prop) : Prop :=
  ∀ key, crates.base64Decode publicKeyB64 = some key → ∀ data sig,
    crates.verifyStrict key data sig = true ↔ ∃ build, vendor build ∧ build.zip = data ∧ build.sig = sig

/-- A manifest that tells the truth: under each platform, builds of its version for the platform. -/
def Genuine (crates : Crates) (vendor : Build → Prop) (manifest : Manifest) : Prop :=
  ∀ key artifact, manifest.artifacts.lookup key = some artifact → ∀ build, vendor build →
    download crates artifact.url maxArtifactBytes = .ok build.zip →
      build.version = manifest.version ∧ build.key = key

theorem of_toOption {ε α : Type} {result : Except ε α} {a : α} (h : result.toOption = some a) :
    result = .ok a := by
  cases result with
  | error e => cases h
  | ok b =>
    cases h
    rfl

theorem verified_elim {v : Verified} (h : verified crates machine opts = some v) :
    isNewer opts.manifest opts.currentVersion = true ∧
      opts.manifest.artifacts.lookup (artifactKey opts.platform opts.arch) = some v.artifact ∧
      download crates v.artifact.url maxArtifactBytes = .ok v.zip ∧
      unzip crates v.zip = .ok v.unzipped ∧
      ∃ sig, verifySignature crates v.zip sig opts.publicKeyB64 = true := by
  unfold verified at h
  split at h
  · cases h
  · rename_i hnewer
    obtain ⟨artifact, hartifact, h⟩ := Option.bind_eq_some_iff.mp h
    split at h
    · cases h
    · obtain ⟨zip, hzip, h⟩ := Option.bind_eq_some_iff.mp h
      split at h
      · cases h
      · obtain ⟨sig, -, h⟩ := Option.bind_eq_some_iff.mp h
        split at h
        · cases h
        · rename_i hverify
          obtain ⟨unzipped, hunzip, rfl⟩ := Option.map_eq_some_iff.mp h
          refine ⟨by simpa using hnewer, hartifact, ?_, ?_, sig, by simpa using hverify⟩
          · exact of_toOption hzip
          · exact of_toOption hunzip

theorem verifySignature_vendor {vendor : Build → Prop} {data : Bytes} {signature publicKey : String}
    (hvendor : VendorOnly crates publicKey vendor)
    (h : verifySignature crates data signature publicKey = true) :
    ∃ build, vendor build ∧ build.zip = data := by
  unfold verifySignature at h
  split at h
  · cases h
  · split at h
    · rename_i key sig hkey _
      split at h
      · cases h
      · split at h
        · obtain ⟨build, hbuild, hzip, -⟩ := (hvendor key hkey data sig).mp h
          exact ⟨build, hbuild, hzip⟩
        · cases h
    · cases h

/-! ## What an update installs -/

/-- Of the files of the install, those that the artifact has hold what it has. -/
theorem swapStage_installs {unzipped : Archive}
    (h : (swapStage machine opts dir unzipped).status = some .updated) :
    ∀ f ∈ installFilesForPlatform opts.platform, ∀ data, unzipped.lookup f.source = some data →
      (swapStage machine opts dir unzipped).dir f.dest = some data := by
  intro f hf data hdata
  have hgo := (swapStage_updated machine opts dir unzipped).mp h
  have hswapped := swapFiles_swapped unzipped dir false (apart_installFiles machine opts.platform)
  obtain ⟨landed, hlanded⟩ := lands_of_lookup hdata (hgo f hf)
  have hsame := fate_lands hlanded
  rw [hdata] at hsame
  cases hsame
  have hthrough := hswapped.through fun g hg => by
    have hbreaks := hgo g hg
    cases hfate : fate machine unzipped dir g <;> rw [hfate] at hbreaks <;> first | rfl | cases hbreaks
  rw [swapStage_dir machine opts dir unzipped f hf, hthrough.2 f hf data hlanded]

/-- Only the artifact is signed: the version and the platform are the manifest's word. -/
theorem update_installs_vendor_build {vendor : Build → Prop} {running : Build}
    (hvendor : VendorOnly crates opts.publicKeyB64 vendor)
    (hrunning : opts.currentVersion = running.version)
    (hstatus : (runUpdateCommand crates machine opts dir).status = some .updated) :
    isNewer opts.manifest running.version = true ∧
      ∃ build artifact unzipped, vendor build ∧
        opts.manifest.artifacts.lookup (artifactKey opts.platform opts.arch) = some artifact ∧
        download crates artifact.url maxArtifactBytes = .ok build.zip ∧
        unzip crates build.zip = .ok unzipped ∧
        (∀ f ∈ installFilesForPlatform opts.platform, ∀ data, unzipped.lookup f.source = some data →
          (runUpdateCommand crates machine opts dir).dir f.dest = some data) ∧
        (Genuine crates vendor opts.manifest →
          Precedes running.version build.version ∧ build.key = artifactKey opts.platform opts.arch) := by
  obtain ⟨v, hv, hrun⟩ | ⟨-, -, hnot⟩ := run_cases crates machine opts dir
  · obtain ⟨hnewer, hartifact, hzip, hunzip, sig, hverify⟩ := verified_elim hv
    obtain ⟨build, hbuild, hsame⟩ := verifySignature_vendor hvendor hverify
    rw [← hsame] at hzip hunzip
    rw [hrunning] at hnewer
    rw [hrun] at hstatus ⊢
    refine ⟨hnewer, build, v.artifact, v.unzipped, hbuild, hartifact, hzip, hunzip,
      swapStage_installs hstatus, ?_⟩
    intro hgenuine
    obtain ⟨hversion, hkey⟩ := hgenuine _ _ hartifact build hbuild hzip
    have hunsigned : Unsigned opts.manifest.version := by
      rw [← hversion]
      exact build.unsigned
    rw [hversion]
    exact ⟨(isNewer_iff hunsigned running.unsigned).mp hnewer, hkey⟩
  · exact absurd hstatus hnot

def runningBuild : Build where
  version := "1.0.0"
  key := "linux-x64"
  zip := []
  sig := []
  unsigned := by decide

def newestBuild : Build where
  version := "2.0.0"
  key := "linux-x64"
  zip := [0x50]
  sig := List.replicate 64 0
  unsigned := by decide

/-- An older one, and for another platform. -/
def foreignBuild : Build where
  version := "0.9.0"
  key := "linux-arm64"
  zip := [0x50]
  sig := List.replicate 64 0
  unsigned := by decide

theorem release_vendorOnly (content : UInt8) (build : Build) (hzip : build.zip = [0x50])
    (hsig : build.sig = List.replicate 64 0) :
    VendorOnly (release content) (zeros 43 "=") (· = build) := by
  intro key _ data sig
  simp only [release, exists_eq_left, hzip, hsig, Bool.and_eq_true, beq_iff_eq]
  exact and_congr eq_comm eq_comm

/-- The new version installed under a manifest that tells the truth. -/
theorem update_installs_newest_build :
    ∃ build, build = newestBuild ∧ Precedes "1.0.0" build.version ∧
      build.key = artifactKey "linux" "x64" := by
  have hstatus : (runUpdateCommand (release 2) linux (updateFrom "1.0.0") oldInstall).status =
      some .updated := by
    rw [release_run 2 oldInstall rfl rfl]
    decide
  have hrunning : (updateFrom "1.0.0").currentVersion = runningBuild.version := rfl
  obtain ⟨-, build, artifact, unzipped, hbuild, -, -, -, -, hgenuine⟩ :=
    update_installs_vendor_build (release_vendorOnly 2 newestBuild rfl rfl) hrunning hstatus
  refine ⟨build, hbuild, hgenuine ?_⟩
  rintro key artifact hlookup _ rfl _
  have hkey := mem_of_lookup hlookup
  simp only [updateFrom, newerManifest, List.mem_singleton, Prod.mk.injEq] at hkey
  exact ⟨rfl, hkey.1.symm⟩

/-- An old build for another platform, under a manifest that calls it new and ours. -/
theorem old_release_installed :
    let o := runUpdateCommand (release 0) linux (updateFrom "1.0.0") oldInstall
    VendorOnly (release 0) (updateFrom "1.0.0").publicKeyB64 (· = foreignBuild) ∧
      manifestFromValue (manifestValue newerManifest) = .ok (updateFrom "1.0.0").manifest ∧
      o.status = some .updated ∧ o.dir "climon" = some [0] ∧ o.dir "climon-server" = some [0] ∧
      ¬ Precedes "1.0.0" foreignBuild.version ∧ foreignBuild.key ≠ artifactKey "linux" "x64" := by
  dsimp only
  rw [release_run 0 oldInstall rfl rfl]
  refine ⟨release_vendorOnly 0 foreignBuild rfl rfl, manifestFromValue_manifestValue _, ?_⟩
  decide

end Climon.Update.Rollback
