import Climon.Update.UpdateCommand

namespace Climon.Update.AllOrNothing

open Climon.Lib.Directory Climon.Lib.Utf8 Climon.Update.Manifest Climon.Update.UpdateCommand

/-! # What an update leaves of the install -/

variable {crates : Crates} {machine : Machine} {opts : UpdateCommandOptions} {dir : Files}
  {unzipped : Archive} {files : List InstallFile} {name other : String} {bytes : Bytes}

/-! ## Names -/

theorem append_ne_self {suffix : String} (h : suffix ≠ "") : name ++ suffix ≠ name := by
  intro heq
  have hlen := congrArg String.length heq
  rw [String.length_append] at hlen
  apply h
  rw [← String.length_eq_zero_iff]
  omega

theorem oldName_ne : oldName name ≠ name := append_ne_self (by decide)

theorem tmpName_ne : machine.tmpName name ≠ name := by
  rw [Machine.tmpName, String.append_assoc]
  apply append_ne_self
  intro h
  have hlen := congrArg String.length h
  simp [String.length_append] at hlen

theorem oldName_ne_tmpName : oldName name ≠ machine.tmpName name := by
  rw [oldName, Machine.tmpName, String.append_assoc]
  intro h
  have hlist := congrArg String.toList h
  simp [String.toList_append] at hlist

/-- The names that a swap uses beside the file's own. -/
structure Aside (machine : Machine) (name other : String) : Prop where
  old : other ≠ oldName name
  tmp : other ≠ machine.tmpName name

theorem installFiles_aside (machine : Machine) (platform : String) :
    ∀ f ∈ installFilesForPlatform platform, ∀ g ∈ installFilesForPlatform platform,
      Aside machine f.dest g.dest := by
  intro f hf g hg
  simp only [installFilesForPlatform, List.mem_cons, List.not_mem_nil, or_false] at hf hg
  by_cases hplatform : platform = "win32"
  all_goals
    simp only [hplatform, if_true, if_false] at hf hg
    rcases hf with rfl | rfl <;> rcases hg with rfl | rfl
    all_goals
      constructor
      all_goals
        intro h
        have hlist := congrArg String.toList h
        simp [oldName, Machine.tmpName, String.toList_append] at hlist

theorem installFiles_nodup (platform : String) :
    ((installFilesForPlatform platform).map InstallFile.dest).Nodup := by
  by_cases hplatform : platform = "win32" <;>
    simp [installFilesForPlatform, hplatform]

/-! ## One file -/

/-- What becomes of one file, told from the archive and the failures alone. -/
inductive Fate where
  | absent
  | lands (data : Bytes)
  | defers
  | stops (lost : Bool)
  deriving DecidableEq, Repr

/-- The target stands in the way, as Windows sees it. -/
def standing (machine : Machine) (dir : Files) (name : String) : Bool :=
  machine.windows && (dir name).isSome && !(machine.swap name).statTarget

def swapFate (machine : Machine) (dir : Files) (name : String) (data : Bytes) : Fate :=
  let faults := machine.swap name
  if faults.writeTmp.isSome then .stops false
  else
    match (if standing machine dir name then faults.displace else none) with
    | some e => if isBusy e then .defers else .stops false
    | none =>
      if faults.place.isSome then .stops (standing machine dir name && faults.restore)
      else .lands data

/-- Only the file itself matters, not its neighbours. -/
theorem swapFate_congr {dir' : Files} {data : Bytes} (h : dir' name = dir name) :
    swapFate machine dir' name data = swapFate machine dir name data := by
  have hstanding : standing machine dir' name = standing machine dir name := by
    simp only [standing, h]
  unfold swapFate
  rw [hstanding]

def fate (machine : Machine) (unzipped : Archive) (dir : Files) (f : InstallFile) : Fate :=
  match unzipped.lookup f.source with
  | none => .absent
  | some data => swapFate machine dir f.dest data

/-- What a swap with that fate does to the file itself, and what it answers. -/
def Fits (before after : Option Bytes) : Fate → Except String SwapResult → Prop
  | .absent, _ => False
  | .lands data, result => after = some data ∧ result = .ok { applied := true, deferred := false }
  | .defers, result => after = before ∧ result = .ok { applied := false, deferred := true }
  | .stops lost, result =>
    (∃ e, result = .error e) ∧ after = if lost then none else before

theorem removeIfExists_other {stat remove : Bool} (h : other ≠ name) :
    removeIfExists dir name stat remove other = dir other := by
  unfold removeIfExists
  split <;> simp [h]

theorem placeTmp_other {displaced : Bool} (hname : other ≠ name) (h : Aside machine name other) :
    (placeTmp machine dir name displaced).1 other = dir other := by
  unfold placeTmp
  split
  · split
    · exact Directory.rename_other h.old hname
    · rfl
  · exact Directory.rename_other h.tmp hname

/-- The bytes come in, or what was displaced comes back if it can. -/
theorem placeTmp_fits (machine : Machine) (displaced : Bool) (before : Option Bytes)
    (htmp : dir (machine.tmpName name) = some bytes)
    (hkept : displaced = false → dir name = before)
    (hdisplaced : displaced = true → dir name = none ∧ dir (oldName name) = before ∧ before ≠ none) :
    Fits before ((placeTmp machine dir name displaced).1 name)
      (if (machine.swap name).place.isSome then .stops (displaced && (machine.swap name).restore)
        else .lands bytes)
      (placeTmp machine dir name displaced).2 := by
  unfold placeTmp
  cases hplace : (machine.swap name).place with
  | none =>
    have hplaced : dir.rename (machine.tmpName name) name name = some bytes := by
      rw [Directory.rename_dst (by simp [htmp]) tmpName_ne.symm, htmp]
    exact ⟨hplaced, rfl⟩
  | some e =>
    refine ⟨⟨_, rfl⟩, ?_⟩
    cases displaced with
    | false => simp [hkept]
    | true =>
      obtain ⟨hname, hold, hbefore⟩ := hdisplaced rfl
      cases hrestore : (machine.swap name).restore with
      | true => simp [hname]
      | false =>
        simp only [Bool.not_false, Bool.and_self, if_true, Bool.and_false]
        rw [Directory.rename_dst (by rw [hold]; exact hbefore) oldName_ne.symm, hold]
        rfl

theorem windowsSwap_other (hname : other ≠ name) (h : Aside machine name other) :
    (windowsSwap machine dir name).1 other = dir other := by
  have hold : removeIfExists dir (oldName name) (machine.swap name).statOld
      (machine.swap name).removeOld other = dir other := removeIfExists_other h.old
  unfold windowsSwap
  dsimp only
  split
  · split
    · split <;> exact hold
    · rw [placeTmp_other hname h, Directory.rename_other hname h.old, hold]
  · rw [placeTmp_other hname h, hold]

theorem windowsSwap_fits (hwindows : machine.windows = true)
    (hwrite : (machine.swap name).writeTmp = none)
    (htmp : dir (machine.tmpName name) = some bytes) :
    Fits (dir name) ((windowsSwap machine dir name).1 name) (swapFate machine dir name bytes)
      (windowsSwap machine dir name).2 := by
  have hname : removeIfExists dir (oldName name) (machine.swap name).statOld
      (machine.swap name).removeOld name = dir name := removeIfExists_other oldName_ne.symm
  have htmp' : removeIfExists dir (oldName name) (machine.swap name).statOld
      (machine.swap name).removeOld (machine.tmpName name) = dir (machine.tmpName name) :=
    removeIfExists_other oldName_ne_tmpName.symm
  rw [htmp] at htmp'
  simp only [windowsSwap, swapFate, standing, hwindows, hwrite, hname, Bool.true_and,
    Option.isSome_none, Bool.false_eq_true, if_false]
  generalize removeIfExists dir (oldName name) (machine.swap name).statOld
    (machine.swap name).removeOld = cleared at *
  by_cases hstanding : ((dir name).isSome && !(machine.swap name).statTarget) = true
  · rw [if_pos hstanding, if_pos hstanding, hstanding]
    rw [Bool.and_eq_true] at hstanding
    have hthere : cleared name ≠ none := by
      rw [hname, ← Option.isSome_iff_ne_none]
      exact hstanding.1
    cases hdisplace : (machine.swap name).displace with
    | some e =>
      dsimp only
      split
      · exact ⟨hname, rfl⟩
      · exact ⟨⟨_, rfl⟩, hname⟩
    | none =>
      apply placeTmp_fits
      · rw [Directory.rename_other tmpName_ne oldName_ne_tmpName.symm, htmp']
      · intro h
        cases h
      · intro _
        refine ⟨Directory.rename_src oldName_ne, ?_, ?_⟩
        · rw [Directory.rename_dst hthere oldName_ne, hname]
        · rw [← hname]
          exact hthere
  · rw [if_neg hstanding, if_neg hstanding, Bool.eq_false_iff.mpr hstanding]
    apply placeTmp_fits machine false (dir name) htmp'
    · intro _
      exact hname
    · intro h
      cases h

theorem replaceFileAtomic_other (hname : other ≠ name) (h : Aside machine name other) :
    (replaceFileAtomic machine dir name bytes).1 other = dir other := by
  unfold replaceFileAtomic
  dsimp only
  split
  · exact Function.update_of_ne h.tmp _ _
  · dsimp only
    rw [removeIfExists_other h.tmp]
    split
    · rw [windowsSwap_other hname h, Directory.write_other h.tmp]
    · rw [placeTmp_other hname h, Directory.write_other h.tmp]

/-- One file, whatever fails. -/
theorem replaceFileAtomic_fits (machine : Machine) (dir : Files) (name : String) (bytes : Bytes) :
    Fits (dir name) ((replaceFileAtomic machine dir name bytes).1 name)
      (swapFate machine dir name bytes) (replaceFileAtomic machine dir name bytes).2 := by
  unfold replaceFileAtomic
  dsimp only
  cases hwrite : (machine.swap name).writeTmp with
  | some failure =>
    simp only [swapFate, hwrite, Option.isSome_some, if_true]
    exact ⟨⟨_, rfl⟩, Function.update_of_ne tmpName_ne.symm _ _⟩
  | none =>
    have hkept : (dir.write (machine.tmpName name) bytes) name = dir name :=
      Directory.write_other tmpName_ne.symm
    have htmp : (dir.write (machine.tmpName name) bytes) (machine.tmpName name) = some bytes :=
      Directory.write_same
    dsimp only
    rw [removeIfExists_other tmpName_ne.symm]
    by_cases hwindows : machine.windows = true
    · have hfits := windowsSwap_fits hwindows hwrite htmp
      rw [hkept, swapFate_congr hkept] at hfits
      rw [if_pos hwindows]
      exact hfits
    · have hfits := placeTmp_fits machine false (dir name) htmp (fun _ => hkept)
        (by intro h; cases h)
      rw [if_neg hwindows]
      simpa [swapFate, standing, hwrite, Bool.eq_false_iff.mpr hwindows] using hfits

/-! ## The loop -/

/-- The files that are not in the loop, and not beside one that is, stay. -/
theorem swapFiles_other {deferred : Bool}
    (h : ∀ f ∈ files, other ≠ f.dest ∧ Aside machine f.dest other) :
    (swapFiles machine unzipped files dir deferred).1 other = dir other := by
  induction files generalizing dir deferred with
  | nil => rfl
  | cons f files ih =>
    rw [List.forall_mem_cons] at h
    unfold swapFiles
    split
    · exact ih h.2
    · rename_i data _
      have hfirst : (replaceFileAtomic machine dir f.dest data).1 other = dir other :=
        replaceFileAtomic_other h.1.1 h.1.2
      split
      · rename_i heq
        rw [heq] at hfirst
        exact hfirst
      · rename_i heq
        rw [heq] at hfirst
        rw [ih h.2]
        exact hfirst

/-- A file of the loop that stops it, or that is left for later. -/
def Fate.breaks : Fate → Bool
  | .defers | .stops _ => true
  | _ => false

def Fate.stopped : Fate → Bool
  | .stops _ => true
  | _ => false

/-- Until the loop stops, what lands was there before; and nothing is lost as it stops. -/
def Harmless (machine : Machine) (unzipped : Archive) (dir : Files) : List InstallFile → Prop
  | [] => True
  | f :: files =>
    match fate machine unzipped dir f with
    | .absent | .defers => Harmless machine unzipped dir files
    | .lands data => dir f.dest = some data ∧ Harmless machine unzipped dir files
    | .stops lost => lost = false

theorem fate_congr {dir' : Files} {f : InstallFile} (h : dir' f.dest = dir f.dest) :
    fate machine unzipped dir' f = fate machine unzipped dir f := by
  unfold fate
  split
  · rfl
  · exact swapFate_congr h

theorem harmless_congr {dir' : Files} (h : ∀ f ∈ files, dir' f.dest = dir f.dest) :
    Harmless machine unzipped dir' files ↔ Harmless machine unzipped dir files := by
  induction files with
  | nil => rfl
  | cons f files ih =>
    rw [List.forall_mem_cons] at h
    simp only [Harmless, fate_congr h.1, h.1, ih h.2]

/-- The files of an install do not get in each other's way. -/
structure Apart (machine : Machine) (files : List InstallFile) : Prop where
  nodup : (files.map InstallFile.dest).Nodup
  aside : ∀ f ∈ files, ∀ g ∈ files, Aside machine f.dest g.dest

theorem apart_installFiles (machine : Machine) (platform : String) : Apart machine (installFilesForPlatform platform) :=
  ⟨installFiles_nodup platform, installFiles_aside machine platform⟩

theorem Apart.tail {f : InstallFile} (h : Apart machine (f :: files)) : Apart machine files :=
  ⟨(List.nodup_cons.mp h.nodup).2, fun g hg g' hg' =>
    h.aside g (List.mem_cons_of_mem _ hg) g' (List.mem_cons_of_mem _ hg')⟩

theorem Apart.head {f : InstallFile} (h : Apart machine (f :: files)) :
    ∀ g ∈ files, g.dest ≠ f.dest ∧ Aside machine f.dest g.dest ∧ Aside machine g.dest f.dest := by
  intro g hg
  have hne : g.dest ≠ f.dest := by
    intro heq
    apply (List.nodup_cons.mp h.nodup).1
    rw [← heq]
    exact List.mem_map.mpr ⟨g, hg, rfl⟩
  have htail := List.mem_cons_of_mem f hg
  exact ⟨hne, h.aside f List.mem_cons_self g htail, h.aside g htail f List.mem_cons_self⟩

/-- What the loop leaves and answers, told from the fates in the directory it starts from. -/
structure Swapped (machine : Machine) (unzipped : Archive) (files : List InstallFile) (dir : Files)
    (deferred : Bool) (out : Files × Except String Bool) : Prop where
  kept : (∀ f ∈ files, out.1 f.dest = dir f.dest) ↔ Harmless machine unzipped dir files
  stopped : (∃ f ∈ files, (fate machine unzipped dir f).stopped = true) → ∃ e, out.2 = .error e
  through : (∀ f ∈ files, (fate machine unzipped dir f).stopped = false) →
    out.2 = .ok (deferred || files.any fun f => (fate machine unzipped dir f).breaks) ∧
      ∀ f ∈ files, ∀ data, fate machine unzipped dir f = .lands data → out.1 f.dest = some data

theorem Swapped.congr {dir' : Files} {deferred : Bool} {out : Files × Except String Bool}
    (h : Swapped machine unzipped files dir' deferred out)
    (hdir : ∀ f ∈ files, dir' f.dest = dir f.dest) :
    Swapped machine unzipped files dir deferred out := by
  have hfate : ∀ f ∈ files, fate machine unzipped dir' f = fate machine unzipped dir f :=
    fun f hf => fate_congr (hdir f hf)
  constructor
  · rw [← harmless_congr hdir, ← h.kept]
    apply forall₂_congr
    intro f hf
    rw [hdir f hf]
  · rintro ⟨f, hf, hstopped⟩
    exact h.stopped ⟨f, hf, by rw [hfate f hf]; exact hstopped⟩
  · intro hgo
    have hthrough := h.through fun f hf => by rw [hfate f hf]; exact hgo f hf
    have hany : (files.any fun f => (fate machine unzipped dir' f).breaks) =
        files.any fun f => (fate machine unzipped dir f).breaks := by
      rw [Bool.eq_iff_iff, List.any_eq_true, List.any_eq_true]
      apply exists_congr
      intro f
      apply and_congr_right
      intro hf
      rw [hfate f hf]
    rw [hany] at hthrough
    exact ⟨hthrough.1, fun f hf data hdata => hthrough.2 f hf data (by rw [hfate f hf]; exact hdata)⟩

theorem swapFate_lost {data : Bytes} (h : swapFate machine dir name data = .stops true) :
    dir name ≠ none := by
  rw [← Option.isSome_iff_ne_none]
  unfold swapFate at h
  dsimp only at h
  split at h
  · cases h
  · split at h
    · split at h <;> cases h
    · split at h
      · simp only [Fate.stops.injEq, Bool.and_eq_true, standing] at h
        exact h.1.1.2
      · cases h

/-- A file that does not stop the loop: what becomes of it, and whether it is left for later. -/
def Passes (before after : Option Bytes) : Fate → Bool → Prop
  | .absent, later => after = before ∧ later = false
  | .lands data, later => after = some data ∧ later = false
  | .defers, later => after = before ∧ later = true
  | .stops _, _ => False

/-- One round of the loop that goes on, and the rest of it. -/
theorem swapped_cons {f : InstallFile} {after : Files} {deferred later : Bool}
    (hbeside : ∀ g ∈ files, f.dest ≠ g.dest ∧ Aside machine g.dest f.dest)
    (hothers : ∀ g ∈ files, after g.dest = dir g.dest)
    (hpass : Passes (dir f.dest) (after f.dest) (fate machine unzipped dir f) later)
    (htail : Swapped machine unzipped files after (deferred || later)
      (swapFiles machine unzipped files after (deferred || later))) :
    Swapped machine unzipped (f :: files) dir deferred
      (swapFiles machine unzipped files after (deferred || later)) := by
  have hhead : (swapFiles machine unzipped files after (deferred || later)).1 f.dest = after f.dest :=
    swapFiles_other hbeside
  have hrest := htail.congr hothers
  have hlater : later = (fate machine unzipped dir f).breaks ∧
      (fate machine unzipped dir f).stopped = false := by
    cases hfate : fate machine unzipped dir f <;> rw [hfate] at hpass
    · exact ⟨hpass.2, rfl⟩
    · exact ⟨hpass.2, rfl⟩
    · exact ⟨hpass.2, rfl⟩
    · exact hpass.elim
  constructor
  · rw [List.forall_mem_cons, hhead, hrest.kept]
    cases hfate : fate machine unzipped dir f <;> rw [hfate] at hpass
    · simp only [Harmless, hfate, hpass.1, true_and]
    · simp only [Harmless, hfate, hpass.1]
      apply and_congr_left'
      exact eq_comm
    · simp only [Harmless, hfate, hpass.1, true_and]
    · exact hpass.elim
  · intro hstopped
    apply hrest.stopped
    simpa [hlater.2] using hstopped
  · intro hgo
    rw [List.forall_mem_cons] at hgo
    obtain ⟨hresult, hlands⟩ := hrest.through hgo.2
    constructor
    · rw [hresult, List.any_cons, hlater.1, Bool.or_assoc]
    · rw [List.forall_mem_cons]
      refine ⟨fun data hdata => ?_, hlands⟩
      rw [hdata] at hpass
      rw [hhead]
      exact hpass.1

/-- The whole loop, whatever fails. -/
theorem swapFiles_swapped (unzipped : Archive) (dir : Files) (deferred : Bool)
    (h : Apart machine files) : Swapped machine unzipped files dir deferred (swapFiles machine unzipped files dir deferred) := by
  induction files generalizing dir deferred with
  | nil => constructor <;> simp [swapFiles, Harmless]
  | cons f files ih =>
    have hbeside : ∀ g ∈ files, f.dest ≠ g.dest ∧ Aside machine g.dest f.dest := fun g hg =>
      ⟨(h.head g hg).1.symm, (h.head g hg).2.2⟩
    unfold swapFiles
    cases hlookup : unzipped.lookup f.source with
    | none =>
      have hfate : fate machine unzipped dir f = .absent := by simp only [fate, hlookup]
      have hcons : Swapped machine unzipped (f :: files) dir deferred
          (swapFiles machine unzipped files dir (deferred || false)) :=
        swapped_cons hbeside (fun _ _ => rfl) (by rw [hfate]; exact ⟨rfl, rfl⟩) (ih _ _ h.tail)
      simpa only [Bool.or_false] using hcons
    | some data =>
      have hfits := replaceFileAtomic_fits machine dir f.dest data
      have hothers : ∀ g ∈ files,
          (replaceFileAtomic machine dir f.dest data).1 g.dest = dir g.dest := fun g hg =>
        replaceFileAtomic_other (h.head g hg).1 (h.head g hg).2.1
      have hfate : fate machine unzipped dir f = swapFate machine dir f.dest data := by
        simp only [fate, hlookup]
      have hlost : swapFate machine dir f.dest data = .stops true → dir f.dest ≠ none := swapFate_lost
      dsimp only
      rcases hrun : replaceFileAtomic machine dir f.dest data with ⟨after, result⟩
      rw [hrun] at hfits hothers
      cases hswap : swapFate machine dir f.dest data with
      | absent =>
        rw [hswap] at hfits
        exact hfits.elim
      | stops lost =>
        rw [hswap] at hfits
        obtain ⟨⟨e, rfl⟩, hafter⟩ := hfits
        rw [hswap] at hfate hlost
        constructor
        · rw [List.forall_mem_cons]
          simp only [Harmless, hfate]
          constructor
          · intro hkept
            cases lost with
            | false => rfl
            | true =>
              have hgone : after f.dest = none := hafter
              rw [hkept.1] at hgone
              exact absurd hgone (hlost rfl)
          · intro hfalse
            subst hfalse
            exact ⟨hafter, hothers⟩
        · intro _
          exact ⟨e, rfl⟩
        · intro hgo
          have hhead := hgo f List.mem_cons_self
          rw [hfate] at hhead
          cases hhead
      | lands landed =>
        rw [hswap] at hfits hfate
        obtain ⟨hafter, rfl⟩ := hfits
        exact swapped_cons hbeside hothers (by rw [hfate]; exact ⟨hafter, rfl⟩) (ih _ _ h.tail)
      | defers =>
        rw [hswap] at hfits hfate
        obtain ⟨hafter, rfl⟩ := hfits
        exact swapped_cons hbeside hothers (by rw [hfate]; exact ⟨hafter, rfl⟩) (ih _ _ h.tail)

/-! ## The run -/

/-- What a run that gets as far as the swap has downloaded and verified. -/
structure Verified where
  artifact : ManifestArtifact
  zip : Bytes
  unzipped : Archive

/-- A newer version, an artifact for the platform, and nothing wrong up to the unpacked archive. -/
def verified (crates : Crates) (machine : Machine) (opts : UpdateCommandOptions) : Option Verified :=
  if !isNewer opts.manifest opts.currentVersion then none
  else
    (opts.manifest.artifacts.lookup (artifactKey opts.platform opts.arch)).bind fun artifact =>
      if machine.tempdir.isSome then none
      else (download crates artifact.url maxArtifactBytes).toOption.bind fun zip =>
        if machine.writeArtifact.isSome then none
        else (downloadText crates artifact.sig maxTextBytes).toOption.bind fun sig =>
          if !verifySignature crates zip sig opts.publicKeyB64 then none
          else (unzip crates zip).toOption.map fun unzipped => { artifact, zip, unzipped }

/-- The last part of a run, over the unpacked archive. -/
def swapStage (machine : Machine) (opts : UpdateCommandOptions) (dir : Files)
    (unzipped : Archive) : Outcome :=
  let files := installFilesForPlatform opts.platform
  match swapFiles machine unzipped files dir false with
  | (dir, .error e) => { dir, printed := [], result := .error e }
  | (dir, .ok deferred) =>
    let dir := cleanupOldFiles machine dir (files.map InstallFile.dest)
    if deferred then
      { dir, printed := [msgDeferred ++ "\n"],
        result := .ok { status := .deferred, version := some opts.manifest.version } }
    else
      { dir := removeOrphanFiles machine dir removedFiles,
        printed := ["Update applied. Start new sessions (or restart the server) to use " ++
          opts.manifest.version ++ ".\n"],
        result := .ok { status := .updated, version := some opts.manifest.version } }

/-- A run swaps what it has verified; short of that it changes nothing. -/
theorem run_cases (crates : Crates) (machine : Machine) (opts : UpdateCommandOptions)
    (dir : Files) : (∃ v, verified crates machine opts = some v ∧
      runUpdateCommand crates machine opts dir = swapStage machine opts dir v.unzipped) ∨
    verified crates machine opts = none ∧ (runUpdateCommand crates machine opts dir).dir = dir ∧
      (runUpdateCommand crates machine opts dir).status ≠ some .updated := by
  cases hnewer : isNewer opts.manifest opts.currentVersion with
  | false => simp [verified, runUpdateCommand, hnewer, Outcome.status, Except.toOption]
  | true =>
  cases hartifact : opts.manifest.artifacts.lookup (artifactKey opts.platform opts.arch) with
  | none => simp [verified, runUpdateCommand, hnewer, hartifact, Outcome.status, Except.toOption]
  | some artifact =>
  cases htempdir : machine.tempdir with
  | some e =>
    simp [verified, runUpdateCommand, hnewer, hartifact, htempdir, Outcome.status, Except.toOption]
  | none =>
  cases hzip : download crates artifact.url maxArtifactBytes with
  | error e =>
    simp [verified, runUpdateCommand, hnewer, hartifact, htempdir, hzip, Outcome.status,
      Except.toOption]
  | ok zip =>
  cases hwrite : machine.writeArtifact with
  | some e =>
    simp [verified, runUpdateCommand, hnewer, hartifact, htempdir, hzip, hwrite, Outcome.status,
      Except.toOption]
  | none =>
  cases hsig : downloadText crates artifact.sig maxTextBytes with
  | error e =>
    simp [verified, runUpdateCommand, hnewer, hartifact, htempdir, hzip, hwrite, hsig,
      Outcome.status, Except.toOption]
  | ok sig =>
  cases hverify : verifySignature crates zip sig opts.publicKeyB64 with
  | false =>
    simp [verified, runUpdateCommand, hnewer, hartifact, htempdir, hzip, hwrite, hsig, hverify,
      Outcome.status, Except.toOption]
  | true =>
  cases hunzip : unzip crates zip with
  | error e =>
    simp [verified, runUpdateCommand, hnewer, hartifact, htempdir, hzip, hwrite, hsig, hverify,
      hunzip, Outcome.status, Except.toOption]
  | ok unzipped =>
    left
    refine ⟨⟨artifact, zip, unzipped⟩, ?_, ?_⟩
    · simp [verified, hnewer, hartifact, htempdir, hzip, hwrite, hsig, hverify, hunzip,
        Except.toOption]
    · simp only [runUpdateCommand, hnewer, hartifact, htempdir, hzip, hwrite, hsig, hverify,
        hunzip, Bool.not_true, Bool.false_eq_true, if_false]
      rfl

theorem cleanupOldFiles_other {names : List String} (h : ∀ name ∈ names, other ≠ oldName name) :
    cleanupOldFiles machine dir names other = dir other := by
  unfold cleanupOldFiles
  induction names generalizing dir with
  | nil => rfl
  | cons name names ih =>
    rw [List.forall_mem_cons] at h
    rw [List.foldl_cons, ih h.2, removeIfExists_other h.1]

theorem removeOrphanFiles_other {names : List String}
    (h : ∀ name ∈ names, other ≠ name ∧ other ≠ oldName name) :
    removeOrphanFiles machine dir names other = dir other := by
  unfold removeOrphanFiles
  induction names generalizing dir with
  | nil => rfl
  | cons name names ih =>
    rw [List.forall_mem_cons] at h
    rw [List.foldl_cons, ih h.2, removeIfExists_other h.1.2, removeIfExists_other h.1.1]

theorem installFiles_kept (platform : String) :
    ∀ f ∈ installFilesForPlatform platform, ∀ name ∈ removedFiles,
      f.dest ≠ name ∧ f.dest ≠ oldName name := by
  by_cases hplatform : platform = "win32" <;>
    simp [installFilesForPlatform, hplatform, removedFiles, oldName]

/-- After the loop no file of the install is touched. -/
theorem swapStage_dir (machine : Machine) (opts : UpdateCommandOptions) (dir : Files)
    (unzipped : Archive) : ∀ f ∈ installFilesForPlatform opts.platform,
    (swapStage machine opts dir unzipped).dir f.dest =
      (swapFiles machine unzipped (installFilesForPlatform opts.platform) dir false).1 f.dest := by
  intro f hf
  have hold : ∀ name ∈ (installFilesForPlatform opts.platform).map InstallFile.dest,
      f.dest ≠ oldName name := by
    intro name hname
    obtain ⟨g, hg, rfl⟩ := List.mem_map.mp hname
    exact (installFiles_aside machine opts.platform g hg f hf).old
  unfold swapStage
  dsimp only
  split
  · simp [*]
  · rename_i heq
    rw [heq]
    split
    · exact cleanupOldFiles_other hold
    · dsimp only
      rw [removeOrphanFiles_other (installFiles_kept opts.platform f hf), cleanupOldFiles_other hold]

/-- An error stops the loop, and a file left for later defers the update. -/
theorem swapStage_status : (swapStage machine opts dir unzipped).status =
    (swapFiles machine unzipped (installFilesForPlatform opts.platform) dir false).2.toOption.map
      fun deferred => if deferred then .deferred else .updated := by
  unfold swapStage
  dsimp only
  split
  · rename_i heq
    rw [heq]
    rfl
  · rename_i heq
    rw [heq]
    split
    · rename_i hdeferred
      subst hdeferred
      rfl
    · rename_i hdeferred
      rw [Bool.not_eq_true] at hdeferred
      subst hdeferred
      rfl

/-! ## All or nothing -/

/-- Without an update the install is what it was; with one, each of its files came with the
verified archive and is now what came. -/
structure Atomic (v : Option Verified) (files : List InstallFile) (dir : Files)
    (o : Outcome) : Prop where
  nothing : o.status ≠ some .updated → ∀ f ∈ files, o.dir f.dest = dir f.dest
  all : o.status = some .updated → ∃ w, v = some w ∧ ∀ f ∈ files, ∃ data,
    w.unzipped.lookup f.source = some data ∧ o.dir f.dest = some data

/-- Whatever version the client reports of its own bytes, short of an update the next run compares
with the same one. -/
theorem Atomic.again {v : Option Verified} {o : Outcome} (h : Atomic v files dir o)
    (hstatus : o.status ≠ some .updated) {f : InstallFile} (hf : f ∈ files)
    (report : Option Bytes → String) :
    isNewer opts.manifest (report (o.dir f.dest)) = isNewer opts.manifest (report (dir f.dest)) := by
  rw [h.nothing hstatus f hf]

/-- Every file lands; or one does not, and whatever landed before was there already. -/
def Whole (machine : Machine) (unzipped : Archive) (dir : Files) (files : List InstallFile) : Prop :=
  (∀ f ∈ files, ∃ data, fate machine unzipped dir f = .lands data) ∨
    (∃ f ∈ files, (fate machine unzipped dir f).breaks = true) ∧ Harmless machine unzipped dir files

theorem fate_lands {f : InstallFile} {data : Bytes} (h : fate machine unzipped dir f = .lands data) :
    unzipped.lookup f.source = some data := by
  unfold fate at h
  split at h
  · cases h
  · rename_i present hlookup
    rw [hlookup]
    unfold swapFate at h
    dsimp only at h
    split at h
    · cases h
    · split at h
      · split at h <;> cases h
      · split at h
        · cases h
        · cases h
          rfl

theorem breaks_of_stopped {now : Fate} (h : now.stopped = true) : now.breaks = true := by
  cases now <;> first | rfl | cases h

/-- An entry that nothing holds back lands. -/
theorem lands_of_lookup {f : InstallFile} {data : Bytes} (h : unzipped.lookup f.source = some data)
    (hbreaks : (fate machine unzipped dir f).breaks = false) :
    ∃ landed, fate machine unzipped dir f = .lands landed := by
  cases hfate : fate machine unzipped dir f with
  | lands landed => exact ⟨landed, rfl⟩
  | absent =>
    simp only [fate, h, swapFate] at hfate
    split at hfate
    · cases hfate
    · split at hfate <;> split at hfate <;> cases hfate
  | defers =>
    rw [hfate] at hbreaks
    cases hbreaks
  | stops lost =>
    rw [hfate] at hbreaks
    cases hbreaks

theorem swapStage_updated (machine : Machine) (opts : UpdateCommandOptions) (dir : Files)
    (unzipped : Archive) : (swapStage machine opts dir unzipped).status = some .updated ↔
    ∀ f ∈ installFilesForPlatform opts.platform, (fate machine unzipped dir f).breaks = false := by
  have hswapped := swapFiles_swapped unzipped dir false (apart_installFiles machine opts.platform)
  rw [swapStage_status]
  by_cases hstopped : ∃ f ∈ installFilesForPlatform opts.platform,
      (fate machine unzipped dir f).stopped = true
  · obtain ⟨e, he⟩ := hswapped.stopped hstopped
    obtain ⟨f, hf, hstop⟩ := hstopped
    rw [he]
    simp only [Except.toOption, Option.map_none, reduceCtorEq, false_iff]
    intro h
    have hbreaks := h f hf
    rw [breaks_of_stopped hstop] at hbreaks
    cases hbreaks
  · simp only [not_exists, not_and, Bool.not_eq_true] at hstopped
    obtain ⟨hresult, -⟩ := hswapped.through hstopped
    rw [hresult]
    simp only [Bool.false_or, Except.toOption, Option.map_some, Option.some.injEq]
    have hany : (∀ f ∈ installFilesForPlatform opts.platform,
        (fate machine unzipped dir f).breaks = false) ↔ ((installFilesForPlatform opts.platform).any
          fun f => (fate machine unzipped dir f).breaks) = false := by simp
    rw [hany]
    cases (installFilesForPlatform opts.platform).any fun f => (fate machine unzipped dir f).breaks <;>
      simp

theorem swapStage_all_or_nothing {v : Verified} :
    Atomic (some v) (installFilesForPlatform opts.platform) dir
        (swapStage machine opts dir v.unzipped) ↔
      Whole machine v.unzipped dir (installFilesForPlatform opts.platform) := by
  have hswapped := swapFiles_swapped v.unzipped dir false (apart_installFiles machine opts.platform)
  have hdir := swapStage_dir machine opts dir v.unzipped
  have hupdated := swapStage_updated machine opts dir v.unzipped
  by_cases hgo : ∀ f ∈ installFilesForPlatform opts.platform,
      (fate machine v.unzipped dir f).breaks = false
  · have hstatus := hupdated.mpr hgo
    constructor
    · intro h
      left
      intro f hf
      obtain ⟨w, hw, hall⟩ := h.all hstatus
      cases hw
      obtain ⟨data, hlookup, -⟩ := hall f hf
      exact lands_of_lookup hlookup (hgo f hf)
    · rintro (hlands | ⟨⟨f, hf, hbreaks⟩, -⟩)
      · refine ⟨fun h => absurd hstatus h, fun _ => ⟨v, rfl, fun f hf => ?_⟩⟩
        obtain ⟨data, hdata⟩ := hlands f hf
        have hthrough := hswapped.through fun g hg => by
          obtain ⟨other, hother⟩ := hlands g hg
          rw [hother]
          rfl
        exact ⟨data, fate_lands hdata, by rw [hdir f hf, hthrough.2 f hf data hdata]⟩
      · rw [hgo f hf] at hbreaks
        cases hbreaks
  · have hstatus : (swapStage machine opts dir v.unzipped).status ≠ some .updated :=
      fun h => hgo (hupdated.mp h)
    simp only [not_forall, Bool.not_eq_false, exists_prop] at hgo
    constructor
    · intro h
      right
      refine ⟨hgo, hswapped.kept.mp fun f hf => ?_⟩
      rw [← hdir f hf, h.nothing hstatus f hf]
    · rintro (hlands | ⟨-, hharmless⟩)
      · obtain ⟨f, hf, hbreaks⟩ := hgo
        obtain ⟨data, hdata⟩ := hlands f hf
        rw [hdata] at hbreaks
        cases hbreaks
      · refine ⟨fun _ f hf => ?_, fun h => absurd h hstatus⟩
        rw [hdir f hf, hswapped.kept.mpr hharmless f hf]

/-- An update is all or nothing just where the swap of its files is. -/
theorem update_all_or_nothing_iff :
    Atomic (verified crates machine opts) (installFilesForPlatform opts.platform) dir
        (runUpdateCommand crates machine opts dir) ↔
      ∀ v, verified crates machine opts = some v →
        Whole machine v.unzipped dir (installFilesForPlatform opts.platform) := by
  obtain ⟨v, hv, hrun⟩ | ⟨hnone, hdir, hstatus⟩ := run_cases crates machine opts dir
  · rw [hrun, hv, swapStage_all_or_nothing]
    simp only [Option.some.injEq, forall_eq']
  · rw [hnone]
    constructor
    · intro _ v hv
      cases hv
    · intro _
      exact ⟨fun _ f _ => by rw [hdir], fun h => absurd h hstatus⟩

/-! ## A swap that stops half-way -/

/-- The text of so many zero bytes, with its padding. -/
def zeros (digits : Nat) (padding : String) : String :=
  String.ofList (List.replicate digits 'A') ++ padding

/-- A signed release of both files, with one byte for each; keys and signatures are all zeros. -/
def release (content : UInt8) : Crates where
  get url :=
    .ok { contentLength := none,
          read := fun _ => .ok (if url = "climon.zip.sig" then asBytes (zeros 86 "==") else [0x50]) }
  zipArchive _ :=
    .ok [.ok { isFile := true, name := "install", data := .ok [content] },
      .ok { isFile := true, name := "climon-server", data := .ok [content] }]
  base64Decode text := some (List.replicate (text.toList.count 'A' * 3 / 4) 0)
  validKey _ := true
  verifyStrict _ data sig := data == [0x50] && sig == List.replicate 64 0

/-- Linux, where nothing fails. -/
def linux : Machine where
  windows := false
  display name := "/opt/climon/" ++ name
  stamp _ := "4711-1720000000000"
  tempdir := none
  writeArtifact := none
  swap _ := SwapFaults.none
  cleanup _ := false
  orphans _ := false

/-- The server's file cannot be renamed over. -/
def stuckServer : Machine where
  __ := linux
  swap name :=
    { SwapFaults.none with
      place := if name = "climon-server" then
        some { permissionDenied := false, rawOsError := some 30, text := "Read-only file system" }
        else none }

def newerManifest : Manifest where
  version := "2.0.0"
  encryption := none
  artifacts := [("linux-x64", { url := "climon.zip", sig := "climon.zip.sig" })]

def updateFrom (version : String) : UpdateCommandOptions where
  currentVersion := version
  manifest := newerManifest
  publicKeyB64 := zeros 43 "="
  platform := "linux"
  arch := "x64"

/-- Both files of the old version. -/
def oldInstall : Files := fun name =>
  if name = "climon" ∨ name = "climon-server" then some [1] else none

theorem release_signature (content : UInt8) :
    downloadText (release content) "climon.zip.sig" maxTextBytes = .ok (zeros 86 "==") := by
  have hdownload : download (release content) "climon.zip.sig" maxTextBytes =
      .ok (asBytes (zeros 86 "==")) := by
    simp only [download, release, readBounded, Option.any_none, Bool.false_eq_true, if_false,
      if_true]
    rw [if_neg (by decide)]
  rw [downloadText, hdownload]
  simp only [Except.map, fromUtf8Lossy_asBytes]
  decide

def releaseVerified (content : UInt8) : Verified where
  artifact := { url := "climon.zip", sig := "climon.zip.sig" }
  zip := [0x50]
  unzipped := [("climon-server", [content]), ("install", [content])]

theorem release_verified (content : UInt8) (htempdir : machine.tempdir = none)
    (hwrite : machine.writeArtifact = none) :
    verified (release content) machine (updateFrom "1.0.0") = some (releaseVerified content) := by
  have hnewer : isNewer newerManifest "1.0.0" = true := by decide
  have hartifact : newerManifest.artifacts.lookup (artifactKey "linux" "x64") =
      some { url := "climon.zip", sig := "climon.zip.sig" } := by decide
  have hzip : download (release content) "climon.zip" maxArtifactBytes = .ok [0x50] := by rfl
  have hverify : verifySignature (release 0) [0x50] (zeros 86 "==") (zeros 43 "=") = true := by
    decide
  have hunzip : unzip (release content) [0x50] =
      .ok [("climon-server", [content]), ("install", [content])] := by rfl
  have hsame : verifySignature (release content) = verifySignature (release 0) := by rfl
  simp [verified, updateFrom, htempdir, hwrite, hnewer, hartifact, hzip, release_signature, hsame,
    hverify, hunzip, releaseVerified, Except.toOption]

theorem release_run (content : UInt8) (dir : Files) (htempdir : machine.tempdir = none)
    (hwrite : machine.writeArtifact = none) :
    runUpdateCommand (release content) machine (updateFrom "1.0.0") dir =
      swapStage machine (updateFrom "1.0.0") dir (releaseVerified content).unzipped := by
  have hverified := release_verified content htempdir hwrite
  obtain ⟨v, hv, hrun⟩ | ⟨hnone, -⟩ := run_cases (release content) machine
    (updateFrom "1.0.0") dir
  · rw [hverified] at hv
    cases hv
    exact hrun
  · rw [hverified] at hnone
    cases hnone

/-- The client is new, the server is old, and the next update has nothing to do. -/
theorem half_updated :
    let o := runUpdateCommand (release 2) stuckServer (updateFrom "1.0.0") oldInstall
    (o.status = none ∧ o.dir "climon" = some [2] ∧ o.dir "climon-server" = some [1]) ∧
      ¬ Atomic (verified (release 2) stuckServer (updateFrom "1.0.0"))
        (installFilesForPlatform "linux") oldInstall o ∧
      (runUpdateCommand (release 2) stuckServer (updateFrom newerManifest.version) o.dir).status =
        some .upToDate := by
  have hends : (swapStage stuckServer (updateFrom "1.0.0") oldInstall
        (releaseVerified 2).unzipped).status = none ∧
      (swapStage stuckServer (updateFrom "1.0.0") oldInstall
        (releaseVerified 2).unzipped).dir "climon" = some [2] ∧
      (swapStage stuckServer (updateFrom "1.0.0") oldInstall
        (releaseVerified 2).unzipped).dir "climon-server" = some [1] := by decide
  dsimp only
  rw [release_run 2 oldInstall rfl rfl]
  refine ⟨hends, ?_, ?_⟩
  · intro h
    have hkept := h.nothing (by rw [hends.1]; decide) { source := "install", dest := "climon" }
      (by decide)
    rw [hends.2.1] at hkept
    exact absurd hkept (by decide)
  · have hnewer : isNewer newerManifest newerManifest.version = false := isNewer_self _
    simp [runUpdateCommand, updateFrom, hnewer, Outcome.status, Except.toOption]

end Climon.Update.AllOrNothing
