import Climon.Lib.AssocList
import Climon.Store.Patch

namespace Climon.Store.SessionFiles

open Climon.Lib.AssocList Climon.Proto.Meta Climon.Store.Meta Climon.Store.Patch

/-!
# The session directory

The files of all sessions, by id. A patch is one step here; `Climon.Store.PatchRuns` shows that
concurrent ones serialise.
-/

/-- A metadata file is its parsed value, or `none` when it does not parse. -/
structure Directory where
  metas : List (String × Option SessionMeta)
  scrollback : String → Option (List UInt8)

namespace Directory

def lookup (d : Directory) (id : String) : Option (Option SessionMeta) := d.metas.lookup id

def readSessionMeta (d : Directory) (id : String) : Except StoreError (Option SessionMeta) :=
  match d.lookup id with
  | none => .ok none
  | some none => .error .json
  | some (some sessionMeta) => .ok (some (applyUserPausedOverlay sessionMeta))

/-- The path is made from the id inside the metadata. -/
def writeSessionMeta (d : Directory) (sessionMeta : SessionMeta) : Directory :=
  { d with
    metas := (sessionMeta.id, some sessionMeta) ::
      d.metas.filter fun file => file.1 != sessionMeta.id }

/-- Remove the metadata and, if there was any, the scrollback. -/
def removeSessionMeta (d : Directory) (id : String) : Directory :=
  match d.lookup id with
  | none => d
  | some _ =>
    { metas := d.metas.filter fun file => file.1 != id
      scrollback := Function.update d.scrollback id none }

/-- The overlaid metadata of every file that parses. -/
def listSessions (d : Directory) : List SessionMeta :=
  (d.metas.filterMap (·.2)).map applyUserPausedOverlay

def patchSessionMeta (d : Directory) (id : String) (patch : SessionMetaPatch) (now : String) :
    Directory :=
  match d.readSessionMeta id with
  | .ok (some current) => d.writeSessionMeta { mergePatch current patch with updatedAt := now }
  | _ => d

/-- Every file is named by the id inside it. -/
def Named (d : Directory) : Prop :=
  ∀ id sessionMeta, (id, some sessionMeta) ∈ d.metas → sessionMeta.id = id

/-- What a reader can find at an id is the same in both. -/
def SameAt (d e : Directory) (id : String) : Prop :=
  e.lookup id = d.lookup id ∧ e.scrollback id = d.scrollback id

end Directory

open Directory

theorem writeSessionMeta_sameAt (d : Directory) {sessionMeta : SessionMeta} {id : String}
    (h : id ≠ sessionMeta.id) : SameAt d (d.writeSessionMeta sessionMeta) id := by
  refine ⟨?_, rfl⟩
  unfold Directory.lookup Directory.writeSessionMeta
  dsimp only
  rw [List.lookup_cons, beq_eq_false_iff_ne.mpr h]
  exact lookup_filter_ne h

theorem removeSessionMeta_sameAt (d : Directory) {id key : String} (h : id ≠ key) :
    SameAt d (d.removeSessionMeta key) id := by
  unfold Directory.removeSessionMeta
  split
  · exact ⟨rfl, rfl⟩
  · exact ⟨lookup_filter_ne h, Function.update_of_ne h _ _⟩

theorem sameAt_trans {d e f : Directory} {id : String} (h : SameAt d e id) (k : SameAt e f id) :
    SameAt d f id :=
  ⟨k.1.trans h.1, k.2.trans h.2⟩

theorem mem_writeSessionMeta {d : Directory} {written : SessionMeta}
    {file : String × Option SessionMeta} (h : file ∈ (d.writeSessionMeta written).metas) :
    file = (written.id, some written) ∨ file ∈ d.metas := by
  rcases List.mem_cons.mp h with heq | hmem
  · exact .inl heq
  · exact .inr (List.mem_of_mem_filter hmem)

theorem mem_removeSessionMeta {d : Directory} {id : String} {file : String × Option SessionMeta}
    (h : file ∈ (d.removeSessionMeta id).metas) : file ∈ d.metas := by
  unfold Directory.removeSessionMeta at h
  split at h
  · exact h
  · exact List.mem_of_mem_filter h

/-- A patch that finds the file writes the merge of its overlaid value back under the same id. -/
theorem patchSessionMeta_cases (d : Directory) (id : String) (patch : SessionMetaPatch)
    (now : String) :
    d.patchSessionMeta id patch now = d ∨
      ∃ sessionMeta, (id, some sessionMeta) ∈ d.metas ∧ d.patchSessionMeta id patch now =
        d.writeSessionMeta
          { mergePatch (applyUserPausedOverlay sessionMeta) patch with updatedAt := now } := by
  unfold Directory.patchSessionMeta Directory.readSessionMeta
  cases h : d.lookup id with
  | none => exact .inl rfl
  | some content =>
    cases content with
    | none => exact .inl rfl
    | some sessionMeta => exact .inr ⟨sessionMeta, mem_of_lookup h, rfl⟩

theorem patchSessionMeta_sameAt {d : Directory} (hnamed : d.Named) {id key : String}
    (h : id ≠ key) (patch : SessionMetaPatch) (now : String) :
    SameAt d (d.patchSessionMeta key patch now) id := by
  rcases patchSessionMeta_cases d key patch now with heq | ⟨sessionMeta, hmem, heq⟩
  · rw [heq]
    exact ⟨rfl, rfl⟩
  · rw [heq]
    apply writeSessionMeta_sameAt
    have hid : (applyUserPausedOverlay sessionMeta).id = key :=
      (overlay_id sessionMeta).trans (hnamed key sessionMeta hmem)
    exact fun heq => h (heq.trans hid)

theorem mem_listSessions {d : Directory} {listed : SessionMeta} (h : listed ∈ d.listSessions) :
    ∃ id sessionMeta, (id, some sessionMeta) ∈ d.metas ∧
      applyUserPausedOverlay sessionMeta = listed := by
  obtain ⟨sessionMeta, hmem, rfl⟩ := List.mem_map.mp h
  obtain ⟨⟨id, content⟩, hfile, rfl⟩ := List.mem_filterMap.mp hmem
  exact ⟨id, sessionMeta, hfile, rfl⟩

end Climon.Store.SessionFiles
