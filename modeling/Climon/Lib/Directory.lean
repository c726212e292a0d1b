import Mathlib.Logic.Function.Basic
import Mathlib.Data.Option.Basic

namespace Climon.Lib.Directory

/-! # Directories of files -/

variable {N C : Type} [DecidableEq N]

/-- What stands under each name. -/
abbrev Directory (N C : Type) := N → Option C

namespace Directory

def write (d : Directory N C) (name : N) (content : C) : Directory N C :=
  Function.update d name (some content)

def remove (d : Directory N C) (name : N) : Directory N C := Function.update d name none

/-- Move a file over whatever the new name stands for; nothing happens without the file. -/
def rename (d : Directory N C) (src dst : N) : Directory N C :=
  if d src = none then d else Function.update (Function.update d dst (d src)) src none

variable {d : Directory N C} {name other src dst : N} {content : C}

@[simp] theorem write_same : d.write name content name = some content := by simp [write]

@[simp] theorem write_other (h : other ≠ name) : d.write name content other = d other := by
  simp [write, h]

@[simp] theorem remove_same : d.remove name name = none := by simp [remove]

@[simp] theorem remove_other (h : other ≠ name) : d.remove name other = d other := by
  simp [remove, h]

@[simp] theorem rename_other (hsrc : other ≠ src) (hdst : other ≠ dst) :
    d.rename src dst other = d other := by
  unfold rename
  split
  · rfl
  · simp [hsrc, hdst]

theorem rename_dst (h : d src ≠ none) (hne : dst ≠ src) : d.rename src dst dst = d src := by
  simp [rename, h, hne]

theorem rename_src (hne : dst ≠ src) : d.rename src dst src = none := by
  unfold rename
  split
  · assumption
  · simp

end Directory

end Climon.Lib.Directory
