import Climon.Lib.Selection
import Climon.Session.MouseModes

namespace Climon.Session.MouseRestore

open Climon.Lib.Selection Climon.Lib.Utf8 Climon.Session.Replay Climon.Session.ModeControls
open Climon.Session.MouseModes

/-! # The mouse state of a terminal after a replay or a restore -/

/-- A complete set or reset control, with any parameter list. -/
structure ModeControl extends Control where
  valid : params.all isParamByte = true

def ModeControl.bytes (c : ModeControl) : List UInt8 :=
  escCsiPrivateModePrefix ++ c.params ++ [if c.enabled then 0x68 else 0x6C]

/-- The output of an application that emits these controls. -/
def output (emitted : List ModeControl) : List UInt8 := emitted.flatMap ModeControl.bytes

/-! ## The terminal -/

/-- A parameter is its decimal value to a terminal, leading zeros or not. -/
def value (param : Mode) : Nat := param.foldl (fun n b => 10 * n + (b.toNat - 0x30)) 0

/-- The member of a family of modes that a parameter names to a terminal. -/
def named {α : Type} (all : List α) (mode : α → Mode) (param : Mode) : Option α :=
  all.find? fun a => value (mode a) == value param

/-- A family of modes of which a terminal has one or none selected. -/
structure Family (α : Type) where
  all : List α
  mode : α → Mode
  complete : ∀ a, a ∈ all
  ascending : all.Pairwise fun a b => value (mode a) < value (mode b)
  listed : trackedMousePrivateModes.filterMap (named all mode) = all
  spelled : ∀ param ∈ trackedMousePrivateModes, ∀ a, named all mode param = some a → mode a = param

inductive Protocol where
  | normal
  | buttonEvent
  | anyEvent
  deriving DecidableEq, Repr

def Protocol.mode : Protocol → Mode
  | normal => asBytes "1000"
  | buttonEvent => asBytes "1002"
  | anyEvent => asBytes "1003"

inductive Encoding where
  | utf8
  | sgr
  | urxvt
  deriving DecidableEq, Repr

def Encoding.mode : Encoding → Mode
  | utf8 => asBytes "1005"
  | sgr => asBytes "1006"
  | urxvt => asBytes "1015"

def protocols : Family Protocol where
  all := [.normal, .buttonEvent, .anyEvent]
  mode := Protocol.mode
  complete := by rintro ⟨⟩ <;> decide
  ascending := by decide
  listed := by decide
  spelled := by decide

def encodings : Family Encoding where
  all := [.utf8, .sgr, .urxvt]
  mode := Encoding.mode
  complete := by rintro ⟨⟩ <;> decide
  ascending := by decide
  listed := by decide
  spelled := by decide

/-- The protocol and the encoding of mouse reports; without a protocol there are no reports, and
without an encoding they have the default one. -/
@[ext] structure Mouse where
  protocol : Option Protocol
  encoding : Option Encoding
  deriving DecidableEq, Repr

def fresh : Mouse := ⟨none, none⟩

def Family.named {α : Type} (F : Family α) (param : Mode) : Option α :=
  MouseRestore.named F.all F.mode param

/-- Setting a member of a family selects it, resetting any member selects none. -/
def Family.apply {α : Type} (F : Family α) (now : Option α) (param : Mode) (enabled : Bool) :
    Option α :=
  match F.named param with
  | some a => if enabled then some a else none
  | none => now

def Mouse.setMode (mouse : Mouse) (enabled : Bool) (param : Mode) : Mouse :=
  ⟨protocols.apply mouse.protocol param enabled, encodings.apply mouse.encoding param enabled⟩

def Mouse.apply (mouse : Mouse) (control : Control) : Mouse :=
  (splitParams control.params).foldl (fun mouse param => mouse.setMode control.enabled param) mouse

/-- The mouse state after all controls of a stream, in their order. -/
def Mouse.receive (mouse : Mouse) (stream : List UInt8) : Mouse :=
  ((controls 0 stream).map Prod.snd).foldl Mouse.apply mouse

/-! ## The controls of an output -/

theorem lex_bytes (c : ModeControl) (rest : List UInt8) (pos : Nat) :
    lex pos .idle (c.bytes ++ rest) =
      ((pos, c.toControl) :: (lex (pos + c.width) .idle rest).1,
        (lex (pos + c.width) .idle rest).2) := by
  have hfinal : ∀ enabled : Bool, (Lexer.params c.params c.valid).step
      (if enabled then 0x68 else 0x6C) = (.idle, some ⟨c.params, enabled⟩) := by
    rintro ⟨⟩ <;> simp [Lexer.step, isParamByte]
  have hwidth : pos + (escCsiPrivateModePrefix ++ c.params).length + 1 = pos + c.width := by
    simp [escCsiPrivateModePrefix, Control.width]
    omega
  have hstart : pos + (escCsiPrivateModePrefix ++ c.params).length -
      (Lexer.params c.params c.valid).read.length = pos := by
    simp [Lexer.read]
  have hread := lex_read (.params c.params c.valid) pos
  rw [Lexer.read] at hread
  rw [ModeControl.bytes, List.append_assoc, lex_append, hread]
  simp only [List.singleton_append, lex, hfinal, hwidth, hstart]
  rfl

theorem lex_output (emitted : List ModeControl) (pos : Nat) :
    (lex pos .idle (output emitted)).1.map Prod.snd = emitted.map ModeControl.toControl ∧
      (lex pos .idle (output emitted)).2 = .idle := by
  induction emitted generalizing pos with
  | nil => exact ⟨rfl, rfl⟩
  | cons c emitted ih =>
    rw [output, List.flatMap_cons, lex_bytes]
    refine ⟨?_, (ih _).2⟩
    rw [List.map_cons, List.map_cons]
    exact congrArg _ (ih _).1

theorem controls_output (emitted : List ModeControl) :
    (controls 0 (output emitted)).map Prod.snd = emitted.map ModeControl.toControl := by
  rw [← lex_idle]
  exact (lex_output emitted 0).1

theorem receive_output (mouse : Mouse) (emitted : List ModeControl) :
    mouse.receive (output emitted) =
      (emitted.map ModeControl.toControl).foldl Mouse.apply mouse := by
  rw [Mouse.receive, controls_output]

/-- The modes tracked over chunks of whole controls are those of all controls in order. -/
theorem trackChunks_output (tracked : List Mode) (modes : ModeState)
    (sent : List (List ModeControl)) :
    trackChunks tracked modes [] (sent.map output) =
      applyAll tracked modes (controls 0 (output sent.flatten)) := by
  rw [applyAll, controls_output]
  induction sent generalizing modes with
  | nil => rfl
  | cons chunk sent ih =>
    have hlex := lex_output chunk 0
    rw [List.map_cons, trackChunks, track_eq tracked modes _ [] 0, List.nil_append, hlex.2]
    dsimp only
    rw [applyAll, hlex.1, List.flatten_cons, List.map_append, List.foldl_append]
    exact ih _

/-! ## Families of modes -/

/-- What the parameters of the controls do, one after the other. -/
def settings (cs : List Control) : List (Mode × Bool) :=
  cs.flatMap fun c => (splitParams c.params).map fun param => (param, c.enabled)

section

variable {α : Type} (F : Family α)

/-- The sets and resets that concern a family. -/
def Family.events (settings : List (Mode × Bool)) : List (α × Bool) :=
  settings.filterMap fun setting => (F.named setting.1).map fun a => (a, setting.2)

theorem Family.foldl_apply (now : Option α) (settings : List (Mode × Bool)) :
    settings.foldl (fun now setting => F.apply now setting.1 setting.2) now =
      select now (F.events settings) := by
  induction settings generalizing now with
  | nil => rfl
  | cons setting settings ih =>
    rw [List.foldl_cons, ih, Family.apply, Family.events, Family.events, List.filterMap_cons]
    cases F.named setting.1 <;> rfl

theorem Family.events_append (first second : List (Mode × Bool)) :
    F.events (first ++ second) = F.events first ++ F.events second :=
  List.filterMap_append

theorem Family.events_map (params : List Mode) (enabled : Bool) :
    F.events (params.map fun param => (param, enabled)) =
      (params.filterMap F.named).map fun a => (a, enabled) := by
  rw [Family.events, List.filterMap_map, List.map_filterMap]
  rfl

/-- Of the tracked modes that are on, those of a family are its members that are on. -/
theorem Family.filterMap_tracked (on : Mode → Bool) :
    (trackedMousePrivateModes.filter on).filterMap F.named =
      F.all.filter fun a => on (F.mode a) := by
  conv => rhs; rw [← F.listed]
  rw [List.filterMap_filter, List.filter_filterMap]
  apply List.filterMap_congr
  intro param hparam
  have hspelled := F.spelled param hparam
  change (if on param = true then MouseRestore.named F.all F.mode param else none) =
    (MouseRestore.named F.all F.mode param).filter _
  cases hnamed : MouseRestore.named F.all F.mode param with
  | none => simp
  | some a =>
    rw [← hspelled a hnamed, Option.filter_some]

theorem Family.mode_tracked (a : α) : F.mode a ∈ trackedMousePrivateModes := by
  have hmem := F.complete a
  rw [← F.listed, List.mem_filterMap] at hmem
  obtain ⟨param, hparam, hnamed⟩ := hmem
  rwa [F.spelled param hparam a hnamed]

theorem Family.all_ne_nil (a : α) : F.all ≠ [] := List.ne_nil_of_mem (F.complete a)

end

theorem foldl_setMode (mouse : Mouse) (settings : List (Mode × Bool)) :
    settings.foldl (fun mouse setting => mouse.setMode setting.2 setting.1) mouse =
      ⟨select mouse.protocol (protocols.events settings),
        select mouse.encoding (encodings.events settings)⟩ := by
  rw [← Family.foldl_apply, ← Family.foldl_apply]
  induction settings generalizing mouse with
  | nil => rfl
  | cons setting settings ih => exact ih _

theorem foldl_apply (mouse : Mouse) (cs : List Control) :
    cs.foldl Mouse.apply mouse =
      ⟨select mouse.protocol (protocols.events (settings cs)),
        select mouse.encoding (encodings.events (settings cs))⟩ := by
  rw [← foldl_setMode]
  induction cs generalizing mouse with
  | nil => rfl
  | cons c cs ih =>
    rw [List.foldl_cons, ih, settings, settings, List.flatMap_cons, List.foldl_append,
      List.foldl_map]
    rfl

/-! ## The two suffixes -/

/-- A mode that is set or reset by a control of its own. -/
def spell (setting : Mode × Bool) : List UInt8 :=
  escCsiPrivateModePrefix ++ setting.1 ++ [if setting.2 then 0x68 else 0x6C]

theorem tracked_single : ∀ mode ∈ trackedMousePrivateModes,
    mode.all isParamByte = true ∧ splitParams mode = [mode] := by
  decide

theorem receive_spell (mouse : Mouse) {changes : List (Mode × Bool)}
    (h : ∀ setting ∈ changes, setting.1 ∈ trackedMousePrivateModes) :
    mouse.receive (changes.flatMap spell) =
      ⟨select mouse.protocol (protocols.events changes),
        select mouse.encoding (encodings.events changes)⟩ := by
  have hvalid : ∀ setting ∈ changes, setting.1.all isParamByte = true := by
    intro setting hsetting
    exact (tracked_single _ (h setting hsetting)).1
  have houtput : changes.flatMap spell =
      output (changes.pmap (fun setting hset => ⟨⟨setting.1, setting.2⟩, hset⟩) hvalid) := by
    rw [output, List.flatMap_def, List.flatMap_def, List.map_pmap]
    exact congrArg _ (List.pmap_eq_map ..).symm
  have hsettings : settings (changes.map fun setting => ⟨setting.1, setting.2⟩) = changes := by
    rw [settings, List.flatMap_map]
    refine Eq.trans (List.flatMap_congr ?_) (List.flatMap_singleton' changes)
    intro setting hsetting
    rw [(tracked_single _ (h setting hsetting)).2]
    rfl
  rw [houtput, receive_output, List.map_pmap, List.pmap_eq_map, foldl_apply, hsettings]

section

variable (modes : ModeState)

def isOn (mode : Mode) : Bool := modes.get mode == some true

theorem replaySuffix_eq (tracked : List Mode) :
    buildMousePrivateModeReplaySuffix modes tracked =
      ((tracked.filter (isOn modes)).map fun mode => (mode, true)).flatMap spell := by
  induction tracked with
  | nil => rfl
  | cons mode tracked ih =>
    rw [buildMousePrivateModeReplaySuffix, List.flatMap_cons]
    rw [buildMousePrivateModeReplaySuffix] at ih
    by_cases hon : modes.get mode = some true
    · rw [if_pos hon, ih, List.filter_cons_of_pos (by simp [isOn, hon])]
      rfl
    · rw [if_neg hon, ih, List.filter_cons_of_neg (by simp [isOn, hon])]
      rfl

theorem restoreSuffix_eq (tracked : List Mode) :
    buildMousePrivateModeRestoreSuffix modes tracked =
      (tracked.map (fun mode => (mode, false)) ++
        (tracked.filter (isOn modes)).map fun mode => (mode, true)).flatMap spell := by
  rw [buildMousePrivateModeRestoreSuffix, replaySuffix_eq, List.flatMap_append]
  apply congrArg (· ++ _)
  rw [List.flatMap_map]
  rfl

/-- A replay leaves a fresh terminal with the last members that are on. -/
theorem receive_replaySuffix :
    fresh.receive (buildMousePrivateModeReplaySuffix modes trackedMousePrivateModes) =
      ⟨select none ((protocols.all.filter fun a => isOn modes a.mode).map fun a => (a, true)),
        select none ((encodings.all.filter fun a => isOn modes a.mode).map fun a => (a, true))⟩ := by
  have htracked : ∀ setting ∈ (trackedMousePrivateModes.filter (isOn modes)).map
      fun mode => (mode, true), setting.1 ∈ trackedMousePrivateModes := by
    intro setting hsetting
    rw [List.mem_map] at hsetting
    obtain ⟨mode, hmode, rfl⟩ := hsetting
    exact (List.mem_filter.mp hmode).1
  rw [replaySuffix_eq, receive_spell _ htracked, Family.events_map, Family.events_map,
    Family.filterMap_tracked, Family.filterMap_tracked]
  rfl

/-- A restore leaves every terminal as a replay leaves a fresh one. -/
theorem receive_restoreSuffix (prior : Mouse) :
    prior.receive (buildMousePrivateModeRestoreSuffix modes trackedMousePrivateModes) =
      fresh.receive (buildMousePrivateModeReplaySuffix modes trackedMousePrivateModes) := by
  have htracked : ∀ setting ∈ trackedMousePrivateModes.map (fun mode => (mode, false)) ++
      (trackedMousePrivateModes.filter (isOn modes)).map fun mode => (mode, true),
      setting.1 ∈ trackedMousePrivateModes := by
    intro setting hsetting
    rw [List.mem_append, List.mem_map, List.mem_map] at hsetting
    rcases hsetting with ⟨mode, hmode, rfl⟩ | ⟨mode, hmode, rfl⟩
    · exact hmode
    · exact (List.mem_filter.mp hmode).1
  have hprotocols := protocols.all_ne_nil .normal
  have hencodings := encodings.all_ne_nil .sgr
  rw [restoreSuffix_eq, receive_spell _ htracked, receive_replaySuffix]
  simp only [Family.events_append, Family.events_map, select_append, Family.filterMap_tracked]
  have hlistedP : trackedMousePrivateModes.filterMap protocols.named = protocols.all :=
    protocols.listed
  have hlistedE : trackedMousePrivateModes.filterMap encodings.named = encodings.all :=
    encodings.listed
  rw [hlistedP, hlistedE, select_resets hprotocols, select_resets hencodings]
  rfl

end

/-! ## Replay and restore against the whole sequence -/

/-- The tracked map after an application has emitted its controls, some in each chunk. -/
def trackedModes (sent : List (List ModeControl)) : ModeState :=
  trackChunks trackedMousePrivateModes [] [] (sent.map output)

/-- Restoring any terminal and replaying to a fresh one both end in the mouse state of a terminal
that received the whole sequence. -/
def Restores (sent : List (List ModeControl)) : Prop :=
  (∀ prior : Mouse,
    prior.receive (buildMousePrivateModeRestoreSuffix (trackedModes sent)
      trackedMousePrivateModes) = fresh.receive (output sent.flatten)) ∧
  fresh.receive (buildMousePrivateModeReplaySuffix (trackedModes sent)
    trackedMousePrivateModes) = fresh.receive (output sent.flatten)

section

variable {α : Type} (F : Family α) (emitted : List ModeControl)

/-- The last control with exactly this mode among its parameters sets it. -/
def Family.LeftSet (a : α) : Prop :=
  lastSet (F.mode a) (controls 0 (output emitted)) = some true

/-- The last parameter that names a member of the family to a terminal, and whether it is set. -/
def Family.lastEvent : Option (α × Bool) :=
  (F.events (settings (emitted.map ModeControl.toControl))).getLast?

/-- The family is left with the greatest member that is left set, or without one where none is. -/
def Family.EndsGreatest : Prop :=
  match F.lastEvent emitted with
  | some (a, true) =>
    F.LeftSet emitted a ∧
      ∀ b, F.LeftSet emitted b → value (F.mode b) ≤ value (F.mode a)
  | _ => ∀ b, ¬ F.LeftSet emitted b

end

theorem isOn_trackedModes {α : Type} (F : Family α) (sent : List (List ModeControl)) (a : α) :
    isOn (trackedModes sent) (F.mode a) = true ↔ F.LeftSet sent.flatten a := by
  rw [isOn, beq_iff_eq, trackedModes, trackChunks_output, get_applyAll,
    if_pos (F.mode_tracked a), Family.LeftSet]
  cases lastSet (F.mode a) (controls 0 (output sent.flatten)) with
  | none => rfl
  | some enabled => rfl

theorem endsGreatest_iff {α : Type} (F : Family α) (sent : List (List ModeControl)) :
    select none ((F.all.filter fun a => isOn (trackedModes sent) (F.mode a)).map
        fun a => (a, true)) =
      select none (F.events (settings (sent.flatten.map ModeControl.toControl))) ↔
      F.EndsGreatest sent.flatten := by
  have hoff : ∀ b, isOn (trackedModes sent) (F.mode b) = false ↔ ¬ F.LeftSet sent.flatten b := by
    intro b
    rw [← isOn_trackedModes, Bool.not_eq_true]
  rw [replay_eq_select_iff F.ascending, select_eq, Family.EndsGreatest, Family.lastEvent]
  rcases (F.events (settings (sent.flatten.map ModeControl.toControl))).getLast? with
    _ | ⟨a, _ | _⟩
  · simp [hoff, F.complete]
  · simp [chosen, hoff, F.complete]
  · simp [chosen, isOn_trackedModes, F.complete]

theorem replay_eq_iff (sent : List (List ModeControl)) :
    fresh.receive (buildMousePrivateModeReplaySuffix (trackedModes sent)
        trackedMousePrivateModes) = fresh.receive (output sent.flatten) ↔
      protocols.EndsGreatest sent.flatten ∧ encodings.EndsGreatest sent.flatten := by
  rw [receive_replaySuffix, receive_output, foldl_apply, Mouse.mk.injEq, ← endsGreatest_iff,
    ← endsGreatest_iff]
  rfl

/-- Restore and replay end as the application's own output does exactly when that leaves the
protocol and the encoding of the greatest mode that is left set. -/
theorem restores_iff (sent : List (List ModeControl)) :
    Restores sent ↔
      protocols.EndsGreatest sent.flatten ∧ encodings.EndsGreatest sent.flatten := by
  rw [← replay_eq_iff]
  constructor
  · intro h
    exact h.2
  · intro h
    refine ⟨?_, h⟩
    intro prior
    rw [receive_restoreSuffix, h]

/-- `ESC[?1000h`, `ESC[?1002h` and `ESC[?1002l`: no mouse reports are left on. -/
def turnedOff : List ModeControl :=
  [⟨⟨asBytes "1000", true⟩, by decide⟩, ⟨⟨asBytes "1002", true⟩, by decide⟩,
    ⟨⟨asBytes "1002", false⟩, by decide⟩]

/-- A replay turns them on again. -/
theorem turned_off_replayed : ¬ ∀ sent, Restores sent := by
  intro hall
  have hreplay := (replay_eq_iff [turnedOff]).mp (hall [turnedOff]).2
  have hleft : protocols.LeftSet turnedOff .normal := by
    rw [Family.LeftSet]
    decide
  exact hreplay.1 .normal hleft

end Climon.Session.MouseRestore
