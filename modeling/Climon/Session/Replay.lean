import Climon.Lib.Utf8

namespace Climon.Session.Replay

open Climon.Lib.Utf8

/-! # Scrollback and mouse-mode replay -/

/-- The captured PTY output, of which the oldest bytes past the cap are evicted. -/
structure Scrollback where
  data : List UInt8
  cap : Nat
  deriving DecidableEq, Repr

def Scrollback.new (cap : Nat) : Scrollback := ⟨[], cap⟩

def Scrollback.append (sb : Scrollback) (chunk : List UInt8) : Scrollback :=
  let data := sb.data ++ chunk
  { sb with data := if sb.cap < data.length then data.drop (data.length - sb.cap) else data }

def Scrollback.snapshot (sb : Scrollback) : List UInt8 := sb.data

/-- The last `n` bytes of a stream. -/
def lastBytes (n : Nat) (stream : List UInt8) : List UInt8 := stream.drop (stream.length - n)

@[simp] theorem Scrollback.append_cap (sb : Scrollback) (chunk : List UInt8) :
    (sb.append chunk).cap = sb.cap := rfl

theorem lastBytes_append_lastBytes (n : Nat) (stream chunk : List UInt8) :
    lastBytes n (lastBytes n stream ++ chunk) = lastBytes n (stream ++ chunk) := by
  unfold lastBytes
  by_cases h : stream.length ≤ n
  · rw [Nat.sub_eq_zero_of_le h, List.drop_zero]
  · have hdrop : (stream.drop (stream.length - n)).length = n := by
      rw [List.length_drop]
      omega
    rw [List.length_append, hdrop, List.length_append, List.drop_append, List.drop_append,
      List.drop_drop, hdrop]
    congr 2 <;> omega

/-- Evicting chunk by chunk keeps the same bytes as cutting the whole stream at the end. -/
theorem Scrollback.append_data {sb : Scrollback} {stream : List UInt8}
    (h : sb.data = lastBytes sb.cap stream) (chunk : List UInt8) :
    (sb.append chunk).data = lastBytes sb.cap (stream ++ chunk) := by
  rw [← lastBytes_append_lastBytes, ← h]
  simp only [Scrollback.append, lastBytes]
  split
  · rfl
  · rw [Nat.sub_eq_zero_of_le (by omega), List.drop_zero]

/-! ## Mouse private modes -/

/-- The name of a private mode, as its bytes in a control sequence. -/
abbrev Mode := List UInt8

def trackedMousePrivateModes : List Mode :=
  ["1000", "1002", "1003", "1005", "1006", "1015"].map asBytes

/-- `ESC [ ?` -/
def escCsiPrivateModePrefix : List UInt8 := [0x1B, 0x5B, 0x3F]

def isParamByte (b : UInt8) : Bool := (0x30 ≤ b && b ≤ 0x39) || b == 0x3B

def splitParams : List UInt8 → List Mode
  | [] => [[]]
  | b :: bytes =>
    if b = 0x3B then [] :: splitParams bytes
    else
      match splitParams bytes with
      | [] => [[b]]
      | param :: params => (b :: param) :: params

abbrev ModeState := List (Mode × Bool)

def ModeState.get (modes : ModeState) (mode : Mode) : Option Bool := modes.lookup mode

def ModeState.insert (modes : ModeState) (mode : Mode) (enabled : Bool) : ModeState :=
  (mode, enabled) :: modes.filter fun p => p.1 != mode

/-- The scan for complete set and reset controls, with the position of its next byte and the
end of the last complete control. -/
def scanModes (tracked : List Mode) (bytes : List UInt8) (pos lastEnd : Nat)
    (modes : ModeState) : Nat × ModeState :=
  match bytes with
  | [] => (lastEnd, modes)
  | b :: rest =>
    let params := (bytes.drop 3).takeWhile isParamByte
    let final := ((bytes.drop 3).drop params.length).head?
    if bytes.take 3 = escCsiPrivateModePrefix ∧ (final = some 0x68 ∨ final = some 0x6C) then
      let modes := (splitParams params).foldl (fun modes param =>
        if tracked.contains param then modes.insert param (final == some 0x68) else modes) modes
      let width := 3 + params.length + 1
      scanModes tracked (rest.drop (width - 1)) (pos + width) (pos + width) modes
    else scanModes tracked rest (pos + 1) lastEnd modes
termination_by bytes.length
decreasing_by
  all_goals simp only [List.length_drop, List.length_cons]; omega

def rfind (haystack needle : List UInt8) : Option Nat :=
  (List.range (haystack.length + 1)).reverse.find? fun i =>
    (haystack.drop i).take needle.length == needle

/-- Update the modes from the controls in `remainder ++ chunk` and return the incomplete control
at its end. -/
def trackMousePrivateModesFromOutput (modes : ModeState) (chunk remainder : List UInt8)
    (tracked : List Mode) : List UInt8 × ModeState :=
  let bytes := remainder ++ asBytes (fromUtf8Lossy chunk)
  let (lastEnd, modes) := scanModes tracked bytes 0 0 modes
  match rfind bytes escCsiPrivateModePrefix with
  | some start =>
    let trailing := bytes.drop start
    if lastEnd ≤ start ∧ (trailing.drop 3).all isParamByte then
      (trailing.drop (trailing.length - 64), modes)
    else ([], modes)
  | none => ([], modes)

def buildMousePrivateModeReplaySuffix (modes : ModeState) (tracked : List Mode) : List UInt8 :=
  tracked.flatMap fun mode =>
    if modes.get mode = some true then escCsiPrivateModePrefix ++ mode ++ [0x68] else []

/-- Reset every tracked mode before setting the enabled ones, since the local terminal may have
missed resets while its output was suppressed. -/
def buildMousePrivateModeRestoreSuffix (modes : ModeState) (tracked : List Mode) : List UInt8 :=
  (tracked.flatMap fun mode => escCsiPrivateModePrefix ++ mode ++ [0x6C]) ++
    buildMousePrivateModeReplaySuffix modes tracked

end Climon.Session.Replay
