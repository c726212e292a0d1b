import Climon.Cli.DetachChord
import Climon.Lib.Transition
import Climon.Proto.FrameCodec

namespace Climon.Cli.AttachClient

open Climon.Cli.DetachChord Climon.Lib.Framing Climon.Lib.Transition Climon.Proto.FrameCodec

/-!
# The attach client

One thread turns the frames of the daemon into output of the terminal, the other turns what is typed
into frames. They share the socket and two flags. Which surface controls the session decides whether
the terminal shows it or a notice.
-/

structure Size where
  cols : UInt16
  rows : UInt16
  deriving DecidableEq, Repr

structure LocalTerminalOutputGate where
  myViewerId : String
  displaced : Bool
  justRestored : Bool
  deriving DecidableEq

namespace LocalTerminalOutputGate

def new (myViewerId : String) : LocalTerminalOutputGate := ⟨myViewerId, false, false⟩

def setDisplaced (gate : LocalTerminalOutputGate) (displaced : Bool) : LocalTerminalOutputGate :=
  { gate with
    displaced := displaced
    justRestored := gate.justRestored || (gate.displaced && !displaced) }

def applyControl (gate : LocalTerminalOutputGate) (controllerId : String) :
    LocalTerminalOutputGate :=
  gate.setDisplaced (controllerId != gate.myViewerId)

def takeJustRestored (gate : LocalTerminalOutputGate) : Bool × LocalTerminalOutputGate :=
  (gate.justRestored, { gate with justRestored := false })

def writePtyOutput (gate : LocalTerminalOutputGate) (payload : List UInt8) :
    Option (List UInt8) :=
  if gate.displaced then none else some payload

end LocalTerminalOutputGate

/-- `ESC [ m ESC [ H ESC [ J` -/
def clearViewport : String := "\x1b[m\x1b[H\x1b[J"

/-- The scrollback is never erased. -/
def renderLocalDisplaced (size : Size) : String :=
  let w := max size.cols.toNat 1
  let h := max size.rows.toNat 1
  let row := max (h / 2) 1
  let line (i : Nat) (text : String) :=
    s!"\x1b[{row + i};{max ((w - text.utf8ByteSize) / 2 + 1) 1}H" ++ text
  clearViewport ++ line 0 "This session is being viewed on a climon dashboard." ++
    line 1 "Press Space to take control."

/-- What is written to the terminal. -/
inductive Write where
  | output (payload : List UInt8)
  | notice (size : Size)
  | clear
  deriving DecidableEq, Repr

def Write.bytes : Write → List UInt8
  | .output payload => payload
  | .notice size => (renderLocalDisplaced size).toUTF8.toList
  | .clear => clearViewport.toUTF8.toList

/-- A frame for the daemon. -/
inductive Sent where
  | resize (size : Size)
  | input (forward : List UInt8)
  | takeControl
  | replay
  deriving DecidableEq, Repr

inductive Entry where
  | wrote (write : Write)
  | sent (frame : Sent)
  deriving DecidableEq, Repr

/-- The JSON payloads, as `serde_json` reads them. -/
structure Payloads where
  exitCode : List UInt8 → Option Int
  controllerId : List UInt8 → Option String

structure Consumed where
  gate : LocalTerminalOutputGate
  out : List Write
  exitCode : Int
  requestReplay : Bool

def consumeFrame (payloads : Payloads) (frame : DecodedFrame) (size : Size)
    (gate : LocalTerminalOutputGate) (exitCode : Int) : Consumed :=
  match frame.frameType with
  | .output | .replay =>
    ⟨gate, ((gate.writePtyOutput frame.payload).map Write.output).toList, exitCode, false⟩
  | .exit => ⟨gate, [], (payloads.exitCode frame.payload).getD exitCode, false⟩
  | .control =>
    match payloads.controllerId frame.payload with
    | none => ⟨gate, [], exitCode, false⟩
    | some controllerId =>
      let gate := gate.applyControl controllerId
      if gate.displaced then ⟨gate, [.notice size], exitCode, false⟩
      else
        let (restored, gate) := gate.takeJustRestored
        if restored then ⟨gate, [.clear], exitCode, true⟩ else ⟨gate, [], exitCode, false⟩
  | _ => ⟨gate, [], exitCode, false⟩

/-! ## The two threads -/

/-- The frames of a read that the reader has not consumed yet. -/
structure Batch where
  frames : List DecodedFrame
  code : Int
  requestReplay : Bool

inductive InputLoop where
  | polling
  | sending (frames : List Sent) (action : InputAction)
  | ended

/-- The last three fields are what has come in so far. -/
structure State where
  size : Size
  winchPending : Bool
  decoder : FrameDecoder
  gate : LocalTerminalOutputGate
  batch : Option Batch
  exitCode : Int
  displaced : Bool
  done : Bool
  input : InputProcessor
  loop : InputLoop
  detached : Bool
  log : List Entry
  received : List UInt8
  consumed : List (DecodedFrame × Size)
  typed : List Read

def init (viewerId : String) (detachPrefix : UInt8) (size : Size) : State where
  size := size
  winchPending := false
  decoder := .new
  gate := .new viewerId
  batch := none
  exitCode := 0
  displaced := false
  done := false
  input := .new detachPrefix
  loop := .polling
  detached := false
  log := [.sent (.resize size)]
  received := []
  consumed := []
  typed := []

inductive Event where
  /-- The reader reads from the socket. -/
  | receive (chunk : List UInt8)
  | consume
  /-- The reader is through with what it read. -/
  | settle
  | hangUp
  | resized (size : Size)
  /-- The input loop tells the daemon of a resize. -/
  | forwardResize
  | type (chunk : List UInt8)
  | send
  | decide
  /-- The input loop ends for want of input, or since the reader is done. -/
  | quit
  deriving DecidableEq

/-- What a processed read makes the input loop send. -/
def ProcessedInput.frames (processed : ProcessedInput) : List Sent :=
  (if processed.forward = [] then [] else [.input processed.forward]) ++
    if processed.action = .takeControl then [.takeControl] else []

def next (payloads : Payloads) (s : State) : Event → Option State
  | .receive chunk =>
    match s.done, s.batch with
    | false, none =>
      let (frames, decoder) := s.decoder.push chunk
      some { s with
        decoder := decoder
        batch := some ⟨frames, s.exitCode, false⟩
        received := s.received ++ chunk }
    | _, _ => none
  | .consume =>
    match s.batch with
    | some ⟨frame :: frames, code, requestReplay⟩ =>
      let consumed := consumeFrame payloads frame s.size s.gate code
      some { s with
        gate := consumed.gate
        batch := some ⟨frames, consumed.exitCode, requestReplay || consumed.requestReplay⟩
        log := s.log ++ consumed.out.map .wrote
        consumed := s.consumed ++ [(frame, s.size)] }
    | _ => none
  | .settle =>
    match s.batch with
    | some ⟨[], code, requestReplay⟩ =>
      some { s with
        batch := none
        exitCode := code
        displaced := s.gate.displaced
        log := s.log ++ if requestReplay then [.sent .replay] else [] }
    | _ => none
  | .hangUp => if s.batch.isSome || s.done then none else some { s with done := true }
  | .resized size => some { s with size := size, winchPending := true }
  | .forwardResize =>
    match s.loop, s.winchPending with
    | .polling, true =>
      some { s with winchPending := false, log := s.log ++ [.sent (.resize s.size)] }
    | _, _ => none
  | .type chunk =>
    match s.loop with
    | .polling =>
      let (processed, input) := s.input.process chunk s.displaced
      some { s with
        input := input
        loop := .sending (ProcessedInput.frames processed) processed.action
        typed := s.typed ++ [⟨chunk, s.displaced⟩] }
    | _ => none
  | .send =>
    match s.loop with
    | .sending (frame :: frames) action =>
      some { s with loop := .sending frames action, log := s.log ++ [.sent frame] }
    | _ => none
  | .decide =>
    match s.loop with
    | .sending [] .detach => some { s with loop := .ended, detached := true }
    | .sending [] _ => some { s with loop := .polling }
    | _ => none
  | .quit =>
    match s.loop with
    | .polling => some { s with loop := .ended }
    | _ => none

structure AttachResult where
  detached : Bool
  exitCode : Int

/-- What the client ends with, once the input loop has ended and the reader has been joined. -/
def State.result (s : State) : Option AttachResult :=
  match s.loop, s.done with
  | .ended, true => some ⟨s.detached, s.exitCode⟩
  | _, _ => none

def Step (payloads : Payloads) (s : State) (e : Event) (t : State) : Prop :=
  next payloads s e = some t

/-! ## What the frames say -/

section

variable (payloads : Payloads) (viewerId : String)

def controllerId? (frame : DecodedFrame) : Option String :=
  if frame.frameType = .control then payloads.controllerId frame.payload else none

def exitCode? (frame : DecodedFrame) : Option Int :=
  if frame.frameType = .exit then payloads.exitCode frame.payload else none

/-- Another surface is the last one that was named. -/
def displacedBy (frames : List DecodedFrame) : Bool :=
  (frames.filterMap (controllerId? payloads)).getLast?.any (· != viewerId)

def lastExitCode (frames : List DecodedFrame) : Int :=
  (frames.filterMap (exitCode? payloads)).getLast?.getD 0

/-- What a frame puts on a terminal that is displaced or not. -/
def shown (displaced : Bool) (frame : DecodedFrame) (size : Size) : List Write :=
  match frame.frameType with
  | .output | .replay => if displaced then [] else [.output frame.payload]
  | .control =>
    match payloads.controllerId frame.payload with
    | none => []
    | some controllerId =>
      if controllerId ≠ viewerId then [.notice size] else if displaced then [.clear] else []
  | _ => []

def screen : List DecodedFrame → List (DecodedFrame × Size) → List Write
  | _, [] => []
  | before, (frame, size) :: rest =>
    shown payloads viewerId (displacedBy payloads viewerId before) frame size ++
      screen (before ++ [frame]) rest

end

def Entry.write? : Entry → Option Write
  | .wrote write => some write
  | .sent _ => none

/-- What the input loop has sent, the sizes apart. -/
def Entry.input? : Entry → Option Sent
  | .sent (.input forward) => some (.input forward)
  | .sent .takeControl => some .takeControl
  | _ => none

/-- A cleared screen waits for a replay to be asked for. -/
def owed (log : List Entry) : Bool :=
  log.foldl (fun owed entry =>
    match entry with
    | .wrote .clear => true
    | .sent .replay => false
    | _ => owed) false

def InputLoop.outbox : InputLoop → List Sent
  | .sending frames _ => frames
  | .polling | .ended => []

def State.waiting (s : State) : List DecodedFrame := s.batch.elim [] (·.frames)

def State.code (s : State) : Int := s.batch.elim s.exitCode (·.code)

section

variable {payloads : Payloads} {viewerId : String} {frame : DecodedFrame} {size : Size}
  {gate : LocalTerminalOutputGate} {code : Int} {log : List Entry} {frames : List DecodedFrame}

theorem displacedBy_concat : displacedBy payloads viewerId (frames ++ [frame]) =
    (controllerId? payloads frame).elim (displacedBy payloads viewerId frames) (· != viewerId) := by
  unfold displacedBy
  rw [List.filterMap_append]
  cases h : controllerId? payloads frame <;> simp [h]

theorem lastExitCode_concat : lastExitCode payloads (frames ++ [frame]) =
    (exitCode? payloads frame).getD (lastExitCode payloads frames) := by
  unfold lastExitCode
  rw [List.filterMap_append]
  cases h : exitCode? payloads frame <;> simp [h]

theorem screen_concat (before : List DecodedFrame) (consumed : List (DecodedFrame × Size)) :
    screen payloads viewerId before (consumed ++ [(frame, size)]) =
      screen payloads viewerId before consumed ++ shown payloads viewerId
        (displacedBy payloads viewerId (before ++ consumed.map (·.1))) frame size := by
  induction consumed generalizing before with
  | nil => simp [screen]
  | cons first consumed ih =>
    rw [List.cons_append, screen, screen, ih, List.append_assoc, List.map_cons, List.append_assoc,
      List.singleton_append]

@[simp] theorem owed_append (more : List Entry) : owed (log ++ more) =
    more.foldl (fun owed entry =>
      match entry with
      | .wrote .clear => true
      | .sent .replay => false
      | _ => owed) (owed log) := by
  rw [owed, List.foldl_append]
  rfl

/-- What a frame does to a gate whose edge has been taken. -/
structure Consumes (payloads : Payloads) (frame : DecodedFrame) (size : Size)
    (gate : LocalTerminalOutputGate) (code : Int) (consumed : Consumed) : Prop where
  viewer : consumed.gate.myViewerId = gate.myViewerId
  taken : consumed.gate.justRestored = false
  displaced : consumed.gate.displaced =
    (controllerId? payloads frame).elim gate.displaced (· != gate.myViewerId)
  out : consumed.out = shown payloads gate.myViewerId gate.displaced frame size
  exitCode : consumed.exitCode = (exitCode? payloads frame).getD code
  requests : consumed.requestReplay = true ↔ .clear ∈ consumed.out

theorem consumes (h : gate.justRestored = false) :
    Consumes payloads frame size gate code (consumeFrame payloads frame size gate code) := by
  obtain ⟨viewerId, displaced, justRestored⟩ := gate
  obtain ⟨frameType, payload⟩ := frame
  cases h
  cases frameType
  case output | replay =>
    cases displaced <;> exact ⟨rfl, rfl, rfl, rfl, rfl, by simp [consumeFrame,
      LocalTerminalOutputGate.writePtyOutput]⟩
  case control =>
    cases hid : payloads.controllerId payload with
    | none => constructor <;> simp [consumeFrame, controllerId?, exitCode?, shown, hid]
    | some controllerId =>
      by_cases hviewer : controllerId = viewerId
      · subst hviewer
        cases displaced <;> constructor <;> simp [consumeFrame, controllerId?, exitCode?, shown, hid,
          LocalTerminalOutputGate.applyControl, LocalTerminalOutputGate.setDisplaced,
          LocalTerminalOutputGate.takeJustRestored]
      · constructor <;> simp [consumeFrame, controllerId?, exitCode?, shown, hid, hviewer,
          LocalTerminalOutputGate.applyControl, LocalTerminalOutputGate.setDisplaced]
  all_goals exact ⟨rfl, rfl, rfl, rfl, rfl, by simp [consumeFrame]⟩

theorem owed_wrote (out : List Write) :
    owed (log ++ out.map .wrote) = (owed log || decide (.clear ∈ out)) := by
  induction out generalizing log with
  | nil => simp
  | cons write out ih =>
    rw [List.map_cons, ← List.singleton_append, ← List.append_assoc, ih]
    cases write <;> simp

theorem owed_sent {frame : Sent} (h : frame ≠ .replay) :
    owed (log ++ [.sent frame]) = owed log := by
  cases frame <;> simp at h ⊢

/-- A replay is only asked for where a cleared screen waits for it. -/
def Asked (log : List Entry) : Prop :=
  ∀ front back, log = front ++ .sent .replay :: back → owed front = true

theorem Asked.append {more : List Entry} (h : Asked log) (hmore : .sent .replay ∉ more) :
    Asked (log ++ more) := by
  intro front back heq
  rcases List.append_eq_append_iff.mp heq with ⟨c, rfl, hc⟩ | ⟨c, rfl, hc⟩
  · rw [hc] at hmore
    exact absurd (List.mem_append_right c List.mem_cons_self) hmore
  · cases c with
    | nil =>
      rw [List.nil_append] at hc
      rw [← hc] at hmore
      exact absurd List.mem_cons_self hmore
    | cons entry c =>
      rw [List.cons_append, List.cons.injEq] at hc
      obtain ⟨rfl, -⟩ := hc
      exact h front c rfl

theorem Asked.request (h : Asked log) (howed : owed log = true) : Asked (log ++ [.sent .replay]) := by
  intro front back heq
  rcases List.eq_nil_or_concat back with rfl | ⟨back, entry, rfl⟩
  · rw [List.append_cancel_right heq] at howed
    exact howed
  · rw [List.concat_eq_append, ← List.cons_append, ← List.append_assoc] at heq
    exact h front back (List.append_inj_left' heq rfl)

/-- The processor after reads none of which detached. -/
def afterReads (input : InputProcessor) (reads : List Read) : InputProcessor :=
  reads.foldl (fun input read => (input.process read.chunk read.displaced).2) input

theorem runReads_concat {input : InputProcessor} {reads : List Read} {read : Read}
    (h : ∀ processed ∈ runReads input reads, processed.action ≠ .detach) :
    runReads input (reads ++ [read]) = runReads input reads ++
      [((afterReads input reads).process read.chunk read.displaced).1] := by
  induction reads generalizing input with
  | nil => simp [runReads, afterReads]
  | cons first reads ih =>
    have hfirst : (input.process first.chunk first.displaced).1.action ≠ .detach := by
      apply h
      rw [runReads]
      split <;> exact List.mem_cons_self
    rw [runReads] at h
    rw [if_neg hfirst, List.forall_mem_cons] at h
    rw [List.cons_append, runReads, runReads]
    rw [if_neg hfirst, if_neg hfirst, ih h.2, List.cons_append]
    rfl

theorem frames_plain (processed : ProcessedInput) :
    ∀ frame ∈ ProcessedInput.frames processed, (Entry.sent frame).input? = some frame := by
  intro frame hframe
  unfold ProcessedInput.frames at hframe
  rcases List.mem_append.mp hframe with hforward | haction
  · split at hforward
    · cases hforward
    · rw [List.mem_singleton.mp hforward]
      rfl
  · split at haction
    · rw [List.mem_singleton.mp haction]
      rfl
    · cases haction

end

/-! ## The invariant -/

/-- The reads of the input loop end with one that detaches. -/
def LoopHolds (detachPrefix : UInt8) (typed : List Read) (detached : Bool) : InputLoop → Prop
  | .polling =>
    detached = false ∧ ∀ processed ∈ runReads (.new detachPrefix) typed, processed.action ≠ .detach
  | .sending _ action => detached = false ∧ ∃ reads read, typed = reads ++ [read] ∧
      (∀ processed ∈ runReads (.new detachPrefix) reads, processed.action ≠ .detach) ∧
      action = ((afterReads (.new detachPrefix) reads).process read.chunk read.displaced).1.action
  | .ended => detached = true ↔
      ∃ processed ∈ runReads (.new detachPrefix) typed, processed.action = .detach

structure Inv (payloads : Payloads) (viewerId : String) (detachPrefix : UInt8) (s : State) :
    Prop where
  decoder : (grammar.parse s.received).ending = .waiting s.decoder.buffer
  frames : s.consumed.map (·.1) ++ s.waiting = (grammar.parse s.received).messages
  viewer : s.gate.myViewerId = viewerId
  taken : s.gate.justRestored = false
  displaced : s.gate.displaced = displacedBy payloads viewerId (s.consumed.map (·.1))
  screen : s.log.filterMap Entry.write? = screen payloads viewerId [] s.consumed
  code : s.code = lastExitCode payloads (s.consumed.map (·.1))
  flag : s.batch = none → s.displaced = s.gate.displaced
  done : s.done = true → s.batch = none
  owes : owed s.log = s.batch.any (·.requestReplay)
  asked : Asked s.log
  plain : ∀ frame ∈ s.loop.outbox, (Entry.sent frame).input? = some frame
  typed : s.log.filterMap Entry.input? ++ s.loop.outbox =
    (runReads (.new detachPrefix) s.typed).flatMap ProcessedInput.frames
  input : s.input = afterReads (.new detachPrefix) s.typed
  loop : LoopHolds detachPrefix s.typed s.detached s.loop

section

variable {payloads : Payloads} {viewerId : String} {detachPrefix : UInt8} {size : Size}
  {s t : State}

theorem inv_init : Inv payloads viewerId detachPrefix (init viewerId detachPrefix size) where
  decoder := by
    obtain ⟨rest, hrest⟩ := parse_ending []
    have hshort : grammar.scan [] = .short := scan_of_none rfl
    change (grammar.parse []).ending = .waiting []
    rw [grammar.parse_short hshort]
  frames := by
    have hshort : grammar.scan [] = .short := scan_of_none rfl
    change [] = (grammar.parse []).messages
    rw [grammar.parse_short hshort]
  viewer := rfl
  taken := rfl
  displaced := rfl
  screen := rfl
  code := rfl
  flag _ := rfl
  done h := by cases h
  owes := rfl
  asked := by
    intro front back heq
    cases front with
    | nil => cases heq
    | cons entry front => simp [init] at heq
  plain := by simp [init, InputLoop.outbox]
  typed := rfl
  input := rfl
  loop := ⟨rfl, by simp [init, runReads]⟩

theorem Inv.received (h : Inv payloads viewerId detachPrefix s) {chunk : List UInt8}
    (hdone : s.done = false) (hbatch : s.batch = none) :
    Inv payloads viewerId detachPrefix { s with
      decoder := (s.decoder.push chunk).2
      batch := some ⟨(s.decoder.push chunk).1, s.exitCode, false⟩
      received := s.received ++ chunk } := by
  obtain ⟨rest, hrest⟩ := parse_ending (s.decoder.buffer ++ chunk)
  have hpush := push_eq s.decoder chunk rest hrest
  have hparse := grammar.parse_append_waiting chunk h.decoder
  have hframes := h.frames
  have hcode := h.code
  have howed := h.owes
  unfold State.waiting at hframes
  unfold State.code at hcode
  rw [hbatch] at hframes hcode howed
  refine { h with decoder := ?_, frames := ?_, code := hcode, flag := ?_, done := ?_, owes := howed }
  · change (grammar.parse (s.received ++ chunk)).ending = _
    rw [hparse, Parse.ending_after, hrest, hpush]
  · change s.consumed.map (·.1) ++ (s.decoder.push chunk).1 =
      (grammar.parse (s.received ++ chunk)).messages
    rw [hparse, Parse.messages_after, hpush, ← hframes]
    simp
  · intro hnone
    cases hnone
  · intro hdone'
    cases hdone.symm.trans hdone'

theorem Inv.consumed (h : Inv payloads viewerId detachPrefix s) {frame : DecodedFrame}
    {frames : List DecodedFrame} {code : Int} {requestReplay : Bool}
    (hbatch : s.batch = some ⟨frame :: frames, code, requestReplay⟩) {result : Consumed}
    (hresult : Consumes payloads frame s.size s.gate code result) :
    Inv payloads viewerId detachPrefix { s with
      gate := result.gate
      batch := some ⟨frames, result.exitCode, requestReplay || result.requestReplay⟩
      log := s.log ++ result.out.map .wrote
      consumed := s.consumed ++ [(frame, s.size)] } := by
  have hframes := h.frames
  have hcode := h.code
  have howed := h.owes
  unfold State.waiting at hframes
  unfold State.code at hcode
  rw [hbatch] at hframes hcode howed
  have hout : result.out = shown payloads viewerId
      (displacedBy payloads viewerId (s.consumed.map (·.1))) frame s.size := by
    rw [hresult.out, h.viewer, h.displaced]
  have hinput : (result.out.map Entry.wrote).filterMap Entry.input? = [] := by
    rw [List.filterMap_map]
    exact List.filterMap_eq_nil_iff.mpr fun write _ => rfl
  refine { h with
    frames := ?_, viewer := hresult.viewer.trans h.viewer, taken := hresult.taken,
    displaced := ?_, screen := ?_, code := ?_, flag := ?_, done := ?_, owes := ?_, asked := ?_,
    typed := ?_ }
  · change (s.consumed ++ [(frame, s.size)]).map (·.1) ++ frames = _
    rw [← hframes]
    simp
  · change result.gate.displaced = _
    rw [hresult.displaced, h.viewer, h.displaced, List.map_append]
    exact displacedBy_concat.symm
  · change (s.log ++ result.out.map Entry.wrote).filterMap Entry.write? = _
    rw [List.filterMap_append, h.screen, screen_concat, hout, List.filterMap_map]
    exact congrArg _ (List.filterMap_some ..)
  · change result.exitCode = _
    rw [hresult.exitCode, List.map_append]
    rw [show code = _ from hcode]
    exact lastExitCode_concat.symm
  · intro hnone
    cases hnone
  · intro hdone
    have hnone := h.done hdone
    rw [hbatch] at hnone
    cases hnone
  · change owed (s.log ++ result.out.map Entry.wrote) = (requestReplay || result.requestReplay)
    rw [owed_wrote, howed]
    change (requestReplay || _) = _
    rw [Bool.eq_iff_iff.mpr ((decide_eq_true_iff).trans hresult.requests.symm)]
  · refine h.asked.append fun hmem => ?_
    obtain ⟨write, -, hwrite⟩ := List.mem_map.mp hmem
    cases hwrite
  · change (s.log ++ result.out.map Entry.wrote).filterMap Entry.input? ++ s.loop.outbox = _
    rw [List.filterMap_append, hinput, List.append_nil]
    exact h.typed

/-- Frames of the reader are none of the input loop's. -/
theorem Inv.settled (h : Inv payloads viewerId detachPrefix s) {code : Int} {requestReplay : Bool}
    (hbatch : s.batch = some ⟨[], code, requestReplay⟩) :
    Inv payloads viewerId detachPrefix { s with
      batch := none
      exitCode := code
      displaced := s.gate.displaced
      log := s.log ++ if requestReplay then [.sent .replay] else [] } := by
  have hframes := h.frames
  have hcode := h.code
  have howed := h.owes
  unfold State.waiting at hframes
  unfold State.code at hcode
  rw [hbatch] at hframes hcode howed
  refine { h with
    frames := hframes, code := hcode, screen := ?_, flag := fun _ => rfl, done := fun _ => rfl,
    owes := ?_, asked := ?_, typed := ?_ }
  · change (s.log ++ if requestReplay then [Entry.sent .replay] else []).filterMap Entry.write? = _
    rw [List.filterMap_append, ← h.screen]
    cases requestReplay <;> simp [Entry.write?]
  · cases requestReplay with
    | false => exact (congrArg owed (List.append_nil _)).trans howed
    | true => simp
  · cases requestReplay with
    | false => exact h.asked.append (by simp)
    | true => exact h.asked.request howed
  · change (s.log ++ if requestReplay then [Entry.sent .replay] else []).filterMap Entry.input? ++
      s.loop.outbox = _
    rw [List.filterMap_append, ← h.typed]
    cases requestReplay <;> simp [Entry.input?]

theorem Inv.resizeForwarded (h : Inv payloads viewerId detachPrefix s) :
    Inv payloads viewerId detachPrefix { s with
      winchPending := false
      log := s.log ++ [.sent (.resize s.size)] } := by
  refine { h with screen := ?_, owes := ?_, asked := ?_, typed := ?_ }
  · change (s.log ++ [Entry.sent (.resize s.size)]).filterMap Entry.write? = _
    rw [List.filterMap_append, ← h.screen]
    exact List.append_nil _
  · exact (owed_sent (by simp)).trans h.owes
  · exact h.asked.append (by simp)
  · change (s.log ++ [Entry.sent (.resize s.size)]).filterMap Entry.input? ++ s.loop.outbox = _
    rw [List.filterMap_append, ← h.typed]
    exact congrArg (· ++ _) (List.append_nil _)

theorem Inv.typedChunk (h : Inv payloads viewerId detachPrefix s) (hloop : s.loop = .polling)
    (chunk : List UInt8) :
    Inv payloads viewerId detachPrefix { s with
      input := (s.input.process chunk s.displaced).2
      loop := .sending (ProcessedInput.frames (s.input.process chunk s.displaced).1)
        (s.input.process chunk s.displaced).1.action
      typed := s.typed ++ [⟨chunk, s.displaced⟩] } := by
  have hholds := h.loop
  have htyped := h.typed
  rw [hloop] at hholds htyped
  obtain ⟨hdetached, hquiet⟩ := hholds
  refine { h with plain := ?_, typed := ?_, input := ?_, loop := ?_ }
  · exact frames_plain _
  · change s.log.filterMap Entry.input? ++ ProcessedInput.frames _ =
      (runReads (.new detachPrefix) (s.typed ++ [⟨chunk, s.displaced⟩])).flatMap _
    rw [runReads_concat hquiet, List.flatMap_append, ← htyped, ← h.input]
    simp [InputLoop.outbox]
  · change (s.input.process chunk s.displaced).2 =
      afterReads (.new detachPrefix) (s.typed ++ [⟨chunk, s.displaced⟩])
    rw [afterReads, List.foldl_append, h.input]
    rfl
  · refine ⟨hdetached, s.typed, _, rfl, hquiet, ?_⟩
    rw [h.input]

theorem Inv.sent (h : Inv payloads viewerId detachPrefix s) {frame : Sent} {frames : List Sent}
    {action : InputAction} (hloop : s.loop = .sending (frame :: frames) action) :
    Inv payloads viewerId detachPrefix { s with
      loop := .sending frames action
      log := s.log ++ [.sent frame] } := by
  have hholds := h.loop
  have htyped := h.typed
  have hplain := h.plain
  rw [hloop] at hholds htyped hplain
  rw [InputLoop.outbox, List.forall_mem_cons] at hplain
  refine { h with
    screen := ?_, owes := ?_, asked := ?_, plain := hplain.2, typed := ?_, loop := hholds }
  · change (s.log ++ [Entry.sent frame]).filterMap Entry.write? = _
    rw [List.filterMap_append, ← h.screen]
    exact List.append_nil _
  · refine (owed_sent ?_).trans h.owes
    rintro rfl
    cases hplain.1
  · refine h.asked.append ?_
    rw [List.mem_singleton, Entry.sent.injEq]
    rintro rfl
    cases hplain.1
  · change (s.log ++ [Entry.sent frame]).filterMap Entry.input? ++ frames = _
    rw [List.filterMap_append, ← htyped]
    simp [InputLoop.outbox, hplain.1]

theorem Inv.ended (h : Inv payloads viewerId detachPrefix s) (hloop : s.loop = .polling) :
    Inv payloads viewerId detachPrefix { s with loop := .ended } := by
  have hholds := h.loop
  have htyped := h.typed
  rw [hloop] at hholds htyped
  refine { h with plain := by simp [InputLoop.outbox], typed := htyped, loop := ?_ }
  obtain ⟨hdetached, hquiet⟩ := hholds
  change s.detached = true ↔ _
  rw [hdetached]
  simp only [Bool.false_eq_true, false_iff, not_exists, not_and]
  exact hquiet

/-- What follows the last frame of a read. -/
theorem Inv.decided (h : Inv payloads viewerId detachPrefix s) {action : InputAction}
    (hloop : s.loop = .sending [] action) :
    Inv payloads viewerId detachPrefix (if action = .detach then
      { s with loop := .ended, detached := true } else { s with loop := .polling }) := by
  have hholds := h.loop
  have htyped := h.typed
  rw [hloop] at hholds htyped
  obtain ⟨hdetached, reads, read, hreads, hquiet, haction⟩ := hholds
  have hresults := @runReads_concat _ reads read hquiet
  rw [← hreads] at hresults
  split
  next hdetach =>
    refine { h with plain := by simp [InputLoop.outbox], typed := htyped, loop := ?_ }
    change true = true ↔ _
    rw [hresults]
    refine iff_of_true rfl ⟨_, List.mem_append_right _ (List.mem_singleton_self _), ?_⟩
    rw [← haction, hdetach]
  next hdetach =>
    refine { h with plain := by simp [InputLoop.outbox], typed := htyped, loop := ?_ }
    refine ⟨hdetached, ?_⟩
    rw [hresults, List.forall_mem_append, List.forall_mem_singleton, ← haction]
    exact ⟨hquiet, hdetach⟩

theorem inv_step {e : Event} (h : Inv payloads viewerId detachPrefix s)
    (hstep : Step payloads s e t) : Inv payloads viewerId detachPrefix t := by
  unfold Step at hstep
  cases e with
  | receive chunk =>
    rw [next] at hstep
    split at hstep
    next hdone hbatch =>
      cases hstep
      exact h.received hdone hbatch
    · cases hstep
  | consume =>
    rw [next] at hstep
    split at hstep
    next hbatch =>
      cases hstep
      exact h.consumed hbatch (consumes h.taken)
    · cases hstep
  | settle =>
    rw [next] at hstep
    split at hstep
    next hbatch =>
      cases hstep
      exact h.settled hbatch
    · cases hstep
  | hangUp =>
    rw [next] at hstep
    split at hstep
    · cases hstep
    next hidle =>
      cases hstep
      rw [Bool.or_eq_true, not_or] at hidle
      exact { h with done := fun _ => Option.not_isSome_iff_eq_none.mp hidle.1 }
  | resized size =>
    cases hstep
    exact { h with }
  | forwardResize =>
    rw [next] at hstep
    split at hstep
    · cases hstep
      exact h.resizeForwarded
    · cases hstep
  | type chunk =>
    rw [next] at hstep
    split at hstep
    next hloop =>
      cases hstep
      exact h.typedChunk hloop chunk
    · cases hstep
  | send =>
    rw [next] at hstep
    split at hstep
    next hloop =>
      cases hstep
      exact h.sent hloop
    · cases hstep
  | decide =>
    rw [next] at hstep
    split at hstep
    next hloop =>
      cases hstep
      exact h.decided hloop
    next hne hloop =>
      cases hstep
      have hdecided := h.decided hloop
      rw [if_neg hne] at hdecided
      exact hdecided
    · cases hstep
  | quit =>
    rw [next] at hstep
    split at hstep
    next hloop =>
      cases hstep
      exact h.ended hloop
    · cases hstep

end

/-! ## Runs -/

/-- The terminal shows what the session puts out while this surface controls it or nobody has been
named, and a notice else; what was typed reaches the daemon in order, up to the detach chord. -/
structure Faithful (payloads : Payloads) (viewerId : String) (detachPrefix : UInt8) (s : State) :
    Prop where
  frames : s.consumed.map (·.1) ++ s.waiting = (grammar.parse s.received).messages
  screen : s.log.filterMap Entry.write? = screen payloads viewerId [] s.consumed
  displaced : s.batch = none →
    s.displaced = displacedBy payloads viewerId (s.consumed.map (·.1))
  asked : Asked s.log
  answered : s.batch = none → owed s.log = false
  typed : s.log.filterMap Entry.input? ++ s.loop.outbox =
    (runReads (.new detachPrefix) s.typed).flatMap ProcessedInput.frames
  result : ∀ result, s.result = some result →
    s.consumed.map (·.1) = (grammar.parse s.received).messages ∧
    result.exitCode = lastExitCode payloads (grammar.parse s.received).messages ∧
    (result.detached = true ↔
      ∃ processed ∈ runReads (.new detachPrefix) s.typed, processed.action = .detach)

section

variable {payloads : Payloads} {viewerId : String} {detachPrefix : UInt8} {size : Size}
  {s : State} {es : List Event}

/-- A fresh decoder reads whole frames. -/
theorem push_encodeAll (frames : List WireFrame) :
    FrameDecoder.new.push (encodeAll frames) = (frames.filterMap WireFrame.decoded, .new) := by
  have hnil : grammar.parse [] = ⟨[], .waiting []⟩ := grammar.parse_short (scan_of_none rfl)
  have hparse := parse_encodeAll frames []
  rw [List.append_nil, hnil] at hparse
  rw [push_eq FrameDecoder.new (encodeAll frames) []]
  · rw [FrameDecoder.new, List.nil_append, hparse]
    exact congrArg (·, _) (List.append_nil _)
  · rw [FrameDecoder.new, List.nil_append, hparse]
    rfl

theorem receive_step {chunk : List UInt8} {frames : List DecodedFrame} {decoder : FrameDecoder}
    (hpush : s.decoder.push chunk = (frames, decoder)) (hdone : s.done = false)
    (hbatch : s.batch = none) :
    Step payloads s (.receive chunk) { s with
      decoder := decoder
      batch := some ⟨frames, s.exitCode, false⟩
      received := s.received ++ chunk } := by
  unfold Step
  rw [next, hdone, hbatch]
  simp only [hpush]

end

def ascii (text : String) : List UInt8 := text.toList.map fun c => UInt8.ofNat c.toNat

def webControls : List UInt8 :=
  ascii "\x7b\"controllerId\":\"web\",\"cols\":80,\"rows\":24\x7d"

def terminalControls : List UInt8 :=
  ascii "\x7b\"controllerId\":\"terminal-7\",\"cols\":80,\"rows\":24\x7d"

def exitThree : List UInt8 := ascii "\x7b\"exitCode\":3\x7d"

def samplePayloads : Payloads where
  exitCode payload := if payload = exitThree then some 3 else none
  controllerId payload :=
    if payload = webControls then some "web"
    else if payload = terminalControls then some "terminal-7"
    else none

def firstFrames : List WireFrame := [.known .control webControls (by decide)]

def laterFrames : List WireFrame := [.known .output [0x41] (by decide),
  .known .control terminalControls (by decide), .known .output [0x42] (by decide),
  .known .exit exitThree (by decide)]

/-- Displaced, the terminal asks for control and gets it; what was put out meanwhile is not shown. -/
def reclaiming : List Event := [
  .receive (encodeAll firstFrames), .consume, .settle, .type [takeControlKey], .send, .decide,
  .receive (encodeAll laterFrames), .consume, .consume, .consume, .consume, .settle, .hangUp, .quit]

end Climon.Cli.AttachClient
