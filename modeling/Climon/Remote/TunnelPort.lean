import Climon.Cli.Args
import Climon.Lib.JsonNumbers

namespace Climon.Remote.TunnelPort

open Climon.Cli.Args Climon.Lib.JsonValue

/-! # The port mapping of the ingest tunnel -/

structure RemoteHostState where
  tunnelId : String
  ingestPort : UInt16
  ingestHost : Option String
  canHost : Option Bool
  deriving DecidableEq, Repr

/-- `none` is a file that is absent or no JSON document. -/
def readRemoteHostState (file : Option Json) : Option RemoteHostState := do
  let value ← file
  let tunnelId ← (value.get? "tunnelId").bind Json.asStr
  let ingestPortNum ← (value.get? "ingestPort").bind Json.asF64
  if ingestPortNum.den ≠ 1 ∨ ingestPortNum ≤ 0 then none
  else
    some
      { tunnelId
        ingestPort := saturateU16 ingestPortNum
        ingestHost := ((value.get? "ingestHost").bind Json.asStr).filter (· ≠ "")
        canHost := (value.get? "canHost").bind Json.asBool }

def RemoteHostState.toJson (state : RemoteHostState) : Json :=
  .object <|
    [("tunnelId", .string state.tunnelId),
      ("ingestPort", .number (.posInt state.ingestPort.toUInt64))] ++
      (state.ingestHost.map fun host => ("ingestHost", Json.string host)).toList ++
      (state.canHost.map fun can => ("canHost", Json.bool can)).toList

/-! ## Commands -/

structure RunResult where
  status : Int32
  stdout : String
  stderr : String
  deriving DecidableEq, Repr

/-- What `devtunnel` is run with: `create --json`, `port create <id> -p <port>` and
`port delete <id> -p <port>`. -/
inductive Command where
  | create
  | portCreate (tunnelId : String) (port : UInt16)
  | portDelete (tunnelId : String) (port : UInt16)
  deriving DecidableEq, Repr

/-- The state file, and the commands that have run with their results. -/
structure World where
  file : Option Json
  log : List (Command × RunResult)

def World.run (w : World) (command : Command) (result : RunResult) : World :=
  { w with log := w.log ++ [(command, result)] }

def World.write (w : World) (state : RemoteHostState) : World :=
  { w with file := some state.toJson }

/-- What the commands of one call come back with, and why a state file is not written. -/
structure Answers where
  del : RunResult
  add : RunResult
  create : RunResult
  portCreate : RunResult
  createdError : Option String
  updatedError : Option String

/-! ## Creating a tunnel -/

/-- The first run of six or more alphanumerics; `run` is the current one, backwards. -/
def alphanumericRun (run : List Char) : List Char → Option (List Char)
  | [] => if 6 ≤ run.length then some run.reverse else none
  | c :: rest =>
    if c.isAlphanum then alphanumericRun (c :: run) rest
    else if 6 ≤ run.length then some run.reverse
    else alphanumericRun [] rest

section

variable (fromStr : String → Option Json)

def parseTunnelId (stdout : String) : Option String :=
  match fromStr stdout with
  | some value =>
    match (value.get? "tunnelId").bind Json.asStr with
    | some id => some id
    | none => ((value.get? "tunnel").bind (·.get? "tunnelId")).bind Json.asStr
  | none => (alphanumericRun [] stdout.toList).map String.ofList

def detail (result : RunResult) : String :=
  let text := trim result.stderr
  if text = "" then toString result.status.toInt else text

def createTunnel (ingestPort : UInt16) (a : Answers) (w : World) :
    World × Except String RemoteHostState :=
  let w := w.run .create a.create
  if a.create.status ≠ 0 then (w, .error ("devtunnel create failed: " ++ detail a.create))
  else
    match parseTunnelId fromStr a.create.stdout with
    | none => (w, .error "Could not parse tunnel id from `devtunnel create` output.")
    | some tunnelId =>
      let w := w.run (.portCreate tunnelId ingestPort) a.portCreate
      if a.portCreate.status ≠ 0 then
        (w, .error ("devtunnel port create failed: " ++ detail a.portCreate))
      else
        let state : RemoteHostState :=
          { tunnelId, ingestPort, ingestHost := none, canHost := some true }
        match a.createdError with
        | none => (w.write state, .ok state)
        | some error => (w, .error error)

/-! ## Following the ingest -/

structure ReconcileResult where
  changed : Bool
  port : UInt16
  recreated : Bool
  deriving DecidableEq, Repr

def recordPort (state : RemoteHostState) (actualPort : UInt16) (a : Answers) (w : World) :
    World × Except String ReconcileResult :=
  let updated := { state with ingestPort := actualPort }
  match a.updatedError with
  | none => (w.write updated, .ok { changed := true, port := actualPort, recreated := false })
  | some error => (w, .error error)

def reconcileTunnelPort (actualPort : UInt16) (a : Answers) (w : World) :
    World × Except String ReconcileResult :=
  match readRemoteHostState w.file with
  | none => (w, .ok { changed := false, port := actualPort, recreated := false })
  | some state =>
    if state.ingestPort = actualPort then
      (w, .ok { changed := false, port := actualPort, recreated := false })
    else if state.canHost = some true then
      let w := w.run (.portDelete state.tunnelId state.ingestPort) a.del
      let w := w.run (.portCreate state.tunnelId actualPort) a.add
      if a.add.status ≠ 0 then
        match createTunnel fromStr actualPort a w with
        | (w, .ok fresh) =>
          (w, .ok { changed := true, port := fresh.ingestPort, recreated := true })
        | (w, .error _) => recordPort state actualPort a w
      else recordPort state actualPort a w
    else recordPort state actualPort a w

end

/-! ## Truthful states -/

/-- The mapping was created, and not removed since. -/
def Mapped (log : List (Command × RunResult)) (tunnelId : String) (port : UInt16) : Prop :=
  ∃ before result after, log = before ++ (.portCreate tunnelId port, result) :: after ∧
    result.status = 0 ∧ ∀ e ∈ after, ¬ (e.1 = .portDelete tunnelId port ∧ e.2.status = 0)

/-- A hosted tunnel has the mapping that the file names. -/
def Truthful (w : World) : Prop :=
  ∀ state ∈ readRemoteHostState w.file, state.canHost = some true →
    Mapped w.log state.tunnelId state.ingestPort

section

variable {log : List (Command × RunResult)} {tunnelId : String} {port : UInt16}

theorem mapped_append {c : Command} {result : RunResult} :
    Mapped (log ++ [(c, result)]) tunnelId port ↔
      c = .portCreate tunnelId port ∧ result.status = 0 ∨
        Mapped log tunnelId port ∧ ¬ (c = .portDelete tunnelId port ∧ result.status = 0) := by
  constructor
  · rintro ⟨before, created, after, hlog, hstatus, hafter⟩
    rcases List.eq_nil_or_concat after with rfl | ⟨middle, e, rfl⟩
    · have hlast := (List.append_inj' hlog rfl).2
      rw [List.cons.injEq, Prod.mk.injEq] at hlast
      refine .inl ⟨hlast.1.1, ?_⟩
      rw [hlast.1.2]
      exact hstatus
    · rw [List.concat_eq_append] at hafter
      rw [List.concat_eq_append, ← List.cons_append, ← List.append_assoc] at hlog
      have hsplit := List.append_inj' hlog rfl
      refine .inr ⟨⟨before, created, middle, hsplit.1, hstatus, fun e he =>
        hafter e (List.mem_append_left _ he)⟩, ?_⟩
      have hend := hafter e (List.mem_append_right _ (List.mem_singleton_self e))
      rwa [← List.singleton_inj.mp hsplit.2] at hend
  · rintro (⟨rfl, hstatus⟩ | ⟨⟨before, created, after, rfl, hstatus, hafter⟩, hlast⟩)
    · refine ⟨log, result, [], rfl, hstatus, ?_⟩
      intro e he
      cases he
    · refine ⟨before, created, after ++ [(c, result)], by simp, hstatus, ?_⟩
      intro e he
      rcases List.mem_append.mp he with hold | hnew
      · exact hafter e hold
      · rw [List.mem_singleton.mp hnew]
        exact hlast

/-- Commands for other mappings change nothing. -/
theorem mapped_append_other {more : List (Command × RunResult)}
    (h : ∀ e ∈ more, e.1 ≠ .portCreate tunnelId port ∧ e.1 ≠ .portDelete tunnelId port) :
    Mapped (log ++ more) tunnelId port ↔ Mapped log tunnelId port := by
  induction more generalizing log with
  | nil => rw [List.append_nil]
  | cons e more ih =>
    rw [List.forall_mem_cons] at h
    have hother : Mapped (log ++ [e]) tunnelId port ↔ Mapped log tunnelId port := by
      rw [mapped_append]
      simp [h.1.1, h.1.2]
    rw [List.append_cons, ih h.2, hother]

theorem readRemoteHostState_toJson (state : RemoteHostState) :
    readRemoteHostState (some state.toJson) =
      if state.ingestPort = 0 then none
      else some { state with ingestHost := state.ingestHost.filter (· ≠ "") } := by
  have hport : state.ingestPort.toNat < 65536 := state.ingestPort.toNat_lt
  have hnumber : (Number.posInt state.ingestPort.toUInt64).asF64 =
      (state.ingestPort.toNat : Rat) := by
    change ((roundToDouble state.ingestPort.toUInt64.toNat : Nat) : Rat) = _
    rw [UInt16.toNat_toUInt64, roundToDouble_of_small (by omega)]
  have hsat : saturateU16 (state.ingestPort.toNat : Rat) = state.ingestPort := by
    have hfloor : (state.ingestPort.toNat : Rat).floor.toNat = state.ingestPort.toNat := by
      rw [Rat.floor_def]
      exact congrArg Int.toNat (Int.ediv_one _)
    unfold saturateU16
    rw [hfloor, Nat.min_eq_right (by omega), UInt16.ofNat_toNat]
  have hzero : (state.ingestPort.toNat : Rat) ≤ 0 ↔ state.ingestPort = 0 := by
    rw [← Nat.cast_zero, Nat.cast_le, Nat.le_zero, ← UInt16.toNat_inj]
    rfl
  cases state with
  | mk tunnelId ingestPort ingestHost canHost =>
    dsimp only at *
    unfold readRemoteHostState RemoteHostState.toJson
    cases ingestHost <;> cases canHost <;>
      simp [Json.get?, Json.asStr, Json.asF64, Json.asBool, List.lookup_cons, hnumber, hsat, hzero]

end

/-! ## Runs -/

structure Call where
  actualPort : UInt16
  answers : Answers

section

variable (fromStr : String → Option Json)

def step (w : World) (c : Call) : World := (reconcileTunnelPort fromStr c.actualPort c.answers w).1

def run (w : World) (calls : List Call) : World := calls.foldl (step fromStr) w

/-- The hosted state whose mapping a call moves. -/
def Moves (w : World) (c : Call) (state : RemoteHostState) : Prop :=
  readRemoteHostState w.file = some state ∧ state.canHost = some true ∧
    state.ingestPort ≠ c.actualPort

/-- The fallback sets up and records a new tunnel. -/
def Recreates (a : Answers) : Prop :=
  a.create.status = 0 ∧ (parseTunnelId fromStr a.create.stdout).isSome ∧ a.portCreate.status = 0 ∧
    a.createdError = none

/-- The call sets out to map its port and does not manage to. -/
def Failed (w : World) (c : Call) : Prop :=
  (∃ state, Moves w c state) ∧ c.answers.add.status ≠ 0 ∧ ¬ Recreates fromStr c.answers

/-- Another call for the port asks for its mapping. -/
def TriesAgain (w : World) (port : UInt16) : Prop :=
  ∀ a, ∃ tunnelId added, (step fromStr w ⟨port, a⟩).log = w.log ++ added ∧
    ∃ result, (.portCreate tunnelId port, result) ∈ added

/-- What a call on a hosted tunnel is to meet. -/
def Sound (w : World) (c : Call) : Prop :=
  (∃ state, Moves w c state) →
    if c.answers.add.status = 0 then
      c.answers.updatedError = none ∨ c.answers.del.status ≠ 0
    else
      Recreates fromStr c.answers ∨ c.answers.updatedError ≠ none ∧ c.answers.del.status ≠ 0

section

variable {fromStr} {w : World} {c : Call} {state : RemoteHostState}

/-- The log of a call up to the point where it asks for its mapping. -/
def asked (w : World) (c : Call) (state : RemoteHostState) : List (Command × RunResult) :=
  w.log ++ [(.portDelete state.tunnelId state.ingestPort, c.answers.del)] ++
    [(.portCreate state.tunnelId c.actualPort, c.answers.add)]

/-- The file after a call that records its port. -/
def recorded (w : World) (c : Call) (state : RemoteHostState) : Option Json :=
  match c.answers.updatedError with
  | none => some { state with ingestPort := c.actualPort }.toJson
  | some _ => w.file

theorem recordPort_eq (port : UInt16) (a : Answers) (w : World) :
    (recordPort state port a w).1 =
      { file := recorded w ⟨port, a⟩ state, log := w.log } := by
  unfold recordPort recorded
  cases a.updatedError <;> rfl

theorem step_idle (h : ¬ ∃ state, Moves w c state) :
    (step fromStr w c).log = w.log ∧ ((step fromStr w c).file = w.file ∨
      ∃ state : RemoteHostState, state.canHost ≠ some true ∧
        (step fromStr w c).file = some state.toJson) := by
  unfold step reconcileTunnelPort
  cases hread : readRemoteHostState w.file with
  | none => exact ⟨rfl, .inl rfl⟩
  | some state =>
    dsimp only
    by_cases hport : state.ingestPort = c.actualPort
    · rw [if_pos hport]
      exact ⟨rfl, .inl rfl⟩
    · by_cases hhost : state.canHost = some true
      · exact absurd ⟨state, hread, hhost, hport⟩ h
      · rw [if_neg hport, if_neg hhost, recordPort_eq]
        refine ⟨rfl, ?_⟩
        cases herror : c.answers.updatedError with
        | none =>
          refine .inr ⟨{ state with ingestPort := c.actualPort }, hhost, ?_⟩
          simp only [recorded, herror]
        | some error =>
          refine .inl ?_
          simp only [recorded, herror]

theorem step_moves (h : Moves w c state) :
    step fromStr w c =
      if c.answers.add.status ≠ 0 then
        match createTunnel fromStr c.actualPort c.answers
            { file := w.file, log := asked w c state } with
        | (w, .ok _) => w
        | (w', .error _) => { file := recorded { w with file := w'.file } c state, log := w'.log }
      else { file := recorded w c state, log := asked w c state } := by
  unfold step reconcileTunnelPort
  rw [h.1]
  dsimp only
  rw [if_neg h.2.2, if_pos h.2.1]
  have hasked : (w.run (.portDelete state.tunnelId state.ingestPort) c.answers.del).run
      (.portCreate state.tunnelId c.actualPort) c.answers.add =
        { file := w.file, log := asked w c state } := rfl
  rw [hasked]
  by_cases hadd : c.answers.add.status ≠ 0
  · rw [if_pos hadd, if_pos hadd]
    rcases createTunnel fromStr c.actualPort c.answers
      { file := w.file, log := asked w c state } with ⟨w', error | fresh⟩
    · exact recordPort_eq c.actualPort c.answers w'
    · rfl
  · rw [if_neg hadd, if_neg hadd]
    exact recordPort_eq c.actualPort c.answers _

theorem step_added (h : Moves w c state) (hadd : c.answers.add.status = 0) :
    step fromStr w c = { file := recorded w c state, log := asked w c state } := by
  rw [step_moves h, if_neg (not_not_intro hadd)]

theorem createTunnel_recreates (port : UInt16) {a : Answers} (h : Recreates fromStr a)
    (w : World) :
    ∃ tunnelId, createTunnel fromStr port a w =
      ({ file := some (RemoteHostState.toJson
           { tunnelId, ingestPort := port, ingestHost := none, canHost := some true })
         log := w.log ++ [(.create, a.create)] ++ [(.portCreate tunnelId port, a.portCreate)] },
        .ok { tunnelId, ingestPort := port, ingestHost := none, canHost := some true }) := by
  obtain ⟨hcreate, hid, hport, hwrite⟩ := h
  obtain ⟨tunnelId, hid⟩ := Option.isSome_iff_exists.mp hid
  refine ⟨tunnelId, ?_⟩
  unfold createTunnel
  simp only [hcreate, hid, hport, hwrite, ne_eq, not_true_eq_false, if_false]
  rfl

theorem createTunnel_fails (port : UInt16) {a : Answers} (h : ¬ Recreates fromStr a) (w : World) :
    ∃ more error, createTunnel fromStr port a w =
        ({ w with log := w.log ++ more }, .error error) ∧
      ∀ e ∈ more, e.1 = .create ∨ ∃ tunnelId, e.1 = .portCreate tunnelId port := by
  unfold createTunnel
  by_cases hcreate : a.create.status = 0
  · cases hid : parseTunnelId fromStr a.create.stdout with
    | none =>
      rw [if_neg (not_not_intro hcreate)]
      refine ⟨[(.create, a.create)], _, rfl, ?_⟩
      intro e he
      rw [List.mem_singleton.mp he]
      exact .inl rfl
    | some tunnelId =>
      have hmore : ∀ e ∈ [(Command.create, a.create), (.portCreate tunnelId port, a.portCreate)],
          e.1 = .create ∨ ∃ tunnelId, e.1 = .portCreate tunnelId port := by
        intro e he
        rcases List.mem_cons.mp he with rfl | he
        · exact .inl rfl
        · rw [List.mem_singleton.mp he]
          exact .inr ⟨tunnelId, rfl⟩
      have hlog : (w.run .create a.create).run (.portCreate tunnelId port) a.portCreate =
          { w with log := w.log ++
              [(.create, a.create), (.portCreate tunnelId port, a.portCreate)] } := by
        simp [World.run]
      rw [if_neg (not_not_intro hcreate)]
      dsimp only
      rw [hlog]
      by_cases hport : a.portCreate.status = 0
      · rw [if_neg (not_not_intro hport)]
        cases hwrite : a.createdError with
        | none => exact absurd ⟨hcreate, by rw [hid]; rfl, hport, hwrite⟩ h
        | some error => exact ⟨_, error, rfl, hmore⟩
      · rw [if_pos hport]
        exact ⟨_, _, rfl, hmore⟩
  · rw [if_pos hcreate]
    refine ⟨[(.create, a.create)], _, rfl, ?_⟩
    intro e he
    rw [List.mem_singleton.mp he]
    exact .inl rfl

theorem step_recreated (h : Moves w c state) (hadd : c.answers.add.status ≠ 0)
    (hnew : Recreates fromStr c.answers) :
    ∃ tunnelId, step fromStr w c =
      { file := some (RemoteHostState.toJson
          { tunnelId, ingestPort := c.actualPort, ingestHost := none, canHost := some true })
        log := asked w c state ++ [(.create, c.answers.create)] ++
          [(.portCreate tunnelId c.actualPort, c.answers.portCreate)] } := by
  obtain ⟨tunnelId, hcreate⟩ := createTunnel_recreates c.actualPort hnew
    { file := w.file, log := asked w c state }
  refine ⟨tunnelId, ?_⟩
  rw [step_moves h, if_pos hadd, hcreate]

/-- The fallback does nothing to the mapping in the file. -/
theorem step_failed (h : Moves w c state) (hadd : c.answers.add.status ≠ 0)
    (hfail : ¬ Recreates fromStr c.answers) :
    ∃ more, step fromStr w c = { file := recorded w c state, log := asked w c state ++ more } ∧
      (Mapped (asked w c state ++ more) state.tunnelId state.ingestPort ↔
        Mapped (asked w c state) state.tunnelId state.ingestPort) := by
  obtain ⟨more, error, hcreate, hmore⟩ := createTunnel_fails c.actualPort hfail
    { file := w.file, log := asked w c state }
  refine ⟨more, ?_, ?_⟩
  · rw [step_moves h, if_pos hadd, hcreate]
  · apply mapped_append_other
    intro e he
    rcases hmore e he with hcreated | ⟨tunnelId, hmapped⟩
    · rw [hcreated]
      exact ⟨by simp, by simp⟩
    · rw [hmapped]
      refine ⟨?_, by simp⟩
      intro heq
      exact h.2.2 (Command.portCreate.inj heq).2.symm

end

theorem truthful_of_idle {w : World} (h : Truthful w) {c : Call}
    (hidle : ¬ ∃ state, Moves w c state) : Truthful (step fromStr w c) := by
  obtain ⟨hlog, hfile | ⟨state, hhost, hfile⟩⟩ := @step_idle fromStr _ _ hidle
  · intro state hread
    rw [hfile] at hread
    rw [hlog]
    exact h state hread
  · intro state' hread hhost'
    rw [hfile, readRemoteHostState_toJson] at hread
    split at hread
    · cases hread
    · cases hread
      exact absurd hhost' hhost

theorem step_log {w : World} {c : Call} {state : RemoteHostState} (h : Moves w c state) :
    ∃ more, (step fromStr w c).log = asked w c state ++ more := by
  by_cases hadd : c.answers.add.status = 0
  · refine ⟨[], ?_⟩
    rw [step_added h hadd, List.append_nil]
  · by_cases hnew : Recreates fromStr c.answers
    · obtain ⟨tunnelId, hstep⟩ := step_recreated h hadd hnew
      rw [hstep]
      exact ⟨_, List.append_assoc _ _ _⟩
    · obtain ⟨more, hstep, -⟩ := step_failed h hadd hnew
      exact ⟨more, by rw [hstep]⟩

theorem triesAgain {w : World} {c : Call} {state : RemoteHostState} (h : Moves w c state) :
    TriesAgain fromStr w c.actualPort := by
  intro a
  obtain ⟨more, hlog⟩ := step_log fromStr (c := ⟨c.actualPort, a⟩) h
  refine ⟨state.tunnelId, [(.portDelete state.tunnelId state.ingestPort, a.del),
    (.portCreate state.tunnelId c.actualPort, a.add)] ++ more, ?_, a.add, ?_⟩
  · rw [hlog]
    simp [asked]
  · exact List.mem_append_left _ (List.mem_cons_of_mem _ (List.mem_singleton_self _))

/-- Once the file names the port, nothing is left to do. -/
theorem not_triesAgain {w : World} {port : UInt16} (a : Answers)
    (h : ∀ state ∈ readRemoteHostState w.file, state.ingestPort = port) :
    ¬ TriesAgain fromStr w port := by
  intro htries
  obtain ⟨tunnelId, added, hadded, result, hmem⟩ := htries a
  have hidle : ¬ ∃ state, Moves w ⟨port, a⟩ state := by
    rintro ⟨state, hread, -, hport⟩
    exact hport (h state hread)
  rw [(step_idle hidle).1] at hadded
  have hnil : added = [] := List.append_right_eq_self.mp hadded.symm
  rw [hnil] at hmem
  cases hmem

section

variable {w : World} {c : Call} {state : RemoteHostState}

theorem mapped_asked_new (hadd : c.answers.add.status = 0) :
    Mapped (asked w c state) state.tunnelId c.actualPort :=
  mapped_append.mpr (.inl ⟨rfl, hadd⟩)

/-- The mapping in the file survives unless it is removed. -/
theorem mapped_asked_old (h : Truthful w) (hmove : Moves w c state) :
    Mapped (asked w c state) state.tunnelId state.ingestPort ↔ c.answers.del.status ≠ 0 := by
  have hold := h state hmove.1 hmove.2.1
  have hport : c.actualPort ≠ state.ingestPort := fun heq => hmove.2.2 heq.symm
  rw [asked, mapped_append, mapped_append]
  simp [hold, hport]

theorem truthful_toJson (state : RemoteHostState) (log : List (Command × RunResult))
    (hhost : state.canHost = some true) :
    Truthful { file := some state.toJson, log } ↔
      (state.ingestPort ≠ 0 → Mapped log state.tunnelId state.ingestPort) := by
  unfold Truthful
  rw [readRemoteHostState_toJson]
  by_cases hzero : state.ingestPort = 0
  · rw [if_pos hzero]
    simp [hzero]
  · rw [if_neg hzero]
    simp [hzero, hhost]

theorem truthful_kept (hmove : Moves w c state) (log : List (Command × RunResult)) :
    Truthful { file := w.file, log } ↔ Mapped log state.tunnelId state.ingestPort := by
  unfold Truthful
  dsimp only
  rw [hmove.1]
  simp [hmove.2.1]

/-- What the file says after a call that recorded its port. -/
theorem port_recorded (error : c.answers.updatedError = none) :
    ∀ state' ∈ readRemoteHostState (recorded w c state), state'.ingestPort = c.actualPort := by
  intro state' hread
  rw [recorded, error, readRemoteHostState_toJson] at hread
  split at hread
  · cases hread
  · cases hread
    rfl

end

/-- A call leaves the file truthful, and a failure to be tried again, exactly when it is sound. -/
theorem step_sound_iff {w : World} (h : Truthful w) (c : Call) :
    Truthful (step fromStr w c) ∧
      (Failed fromStr w c → TriesAgain fromStr (step fromStr w c) c.actualPort) ↔
        Sound fromStr w c := by
  by_cases hmoves : ∃ state, Moves w c state
  · obtain ⟨state, hmove⟩ := hmoves
    have hsome : ∃ state, Moves w c state := ⟨state, hmove⟩
    have hold := mapped_asked_old h hmove
    unfold Sound Failed
    simp only [hsome, true_and, forall_const]
    by_cases hadd : c.answers.add.status = 0
    · rw [step_added hmove hadd, if_pos hadd]
      simp only [hadd, ne_eq, not_true_eq_false, false_and, false_imp_iff, and_true]
      cases herror : c.answers.updatedError with
      | none =>
        rw [recorded, herror]
        refine iff_of_true ?_ (.inl rfl)
        exact (truthful_toJson { state with ingestPort := c.actualPort } _ hmove.2.1).mpr
          fun _ => mapped_asked_new hadd
      | some error =>
        rw [recorded, herror]
        dsimp only
        rw [truthful_kept hmove, hold]
        simp
    · rw [if_neg hadd]
      by_cases hnew : Recreates fromStr c.answers
      · obtain ⟨tunnelId, hstep⟩ := step_recreated hmove hadd hnew
        refine iff_of_true ⟨?_, fun hfail => absurd hnew hfail.2⟩ (.inl hnew)
        rw [hstep, truthful_toJson _ _ rfl]
        exact fun _ => mapped_append.mpr (.inl ⟨rfl, hnew.2.2.1⟩)
      · obtain ⟨more, hstep, hmore⟩ := step_failed hmove hadd hnew
        rw [hstep]
        cases herror : c.answers.updatedError with
        | none =>
          refine iff_of_false ?_ ?_
          · rintro ⟨-, htries⟩
            exact not_triesAgain fromStr c.answers (port_recorded herror)
              (htries ⟨hadd, hnew⟩)
          · rintro (hnew' | ⟨herror', -⟩)
            · exact hnew hnew'
            · exact herror' rfl
        | some error =>
          rw [recorded, herror]
          dsimp only
          have htries : TriesAgain fromStr { file := w.file, log := asked w c state ++ more }
              c.actualPort := @triesAgain fromStr _ c state hmove
          rw [truthful_kept hmove, hmore, hold]
          simp [hnew, htries]
  · refine iff_of_true ⟨truthful_of_idle fromStr h hmoves, fun hfail => absurd hfail.1 hmoves⟩ ?_
    exact fun hmove => absurd hmove hmoves

/-- In a run that starts truthful, the file stays truthful and every failure is tried again,
exactly when every call is sound. -/
theorem tunnel_port_truthful_iff {w : World} (h : Truthful w) (calls : List Call) :
    (∀ before c after, calls = before ++ c :: after →
      Truthful (run fromStr w (before ++ [c])) ∧
        (Failed fromStr (run fromStr w before) c →
          TriesAgain fromStr (run fromStr w (before ++ [c])) c.actualPort)) ↔
      ∀ before c after, calls = before ++ c :: after → Sound fromStr (run fromStr w before) c := by
  have hsnoc (before : List Call) (c : Call) :
      run fromStr w (before ++ [c]) = step fromStr (run fromStr w before) c := by
    simp [run]
  constructor
  · intro hrun before c after hcalls
    have hbefore : Truthful (run fromStr w before) := by
      rcases List.eq_nil_or_concat before with rfl | ⟨first, last, rfl⟩
      · exact h
      · rw [List.concat_eq_append]
        refine (hrun first last (c :: after) ?_).1
        rw [hcalls]
        simp
    rw [← step_sound_iff fromStr hbefore, ← hsnoc]
    exact hrun before c after hcalls
  · intro hsound
    have htruthful : ∀ before after, calls = before ++ after → Truthful (run fromStr w before) := by
      intro before
      induction before using List.reverseRecOn with
      | nil => exact fun _ _ => h
      | append_singleton before c ih =>
        intro after hcalls
        rw [List.append_assoc, List.singleton_append] at hcalls
        rw [hsnoc]
        exact ((step_sound_iff fromStr (ih _ hcalls) c).mpr (hsound before c after hcalls)).1
    intro before c after hcalls
    rw [hsnoc]
    exact (step_sound_iff fromStr (htruthful before _ hcalls) c).mpr
      (hsound before c after hcalls)

end

/-- A created tunnel starts out truthful. -/
theorem createTunnel_truthful {fromStr : String → Option Json} {port : UInt16} {a : Answers}
    {w w' : World} {state : RemoteHostState}
    (h : createTunnel fromStr port a w = (w', .ok state)) : Truthful w' := by
  by_cases hnew : Recreates fromStr a
  · obtain ⟨tunnelId, hcreate⟩ := createTunnel_recreates port hnew w
    rw [hcreate] at h
    rw [← (Prod.mk.inj h).1, truthful_toJson _ _ rfl]
    exact fun _ => mapped_append.mpr (.inl ⟨rfl, hnew.2.2.1⟩)
  · obtain ⟨more, error, hcreate, -⟩ := createTunnel_fails port hnew w
    rw [hcreate] at h
    cases h

section

def succeeded : RunResult := { status := 0, stdout := "", stderr := "" }

def notLoggedIn : RunResult := { status := 1, stdout := "", stderr := "not logged in" }

/-- A hosted tunnel with its mapping. -/
def hosting (port : UInt16) : World where
  file := some (RemoteHostState.toJson
    { tunnelId := "abc123", ingestPort := port, ingestHost := none, canHost := some true })
  log := [(.portCreate "abc123" port, succeeded)]

/-- The ingest has moved to port 4000, and the command for its mapping comes back with `add`. -/
def movedTo4000 (add : RunResult) : Call where
  actualPort := 4000
  answers :=
    { del := succeeded, add, create := notLoggedIn, portCreate := notLoggedIn
      createdError := none, updatedError := none }

theorem hosting_truthful (port : UInt16) : Truthful (hosting port) :=
  (truthful_toJson _ _ rfl).mpr fun _ => ⟨[], succeeded, [], rfl, rfl, fun _ he => by cases he⟩

theorem hosting_moves (add : RunResult) :
    Moves (hosting 3132) (movedTo4000 add)
      { tunnelId := "abc123", ingestPort := 3132, ingestHost := none, canHost := some true } := by
  refine ⟨?_, rfl, (by decide : (3132 : UInt16) ≠ 4000)⟩
  unfold hosting
  rw [readRemoteHostState_toJson]
  rfl

/-- The old mapping is gone, the new one is not there, and the file says that it is. -/
theorem failed_move_recorded :
    Truthful (hosting 3132) ∧
      ¬ Truthful (run (fun _ => none) (hosting 3132) [movedTo4000 notLoggedIn]) ∧
      Failed (fun _ => none) (hosting 3132) (movedTo4000 notLoggedIn) ∧
      ¬ TriesAgain (fun _ => none)
        (run (fun _ => none) (hosting 3132) [movedTo4000 notLoggedIn]) 4000 := by
  have hmove := hosting_moves notLoggedIn
  have hafter : run (fun _ => none) (hosting 3132) [movedTo4000 notLoggedIn] =
      { file := some (RemoteHostState.toJson
          { tunnelId := "abc123", ingestPort := 4000, ingestHost := none, canHost := some true })
        log := [(.portCreate "abc123" 3132, succeeded), (.portDelete "abc123" 3132, succeeded),
          (.portCreate "abc123" 4000, notLoggedIn), (.create, notLoggedIn)] } := by
    change step _ _ _ = _
    rw [step_moves hmove, if_pos (by decide)]
    rfl
  rw [hafter]
  refine ⟨hosting_truthful 3132, ?_, ⟨⟨_, hmove⟩, by decide, fun hnew => ?_⟩, ?_⟩
  · rw [truthful_toJson _ _ rfl]
    intro hmapped
    obtain ⟨before, result, after, hlog, hstatus, -⟩ := hmapped (by decide)
    have hmem : (Command.portCreate "abc123" 4000, result) ∈
        [(Command.portCreate "abc123" 3132, succeeded), (.portDelete "abc123" 3132, succeeded),
          (.portCreate "abc123" 4000, notLoggedIn), (.create, notLoggedIn)] := by
      rw [hlog]
      exact List.mem_append_right _ List.mem_cons_self
    have hresult : result = notLoggedIn := by simpa using hmem
    rw [hresult] at hstatus
    exact absurd hstatus (by decide)
  · exact absurd hnew.1 (by decide)
  · refine not_triesAgain _ (movedTo4000 notLoggedIn).answers ?_
    intro state hread
    rw [readRemoteHostState_toJson] at hread
    cases hread
    rfl

theorem tunnel_port_truthful_iff_moved :
    Truthful (run (fun _ => none) (hosting 3132) [movedTo4000 succeeded]) := by
  have hsound : ∀ before c after, [movedTo4000 succeeded] = before ++ c :: after →
      Sound (fun _ => none) (run (fun _ => none) (hosting 3132) before) c := by
    intro before c after hcalls
    cases before with
    | nil =>
      rw [List.nil_append, List.cons.injEq] at hcalls
      rw [← hcalls.1]
      exact fun _ => .inl rfl
    | cons first before => simp at hcalls
  exact ((tunnel_port_truthful_iff (fun _ => none) (hosting_truthful 3132)
    [movedTo4000 succeeded]).mpr hsound [] _ [] rfl).1

end

end Climon.Remote.TunnelPort
