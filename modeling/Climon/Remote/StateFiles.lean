import Climon.Cli.Args
import Climon.Lib.JsonNumbers
import Climon.Update.Manifest

namespace Climon.Remote.StateFiles

open Climon.Cli.Args Climon.Lib.JsonValue Climon.Update.Manifest

/-!
# The state files of server, ingest and uplink

The beacons are JSON documents that other programs write, the pidfiles plain text. A number is
checked to be a positive integer before it is narrowed.
-/

structure ServerState where
  pid : UInt32
  port : UInt16
  ingest : Option UInt16
  startedAt : Option UInt64
  deriving DecidableEq, Repr

/-- A cast from a positive double to 64 bits, which truncates and saturates. -/
def saturateU64 (q : Rat) : UInt64 := UInt64.ofNat (min (2 ^ 64 - 1) q.floor.toNat)

/-- `positive_integer`, of which both beacons have a copy. -/
def positiveInteger (value : Option Json) : Option UInt64 :=
  (value.bind Json.asF64).bind fun n => if n.den = 1 ∧ 0 < n then some (saturateU64 n) else none

def parseServerState (value : Json) : Option ServerState :=
  if ¬ value.isObject then none
  else do
    let pid ← positiveInteger (value.get? "pid")
    let port ← positiveInteger (value.get? "port")
    let ingest := positiveInteger (value.get? "ingest")
    let startedAt := (((value.get? "startedAt").bind Json.asF64).filter (0 < ·)).map saturateU64
    some
      { pid := pid.toUInt32
        port := port.toUInt16
        ingest := ingest.map UInt64.toUInt16
        startedAt := startedAt }

structure IngestState where
  pid : UInt32
  port : UInt16
  host : Option String
  controlSocket : Option String
  controlToken : Option String
  deriving DecidableEq, Repr

def nonEmpty (value : Option Json) : Option String := (value.bind Json.asStr).filter (· ≠ "")

def parseIngestState (value : Json) : Option IngestState :=
  if ¬ value.isObject then none
  else do
    let pid ← positiveInteger (value.get? "pid")
    let port ← positiveInteger (value.get? "port")
    some
      { pid := pid.toUInt32
        port := port.toUInt16
        host := nonEmpty (value.get? "host")
        controlSocket := nonEmpty (value.get? "controlSocket")
        controlToken := nonEmpty (value.get? "controlToken") }

/-- A pidfile, `none` where it cannot be read. -/
def readPid (raw : Option String) : Option UInt32 := do
  let pid ← parseI64 (trim (← raw)).toList
  if 0 < pid then some (UInt32.ofNat pid.toInt.toNat) else none

/-! ## What is written and what is read -/

/-- The number at a key is this one. -/
def Written (value : Json) (key : String) (n : Nat) : Prop :=
  ∃ number ∈ numberAt value key, number.value = n

theorem Written.unique {value : Json} {key : String} {m n : Nat} (h : Written value key m)
    (h' : Written value key n) : m = n := by
  obtain ⟨number, hnumber, hm⟩ := h
  obtain ⟨number', hnumber', hn⟩ := h'
  have hsame : number = number' := Option.mem_unique hnumber hnumber'
  rw [hsame, hn] at hm
  exact_mod_cast hm.symm

/-- What is read is the number that is written, or both are far too large. -/
def Read (w n : Nat) : Prop := n = w ∨ 2 ^ 52 ≤ n ∧ 2 ^ 52 ≤ w

/-- A positive integer is read, and nothing else. -/
theorem positiveInteger_cases (value : Json) (key : String) :
    (positiveInteger (value.get? key) = none ∧ ∀ w, Written value key w → w = 0) ∨
      ∃ n w, positiveInteger (value.get? key) = some n ∧ 0 < w ∧ Written value key w ∧
        Read w n.toNat := by
  rw [positiveInteger, bind_asF64]
  unfold Written
  cases numberAt value key with
  | none => exact .inl ⟨rfl, by simp⟩
  | some number =>
    simp only [Option.map_some, Option.bind_some, Option.mem_def, Option.some.injEq,
      exists_eq_left']
    have hnear := near_asF64 number
    by_cases h : number.asF64.den = 1 ∧ 0 < number.asF64
    · have hden := (den_asF64 number).mp h.1
      have hfloor : number.asF64.floor = number.asF64.num := by
        rw [← Rat.coe_int_num_of_den_eq_one h.1, Rat.floor_intCast, Rat.num_intCast]
      have hnum : 0 < number.asF64.num := Rat.num_pos.mpr h.2
      have hread : (saturateU64 number.asF64).toNat = min (2 ^ 64 - 1) number.asF64.num.toNat := by
        rw [saturateU64, hfloor, UInt64.toNat_ofNat_of_lt' (by simp only [UInt64.size]; omega)]
      rw [← Rat.coe_int_num_of_den_eq_one hden, ← Rat.coe_int_num_of_den_eq_one h.1] at hnear
      have hints : number.value.num = number.asF64.num ∨
          2 ^ 52 ≤ number.value.num ∧ 2 ^ 52 ≤ number.asF64.num ∨
            number.value.num ≤ -2 ^ 52 ∧ number.asF64.num ≤ -2 ^ 52 := by
        unfold Near at hnear
        exact_mod_cast hnear
      rw [if_pos h]
      refine .inr ⟨saturateU64 number.asF64, number.value.num.toNat, rfl, by omega, ?_, ?_⟩
      · have hpos : ((number.value.num.toNat : Int) : Rat) = number.value.num := by
          rw [Int.toNat_of_nonneg (by omega)]
        rw [← Rat.coe_int_num_of_den_eq_one hden]
        exact_mod_cast hpos.symm
      · unfold Read
        rw [hread]
        omega
    · rw [if_neg h]
      refine .inl ⟨rfl, ?_⟩
      intro w hw
      by_contra hne
      refine h ⟨(den_asF64 number).mpr (by rw [hw]; exact Rat.den_natCast w), ?_⟩
      have hpos : (0 : Rat) < w := by exact_mod_cast Nat.pos_of_ne_zero hne
      rw [hw] at hnear
      rcases hnear with heq | ⟨-, hbig⟩ | ⟨hneg, -⟩
      · rw [← heq]
        exact hpos
      · linarith
      · linarith

section

variable {value : Json} {key : String} {w : Nat} {n : UInt64}

/-- A narrowed number is the one written exactly if that one is in range. -/
theorem written_toUInt32_iff (hw : Written value key w) (hread : Read w n.toNat) :
    Written value key n.toUInt32.toNat ↔ w < 2 ^ 32 := by
  have hlt := n.toUInt32.toNat_lt
  have hnarrow : n.toUInt32.toNat = n.toNat % 2 ^ 32 := UInt64.toNat_toUInt32 n
  constructor
  · intro h
    rw [hw.unique h]
    exact hlt
  · intro h
    have hsame : n.toUInt32.toNat = w := by
      unfold Read at hread
      omega
    rw [hsame]
    exact hw

theorem written_toUInt16_iff (hw : Written value key w) (hread : Read w n.toNat) :
    Written value key n.toUInt16.toNat ↔ w < 2 ^ 16 := by
  have hlt := n.toUInt16.toNat_lt
  have hnarrow : n.toUInt16.toNat = n.toNat % 2 ^ 16 := UInt64.toNat_toUInt16 n
  constructor
  · intro h
    rw [hw.unique h]
    exact hlt
  · intro h
    have hsame : n.toUInt16.toNat = w := by
      unfold Read at hread
      omega
    rw [hsame]
    exact hw

end

/-! ## The records that are read exactly -/

/-- A record is accepted when it has a positive pid and a positive port. -/
structure Accepted (value : Json) (pid port : Nat) : Prop where
  pid_pos : 0 < pid
  port_pos : 0 < port
  pid_written : Written value "pid" pid
  port_written : Written value "port" port

structure ServerExact (value : Json) (state : ServerState) : Prop where
  pid : Written value "pid" state.pid.toNat
  port : Written value "port" state.port.toNat
  ingest : ∀ port ∈ state.ingest, Written value "ingest" port.toNat

structure IngestExact (value : Json) (state : IngestState) : Prop where
  pid : Written value "pid" state.pid.toNat
  port : Written value "port" state.port.toNat

/-- The number in a pidfile. -/
def WrittenPid (raw : Option String) (n : Int) : Prop :=
  ∃ text ∈ raw, ∃ pid ∈ parseI64 (trim text).toList, pid.toInt = n

/-- The numbers of an accepted record are in range. -/
def RecordFits (pidBound : Nat) (value : Json) : Prop :=
  ∀ pid port, Accepted value pid port → pid < pidBound ∧ port < 2 ^ 16

def ServerFits (pidBound : Nat) (value : Json) : Prop :=
  ∀ pid port, Accepted value pid port → (pid < pidBound ∧ port < 2 ^ 16) ∧
    ∀ ingest, 0 < ingest → Written value "ingest" ingest → ingest < 2 ^ 16

def PidFits (pidBound : Nat) (raw : Option String) : Prop :=
  ∀ pid : Nat, 0 < pid → WrittenPid raw pid → pid < pidBound

/-- The numbers of an accepted record, as they are written and as they are read. -/
theorem accepted_cases (value : Json) :
    ((positiveInteger (value.get? "pid") = none ∨ positiveInteger (value.get? "port") = none) ∧
        ∀ pid port, ¬ Accepted value pid port) ∨
      ∃ pid port p q, positiveInteger (value.get? "pid") = some p ∧
        positiveInteger (value.get? "port") = some q ∧ Accepted value pid port ∧
        Read pid p.toNat ∧ Read port q.toNat := by
  rcases positiveInteger_cases value "pid" with ⟨hnone, hzero⟩ | ⟨p, pid, hp, hpos, hw, hread⟩
  · refine .inl ⟨.inl hnone, fun pid port h => ?_⟩
    have hpid := hzero pid h.pid_written
    exact absurd h.pid_pos (by omega)
  · rcases positiveInteger_cases value "port" with ⟨hnone, hzero⟩ | ⟨q, port, hq, hpos', hw', hread'⟩
    · refine .inl ⟨.inr hnone, fun pid port h => ?_⟩
      have hport := hzero port h.port_written
      exact absurd h.port_pos (by omega)
    · exact .inr ⟨pid, port, p, q, hp, hq, ⟨hpos, hpos', hw, hw'⟩, hread, hread'⟩

theorem Accepted.isObject {value : Json} {pid port : Nat} (h : Accepted value pid port) :
    value.isObject = true := by
  obtain ⟨number, hnumber, -⟩ := h.pid_written
  cases value with
  | object => rfl
  | _ => cases hnumber

theorem Accepted.unique {value : Json} {pid port pid' port' : Nat} (h : Accepted value pid port)
    (h' : Accepted value pid' port') : pid = pid' ∧ port = port' :=
  ⟨h.pid_written.unique h'.pid_written, h.port_written.unique h'.port_written⟩

/-- The optional port of a server record, on its own. -/
theorem ingest_exact_iff (value : Json) :
    (∀ port ∈ (positiveInteger (value.get? "ingest")).map UInt64.toUInt16,
        Written value "ingest" port.toNat) ↔
      ∀ ingest, 0 < ingest → Written value "ingest" ingest → ingest < 2 ^ 16 := by
  rcases positiveInteger_cases value "ingest" with ⟨hnone, hzero⟩ | ⟨n, w, hn, hpos, hw, hread⟩
  · rw [hnone]
    refine iff_of_true (by simp) fun ingest h hwritten => ?_
    have hingest := hzero ingest hwritten
    omega
  · simp only [hn, Option.map_some, Option.mem_def, Option.some.injEq, forall_eq',
      written_toUInt16_iff hw hread]
    constructor
    · intro h ingest hin hwritten
      rw [hwritten.unique hw]
      exact h
    · intro h
      exact h w hpos hw

/-- The pid and the port of a record are read exactly if they are in range. -/
theorem record_exact_iff {value : Json} {pid port : Nat} {p q : UInt64}
    (h : Accepted value pid port) (hread : Read pid p.toNat) (hread' : Read port q.toNat) :
    (Written value "pid" p.toUInt32.toNat ∧ Written value "port" q.toUInt16.toNat) ↔
      RecordFits (2 ^ 32) value := by
  rw [written_toUInt32_iff h.pid_written hread, written_toUInt16_iff h.port_written hread']
  constructor
  · intro hfits pid' port' h'
    obtain ⟨hpid, hport⟩ := h.unique h'
    rw [← hpid, ← hport]
    exact hfits
  · intro hfits
    exact hfits pid port h

theorem server_exact_iff (value : Json) :
    (∀ state, parseServerState value = some state → ServerExact value state) ↔
      ServerFits (2 ^ 32) value := by
  rcases accepted_cases value with ⟨hnone, hreject⟩ | ⟨pid, port, p, q, hp, hq, h, hread, hread'⟩
  · refine iff_of_true ?_ fun pid port h => absurd h (hreject pid port)
    intro state hstate
    rcases hnone with hnone | hnone <;> simp [parseServerState, hnone] at hstate
  · have hrecord := record_exact_iff h hread hread'
    have hingest := ingest_exact_iff value
    have hobject : ¬ ¬ value.isObject = true := by simp [h.isObject]
    constructor
    · intro hexact pid' port' h'
      have hstate := hexact _ (by rw [parseServerState, if_neg hobject, hp, hq]; rfl)
      exact ⟨hrecord.mp ⟨hstate.pid, hstate.port⟩ pid' port' h', hingest.mp hstate.ingest⟩
    · intro hfits state hstate
      rw [parseServerState, if_neg hobject, hp, hq] at hstate
      cases hstate
      have hexact := hrecord.mpr fun pid' port' h' => (hfits pid' port' h').1
      exact ⟨hexact.1, hexact.2, hingest.mpr (hfits pid port h).2⟩

theorem parseServerState_isSome_iff (value : Json) :
    (parseServerState value).isSome = true ↔ ∃ pid port, Accepted value pid port := by
  rcases accepted_cases value with ⟨hnone, hreject⟩ | ⟨pid, port, p, q, hp, hq, h, -, -⟩
  · refine iff_of_false ?_ fun ⟨pid, port, h⟩ => hreject pid port h
    rcases hnone with hnone | hnone <;> simp [parseServerState, hnone]
  · refine iff_of_true ?_ ⟨pid, port, h⟩
    rw [parseServerState, if_neg (by simp [h.isObject]), hp, hq]
    rfl

theorem parseIngestState_isSome_iff (value : Json) :
    (parseIngestState value).isSome = true ↔ ∃ pid port, Accepted value pid port := by
  rcases accepted_cases value with ⟨hnone, hreject⟩ | ⟨pid, port, p, q, hp, hq, h, -, -⟩
  · refine iff_of_false ?_ fun ⟨pid, port, h⟩ => hreject pid port h
    rcases hnone with hnone | hnone <;> simp [parseIngestState, hnone]
  · refine iff_of_true ?_ ⟨pid, port, h⟩
    rw [parseIngestState, if_neg (by simp [h.isObject]), hp, hq]
    rfl

theorem ingest_state_exact_iff (value : Json) :
    (∀ state, parseIngestState value = some state → IngestExact value state) ↔
      RecordFits (2 ^ 32) value := by
  rcases accepted_cases value with ⟨hnone, hreject⟩ | ⟨pid, port, p, q, hp, hq, h, hread, hread'⟩
  · refine iff_of_true ?_ fun pid port h => absurd h (hreject pid port)
    intro state hstate
    rcases hnone with hnone | hnone <;> simp [parseIngestState, hnone] at hstate
  · have hrecord := record_exact_iff h hread hread'
    have hobject : ¬ ¬ value.isObject = true := by simp [h.isObject]
    constructor
    · intro hexact
      have hstate := hexact _ (by rw [parseIngestState, if_neg hobject, hp, hq]; rfl)
      exact hrecord.mp ⟨hstate.pid, hstate.port⟩
    · intro hfits state hstate
      rw [parseIngestState, if_neg hobject, hp, hq] at hstate
      cases hstate
      have hexact := hrecord.mpr hfits
      exact ⟨hexact.1, hexact.2⟩

/-- A positive number is read from a pidfile, and nothing else. -/
theorem readPid_cases (raw : Option String) :
    (readPid raw = none ∧ ∀ pid : Nat, 0 < pid → ¬ WrittenPid raw pid) ∨
      ∃ n : Nat, 0 < n ∧ WrittenPid raw n ∧ readPid raw = some (UInt32.ofNat n) := by
  unfold readPid WrittenPid
  cases raw with
  | none => exact .inl ⟨rfl, by simp⟩
  | some text =>
    simp only [Option.bind_eq_bind, Option.bind_some, Option.mem_def, Option.some.injEq,
      exists_eq_left']
    cases parseI64 (trim text).toList with
    | none => exact .inl ⟨rfl, by simp⟩
    | some pid =>
      simp only [Option.bind_some, Option.some.injEq, exists_eq_left']
      have hzero : 0 < pid ↔ 0 < pid.toInt := Int64.lt_iff_toInt_lt
      by_cases h : 0 < pid
      · have hpos := hzero.mp h
        have hnat : (pid.toInt.toNat : Int) = pid.toInt := Int.toNat_of_nonneg hpos.le
        refine .inr ⟨pid.toInt.toNat, by omega, hnat.symm, ?_⟩
        exact if_pos h
      · rw [if_neg h]
        refine .inl ⟨rfl, fun n hn heq => h (hzero.mpr ?_)⟩
        omega

theorem WrittenPid.unique {raw : Option String} {m n : Int} (h : WrittenPid raw m)
    (h' : WrittenPid raw n) : m = n := by
  obtain ⟨text, htext, pid, hpid, hm⟩ := h
  obtain ⟨text', htext', pid', hpid', hn⟩ := h'
  cases Option.mem_unique htext htext'
  cases Option.mem_unique hpid hpid'
  rw [← hm, ← hn]

theorem pid_exact_iff (raw : Option String) :
    (∀ pid, readPid raw = some pid → WrittenPid raw pid.toNat) ↔ PidFits (2 ^ 32) raw := by
  rcases readPid_cases raw with ⟨hnone, hzero⟩ | ⟨n, hpos, hw, hread⟩
  · rw [hnone]
    exact iff_of_true (by simp) fun pid hpid hw => absurd hw (hzero pid hpid)
  · constructor
    · intro hexact pid hpid hw'
      have hn := (hexact _ hread).unique hw'
      have hlt := (UInt32.ofNat n).toNat_lt
      omega
    · intro hfits pid hpid
      rw [hread] at hpid
      cases hpid
      rw [UInt32.toNat_ofNat_of_lt' (hfits n hpos hw)]
      exact hw

end Climon.Remote.StateFiles
