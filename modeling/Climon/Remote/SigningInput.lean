import Climon.Lib.DocumentPrint
import Climon.Lib.SeparatedFields
import Climon.Remote.ControlFormat

namespace Climon.Remote.SigningInput

open Climon.Lib.DecimalText Climon.Lib.DocumentPrint Climon.Lib.JsonDocument Climon.Lib.JsonSchema
  Climon.Lib.SeparatedFields Climon.Remote.ControlFormat Climon.Remote.SpawnAuth
  Climon.Store.Format Climon.Store.PatchFormat

/-!
# What a signature covers

The signed text joins payload, nonce and time stamp with newlines, and the verifier takes all three
from the envelope it receives.
-/

/-! ## Payloads -/

section

variable (doubleText : Rat → List Char)

/-- `doubleText` prints a double, of which a control message has none. -/
def payloadOf (message : ControlMessage) : String :=
  String.ofList (compact doubleText (.object (writeControl message)))

end

section

variable {σ : Type} {key : String}

@[simp] theorem integral_kind (k : ControlKind) : IntegralField (σ := σ) (kind k) :=
  integral_required fun _ => rfl

theorem integral_plain {written : σ → Doc} (h : ∀ s, integral (written s) = true) :
    IntegralField (plain key fun s => some (written s)) := by
  intro s d hwritten
  cases hwritten
  exact h s

theorem integral_progress : IntegralCodec progress := by
  intro p
  have hstate : IntegralCodec progressState := fun _ => rfl
  apply integral_write
  simp [progressSchema, hstate]

theorem integral_writeMeta (m : Climon.Proto.Meta.SessionMeta) :
    integralFields (writeMeta m) = true := by
  have hstatus : IntegralCodec status := fun _ => rfl
  have hreason : IntegralCodec priorityReason := fun _ => rfl
  have hcolor : IntegralCodec color := fun _ => rfl
  have horigin : IntegralCodec origin := fun _ => rfl
  apply integral_write
  simp [metaSchema, hstatus, hreason, hcolor, horigin, integral_progress]

theorem integral_writePatch (patch : Climon.Proto.Meta.SessionMetaPatch) :
    integralFields (writePatch patch) = true := by
  have hstatus : IntegralCodec status := fun _ => rfl
  have hreason : IntegralCodec priorityReason := fun _ => rfl
  have hcolor : IntegralCodec color := fun _ => rfl
  apply integral_write
  simp [patchSchema, hstatus, hreason, hcolor, integral_progress]

end

/-- No control message carries a double. -/
theorem integral_writeControl (message : ControlMessage) :
    integralFields (writeControl message) = true := by
  cases message with
  | hello =>
    have hpeer : IntegralField (plain "peer"
        fun s : String × Bool × Option String × Option String =>
          if s.2.1 then some (.bool true) else none) := by
      intro s d hwritten
      dsimp only [plain] at hwritten
      split at hwritten
      · cases hwritten
        rfl
      · cases hwritten
    apply integral_write
    simp [helloSchema, hpeer]
  | sessionAdded =>
    apply integral_write
    simp [sessionAddedSchema, integral_plain, integral, integral_writeMeta]
  | sessionUpdated =>
    apply integral_write
    simp [sessionUpdatedSchema, integral_plain, integral, integral_writePatch]
  | sessionRemoved =>
    apply integral_write
    simp [idSchema]
  | sessionList =>
    apply integral_write
    simp [sessionListSchema]
  | attach =>
    apply integral_write
    simp [idSchema]
  | detach =>
    apply integral_write
    simp [idSchema]
  | spawn =>
    have hpriority : IntegralField (plain "priority"
        fun r : SpawnRequest => r.priority.map fun n => ofI64 n.toInt) := by
      intro r d hwritten
      obtain ⟨n, -, rfl⟩ := Option.map_eq_some_iff.mp hwritten
      rfl
    apply integral_write
    simp [spawnSchema, hpriority]
  | spawnResult =>
    apply integral_write
    simp [spawnResultSchema]
  | signed =>
    have hts : IntegralField (plain "ts"
        fun s : String × String × Int × String => some (ofI64 s.2.2.1)) :=
      integral_plain fun _ => rfl
    apply integral_write
    simp [signedSchema, hts]
  | ping =>
    apply integral_write
    simp [unitSchema]
  | pong =>
    apply integral_write
    simp [unitSchema]

section

variable {doubleText : Rat → List Char}

example : payloadOf (fun _ => []) .ping = pingText := by decide

theorem newline_notMem_payloadOf (message : ControlMessage) :
    '\n' ∉ (payloadOf doubleText message).toList := by
  rw [payloadOf, String.toList_ofList]
  exact newline_notMem_compact (integral_writeControl message)

end

/-! ## Signing inputs -/

/-- Digits and the letters from `a` to `f`. -/
def LowerHex (nonce : String) : Prop :=
  ∀ c ∈ nonce.toList, c.isDigit = true ∨ 'a' ≤ c ∧ c ≤ 'f'

instance (nonce : String) : Decidable (LowerHex nonce) :=
  inferInstanceAs (Decidable (∀ c ∈ nonce.toList, _))

theorem newline_notMem_nonce {nonce : String} (h : LowerHex nonce) : '\n' ∉ nonce.toList := by
  intro hmem
  have hnewline := h '\n' hmem
  revert hnewline
  decide

theorem toList_signingInput (payload nonce : String) (ts : Int) :
    (signingInput payload nonce ts).toList =
      ['\n'].intercalate [payload.toList, nonce.toList, ts.repr.toList] := by
  have hts : toString ts = ts.repr := rfl
  have hline : "\n".toList = ['\n'] := rfl
  simp [signingInput, hts, hline, List.intercalate_cons_cons, List.intercalate_singleton]

/-- Of a payload and a nonce in one line each, nothing else has the signing input. -/
theorem signingInput_injective {payload nonce : String} (hpayload : '\n' ∉ payload.toList)
    (hnonce : '\n' ∉ nonce.toList) {ts : Int} {payload' nonce' : String} {ts' : Int}
    (h : signingInput payload nonce ts = signingInput payload' nonce' ts') :
    payload' = payload ∧ nonce' = nonce ∧ ts' = ts := by
  have hlist := congrArg String.toList h
  rw [toList_signingInput, toList_signingInput] at hlist
  have hfree : ∀ field ∈ [payload.toList, nonce.toList, ts.repr.toList], '\n' ∉ field := by
    simp [hpayload, hnonce, newline_notMem_int]
  have hlength : [payload.toList, nonce.toList, ts.repr.toList].length =
      [payload'.toList, nonce'.toList, ts'.repr.toList].length := rfl
  have hfields := intercalate_injective hfree hlength hlist
  simp only [List.cons.injEq, String.toList_inj, and_true] at hfields
  obtain ⟨rfl, rfl, hts⟩ := hfields
  exact ⟨rfl, rfl, int_repr_injective hts.symm⟩

section

variable (crates : Crates) (doubleText : Rat → List Char)

/-- What an honest signer signs has one signing input, which no other payload, nonce and time stamp
have; so an envelope that its signature opens carries just these, unless the hash function takes
another text to the same code. -/
theorem signature_authenticates (message : ControlMessage) {nonce : String} (hnonce : LowerHex nonce)
    (ts : Int) (payload' nonce' : String) (ts' : Int) :
    let payload := payloadOf doubleText message
    (signingInput payload nonce ts = signingInput payload' nonce' ts' →
      payload' = payload ∧ nonce' = nonce ∧ ts' = ts) ∧
    ∀ secret guard now opened,
      (verifySignedControl crates secret (.signed payload' nonce' ts'
        (hmacHex crates secret (signingInput payload nonce ts))) guard now).1 = .ok opened →
      (payload' = payload ∧ nonce' = nonce ∧ ts' = ts) ∨
        signingInput payload' nonce' ts' ≠ signingInput payload nonce ts ∧
          crates.mac secret (signingInput payload' nonce' ts') =
            crates.mac secret (signingInput payload nonce ts) := by
  intro payload
  have hinput : signingInput payload nonce ts = signingInput payload' nonce' ts' →
      payload' = payload ∧ nonce' = nonce ∧ ts' = ts :=
    signingInput_injective (newline_notMem_payloadOf message) (newline_notMem_nonce hnonce)
  refine ⟨hinput, ?_⟩
  intro secret guard now opened hopened
  have hverify := (verifySignedControl_ok_iff.mp hopened).1
  rw [verifyHmac, hmacHex, hexDecode_hexEncode, beq_iff_eq] at hverify
  by_cases hsame : signingInput payload nonce ts = signingInput payload' nonce' ts'
  · exact .inl (hinput hsame)
  · exact .inr ⟨Ne.symm hsame, hverify.symm⟩

end

/-- A ping with the nonce `0f`: the nonce cannot move into the payload. -/
theorem ping_authenticated :
    signingInput (payloadOf (fun _ => []) .ping) "0f" 1000 ≠
      signingInput (payloadOf (fun _ => []) .ping ++ "\n0f") "" 1000 := by
  intro h
  have hsame := (signature_authenticates sampleCrates (fun _ => []) .ping (by decide) 1000
    (payloadOf (fun _ => []) .ping ++ "\n0f") "" 1000).1 h
  exact absurd hsame.2.1 (by decide)

end Climon.Remote.SigningInput
