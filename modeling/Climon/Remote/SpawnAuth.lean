import Climon.Proto.Meta

namespace Climon.Remote.SpawnAuth

open Climon.Proto.Meta

/-!
# Signed control messages

The payload of an envelope is the JSON text of a control message, sent verbatim, so that the
signature covers the bytes that travel. Times are in milliseconds.
-/

structure SpawnRequest where
  requestId : String
  command : List String
  cwd : String
  cols : UInt16
  rows : UInt16
  name : Option String
  priority : Option Int64
  color : Option String
  headless : Bool
  deriving DecidableEq, Repr

structure SpawnOutcome where
  requestId : String
  id : Option String
  warning : Option String
  error : Option String
  deriving DecidableEq, Repr

inductive ControlMessage where
  | hello (clientId : String) (peer : Bool) (hostname os : Option String)
  | sessionAdded (sessionMeta : SessionMeta)
  | sessionUpdated (id : String) (patch : SessionMetaPatch)
  | sessionRemoved (id : String)
  | sessionList (ids : List String)
  | attach (id : String)
  | detach (id : String)
  | spawn (request : SpawnRequest)
  | spawnResult (outcome : SpawnOutcome)
  | signed (payload nonce : String) (ts : Int) (sig : String)
  | ping
  | pong
  deriving DecidableEq, Repr

def defaultFreshnessWindowMs : Nat := 30000

inductive RejectReason where
  | badSignature
  | stale
  | replay
  | badPayload
  | notSigned
  deriving DecidableEq, Repr

/-- What other crates supply: HMAC-SHA256 of the UTF-8 bytes of a key and a text, and the derived
JSON of control messages. -/
structure Crates where
  mac : String → String → List UInt8
  serialize : ControlMessage → String
  parse : String → Option ControlMessage

/-! ## Hexadecimal digits -/

def hexDigit (n : Nat) : Char :=
  if n < 10 then Char.ofNat (48 + n) else Char.ofNat (87 + n)

def hexValue (c : Char) : Option Nat :=
  if '0' ≤ c ∧ c ≤ '9' then some (c.toNat - 48)
  else if 'a' ≤ c ∧ c ≤ 'f' then some (c.toNat - 87)
  else if 'A' ≤ c ∧ c ≤ 'F' then some (c.toNat - 55)
  else none

def hexEncode (bytes : List UInt8) : String :=
  String.ofList (bytes.flatMap fun b => [hexDigit (b.toNat / 16), hexDigit (b.toNat % 16)])

def hexPairs : List Char → Option (List UInt8)
  | [] => some []
  | [_] => none
  | high :: low :: rest => do
    let h ← hexValue high
    let l ← hexValue low
    let bytes ← hexPairs rest
    return UInt8.ofNat (16 * h + l) :: bytes

def hexDecode (text : String) : Option (List UInt8) := hexPairs text.toList

@[simp] theorem hexValue_hexDigit : ∀ {n : Nat}, n < 16 → hexValue (hexDigit n) = some n := by
  decide

@[simp] theorem hexDecode_hexEncode (bytes : List UInt8) :
    hexDecode (hexEncode bytes) = some bytes := by
  unfold hexDecode hexEncode
  rw [String.toList_ofList]
  induction bytes with
  | nil => rfl
  | cons b bytes ih =>
    have hb := b.toNat_lt
    have hhigh : b.toNat / 16 < 16 := by omega
    have hlow : b.toNat % 16 < 16 := by omega
    have hbyte : 16 * (b.toNat / 16) + b.toNat % 16 = b.toNat := by omega
    simp only [List.flatMap_cons, List.cons_append, List.nil_append, hexPairs,
      hexValue_hexDigit hhigh, hexValue_hexDigit hlow, ih, hbyte, Option.bind_eq_bind,
      Option.bind_some, UInt8.ofNat_toNat]
    rfl

/-! ## Signing -/

section

variable (crates : Crates)

def signingInput (payload nonce : String) (ts : Int) : String :=
  payload ++ "\n" ++ nonce ++ "\n" ++ toString ts

def hmacHex (secret message : String) : String := hexEncode (crates.mac secret message)

def verifyHmac (secret message sigHex : String) : Bool :=
  match hexDecode sigHex with
  | none => false
  | some sig => sig == crates.mac secret message

def signControl (secret : String) (message : ControlMessage) (nonce : String) (ts : Int) :
    ControlMessage :=
  let payload := crates.serialize message
  .signed payload nonce ts (hmacHex crates secret (signingInput payload nonce ts))

theorem verifyHmac_hmacHex (secret message : String) :
    verifyHmac crates secret message (hmacHex crates secret message) = true := by
  simp [verifyHmac, hmacHex]

end

/-! ## The replay guard -/

/-- The nonces seen, each with the time stamp it came with. -/
structure ReplayGuard where
  windowMs : Nat
  seen : List (String × Int)
  deriving DecidableEq, Repr

namespace ReplayGuard

def new (windowMs : Nat) : ReplayGuard := ⟨windowMs, []⟩

/-- The time stamp is in the window around `now`. -/
def Fresh (windowMs : Nat) (now ts : Int) : Prop := (now - ts).natAbs ≤ windowMs

instance (windowMs : Nat) (now ts : Int) : Decidable (Fresh windowMs now ts) :=
  inferInstanceAs (Decidable ((now - ts).natAbs ≤ windowMs))

theorem fresh_iff {windowMs : Nat} {now ts : Int} :
    Fresh windowMs now ts ↔ ts ≤ now + windowMs ∧ now ≤ ts + windowMs := by
  unfold Fresh
  omega

def prune (guard : ReplayGuard) (now : Int) : ReplayGuard :=
  { guard with seen := guard.seen.filter fun entry => Fresh guard.windowMs now entry.2 }

/-- A stale time stamp leaves the guard as it is. -/
def check (guard : ReplayGuard) (nonce : String) (ts now : Int) :
    Except RejectReason Unit × ReplayGuard :=
  if ¬ Fresh guard.windowMs now ts then (.error .stale, guard)
  else
    let guard := guard.prune now
    if guard.seen.any fun entry => entry.1 == nonce then (.error .replay, guard)
    else (.ok (), { guard with seen := (nonce, ts) :: guard.seen })

@[simp] theorem prune_windowMs (guard : ReplayGuard) (now : Int) :
    (guard.prune now).windowMs = guard.windowMs := rfl

@[simp] theorem check_windowMs (guard : ReplayGuard) (nonce : String) (ts now : Int) :
    (guard.check nonce ts now).2.windowMs = guard.windowMs := by
  unfold check
  split
  · rfl
  · dsimp only
    split <;> rfl

theorem mem_prune {guard : ReplayGuard} {now : Int} {entry : String × Int} :
    entry ∈ (guard.prune now).seen ↔ entry ∈ guard.seen ∧ Fresh guard.windowMs now entry.2 := by
  simp [prune]

/-- What was seen and is still fresh is kept, and only a nonce that passes is added. -/
theorem mem_check {guard : ReplayGuard} {nonce : String} {ts now : Int} {entry : String × Int} :
    (entry ∈ guard.seen → Fresh guard.windowMs now entry.2 →
      entry ∈ (guard.check nonce ts now).2.seen) ∧
    (entry ∈ (guard.check nonce ts now).2.seen →
      entry ∈ guard.seen ∨ (guard.check nonce ts now).1 = .ok () ∧ entry = (nonce, ts)) := by
  have hkeep : entry ∈ guard.seen → Fresh guard.windowMs now entry.2 →
      entry ∈ (guard.prune now).seen := fun h hfresh => mem_prune.mpr ⟨h, hfresh⟩
  have hold : entry ∈ (guard.prune now).seen → entry ∈ guard.seen := fun h => (mem_prune.mp h).1
  unfold check
  split
  · exact ⟨fun h _ => h, .inl⟩
  · dsimp only
    split
    · exact ⟨hkeep, fun h => .inl (hold h)⟩
    · refine ⟨fun h hfresh => List.mem_cons_of_mem _ (hkeep h hfresh), fun h => ?_⟩
      rcases List.mem_cons.mp h with rfl | h
      · exact .inr ⟨rfl, rfl⟩
      · exact .inl (hold h)

/-- A nonce passes when it is fresh and no fresh entry has it, and is recorded then. -/
theorem check_ok_iff {guard : ReplayGuard} {nonce : String} {ts now : Int} :
    (guard.check nonce ts now).1 = .ok () ↔
      Fresh guard.windowMs now ts ∧ ∀ entry ∈ (guard.prune now).seen, entry.1 ≠ nonce := by
  unfold check
  split
  next h => simp [h]
  next h =>
    rw [not_not] at h
    dsimp only
    split
    next hany =>
      obtain ⟨entry, hentry, heq⟩ := List.any_eq_true.mp hany
      constructor
      · intro hbad
        cases hbad
      · intro hgood
        exact absurd (by simpa using heq) (hgood.2 entry hentry)
    next hany =>
      refine ⟨fun _ => ⟨h, fun entry hentry heq => hany ?_⟩, fun _ => rfl⟩
      exact List.any_eq_true.mpr ⟨entry, hentry, by simpa using heq⟩

theorem mem_check_self {guard : ReplayGuard} {nonce : String} {ts now : Int}
    (h : (guard.check nonce ts now).1 = .ok ()) :
    (nonce, ts) ∈ (guard.check nonce ts now).2.seen := by
  unfold check at h ⊢
  split at h
  · cases h
  next hfresh =>
    rw [if_neg hfresh]
    dsimp only at h ⊢
    split at h
    · cases h
    next hany =>
      rw [if_neg hany]
      exact List.mem_cons_self

/-- The guard has all that it let pass for as long as the time stamp is not too old. -/
structure Recalls (now : Int) (passed : List (String × Int)) (guard : ReplayGuard) : Prop where
  window : guard.windowMs = defaultFreshnessWindowMs
  seen : ∀ entry ∈ guard.seen, entry ∈ passed
  past : ∀ entry ∈ passed, entry.2 ≤ now + defaultFreshnessWindowMs
  kept : ∀ entry ∈ passed, now ≤ entry.2 + defaultFreshnessWindowMs → entry ∈ guard.seen

theorem recalls_new (now : Int) : Recalls now [] (new defaultFreshnessWindowMs) where
  window := rfl
  seen _ h := h
  past _ h := absurd h List.not_mem_nil
  kept _ h := absurd h List.not_mem_nil

variable {now : Int} {passed : List (String × Int)} {guard : ReplayGuard}

theorem Recalls.advance (h : Recalls now passed guard) (ms : Nat) :
    Recalls (now + ms) passed guard where
  window := h.window
  seen := h.seen
  past entry hentry := by
    have hpast := h.past entry hentry
    omega
  kept entry hentry hold := h.kept entry hentry (by omega)

/-- A nonce passes when it is fresh and did not pass with a time stamp that still is. -/
theorem Recalls.check_ok_iff (h : Recalls now passed guard) {nonce : String} {ts : Int} :
    (guard.check nonce ts now).1 = .ok () ↔ Fresh defaultFreshnessWindowMs now ts ∧
      ¬ ∃ entry ∈ passed, entry.1 = nonce ∧ Fresh defaultFreshnessWindowMs now entry.2 := by
  rw [ReplayGuard.check_ok_iff, h.window]
  refine and_congr_right fun _ => ?_
  constructor
  · rintro hseen ⟨entry, hpassed, rfl, hfresh⟩
    refine hseen entry (mem_prune.mpr ⟨h.kept entry hpassed (fresh_iff.mp hfresh).2, ?_⟩) rfl
    rwa [h.window]
  · intro hpassed entry hentry heq
    obtain ⟨hseen, hfresh⟩ := mem_prune.mp hentry
    rw [h.window] at hfresh
    exact hpassed ⟨entry, h.seen entry hseen, heq, hfresh⟩

theorem Recalls.check (h : Recalls now passed guard) (nonce : String) (ts : Int) :
    Recalls now (if (guard.check nonce ts now).1 = .ok () then (nonce, ts) :: passed else passed)
      (guard.check nonce ts now).2 := by
  have hkept {entry : String × Int} (hentry : entry ∈ passed)
      (hold : now ≤ entry.2 + defaultFreshnessWindowMs) :
      entry ∈ (guard.check nonce ts now).2.seen := by
    refine mem_check.1 (h.kept entry hentry hold) ?_
    rw [h.window, fresh_iff]
    exact ⟨h.past entry hentry, hold⟩
  have hseen {entry : String × Int} (hentry : entry ∈ (guard.check nonce ts now).2.seen) :
      entry ∈ passed ∨ (guard.check nonce ts now).1 = .ok () ∧ entry = (nonce, ts) :=
    (mem_check.2 hentry).imp_left (h.seen entry)
  split
  next hok =>
    refine ⟨by rw [check_windowMs, h.window], fun entry hentry => ?_, fun entry hentry => ?_,
      fun entry hentry hold => ?_⟩
    · rcases hseen hentry with hpassed | ⟨-, rfl⟩
      · exact List.mem_cons_of_mem _ hpassed
      · exact List.mem_cons_self
    · rcases List.mem_cons.mp hentry with rfl | hpassed
      · exact (fresh_iff.mp (h.check_ok_iff.mp hok).1).1
      · exact h.past entry hpassed
    · rcases List.mem_cons.mp hentry with rfl | hpassed
      · exact mem_check_self hok
      · exact hkept hpassed hold
  next hbad =>
    exact ⟨by rw [check_windowMs, h.window],
      fun entry hentry => (hseen hentry).resolve_right fun hnew => hbad hnew.1, h.past,
      fun entry => hkept⟩

end ReplayGuard

/-! ## Verification -/

section

variable (crates : Crates)

/-- The signature is checked first, so a forged message never touches the guard. -/
def verifySignedControl (secret : String) (envelope : ControlMessage) (guard : ReplayGuard)
    (now : Int) : Except RejectReason ControlMessage × ReplayGuard :=
  match envelope with
  | .signed payload nonce ts sig =>
    if verifyHmac crates secret (signingInput payload nonce ts) sig then
      match guard.check nonce ts now with
      | (.ok (), guard) =>
        match crates.parse payload with
        | some message => (.ok message, guard)
        | none => (.error .badPayload, guard)
      | (.error reason, guard) => (.error reason, guard)
    else (.error .badSignature, guard)
  | _ => (.error .notSigned, guard)

def ControlMessage.isSigned : ControlMessage → Bool
  | .signed .. => true
  | _ => false

theorem verifySignedControl_not_signed {secret : String} {message : ControlMessage}
    (h : message.isSigned = false) (guard : ReplayGuard) (now : Int) :
    verifySignedControl crates secret message guard now = (.error .notSigned, guard) := by
  cases message with
  | signed => cases h
  | _ => rfl

variable {crates} {secret : String} {guard : ReplayGuard} {now : Int}

/-- An envelope is opened when its signature is right, its nonce passes and its payload parses. -/
theorem verifySignedControl_ok_iff {payload nonce sig : String} {ts : Int}
    {message : ControlMessage} :
    (verifySignedControl crates secret (.signed payload nonce ts sig) guard now).1 = .ok message ↔
      verifyHmac crates secret (signingInput payload nonce ts) sig = true ∧
      (guard.check nonce ts now).1 = .ok () ∧ crates.parse payload = some message := by
  unfold verifySignedControl
  dsimp only
  split
  next hsig =>
    rcases hcheck : guard.check nonce ts now with ⟨_ | ⟨⟨⟩⟩, guard'⟩
    · simp
    · cases crates.parse payload <;> simp [hsig]
  next hsig => simp [hsig]

variable (crates secret guard now) in
/-- The guard is left alone, or the signature is right and it checks the nonce. -/
theorem verifySignedControl_guard (envelope : ControlMessage) :
    (verifySignedControl crates secret envelope guard now).2 = guard ∨
      ∃ payload nonce ts sig, envelope = .signed payload nonce ts sig ∧
        verifyHmac crates secret (signingInput payload nonce ts) sig = true ∧
        (verifySignedControl crates secret envelope guard now).2 =
          (guard.check nonce ts now).2 := by
  cases envelope with
  | signed payload nonce ts sig =>
    unfold verifySignedControl
    dsimp only
    split
    next hsig =>
      refine .inr ⟨payload, nonce, ts, sig, rfl, hsig, ?_⟩
      rcases guard.check nonce ts now with ⟨_ | ⟨⟨⟩⟩, guard'⟩
      · rfl
      · cases crates.parse payload <;> rfl
    · exact .inl rfl
  | _ => exact .inl rfl

@[simp] theorem verifySignedControl_windowMs (envelope : ControlMessage) :
    (verifySignedControl crates secret envelope guard now).2.windowMs = guard.windowMs := by
  rcases verifySignedControl_guard crates secret guard now envelope with
    h | ⟨payload, nonce, ts, sig, -, -, h⟩
  · rw [h]
  · rw [h, ReplayGuard.check_windowMs]

theorem verifySignedControl_guard_of_hmac {payload nonce sig : String} {ts : Int}
    (hsig : verifyHmac crates secret (signingInput payload nonce ts) sig = true) :
    (verifySignedControl crates secret (.signed payload nonce ts sig) guard now).2 =
      (guard.check nonce ts now).2 := by
  unfold verifySignedControl
  dsimp only
  rw [if_pos hsig]
  rcases guard.check nonce ts now with ⟨_ | ⟨⟨⟩⟩, guard'⟩
  · rfl
  · cases crates.parse payload <;> rfl

/-- What was signed is let in, if it is fresh and its nonce is new. -/
theorem verifySignedControl_signControl {message : ControlMessage} {nonce : String} {ts : Int}
    (hparse : crates.parse (crates.serialize message) = some message)
    (hcheck : (guard.check nonce ts now).1 = .ok ()) :
    (verifySignedControl crates secret (signControl crates secret message nonce ts) guard now).1 =
      .ok message :=
  verifySignedControl_ok_iff.mpr ⟨verifyHmac_hmacHex crates _ _, hcheck, hparse⟩

end

/-! ## A few messages

The crates restricted to two messages and to their signatures under the key `k`.
-/

def sampleRequest : SpawnRequest := ⟨"r1", ["ls"], "/", 80, 24, none, none, none, false⟩

def sampleOutcome : SpawnOutcome := ⟨"r1", some "s1", none, none⟩

def sampleTexts : List (ControlMessage × String) :=
  [(.spawn sampleRequest,
    "\x7b\"kind\":\"spawn\",\"requestId\":\"r1\",\"command\":[\"ls\"],\"cwd\":\"/\"," ++
      "\"cols\":80,\"rows\":24,\"headless\":false\x7d"),
    (.spawnResult sampleOutcome,
      "\x7b\"kind\":\"spawn-result\",\"requestId\":\"r1\",\"id\":\"s1\"\x7d")]

def sampleSerialize (message : ControlMessage) : String := (sampleTexts.lookup message).getD ""

/-- HMAC-SHA256 of the two messages with their nonces and time stamps. -/
def sampleMacs : List (String × List UInt8) :=
  [(signingInput (sampleSerialize (.spawn sampleRequest)) "n1" 1000,
      [219, 191, 237, 248, 192, 167, 117, 135, 128, 38, 240, 115, 193, 96, 82, 50, 96, 168, 124,
        133, 73, 150, 239, 146, 246, 87, 127, 233, 35, 253, 128, 132]),
    (signingInput (sampleSerialize (.spawnResult sampleOutcome)) "n2" 1000,
      [207, 127, 121, 224, 37, 197, 6, 143, 238, 78, 80, 185, 255, 131, 75, 237, 221, 166, 204,
        161, 4, 26, 249, 236, 140, 109, 66, 139, 74, 135, 195, 227])]

def sampleCrates : Crates where
  mac secret message := if secret = "k" then (sampleMacs.lookup message).getD [] else []
  serialize := sampleSerialize
  parse text := (sampleTexts.find? fun entry => entry.2 == text).map (·.1)

end Climon.Remote.SpawnAuth
