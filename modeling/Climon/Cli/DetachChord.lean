import Mathlib.Data.List.Basic

namespace Climon.Cli.DetachChord

/-!
# The detach chord of the attach client

A prefix byte waits for the byte after it, across reads. While another surface holds control this
terminal is displaced: nothing is forwarded and a single key asks for control back.
-/

def detachKey : UInt8 := 0x64

def takeControlKey : UInt8 := 0x20

inductive InputAction where
  | none
  | detach
  | takeControl
  deriving DecidableEq, Repr

structure ProcessedInput where
  forward : List UInt8
  action : InputAction
  deriving DecidableEq, Repr

structure InputProcessor where
  detachPrefix : UInt8
  armed : Bool
  deriving DecidableEq, Repr

namespace InputProcessor

def new (detachPrefix : UInt8) : InputProcessor := ⟨detachPrefix, false⟩

/-- The loop over the bytes of a read. An action ends it, and with it the read. -/
def processBytes (detachPrefix : UInt8) (displaced : Bool) :
    Bool → List UInt8 → List UInt8 → ProcessedInput × Bool
  | armed, out, [] => (⟨out, .none⟩, armed)
  | true, out, byte :: chunk =>
    if byte = detachKey then (⟨out, .detach⟩, false)
    else if displaced then processBytes detachPrefix displaced false out chunk
    else processBytes detachPrefix displaced false (out ++ [detachPrefix, byte]) chunk
  | false, out, byte :: chunk =>
    if byte = detachPrefix then processBytes detachPrefix displaced true out chunk
    else if displaced then
      if byte = takeControlKey then (⟨out, .takeControl⟩, false)
      else processBytes detachPrefix displaced false out chunk
    else processBytes detachPrefix displaced false (out ++ [byte]) chunk

def process (input : InputProcessor) (chunk : List UInt8) (displaced : Bool) :
    ProcessedInput × InputProcessor :=
  let result := processBytes input.detachPrefix displaced input.armed [] chunk
  (result.1, { input with armed := result.2 })

end InputProcessor

/-- What the terminal typed in one read, and whether it was displaced then. -/
structure Read where
  chunk : List UInt8
  displaced : Bool
  deriving DecidableEq, Repr

/-- The input loop, which ends with the read that detaches. -/
def runReads : InputProcessor → List Read → List ProcessedInput
  | _, [] => []
  | input, read :: reads =>
    let result := input.process read.chunk read.displaced
    if result.1.action = .detach then [result.1] else result.1 :: runReads result.2 reads

/-! ## Chords -/

/-- A byte on its own, or a prefix byte with the byte after it. -/
inductive Key where
  | plain (byte : UInt8)
  | pair (partner : UInt8)
  deriving DecidableEq, Repr

def Key.bytes (detachPrefix : UInt8) : Key → List UInt8
  | .plain byte => [byte]
  | .pair partner => [detachPrefix, partner]

/-- The keys of a stream, from the left. A prefix byte at the end of it is not one yet. -/
def keys (detachPrefix : UInt8) : List UInt8 → List Key
  | [] => []
  | [byte] => if byte = detachPrefix then [] else [.plain byte]
  | byte :: next :: rest =>
    if byte = detachPrefix then .pair next :: keys detachPrefix rest
    else .plain byte :: keys detachPrefix (next :: rest)

/-- The prefix byte at the end of a stream that has no partner yet. -/
def unpaired (detachPrefix : UInt8) : List UInt8 → List UInt8
  | [] => []
  | [byte] => if byte = detachPrefix then [byte] else []
  | byte :: next :: rest =>
    if byte = detachPrefix then unpaired detachPrefix rest else unpaired detachPrefix (next :: rest)

section

variable {detachPrefix : UInt8}

@[simp] theorem keys_pair (next : UInt8) (rest : List UInt8) :
    keys detachPrefix (detachPrefix :: next :: rest) = .pair next :: keys detachPrefix rest := by
  rw [keys, if_pos rfl]

@[simp] theorem unpaired_pair (next : UInt8) (rest : List UInt8) :
    unpaired detachPrefix (detachPrefix :: next :: rest) = unpaired detachPrefix rest := by
  rw [unpaired, if_pos rfl]

theorem keys_plain {byte : UInt8} (h : byte ≠ detachPrefix) (rest : List UInt8) :
    keys detachPrefix (byte :: rest) = .plain byte :: keys detachPrefix rest := by
  cases rest <;> simp [keys, h]

theorem unpaired_plain {byte : UInt8} (h : byte ≠ detachPrefix) (rest : List UInt8) :
    unpaired detachPrefix (byte :: rest) = unpaired detachPrefix rest := by
  cases rest <;> simp [unpaired, h]

theorem unpaired_cases (stream : List UInt8) :
    unpaired detachPrefix stream = [] ∨ unpaired detachPrefix stream = [detachPrefix] := by
  fun_induction unpaired detachPrefix stream with
  | case1 => exact .inl rfl
  | case2 => exact .inr rfl
  | case3 => exact .inl rfl
  | case4 _ _ ih => exact ih
  | case5 _ _ _ _ ih => exact ih

/-- The keys are the bytes of the stream but for the prefix byte that waits. -/
theorem keys_bytes (stream : List UInt8) :
    (keys detachPrefix stream).flatMap (Key.bytes detachPrefix) ++ unpaired detachPrefix stream =
      stream := by
  fun_induction keys detachPrefix stream with
  | case1 => rfl
  | case2 => simp [unpaired]
  | case3 byte h => simp [unpaired, h, Key.bytes]
  | case4 next rest ih => simpa [Key.bytes] using ih
  | case5 byte next rest h ih => simpa [unpaired_plain h, Key.bytes] using ih

/-- Bytes after a cut are read as if they followed the prefix byte that waits there. -/
theorem keys_append (front back : List UInt8) :
    keys detachPrefix (front ++ back) =
      keys detachPrefix front ++ keys detachPrefix (unpaired detachPrefix front ++ back) := by
  fun_induction keys detachPrefix front with
  | case1 => rfl
  | case2 => simp [unpaired]
  | case3 byte h => simp [unpaired, h, keys_plain h]
  | case4 next rest ih => simpa using ih
  | case5 byte next rest h ih =>
    simpa [keys_plain h, unpaired_plain h] using ih

end

/-! ## One read -/

/-- The action a key asks for. A take-control key is ordinary input while in control. -/
def Key.action (displaced : Bool) : Key → InputAction
  | .plain byte => if displaced ∧ byte = takeControlKey then .takeControl else .none
  | .pair partner => if partner = detachKey then .detach else .none

/-- The first action asked for. -/
def firstAction (displaced : Bool) : List Key → InputAction
  | [] => .none
  | key :: rest => if key.action displaced = .none then firstAction displaced rest else key.action displaced

/-- The keys in front of the first action. -/
def quietKeys (displaced : Bool) (typed : List Key) : List Key :=
  typed.takeWhile fun key => key.action displaced = .none

def forwarded (detachPrefix : UInt8) (displaced : Bool) (typed : List Key) : List UInt8 :=
  if displaced then [] else (quietKeys displaced typed).flatMap (Key.bytes detachPrefix)

/-- The prefix byte that waits after a read, given the one that waited before it. -/
def waitAfter (detachPrefix : UInt8) (waiting : List UInt8) (read : Read) : List UInt8 :=
  let stream := waiting ++ read.chunk
  if firstAction read.displaced (keys detachPrefix stream) = .none then unpaired detachPrefix stream
  else []

section

variable {detachPrefix : UInt8} {displaced : Bool}

theorem firstAction_cons_quiet {key : Key} (h : key.action displaced = .none) (rest : List Key) :
    firstAction displaced (key :: rest) = firstAction displaced rest := by
  rw [firstAction, if_pos h]

theorem firstAction_cons {key : Key} (h : key.action displaced ≠ .none) (rest : List Key) :
    firstAction displaced (key :: rest) = key.action displaced := by
  rw [firstAction, if_neg h]

theorem forwarded_cons_quiet {key : Key} (h : key.action false = .none) (rest : List Key) :
    forwarded detachPrefix false (key :: rest) =
      key.bytes detachPrefix ++ forwarded detachPrefix false rest := by
  simp [forwarded, quietKeys, h]

theorem forwarded_cons {key : Key} (h : key.action displaced ≠ .none) (rest : List Key) :
    forwarded detachPrefix displaced (key :: rest) = [] := by
  simp [forwarded, quietKeys, h]

@[simp] theorem forwarded_displaced (typed : List Key) : forwarded detachPrefix true typed = [] :=
  if_pos rfl

/-- A read forwards the keys in front of its first action, and does that action. -/
theorem processBytes_eq (armed : Bool) (out chunk : List UInt8) :
    let stream := (if armed then [detachPrefix] else []) ++ chunk
    let typed := keys detachPrefix stream
    InputProcessor.processBytes detachPrefix displaced armed out chunk =
      (⟨out ++ forwarded detachPrefix displaced typed, firstAction displaced typed⟩,
        decide (firstAction displaced typed = .none ∧ unpaired detachPrefix stream ≠ [])) := by
  fun_induction InputProcessor.processBytes detachPrefix displaced armed out chunk with
  | case1 armed out =>
    cases armed <;> simp [keys, unpaired, firstAction, forwarded, quietKeys]
  | case2 out chunk =>
    have h : (Key.pair detachKey).action displaced = .detach := by simp [Key.action]
    simp [firstAction_cons, forwarded_cons, h]
  | case3 out byte chunk hne hdisplaced ih =>
    have h : (Key.pair byte).action displaced = .none := by simp [Key.action, hne]
    subst hdisplaced
    simpa [firstAction_cons_quiet h] using ih
  | case4 out byte chunk hne hcontrol ih =>
    have h : (Key.pair byte).action displaced = .none := by simp [Key.action, hne]
    rw [Bool.not_eq_true] at hcontrol
    subst hcontrol
    simpa [firstAction_cons_quiet h, forwarded_cons_quiet h, Key.bytes] using ih
  | case5 out chunk ih => simpa using ih
  | case6 out chunk hdisplaced hne =>
    have h : (Key.plain takeControlKey).action displaced = .takeControl := by
      simp [Key.action, hdisplaced]
    simp [keys_plain hne, firstAction_cons, forwarded_cons, h]
  | case7 out byte chunk hne hdisplaced hkey ih =>
    have h : (Key.plain byte).action displaced = .none := by simp [Key.action, hkey]
    subst hdisplaced
    simpa [keys_plain hne, unpaired_plain hne, firstAction_cons_quiet h] using ih
  | case8 out byte chunk hne hcontrol ih =>
    rw [Bool.not_eq_true] at hcontrol
    subst hcontrol
    have h : (Key.plain byte).action false = .none := by simp [Key.action]
    simpa [keys_plain hne, unpaired_plain hne, firstAction_cons_quiet h, forwarded_cons_quiet h,
      Key.bytes] using ih

end

/-- The prefix byte an armed processor waits with. -/
def InputProcessor.waiting (input : InputProcessor) : List UInt8 :=
  if input.armed then [input.detachPrefix] else []

theorem process_result (input : InputProcessor) (chunk : List UInt8) (displaced : Bool) :
    let typed := keys input.detachPrefix (input.waiting ++ chunk)
    (input.process chunk displaced).1 =
      ⟨forwarded input.detachPrefix displaced typed, firstAction displaced typed⟩ := by
  simp only [InputProcessor.process, processBytes_eq, InputProcessor.waiting, List.nil_append]

@[simp] theorem process_detachPrefix (input : InputProcessor) (chunk : List UInt8)
    (displaced : Bool) :
    (input.process chunk displaced).2.detachPrefix = input.detachPrefix := rfl

theorem process_waiting (input : InputProcessor) (chunk : List UInt8) (displaced : Bool) :
    (input.process chunk displaced).2.waiting =
      waitAfter input.detachPrefix input.waiting ⟨chunk, displaced⟩ := by
  simp only [InputProcessor.process, processBytes_eq, InputProcessor.waiting, waitAfter]
  rcases @unpaired_cases input.detachPrefix
    ((if input.armed then [input.detachPrefix] else []) ++ chunk) with h | h
  · simp [h]
  · simp [h]

/-! ## A run in control -/

theorem firstAction_append_quiet {displaced : Bool} {front : List Key}
    (h : firstAction displaced front = .none) (back : List Key) :
    firstAction displaced (front ++ back) = firstAction displaced back := by
  induction front with
  | nil => rfl
  | cons key front ih =>
    by_cases hkey : key.action displaced = .none
    · rw [firstAction_cons_quiet hkey] at h
      rw [List.cons_append, firstAction_cons_quiet hkey, ih h]
    · rw [firstAction_cons hkey] at h
      exact absurd h hkey

theorem firstAction_append {displaced : Bool} {front : List Key}
    (h : firstAction displaced front ≠ .none) (back : List Key) :
    firstAction displaced (front ++ back) = firstAction displaced front := by
  induction front with
  | nil => exact absurd rfl h
  | cons key front ih =>
    by_cases hkey : key.action displaced = .none
    · rw [firstAction_cons_quiet hkey] at h
      rw [List.cons_append, firstAction_cons_quiet hkey, firstAction_cons_quiet hkey, ih h]
    · rw [List.cons_append, firstAction_cons hkey, firstAction_cons hkey]

theorem forwarded_append_quiet {detachPrefix : UInt8} {front : List Key}
    (h : firstAction false front = .none) (back : List Key) :
    forwarded detachPrefix false (front ++ back) =
      forwarded detachPrefix false front ++ forwarded detachPrefix false back := by
  induction front with
  | nil => rfl
  | cons key front ih =>
    by_cases hkey : key.action false = .none
    · rw [firstAction_cons_quiet hkey] at h
      rw [List.cons_append, forwarded_cons_quiet hkey, forwarded_cons_quiet hkey, ih h,
        List.append_assoc]
    · rw [firstAction_cons hkey] at h
      exact absurd h hkey

theorem forwarded_append {detachPrefix : UInt8} {front : List Key}
    (h : firstAction false front ≠ .none) (back : List Key) :
    forwarded detachPrefix false (front ++ back) = forwarded detachPrefix false front := by
  induction front with
  | nil => exact absurd rfl h
  | cons key front ih =>
    by_cases hkey : key.action false = .none
    · rw [firstAction_cons_quiet hkey] at h
      rw [List.cons_append, forwarded_cons_quiet hkey, forwarded_cons_quiet hkey, ih h]
    · rw [List.cons_append, forwarded_cons hkey, forwarded_cons hkey]

theorem action_in_control_iff (key : Key) : key.action false = .none ↔ key ≠ .pair detachKey := by
  cases key with
  | plain byte => simp [Key.action]
  | pair partner => simp [Key.action]

/-- In control only the detach pair is an action. -/
theorem firstAction_in_control (typed : List Key) :
    firstAction false typed = if .pair detachKey ∈ typed then .detach else .none := by
  induction typed with
  | nil => rfl
  | cons key typed ih =>
    by_cases h : key = .pair detachKey
    · rw [h, firstAction_cons (by decide), if_pos List.mem_cons_self]
      decide
    · rw [firstAction_cons_quiet ((action_in_control_iff key).mpr h), ih]
      simp [Ne.symm h]

/-- What reads in control add up to. -/
theorem runReads_in_control (input : InputProcessor) (chunks : List (List UInt8)) :
    let results := runReads input (chunks.map fun chunk => ⟨chunk, false⟩)
    let typed := keys input.detachPrefix (input.waiting ++ chunks.flatten)
    results.flatMap (·.forward) = forwarded input.detachPrefix false typed ∧
      ((∃ result ∈ results, result.action = .detach) ↔ firstAction false typed = .detach) := by
  dsimp only
  induction chunks generalizing input with
  | nil =>
    have h : keys input.detachPrefix input.waiting = [] := by
      unfold InputProcessor.waiting
      split <;> simp [keys]
    simp [runReads, h, forwarded, quietKeys, firstAction]
  | cons chunk chunks ih =>
    have hresult := process_result input chunk false
    have hwaiting := process_waiting input chunk false
    dsimp only at hresult hwaiting
    rw [List.flatten_cons, ← List.append_assoc, keys_append, List.map_cons, runReads]
    dsimp only
    rw [hresult]
    by_cases hquiet : firstAction false (keys input.detachPrefix (input.waiting ++ chunk)) = .none
    · rw [waitAfter, if_pos hquiet] at hwaiting
      obtain ⟨hforward, haction⟩ := ih (input.process chunk false).2
      rw [hwaiting, process_detachPrefix] at hforward haction
      rw [hquiet, if_neg (by simp), forwarded_append_quiet hquiet, firstAction_append_quiet hquiet]
      refine ⟨by rw [List.flatMap_cons, hforward], ?_⟩
      rw [← haction]
      simp
    · have hdetach : firstAction false (keys input.detachPrefix (input.waiting ++ chunk)) =
          .detach := by
        rw [firstAction_in_control] at hquiet ⊢
        split at hquiet
        next hmem => rw [if_pos hmem]
        next => exact absurd rfl hquiet
      rw [hdetach, if_pos rfl, forwarded_append hquiet, firstAction_append hquiet]
      simp [hdetach]

/-! ## A run of both kinds -/

/-- The prefix byte that waits after reads. A read that asks for control is not looked at past the
key that asks. -/
def waitingAfter (detachPrefix : UInt8) (reads : List Read) : List UInt8 :=
  reads.foldl (waitAfter detachPrefix) []

/-- A take-control key on its own, before any detach pair. -/
def AsksForControl (typed : List Key) : Prop :=
  .plain takeControlKey ∈ typed.takeWhile fun key => key ≠ .pair detachKey

instance (typed : List Key) : Decidable (AsksForControl typed) :=
  inferInstanceAs (Decidable (_ ∈ _))

theorem firstAction_displaced (typed : List Key) :
    firstAction true typed = .takeControl ↔ AsksForControl typed := by
  unfold AsksForControl
  induction typed with
  | nil => simp [firstAction]
  | cons key typed ih =>
    cases key with
    | plain byte =>
      by_cases h : byte = takeControlKey
      · simp [firstAction, Key.action, h]
      · rw [firstAction_cons_quiet (by simp [Key.action, h]), ih]
        simp [Ne.symm h]
    | pair partner =>
      by_cases h : partner = detachKey
      · simp [firstAction, Key.action, h]
      · rw [firstAction_cons_quiet (by simp [Key.action, h]), ih]
        simp [h]

theorem runReads_result (input : InputProcessor) {reads : List Read} {i : Nat} {read : Read}
    {result : ProcessedInput} (hread : reads[i]? = some read)
    (hresult : (runReads input reads)[i]? = some result) :
    let waiting := (reads.take i).foldl (waitAfter input.detachPrefix) input.waiting
    let typed := keys input.detachPrefix (waiting ++ read.chunk)
    result = ⟨forwarded input.detachPrefix read.displaced typed, firstAction read.displaced typed⟩ := by
  induction reads generalizing input i with
  | nil => simp at hread
  | cons first reads ih =>
    rw [runReads] at hresult
    cases i with
    | zero =>
      have hsame : (input.process first.chunk first.displaced).1 = result := by
        split at hresult <;> simpa using hresult
      obtain rfl : first = read := by simpa using hread
      rw [← hsame]
      exact process_result input first.chunk first.displaced
    | succ i =>
      split at hresult
      · simp at hresult
      · rw [List.getElem?_cons_succ] at hread hresult
        have h := ih (input.process first.chunk first.displaced).2 hread hresult
        rwa [process_waiting, process_detachPrefix] at h

/-- In control the cuts between reads do not matter: the reads detach at the first detach pair of
the whole stream, and forward what is in front of it but for a prefix byte that still waits.
Displaced, a read forwards nothing, and asks for control when a take-control key stands on its own
before any detach pair, after the prefix byte that waits. -/
theorem chords_of_reads (detachPrefix : UInt8) :
    (∀ chunks : List (List UInt8),
      let results := runReads (.new detachPrefix) (chunks.map fun chunk => ⟨chunk, false⟩)
      let typed := keys detachPrefix chunks.flatten
      ((∃ result ∈ results, result.action = .detach) ↔ .pair detachKey ∈ typed) ∧
        results.flatMap (·.forward) =
          (typed.takeWhile fun key => key ≠ .pair detachKey).flatMap (Key.bytes detachPrefix) ∧
        typed.flatMap (Key.bytes detachPrefix) ++ unpaired detachPrefix chunks.flatten =
          chunks.flatten) ∧
    ∀ (reads : List Read) (i : Nat) (chunk : List UInt8) (result : ProcessedInput),
      reads[i]? = some ⟨chunk, true⟩ → (runReads (.new detachPrefix) reads)[i]? = some result →
      result.forward = [] ∧
        (result.action = .takeControl ↔
          AsksForControl (keys detachPrefix (waitingAfter detachPrefix (reads.take i) ++ chunk))) := by
  refine ⟨fun chunks => ?_, fun reads i chunk result hread hresult => ?_⟩
  · obtain ⟨hforward, haction⟩ := runReads_in_control (.new detachPrefix) chunks
    refine ⟨?_, ?_, keys_bytes _⟩
    · rw [haction, firstAction_in_control]
      simp [InputProcessor.waiting, InputProcessor.new]
    · rw [hforward, forwarded, if_neg (by decide), quietKeys]
      congr 1
      exact congrArg (List.takeWhile · _) (funext fun key => by simp only [action_in_control_iff])
  · have h : result = ⟨[], firstAction true (keys detachPrefix
        (waitingAfter detachPrefix (reads.take i) ++ chunk))⟩ :=
      runReads_result (.new detachPrefix) hread hresult
    rw [h]
    exact ⟨rfl, firstAction_displaced _⟩

theorem chords_of_reads_taken :
    let reads : List Read := [⟨[0x61, 0x1C], false⟩, ⟨[0x64], true⟩]
    let result : ProcessedInput := ⟨[], .detach⟩
    result.forward = [] ∧
      (result.action = .takeControl ↔
        AsksForControl (keys 0x1C (waitingAfter 0x1C (reads.take 1) ++ [0x64]))) :=
  (chords_of_reads 0x1C).2 [⟨[0x61, 0x1C], false⟩, ⟨[0x64], true⟩] 1 [0x64] ⟨[], .detach⟩ rfl
    (by decide)

/-- A prefix byte behind the key that asks for control is forgotten with the rest of its read, and
a prefix byte that is the take-control key never asks. -/
theorem chords_discarded :
    ¬ ((runReads (.new 0x1C) [⟨[0x20, 0x1C], true⟩, ⟨[0x20], true⟩])[1]?.map (·.action) =
          some .takeControl ↔
        AsksForControl (keys 0x1C (unpaired 0x1C [0x20, 0x1C] ++ [0x20]))) ∧
      ¬ ((runReads (.new takeControlKey) [⟨[takeControlKey], true⟩])[0]?.map (·.action) =
          some .takeControl ↔
        takeControlKey ∈ unpaired takeControlKey [takeControlKey]) := by
  decide

end Climon.Cli.DetachChord
