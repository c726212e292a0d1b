import Climon.Cli.Args
import Climon.Lib.ChunkedText
import Climon.Proto.Meta

namespace Climon.Session.TitleCapture

open Climon.Cli.Args Climon.Lib.ChunkedText Climon.Lib.OscSequences Climon.Lib.Utf8 Climon.Proto.Meta

/-! # Title and progress capture

Every byte that the scan looks for is ASCII, so it reads characters here.
-/

def maxTitleLength : Nat := 256

def maxRemainder : Nat := 8192

/-- Drop control characters, which could carry sequences of their own. -/
def sanitizeTitle (name : String) : String :=
  String.ofList
    ((name.toList.filter fun c => !(c.toNat ≤ 0x1F || c.toNat == 0x7F)).take maxTitleLength)

/-- The update of a state number, of which 0 clears the progress. -/
def parseState (value : UInt8) : List Char → Option (Option TerminalProgress)
  | ['0'] => some none
  | ['1'] => some (some ⟨.normal, some value⟩)
  | ['2'] => some (some ⟨.error, none⟩)
  | ['3'] => some (some ⟨.indeterminate, none⟩)
  | ['4'] => some (some ⟨.warning, none⟩)
  | _ => none

/-- `4;state[;percent]` -/
def parseOsc94Progress (payload : String) : Option (Option TerminalProgress) :=
  match payload.toList.splitOn ';' with
  | first :: state :: rest =>
    if first ≠ ['4'] then none
    else
      let percent := rest.head?.bind fun part => parseU16 (String.ofList part)
      let value : UInt8 := percent.elim 0 fun p => (min p 100).toUInt8
      parseState value state
  | _ => none

/-- What was observed so far; a progress of `some none` was cleared. -/
structure Captured where
  title : Option String
  progress : Option (Option TerminalProgress)
  deriving DecidableEq, Repr

def Captured.update (captured : Captured) (code payload : List Char) : Captured :=
  if code = ['0'] ∨ code = ['2'] then
    { captured with title := some (sanitizeTitle (String.ofList payload)) }
  else if code = ['9'] then
    match parseOsc94Progress (String.ofList payload) with
    | some update => { captured with progress := some update }
    | none => captured
  else captured

/-- A sequence that never ends is given up past the cap. -/
def boundedRemainder (tail : List Char) : String :=
  let text := String.ofList tail
  if (asBytes text).length > maxRemainder then "" else text

/-- The payload up to BEL or `ESC \`, and what follows them. -/
def findTerminator : List Char → Option (List Char × List Char)
  | [] => none
  | c :: rest =>
    if c = bel then some ([], rest)
    else if c = esc ∧ rest.head? = some '\\' then some ([], rest.tail)
    else (findTerminator rest).map fun found => (c :: found.1, found.2)

theorem length_findTerminator {text payload after : List Char}
    (h : findTerminator text = some (payload, after)) : after.length ≤ text.length := by
  induction text generalizing payload with
  | nil => cases h
  | cons c rest ih =>
    unfold findTerminator at h
    split_ifs at h
    · cases h
      simp
    · cases h
      simp only [List.length_tail, List.length_cons]
      omega
    · obtain ⟨found, hfound, heq⟩ := Option.map_eq_some_iff.mp h
      cases heq
      have := ih hfound
      simp only [List.length_cons]
      omega

/-- The remainder and what is captured. An ESC that opens no command is skipped. -/
def scan (captured : Captured) : List Char → String × Captured
  | [] => ("", captured)
  | c :: rest =>
    if c ≠ esc then scan captured rest
    else
      match rest with
      | [] => (boundedRemainder (c :: rest), captured)
      | d :: body =>
        if d ≠ ']' then scan captured (d :: body)
        else
          match _ : body.dropWhile Char.isDigit with
          | [] => (boundedRemainder (c :: rest), captured)
          | e :: text =>
            if e ≠ ';' then scan captured (d :: body)
            else
              match _ : findTerminator text with
              | some (payload, after) =>
                scan (captured.update (body.takeWhile Char.isDigit) payload) after
              | none => (boundedRemainder (c :: rest), captured)
termination_by input => input.length
decreasing_by
  · simp
  · simp
  · simp
  · next hbody _ hfound =>
    have hlength := (List.dropWhile_suffix (l := body) Char.isDigit).length_le
    have hafter := length_findTerminator hfound
    rw [hbody, List.length_cons] at hlength
    simp only [List.length_cons]
    omega

def captureTerminalOutput (captured : Captured) (chunk : List UInt8) (remainder : String) :
    String × Captured :=
  scan captured (remainder.toList ++ (fromUtf8Lossy chunk).toList)

/-! ## The scan reads commands -/

def Captured.take (captured : Captured) (command : Command Char) : Captured :=
  captured.update command.code command.text

theorem closing_take (code read held : List Char) {a : Char} (h : a ≠ '\\') :
    (Reader.closing code read held).take a a = (Reader.text code (read ++ held)).take a a := by
  simp [Reader.take, h]

/-- Unless a backslash comes next, an ESC is part of the payload. -/
theorem run_closing (code read held : List Char) {rest : List Char}
    (h : rest.head? ≠ some '\\') :
    (run some (.closing code read held) rest).1 = (run some (.text code (read ++ held)) rest).1 ∧
      (run some (.closing code read held) rest).2.pending =
        (run some (.text code (read ++ held)) rest).2.pending := by
  cases rest with
  | nil => simp [run, Reader.pending]
  | cons d rest =>
    have hd : d ≠ '\\' := fun hd => h (by simp [hd])
    have hstep : (Reader.closing code read held).step some d =
        (Reader.text code (read ++ held)).step some d := closing_take code read held hd
    rw [run, run, hstep]
    exact ⟨rfl, rfl⟩

theorem text_step_esc (code read : List Char) :
    (Reader.text code read).step some esc = (.closing code read [esc], none) := rfl

theorem text_step (code read : List Char) {c : Char} (hbel : c ≠ bel) (hesc : c ≠ esc) :
    (Reader.text code read).step some c = (.text code (read ++ [c]), none) := by
  simp [Reader.step, Reader.take, hbel, hesc]

theorem run_found (code read : List Char) {text payload after : List Char}
    (h : findTerminator text = some (payload, after)) :
    (run some (.text code read) text).1 =
        ⟨code, read ++ payload⟩ :: (run some .ground after).1 ∧
      (run some (.text code read) text).2.pending = (run some .ground after).2.pending := by
  induction text generalizing read payload with
  | nil => cases h
  | cons c rest ih =>
    unfold findTerminator at h
    split_ifs at h with hbel hend
    · cases h
      have hstep : (Reader.text code read).step some c = (.ground, some ⟨code, read⟩) := by
        simp [Reader.step, Reader.take, hbel]
      rw [run, hstep, List.append_nil]
      exact ⟨rfl, rfl⟩
    · cases h
      obtain ⟨rfl, hhead⟩ := hend
      obtain ⟨after, rfl⟩ := List.head?_eq_some_iff.mp hhead
      rw [List.append_nil]
      exact ⟨rfl, rfl⟩
    · obtain ⟨found, hfound, heq⟩ := Option.map_eq_some_iff.mp h
      cases heq
      have hlater := ih (read ++ [c]) hfound
      rw [List.append_assoc, List.singleton_append] at hlater
      by_cases hesc : c = esc
      · subst hesc
        have hhead : rest.head? ≠ some '\\' := fun hhead => hend ⟨rfl, hhead⟩
        have hclosing := run_closing code read [esc] hhead
        rw [run, text_step_esc]
        dsimp only [Option.toList]
        rw [List.nil_append, hclosing.1, hclosing.2]
        exact hlater
      · rw [run, text_step code read hbel hesc]
        exact hlater

theorem run_unfound (code read : List Char) {text : List Char} (h : findTerminator text = none) :
    (run some (.text code read) text).1 = [] ∧
      (run some (.text code read) text).2.pending = esc :: ']' :: code ++ ';' :: read ++ text := by
  induction text generalizing read with
  | nil => simp [run, Reader.pending]
  | cons c rest ih =>
    unfold findTerminator at h
    split_ifs at h with hbel hend
    have hlater := ih (read ++ [c]) (Option.map_eq_none_iff.mp h)
    have hpending : esc :: ']' :: code ++ ';' :: (read ++ [c]) ++ rest =
        esc :: ']' :: code ++ ';' :: read ++ c :: rest := by
      simp
    rw [hpending] at hlater
    by_cases hesc : c = esc
    · subst hesc
      have hhead : rest.head? ≠ some '\\' := fun hhead => hend ⟨rfl, hhead⟩
      have hclosing := run_closing code read [esc] hhead
      rw [run, text_step_esc]
      dsimp only [Option.toList]
      rw [List.nil_append, hclosing.1, hclosing.2]
      exact hlater
    · rw [run, text_step code read hbel hesc]
      exact hlater

theorem ground_step {c : Char} (h : c ≠ esc) : Reader.ground.step some c = (.ground, none) := by
  simp [Reader.step, Reader.take, h]

theorem run_number {digits body : List Char} (h : ∀ c ∈ body, c.isDigit = true) :
    run some (.number digits) body = ([], .number (digits ++ body)) := by
  induction body generalizing digits with
  | nil => simp [run]
  | cons c body ih =>
    rw [List.forall_mem_cons] at h
    have hesc : c ≠ esc := by
      rintro rfl
      exact absurd h.1 (by decide)
    have hstep : (Reader.number digits).step some c = (.number (digits ++ [c]), none) := by
      simp [Reader.step, Reader.take, hesc, h.1]
    rw [run, hstep, ih h.2]
    simp

theorem run_opener {digits : List Char} (h : ∀ c ∈ digits, c.isDigit = true) (rest : List Char) :
    run some .ground (esc :: ']' :: (digits ++ rest)) = run some (.number digits) rest := by
  have hnumber : run some (.number []) digits = ([], .number digits) := run_number h
  change run some (.number []) (digits ++ rest) = _
  rw [run_append, hnumber]
  rfl

theorem run_command {digits : List Char} (h : ∀ c ∈ digits, c.isDigit = true) (text : List Char) :
    run some .ground (esc :: ']' :: (digits ++ ';' :: text)) = run some (.text digits []) text := by
  rw [run_opener h]
  rfl

/-- Nothing but a semicolon makes a command of digits. -/
theorem run_not_opener {digits : List Char} (h : ∀ c ∈ digits, c.isDigit = true) {e : Char}
    (hdigit : e.isDigit = false) (he : e ≠ ';') (text : List Char) :
    run some .ground (esc :: ']' :: (digits ++ e :: text)) =
      run some .ground (']' :: (digits ++ e :: text)) := by
  have hplain : esc ∉ ']' :: digits := by
    rw [List.mem_cons, not_or]
    refine ⟨by decide, ?_⟩
    intro hmem
    exact absurd (h esc hmem) (by decide)
  have hskip : run some .ground (']' :: (digits ++ e :: text)) = run some .ground (e :: text) := by
    rw [← List.cons_append, run_append, run_plain hplain]
    rfl
  have hstep : (Reader.number digits).step some e = Reader.ground.step some e := by
    simp [Reader.step, Reader.take, hdigit, he]
  rw [run_opener h, hskip, run, run, hstep]

/-- A scan captures from the commands that it completes, and leaves what is pending. -/
theorem scan_eq (captured : Captured) (input : List Char) :
    scan captured input =
      (boundedRemainder (run some .ground input).2.pending,
        (run some .ground input).1.foldl Captured.take captured) := by
  have hdigits : ∀ body : List Char, ∀ c ∈ body.takeWhile Char.isDigit, c.isDigit = true :=
    fun _ _ => List.mem_takeWhile_imp
  have hsplit : ∀ body : List Char,
      body = body.takeWhile Char.isDigit ++ body.dropWhile Char.isDigit :=
    fun _ => List.takeWhile_append_dropWhile.symm
  have hdigit : ∀ {body text : List Char} {e : Char}, body.dropWhile Char.isDigit = e :: text →
      e.isDigit = false := by
    intro body text e hbody
    have hhead := List.head?_dropWhile_not Char.isDigit body
    rw [hbody] at hhead
    exact hhead
  fun_induction scan captured input with
  | case1 captured => rfl
  | case2 captured c rest hc ih =>
    rw [ih, run, ground_step hc]
    rfl
  | case3 captured c hc =>
    rw [not_not] at hc
    subst hc
    rfl
  | case4 captured c hc d body hd ih =>
    rw [not_not] at hc
    subst hc
    have hstep : Reader.escape.step some d = Reader.ground.step some d := by
      simp [Reader.step, Reader.take, hd]
    have hrun : run some .ground (esc :: d :: body) = run some .ground (d :: body) := by
      change run some .escape (d :: body) = _
      rw [run, run, hstep]
    rw [ih, hrun]
  | case5 captured c hc d body hd hbody =>
    rw [not_not] at hc hd
    subst hc hd
    have hrun := run_opener (List.dropWhile_eq_nil_iff.mp hbody) []
    rw [List.append_nil] at hrun
    rw [hrun]
    rfl
  | case6 captured c hc d body hd e text hbody he ih =>
    rw [not_not] at hc hd
    subst hc hd
    have hrun := run_not_opener (hdigits body) (hdigit hbody) he text
    rw [← hbody, ← hsplit body] at hrun
    rw [ih, hrun]
  | case7 captured c hc d body hd e text hbody he payload after hfound ih =>
    rw [not_not] at hc hd he
    subst hc hd he
    have hrun := run_command (hdigits body) text
    rw [← hbody, ← hsplit body] at hrun
    have hpayload := run_found (body.takeWhile Char.isDigit) [] hfound
    rw [List.nil_append] at hpayload
    rw [ih, hrun, hpayload.1, hpayload.2]
    rfl
  | case8 captured c hc d body hd e text hbody he hfound =>
    rw [not_not] at hc hd he
    subst hc hd he
    have hrun := run_command (hdigits body) text
    rw [← hbody, ← hsplit body] at hrun
    have hnone := run_unfound (body.takeWhile Char.isDigit) [] hfound
    have hpending : esc :: ']' :: body.takeWhile Char.isDigit ++ ';' :: [] ++ text =
        esc :: ']' :: body := by
      conv => rhs; rw [hsplit body, hbody]
      simp
    rw [hpending] at hnone
    rw [hrun, hnone.1, hnone.2]
    rfl

/-! ## Chunk by chunk -/

/-- The capture over the chunks of a stream, each with the remainder of the one before it. -/
def captureChunks : Captured → String → List (List UInt8) → Captured
  | captured, _, [] => captured
  | captured, remainder, chunk :: chunks =>
    let result := captureTerminalOutput captured chunk remainder
    captureChunks result.2 result.1 chunks

/-- The command that is unfinished after some chunks, as it is decoded chunk by chunk. -/
def pendingAfter (chunks : List (List UInt8)) : List Char :=
  (run some .ground (chunks.flatMap lossyChars)).2.pending

/-- No command that goes on in the next chunk is longer than the cap. -/
def Fits (chunks : List (List UInt8)) : Prop :=
  ∀ front back, chunks = front ++ back → back ≠ [] →
    (asBytes (String.ofList (pendingAfter front))).length ≤ maxRemainder

theorem captureTerminalOutput_eq (captured : Captured) (stream : List UInt8) :
    (captureTerminalOutput captured stream "").2 =
      (run some .ground (lossyChars stream)).1.foldl Captured.take captured := by
  rw [captureTerminalOutput, scan_eq, String.toList_empty, List.nil_append, fromUtf8Lossy,
    String.toList_ofList]

theorem captureTerminalOutput_pending (captured : Captured) (front : List (List UInt8))
    (chunk : List UInt8) :
    captureTerminalOutput captured chunk (String.ofList (pendingAfter front)) =
      (boundedRemainder (pendingAfter (front ++ [chunk])),
        (run some (run some .ground (front.flatMap lossyChars)).2 (lossyChars chunk)).1.foldl
          Captured.take captured) := by
  rw [captureTerminalOutput, scan_eq, fromUtf8Lossy, String.toList_ofList, String.toList_ofList,
    pendingAfter, run_ground_pending, pendingAfter, List.flatMap_append, run_append,
    List.flatMap_singleton]

theorem captureChunks_eq {chunks : List (List UInt8)} (h : Fits chunks) (captured : Captured) :
    captureChunks captured "" chunks =
      (run some .ground (chunks.flatMap lossyChars)).1.foldl Captured.take captured := by
  have hrest : ∀ back front captured, chunks = front ++ back →
      captureChunks captured (String.ofList (pendingAfter front)) back =
        (run some (run some .ground (front.flatMap lossyChars)).2
          (back.flatMap lossyChars)).1.foldl Captured.take captured := by
    intro back
    induction back with
    | nil =>
      intro front captured _
      rfl
    | cons chunk back ih =>
      intro front captured hchunks
      have hmore : chunks = (front ++ [chunk]) ++ back := by rw [hchunks, List.append_assoc]; rfl
      rw [captureChunks, captureTerminalOutput_pending, List.flatMap_cons, run_append,
        List.foldl_append]
      dsimp only
      cases back with
      | nil => rfl
      | cons next back =>
        have hbound := h _ _ hmore (List.cons_ne_nil next back)
        have hkept : boundedRemainder (pendingAfter (front ++ [chunk])) =
            String.ofList (pendingAfter (front ++ [chunk])) := by
          unfold boundedRemainder
          exact if_neg (Nat.not_lt.mpr hbound)
        rw [hkept, ih _ _ hmore, List.flatMap_append, run_append, List.flatMap_singleton]
  exact hrest chunks [] captured rfl

/-! ## The last title and the last progress -/

abbrev IsTitle (code : List Char) : Prop := code = ['0'] ∨ code = ['2']

def titleOf (command : Command Char) : Option String :=
  if IsTitle command.code then some (sanitizeTitle (String.ofList command.text)) else none

def progressOf (command : Command Char) : Option (Option TerminalProgress) :=
  if command.code = ['9'] then parseOsc94Progress (String.ofList command.text) else none

theorem take_eq (captured : Captured) (command : Command Char) :
    captured.take command =
      ⟨(titleOf command).or captured.title, (progressOf command).or captured.progress⟩ := by
  unfold Captured.take Captured.update titleOf progressOf
  by_cases htitle : IsTitle command.code
  · have hprogress : command.code ≠ ['9'] := by
      rcases htitle with hcode | hcode <;> rw [hcode] <;> decide
    rw [if_pos htitle, if_pos htitle, if_neg hprogress]
    rfl
  · rw [if_neg htitle, if_neg htitle]
    by_cases hprogress : command.code = ['9']
    · rw [if_pos hprogress, if_pos hprogress]
      cases parseOsc94Progress (String.ofList command.text) <;> rfl
    · rw [if_neg hprogress, if_neg hprogress]
      rfl

theorem getLast?_filterMap_concat {α β : Type} (f : α → Option β) (l : List α) (a : α)
    (otherwise : Option β) :
    ((l ++ [a]).filterMap f).getLast?.or otherwise =
      (f a).or ((l.filterMap f).getLast?.or otherwise) := by
  rw [List.filterMap_append]
  cases hfa : f a with
  | none => simp [hfa]
  | some b => simp [hfa]

/-- The last title and the last progress win. -/
theorem foldl_take (captured : Captured) (commands : List (Command Char)) :
    commands.foldl Captured.take captured =
      ⟨(commands.filterMap titleOf).getLast?.or captured.title,
        (commands.filterMap progressOf).getLast?.or captured.progress⟩ := by
  induction commands using List.reverseRecOn with
  | nil => rfl
  | append_singleton commands command ih =>
    rw [List.foldl_append, ih, List.foldl_cons, List.foldl_nil, take_eq,
      getLast?_filterMap_concat, getLast?_filterMap_concat]

/-! ## Decoding whole and apart -/

section

variable {part part' : List Char}

theorem parseState_wide (h : ∃ c ∈ part, Wide c) (value : UInt8) : parseState value part = none := by
  obtain ⟨c, hc, hwide⟩ := h
  unfold parseState
  split <;> first
    | rfl
    | (rw [List.mem_singleton] at hc
       subst hc
       exact absurd hwide (by decide))

theorem parseU16_wide (h : ∃ c ∈ part, Wide c) : parseU16 (String.ofList part) = none := by
  obtain ⟨c, hc, hwide⟩ := h
  have hbad : ∀ {digits : List Char}, c ∈ digits → digits.all Char.isDigit = false := by
    intro digits hdigits
    rw [List.all_eq_false]
    exact ⟨c, hdigits, by simp [hwide.not_isDigit]⟩
  have hplus : c ≠ '+' := hwide.ne (by decide)
  unfold parseU16
  rw [String.toList_ofList]
  dsimp only
  split
  next digits =>
    rw [List.mem_cons] at hc
    rw [if_neg (by simp [hbad (hc.resolve_left hplus)])]
  next => rw [if_neg (by simp [hbad hc])]

theorem parseState_alike (h : Alike part part') (value : UInt8) :
    parseState value part = parseState value part' := by
  rcases h with rfl | ⟨h, h'⟩
  · rfl
  · rw [parseState_wide h, parseState_wide h']

theorem parseU16_alike (h : Alike part part') :
    parseU16 (String.ofList part) = parseU16 (String.ofList part') := by
  rcases h with rfl | ⟨h, h'⟩
  · rfl
  · rw [parseU16_wide h, parseU16_wide h']

end

/-- A progress reads the same from alike fields. -/
theorem parse_alike {payload payload' : List Char}
    (h : List.Forall₂ Alike (payload.splitOn ';') (payload'.splitOn ';')) :
    parseOsc94Progress (String.ofList payload) = parseOsc94Progress (String.ofList payload') := by
  unfold parseOsc94Progress
  rw [String.toList_ofList, String.toList_ofList]
  generalize payload.splitOn ';' = fields at h ⊢
  generalize payload'.splitOn ';' = fields' at h ⊢
  have hfour : ∀ c ∈ ['4'], ¬ Wide c := by decide
  rcases h with _ | ⟨hfirst, _ | ⟨hstate, hrest⟩⟩
  · rfl
  · rfl
  · dsimp only
    simp only [ne_eq, hfirst.eq_iff hfour, parseState_alike hstate]
    rcases hrest with _ | ⟨hpercent, hmore⟩
    · rfl
    · simp only [List.head?_cons, Option.bind_some, parseU16_alike hpercent]

/-- The commands of a stream in chunks, their texts not yet decoded. -/
def commandsOf (chunks : List (List UInt8)) : List (Command Token) :=
  (run Token.view .ground (tokensOf chunks)).1

theorem run_apart (chunks : List (List UInt8)) :
    (run some .ground (chunks.flatMap lossyChars)).1 =
      (commandsOf chunks).map (Command.decode Token.apart) := by
  rw [← tokensOf_apart]
  exact congrArg Prod.fst (run_decode decodes_apart .ground (tokensOf chunks))

theorem run_whole (chunks : List (List UInt8)) :
    (run some .ground (lossyChars chunks.flatten)).1 =
      (commandsOf chunks).map (Command.decode Token.whole) := by
  rw [← tokensOf_whole]
  exact congrArg Prod.fst (run_decode decodes_whole .ground (tokensOf chunks))

theorem progressOf_decode (command : Command Token) :
    progressOf (command.decode Token.apart) = progressOf (command.decode Token.whole) := by
  unfold progressOf Command.decode
  split
  · exact parse_alike (alike_fields decodes_apart decodes_whole (by decide) command.text)
  · rfl

/-- What one call on a stream captures, with the last complete title and progress winning, is what is
captured of its chunks. -/
def Agrees (chunks : List (List UInt8)) : Prop :=
  ∀ captured,
    let whole := (captureTerminalOutput captured chunks.flatten "").2
    let commands := (run some .ground (lossyChars chunks.flatten)).1
    captureChunks captured "" chunks = whole ∧
      whole.title = (commands.filterMap titleOf).getLast?.or captured.title ∧
      whole.progress = (commands.filterMap progressOf).getLast?.or captured.progress

/-- The payload of the last title, decoded in the pieces in which it came, makes the same title as
decoded at once. -/
def TitleIntact (chunks : List (List UInt8)) : Prop :=
  ∀ command, ((commandsOf chunks).filter fun command => IsTitle command.code).getLast? =
      some command →
    sanitizeTitle (String.ofList (command.text.flatMap Token.apart)) =
      sanitizeTitle (String.ofList (command.text.flatMap Token.whole))

theorem filterMap_titleOf (dec : Token → List Char) (commands : List (Command Token)) :
    (commands.map (Command.decode dec)).filterMap titleOf =
      (commands.filter fun command => IsTitle command.code).map fun command =>
        sanitizeTitle (String.ofList (command.text.flatMap dec)) := by
  induction commands with
  | nil => rfl
  | cons command commands ih =>
    by_cases htitle : IsTitle command.code
    · simp [titleOf, Command.decode, htitle, ih]
    · simp [titleOf, Command.decode, htitle, ih]

theorem titles_eq_iff (chunks : List (List UInt8)) :
    (((commandsOf chunks).map (Command.decode Token.apart)).filterMap titleOf).getLast? =
        (((commandsOf chunks).map (Command.decode Token.whole)).filterMap titleOf).getLast? ↔
      TitleIntact chunks := by
  rw [filterMap_titleOf, filterMap_titleOf, List.getLast?_map, List.getLast?_map, TitleIntact]
  cases ((commandsOf chunks).filter fun command => IsTitle command.code).getLast? with
  | none => simp
  | some command => simp

/-- A title is intact where the chunks decode as the stream does. -/
theorem titleIntact_of_same {chunks : List (List UInt8)}
    (h : chunks.flatMap lossyChars = lossyChars chunks.flatten) : TitleIntact chunks := by
  have hdecode := run_apart chunks
  rw [h, run_whole, List.map_inj_left] at hdecode
  intro command hlast
  have hmem := (List.mem_filter.mp (List.mem_of_getLast? hlast)).1
  have htext := congrArg Command.text (hdecode command hmem)
  dsimp only [Command.decode] at htext
  rw [htext]

/-- No character is cut between chunks that are texts. -/
theorem same_texts (texts : List String) :
    (texts.map asBytes).flatMap lossyChars = lossyChars (texts.map asBytes).flatten := by
  have hflatten : (texts.map asBytes).flatten =
      (texts.flatMap String.toList).flatMap String.utf8EncodeChar := by
    rw [List.flatMap_assoc]
    exact (List.flatMap_def ..).symm
  rw [hflatten, lossyChars_encode, List.flatMap_map]
  apply List.flatMap_congr
  intro text _
  exact lossyChars_encode text.toList

/-- Where no unfinished sequence outgrows the cap, title and progress do not depend on the chunks
exactly when the last title does not. -/
theorem capture_agrees_iff {chunks : List (List UInt8)} (h : Fits chunks) :
    Agrees chunks ↔ TitleIntact chunks := by
  have hprogress : ((commandsOf chunks).map (Command.decode Token.apart)).filterMap progressOf =
      ((commandsOf chunks).map (Command.decode Token.whole)).filterMap progressOf := by
    rw [List.filterMap_map, List.filterMap_map]
    apply List.filterMap_congr
    intro command _
    exact progressOf_decode command
  rw [← titles_eq_iff]
  unfold Agrees
  simp only [captureChunks_eq h, captureTerminalOutput_eq, foldl_take, run_apart, run_whole,
    hprogress, Captured.mk.injEq, and_true]
  constructor
  · intro hall
    simpa using hall ⟨none, none⟩
  · intro htitle captured
    rw [htitle]

/-- The title `ab` in two chunks. -/
def cutInText : List String := ["\x1b]0;a", "b\x07"]

theorem cut_in_text_agrees : Agrees (cutInText.map asBytes) := by
  have hfits : Fits (cutInText.map asBytes) := by
    intro front back hchunks hne
    rcases front with _ | ⟨chunk, _ | ⟨next, front⟩⟩
    · decide
    · cases hchunks
      have hpending : pendingAfter [asBytes "\x1b]0;a"] = [esc, ']', '0', ';', 'a'] := by
        rw [pendingAfter, List.flatMap_singleton, asBytes, lossyChars_encode]
        rfl
      rw [hpending]
      decide
    · have hlength := congrArg List.length hchunks
      have hpos := List.length_pos_iff.mpr hne
      simp only [cutInText, List.map_cons, List.map_nil, List.length_append, List.length_cons,
        List.length_nil] at hlength
      omega
  exact (capture_agrees_iff hfits).mpr (titleIntact_of_same (same_texts cutInText))

/-- A title `é` that is cut between its two bytes. -/
def cutInCharacter : List (List UInt8) := [[0x1B, 0x5D, 0x30, 0x3B, 0xC3], [0xA9, 0x07]]

theorem cut_in_character_lost : ¬ ∀ chunks, Fits chunks → Agrees chunks := by
  intro hall
  have hfirst : lossyChars [0x1B, 0x5D, 0x30, 0x3B, 0xC3] = [esc, ']', '0', ';', '\uFFFD'] := by
    have hfront : decodeFront [0xC3] = ('\uFFFD', 1) := rfl
    have hbytes : ([0x1B, 0x5D, 0x30, 0x3B, 0xC3] : List UInt8) =
        [esc, ']', '0', ';'].flatMap String.utf8EncodeChar ++ [0xC3] := by decide
    rw [hbytes, lossyChars_asBytes, lossyChars, hfront]
    simp [lossyChars]
  have hsecond : lossyChars [0xA9, 0x07] = ['\uFFFD', bel] := by
    have hfront : decodeFront [0xA9, 0x07] = ('\uFFFD', 1) := rfl
    have hlater : lossyChars [0x07] = [bel] := lossyChars_encode [bel]
    rw [lossyChars, hfront]
    exact congrArg _ hlater
  have hapart : cutInCharacter.flatMap lossyChars =
      [esc, ']', '0', ';', '\uFFFD', '\uFFFD', bel] := by
    rw [cutInCharacter, List.flatMap_cons, List.flatMap_singleton, hfirst, hsecond]
    rfl
  have hwhole : lossyChars cutInCharacter.flatten = [esc, ']', '0', ';', 'é', bel] :=
    lossyChars_encode [esc, ']', '0', ';', 'é', bel]
  have hfits : Fits cutInCharacter := by
    intro front back hchunks hne
    rcases front with _ | ⟨chunk, _ | ⟨next, front⟩⟩
    · decide
    · cases hchunks
      have hpending : pendingAfter [[0x1B, 0x5D, 0x30, 0x3B, 0xC3]] =
          [esc, ']', '0', ';', '\uFFFD'] := by
        rw [pendingAfter, List.flatMap_singleton, hfirst]
        rfl
      rw [hpending]
      decide
    · have hlength := congrArg List.length hchunks
      have hpos := List.length_pos_iff.mpr hne
      simp only [cutInCharacter, List.length_append, List.length_cons, List.length_nil] at hlength
      omega
  have hsame := (hall cutInCharacter hfits ⟨none, none⟩).1
  rw [captureChunks_eq hfits, captureTerminalOutput_eq, hapart, hwhole] at hsame
  revert hsame
  decide

end Climon.Session.TitleCapture
