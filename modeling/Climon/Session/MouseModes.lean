import Climon.Lib.AssocList
import Climon.Session.ModeControls
import Mathlib.Data.List.Induction

namespace Climon.Session.MouseModes

open Climon.Lib.Utf8 Climon.Session.Replay Climon.Session.ModeControls

/-! # Mouse-mode tracking over a stream cut into chunks -/

/-- The tracker over the chunks of a stream, each with the remainder of the one before it. -/
def trackChunks (tracked : List Mode) : ModeState → List UInt8 → List (List UInt8) → ModeState
  | modes, _, [] => modes
  | modes, remainder, chunk :: chunks =>
    let result := trackMousePrivateModesFromOutput modes chunk remainder tracked
    trackChunks tracked result.2 result.1 chunks

/-- The positions at which a stream is cut. -/
def cuts : Nat → List (List UInt8) → List Nat
  | _, [] => []
  | pos, chunk :: chunks => (pos + chunk.length) :: cuts (pos + chunk.length) chunks

/-- Every cut inside the control is at least three bytes and at most 64 bytes after its ESC. -/
def survives (cuts : List Nat) (control : Nat × Control) : Bool :=
  cuts.all fun cut =>
    decide (control.1 < cut → cut < control.1 + control.2.width →
      3 ≤ cut - control.1 ∧ cut - control.1 ≤ 64)

def Control.names (mode : Mode) (control : Nat × Control) : Bool :=
  (splitParams control.2.params).contains mode

/-- What the last control that names a mode sets it to. -/
def lastSet (mode : Mode) (controls : List (Nat × Control)) : Option Bool :=
  (controls.filter (Control.names mode)).getLast?.map (·.2.enabled)

/-! ## What a control does to the modes -/

def applyControl (tracked : List Mode) (modes : ModeState) (control : Control) : ModeState :=
  (splitParams control.params).foldl (fun modes param =>
    if tracked.contains param then modes.insert param control.enabled else modes) modes

def applyAll (tracked : List Mode) (modes : ModeState) (controls : List (Nat × Control)) :
    ModeState :=
  (controls.map Prod.snd).foldl (applyControl tracked) modes

section

variable {tracked : List Mode} {modes : ModeState} {mode : Mode}

theorem get_insert (modes : ModeState) (param mode : Mode) (enabled : Bool) :
    (modes.insert param enabled).get mode =
      if mode = param then some enabled else modes.get mode := by
  unfold ModeState.insert ModeState.get
  by_cases h : mode = param
  · rw [if_pos h, h, List.lookup_cons_self]
  · rw [if_neg h, List.lookup_cons, beq_eq_false_iff_ne.mpr h]
    exact Climon.Lib.AssocList.lookup_filter_ne h

theorem get_param (param : Mode) (enabled : Bool) :
    (if tracked.contains param then modes.insert param enabled else modes).get mode =
      if mode ∈ tracked ∧ mode = param then some enabled else modes.get mode := by
  by_cases hparam : mode = param
  · subst hparam
    by_cases htracked : mode ∈ tracked <;> simp [htracked, get_insert]
  · by_cases htracked : param ∈ tracked <;> simp [htracked, hparam, get_insert]

theorem get_params (params : List Mode) (enabled : Bool) :
    (params.foldl (fun modes param =>
        if tracked.contains param then modes.insert param enabled else modes) modes).get mode =
      if mode ∈ tracked ∧ mode ∈ params then some enabled else modes.get mode := by
  induction params generalizing modes with
  | nil => simp
  | cons param params ih =>
    rw [List.foldl_cons, ih, get_param]
    by_cases htracked : mode ∈ tracked
    · by_cases hparam : mode = param
      · subst hparam
        simp [htracked]
      · simp [htracked, hparam]
    · simp [htracked]

theorem get_applyControl (control : Nat × Control) :
    (applyControl tracked modes control.2).get mode =
      if mode ∈ tracked ∧ Control.names mode control = true then some control.2.enabled
      else modes.get mode := by
  rw [applyControl, get_params]
  simp [Control.names]

/-- The last control that names a tracked mode decides; other modes are left alone. -/
theorem get_applyAll (controls : List (Nat × Control)) :
    (applyAll tracked modes controls).get mode =
      if mode ∈ tracked then (lastSet mode controls).or (modes.get mode) else modes.get mode := by
  induction controls using List.reverseRecOn with
  | nil => simp [applyAll, lastSet]
  | append_singleton controls control ih =>
    have happend : applyAll tracked modes (controls ++ [control]) =
        applyControl tracked (applyAll tracked modes controls) control.2 := by
      simp [applyAll]
    rw [happend, get_applyControl, ih]
    by_cases htracked : mode ∈ tracked
    · cases hnames : Control.names mode control <;> simp [htracked, hnames, lastSet]
    · simp [htracked]

end

/-! ## One call -/

theorem frontControl_eq_some {bytes : List UInt8} {control : Control}
    (h : frontControl bytes = some control) :
    ∃ body final rest, bytes = 0x1B :: body ++ final :: rest ∧ (0x1B : UInt8) ∉ body ∧
      (final = 0x68 ∨ final = 0x6C) ∧ body.length + 2 = control.width := by
  simp only [frontControl] at h
  split_ifs at h with hfront
  obtain ⟨hintro, hhead⟩ := hfront
  obtain ⟨final, rest, hrest, hfinal⟩ : ∃ final rest,
      (bytes.drop 3).drop ((bytes.drop 3).takeWhile isParamByte).length = final :: rest ∧
        (final = 0x68 ∨ final = 0x6C) := by
    rcases hhead with hhead | hhead
    · obtain ⟨rest, hrest⟩ := List.head?_eq_some_iff.mp hhead
      exact ⟨_, rest, hrest, .inl rfl⟩
    · obtain ⟨rest, hrest⟩ := List.head?_eq_some_iff.mp hhead
      exact ⟨_, rest, hrest, .inr rfl⟩
  have hparams := List.prefix_iff_eq_take.mp (List.takeWhile_prefix (l := bytes.drop 3) isParamByte)
  cases h
  refine ⟨[0x5B, 0x3F] ++ (bytes.drop 3).takeWhile isParamByte, final, rest, ?_, ?_, hfinal, ?_⟩
  · calc
      bytes = bytes.take 3 ++ bytes.drop 3 := (List.take_append_drop 3 bytes).symm
      _ = escCsiPrivateModePrefix ++ ((bytes.drop 3).takeWhile isParamByte ++ final :: rest) := by
        rw [hintro, ← hrest]
        nth_rewrite 1 [hparams]
        rw [List.take_append_drop]
      _ = _ := by simp [escCsiPrivateModePrefix]
  · intro hmem
    rw [List.mem_append] at hmem
    rcases hmem with hmem | hmem
    · revert hmem
      decide
    · exact (isParamByte_ne (List.mem_takeWhile_imp hmem)).1 rfl
  · simp [Control.width]

/-- What follows the ESC of a complete control. -/
theorem control_tail {b : UInt8} {rest : List UInt8} {control : Control}
    (h : frontControl (b :: rest) = some control) :
    ∃ tail rest', rest = tail ++ rest' ∧ (0x1B : UInt8) ∉ tail ∧
      rest.drop (control.width - 1) = rest' ∧
        ((b :: rest)[control.width - 1]? = some 0x68 ∨
          (b :: rest)[control.width - 1]? = some 0x6C) := by
  obtain ⟨body, final, rest', hbytes, hbody, hfinal, hwidth⟩ := frontControl_eq_some h
  rw [List.cons_append, List.cons.injEq] at hbytes
  have hlast : control.width - 1 = body.length + 1 := by omega
  refine ⟨body ++ [final], rest', by simp [hbytes.2], ?_, ?_, ?_⟩
  · rcases hfinal with rfl | rfl <;> simp [hbody]
  · rw [hlast, hbytes.2, ← List.drop_drop, List.drop_left]
    rfl
  · rw [hlast, List.getElem?_cons_succ, hbytes.2, List.getElem?_append_right (le_refl _)]
    simpa using hfinal

theorem scanModes_cons_some {tracked : List Mode} {b : UInt8} {rest : List UInt8} {control : Control}
    (h : frontControl (b :: rest) = some control) (pos lastEnd : Nat) (modes : ModeState) :
    scanModes tracked (b :: rest) pos lastEnd modes =
      scanModes tracked (rest.drop (control.width - 1)) (pos + control.width)
        (pos + control.width) (applyControl tracked modes control) := by
  simp only [frontControl] at h
  split_ifs at h with hfront
  have hwidth : ∀ n, 3 + n + 1 = n + 4 := by omega
  cases h
  rw [scanModes, if_pos hfront]
  simp only [Control.width, applyControl, hwidth]

theorem scanModes_cons_none {tracked : List Mode} {b : UInt8} {rest : List UInt8}
    (h : frontControl (b :: rest) = none) (pos lastEnd : Nat) (modes : ModeState) :
    scanModes tracked (b :: rest) pos lastEnd modes =
      scanModes tracked rest (pos + 1) lastEnd modes := by
  simp only [frontControl] at h
  split_ifs at h with hfront
  rw [scanModes, if_neg hfront]

theorem scanModes_modes (tracked : List Mode) (bytes : List UInt8) (pos lastEnd start : Nat)
    (modes : ModeState) :
    (scanModes tracked bytes pos lastEnd modes).2 =
      applyAll tracked modes (controls start bytes) := by
  induction hlen : bytes.length using Nat.strongRecOn generalizing bytes pos lastEnd start modes with
  | ind n ih =>
    cases bytes with
    | nil => simp [scanModes, controls, applyAll]
    | cons b rest =>
      rw [List.length_cons] at hlen
      cases hcontrol : frontControl (b :: rest) with
      | none =>
        rw [scanModes_cons_none hcontrol, controls, hcontrol,
          ih rest.length (by omega) _ _ _ (start + 1) _ rfl]
        rfl
      | some control =>
        obtain ⟨tail, rest', hrest, hskip, hdrop, -⟩ := control_tail hcontrol
        have hshort : rest'.length < n := by
          rw [← hlen, hrest, List.length_append]
          omega
        rw [scanModes_cons_some hcontrol, controls, hcontrol, hdrop, hrest,
          controls_skip hskip, ih rest'.length hshort _ _ _ (start + 1 + tail.length) _ rfl]
        rfl

/-- The end of the last complete control has its final letter before it. -/
theorem scanModes_lastEnd (tracked : List Mode) (bytes : List UInt8) (pos lastEnd : Nat)
    (modes : ModeState) :
    (scanModes tracked bytes pos lastEnd modes).1 = lastEnd ∨
      ∃ i, (scanModes tracked bytes pos lastEnd modes).1 = pos + i + 1 ∧
        (bytes[i]? = some 0x68 ∨ bytes[i]? = some 0x6C) := by
  induction hlen : bytes.length using Nat.strongRecOn generalizing bytes pos lastEnd modes with
  | ind n ih =>
    cases bytes with
    | nil => simp [scanModes]
    | cons b rest =>
      rw [List.length_cons] at hlen
      cases hcontrol : frontControl (b :: rest) with
      | none =>
        rw [scanModes_cons_none hcontrol]
        rcases ih rest.length (by omega) rest (pos + 1) lastEnd modes rfl with hsame | ⟨i, hend, hi⟩
        · exact .inl hsame
        · exact .inr ⟨i + 1, by omega, by simpa using hi⟩
      | some control =>
        obtain ⟨tail, rest', hrest, -, hdrop, hletter⟩ := control_tail hcontrol
        have hshort : rest'.length < n := by
          rw [← hlen, hrest, List.length_append]
          omega
        have hpos : 0 < control.width := by simp [Control.width]
        rw [scanModes_cons_some hcontrol, hdrop]
        rcases ih rest'.length hshort rest' (pos + control.width) (pos + control.width)
          (applyControl tracked modes control) rfl with hsame | ⟨i, hend, hi⟩
        · exact .inr ⟨control.width - 1, by omega, hletter⟩
        · refine .inr ⟨control.width - 1 + i + 1, by omega, ?_⟩
          rwa [List.getElem?_cons_succ, ← List.getElem?_drop, hdrop]

theorem find?_reverse_range {p : Nat → Bool} {n i : Nat} :
    (List.range n).reverse.find? p = some i ↔
      i < n ∧ p i = true ∧ ∀ j, i < j → j < n → p j = false := by
  induction n with
  | zero => simp
  | succ n ih =>
    rw [List.range_succ, List.reverse_append, List.reverse_singleton, List.singleton_append]
    cases hn : p n with
    | true =>
      rw [List.find?_cons_of_pos hn, Option.some.injEq]
      constructor
      · rintro rfl
        exact ⟨by omega, hn, by omega⟩
      · rintro ⟨hi, -, hlater⟩
        by_contra hne
        have hfalse := hlater n (by omega) (by omega)
        simp [hn] at hfalse
    | false =>
      rw [List.find?_cons_of_neg (by simp [hn]), ih]
      constructor
      · rintro ⟨hi, hp, hlater⟩
        refine ⟨by omega, hp, ?_⟩
        intro j hj hlt
        by_cases hjn : j = n
        · rw [hjn, hn]
        · exact hlater j hj (by omega)
      · rintro ⟨hi, hp, hlater⟩
        have hne : i ≠ n := by
          rintro rfl
          simp [hn] at hp
        exact ⟨by omega, hp, fun j hj hlt => hlater j hj (by omega)⟩

/-- The last position of the prefix of a control, which no later text can hide. -/
theorem rfind_prefix_append {front text : List UInt8} (h : (0x1B : UInt8) ∉ text) :
    rfind (front ++ (escCsiPrivateModePrefix ++ text)) escCsiPrivateModePrefix =
      some front.length := by
  apply find?_reverse_range.mpr
  refine ⟨by simp only [List.length_append]; omega, by simp, ?_⟩
  intro j hj _
  obtain ⟨k, rfl⟩ : ∃ k, j = front.length + (k + 1) := ⟨j - front.length - 1, by omega⟩
  have htail : (0x1B : UInt8) ∉ (([0x5B, 0x3F] ++ text).drop k).take 3 := by
    intro hmem
    have htext := List.mem_of_mem_drop (List.mem_of_mem_take hmem)
    simp [h] at htext
  have hdrop : (front ++ (escCsiPrivateModePrefix ++ text)).drop (front.length + (k + 1)) =
      ([0x5B, 0x3F] ++ text).drop k := by
    rw [← List.drop_drop, List.drop_left]
    rfl
  rw [hdrop]
  apply beq_eq_false_iff_ne.mpr
  intro heq
  apply htail
  rw [show 3 = escCsiPrivateModePrefix.length from rfl, heq]
  decide

/-- The remainder that a tracker keeps of an incomplete control. -/
def carried (s : Lexer) : List UInt8 :=
  if s.read.length < 3 then [] else s.read.drop (s.read.length - 64)

theorem not_letter {read : List UInt8} (h : read.all isParamByte = true) {b : UInt8}
    (hb : b ∈ escCsiPrivateModePrefix ++ read) : b ≠ 0x68 ∧ b ≠ 0x6C := by
  rw [List.mem_append] at hb
  rcases hb with hb | hb
  · simp only [escCsiPrivateModePrefix, List.mem_cons, List.not_mem_nil, or_false] at hb
    rcases hb with rfl | rfl | rfl <;> decide
  · exact (isParamByte_ne (List.all_eq_true.mp h b hb)).2

/-- An incomplete control that the tracker keeps is what the lexer has read. -/
theorem lex_of_rfind {bytes : List UInt8} {start : Nat}
    (hfind : rfind bytes escCsiPrivateModePrefix = some start)
    (hall : ((bytes.drop start).drop 3).all isParamByte = true) :
    (lex 0 .idle bytes).2 = .params ((bytes.drop start).drop 3) hall := by
  have hfound : (bytes.drop start).take 3 = escCsiPrivateModePrefix := by
    have hp := (find?_reverse_range.mp hfind).2.1
    exact beq_iff_eq.mp hp
  have hbytes : bytes =
      bytes.take start ++ (escCsiPrivateModePrefix ++ (bytes.drop start).drop 3) := by
    rw [← hfound, List.take_append_drop, List.take_append_drop]
  have hlex := lex_incomplete .idle (bytes.take start) hall 0
  rwa [← hbytes] at hlex

theorem remainder_eq (bytes : List UInt8) {lastEnd : Nat}
    (hend : lastEnd = 0 ∨
      ∃ i, lastEnd = 0 + i + 1 ∧ (bytes[i]? = some 0x68 ∨ bytes[i]? = some 0x6C)) :
    (match rfind bytes escCsiPrivateModePrefix with
      | some start =>
        if lastEnd ≤ start ∧ ((bytes.drop start).drop 3).all isParamByte then
          (bytes.drop start).drop ((bytes.drop start).length - 64)
        else []
      | none => []) = carried (lex 0 .idle bytes).2 := by
  obtain ⟨front, hfront⟩ := lex_read_suffix .idle bytes 0
  by_cases hparams : ∃ read h, (lex 0 .idle bytes).2 = .params read h
  · obtain ⟨read, h, hlexer⟩ := hparams
    rw [hlexer] at hfront ⊢
    have hbytes : bytes = front ++ (escCsiPrivateModePrefix ++ read) := hfront
    have hesc : (0x1B : UInt8) ∉ read := fun hmem =>
      (isParamByte_ne (List.all_eq_true.mp h _ hmem)).1 rfl
    have hle : lastEnd ≤ front.length := by
      rcases hend with rfl | ⟨i, rfl, hi⟩
      · exact Nat.zero_le _
      · by_contra hlt
        rw [hbytes, List.getElem?_append_right (by omega)] at hi
        rcases hi with hi | hi
        · exact (not_letter h (List.mem_of_getElem? hi)).1 rfl
        · exact (not_letter h (List.mem_of_getElem? hi)).2 rfl
    have hdrop : bytes.drop front.length = escCsiPrivateModePrefix ++ read := by
      rw [hbytes, List.drop_left]
    have hread : (escCsiPrivateModePrefix ++ read).drop 3 = read := rfl
    have hlong : ¬ (escCsiPrivateModePrefix ++ read).length < 3 := by
      simp [escCsiPrivateModePrefix]
    rw [hbytes, rfind_prefix_append hesc, ← hbytes, carried, Lexer.read, if_neg hlong]
    simp only [hdrop, hread, h, hle, and_self, if_true]
  · have hcarried : carried (lex 0 .idle bytes).2 = [] := by
      cases hlexer : (lex 0 .idle bytes).2 with
      | params read h => exact absurd ⟨read, h, hlexer⟩ hparams
      | _ => rfl
    rw [hcarried]
    split
    · next start hfind =>
      split_ifs with hkept
      · exact absurd ⟨_, hkept.2, lex_of_rfind hfind hkept.2⟩ hparams
      · rfl
    · rfl

theorem track_eq (tracked : List Mode) (modes : ModeState) (chunk remainder : List UInt8)
    (pos : Nat) :
    trackMousePrivateModesFromOutput modes chunk remainder tracked =
      (carried (lex pos .idle (remainder ++ chunk)).2,
        applyAll tracked modes (lex pos .idle (remainder ++ chunk)).1) := by
  have hlossy := lex_lossy .idle remainder chunk 0 pos
  rw [applyAll, ← hlossy.1, ← hlossy.2]
  generalize hbytes : remainder ++ asBytes (fromUtf8Lossy chunk) = bytes
  have hscan := scanModes_modes tracked bytes 0 0 0 modes
  rw [← lex_idle, applyAll] at hscan
  simp only [trackMousePrivateModesFromOutput, hbytes]
  rw [← remainder_eq bytes (scanModes_lastEnd tracked bytes 0 0 modes), ← hscan]
  cases rfind bytes escCsiPrivateModePrefix with
  | none => rfl
  | some start =>
    dsimp only
    split_ifs <;> rfl

/-! ## Chunk by chunk -/

/-- A cut leaves the tracker with all that is read of a control. -/
def Kept (start cut : Nat) : Prop := 3 ≤ cut - start ∧ cut - start ≤ 64

/-- The tracker carries what the lexer has read, or nothing that it could go on with because one of
the cuts inside it was not kept. -/
def Carries (past : List Nat) (pos : Nat) (s : Lexer) (remainder : List UInt8) : Prop :=
  (remainder = s.read ∧ ∀ cut ∈ past, pos - s.read.length < cut → Kept (pos - s.read.length) cut) ∨
    ((0x1B : UInt8) ∉ remainder ∧
      (s = .idle ∨
        ∃ cut ∈ past, pos - s.read.length < cut ∧ ¬ Kept (pos - s.read.length) cut))

theorem carries_carried {past : List Nat} {pos : Nat} {s : Lexer} (hs : s.read.length ≤ pos)
    (hkept : ∀ cut ∈ past, pos - s.read.length < cut → Kept (pos - s.read.length) cut) :
    Carries (past ++ [pos]) pos s (carried s) := by
  rcases s.read_esc with rfl | ⟨tail, hread, hnot⟩
  · exact .inr ⟨by simp [carried, Lexer.read], .inl rfl⟩
  · have hpos : 0 < s.read.length := by simp [hread]
    by_cases hend : Kept (pos - s.read.length) pos
    · have hall : carried s = s.read := by
        unfold Kept at hend
        rw [carried, if_neg (by omega), Nat.sub_eq_zero_of_le (by omega), List.drop_zero]
      refine .inl ⟨hall, ?_⟩
      intro cut hcut
      rw [List.mem_append, List.mem_singleton] at hcut
      rcases hcut with hcut | rfl
      · exact hkept cut hcut
      · exact fun _ => hend
    · refine .inr ⟨?_, .inr ⟨pos, by simp, by omega, hend⟩⟩
      unfold Kept at hend
      unfold carried
      split_ifs with hshort
      · exact List.not_mem_nil
      · obtain ⟨k, hk⟩ : ∃ k, s.read.length - 64 = k + 1 := ⟨s.read.length - 65, by omega⟩
        rw [hk, hread, List.drop_succ_cons]
        exact fun hmem => hnot (List.mem_of_mem_drop hmem)

theorem mem_cuts_ge {pos : Nat} {chunks : List (List UInt8)} {cut : Nat}
    (h : cut ∈ cuts pos chunks) : pos ≤ cut := by
  induction chunks generalizing pos with
  | nil => cases h
  | cons chunk chunks ih =>
    rw [cuts, List.mem_cons] at h
    rcases h with rfl | h
    · omega
    · have := ih h
      omega

theorem survives_iff {cuts : List Nat} {control : Nat × Control} :
    survives cuts control = true ↔
      ∀ cut ∈ cuts, control.1 < cut → cut < control.1 + control.2.width → Kept control.1 cut := by
  simp only [survives, List.all_eq_true, decide_eq_true_eq]
  rfl

section

variable {past later : List Nat} {pos : Nat} {s : Lexer} {remainder chunk : List UInt8}

/-- No cut is inside a control that starts and ends in the chunk. -/
theorem survives_of_mem (hpast : ∀ cut ∈ past, cut ≤ pos)
    (hlater : ∀ cut ∈ later, pos + chunk.length ≤ cut) {control : Nat × Control}
    (h : control ∈ (lex pos .idle chunk).1) : survives (past ++ later) control = true := by
  have hbounds := lex_bounds (Nat.zero_le _) h
  simp only [Lexer.read, List.length_nil] at hbounds
  rw [survives_iff]
  intro cut hcut hstart hend
  rcases List.mem_append.mp hcut with hcut | hcut
  · have := hpast cut hcut
    omega
  · have := hlater cut hcut
    omega

theorem filter_chunk (hpast : ∀ cut ∈ past, cut ≤ pos)
    (hlater : ∀ cut ∈ later, pos + chunk.length ≤ cut) :
    (lex pos .idle chunk).1.filter (survives (past ++ later)) = (lex pos .idle chunk).1 :=
  List.filter_eq_self.mpr fun _ h => survives_of_mem hpast hlater h

/-- A control begun before the chunk survives unless a cut so far was not kept. -/
theorem survives_begun {control : Control}
    (hlater : ∀ cut ∈ later, pos + chunk.length ≤ cut) (hpast : ∀ cut ∈ past, cut ≤ pos)
    (hs : s.read.length ≤ pos)
    (h : (pos - s.read.length, control) ∈ (lex pos s chunk).1) :
    survives (past ++ later) (pos - s.read.length, control) = true ↔
      ∀ cut ∈ past, pos - s.read.length < cut → Kept (pos - s.read.length) cut := by
  have hbounds := lex_bounds hs h
  dsimp only at hbounds
  rw [survives_iff]
  constructor
  · intro hall cut hcut hstart
    have := hpast cut hcut
    exact hall cut (List.mem_append_left _ hcut) hstart (by dsimp only; omega)
  · intro hall cut hcut hstart hend
    rcases List.mem_append.mp hcut with hcut | hcut
    · exact hall cut hcut hstart
    · have := hlater cut hcut
      dsimp only at hend
      omega

theorem carries_new (hpast : ∀ cut ∈ past, cut ≤ pos) :
    Carries (past ++ [pos + chunk.length]) (pos + chunk.length) (lex pos .idle chunk).2
      (carried (lex pos .idle chunk).2) := by
  have hle := length_lex_read_le .idle chunk pos
  simp only [Lexer.read, List.length_nil, Nat.zero_add] at hle
  apply carries_carried (by simp only [Lexer.read]; omega)
  intro cut hcut hstart
  have := hpast cut hcut
  simp only [Lexer.read] at hstart
  omega

/-- The remainder before a chunk, where it is all that is read of a control. -/
theorem lex_carried (hs : s.read.length ≤ pos) :
    (lex pos .idle (s.read ++ chunk)).1.map Prod.snd = (lex pos s chunk).1.map Prod.snd ∧
      (lex pos .idle (s.read ++ chunk)).2 = (lex pos s chunk).2 := by
  have happend : lex (pos - s.read.length) .idle (s.read ++ chunk) = lex pos s chunk := by
    rw [lex_append, lex_read, Nat.sub_add_cancel hs]
    simp
  rw [← happend]
  exact lex_pos .idle (s.read ++ chunk) pos (pos - s.read.length)

/-- And where nothing can go on with it. -/
theorem lex_uncarried (h : (0x1B : UInt8) ∉ remainder) :
    (lex pos .idle (remainder ++ chunk)).1.map Prod.snd = (lex pos .idle chunk).1.map Prod.snd ∧
      (lex pos .idle (remainder ++ chunk)).2 = (lex pos .idle chunk).2 := by
  rw [lex_append, lex_skip h]
  simpa using lex_pos .idle chunk (pos + remainder.length) pos

end

/-- What the tracker makes of one more chunk. -/
theorem carries_chunk {past later : List Nat} {pos : Nat} {s : Lexer}
    {remainder : List UInt8} (chunk : List UInt8) (hs : s.read.length ≤ pos)
    (hpast : ∀ cut ∈ past, cut ≤ pos) (hlater : ∀ cut ∈ later, pos + chunk.length ≤ cut)
    (hcarries : Carries past pos s remainder) :
    (lex pos .idle (remainder ++ chunk)).1.map Prod.snd =
        ((lex pos s chunk).1.filter (survives (past ++ later))).map Prod.snd ∧
      Carries (past ++ [pos + chunk.length]) (pos + chunk.length) (lex pos s chunk).2
        (carried (lex pos .idle (remainder ++ chunk)).2) := by
  have hnew := filter_chunk hpast hlater
  rcases hcarries with ⟨rfl, hkept⟩ | ⟨hesc, hlost⟩
  · rw [(lex_carried hs).1, (lex_carried hs).2]
    rcases lex_forget s chunk pos with ⟨control, hfirst, hlast⟩ | ⟨hnone, hlast, -⟩ | hsame
    · have hmem : (pos - s.read.length, control) ∈ (lex pos s chunk).1 := by simp [hfirst]
      have hsurvives := (survives_begun hlater hpast hs hmem).mpr hkept
      rw [hfirst, List.filter_cons_of_pos hsurvives, hnew, hlast]
      exact ⟨rfl, carries_new hpast⟩
    · have hlen := congrArg List.length hlast
      rw [List.length_append] at hlen
      have hstart : pos + chunk.length - (lex pos s chunk).2.read.length =
          pos - s.read.length := by omega
      rw [hnone]
      refine ⟨rfl, carries_carried (by omega) ?_⟩
      rwa [hstart]
    · rw [hsame, hnew]
      exact ⟨rfl, carries_new hpast⟩
  · rw [(lex_uncarried hesc).1, (lex_uncarried hesc).2]
    rcases hlost with rfl | ⟨cut, hcut, hinside, hlost⟩
    · rw [hnew]
      exact ⟨rfl, carries_new hpast⟩
    · rcases lex_forget s chunk pos with ⟨control, hfirst, hlast⟩ | ⟨hnone, hlast, hnothing⟩ | hsame
      · have hdropped : ¬ survives (past ++ later) (pos - s.read.length, control) = true := by
          rw [survives_begun hlater hpast hs (by simp [hfirst])]
          exact fun hall => hlost (hall cut hcut hinside)
        rw [hfirst, List.filter_cons_of_neg hdropped, hnew, hlast]
        exact ⟨rfl, carries_new hpast⟩
      · have hlen := congrArg List.length hlast
        rw [List.length_append] at hlen
        have hstart : pos + chunk.length - (lex pos s chunk).2.read.length =
            pos - s.read.length := by omega
        rw [hnone, hnothing]
        refine ⟨rfl, .inr ⟨List.not_mem_nil, .inr ⟨cut, List.mem_append_left _ hcut, ?_⟩⟩⟩
        rw [hstart]
        exact ⟨hinside, hlost⟩
      · rw [hsame, hnew]
        exact ⟨rfl, carries_new hpast⟩

theorem trackChunks_eq (tracked : List Mode) (chunks : List (List UInt8)) {past : List Nat}
    {pos : Nat} {s : Lexer} {remainder : List UInt8} (modes : ModeState)
    (hs : s.read.length ≤ pos) (hpast : ∀ cut ∈ past, cut ≤ pos)
    (hcarries : Carries past pos s remainder) :
    trackChunks tracked modes remainder chunks =
      applyAll tracked modes
        ((lex pos s chunks.flatten).1.filter (survives (past ++ cuts pos chunks))) := by
  induction chunks generalizing past pos s remainder modes with
  | nil => rfl
  | cons chunk chunks ih =>
    have hlater : ∀ cut ∈ cuts pos (chunk :: chunks), pos + chunk.length ≤ cut := by
      intro cut hcut
      rw [cuts, List.mem_cons] at hcut
      rcases hcut with rfl | hcut
      · exact le_refl _
      · exact mem_cuts_ge hcut
    obtain ⟨hread, hnext⟩ := carries_chunk chunk hs hpast hlater hcarries
    have hle := length_lex_read_le s chunk pos
    have hpast' : ∀ cut ∈ past ++ [pos + chunk.length], cut ≤ pos + chunk.length := by
      intro cut hcut
      rw [List.mem_append, List.mem_singleton] at hcut
      rcases hcut with hcut | rfl
      · have := hpast cut hcut
        omega
      · exact le_refl _
    rw [cuts] at hread
    rw [trackChunks, track_eq tracked modes chunk remainder pos]
    dsimp only
    rw [ih _ (by omega) hpast' hnext, List.flatten_cons, lex_append s chunk]
    simp only [applyAll, List.filter_append, List.map_append, List.foldl_append, hread, cuts,
      List.append_assoc, List.singleton_append]

/-! ## The whole stream -/

/-- The controls that the tracker sees of a stream in chunks. -/
def seen (chunks : List (List UInt8)) : List (Nat × Control) :=
  (controls 0 chunks.flatten).filter (survives (cuts 0 chunks))

theorem trackChunks_seen (tracked : List Mode) (modes : ModeState) (chunks : List (List UInt8)) :
    trackChunks tracked modes [] chunks = applyAll tracked modes (seen chunks) := by
  have hcarries : Carries [] 0 .idle [] := .inl ⟨rfl, by simp⟩
  rw [trackChunks_eq tracked chunks modes (Nat.zero_le _) (by simp) hcarries, lex_idle]
  rfl

theorem track_whole (tracked : List Mode) (modes : ModeState) (stream : List UInt8) :
    (trackMousePrivateModesFromOutput modes stream [] tracked).2 =
      applyAll tracked modes (controls 0 stream) := by
  rw [track_eq tracked modes stream [] 0, List.nil_append, lex_idle]

/-- Tracking a stream in chunks ends with the modes of tracking it in one call exactly when every
tracked mode is left by the last control that names it as by the last such control that no cut one,
two or more than 64 bytes after its ESC hits. -/
theorem chunks_agree_iff (tracked : List Mode) (modes : ModeState) (chunks : List (List UInt8)) :
    (∀ mode, (trackChunks tracked modes [] chunks).get mode =
        (trackMousePrivateModesFromOutput modes chunks.flatten [] tracked).2.get mode) ↔
      ∀ mode ∈ tracked, (lastSet mode (seen chunks)).or (modes.get mode) =
        (lastSet mode (controls 0 chunks.flatten)).or (modes.get mode) := by
  simp only [trackChunks_seen, track_whole, get_applyAll]
  constructor
  · intro hall mode htracked
    simpa [htracked] using hall mode
  · intro hall mode
    by_cases htracked : mode ∈ tracked
    · simpa [htracked] using hall mode htracked
    · simp [htracked]

/-- Where no cut hits a control so, the chunks do not matter. -/
theorem chunks_agree_of_survives (tracked : List Mode) (modes : ModeState)
    {chunks : List (List UInt8)}
    (h : ∀ control ∈ controls 0 chunks.flatten, survives (cuts 0 chunks) control = true) :
    trackChunks tracked modes [] chunks =
      (trackMousePrivateModesFromOutput modes chunks.flatten [] tracked).2 := by
  rw [trackChunks_seen, track_whole, seen, List.filter_eq_self.mpr h]

/-- `ESC` and `[?1000h` in two chunks. -/
def splitAfterEsc : List (List UInt8) :=
  [[0x1B], [0x5B, 0x3F, 0x31, 0x30, 0x30, 0x30, 0x68]]

theorem split_after_esc_lost :
    ¬ ∀ (modes : ModeState) (chunks : List (List UInt8)) (mode : Mode),
      (trackChunks trackedMousePrivateModes modes [] chunks).get mode =
        (trackMousePrivateModesFromOutput modes chunks.flatten [] trackedMousePrivateModes).2.get
          mode := by
  intro hall
  have hmode := hall [] splitAfterEsc [0x31, 0x30, 0x30, 0x30]
  rw [trackChunks_seen, track_whole, get_applyAll, get_applyAll] at hmode
  revert hmode
  decide

end Climon.Session.MouseModes
