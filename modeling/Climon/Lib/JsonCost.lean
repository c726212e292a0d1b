import Climon.Lib.JsonPrint

namespace Climon.Lib.JsonCost

open Climon.Lib.JsonPrint Climon.Lib.JsonText Climon.Lib.JsonValue

/-!
# What a text can pay for

Every escape in a string costs a backslash or more, and so does every string that must be escaped.
-/

/-! ## The cost of a text -/

/-- Backslashes count, and the letter that makes an escape of one unit longer than the others. -/
def weight (c : Char) : Nat := if c = '\\' ∨ c = 'u' then 1 else 0

def cost (text : List Char) : Nat := (text.map weight).sum

/-- What the escape of a character costs, by its code. -/
def codeCost (n : Nat) : Nat :=
  if n = 0x5C then 2
  else if n = 0x75 ∨ n = 0x22 ∨ n = 8 ∨ n = 9 ∨ n = 10 ∨ n = 12 ∨ n = 13 then 1
  else if n < 0x20 then 2
  else 0

def unitsCost (units : List UInt16) : Nat := (units.map fun u => codeCost u.toNat).sum

/-- As a lexer keeps it: every backslash begins an escape and every quote belongs to one. -/
def Tidy : List Char → Prop
  | [] => True
  | '\\' :: _ :: rest => Tidy rest
  | c :: rest => c ≠ '\\' ∧ c ≠ '"' ∧ Tidy rest

section Cost

variable {c d : Char} {text back raw : List Char} {units : List UInt16} {s : String}

@[simp] theorem cost_nil : cost [] = 0 := rfl

@[simp] theorem cost_cons : cost (c :: text) = weight c + cost text := by
  simp [cost]

@[simp] theorem cost_append : cost (text ++ back) = cost text + cost back := by
  simp [cost]

theorem cost_flatMap {α : Type} {f : α → List Char} {items : List α} :
    cost (items.flatMap f) = (items.map fun item => cost (f item)).sum := by
  induction items with
  | nil => rfl
  | cons item items ih => rw [List.flatMap_cons, cost_append, ih, List.map_cons, List.sum_cons]

theorem cost_eq_zero (h : ∀ c ∈ text, c ≠ '\\' ∧ c ≠ 'u') : cost text = 0 := by
  induction text with
  | nil => rfl
  | cons c text ih =>
    rw [List.forall_mem_cons] at h
    have hc : weight c = 0 := if_neg fun hor => hor.elim h.1.1 h.1.2
    rw [cost_cons, hc, ih h.2]

theorem unitsCost_append {front : List UInt16} :
    unitsCost (front ++ units) = unitsCost front + unitsCost units := by
  simp [unitsCost]

theorem codeCost_le (n : Nat) : codeCost n ≤ 2 := by
  unfold codeCost
  split_ifs <;> omega

theorem codeCost_wide {n : Nat} (h : 0x76 ≤ n) : codeCost n = 0 := by
  unfold codeCost
  rw [if_neg (by omega), if_neg (by omega), if_neg (by omega)]

/-- What is nothing of surrogates is the same of a character and of its units. -/
theorem sum_encodeChar {f : Nat → Nat} (h : ∀ n, 0xD800 ≤ n → f n = 0) :
    ((Utf16.encodeChar c).map fun u => f u.toNat).sum = f c.toNat := by
  have hbound := Utf16.toNat_char c
  unfold Utf16.encodeChar
  split
  · have hvalue : (UInt16.ofNat c.toNat).toNat = c.toNat := by
      rw [UInt16.toNat_ofNat']
      omega
    simp [hvalue]
  · have hhigh : (UInt16.ofNat (0xD800 + (c.toNat - 0x10000) / 0x400)).toNat =
        0xD800 + (c.toNat - 0x10000) / 0x400 := by
      rw [UInt16.toNat_ofNat']
      omega
    have hlow : (UInt16.ofNat (0xDC00 + (c.toNat - 0x10000) % 0x400)).toNat =
        0xDC00 + (c.toNat - 0x10000) % 0x400 := by
      rw [UInt16.toNat_ofNat']
      omega
    rw [List.map_cons, List.map_cons, List.map_nil, List.sum_cons, List.sum_cons, List.sum_nil, hhigh,
      hlow, h _ (Nat.le_add_right _ _), h _ (by omega), h c.toNat (by omega)]
    rfl

theorem unitsCost_encodeChar : unitsCost (Utf16.encodeChar c) = codeCost c.toNat :=
  sum_encodeChar fun _ hn => codeCost_wide (Nat.le_trans (by decide) hn)

theorem codeCost_plain (hquote : c ≠ '"') (hescape : c ≠ '\\') (hcontrol : 0x20 ≤ c.toNat) :
    codeCost c.toNat = weight c := by
  have hcode : ∀ d : Char, c ≠ d → c.toNat ≠ d.toNat := fun d hd heq =>
    hd (Char.ext (UInt32.toNat_inj.mp heq))
  have hq := hcode '"' hquote
  have he := hcode '\\' hescape
  unfold codeCost weight
  by_cases hu : c = 'u'
  · subst hu
    rfl
  · have hunit := hcode 'u' hu
    simp only [Char.reduceToNat] at hq he hunit
    rw [if_neg (by omega), if_neg (by omega), if_neg (by omega),
      if_neg fun hor => hor.elim hescape hu]

theorem cost_escapeChar : cost (escapeChar c) = codeCost c.toNat := by
  unfold escapeChar
  split
  · next d hlookup =>
    have hall : ∀ pair ∈ escapes, cost ['\\', pair.2] = codeCost pair.1.toNat := by decide
    exact hall (c, d) (AssocList.mem_of_lookup hlookup)
  · next hplain =>
    obtain ⟨hquote, hescape⟩ := plain_of_lookup hplain
    split
    · next hcontrol =>
      have hall : ∀ n < 0x20, escapes.lookup (Char.ofNat n) = none →
          cost (unitEscape (Char.ofNat n)) = codeCost n := by decide
      have hc := hall c.toNat hcontrol
      rw [Char.ofNat_toNat] at hc
      exact hc hplain
    · next hcontrol =>
      rw [codeCost_plain hquote hescape (Nat.le_of_not_lt hcontrol)]
      simp

theorem cost_escape : cost (escape s) = unitsCost (Utf16.encode s) := by
  rw [escape, Utf16.encode]
  induction s.toList with
  | nil => rfl
  | cons c chars ih =>
    rw [List.flatMap_cons, List.flatMap_cons, cost_append, unitsCost_append, ih, cost_escapeChar,
      unitsCost_encodeChar]

theorem shortEscape_cost (h : shortEscape c = some d) : codeCost d.toNat ≤ 1 + weight c := by
  unfold shortEscape at h
  split_ifs at h with hself hb hf hn hr ht
  · obtain rfl := Option.some.inj h
    rcases hself with rfl | rfl | rfl <;> decide
  all_goals
    obtain rfl := Option.some.inj h
    exact Nat.le_add_right 1 (weight c)

theorem tidy_tail (hc : c ≠ '\\') (h : Tidy (c :: text)) : Tidy text := by
  rw [Tidy.eq_def] at h
  split at h
  · next heq => cases heq
  · next heq => exact absurd (List.cons.inj heq).1 hc
  · next heq =>
    obtain ⟨rfl, rfl⟩ := List.cons.inj heq
    exact h.2.2

theorem readUnit_digits {digits : List Char} {unit : UInt16} (h : readUnit digits = some unit) :
    ∀ c ∈ digits, c ≠ '\\' := by
  unfold readUnit at h
  split at h
  · next hall =>
    intro c hc
    have hhex := List.all_eq_true.mp hall c hc
    rintro rfl
    cases hhex
  · cases h

/-- No writing of a string is cheaper than its escape. -/
theorem unitsCost_le (htidy : Tidy raw) (h : readUnits raw = some units) :
    unitsCost units ≤ cost raw := by
  fun_induction readUnits raw generalizing units with
  | case1 =>
    obtain rfl := Option.some.inj h
    exact Nat.le_refl 0
  | case2 a b c d rest ih =>
    rw [Option.bind_eq_some_iff] at h
    obtain ⟨unit, hunit, hmap⟩ := h
    obtain ⟨later, hlater, rfl⟩ := Option.map_eq_some_iff.mp hmap
    have hdigits := readUnit_digits hunit
    simp only [List.mem_cons, List.not_mem_nil, or_false, forall_eq_or_imp, forall_eq] at hdigits
    have hrest := tidy_tail hdigits.2.2.2 (tidy_tail hdigits.2.2.1 (tidy_tail hdigits.2.1
      (tidy_tail hdigits.1 htidy)))
    have hle := ih hrest hlater
    have hcode := codeCost_le unit.toNat
    have hfront : weight '\\' = 1 ∧ weight 'u' = 1 := by decide
    simp only [unitsCost, List.map_cons, List.sum_cons, cost_cons] at hle ⊢
    omega
  | case3 c rest hunit ih =>
    rw [Option.bind_eq_some_iff] at h
    obtain ⟨d, hd, hmap⟩ := h
    obtain ⟨later, hlater, rfl⟩ := Option.map_eq_some_iff.mp hmap
    have hle := ih htidy hlater
    have hcode := shortEscape_cost hd
    have hfront : weight '\\' = 1 := by decide
    rw [unitsCost_append, unitsCost_encodeChar, cost_cons, cost_cons]
    omega
  | case4 c rest hunit hshort hbad => cases h
  | case5 c rest hunit hshort hgood ih =>
    obtain ⟨later, hlater, rfl⟩ := Option.map_eq_some_iff.mp h
    rw [not_or, Nat.not_lt] at hgood
    have hquote : c ≠ '"' := by
      rintro rfl
      exact htidy.2.1 rfl
    have hle := ih (tidy_tail hgood.1 htidy) hlater
    rw [unitsCost_append, unitsCost_encodeChar, cost_cons,
      codeCost_plain hquote hgood.1 hgood.2]
    omega

theorem cost_escape_le (htidy : Tidy raw) (h : readString raw = some s) :
    cost (escape s) ≤ cost raw := by
  obtain ⟨units, hunits, hdecode⟩ := Option.bind_eq_some_iff.mp h
  rw [cost_escape, Utf16.encode_of_decode hdecode]
  exact unitsCost_le htidy hunits

theorem tidy_append (h : Tidy text) (hback : Tidy back) : Tidy (text ++ back) := by
  fun_induction Tidy text with
  | case1 => exact hback
  | case2 c rest ih => exact ih h
  | case3 c rest hescape ih =>
    obtain ⟨hc, hquote, hrest⟩ := h
    rw [List.cons_append, Tidy]
    · exact ⟨hc, hquote, ih hrest⟩
    · rintro d rest' rfl
      exact absurd rfl hc

theorem tidy_plain (hescape : c ≠ '\\') (hquote : c ≠ '"') : Tidy [c] := by
  rw [Tidy]
  · exact ⟨hescape, hquote, trivial⟩
  · rintro d rest rfl
    exact absurd rfl hescape

theorem tidy_escape : Tidy ['\\', c] := trivial

/-- A line end has no place in a string, escaped or not. -/
theorem readUnits_lineEnd (h : '\n' ∈ raw) : readUnits raw = none := by
  fun_induction readUnits raw with
  | case1 => cases h
  | case2 a b c d rest ih =>
    by_cases hdigits : '\n' ∈ [a, b, c, d]
    · have hunit : readUnit [a, b, c, d] = none := by
        refine if_neg fun hall => ?_
        have hhex := List.all_eq_true.mp hall _ hdigits
        cases hhex
      rw [hunit, Option.bind_none]
    · have hsplit : '\n' ∈ ['\\', 'u'] ++ ([a, b, c, d] ++ rest) := h
      rw [List.mem_append, List.mem_append] at hsplit
      rw [ih ((hsplit.resolve_left (by decide)).resolve_left hdigits)]
      simp only [Option.map_none, Option.bind_fun_none]
  | case3 c rest hunit ih =>
    by_cases hc : c = '\n'
    · subst hc
      rfl
    · have hrest : '\n' ∈ rest := by simpa [Ne.symm hc] using h
      rw [ih hrest]
      simp only [Option.map_none, Option.bind_fun_none]
  | case4 c rest hunit hshort hbad => rfl
  | case5 c rest hunit hshort hgood ih =>
    have hc : '\n' ≠ c := by
      rintro rfl
      exact hgood (.inr (by decide))
    have hrest : '\n' ∈ rest := by simpa [hc] using h
    rw [ih hrest, Option.map_none]

end Cost

/-! ## Characters with an escape -/

section Escaping

variable {c : Char} {s : String}

theorem weight_lt_codeCost (h : ¬ (c ≠ '"' ∧ c ≠ '\\' ∧ 0x20 ≤ c.toNat)) :
    weight c < codeCost c.toNat := by
  by_cases hquote : c = '"'
  · subst hquote
    decide
  · by_cases hescape : c = '\\'
    · subst hescape
      decide
    · have hcontrol : c.toNat < 0x20 := by
        by_contra hle
        exact h ⟨hquote, hescape, Nat.not_lt.mp hle⟩
      have hall : ∀ n < 0x20, weight (Char.ofNat n) < codeCost n := by decide
      have hc := hall c.toNat hcontrol
      rwa [Char.ofNat_toNat] at hc

theorem weight_le_codeCost : weight c ≤ codeCost c.toNat := by
  by_cases h : c ≠ '"' ∧ c ≠ '\\' ∧ 0x20 ≤ c.toNat
  · exact Nat.le_of_eq (codeCost_plain h.1 h.2.1 h.2.2).symm
  · exact Nat.le_of_lt (weight_lt_codeCost h)

theorem cost_escape_eq : cost (escape s) = (s.toList.map fun c => codeCost c.toNat).sum := by
  rw [escape, cost_flatMap]
  simp only [cost_escapeChar]

theorem cost_le_escape : cost s.toList ≤ cost (escape s) := by
  rw [cost_escape_eq]
  apply List.sum_le_sum
  exact fun c _ => weight_le_codeCost

/-- An escape costs more than what it stands for. -/
theorem cost_lt_escape (h : ¬ ∀ c ∈ s.toList, c ≠ '"' ∧ c ≠ '\\' ∧ 0x20 ≤ c.toNat) :
    cost s.toList < cost (escape s) := by
  push Not at h
  obtain ⟨c, hc, hbad⟩ := h
  rw [cost_escape_eq]
  apply List.sum_lt_sum
  · exact fun c _ => weight_le_codeCost
  · refine ⟨c, hc, weight_lt_codeCost fun hplain => ?_⟩
    have hlt := hbad hplain.1 hplain.2.1
    omega

end Escaping

/-! ## What a lexer spends -/

def tokenCost : Token → Nat
  | .mark _ => 0
  | .word text | .string text => cost text

def tokensCost (tokens : List Token) : Nat := (tokens.map tokenCost).sum

/-- What is kept for the next token. -/
def pending : Mode → List Char
  | .plain text | .string text | .escaped text | .slash text | .line text | .block text
  | .star text => text

def spent (s : Lexer) : Nat := tokensCost s.tokens + cost (pending s.mode)

def isOutside : Mode → Bool
  | .string _ | .escaped _ => false
  | _ => true

/-- The strings so far are tidy, with one that may lack what its last backslash escapes. -/
def Neat (s : Lexer) : Prop :=
  (∀ raw, .string raw ∈ s.tokens → Tidy raw) ∧
    match s.mode with
    | .string raw => Tidy raw
    | .escaped raw => ∃ front, raw = front ++ ['\\'] ∧ Tidy front
    | _ => True

/-- A line ends inside a string. -/
def Broken (s : Lexer) : Prop :=
  (∃ raw, .string raw ∈ s.tokens ∧ '\n' ∈ raw) ∨ isOutside s.mode = false ∧ '\n' ∈ pending s.mode

/-- Between tokens, or inside a block comment. -/
def AtLineStart (s : Lexer) : Prop := s.mode = .plain [] ∨ ∃ word, s.mode = .block word

section Spending

variable {comments : Comments} {s s' : Lexer} {c : Char} {tokens : List Token}
  {word raw text back : List Char} {m n : Nat}

theorem tokensCost_concat {token : Token} :
    tokensCost (tokens ++ [token]) = tokensCost tokens + tokenCost token := by
  simp [tokensCost]

theorem tokensCost_emit : tokensCost (emit tokens word) = tokensCost tokens + cost word := by
  cases word with
  | nil => rfl
  | cons c word => exact tokensCost_concat

theorem mem_emit : .string raw ∈ emit tokens word ↔ .string raw ∈ tokens := by
  cases word with
  | nil => rfl
  | cons c word => simp [emit]

/-- Outside strings a character opens a string or leaves the strings as they are. -/
structure StaysOut (s s' : Lexer) (c : Char) : Prop where
  mode : isOutside s'.mode = true ∨ s'.mode = .string []
  strings : ∀ raw, .string raw ∈ s'.tokens ↔ .string raw ∈ s.tokens
  spent_le : spent s' ≤ spent s + weight c

theorem plainStep_staysOut (h : Lexer.plainStep comments tokens word c = some s') :
    StaysOut ⟨tokens, .plain word⟩ s' c := by
  unfold Lexer.plainStep at h
  split at h
  · obtain rfl := Option.some.inj h
    exact ⟨.inl rfl, fun raw => mem_emit, by simp [spent, pending, tokensCost_emit]⟩
  · split at h
    · obtain rfl := Option.some.inj h
      exact ⟨.inr rfl, fun raw => mem_emit, by simp [spent, pending, tokensCost_emit]⟩
    · split at h
      · cases comments with
        | refused => cases h
        | space =>
          obtain rfl := Option.some.inj h
          exact ⟨.inl rfl, fun raw => mem_emit, by simp [spent, pending, tokensCost_emit]⟩
        | nothing =>
          obtain rfl := Option.some.inj h
          exact ⟨.inl rfl, fun raw => .rfl, Nat.le_add_right _ _⟩
      · split at h
        · obtain rfl := Option.some.inj h
          refine ⟨.inl rfl, fun raw => ?_, ?_⟩
          · rw [List.mem_append, mem_emit]
            simp
          · simp [spent, pending, tokensCost_concat, tokensCost_emit, tokenCost]
        · obtain rfl := Option.some.inj h
          exact ⟨.inl rfl, fun raw => .rfl, by simp [spent, pending, Nat.add_assoc]⟩

theorem step_staysOut (hout : isOutside s.mode = true) (h : s.step comments c = some s') :
    StaysOut s s' c := by
  obtain ⟨tokens, mode⟩ := s
  cases mode with
  | plain word => exact plainStep_staysOut h
  | string raw => cases hout
  | escaped raw => cases hout
  | slash word =>
    simp only [Lexer.step] at h
    split_ifs at h <;> obtain rfl := Option.some.inj h
    · exact ⟨.inl rfl, fun raw => .rfl, Nat.le_add_right _ _⟩
    · exact ⟨.inl rfl, fun raw => .rfl, Nat.le_add_right _ _⟩
  | line word =>
    simp only [Lexer.step] at h
    split_ifs at h <;> obtain rfl := Option.some.inj h
    · exact ⟨.inl rfl, fun raw => mem_emit, by simp [spent, pending, tokensCost_emit]⟩
    · exact ⟨.inl rfl, fun raw => .rfl, Nat.le_add_right _ _⟩
  | block word =>
    simp only [Lexer.step] at h
    split_ifs at h <;> obtain rfl := Option.some.inj h
    · exact ⟨.inl rfl, fun raw => .rfl, Nat.le_add_right _ _⟩
    · exact ⟨.inl rfl, fun raw => .rfl, Nat.le_add_right _ _⟩
  | star word =>
    simp only [Lexer.step] at h
    split_ifs at h <;> obtain rfl := Option.some.inj h
    · exact ⟨.inl rfl, fun raw => .rfl, Nat.le_add_right _ _⟩
    · exact ⟨.inl rfl, fun raw => .rfl, Nat.le_add_right _ _⟩
    · exact ⟨.inl rfl, fun raw => .rfl, Nat.le_add_right _ _⟩

/-- What a character does inside a string. -/
theorem step_string (h : Lexer.step comments ⟨tokens, .string raw⟩ c = some s') :
    c = '\\' ∧ s' = ⟨tokens, .escaped (raw ++ ['\\'])⟩ ∨
      c = '"' ∧ s' = ⟨tokens ++ [.string raw], .plain []⟩ ∨
      (c ≠ '\\' ∧ c ≠ '"') ∧ s' = ⟨tokens, .string (raw ++ [c])⟩ := by
  simp only [Lexer.step] at h
  split_ifs at h with hescape hquote <;> obtain rfl := Option.some.inj h
  · subst hescape
    exact .inl ⟨rfl, rfl⟩
  · exact .inr (.inl ⟨hquote, rfl⟩)
  · exact .inr (.inr ⟨⟨hescape, hquote⟩, rfl⟩)

theorem step_escaped (h : Lexer.step comments ⟨tokens, .escaped raw⟩ c = some s') :
    s' = ⟨tokens, .string (raw ++ [c])⟩ := (Option.some.inj h).symm

theorem step_spent (h : s.step comments c = some s') : spent s' ≤ spent s + weight c := by
  by_cases hout : isOutside s.mode = true
  · exact (step_staysOut hout h).spent_le
  · obtain ⟨tokens, mode⟩ := s
    cases mode with
    | string raw =>
      rcases step_string h with ⟨rfl, rfl⟩ | ⟨-, rfl⟩ | ⟨-, rfl⟩
      · simp [spent, pending, Nat.add_assoc]
      · simp [spent, pending, tokensCost_concat, tokenCost]
      · simp [spent, pending, Nat.add_assoc]
    | escaped raw =>
      obtain rfl := step_escaped h
      simp [spent, pending, Nat.add_assoc]
    | _ => exact absurd rfl hout

theorem step_neat (hneat : Neat s) (h : s.step comments c = some s') : Neat s' := by
  by_cases hout : isOutside s.mode = true
  · obtain ⟨hmode, hstrings, -⟩ := step_staysOut hout h
    obtain ⟨tokens', mode'⟩ := s'
    refine ⟨fun raw hraw => hneat.1 raw ((hstrings raw).mp hraw), ?_⟩
    cases hmode with
    | inl hout' =>
      cases mode' with
      | string raw => cases hout'
      | escaped raw => cases hout'
      | _ => trivial
    | inr hopen =>
      change mode' = .string [] at hopen
      subst hopen
      trivial
  · obtain ⟨tokens, mode⟩ := s
    obtain ⟨htokens, hmode⟩ := hneat
    cases mode with
    | string raw =>
      rcases step_string h with ⟨rfl, rfl⟩ | ⟨-, rfl⟩ | ⟨hplain, rfl⟩
      · exact ⟨htokens, raw, rfl, hmode⟩
      · refine ⟨fun other hother => ?_, trivial⟩
        rcases List.mem_append.mp hother with hold | hnew
        · exact htokens other hold
        · obtain rfl := Token.string.inj (List.mem_singleton.mp hnew)
          exact hmode
      · exact ⟨htokens, tidy_append hmode (tidy_plain hplain.1 hplain.2)⟩
    | escaped raw =>
      obtain rfl := step_escaped h
      obtain ⟨front, rfl, hfront⟩ := hmode
      refine ⟨htokens, ?_⟩
      change Tidy (front ++ ['\\'] ++ [c])
      rw [List.append_assoc]
      exact tidy_append hfront tidy_escape
    | _ => exact absurd rfl hout

theorem step_broken (hbroken : Broken s) (h : s.step comments c = some s') : Broken s' := by
  by_cases hout : isOutside s.mode = true
  · obtain ⟨-, hstrings, -⟩ := step_staysOut hout h
    rcases hbroken with ⟨raw, hraw, hline⟩ | ⟨hin, -⟩
    · exact .inl ⟨raw, (hstrings raw).mpr hraw, hline⟩
    · rw [hout] at hin
      cases hin
  · obtain ⟨tokens, mode⟩ := s
    cases mode with
    | string raw =>
      rcases step_string h with ⟨rfl, rfl⟩ | ⟨-, rfl⟩ | ⟨-, rfl⟩
      · exact hbroken.imp_right fun hline => ⟨rfl, List.mem_append_left _ hline.2⟩
      · rcases hbroken with ⟨other, hother, hline⟩ | ⟨-, hline⟩
        · exact .inl ⟨other, List.mem_append_left _ hother, hline⟩
        · exact .inl ⟨raw, List.mem_append_right _ List.mem_cons_self, hline⟩
      · exact hbroken.imp_right fun hline => ⟨rfl, List.mem_append_left _ hline.2⟩
    | escaped raw =>
      obtain rfl := step_escaped h
      exact hbroken.imp_right fun hline => ⟨rfl, List.mem_append_left _ hline.2⟩
    | _ => exact absurd rfl hout

/-- A property that every character keeps. -/
theorem run_keeps {P : Lexer → Prop}
    (hstep : ∀ {s s' c}, P s → Lexer.step comments s c = some s' → P s') (hP : P s)
    (h : s.run comments text = some s') : P s' := by
  induction text generalizing s with
  | nil =>
    obtain rfl := Option.some.inj h
    exact hP
  | cons c text ih =>
    rw [Lexer.run_cons, Option.bind_eq_some_iff] at h
    obtain ⟨next, hnext, h⟩ := h
    exact ih (hstep hP hnext) h

theorem run_spent (h : s.run comments text = some s') : spent s' ≤ spent s + cost text := by
  induction text generalizing s with
  | nil =>
    obtain rfl := Option.some.inj h
    exact Nat.le_refl _
  | cons c text ih =>
    rw [Lexer.run_cons, Option.bind_eq_some_iff] at h
    obtain ⟨next, hnext, h⟩ := h
    have hfirst := step_spent hnext
    have hrest := ih h
    rw [cost_cons]
    omega

/-- Behind a line end the reading starts over, outside strings. -/
theorem step_lineEnd (h : s.step .nothing '\n' = some s') : Broken s' ∨ AtLineStart s' := by
  obtain ⟨tokens, mode⟩ := s
  cases mode with
  | plain word =>
    obtain rfl := Option.some.inj h
    exact .inr (.inl rfl)
  | string raw =>
    rcases step_string h with ⟨hc, -⟩ | ⟨hc, -⟩ | ⟨-, rfl⟩
    · cases hc
    · cases hc
    · exact .inl (.inr ⟨rfl, List.mem_append_right _ List.mem_cons_self⟩)
  | escaped raw =>
    obtain rfl := step_escaped h
    exact .inl (.inr ⟨rfl, List.mem_append_right _ List.mem_cons_self⟩)
  | slash word => cases h
  | line word =>
    obtain rfl := Option.some.inj h
    exact .inr (.inl rfl)
  | block word =>
    obtain rfl := Option.some.inj h
    exact .inr (.inr ⟨word, rfl⟩)
  | star word =>
    obtain rfl := Option.some.inj h
    exact .inr (.inr ⟨word, rfl⟩)

/-- Inside a block comment, a text without a star is skipped. -/
theorem run_block (h : ∀ c ∈ text, c ≠ '*') :
    Lexer.run comments ⟨tokens, .block word⟩ text = some ⟨tokens, .block word⟩ := by
  induction text with
  | nil => rfl
  | cons c text ih =>
    rw [List.forall_mem_cons] at h
    have hstep : Lexer.step comments ⟨tokens, .block word⟩ c = some ⟨tokens, .block word⟩ :=
      if_neg h.1
    rw [Lexer.run_cons, hstep, Option.bind_some, ih h.2]

/-! ## Texts that leave no more to spend -/

/-- Reading the text costs no more, where it can be read. -/
def Spends (text : List Char) (n : Nat) : Prop :=
  ∀ s s', Lexer.run .nothing s text = some s' → Broken s' ∨ spent s' ≤ spent s + n

/-- The same for lines, each with its end. -/
def LinesSpend (text : List Char) (n : Nat) : Prop :=
  ∀ s s', AtLineStart s → Lexer.run .nothing s text = some s' →
    Broken s' ∨ AtLineStart s' ∧ spent s' ≤ spent s + n

theorem spends_cost : Spends text (cost text) := fun _ _ h => .inr (run_spent h)

theorem Spends.append (h : Spends text m) (h' : Spends back n) : Spends (text ++ back) (m + n) := by
  intro s s' hrun
  rw [Lexer.run_append, Option.bind_eq_some_iff] at hrun
  obtain ⟨next, hnext, hrun⟩ := hrun
  rcases h s next hnext with hbroken | hle
  · exact .inl (run_keeps step_broken hbroken hrun)
  · refine (h' next s' hrun).imp_right fun hle' => ?_
    omega

theorem linesSpend_nil : LinesSpend [] 0 := by
  intro s s' hstart h
  obtain rfl := Option.some.inj h
  exact .inr ⟨hstart, Nat.le_refl _⟩

theorem LinesSpend.append (h : LinesSpend text m) (h' : LinesSpend back n) :
    LinesSpend (text ++ back) (m + n) := by
  intro s s' hstart hrun
  rw [Lexer.run_append, Option.bind_eq_some_iff] at hrun
  obtain ⟨next, hnext, hrun⟩ := hrun
  rcases h s next hstart hnext with hbroken | ⟨hstart', hle⟩
  · exact .inl (run_keeps step_broken hbroken hrun)
  · refine (h' next s' hstart' hrun).imp_right fun hnext => ⟨hnext.1, ?_⟩
    omega

theorem Spends.lineEnd {s s' : Lexer} (h : Spends text n)
    (hrun : Lexer.run .nothing s (text ++ ['\n']) = some s') :
    Broken s' ∨ AtLineStart s' ∧ spent s' ≤ spent s + n := by
  rw [Lexer.run_append, Option.bind_eq_some_iff] at hrun
  obtain ⟨next, hnext, hrun⟩ := hrun
  have hle := run_spent hrun
  rw [Lexer.run_cons, Option.bind_eq_some_iff] at hrun
  obtain ⟨last, hlast, hrun⟩ := hrun
  obtain rfl := Option.some.inj hrun
  rcases h s next hnext with hbroken | hspent
  · exact .inl (step_broken hbroken hlast)
  · refine (step_lineEnd hlast).imp_right fun hstart => ⟨hstart, ?_⟩
    have hend : cost ['\n'] = 0 := by decide
    omega

theorem Spends.line (h : Spends text n) : LinesSpend (text ++ ['\n']) n :=
  fun _ _ _ hrun => h.lineEnd hrun

/-- A line that is nothing is nothing inside a block comment, too. -/
theorem run_closed (h : Closed .nothing text []) (hstar : ∀ c ∈ text, c ≠ '*')
    (hstart : AtLineStart s) : Lexer.run .nothing s text = some s := by
  obtain ⟨tokens, mode⟩ := s
  rcases hstart with hplain | ⟨word, hblock⟩
  · change mode = .plain [] at hplain
    subst hplain
    have hclosed := h tokens []
    rwa [List.append_nil, List.append_nil] at hclosed
  · change mode = .block word at hblock
    subst hblock
    exact run_block hstar

theorem linesSpend_closed (h : Closed .nothing text []) (hstar : ∀ c ∈ text, c ≠ '*') :
    LinesSpend text 0 := by
  intro s s' hstart hrun
  rw [run_closed h hstar hstart] at hrun
  obtain rfl := Option.some.inj hrun
  exact .inr ⟨hstart, Nat.le_refl _⟩

/-- Lines behind the end of another. -/
theorem Spends.lines (h : Spends text m) (h' : LinesSpend back n) :
    Spends (text ++ ['\n'] ++ back) (m + n) := by
  intro s s' hrun
  rw [Lexer.run_append, Option.bind_eq_some_iff] at hrun
  obtain ⟨next, hnext, hrun⟩ := hrun
  rcases h.lineEnd hnext with hbroken | ⟨hstart, hle⟩
  · exact .inl (run_keeps step_broken hbroken hrun)
  · refine (h' next s' hstart hrun).imp_right fun hnext => ?_
    have hle' := hnext.2
    omega

/-- The tokens of a text, none of them with a line end in it, cost no more. -/
theorem tokensCost_le (hspends : Spends text n) (h : lex .nothing text = some tokens)
    (hline : ∀ raw, .string raw ∈ tokens → '\n' ∉ raw) : tokensCost tokens ≤ n := by
  rw [lex, Option.bind_eq_some_iff] at h
  obtain ⟨s, hrun, hfinish⟩ := h
  have hle := hspends _ s hrun
  obtain ⟨before, mode⟩ := s
  have hclosed : ∀ word, isOutside mode = true → pending mode = word →
      tokens = emit before word → tokensCost tokens ≤ n := by
    rintro word hout hword rfl
    rcases hle with (⟨raw, hraw, hbad⟩ | ⟨hin, -⟩) | hspent
    · exact absurd hbad (hline raw (mem_emit.mpr hraw))
    · rw [hout] at hin
      cases hin
    · rw [tokensCost_emit, ← hword]
      have hstart : spent ⟨[], .plain []⟩ = 0 := rfl
      rw [hstart, Nat.zero_add] at hspent
      exact hspent
  cases mode with
  | plain word => exact hclosed word rfl rfl (Option.some.inj hfinish).symm
  | line word => exact hclosed word rfl rfl (Option.some.inj hfinish).symm
  | _ => cases hfinish

theorem tidy_of_lex (h : lex comments text = some tokens) (hraw : .string raw ∈ tokens) :
    Tidy raw := by
  rw [lex, Option.bind_eq_some_iff] at h
  obtain ⟨s, hrun, hfinish⟩ := h
  have hneat : Neat s := run_keeps step_neat ⟨fun _ hmem => absurd hmem List.not_mem_nil, trivial⟩ hrun
  obtain ⟨before, mode⟩ := s
  have hemit : ∀ word, tokens = emit before word → Tidy raw := by
    rintro word rfl
    exact hneat.1 raw (mem_emit.mp hraw)
  cases mode with
  | plain word => exact hemit word (Option.some.inj hfinish).symm
  | line word => exact hemit word (Option.some.inj hfinish).symm
  | _ => cases hfinish

end Spending

end Climon.Lib.JsonCost
