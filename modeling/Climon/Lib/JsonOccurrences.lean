import Climon.Lib.JsonBounds
import Climon.Lib.JsonGain

namespace Climon.Lib.JsonOccurrences

open Climon.Lib.JsonBounds Climon.Lib.JsonCost Climon.Lib.JsonGain Climon.Lib.JsonPrint
  Climon.Lib.JsonRank Climon.Lib.JsonText Climon.Lib.JsonValue

/-!
# How often a value has a key

A printed value gives no key that it does not have, whatever it is read behind.
-/

/-! ## How often a value has a string -/

def isString (k : String) : Json → Nat
  | .string t => if t = k then 1 else 0
  | _ => 0

mutual

/-- How often the string is a key, or stands in an array. -/
def occurrences (k : String) : Json → Nat
  | .array items => occurrencesItems k items
  | .object fields => occurrencesFields k fields
  | _ => 0

def occurrencesItems (k : String) : List Json → Nat
  | [] => 0
  | item :: items => isString k item + occurrences k item + occurrencesItems k items

def occurrencesFields (k : String) : List (String × Json) → Nat
  | [] => 0
  | (key, value) :: fields =>
    (if key = k then 1 else 0) + occurrences k value + occurrencesFields k fields

end

section Occurrences

variable {k key : String} {value : Json} {items : List Json} {fields : List (String × Json)}

theorem occurrencesItems_eq : occurrencesItems k items =
    (items.map fun item => isString k item + occurrences k item).sum := by
  induction items with
  | nil => rfl
  | cons item items ih => rw [occurrencesItems, ih, List.map_cons, List.sum_cons]

theorem occurrencesFields_eq : occurrencesFields k fields =
    (fields.map fun field => (if field.1 = k then 1 else 0) + occurrences k field.2).sum := by
  induction fields with
  | nil => rfl
  | cons field fields ih => rw [occurrencesFields, ih, List.map_cons, List.sum_cons]

theorem occurrencesItems_concat : occurrencesItems k (items ++ [value]) =
    occurrencesItems k items + (isString k value + occurrences k value) := by
  simp [occurrencesItems_eq]

theorem occurrencesFields_insert : occurrencesFields k (insertField fields key value) ≤
    occurrencesFields k fields + (if key = k then 1 else 0) + occurrences k value := by
  have hfilter := ((List.filter_sublist (l := fields) (p := fun field => field.1 != key)).map
    fun field => (if field.1 = k then 1 else 0) + occurrences k field.2).sum_le_sum
      fun _ _ => Nat.zero_le _
  have hperm := (List.perm_orderedInsert (fun f g : String × Json => f.1 ≤ g.1) (key, value)
    (fields.filter fun field => field.1 != key)).map
      fun field => (if field.1 = k then 1 else 0) + occurrences k field.2
  rw [occurrencesFields_eq, occurrencesFields_eq, insertField, hperm.sum_eq, List.map_cons,
    List.sum_cons]
  simp only at hfilter ⊢
  omega

end Occurrences

/-! ## Printed values -/

section Printed

variable {k : String} {floatText : Rat → List Char} {value : Json} {Pre : Lexer → Prop}

theorem leads_commas (hk : 0 < rank k.toList) {texts : List (List Char)} {counts : List Nat}
    (h : List.Forall₂ (Leads k (Resting k) (Resting k)) texts counts) :
    Leads k (Resting k) (Resting k) (commas ',' texts) counts.sum := by
  have hcomma : Leads k (Resting k) (Resting k) [','] 0 :=
    leads_plain hk (List.forall_mem_singleton.mpr (by decide))
  cases h with
  | nil => exact leads_nil
  | @cons text count texts counts htext htexts =>
    have hrest : Leads k (Resting k) (Resting k) (texts.flatMap (',' :: ·)) counts.sum := by
      induction htexts with
      | nil => exact leads_nil
      | @cons next n texts counts hnext htexts ih =>
        have hfirst := (hcomma.append hnext).append ih
        rwa [Nat.zero_add] at hfirst
    exact htext.append hrest

theorem forall₂_map {α β γ : Type} {R : β → γ → Prop} {f : α → β} {g : α → γ} {items : List α}
    (h : ∀ item ∈ items, R (f item) (g item)) : List.Forall₂ R (items.map f) (items.map g) := by
  rw [List.forall₂_map_left_iff, List.forall₂_map_right_iff, List.forall₂_same]
  exact h

theorem beforeValue_resting {s : Lexer} (h : BeforeValue k s) : Resting k s := h.1

/-- As an item it counts, and as the value of a field it does not. -/
theorem leads_value (hk : 0 < rank k.toList) (h : Leads k (Resting k) (Resting k)
    (print floatText value) (isString k value + occurrences k value)) :
    Leads k (BeforeValue k) (Resting k) (print floatText value) (occurrences k value) := by
  have hother (hzero : isString k value = 0) :
      Leads k (BeforeValue k) (Resting k) (print floatText value) (occurrences k value) := by
    rw [hzero, Nat.zero_add] at h
    exact h.weaken (fun _ => beforeValue_resting) fun _ => id
  cases value with
  | string t => exact leads_quoted_value hk t
  | _ => exact hother rfl

/-- A printed value gives the string as often as it has it. -/
theorem leads_print (hk : 0 < rank k.toList)
    (hnumbers : ∀ n ∈ numbers value, isNumber (numberText floatText n) = true) :
    Leads k (Resting k) (Resting k) (print floatText value)
      (isString k value + occurrences k value) := by
  have hword (word : List Char) (hchars : ∀ c ∈ word, c ≠ '\\') :
      Leads k (Resting k) (Resting k) word 0 := leads_plain hk hchars
  induction value using Json.induction with
  | null => exact hword "null".toList (by decide)
  | bool b =>
    cases b with
    | true => exact hword "true".toList (by decide)
    | false => exact hword "false".toList (by decide)
  | number n =>
    refine hword (numberText floatText n) fun c hc => ?_
    rintro rfl
    cases isNumber_chars (hnumbers n List.mem_cons_self) _ hc
  | string t => exact leads_quoted hk t
  | array items ih =>
    have hitems := leads_commas hk (forall₂_map fun item hitem => ih item hitem fun n hn =>
      hnumbers n (mem_numbersItems.mpr ⟨item, hitem, hn⟩))
    have harray := ((hword ['['] (by decide)).append hitems).append (hword [']'] (by decide))
    rw [← occurrencesItems_eq] at harray
    rw [print, printItems_eq]
    exact harray
  | object fields ih =>
    have hfield : ∀ field ∈ fields, Leads k (Resting k) (Resting k)
        (quoted (escape field.1) ++ ':' :: print floatText field.2)
          ((if field.1 = k then 1 else 0) + occurrences k field.2) := by
      intro field hmem
      have hvalue := leads_value hk (ih field hmem fun n hn =>
        hnumbers n (mem_numbersFields.mpr ⟨field, hmem, hn⟩))
      have hname := (leads_quoted hk field.1).append (leads_colon hk)
      have hwhole := hname.append hvalue
      rwa [List.append_assoc] at hwhole
    have hfields := leads_commas hk (forall₂_map hfield)
    have hobject := ((hword ['\x7b'] (by decide)).append hfields).append (hword ['\x7d'] (by decide))
    rw [← occurrencesFields_eq] at hobject
    rw [print, printFields_eq]
    exact hobject

end Printed

/-! ## What is read -/

def frameOccurrences (k : String) : Frame → Nat
  | .array items => occurrencesItems k items
  | .object fields key => occurrencesFields k fields + if key = k then 1 else 0

def stackOccurrences (k : String) (stack : List Frame) : Nat := (stack.map (frameOccurrences k)).sum

/-- A value behind a colon belongs to a field. -/
def inField : List Frame → Bool
  | .object _ _ :: _ => true
  | _ => false

def parserOccurrences (k : String) : Parser → Nat
  | .value stack | .firstItem stack | .firstKey stack => stackOccurrences k stack
  | .key fields stack => occurrencesFields k fields + stackOccurrences k stack
  | .colon fields key stack =>
    occurrencesFields k fields + (if key = k then 1 else 0) + stackOccurrences k stack
  | .after value stack =>
    (if inField stack then 0 else isString k value) + occurrences k value + stackOccurrences k stack

/-- What stands behind a colon is the value of a field. -/
def Behind (behindColon : Bool) (p : Parser) : Prop :=
  behindColon = true → ∃ stack, p = .value stack ∧ inField stack = true

section Reading

variable {r : Reader} {k : String} {p p' : Parser} {token : Token} {tokens : List Token}
  {value : Json} {stack : List Frame} {text : List Char} {behindColon : Bool} {n : Nat}

theorem stackOccurrences_cons {frame : Frame} : stackOccurrences k (frame :: stack) =
    frameOccurrences k frame + stackOccurrences k stack := by
  rw [stackOccurrences, List.map_cons, List.sum_cons, stackOccurrences]

theorem after_item {items : List Json} :
    parserOccurrences k (.after value (.array items :: stack)) =
      isString k value + occurrences k value + (occurrencesItems k items + stackOccurrences k stack) := by
  rw [parserOccurrences, stackOccurrences_cons, frameOccurrences]
  rfl

theorem after_field {fields : List (String × Json)} {key : String} :
    parserOccurrences k (.after value (.object fields key :: stack)) = occurrences k value +
      (occurrencesFields k fields + (if key = k then 1 else 0) + stackOccurrences k stack) := by
  rw [parserOccurrences, stackOccurrences_cons, frameOccurrences, inField, if_pos rfl, Nat.zero_add]

theorem after_container (h : isString k value = 0) :
    parserOccurrences k (.after value stack) = occurrences k value + stackOccurrences k stack := by
  rw [parserOccurrences, h, ite_self, Nat.zero_add]

def tokenGain (k : String) (behindColon : Bool) (token : Token) : Nat :=
  if !behindColon && gives k token then 1 else 0

theorem tokenGain_string {raw : List Char} {s : String} (h : readString raw = some s) :
    tokenGain k false (.string raw) = if s = k then 1 else 0 := by
  rw [tokenGain, gives, h]
  by_cases hs : s = k
  · simp [hs]
  · simp [hs]

theorem startValue_occurrences (hbehind : behindColon = true → inField stack = true)
    (h : r.startValue stack token = some p') :
    parserOccurrences k p' ≤ stackOccurrences k stack + tokenGain k behindColon token := by
  unfold Reader.startValue at h
  split at h
  · obtain ⟨value, hread, rfl⟩ := Option.map_eq_some_iff.mp h
    have hleaf : isString k value = 0 ∧ occurrences k value = 0 := by
      unfold Reader.readWord at hread
      split_ifs at hread
      · obtain rfl := Option.some.inj hread
        exact ⟨rfl, rfl⟩
      · obtain rfl := Option.some.inj hread
        exact ⟨rfl, rfl⟩
      · obtain rfl := Option.some.inj hread
        exact ⟨rfl, rfl⟩
      · obtain ⟨n, -, rfl⟩ := Option.map_eq_some_iff.mp hread
        exact ⟨rfl, rfl⟩
    rw [parserOccurrences, hleaf.1, hleaf.2, ite_self, Nat.zero_add]
    exact Nat.le_add_right _ _
  · obtain ⟨s, hread, rfl⟩ := Option.map_eq_some_iff.mp h
    have hnone : occurrences k (.string s) = 0 := rfl
    rw [parserOccurrences, hnone, isString]
    cases behindColon with
    | true =>
      rw [hbehind rfl, if_pos rfl]
      omega
    | false =>
      rw [tokenGain_string hread]
      split <;> omega
  · split_ifs at h
    obtain rfl := Option.some.inj h
    exact Nat.le_add_right _ _
  · split_ifs at h
    obtain rfl := Option.some.inj h
    exact Nat.le_add_right _ _
  · cases h

theorem step_colon (h : r.step p (.mark .colon) = some p') :
    ∃ stack, p' = .value stack ∧ inField stack = true := by
  cases p with
  | colon fields key stack =>
    obtain rfl := Option.some.inj h
    exact ⟨_, rfl, rfl⟩
  | after value stack => rcases stack with _ | ⟨_ | _, _⟩ <;> cases h
  | _ => cases h

theorem step_behind (h : r.step p token = some p') : Behind (token == .mark .colon) p' := by
  intro htoken
  rw [beq_iff_eq] at htoken
  subst htoken
  exact step_colon h

/-- A token adds no more than it gives. -/
theorem step_occurrences (hbehind : Behind behindColon p) (h : r.step p token = some p') :
    parserOccurrences k p' ≤ parserOccurrences k p + tokenGain k behindColon token := by
  have hfree : (∀ stack, p ≠ .value stack) → behindColon = false := by
    intro hvalue
    by_contra hcolon
    obtain ⟨stack, rfl, -⟩ := hbehind (Bool.eq_true_of_not_eq_false hcolon)
    exact hvalue stack rfl
  unfold Reader.step at h
  split at h
  · next stack token =>
    refine startValue_occurrences (fun hcolon => ?_) h
    obtain ⟨stack', heq, hfield⟩ := hbehind hcolon
    rwa [Parser.value.inj heq]
  · obtain rfl := Option.some.inj h
    rw [after_container rfl, occurrences, occurrencesItems, Nat.zero_add]
    exact Nat.le_add_right _ _
  · next stack _ =>
    have hinner : behindColon = true → inField (.array [] :: stack) = true := fun hcolon =>
      absurd hcolon (Bool.eq_false_iff.mp (hfree nofun))
    have hle := startValue_occurrences (k := k) hinner h
    rwa [stackOccurrences_cons, frameOccurrences, occurrencesItems, Nat.zero_add] at hle
  · obtain rfl := Option.some.inj h
    rw [after_container rfl, occurrences, occurrencesFields, Nat.zero_add]
    exact Nat.le_add_right _ _
  · obtain ⟨key, hread, rfl⟩ := Option.map_eq_some_iff.mp h
    rw [hfree nofun, tokenGain_string hread]
    simp only [parserOccurrences, occurrencesFields]
    omega
  · obtain ⟨key, hread, rfl⟩ := Option.map_eq_some_iff.mp h
    rw [hfree nofun, tokenGain_string hread]
    simp only [parserOccurrences]
    omega
  · obtain rfl := Option.some.inj h
    simp only [parserOccurrences, stackOccurrences_cons, frameOccurrences]
    omega
  · obtain rfl := Option.some.inj h
    rw [after_item, parserOccurrences, stackOccurrences_cons, frameOccurrences,
      occurrencesItems_concat]
    omega
  · obtain rfl := Option.some.inj h
    rw [after_item, after_container rfl, occurrences, occurrencesItems_concat]
    omega
  · next value fields key stack =>
    obtain rfl := Option.some.inj h
    have hle := @occurrencesFields_insert k key value fields
    rw [after_field, parserOccurrences]
    omega
  · next value fields key stack =>
    obtain rfl := Option.some.inj h
    have hle := @occurrencesFields_insert k key value fields
    rw [after_field, after_container rfl, occurrences]
    omega
  · cases h

theorem run_occurrences (hbehind : Behind behindColon p) (h : r.run p tokens = some p') :
    parserOccurrences k p' ≤ parserOccurrences k p + gain k behindColon tokens := by
  induction tokens generalizing p behindColon with
  | nil =>
    obtain rfl := Option.some.inj h
    exact Nat.le_refl _
  | cons token tokens ih =>
    rw [Reader.run_parser_cons, Option.bind_eq_some_iff] at h
    obtain ⟨next, hnext, h⟩ := h
    have hfirst := step_occurrences (k := k) hbehind hnext
    have hrest := ih (step_behind hnext) h
    rw [gain, ← tokenGain]
    omega

theorem readWord_slash {word : List Char} (h : '\\' ∈ word) : r.readWord word = none := by
  unfold Reader.readWord
  have hnumber : ¬ isNumber word = true := fun hword => by cases isNumber_chars hword _ h
  rw [if_neg, if_neg, if_neg, if_neg hnumber]
  all_goals
    rintro rfl
    revert h
    decide

/-- Only words that are values are passed. -/
theorem step_readWord {word : List Char} (h : r.step p (.word word) = some p') :
    r.readWord word ≠ none := by
  have hvalue {stack : List Frame} (hstart : r.startValue stack (.word word) = some p') :
      r.readWord word ≠ none := by
    obtain ⟨value, hread, -⟩ := Option.map_eq_some_iff.mp hstart
    rw [hread]
    exact Option.some_ne_none value
  cases p with
  | value stack => exact hvalue h
  | firstItem stack => exact hvalue h
  | after value stack => rcases stack with _ | ⟨_ | _, _⟩ <;> cases h
  | _ => cases h

/-- From a dead lexer no value is read. -/
theorem not_dead {s : Lexer} {word : List Char} (hmode : isOutside s.mode = true)
    (hword : pending s.mode = word) (h : r.run p (emit s.tokens word) = some p') : ¬ Dead s := by
  have hstep : ∀ p p' token, r.step p token = some p' →
      ∀ other, token = .word other → r.readWord other ≠ none := by
    rintro p p' token hnext other rfl
    exact step_readWord hnext
  have hwords := forall_of_run hstep h
  rintro ((⟨raw, hraw, hline⟩ | ⟨hin, -⟩) | ⟨other, hmem, hescape⟩ | ⟨-, hescape⟩)
  · have hread := readable_of_run h (mem_emit.mpr hraw)
    rw [readString, readUnits_lineEnd hline] at hread
    cases hread
  · rw [hmode] at hin
    cases hin
  · exact hwords _ (mem_emit_word.mpr (.inl hmem)) other rfl (readWord_slash hescape)
  · rw [hword] at hescape
    have hpending : .word word ∈ emit s.tokens word :=
      mem_emit_word.mpr (.inr ⟨rfl, List.ne_nil_of_mem hescape⟩)
    exact hwords _ hpending word rfl (readWord_slash hescape)

/-- A value has a string no more often than its text gives it. -/
theorem occurrences_le_of_read {Post : Lexer → Prop} (hleads : Leads k AtLineStart Post text n)
    (h : r.read .nothing text = some value) : occurrences k value ≤ n := by
  rw [Reader.read, Option.bind_eq_some_iff] at h
  obtain ⟨tokens, hlex, hparse⟩ := h
  rw [Reader.parse, Option.bind_eq_some_iff] at hparse
  obtain ⟨p, hrun, hfinish⟩ := hparse
  obtain rfl := finish_eq hfinish
  rw [lex, Option.bind_eq_some_iff] at hlex
  obtain ⟨s, hlexer, hend⟩ := hlex
  have hneat : Neat ⟨[], .plain []⟩ := ⟨fun _ hmem => absurd hmem List.not_mem_nil, trivial⟩
  have hstart := hleads _ s hneat (.inl rfl) hlexer
  have hcounted : ∀ word, isOutside s.mode = true → pending s.mode = word →
      tokens = emit s.tokens word → occurrences k value ≤ n := by
    rintro word hmode hword rfl
    have hle := (hstart.resolve_left (not_dead hmode hword hrun)).2
    have hbehind : Behind false (.value []) := fun hfalse => absurd hfalse Bool.false_ne_true
    have hrun := run_occurrences (k := k) hbehind hrun
    have hemit : gain k false (emit s.tokens word) = gained k s := @gained_emit _ _ _ (.plain [])
    rw [hemit, parserOccurrences, parserOccurrences] at hrun
    have hzero : gained k ⟨[], .plain []⟩ = 0 := rfl
    have hnone : stackOccurrences k [] = 0 := rfl
    omega
  obtain ⟨before, mode⟩ := s
  cases mode with
  | plain word => exact hcounted word rfl rfl (Option.some.inj hend).symm
  | line word => exact hcounted word rfl rfl (Option.some.inj hend).symm
  | _ => cases hend

end Reading

end Climon.Lib.JsonOccurrences
