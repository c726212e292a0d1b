import Climon.Lib.JsonRank

namespace Climon.Lib.JsonGain

open Climon.Lib.JsonCost Climon.Lib.JsonPrint Climon.Lib.JsonRank Climon.Lib.JsonText

/-!
# How often a text has a key

A text is read from a state of one kind to one of another.  Where a comment or a quote brings a
printed string out of step, no string with an escape is read from it.
-/

/-! ## What a lexer gains -/

def gives (k : String) : Token → Bool
  | .string raw => readString raw == some k
  | _ => false

/-- How often the string comes up, but for directly behind a colon. -/
def gain (k : String) : Bool → List Token → Nat
  | _, [] => 0
  | behindColon, token :: tokens =>
    (if !behindColon && gives k token then 1 else 0) + gain k (token == .mark .colon) tokens

def endsWithColon : Bool → List Token → Bool
  | behindColon, [] => behindColon
  | _, token :: tokens => endsWithColon (token == .mark .colon) tokens

def gained (k : String) (s : Lexer) : Nat := gain k false s.tokens

/-- Inside a string, it is not the one that is counted. -/
def Resting (k : String) (s : Lexer) : Prop :=
  match s.mode with
  | .string raw => Poor k raw
  | .escaped _ => False
  | _ => True

def BeforeValue (k : String) (s : Lexer) : Prop :=
  Resting k s ∧ ∀ word, s.mode = .plain word → word = [] ∧ endsWithColon false s.tokens = true

/-- A word with a backslash. -/
def Spoilt (s : Lexer) : Prop :=
  (∃ word, .word word ∈ s.tokens ∧ '\\' ∈ word) ∨ isOutside s.mode = true ∧ '\\' ∈ pending s.mode

/-- What follows, there is no value. -/
def Dead (s : Lexer) : Prop := Broken s ∨ Spoilt s

/-- From states of one kind a text leads to those of another, and the string comes up so often at
most. -/
def Leads (k : String) (Pre Post : Lexer → Prop) (text : List Char) (n : Nat) : Prop :=
  ∀ s s', Neat s → Pre s → Lexer.run .nothing s text = some s' →
    Dead s' ∨ Post s' ∧ gained k s' ≤ gained k s + n

section Gaining

variable {k : String} {behindColon : Bool} {s s' : Lexer} {c : Char} {token : Token}
  {tokens new : List Token} {word raw text back : List Char} {m n : Nat}
  {Pre Mid Post P : Lexer → Prop} {comments : Comments}

theorem gain_append : gain k behindColon (tokens ++ new) =
    gain k behindColon tokens + gain k (endsWithColon behindColon tokens) new := by
  induction tokens generalizing behindColon with
  | nil => exact (Nat.zero_add _).symm
  | cons token tokens ih => rw [List.cons_append, gain, ih, gain, endsWithColon, Nat.add_assoc]

theorem endsWithColon_concat :
    endsWithColon behindColon (tokens ++ [token]) = (token == .mark .colon) := by
  induction tokens generalizing behindColon with
  | nil => rfl
  | cons first tokens ih => exact ih

theorem gain_eq_zero (h : ∀ token ∈ new, gives k token = false) : gain k behindColon new = 0 := by
  induction new generalizing behindColon with
  | nil => rfl
  | cons token new ih =>
    rw [List.forall_mem_cons] at h
    rw [gain, h.1, Bool.and_false, if_neg Bool.false_ne_true, ih h.2]

/-- Tokens that are not the string. -/
theorem gained_append (h : ∀ token ∈ new, gives k token = false) {mode : Mode} :
    gained k ⟨tokens ++ new, mode⟩ = gain k false tokens := by
  rw [gained, gain_append, gain_eq_zero h, Nat.add_zero]

theorem emit_append : ∃ new, emit tokens word = tokens ++ new ∧ ∀ token ∈ new, token = .word word := by
  cases word with
  | nil => exact ⟨[], (List.append_nil tokens).symm, List.forall_mem_nil _⟩
  | cons c word => exact ⟨_, rfl, List.forall_mem_singleton.mpr rfl⟩

theorem gained_emit {mode : Mode} : gained k ⟨emit tokens word, mode⟩ = gain k false tokens := by
  obtain ⟨new, hnew, hwords⟩ := @emit_append tokens word
  rw [hnew, gained_append]
  intro token htoken
  rw [hwords token htoken]
  rfl

theorem mem_emit_word {other : List Char} :
    .word other ∈ emit tokens word ↔ .word other ∈ tokens ∨ other = word ∧ word ≠ [] := by
  cases word with
  | nil => simp [emit]
  | cons c word => simp [emit]

/-- Outside strings nothing but a quote opens one. -/
structure Outside (k : String) (s s' : Lexer) (c : Char) : Prop where
  mode : isOutside s'.mode = true ∨ c = '"' ∧ s'.mode = .string []
  gained_eq : gained k s' = gained k s
  spoilt : Spoilt s → Spoilt s'

theorem spoilt_emit {mode : Mode} (h : Spoilt ⟨tokens, .plain word⟩) :
    Spoilt ⟨emit tokens word, mode⟩ := by
  left
  rcases h with ⟨other, hmem, hescape⟩ | ⟨-, hescape⟩
  · exact ⟨other, mem_emit_word.mpr (.inl hmem), hescape⟩
  · exact ⟨word, mem_emit_word.mpr (.inr ⟨rfl, List.ne_nil_of_mem hescape⟩), hescape⟩

theorem Spoilt.mono {s' : Lexer} (h : Spoilt s) (htokens : ∀ token ∈ s.tokens, token ∈ s'.tokens)
    (hword : '\\' ∈ pending s.mode → isOutside s'.mode = true ∧ '\\' ∈ pending s'.mode) :
    Spoilt s' := by
  rcases h with ⟨other, hmem, hescape⟩ | ⟨-, hescape⟩
  · exact .inl ⟨other, htokens _ hmem, hescape⟩
  · exact .inr (hword hescape)

theorem outside_kept {mode mode' : Mode} (hout : isOutside mode' = true)
    (hpending : ∀ d ∈ pending mode, d ∈ pending mode') :
    Outside k ⟨tokens, mode⟩ ⟨tokens, mode'⟩ c :=
  ⟨.inl hout, rfl, fun hspoilt => hspoilt.mono (fun _ => id) fun hword => ⟨hout, hpending _ hword⟩⟩

theorem plainStep_outside (h : Lexer.plainStep .nothing tokens word c = some s') :
    Outside k ⟨tokens, .plain word⟩ s' c := by
  unfold Lexer.plainStep at h
  split at h
  · obtain rfl := Option.some.inj h
    exact ⟨.inl rfl, gained_emit, spoilt_emit⟩
  · split at h
    · next hquote =>
      obtain rfl := Option.some.inj h
      exact ⟨.inr ⟨hquote, rfl⟩, gained_emit, spoilt_emit⟩
    · split at h
      · obtain rfl := Option.some.inj h
        exact outside_kept rfl fun _ => id
      · split at h
        · next mark _ =>
          obtain rfl := Option.some.inj h
          refine ⟨.inl rfl, ?_, fun hspoilt => ?_⟩
          · rw [gained, gain_append, gain_eq_zero (List.forall_mem_singleton.mpr rfl)]
            exact @gained_emit _ _ _ (.plain [])
          · have hemit : Spoilt ⟨emit tokens word, .plain []⟩ := spoilt_emit hspoilt
            exact hemit.mono (fun _ => List.mem_append_left _) fun hword => absurd hword List.not_mem_nil
        · obtain rfl := Option.some.inj h
          exact outside_kept rfl fun _ => List.mem_append_left _

theorem step_outside (hout : isOutside s.mode = true) (h : s.step .nothing c = some s') :
    Outside k s s' c := by
  obtain ⟨tokens, mode⟩ := s
  cases mode with
  | plain word => exact plainStep_outside h
  | string raw => cases hout
  | escaped raw => cases hout
  | slash word =>
    simp only [Lexer.step] at h
    split_ifs at h <;> obtain rfl := Option.some.inj h
    · exact outside_kept rfl fun _ => id
    · exact outside_kept rfl fun _ => id
  | line word =>
    simp only [Lexer.step] at h
    split_ifs at h <;> obtain rfl := Option.some.inj h
    · exact ⟨.inl rfl, gained_emit, spoilt_emit⟩
    · exact outside_kept rfl fun _ => id
  | block word =>
    simp only [Lexer.step] at h
    split_ifs at h <;> obtain rfl := Option.some.inj h
    · exact outside_kept rfl fun _ => id
    · exact outside_kept rfl fun _ => id
  | star word =>
    simp only [Lexer.step] at h
    split_ifs at h <;> obtain rfl := Option.some.inj h
    · exact outside_kept rfl fun _ => id
    · exact outside_kept rfl fun _ => id
    · exact outside_kept rfl fun _ => id

theorem step_spoilt (hspoilt : Spoilt s) (h : s.step .nothing c = some s') : Spoilt s' := by
  by_cases hout : isOutside s.mode = true
  · exact (@step_outside "" _ _ _ hout h).spoilt hspoilt
  · have hword : ∃ word, .word word ∈ s.tokens ∧ '\\' ∈ word :=
      hspoilt.resolve_right fun hpending => hout hpending.1
    obtain ⟨word, hmem, hescape⟩ := hword
    refine .inl ⟨word, ?_, hescape⟩
    obtain ⟨tokens, mode⟩ := s
    cases mode with
    | string raw =>
      rcases step_string h with ⟨-, rfl⟩ | ⟨-, rfl⟩ | ⟨-, rfl⟩
      · exact hmem
      · exact List.mem_append_left _ hmem
      · exact hmem
    | escaped raw =>
      obtain rfl := step_escaped h
      exact hmem
    | _ => exact absurd rfl hout

theorem step_dead (hdead : Dead s) (h : s.step .nothing c = some s') : Dead s' :=
  hdead.imp (fun hbroken => step_broken hbroken h) fun hspoilt => step_spoilt hspoilt h

theorem leads_nil : Leads k P P [] 0 := by
  intro s s' _ hP hrun
  obtain rfl := Option.some.inj hrun
  exact .inr ⟨hP, Nat.le_refl _⟩

theorem Leads.append (h : Leads k Pre Mid text m) (h' : Leads k Mid Post back n) :
    Leads k Pre Post (text ++ back) (m + n) := by
  intro s s' hneat hpre hrun
  rw [Lexer.run_append, Option.bind_eq_some_iff] at hrun
  obtain ⟨next, hnext, hrun⟩ := hrun
  rcases h s next hneat hpre hnext with hdead | ⟨hmid, hle⟩
  · exact .inl (run_keeps step_dead hdead hrun)
  · refine (h' next s' (run_keeps step_neat hneat hnext) hmid hrun).imp_right fun hpost => ?_
    exact ⟨hpost.1, hpost.2.trans (by omega)⟩

theorem Leads.weaken {Pre' Post' : Lexer → Prop} (h : Leads k Pre Post text n)
    (hpre : ∀ s, Pre' s → Pre s) (hpost : ∀ s, Post s → Post' s) : Leads k Pre' Post' text n :=
  fun s s' hneat hs hrun => (h s s' hneat (hpre s hs) hrun).imp_right (And.imp_left (hpost s'))

/-- A text of one character is one step. -/
theorem leads_one (hstep : ∀ s s', Neat s → Pre s → Lexer.step .nothing s c = some s' →
    Dead s' ∨ Post s' ∧ gained k s' ≤ gained k s) : Leads k Pre Post [c] 0 := by
  intro s s' hneat hs hrun
  rw [Lexer.run_cons, Option.bind_eq_some_iff] at hrun
  obtain ⟨next, hnext, hrun⟩ := hrun
  obtain rfl := Option.some.inj hrun
  exact hstep s next hneat hs hnext

/-- One character at a time. -/
theorem leads_chars (hstep : ∀ s s' c, c ∈ text → Neat s → P s → Lexer.step .nothing s c = some s' →
    Dead s' ∨ P s' ∧ gained k s' ≤ gained k s) : Leads k P P text 0 := by
  induction text with
  | nil => exact leads_nil
  | cons c text ih =>
    have hfirst : Leads k P P [c] 0 :=
      leads_one fun s s' => hstep s s' c List.mem_cons_self
    exact hfirst.append (ih fun s s' d hd => hstep s s' d (List.mem_cons_of_mem c hd))

theorem resting_of_outside (h : isOutside s.mode = true) : Resting k s := by
  unfold Resting
  split
  · next hmode =>
    rw [hmode] at h
    cases h
  · next hmode =>
    rw [hmode] at h
    cases h
  · trivial

theorem gained_unread {mode : Mode} (h : readString raw ≠ some k) :
    gained k ⟨tokens ++ [.string raw], mode⟩ = gain k false tokens := by
  have hgives : gives k (.string raw) = false := beq_false_of_ne h
  exact gained_append (List.forall_mem_singleton.mpr hgives)

theorem step_resting (hk : 0 < rank k.toList) (hneat : Neat s) (hrest : Resting k s) (hc : c ≠ '\\')
    (h : s.step .nothing c = some s') : Resting k s' ∧ gained k s' ≤ gained k s := by
  by_cases hout : isOutside s.mode = true
  · obtain ⟨hmode, hgained, -⟩ := @step_outside k _ _ _ hout h
    refine ⟨?_, Nat.le_of_eq hgained⟩
    rcases hmode with hout' | ⟨-, hopen⟩
    · exact resting_of_outside hout'
    · unfold Resting
      rw [hopen]
      exact poor_nil hk
  · obtain ⟨tokens, mode⟩ := s
    cases mode with
    | string raw =>
      rcases step_string h with ⟨heq, -⟩ | ⟨-, rfl⟩ | ⟨hplain, rfl⟩
      · exact absurd heq hc
      · refine ⟨trivial, Nat.le_of_eq (gained_unread ?_)⟩
        have hunread := hrest [] (List.forall_mem_nil _)
        rw [List.append_nil] at hunread
        exact hunread hneat.2
      · exact ⟨Poor.append hrest (List.forall_mem_singleton.mpr ⟨hplain.2, hplain.1⟩), Nat.le_refl _⟩
    | escaped raw => exact hrest.elim
    | _ => exact absurd rfl hout

/-- A text without backslashes. -/
theorem leads_plain (hk : 0 < rank k.toList) (h : ∀ c ∈ text, c ≠ '\\') :
    Leads k (Resting k) (Resting k) text 0 :=
  leads_chars fun _ _ _ hmem hneat hs hstep => .inr (step_resting hk hneat hs (h _ hmem) hstep)

theorem step_out (hout : isOutside s.mode = true) (hc : c ≠ '"') (h : s.step .nothing c = some s') :
    isOutside s'.mode = true ∧ gained k s' = gained k s := by
  obtain ⟨hmode, hgained, -⟩ := @step_outside k _ _ _ hout h
  exact ⟨hmode.resolve_right fun hquote => hc hquote.1, hgained⟩

/-- In a comment no quote opens a string. -/
theorem step_comment {mode : Mode} (hmode : (∃ word, mode = .line word) ∨ ∃ word, mode = .block word)
    (h : Lexer.step .nothing ⟨tokens, mode⟩ c = some s') :
    isOutside s'.mode = true ∧ gained k s' = gain k false tokens := by
  rcases hmode with ⟨word, rfl⟩ | ⟨word, rfl⟩
  · simp only [Lexer.step] at h
    split_ifs at h <;> obtain rfl := Option.some.inj h
    · exact ⟨rfl, gained_emit⟩
    · exact ⟨rfl, rfl⟩
  · simp only [Lexer.step] at h
    split_ifs at h <;> obtain rfl := Option.some.inj h
    · exact ⟨rfl, rfl⟩
    · exact ⟨rfl, rfl⟩

/-- Outside strings and comments an escape spoils the word, and in a comment it is nothing. -/
theorem leads_escape (d : Char) :
    Leads k (fun s => isOutside s.mode = true) (fun s => isOutside s.mode = true) ['\\', d] 0 := by
  intro s s' _ hout hrun
  rw [Lexer.run_cons, Option.bind_eq_some_iff] at hrun
  obtain ⟨next, hnext, hrun⟩ := hrun
  rw [Lexer.run_cons, Option.bind_eq_some_iff] at hrun
  obtain ⟨last, hlast, hrun⟩ := hrun
  obtain rfl := Option.some.inj hrun
  obtain ⟨tokens, mode⟩ := s
  have hcomment : ∀ mode', (∃ word, mode' = .line word) ∨ (∃ word, mode' = .block word) →
      next = ⟨tokens, mode'⟩ → Dead last ∨ isOutside last.mode = true ∧
        gained k last ≤ gained k ⟨tokens, mode⟩ + 0 := by
    rintro mode' hmode' rfl
    obtain ⟨hlastOut, hgained⟩ := @step_comment k _ _ _ _ hmode' hlast
    exact .inr ⟨hlastOut, Nat.le_of_eq hgained⟩
  cases mode with
  | plain word =>
    obtain rfl := Option.some.inj hnext
    have hspoilt : Spoilt ⟨tokens, .plain (word ++ ['\\'])⟩ :=
      .inr ⟨rfl, List.mem_append_right _ List.mem_cons_self⟩
    exact .inl (step_dead (.inr hspoilt) hlast)
  | string raw => cases hout
  | escaped raw => cases hout
  | slash word => cases hnext
  | line word => exact hcomment _ (.inl ⟨word, rfl⟩) (Option.some.inj hnext).symm
  | block word => exact hcomment _ (.inr ⟨word, rfl⟩) (Option.some.inj hnext).symm
  | star word => exact hcomment _ (.inr ⟨word, rfl⟩) (Option.some.inj hnext).symm

theorem leads_out (h : ∀ c ∈ text, c ≠ '"') :
    Leads k (fun s => isOutside s.mode = true) (fun s => isOutside s.mode = true) text 0 :=
  leads_chars fun _ _ _ hmem _ hout hstep =>
    .inr ((step_out hout (h _ hmem) hstep).imp_right Nat.le_of_eq)

theorem leads_escaped_out {t : String} :
    Leads k (fun s => isOutside s.mode = true) (fun s => isOutside s.mode = true) (escape t) 0 := by
  unfold escape
  induction t.toList with
  | nil => exact leads_nil
  | cons c chars ih =>
    have hchar : Leads k (fun s => isOutside s.mode = true) (fun s => isOutside s.mode = true)
        (escapeChar c) 0 := by
      unfold escapeChar
      split
      · next d _ => exact leads_escape d
      · next hplain =>
        split
        · have hdigit : ∀ n < 16, Nat.digitChar n ≠ '"' := by decide
          have hdigits : ∀ d ∈ ['0', '0', Nat.digitChar (c.toNat / 16), Nat.digitChar (c.toNat % 16)],
              d ≠ '"' := by
            simp only [List.forall_mem_cons]
            exact ⟨by decide, by decide, hdigit _ (by omega), hdigit _ (by omega),
              List.forall_mem_nil _⟩
          exact (leads_escape 'u').append (leads_out hdigits)
        · exact leads_out (List.forall_mem_singleton.mpr (plain_of_lookup hplain).1)
    rw [List.flatMap_cons]
    exact hchar.append ih

/-- A quote behind an open string or in a comment opens none. -/
theorem leads_quote : Leads k (fun s => Resting k s ∧ ∀ word, s.mode ≠ .plain word)
    (fun s => isOutside s.mode = true) ['"'] 0 := by
  apply leads_one
  rintro s s' hneat ⟨hrest, hplain⟩ hnext
  right
  obtain ⟨tokens, mode⟩ := s
  cases mode with
  | plain word => exact absurd rfl (hplain word)
  | string raw =>
    have hunread := hrest [] (List.forall_mem_nil _)
    rw [List.append_nil] at hunread
    obtain rfl := Option.some.inj hnext
    exact ⟨rfl, Nat.le_of_eq (gained_unread (hunread hneat.2))⟩
  | escaped raw => exact hrest.elim
  | slash word => cases hnext
  | line word => exact (step_comment (.inl ⟨word, rfl⟩) hnext).imp_right Nat.le_of_eq
  | block word => exact (step_comment (.inr ⟨word, rfl⟩) hnext).imp_right Nat.le_of_eq
  | star word =>
    obtain rfl := Option.some.inj hnext
    exact ⟨rfl, Nat.le_refl _⟩

theorem leads_quoted_away (hk : 0 < rank k.toList) {t : String} :
    Leads k (fun s => Resting k s ∧ ∀ word, s.mode ≠ .plain word) (Resting k)
      (quoted (escape t)) 0 := by
  have hend : Leads k (fun s => isOutside s.mode = true) (Resting k) ['"'] 0 :=
    (leads_plain hk (List.forall_mem_singleton.mpr (by decide))).weaken
      (fun _ => resting_of_outside) fun _ => id
  exact (leads_quote.append leads_escaped_out).append hend

theorem run_quoted_end {t : String} (h : Lexer.run comments ⟨tokens, .plain word⟩
    (quoted (escape t)) = some s') : s' = ⟨emit tokens word ++ [.string (escape t)], .plain []⟩ := by
  have hquoted := @Lexer.run_quoted comments tokens (escape t) [] word (inside_escaped t)
  change Lexer.run comments ⟨tokens, .plain word⟩ ('"' :: escape t ++ ['"']) = some s' at h
  rw [h] at hquoted
  exact (Option.some.inj hquoted.symm).symm

/-- A printed string is gained once at most. -/
theorem leads_quoted (hk : 0 < rank k.toList) (t : String) :
    Leads k (Resting k) (Resting k) (quoted (escape t)) (if t = k then 1 else 0) := by
  intro s s' hneat hrest hrun
  obtain ⟨tokens, mode⟩ := s
  by_cases hplain : ∃ word, mode = .plain word
  · obtain ⟨word, rfl⟩ := hplain
    obtain rfl := run_quoted_end hrun
    refine .inr ⟨trivial, ?_⟩
    have hgives : gives k (.string (escape t)) = decide (t = k) := by
      rw [gives, readString_escape]
      by_cases htk : t = k
      · simp [htk]
      · simp [htk]
    have hemit : gain k false (emit tokens word) = gain k false tokens :=
      @gained_emit _ _ _ (.plain [])
    rw [gained, gain_append, hemit, gain, hgives, gain, Nat.add_zero]
    apply Nat.add_le_add_left
    by_cases htk : t = k
    · rw [if_pos htk]
      split <;> decide
    · rw [if_neg htk, decide_eq_false htk, Bool.and_false, if_neg Bool.false_ne_true]
  · have hle := (leads_quoted_away hk _ _ hneat ⟨hrest, fun word heq => hplain ⟨word, heq⟩⟩ hrun)
    exact hle.imp_right fun hpost => ⟨hpost.1, hpost.2.trans (by omega)⟩

/-- As the value of a field it is not counted. -/
theorem leads_quoted_value (hk : 0 < rank k.toList) (t : String) :
    Leads k (BeforeValue k) (Resting k) (quoted (escape t)) 0 := by
  rintro s s' hneat ⟨hrest, hvalue⟩ hrun
  obtain ⟨tokens, mode⟩ := s
  by_cases hplain : ∃ word, mode = .plain word
  · obtain ⟨word, rfl⟩ := hplain
    obtain ⟨rfl, hcolon⟩ := hvalue word rfl
    obtain rfl := run_quoted_end hrun
    refine .inr ⟨trivial, ?_⟩
    change endsWithColon false tokens = true at hcolon
    rw [gained, emit_nil, gain_append, hcolon, gain, gain]
    exact Nat.le_refl _
  · exact leads_quoted_away hk _ _ hneat ⟨hrest, fun word heq => hplain ⟨word, heq⟩⟩ hrun

/-- Behind a colon a value starts. -/
theorem leads_colon (hk : 0 < rank k.toList) : Leads k (Resting k) (BeforeValue k) [':'] 0 := by
  apply leads_one
  intro s s' hneat hrest hnext
  obtain ⟨hrest', hgained⟩ := step_resting hk hneat hrest (by decide) hnext
  refine .inr ⟨⟨hrest', ?_⟩, hgained⟩
  obtain ⟨tokens, mode⟩ := s
  rintro word hmode
  cases mode with
  | plain before =>
    obtain rfl := Option.some.inj hnext
    exact ⟨(Mode.plain.inj hmode).symm, endsWithColon_concat⟩
  | slash before => cases hnext
  | escaped raw => exact hrest.elim
  | _ =>
    obtain rfl := Option.some.inj hnext
    cases hmode

theorem leads_space (hk : 0 < rank k.toList) : Leads k (BeforeValue k) (BeforeValue k) [' '] 0 := by
  apply leads_one
  rintro s s' hneat ⟨hrest, hvalue⟩ hnext
  obtain ⟨hrest', hgained⟩ := step_resting hk hneat hrest (by decide) hnext
  refine .inr ⟨⟨hrest', ?_⟩, hgained⟩
  obtain ⟨tokens, mode⟩ := s
  rintro word hmode
  cases mode with
  | plain before =>
    obtain ⟨rfl, hcolon⟩ := hvalue before rfl
    obtain rfl := Option.some.inj hnext
    exact ⟨(Mode.plain.inj hmode).symm, hcolon⟩
  | slash before => cases hnext
  | escaped raw => exact hrest.elim
  | _ =>
    obtain rfl := Option.some.inj hnext
    cases hmode

/-! ## Names as they are -/

/-- A string that is open began inside the name. -/
def InName (done : List Char) (s : Lexer) : Prop :=
  match s.mode with
  | .string raw | .escaped raw => raw <:+ done
  | _ => True

theorem inName_of_outside {done : List Char} (h : isOutside s.mode = true) : InName done s := by
  obtain ⟨tokens, mode⟩ := s
  cases mode with
  | string raw => cases h
  | escaped raw => cases h
  | _ => trivial

theorem suffix_concat {done : List Char} (h : raw <:+ done) : raw ++ [c] <:+ done ++ [c] := by
  obtain ⟨front, rfl⟩ := h
  exact ⟨front, (List.append_assoc _ _ _).symm⟩

theorem step_inName {name : String} (hk : 0 < rank k.toList) (hname : Outranks k name)
    {done : List Char} (hdone : done <:+: name.toList) (hneat : Neat s) (hs : InName done s)
    (h : s.step .nothing c = some s') :
    InName (done ++ [c]) s' ∧ gained k s' ≤ gained k s := by
  by_cases hout : isOutside s.mode = true
  · obtain ⟨hmode, hgained, -⟩ := @step_outside k _ _ _ hout h
    refine ⟨?_, Nat.le_of_eq hgained⟩
    rcases hmode with hout' | ⟨-, hopen⟩
    · exact inName_of_outside hout'
    · unfold InName
      rw [hopen]
      exact List.nil_suffix
  · obtain ⟨tokens, mode⟩ := s
    cases mode with
    | string raw =>
      have hraw : raw <:+ done := hs
      rcases step_string h with ⟨rfl, rfl⟩ | ⟨-, rfl⟩ | ⟨-, rfl⟩
      · exact ⟨suffix_concat hraw, Nat.le_refl _⟩
      · have hunread := hname.unread hk (hraw.isInfix.trans hdone) hneat.2
        exact ⟨trivial, Nat.le_of_eq (gained_unread hunread)⟩
      · exact ⟨suffix_concat hraw, Nat.le_refl _⟩
    | escaped raw =>
      obtain rfl := step_escaped h
      exact ⟨suffix_concat hs, Nat.le_refl _⟩
    | _ => exact absurd rfl hout

theorem leads_inside_name {name : String} (hk : 0 < rank k.toList) (hname : Outranks k name)
    {done : List Char} (hsplit : done ++ text = name.toList) :
    Leads k (InName done) (InName name.toList) text 0 := by
  induction text generalizing done with
  | nil =>
    rw [List.append_nil] at hsplit
    rw [hsplit]
    exact leads_nil
  | cons c text ih =>
    have hdone : done <:+: name.toList := ⟨[], c :: text, hsplit⟩
    have hrest : done ++ [c] ++ text = name.toList := by
      rw [← hsplit, List.append_assoc]
      rfl
    have hfirst : Leads k (InName done) (InName (done ++ [c])) [c] 0 :=
      leads_one fun _ _ hneat hs hnext => .inr (step_inName hk hname hdone hneat hs hnext)
    exact hfirst.append (ih hrest)

theorem leads_open (hk : 0 < rank k.toList) : Leads k (Resting k) (InName []) ['"'] 0 := by
  apply leads_one
  intro s s' hneat hrest hnext
  refine .inr ⟨?_, (step_resting hk hneat hrest (by decide) hnext).2⟩
  obtain ⟨tokens, mode⟩ := s
  cases mode with
  | slash word => cases hnext
  | escaped raw => exact hrest.elim
  | plain word =>
    obtain rfl := Option.some.inj hnext
    exact List.nil_suffix
  | _ =>
    obtain rfl := Option.some.inj hnext
    trivial

theorem leads_close {name : String} (hk : 0 < rank k.toList) (hname : Outranks k name) :
    Leads k (InName name.toList) (Resting k) ['"'] 0 := by
  apply leads_one
  intro s s' hneat hs hnext
  right
  by_cases hout : isOutside s.mode = true
  · exact step_resting hk hneat (resting_of_outside hout) (by decide) hnext
  · obtain ⟨tokens, mode⟩ := s
    cases mode with
    | string raw =>
      have hraw : raw <:+ name.toList := hs
      have hunread := hname.unread hk hraw.isInfix hneat.2
      obtain rfl := Option.some.inj hnext
      exact ⟨trivial, Nat.le_of_eq (gained_unread hunread)⟩
    | escaped raw =>
      have hraw : raw <:+ name.toList := hs
      obtain rfl := step_escaped hnext
      exact ⟨hname.poor hraw.isInfix, Nat.le_refl _⟩
    | _ => exact absurd rfl hout

/-- A name that is written as it is, and the colon behind it. -/
theorem leads_name {name : String} (hk : 0 < rank k.toList) (hname : Outranks k name) :
    Leads k (Resting k) (BeforeValue k) ('"' :: name.toList ++ "\": ".toList) 0 := by
  have hinside := @leads_inside_name k name.toList name hk hname [] rfl
  have hname := ((leads_open hk).append hinside).append (leads_close hk hname)
  have hcolon := (hname.append (leads_colon hk)).append (leads_space hk)
  have htext : '"' :: name.toList ++ "\": ".toList =
      ['"'] ++ name.toList ++ ['"'] ++ [':'] ++ [' '] := by simp
  rw [htext]
  exact hcolon

end Gaining

/-! ## Lines -/

section Lines

variable {k : String} {text : List Char}

theorem atLineStart_resting {s : Lexer} (h : AtLineStart s) : Resting k s := by
  rcases h with hplain | ⟨word, hblock⟩
  · exact resting_of_outside (hplain ▸ rfl)
  · exact resting_of_outside (hblock ▸ rfl)

theorem leads_lineEnd (hk : 0 < rank k.toList) : Leads k (Resting k) AtLineStart ['\n'] 0 := by
  apply leads_one
  intro s s' hneat hrest hnext
  have hgained := (step_resting hk hneat hrest (by decide) hnext).2
  exact (step_lineEnd hnext).imp .inl fun hstart => ⟨hstart, hgained⟩

theorem leads_closed (h : Closed .nothing text []) (hstar : ∀ c ∈ text, c ≠ '*') :
    Leads k AtLineStart AtLineStart text 0 := by
  intro s s' _ hstart hrun
  rw [run_closed h hstar hstart] at hrun
  obtain rfl := Option.some.inj hrun
  exact .inr ⟨hstart, Nat.le_refl _⟩

end Lines

end Climon.Lib.JsonGain
