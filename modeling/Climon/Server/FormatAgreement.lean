import Climon.Server.SessionEdit

namespace Climon.Server.FormatAgreement

open Climon.Lib.JavaScript Climon.Lib.JavaScript.JsValue Climon.Lib.JsonAgreement
  Climon.Lib.JsonDocument Climon.Lib.JsonSchema Climon.Lib.Utf16 Climon.Proto.Meta
  Climon.Server.SessionEdit Climon.Store.Format

/-!
# One metadata format

The two stores read each other's files. A dashboard edit is a list of typed edits of the metadata,
except that its texts can hold lone surrogates, which the strict decoder rejects.
-/

/-! ## Typed edits -/

inductive Edit where
  | name (s : String)
  | priority (n : UInt16)
  | color (c : Option AnsiColor)
  | theme (t : Option String)
  | status (s : SessionStatus)
  | priorityReason (r : PriorityReason)
  | userPaused (b : Bool)
  | clearMatchedAt
  | clearReason
  | updatedAt (s : String)

namespace Edit

def change : Edit → Change
  | name s => ("name", some (text s))
  | priority n => ("priority", some (.number (.finite (n.toNat : Int))))
  | color c => ("color", some ((c.map fun c => text c.name).getD .null))
  | theme t => ("theme", t.map text)
  | status s => ("status", some (text s.name))
  | priorityReason r => ("priorityReason", some (text r.name))
  | userPaused b => ("userPaused", some (.bool b))
  | clearMatchedAt => ("attentionMatchedAt", none)
  | clearReason => ("attentionReason", none)
  | updatedAt s => ("updatedAt", some (text s))

def apply (m : SessionMeta) : Edit → SessionMeta
  | name s => { m with name := some s }
  | priority n => { m with priority := some n }
  | color c => { m with color := some c }
  | theme t => { m with theme := t }
  | status s => { m with status := s }
  | priorityReason r => { m with priorityReason := r }
  | userPaused b => { m with userPaused := some b }
  | clearMatchedAt => { m with attentionMatchedAt := none }
  | clearReason => { m with attentionReason := none }
  | updatedAt s => { m with updatedAt := s }

end Edit

theorem nodup_metaKeys : metaSchema.keys.Nodup := by decide

/-- An edit changes no other field. -/
theorem shows_others (m : SessionMeta) (e : Edit) : ∀ field ∈ metaSchema,
    field.key ≠ e.change.1 → ∀ props, field.shows props m → field.shows props (e.apply m) := by
  intro field hfield hkey props hshows
  simp only [metaSchema, List.mem_cons, List.not_mem_nil, or_false] at hfield
  cases e <;> rcases hfield with rfl | rfl | rfl | rfl | rfl | rfl | rfl | rfl | rfl | rfl | rfl |
    rfl | rfl | rfl | rfl | rfl | rfl | rfl | rfl | rfl | rfl | rfl | rfl | rfl | rfl | rfl | rfl |
    rfl | rfl | rfl
  all_goals first
    | exact hshows
    | exact absurd rfl hkey

theorem shows_change {props : Props} {m : SessionMeta} (h : metaSchema.Shows props m) (e : Edit) :
    metaSchema.Shows (props.assign e.change.1 e.change.2) (e.apply m) := by
  have hassign (field : RecordField SessionMeta) (hfield : field ∈ metaSchema)
      (hkey : field.key = e.change.1)
      (hself : field.shows (props.assign field.key e.change.2) (e.apply m)) :
      metaSchema.Shows (props.assign e.change.1 e.change.2) (e.apply m) := by
    rw [← hkey]
    exact h.assign nodup_metaKeys field hfield hself (hkey ▸ shows_others m e)
  cases e with
  | name s =>
    refine hassign (.optional "name" .text (·.name)) (by simp [metaSchema]) rfl ?_
    exact ⟨_, get?_assign_self _ _ _, rfl⟩
  | priority n =>
    refine hassign (.optional "priority" .uint16 (·.priority)) (by simp [metaSchema]) rfl ?_
    exact ⟨_, get?_assign_self _ _ _, rfl⟩
  | color c =>
    refine hassign (.doubleOption "color" color (·.color)) (by simp [metaSchema]) rfl ?_
    cases c with
    | none => exact get?_assign_self _ _ _
    | some c => exact ⟨_, get?_assign_self _ _ _, rfl⟩
  | theme t =>
    refine hassign (.optional "theme" .text (·.theme)) (by simp [metaSchema]) rfl ?_
    cases t with
    | none => exact .inl (get?_assign_self _ _ _)
    | some t => exact ⟨_, get?_assign_self _ _ _, rfl⟩
  | status s =>
    refine hassign (.required "status" status (·.status)) (by simp [metaSchema]) rfl ?_
    exact ⟨_, get?_assign_self _ _ _, rfl⟩
  | priorityReason r =>
    refine hassign (.required "priorityReason" priorityReason (·.priorityReason))
      (by simp [metaSchema]) rfl ?_
    exact ⟨_, get?_assign_self _ _ _, rfl⟩
  | userPaused b =>
    refine hassign (.optional "userPaused" .bool (·.userPaused)) (by simp [metaSchema]) rfl ?_
    exact ⟨_, get?_assign_self _ _ _, rfl⟩
  | clearMatchedAt =>
    refine hassign (.optional "attentionMatchedAt" .text (·.attentionMatchedAt))
      (by simp [metaSchema]) rfl ?_
    exact .inl (get?_assign_self _ _ _)
  | clearReason =>
    refine hassign (.optional "attentionReason" .text (·.attentionReason))
      (by simp [metaSchema]) rfl ?_
    exact .inl (get?_assign_self _ _ _)
  | updatedAt s =>
    refine hassign (.required "updatedAt" .text (·.updatedAt)) (by simp [metaSchema]) rfl ?_
    exact ⟨_, get?_assign_self _ _ _, rfl⟩

def applyAll (m : SessionMeta) (edits : List Edit) : SessionMeta :=
  edits.foldl (fun m e => e.apply m) m

theorem shows_spread {props : Props} {m : SessionMeta} (h : metaSchema.Shows props m)
    (edits : List Edit) :
    metaSchema.Shows (props.spread (edits.map Edit.change)) (applyAll m edits) := by
  induction edits generalizing props m with
  | nil => exact h
  | cons e edits ih => exact ih (shows_change h e)

theorem clean_spread {props : Props} (h : Clean props) (edits : List Edit) :
    Clean (props.spread (edits.map Edit.change)) := h.spread _

/-! ## The overlay -/

theorem isOneOf_status (s : SessionStatus) :
    isOneOf userPausedOverlayStatuses (some (text s.name)) =
      Climon.Store.Meta.isUserPausedOverlayStatus s := by
  cases s <;> decide

theorem any_truthy {props : Props} {o : Option Bool}
    (h : Optional isBool props "userPaused" o) :
    (props.get? "userPaused").any truthy = decide (o = some true) := by
  match o with
  | none => rcases h with hget | hget <;> rw [hget] <;> rfl
  | some b =>
    obtain ⟨v, hget, rfl⟩ := h
    rw [hget]
    cases b <;> rfl

/-- Both sides show the same over the same file. -/
theorem shows_overlay {props : Props} {m : SessionMeta} (h : metaSchema.Shows props m) :
    metaSchema.Shows (applyUserPausedOverlay props) (Climon.Store.Meta.applyUserPausedOverlay m) := by
  have hpaused : Optional isBool props "userPaused" m.userPaused :=
    h (.optional "userPaused" .bool (·.userPaused)) (by simp [metaSchema])
  have hstatus : Required status.shows props "status" m.status :=
    h (.required "status" status (·.status)) (by simp [metaSchema])
  obtain ⟨v, hget, rfl⟩ := hstatus
  have hone : isOneOf userPausedOverlayStatuses (props.get? "status") =
      Climon.Store.Meta.isUserPausedOverlayStatus m.status := by
    rw [hget]
    exact isOneOf_status m.status
  unfold applyUserPausedOverlay Climon.Store.Meta.applyUserPausedOverlay
  rw [any_truthy hpaused, hone]
  by_cases hkeep : m.userPaused ≠ some true ∨
      ¬ Climon.Store.Meta.isUserPausedOverlayStatus m.status = true
  · rw [if_pos hkeep, if_pos (by simpa using hkeep)]
    exact h
  · rw [if_neg hkeep, if_neg (by simpa using hkeep)]
    exact shows_spread h [.status .paused, .priorityReason .running, .clearMatchedAt, .clearReason]

/-! ## Accepted bodies -/

/-- The texts of the edit, where it keeps them, have no lone surrogate. -/
def TextsWellFormed (body : JsValue) : Prop :=
  (∀ name, givenName body = .ok (some name) → (decode name).isSome = true) ∧
    ∀ theme, givenTheme body = .ok (some theme) → trim theme ≠ [] → (decode theme).isSome = true

theorem exists_encode {units : List UInt16} (h : (decode units).isSome = true) :
    ∃ s, units = encode s := by
  obtain ⟨s, hs⟩ := Option.isSome_iff_exists.mp h
  exact ⟨s, (encode_of_decode hs).symm⟩

theorem exists_of_bind {ε α β : Type} {x : Except ε α} {f : α → Except ε β} {b : β}
    (h : (x >>= f) = .ok b) : ∃ a, x = .ok a ∧ f a = .ok b := by
  cases x with
  | error e => cases h
  | ok a => exact ⟨a, rfl, h⟩

theorem nameChange_edits {body : JsValue} {changes : List Change}
    (h : nameChange body = .ok changes)
    (hname : ∀ name, givenName body = .ok (some name) → (decode name).isSome = true) :
    ∃ edits : List Edit, changes = edits.map Edit.change := by
  obtain ⟨given, hgiven, h⟩ := exists_of_bind h
  cases given with
  | none =>
    cases h
    exact ⟨[], rfl⟩
  | some name =>
    cases h
    obtain ⟨s, rfl⟩ := exists_encode (hname name hgiven)
    exact ⟨[.name s], rfl⟩

theorem parsePriority_ok {value : JsValue} {n : Double} (h : parsePriority value = .ok n) :
    ∃ p : UInt16, n = .finite (p.toNat : Int) := by
  obtain ⟨m, -, h⟩ := exists_of_bind h
  obtain ⟨shown, -, h⟩ := exists_of_bind h
  split at h
  next q _ =>
    split at h
    next => cases h
    next hden =>
      split at h
      next => cases h
      next hrange =>
        cases h
        have hq : q = q.num := (Rat.den_eq_one_iff q).mp (not_not.mp hden) |>.symm
        rw [not_or, not_lt, not_lt] at hrange
        have hlow : 0 ≤ q.num := Rat.num_nonneg.mpr hrange.1
        have hhigh : q.num ≤ 1000 := by
          have hle := hrange.2
          rw [hq] at hle
          exact_mod_cast hle
        refine ⟨UInt16.ofNat q.num.toNat, ?_⟩
        rw [UInt16.toNat_ofNat_of_lt' (by simp only [UInt16.size]; omega), Int.toNat_of_nonneg hlow]
        exact congrArg Double.finite hq
  next => cases h

theorem priorityChange_edits {body : JsValue} {changes : List Change}
    (h : priorityChange body = .ok changes) :
    ∃ edits : List Edit, changes = edits.map Edit.change := by
  obtain ⟨given, -, h⟩ := exists_of_bind h
  cases given with
  | none =>
    cases h
    exact ⟨[], rfl⟩
  | some value =>
    obtain ⟨n, hn, h⟩ := exists_of_bind h
    obtain ⟨p, rfl⟩ := parsePriority_ok hn
    cases h
    exact ⟨[.priority p], rfl⟩

theorem parseColor_ok {units : List UInt16} {v : JsValue} (h : parseColor units = .ok v) :
    ∃ c : Option AnsiColor, v = (c.map fun c => text c.name).getD .null := by
  unfold parseColor at h
  dsimp only at h
  split at h
  next =>
    cases h
    exact ⟨none, rfl⟩
  next =>
    split at h
    next hknown =>
      cases h
      obtain ⟨name, hname, heq⟩ := List.any_eq_true.mp hknown
      have hcolors : ansiColors = AnsiColor.all.map AnsiColor.name := rfl
      rw [hcolors] at hname
      obtain ⟨c, -, rfl⟩ := List.mem_map.mp hname
      exact ⟨some c, congrArg JsValue.string (beq_iff_eq.mp heq)⟩
    next => cases h

theorem colorChange_edits {body : JsValue} {changes : List Change}
    (h : colorChange body = .ok changes) :
    ∃ edits : List Edit, changes = edits.map Edit.change := by
  obtain ⟨given, -, h⟩ := exists_of_bind h
  split at h
  next =>
    cases h
    exact ⟨[], rfl⟩
  next =>
    cases h
    exact ⟨[.color none], rfl⟩
  next =>
    obtain ⟨units, -, h⟩ := exists_of_bind h
    obtain ⟨v, hv, h⟩ := exists_of_bind h
    obtain ⟨c, rfl⟩ := parseColor_ok hv
    cases h
    exact ⟨[.color c], rfl⟩

theorem themeChange_edits {body : JsValue} {changes : List Change}
    (h : themeChange body = .ok changes)
    (htheme : ∀ theme, givenTheme body = .ok (some theme) → trim theme ≠ [] →
      (decode theme).isSome = true) :
    ∃ edits : List Edit, changes = edits.map Edit.change := by
  obtain ⟨given, hgiven, h⟩ := exists_of_bind h
  cases given with
  | none =>
    cases h
    exact ⟨[], rfl⟩
  | some theme =>
    cases h
    by_cases hblank : trim theme = []
    · rw [if_pos hblank]
      exact ⟨[.theme none], rfl⟩
    · rw [if_neg hblank]
      obtain ⟨s, rfl⟩ := exists_encode (htheme theme hgiven hblank)
      exact ⟨[.theme (some s)], rfl⟩

theorem parseBrowserStatusPatch_ok {value : JsValue} {requested : String}
    (h : parseBrowserStatusPatch value = .ok requested) :
    requested = "paused" ∨ requested = "running" := by
  unfold parseBrowserStatusPatch at h
  split at h
  · exact .inl (Except.ok.inj h).symm
  · split at h
    · exact .inr (Except.ok.inj h).symm
    · cases h

theorem statusChanges_edits {body : JsValue} {requested : Option String}
    (h : requestedStatus body = .ok requested) :
    ∃ edits : List Edit, statusChanges requested = edits.map Edit.change := by
  obtain ⟨given, -, h⟩ := exists_of_bind h
  cases given with
  | none =>
    cases h
    exact ⟨[], rfl⟩
  | some value =>
    obtain ⟨status, hstatus, h⟩ := exists_of_bind h
    cases h
    rcases parseBrowserStatusPatch_ok hstatus with rfl | rfl
    · exact ⟨[.status .paused, .priorityReason .running, .userPaused true], rfl⟩
    · exact ⟨[.status .running, .priorityReason .running, .userPaused false, .clearMatchedAt,
        .clearReason], rfl⟩

/-! ## Written files -/

/-- The written object decodes, to the values reported. -/
def Agrees (updated : Props) : Prop :=
  ∃ m, decodeMeta (toFields updated) = some m ∧ metaSchema.Shows updated m

theorem agrees_of_edits {file : Fields} {m : SessionMeta} (h : decodeMeta file = some m)
    (edits : List Edit) : Agrees ((readSessionMeta file).spread (edits.map Edit.change)) := by
  have hdecodes := (decodeMeta_eq_some_iff file m).mp h
  have hshows := shows_spread (shows_overlay hdecodes.shows) edits
  have hclean : Clean (readSessionMeta file) := by
    unfold readSessionMeta applyUserPausedOverlay
    split
    · exact clean_ofFields hdecodes.wellFormed
    · exact (clean_ofFields hdecodes.wellFormed).spread _
  exact ⟨_, (decodeMeta_eq_some_iff _ _).mpr (hshows.decodes (clean_spread hclean edits)), hshows⟩

theorem disconnectSession_agrees {file : Fields} {m : SessionMeta} (h : decodeMeta file = some m)
    (now : String) : ∃ updated, disconnectSession file now = .ok updated ∧ Agrees updated :=
  ⟨_, rfl, agrees_of_edits h
    [.status .disconnected, .priorityReason .disconnected, .updatedAt now]⟩

/-- What an accepted body adds to the session as it was read. -/
theorem editSession_ok {file : Fields} {body : JsValue} {now : String} {updated : Props}
    (h : editSession file body now = .ok updated) :
    ∃ name priority color theme requested, nameChange body = .ok name ∧
      priorityChange body = .ok priority ∧ colorChange body = .ok color ∧
      themeChange body = .ok theme ∧ requestedStatus body = .ok requested ∧
      updated = (readSessionMeta file).spread
        (name ++ priority ++ color ++ theme ++ statusChanges requested ++
          [("updatedAt", some (text now))]) := by
  obtain ⟨_, hpatch, h⟩ := exists_of_bind h
  obtain ⟨name, hname, hpatch⟩ := exists_of_bind hpatch
  obtain ⟨priority, hpriority, hpatch⟩ := exists_of_bind hpatch
  obtain ⟨color, hcolor, hpatch⟩ := exists_of_bind hpatch
  obtain ⟨theme, htheme, hpatch⟩ := exists_of_bind hpatch
  obtain ⟨requested, hrequested, hpatch⟩ := exists_of_bind hpatch
  cases hpatch
  obtain ⟨-, -, h⟩ := exists_of_bind h
  exact ⟨name, priority, color, theme, requested, hname, hpriority, hcolor, htheme, hrequested,
    (Except.ok.inj h).symm⟩

theorem editSession_agrees {file : Fields} {m : SessionMeta} (h : decodeMeta file = some m)
    {body : JsValue} {now : String} {updated : Props}
    (hedit : editSession file body now = .ok updated) (htexts : TextsWellFormed body) :
    Agrees updated := by
  obtain ⟨name, priority, color, theme, requested, hname, hpriority, hcolor, htheme, hrequested,
    rfl⟩ := editSession_ok hedit
  obtain ⟨e1, rfl⟩ := nameChange_edits hname htexts.1
  obtain ⟨e2, rfl⟩ := priorityChange_edits hpriority
  obtain ⟨e3, rfl⟩ := colorChange_edits hcolor
  obtain ⟨e4, rfl⟩ := themeChange_edits htheme htexts.2
  obtain ⟨e5, he5⟩ := statusChanges_edits hrequested
  have hagrees := agrees_of_edits h (e1 ++ e2 ++ e3 ++ e4 ++ e5 ++ [.updatedAt now])
  rw [List.map_append, List.map_append, List.map_append, List.map_append, List.map_append] at hagrees
  rw [he5]
  exact hagrees

/-! ## Lone surrogates -/

/-- A text that does not decode makes the whole file unreadable. -/
theorem decodeMeta_of_text {updated : Props} (key : String) (get : SessionMeta → Option String)
    (hfield : RecordField.optional key .text get ∈ metaSchema) {units : List UInt16}
    (hget : updated.get? key = some (.string units)) (hunits : ¬ (decode units).isSome = true) :
    decodeMeta (toFields updated) = none := by
  rw [Option.eq_none_iff_forall_ne_some]
  intro m hm
  have hdecodes : Fields.optional Doc.asString (toFields updated) key = some (get m) :=
    ((decodeMeta_eq_some_iff _ m).mp hm).fields _ hfield
  have hnone : decode units = none := by simpa using hunits
  rw [Fields.optional, get?_toFields, hget, Option.map_some] at hdecodes
  change (decode units).map some = some (get m) at hdecodes
  rw [hnone] at hdecodes
  cases hdecodes

theorem not_agrees {updated : Props} (h : decodeMeta (toFields updated) = none) :
    ¬ Agrees updated := by
  rintro ⟨m, hm, -⟩
  rw [h] at hm
  cases hm

theorem priorityChange_key {body : JsValue} {changes : List Change}
    (h : priorityChange body = .ok changes) : ∀ change ∈ changes, change.1 = "priority" := by
  obtain ⟨given, -, h⟩ := exists_of_bind h
  cases given with
  | none =>
    cases h
    exact nofun
  | some value =>
    obtain ⟨n, -, h⟩ := exists_of_bind h
    cases h
    simp

theorem colorChange_key {body : JsValue} {changes : List Change}
    (h : colorChange body = .ok changes) : ∀ change ∈ changes, change.1 = "color" := by
  obtain ⟨given, -, h⟩ := exists_of_bind h
  split at h
  next =>
    cases h
    exact nofun
  next =>
    cases h
    simp
  next =>
    obtain ⟨units, -, h⟩ := exists_of_bind h
    obtain ⟨v, -, h⟩ := exists_of_bind h
    cases h
    simp

theorem themeChange_key {body : JsValue} {changes : List Change}
    (h : themeChange body = .ok changes) : ∀ change ∈ changes, change.1 = "theme" := by
  obtain ⟨given, -, h⟩ := exists_of_bind h
  cases given with
  | none =>
    cases h
    exact nofun
  | some theme =>
    cases h
    simp

theorem statusChanges_key (requested : Option String) : ∀ change ∈ statusChanges requested,
    change.1 ≠ "name" ∧ change.1 ≠ "theme" := by
  cases requested with
  | none => exact nofun
  | some requested =>
    simp only [statusChanges]
    split <;> simp

theorem spread_append (props : Props) (front back : List Change) :
    props.spread (front ++ back) = (props.spread front).spread back := List.foldl_append

theorem texts_of_agrees {file : Fields} {body : JsValue} {now : String} {updated : Props}
    (hedit : editSession file body now = .ok updated) (hagrees : Agrees updated) :
    TextsWellFormed body := by
  obtain ⟨name, priority, color, theme, requested, hname, hpriority, hcolor, htheme, hrequested,
    rfl⟩ := editSession_ok hedit
  have hstatus := statusChanges_key requested
  refine ⟨fun units hunits => ?_, fun units hunits hblank => ?_⟩
  · by_contra hlone
    refine not_agrees (decodeMeta_of_text "name" (·.name) (by simp [metaSchema]) ?_ hlone) hagrees
    obtain ⟨given, hgiven, hname⟩ := exists_of_bind hname
    cases hunits.symm.trans hgiven
    cases hname
    rw [List.append_assoc, List.append_assoc, List.append_assoc, List.append_assoc,
      List.singleton_append]
    refine get?_spread_cons_self _ _ fun change hchange => ?_
    simp only [List.mem_append, List.mem_singleton] at hchange
    rcases hchange with hchange | hchange | hchange | hchange | rfl
    · rw [priorityChange_key hpriority change hchange]
      decide
    · rw [colorChange_key hcolor change hchange]
      decide
    · rw [themeChange_key htheme change hchange]
      decide
    · exact (hstatus change hchange).1.symm
    · exact (by decide : "name" ≠ "updatedAt")
  · by_contra hlone
    refine not_agrees (decodeMeta_of_text "theme" (·.theme) (by simp [metaSchema]) ?_ hlone)
      hagrees
    obtain ⟨given, hgiven, htheme⟩ := exists_of_bind htheme
    cases hunits.symm.trans hgiven
    cases htheme
    rw [if_neg hblank, List.append_assoc, List.append_assoc, spread_append,
      List.singleton_append]
    refine get?_spread_cons_self _ _ fun change hchange => ?_
    simp only [List.mem_append, List.mem_singleton] at hchange
    rcases hchange with hchange | rfl
    · exact (hstatus change hchange).2.symm
    · exact (by decide : "theme" ≠ "updatedAt")

/-- Every file of the Rust store is read back by the server with the same values, and by both with
the same overlay; what the server writes is read back with the values it reports after a cleanup,
and after a dashboard edit exactly when the texts of the edit have no lone surrogate. -/
theorem edits_agree_iff (m : SessionMeta) :
    (decodeMeta (writeMeta m) = some m ∧ metaSchema.Shows (ofFields (writeMeta m)) m) ∧
    ∀ file : Fields, decodeMeta file = some m →
      metaSchema.Shows (ofFields file) m ∧
      metaSchema.Shows (readSessionMeta file) (Climon.Store.Meta.applyUserPausedOverlay m) ∧
      (∀ now, ∃ updated, disconnectSession file now = .ok updated ∧ Agrees updated) ∧
      ∀ body now updated, editSession file body now = .ok updated →
        (Agrees updated ↔ TextsWellFormed body) := by
  refine ⟨?_, fun file hm => ?_⟩
  · have hdecodes : metaSchema.Decodes (writeMeta m) m := decodes_write nodup_metaKeys
    exact ⟨(decodeMeta_eq_some_iff _ m).mpr hdecodes, hdecodes.shows⟩
  · have hshows := ((decodeMeta_eq_some_iff file m).mp hm).shows
    exact ⟨hshows, shows_overlay hshows, disconnectSession_agrees hm, fun body now updated hedit =>
      ⟨texts_of_agrees hedit, editSession_agrees hm hedit⟩⟩

/-- A plain session, as its host writes it first. -/
def plainMeta : SessionMeta where
  id := "a"
  command := ["sh"]
  displayCommand := "sh"
  cwd := "/"
  status := .running
  priorityReason := .running
  daemonPid := none
  cols := 80
  rows := 24
  headless := none
  socketPath := "tcp://127.0.0.1:7"
  clientVersion := none
  createdAt := "t"
  updatedAt := "t"
  lastActivityAt := "t"
  attentionMatchedAt := none
  attentionReason := none
  completedAt := none
  exitCode := none
  error := none
  origin := none
  clientLabel := none
  name := none
  priority := none
  color := none
  theme := none
  userPaused := none
  terminalTitle := none
  attentionSnippet := none
  progress := none

theorem decode_plainMeta : decodeMeta (writeMeta plainMeta) = some plainMeta :=
  (decodeMeta_eq_some_iff _ _).mpr (decodes_write nodup_metaKeys)

theorem editSession_name (file : Fields) (units : List UInt16) (now : String) :
    editSession file (.object [(encode "name", .string units)]) now =
      .ok ((readSessionMeta file).spread
        [("name", some (.string units)), ("updatedAt", some (text now))]) := by
  have hname : property (.object [(encode "name", .string units)]) "name" =
      .ok (some (.string units)) := by
    simp only [property, Props.get?, List.lookup_cons_self]
  have hother {key : String} (h : key ≠ "name") :
      property (.object [(encode "name", .string units)]) key = .ok none := by
    have hunits : (encode key == encode "name") = false :=
      beq_eq_false_iff_ne.mpr fun heq => h (encode_injective heq)
    simp only [property, Props.get?, List.lookup_cons, hunits, List.lookup_nil]
  unfold editSession sessionPatch nameChange givenName priorityChange colorChange themeChange
    givenTheme
    requestedStatus
  rw [hname, hother (by decide : "priority" ≠ "name"), hother (by decide : "color" ≠ "name"),
    hother (by decide : "theme" ≠ "name"), hother (by decide : "status" ≠ "name")]
  rfl

/-- A session is named by one emoji. -/
theorem edits_agree_iff_emoji :
    let body : JsValue := .object [(encode "name", .string [0xD83D, 0xDE00])]
    ∃ updated, editSession (writeMeta plainMeta) body "u" = .ok updated ∧ Agrees updated := by
  intro body
  have hedit := editSession_name (writeMeta plainMeta) [0xD83D, 0xDE00] "u"
  have hagrees := ((edits_agree_iff plainMeta).2 _ decode_plainMeta).2.2.2 body "u" _ hedit
  refine ⟨_, hedit, hagrees.mpr ⟨fun name hname => ?_, fun theme htheme => ?_⟩⟩
  · cases hname
    decide
  · cases htheme

/-- A session is named by half of one: the edit is accepted and reported, and its file is no longer
readable by the session's own host. -/
theorem name_lone_surrogate :
    let body : JsValue := .object [(encode "name", .string [0xD83D])]
    decodeMeta (writeMeta plainMeta) = some plainMeta ∧
      ∃ updated, editSession (writeMeta plainMeta) body "u" = .ok updated ∧
        updated.get? "name" = some (.string [0xD83D]) ∧ decodeMeta (toFields updated) = none := by
  have hget : Props.get? ((readSessionMeta (writeMeta plainMeta)).spread
      [("name", some (.string [0xD83D])), ("updatedAt", some (text "u"))]) "name" =
      some (.string [0xD83D]) := by
    refine get?_spread_cons_self _ _ fun change hchange => ?_
    rw [List.mem_singleton.mp hchange]
    exact (by decide : "name" ≠ "updatedAt")
  exact ⟨decode_plainMeta, _, editSession_name _ _ _, hget,
    decodeMeta_of_text "name" (·.name) (by simp [metaSchema]) hget (by decide)⟩

end Climon.Server.FormatAgreement
