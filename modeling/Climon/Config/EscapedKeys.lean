import Climon.Config.RoundTrip
import Climon.Lib.JsonOccurrences
import Mathlib.Data.List.MinMax
import Mathlib.Data.Prod.Lex

namespace Climon.Config.EscapedKeys

open Climon.Config.Rendering Climon.Config.RoundTrip Climon.Config.Settings
open Climon.Lib.JsonBounds Climon.Lib.JsonCost Climon.Lib.JsonGain Climon.Lib.JsonOccurrences
  Climon.Lib.JsonPrint Climon.Lib.JsonRank Climon.Lib.JsonText Climon.Lib.JsonValue

/-!
# Keys that need an escape

A rendering holds its keys as they are.  Of those that need an escape, the one that needs most is not
read from it as often as it is there.
-/

mutual

/-- How often the string is a key inside an array, or stands there. -/
def printedOccurrences (k : String) : Json → Nat
  | .object fields => printedFields k fields
  | json => occurrences k json

def printedFields (k : String) : List (String × Json) → Nat
  | [] => 0
  | (_, json) :: fields => printedOccurrences k json + printedFields k fields

end

section Printed

variable {k : String} {json : Json} {fields : List (String × Json)}

theorem printedFields_eq :
    printedFields k fields = (fields.map fun field => printedOccurrences k field.2).sum := by
  induction fields with
  | nil => rfl
  | cons field fields ih => rw [printedFields, ih, List.map_cons, List.sum_cons]

theorem printed_le : printedOccurrences k json ≤ occurrences k json := by
  induction json using Json.induction with
  | object fields ih =>
    rw [printedOccurrences, occurrences, printedFields_eq, occurrencesFields_eq]
    apply List.sum_le_sum
    exact fun field hfield => (ih field hfield).trans (Nat.le_add_left _ _)
  | _ => exact Nat.le_refl _

theorem printed_lt (h : k ∈ objectKeys json) : printedOccurrences k json < occurrences k json := by
  induction json using Json.induction with
  | object fields ih =>
    rw [printedOccurrences, occurrences, printedFields_eq, occurrencesFields_eq]
    apply List.sum_lt_sum
    · exact fun field _ => printed_le.trans (Nat.le_add_left _ _)
    · obtain ⟨field, hfield, hmem⟩ := mem_fieldKeys.mp h
      refine ⟨field, hfield, ?_⟩
      cases hmem with
      | inl heq =>
        have hle := @printed_le k field.2
        rw [if_pos heq.symm]
        omega
      | inr hin =>
        have hlt := ih field hfield hin
        omega
  | _ => exact absurd h List.not_mem_nil

end Printed

theorem rank_plain {key : String} : rank key.toList = 0 ↔ Plain key := rank_eq_zero

/-- Of keys that need an escape, one outranks all. -/
theorem exists_outranks {keys : List String} (h : ¬ ∀ key ∈ keys, Plain key) :
    ∃ k ∈ keys, 0 < rank k.toList ∧ ∀ key ∈ keys, Outranks k key := by
  push Not at h
  obtain ⟨bad, hbad, hplain⟩ := h
  rw [← rank_plain] at hplain
  let measure := fun key : String => toLex (rank key.toList, width key.toList)
  cases hmax : keys.argmax measure with
  | none =>
    rw [List.argmax_eq_none] at hmax
    rw [hmax] at hbad
    cases hbad
  | some k =>
    have houtranks : ∀ key ∈ keys, Outranks k key := by
      intro key hkey
      have hle := List.le_of_mem_argmax hkey hmax
      rwa [Prod.Lex.toLex_le_toLex] at hle
    refine ⟨k, List.argmax_mem hmax, ?_, houtranks⟩
    rcases houtranks bad hbad with hrank | ⟨hrank, -⟩
    · omega
    · omega

/-! ## What a rendering gives -/

section Giving

variable {settings : List ConfigSetting} {floatText : Rat → List Char} {k pre : String}
  {indent n : Nat} {entry : Entry} {entries : List Entry} {comma : List Char} {json : Json}
  {fields : List (String × Json)} {count : Entry → Nat}

theorem leads_spaces (hk : 0 < rank k.toList) :
    Leads k (Resting k) (Resting k) (spaces indent) 0 := by
  apply leads_plain hk
  intro c hc
  rw [List.eq_of_mem_replicate hc]
  decide

theorem leads_entryLine (hk : 0 < rank k.toList) (hname : Outranks k entry.1.1)
    (hcomma : ∀ c ∈ comma, c ≠ '\\') (h : Leads k (BeforeValue k) (Resting k) entry.2 n) :
    Leads k (Resting k) (Resting k) (entryLine indent entry comma) n := by
  have hindent : Leads k (Resting k) (Resting k) (spaces indent) 0 := leads_spaces hk
  have hline := ((hindent.append (leads_name hk hname)).append h).append (leads_plain hk hcomma)
  have htext : entryLine indent entry comma = spaces indent ++
      ('"' :: entry.1.1.toList ++ "\": ".toList) ++ entry.2 ++ comma := by
    simp [entryLine]
  rw [htext]
  simpa using hline

theorem leads_comment (hsettings : OneLines settings) {key : String} :
    Leads k AtLineStart AtLineStart
      ((commentLines settings pre indent key).flatMap (· ++ ['\n'])) 0 := by
  apply leads_closed (closed_comment hsettings)
  exact comment_noStar hsettings

theorem leads_bodyText (hk : 0 < rank k.toList) (hsettings : OneLines settings)
    (hnames : ∀ entry ∈ entries, Outranks k entry.1.1)
    (h : ∀ entry ∈ entries, Leads k (BeforeValue k) (Resting k) entry.2 (count entry)) :
    Leads k AtLineStart AtLineStart (bodyText settings pre indent entries)
      (entries.map count).sum := by
  unfold bodyText
  induction entries with
  | nil => exact leads_nil
  | cons entry entries ih =>
    rw [List.forall_mem_cons] at h hnames
    have hcomment := @leads_comment settings k pre indent hsettings entry.1.1
    have hline (comma : List Char) (hcomma : ∀ c ∈ comma, c ≠ '\\') :
        Leads k AtLineStart AtLineStart (entryLine indent entry comma ++ ['\n']) (count entry) := by
      have hentry := @leads_entryLine k indent _ entry comma hk hnames.1 hcomma h.1
      exact (hentry.append (leads_lineEnd hk)).weaken (fun _ => atLineStart_resting) fun _ => id
    cases entries with
    | nil =>
      have hlast := hcomment.append (hline [] (List.forall_mem_nil _))
      simpa [bodyLines] using hlast
    | cons next entries =>
      have hbody := (hcomment.append (hline [','] (by decide))).append (ih hnames.2 h.2)
      simpa [bodyLines] using hbody

theorem leads_objectText (hk : 0 < rank k.toList) (hsettings : OneLines settings)
    (hnames : ∀ entry ∈ entries, Outranks k entry.1.1)
    (h : ∀ entry ∈ entries, Leads k (BeforeValue k) (Resting k) entry.2 (count entry)) :
    Leads k (Resting k) (Resting k) (objectText settings pre indent entries)
      (entries.map count).sum := by
  have hsort := @sortEntries_perm settings pre entries
  have hbody := @leads_bodyText settings k pre (indent + 1) _ count hk hsettings
    (fun entry hentry => hnames entry (hsort.subset hentry))
    (fun entry hentry => h entry (hsort.subset hentry))
  rw [(hsort.map count).sum_eq] at hbody
  have hopen : Leads k (Resting k) (Resting k) ['\x7b'] 0 := leads_plain hk (by decide)
  have hclose : Leads k (Resting k) (Resting k) ['\x7d'] 0 := leads_plain hk (by decide)
  have hindent : Leads k (Resting k) (Resting k) (spaces indent) 0 := leads_spaces hk
  have hend := (hindent.append hclose).weaken (fun _ => atLineStart_resting) fun _ => id
  have hobject := ((hopen.append (leads_lineEnd hk)).append hbody).append hend
  rw [objectText_eq]
  simpa using hobject

theorem leads_renderLeafValue (hk : 0 < rank k.toList) (h : Numeric floatText json) :
    Leads k (BeforeValue k) (Resting k) (renderLeafValue floatText json) (occurrences k json) := by
  have hprint := leads_value hk (leads_print hk h)
  have hnumber : ∀ text : List Char, isNumber text = true →
      Leads k (BeforeValue k) (Resting k) text 0 := by
    intro text htext
    have hplain : Leads k (Resting k) (Resting k) text 0 := by
      refine leads_plain hk fun c hc => ?_
      rintro rfl
      cases isNumber_chars htext _ hc
    exact hplain.weaken (fun _ => beforeValue_resting) fun _ => id
  cases json with
  | number n =>
    cases n with
    | float q =>
      rw [renderLeafValue]
      split_ifs
      · exact hnumber _ (isNumber_int _)
      · exact hnumber _ (isNumber_repr _)
      · exact hnumber _ (h _ List.mem_cons_self)
    | _ => exact hprint
  | _ => exact hprint

theorem leads_valueText (hk : 0 < rank k.toList) (hsettings : OneLines settings)
    (h : Numeric floatText json) (hnames : ∀ key ∈ objectKeys json, Outranks k key) (path : String)
    (indent : Nat) : Leads k (BeforeValue k) (Resting k) (valueText settings floatText path indent json)
      (printedOccurrences k json) := by
  induction json using Json.induction generalizing path indent with
  | object fields ih =>
    rw [valueText, printedOccurrences, printedFields_eq]
    cases fields with
    | nil =>
      have hempty : Leads k (Resting k) (Resting k) ['\x7b', '\x7d'] 0 := leads_plain hk (by decide)
      exact hempty.weaken (fun _ => beforeValue_resting) fun _ => id
    | cons field fields =>
      have hobject := @leads_objectText settings k path indent
        (fieldEntries settings floatText path (indent + 1) (field :: fields))
        (fun entry => printedOccurrences k entry.1.2) hk hsettings
      rw [fieldEntries_eq, List.map_map] at hobject
      rw [if_neg (by simp), fieldEntries_eq]
      refine (hobject ?_ ?_).weaken (fun _ => beforeValue_resting) fun _ => id
      · rw [List.forall_mem_map]
        exact fun f hf => hnames f.1 (mem_fieldKeys.mpr ⟨f, hf, .inl rfl⟩)
      · intro entry hentry
        obtain ⟨f, hf, rfl⟩ := List.mem_map.mp hentry
        refine ih f hf (fun n hn => h n (mem_numbersFields.mpr ⟨f, hf, hn⟩)) (fun key hkey => ?_) _ _
        exact hnames key (mem_fieldKeys.mpr ⟨f, hf, .inr hkey⟩)
  | _ => exact leads_renderLeafValue hk h

theorem leads_rendering (hk : 0 < rank k.toList) (h : Numeric floatText (.object fields))
    (hnames : ∀ key ∈ fieldKeys fields, Outranks k key) :
    Leads k (Resting k) (Resting k) (renderJsoncConfig floatText (.object fields))
      (printedFields k fields) := by
  have hobject := @leads_objectText configSettings k "" 0
    (fieldEntries configSettings floatText "" 1 fields)
    (fun entry => printedOccurrences k entry.1.2) hk oneLines_configSettings
  rw [fieldEntries_eq, List.map_map] at hobject
  have hfields := hobject (by
    rw [List.forall_mem_map]
    exact fun f hf => hnames f.1 (mem_fieldKeys.mpr ⟨f, hf, .inl rfl⟩)) (by
    intro entry hentry
    obtain ⟨f, hf, rfl⟩ := List.mem_map.mp hentry
    apply leads_valueText hk oneLines_configSettings
    · exact fun n hn => h n (mem_numbersFields.mpr ⟨f, hf, hn⟩)
    · exact fun key hkey => hnames key (mem_fieldKeys.mpr ⟨f, hf, .inr hkey⟩))
  rw [← fieldEntries_eq] at hfields
  have hend : Leads k (Resting k) (Resting k) ['\n'] 0 := leads_plain hk (by decide)
  rw [printedFields_eq]
  exact hfields.append hend

/-- Where the keys are read as often as they are there, none of them needs an escape. -/
theorem plain_of_occurrences {r : Reader} {read : Json} (h : Numeric floatText (.object fields))
    (hread : r.read .nothing (renderJsoncConfig floatText (.object fields)) = some read)
    (hkept : ∀ k, ¬ Plain k → occurrencesFields k fields ≤ occurrences k read) :
    ∀ key ∈ fieldKeys fields, Plain key := by
  by_contra hbad
  obtain ⟨k, hmem, hk, hnames⟩ := exists_outranks hbad
  have hleads := (leads_rendering hk h hnames).weaken (fun _ => atLineStart_resting) fun _ => id
  have hle := occurrences_le_of_read hleads hread
  have hlt : printedFields k fields < occurrencesFields k fields :=
    @printed_lt k (.object fields) hmem
  have hplain : ¬ Plain k := fun hplain => absurd (rank_plain.mpr hplain) (Nat.ne_of_gt hk)
  exact absurd ((hkept k hplain).trans hle) (Nat.not_le.mpr hlt)

end Giving

end Climon.Config.EscapedKeys
