import Climon.Config.Rendering
import Climon.Lib.JsonBounds

namespace Climon.Config.RoundTrip

open Climon.Config.CommentStripping (parseJsoncConfig parseJsoncConfig_iff)
open Climon.Config.Rendering Climon.Config.Settings Climon.Lib Climon.Lib.JsonBounds Climon.Lib.JsonCost
  Climon.Lib.JsonPrint Climon.Lib.JsonText Climon.Lib.JsonValue

/-!
# A config read back from its rendering

An object in a rendering pays for its keys as they are, and its value needs them escaped. Where a
key has an escape the text falls short, whatever the reader makes of it.
-/

/-! ## Values up to their numbers -/

def value : Number → Rat
  | .posInt n => n.toNat
  | .negInt n => n.toInt
  | .float q => q

/-- Numbers are taken by their value: `3.0` is `3`. -/
def normalise : Json → Json := Json.mapNumbers fun n => .float (value n)

mutual

/-- The numbers that are the value of a setting, outside arrays. -/
def leafNumbers : Json → List Number
  | .number n => [n]
  | .object fields => fieldNumbers fields
  | _ => []

def fieldNumbers : List (String × Json) → List Number
  | [] => []
  | (_, other) :: fields => leafNumbers other ++ fieldNumbers fields

end

section Normalising

variable {json other : Json} {items : List Json} {fields : List (String × Json)} {n : Number}

theorem mem_fieldNumbers :
    n ∈ fieldNumbers fields ↔ ∃ field ∈ fields, n ∈ leafNumbers field.2 := by
  induction fields with
  | nil => simp [fieldNumbers]
  | cons field fields ih =>
    obtain ⟨key, other⟩ := field
    simp [fieldNumbers, ih]

theorem nesting_normalise : (normalise json).nesting = json.nesting := Json.nesting_mapNumbers

theorem nesting_reread : (reread json).nesting = json.nesting := by
  induction json using Json.induction with
  | object fields ih =>
    rw [reread, rereadFields_eq, Json.nesting, Json.nesting, Json.nestingFields_map ih]
  | _ => rfl

theorem need_normalise : need (normalise json) = need json := by
  induction json using Json.induction with
  | bool b => cases b <;> rfl
  | array items ih =>
    rw [normalise, Json.mapNumbers, Json.mapItems_eq, need, need, needItems_eq, needItems_eq,
      List.map_map]
    apply congrArg List.sum
    exact List.map_congr_left ih
  | object fields ih =>
    rw [normalise, Json.mapNumbers, Json.mapFields_eq, need, need, needFields_eq, needFields_eq,
      List.map_map]
    apply congrArg List.sum
    apply List.map_congr_left
    intro field hfield
    exact congrArg (cost (escape field.1) + ·) (ih field hfield)
  | _ => rfl

/-- Reading a rendering back normalises the numbers of settings, but for those the casts cut. -/
theorem normalise_reread : normalise (reread json) = normalise json ↔
    ∀ n ∈ leafNumbers json, value (leafNumber n) = value n := by
  induction json using Json.induction with
  | number n => simp [normalise, reread, leafNumbers, Json.mapNumbers]
  | object fields ih =>
    rw [reread, rereadFields_eq, normalise, Json.mapNumbers, Json.mapNumbers, Json.mapFields_eq,
      Json.mapFields_eq, Json.object.injEq, List.map_map, List.map_inj_left, leafNumbers]
    constructor
    · intro h n hn
      obtain ⟨field, hfield, hmem⟩ := mem_fieldNumbers.mp hn
      exact (ih field hfield).mp (congrArg Prod.snd (h field hfield)) n hmem
    · intro h field hfield
      have hfields : normalise (reread field.2) = normalise field.2 :=
        (ih field hfield).mpr fun n hn => h n (mem_fieldNumbers.mpr ⟨field, hfield, hn⟩)
      exact congrArg (field.1, ·) hfields
  | _ => exact iff_of_true rfl fun n hn => absurd hn List.not_mem_nil

/-- The doubles past the greatest integers, which the casts cut to these. -/
def Cut (n : Number) : Prop := n = .float (2 ^ 63) ∨ n = .float (2 ^ 64)

instance : DecidablePred Cut := fun _ => inferInstanceAs (Decidable (_ ∨ _))

theorem value_ofI64 {m : Int} (hlow : -2 ^ 63 ≤ m) (hhigh : m < 2 ^ 63) : value (ofI64 m) = m := by
  unfold ofI64
  split
  · rw [value, Int64.toInt_ofInt_of_le hlow hhigh]
  · have hvalue : (UInt64.ofNat m.toNat).toNat = m.toNat := by
      rw [UInt64.toNat_ofNat']
      omega
    have hm : (m.toNat : Int) = m := Int.toNat_of_nonneg (by omega)
    rw [value, hvalue]
    exact_mod_cast hm

theorem value_ofNat {m : Nat} (h : m < 2 ^ 64) : value (.posInt (UInt64.ofNat m)) = m := by
  have hvalue : (UInt64.ofNat m).toNat = m := by
    rw [UInt64.toNat_ofNat']
    omega
  rw [value, hvalue]

theorem leafNumber_int (m : Int) : leafNumber (.float m) =
    if -2 ^ 63 ≤ m ∧ m ≤ 2 ^ 63 then ofI64 (saturateI64 m)
    else if 0 ≤ m ∧ m ≤ 2 ^ 64 then .posInt (UInt64.ofNat (min m.toNat (2 ^ 64 - 1)))
    else .float m := by
  have hint : isInt (m : Rat) = true := rfl
  have hlow : (-2 ^ 63 : Rat) ≤ m ↔ -2 ^ 63 ≤ m := by exact_mod_cast Iff.rfl
  have hhigh : (m : Rat) ≤ 2 ^ 63 ↔ m ≤ 2 ^ 63 := by exact_mod_cast Iff.rfl
  have hzero : (0 : Rat) ≤ m ↔ 0 ≤ m := by exact_mod_cast Iff.rfl
  have hwide : (m : Rat) ≤ 2 ^ 64 ↔ m ≤ 2 ^ 64 := by exact_mod_cast Iff.rfl
  simp only [leafNumber, hint, hlow, hhigh, hzero, hwide, Rat.num_intCast, true_and]

theorem cut_int (m : Int) : Cut (.float m) ↔ m = 2 ^ 63 ∨ m = 2 ^ 64 := by
  have hnarrow : (m : Rat) = 2 ^ 63 ↔ m = 2 ^ 63 := by exact_mod_cast Iff.rfl
  have hwide : (m : Rat) = 2 ^ 64 ↔ m = 2 ^ 64 := by exact_mod_cast Iff.rfl
  rw [Cut, Number.float.injEq, Number.float.injEq, hnarrow, hwide]

theorem value_leafNumber_int (m : Int) :
    value (leafNumber (.float m)) = m ↔ ¬ (m = 2 ^ 63 ∨ m = 2 ^ 64) := by
  rw [leafNumber_int]
  split_ifs with hsigned hunsigned
  · rw [value_ofI64 (by unfold saturateI64; omega) (by unfold saturateI64; omega), Int.cast_inj]
    unfold saturateI64
    omega
  · rw [value_ofNat (by omega)]
    have hcast : ((min m.toNat (2 ^ 64 - 1) : Nat) : Rat) = m ↔
        ((min m.toNat (2 ^ 64 - 1) : Nat) : Int) = m := by exact_mod_cast Iff.rfl
    rw [hcast]
    omega
  · refine iff_of_true rfl ?_
    omega

theorem value_leafNumber : value (leafNumber n) = value n ↔ ¬ Cut n := by
  cases n with
  | posInt n => exact iff_of_true rfl (by simp [Cut])
  | negInt n => exact iff_of_true rfl (by simp [Cut])
  | float q =>
    by_cases hint : isInt q = true
    · have hq : ((q.num : Int) : Rat) = q := Rat.coe_int_num_of_den_eq_one (of_decide_eq_true hint)
      rw [← hq, cut_int]
      exact value_leafNumber_int q.num
    · have hleaf : leafNumber (.float q) = .float q := by
        rw [leafNumber, if_neg fun h => hint h.1, if_neg fun h => hint h.1]
      rw [hleaf]
      refine iff_of_true rfl ?_
      rintro (hcut | hcut)
      · rw [Number.float.inj hcut] at hint
        exact hint rfl
      · rw [Number.float.inj hcut] at hint
        exact hint rfl

end Normalising

/-! ## What a rendering pays for -/

mutual

/-- The keys are written as they are. -/
def written : Json → Nat
  | .object fields => writtenFields fields
  | json => need json

def writtenFields : List (String × Json) → Nat
  | [] => 0
  | (key, json) :: fields => cost key.toList + written json + writtenFields fields

end

section Paying

variable {settings : List ConfigSetting} {floatText : Rat → List Char} {pre path : String}
  {indent : Nat} {entry : Entry} {entries : List Entry} {comma : List Char} {json : Json}
  {fields : List (String × Json)} {price : Entry → Nat}

theorem writtenFields_eq :
    writtenFields fields = (fields.map fun field => cost field.1.toList + written field.2).sum := by
  induction fields with
  | nil => rfl
  | cons field fields ih => rw [writtenFields, ih, List.map_cons, List.sum_cons]

theorem written_le : written json ≤ need json := by
  induction json using Json.induction with
  | object fields ih =>
    rw [written, need, writtenFields_eq, needFields_eq]
    apply List.sum_le_sum
    exact fun field hfield => Nat.add_le_add cost_le_escape (ih field hfield)
  | _ => exact Nat.le_refl _

theorem written_lt (h : ¬ ∀ key ∈ objectKeys json, Plain key) : written json < need json := by
  induction json using Json.induction with
  | object fields ih =>
    rw [written, need, writtenFields_eq, needFields_eq]
    apply List.sum_lt_sum
    · exact fun field _ => Nat.add_le_add cost_le_escape written_le
    · push Not at h
      obtain ⟨key, hkey, hbad⟩ := h
      obtain ⟨field, hfield, hmem⟩ := mem_fieldKeys.mp hkey
      refine ⟨field, hfield, ?_⟩
      cases hmem with
      | inl heq =>
        subst heq
        exact Nat.add_lt_add_of_lt_of_le (cost_lt_escape hbad) written_le
      | inr hin =>
        have hlt := ih field hfield fun hplain => hbad (hplain key hin)
        exact Nat.add_lt_add_of_le_of_lt cost_le_escape hlt
  | _ => exact absurd (fun key hkey => absurd hkey List.not_mem_nil) h

theorem cost_spaces : cost (spaces indent) = 0 := by
  apply cost_eq_zero
  intro c hc
  rw [List.eq_of_mem_replicate hc]
  decide

theorem spends_entryLine {n : Nat} (hcomma : cost comma = 0) (h : Spends entry.2 n) :
    Spends (entryLine indent entry comma) (cost entry.1.1.toList + n) := by
  have hquote : weight '"' = 0 := by decide
  have hcolon : cost "\": ".toList = 0 := by decide
  have hfront : Spends (spaces indent ++ '"' :: entry.1.1.toList ++ "\": ".toList)
      (cost entry.1.1.toList) := by
    have hcost := @spends_cost (spaces indent ++ '"' :: entry.1.1.toList ++ "\": ".toList)
    simpa only [cost_append, cost_cons, cost_spaces, hquote, hcolon, Nat.zero_add, Nat.add_zero]
      using hcost
  have hend : Spends comma 0 := by
    rw [← hcomma]
    exact spends_cost
  exact (hfront.append h).append hend

theorem comment_noStar (hsettings : OneLines settings) {key : String} :
    ∀ c ∈ (commentLines settings pre indent key).flatMap (· ++ ['\n']), c ≠ '*' := by
  unfold commentLines
  split
  · next purpose hpurpose =>
    have hindent : ∀ c ∈ spaces indent, c ≠ '*' := by
      intro c hc
      rw [List.eq_of_mem_replicate hc]
      decide
    have hpurpose : ∀ c ∈ purpose.toList, c ≠ '*' := fun c hc =>
      (purpose_oneLine hsettings hpurpose c hc).2.2
    have hslashes : ∀ c ∈ "// ".toList, c ≠ '*' := by decide
    simp only [List.flatMap_cons, List.flatMap_nil, List.append_nil, List.forall_mem_append]
    exact ⟨⟨⟨hindent, hslashes⟩, hpurpose⟩, by decide⟩
  · exact nofun

theorem linesSpend_comment (hsettings : OneLines settings) {key : String} :
    LinesSpend ((commentLines settings pre indent key).flatMap (· ++ ['\n'])) 0 :=
  linesSpend_closed (closed_comment hsettings) (comment_noStar hsettings)

theorem linesSpend_bodyText (hsettings : OneLines settings)
    (h : ∀ entry ∈ entries, Spends entry.2 (price entry)) :
    LinesSpend (bodyText settings pre indent entries)
      (entries.map fun entry => cost entry.1.1.toList + price entry).sum := by
  unfold bodyText
  induction entries with
  | nil => exact linesSpend_nil
  | cons entry entries ih =>
    rw [List.forall_mem_cons] at h
    have hcomment := @linesSpend_comment settings pre indent hsettings entry.1.1
    cases entries with
    | nil =>
      have hline := (@spends_entryLine indent entry [] _ rfl h.1).line
      have hlast := hcomment.append hline
      simpa [bodyLines] using hlast
    | cons next entries =>
      have hline := (@spends_entryLine indent entry [','] _ (by decide) h.1).line
      have hbody := (hcomment.append hline).append (ih h.2)
      simpa [bodyLines] using hbody

theorem spends_objectText (hsettings : OneLines settings)
    (h : ∀ entry ∈ entries, Spends entry.2 (price entry)) :
    Spends (objectText settings pre indent entries)
      (entries.map fun entry => cost entry.1.1.toList + price entry).sum := by
  have hsort := @sortEntries_perm settings pre entries
  have hbody := @linesSpend_bodyText settings pre (indent + 1) _ price hsettings
    fun entry hentry => h entry (hsort.subset hentry)
  rw [(hsort.map fun entry => cost entry.1.1.toList + price entry).sum_eq] at hbody
  have hopen : Spends ['\x7b'] 0 := @spends_cost ['\x7b']
  have hclose : Spends (spaces indent ++ ['\x7d']) 0 := by
    have hcost : cost (spaces indent ++ ['\x7d']) = 0 := by
      rw [cost_append, cost_spaces]
      decide
    rw [← hcost]
    exact spends_cost
  have hobject := (hopen.lines hbody).append hclose
  rw [objectText_eq]
  simpa using hobject

/-- Numbers are written as numbers. -/
def Numeric (floatText : Rat → List Char) (json : Json) : Prop :=
  ∀ n ∈ numbers json, isNumber (numberText floatText n) = true

theorem spends_renderLeafValue (h : Numeric floatText json) :
    Spends (renderLeafValue floatText json) (need json) := by
  have hprint : Spends (print floatText json) (need json) := by
    rw [← cost_print h]
    exact spends_cost
  cases json with
  | number n =>
    cases n with
    | float q =>
      have hcost : cost (renderLeafValue floatText (.number (.float q))) = 0 := by
        rw [renderLeafValue]
        split_ifs
        · exact cost_number (isNumber_int _)
        · exact cost_number (isNumber_repr _)
        · exact cost_number (h _ List.mem_cons_self)
      rw [need, ← hcost]
      exact spends_cost
    | _ => exact hprint
  | _ => exact hprint

theorem spends_valueText (hsettings : OneLines settings) (h : Numeric floatText json)
    (path : String) (indent : Nat) :
    Spends (valueText settings floatText path indent json) (written json) := by
  induction json using Json.induction generalizing path indent with
  | object fields ih =>
    rw [valueText, written, writtenFields_eq]
    cases fields with
    | nil => exact spends_cost
    | cons field fields =>
      have hobject := @spends_objectText settings path indent
        (fieldEntries settings floatText path (indent + 1) (field :: fields))
        (fun entry => written entry.1.2) hsettings
      rw [fieldEntries_eq, List.map_map] at hobject
      rw [if_neg (by simp), fieldEntries_eq]
      apply hobject
      intro entry hentry
      obtain ⟨f, hf, rfl⟩ := List.mem_map.mp hentry
      exact ih f hf (fun n hn => h n (mem_numbersFields.mpr ⟨f, hf, hn⟩)) _ _
  | _ => exact spends_renderLeafValue h

end Paying

/-! ## Back from a rendering -/

/-- An object as the library holds it: its keys in order, and only negative numbers negative. -/
structure ConfigObject where
  fields : List (String × Json)
  ordered : Ordered (.object fields)
  negative : ∀ n, .negInt n ∈ numbersFields fields → n < 0

def ConfigObject.value (config : ConfigObject) : Json := .object config.fields

section Back

variable {r : Reader} {floatText : Rat → List Char} {config : ConfigObject}
  {fields : List (String × Json)}

theorem read_rendering (hintegers : KeepsIntegers r) (hordered : Ordered (.object fields))
    (hnumbers : ∀ n ∈ numbersFields fields, Rereads r floatText n)
    (hkeys : ∀ key ∈ fieldKeys fields, Plain key)
    (hdepth : ∀ d ∈ r.depth, (Json.object fields).nesting ≤ d) :
    r.read .nothing (renderJsoncConfig floatText (.object fields)) =
      some (loaded r floatText (.object fields)) := by
  have hreads : Reads .nothing r (objectText configSettings "" 0
      (fieldEntries configSettings floatText "" 1 fields)) (loaded r floatText (.object fields)) := by
    cases hordered with
    | object hsorted hfields =>
      rw [loaded_object]
      refine reads_objectText oneLines_configSettings hsorted ?_ ?_ ?_
      · rw [fieldEntries_eq, List.map_map]
        exact .of_eq (List.map_id _)
      · exact fun field hfield => hkeys field.1 (mem_fieldKeys.mpr ⟨field, hfield, .inl rfl⟩)
      · rw [fieldEntries_eq, List.forall_mem_map]
        intro field hfield
        apply reads_valueText oneLines_configSettings hintegers (hfields field hfield)
        · exact fun n hn => hnumbers n (mem_numbersFields.mpr ⟨field, hfield, hn⟩)
        · exact fun key hkey => hkeys key (mem_fieldKeys.mpr ⟨field, hfield, .inr hkey⟩)
  apply hreads.read
  rwa [loaded, Json.nesting_mapNumbers, nesting_reread]

theorem keeps_leafNumber (hintegers : KeepsIntegers r) {n : Number} (h : Keeps r floatText n) :
    Keeps r floatText (leafNumber n) := by
  cases n with
  | float q =>
    rw [leafNumber]
    split_ifs
    · exact keeps_ofI64 hintegers (by unfold saturateI64; omega) (by unfold saturateI64; omega)
    · exact keeps_posInt hintegers _
    · exact h
  | _ => exact h

/-- Numbers that are read back from their print change in their rendering only. -/
theorem loaded_eq {json : Json} (hintegers : KeepsIntegers r)
    (h : ∀ n ∈ numbers json, Keeps r floatText n) : loaded r floatText json = reread json := by
  induction json using Json.induction with
  | number n =>
    have hleaf := keeps_leafNumber hintegers (h n List.mem_cons_self)
    rw [loaded, reread, Json.mapNumbers, hleaf.reprint]
  | array items ih => exact mapNumbers_eq_self fun n hn => (h n hn).reprint
  | object fields ih =>
    rw [loaded_object, reread, rereadFields_eq]
    apply congrArg Json.object
    apply List.map_congr_left
    intro field hfield
    have hvalue := ih field hfield fun n hn => h n (mem_numbersFields.mpr ⟨field, hfield, hn⟩)
    exact congrArg (field.1, ·) hvalue
  | _ => rfl

theorem keeps_numbers (hintegers : KeepsIntegers r)
    (hfloats : ∀ q, .float q ∈ numbers config.value → Keeps r floatText (.float q)) :
    ∀ n ∈ numbers config.value, Keeps r floatText n := by
  intro n hn
  cases n with
  | posInt n => exact keeps_posInt hintegers n
  | negInt n => exact keeps_negInt hintegers (config.negative n hn)
  | float q => exact hfloats q hn

theorem spends_rendering (hnumbers : Numeric floatText config.value) :
    Spends (renderJsoncConfig floatText config.value) (written config.value) := by
  have hobject := @spends_objectText configSettings "" 0
    (fieldEntries configSettings floatText "" 1 config.fields) (fun entry => written entry.1.2)
    oneLines_configSettings
  rw [fieldEntries_eq, List.map_map] at hobject
  have hfields := hobject fun entry hentry => by
    obtain ⟨field, hfield, rfl⟩ := List.mem_map.mp hentry
    apply spends_valueText oneLines_configSettings
    exact fun n hn => hnumbers n (mem_numbersFields.mpr ⟨field, hfield, hn⟩)
  rw [← fieldEntries_eq] at hfields
  have hend := hfields.append (@spends_cost ['\n'])
  rw [ConfigObject.value, written, writtenFields_eq]
  exact hend

/-- Whatever is read from a rendering with the strings of the config, its keys needed no escape. -/
theorem plain_of_read {json : Json} (hnumbers : Numeric floatText config.value)
    (h : r.read .nothing (renderJsoncConfig floatText config.value) = some json)
    (hsame : normalise json = normalise config.value) :
    ∀ key ∈ objectKeys config.value, Plain key := by
  have hle := need_le_of_read (spends_rendering hnumbers) h
  rw [← need_normalise, hsame, need_normalise] at hle
  by_contra hbad
  exact absurd (written_lt hbad) (Nat.not_lt.mpr hle)

end Back

/-- A config survives its rendering unless a key outside arrays needs an escape, a setting is a
double that the casts cut, or it nests deeper than the parser goes. -/
theorem roundTrip_iff (r : Reader) (hintegers : KeepsIntegers r)
    (fromStr : List Char → Except String Json)
    (hjson : ∀ text, (fromStr text).toOption = r.read .refused text) (floatText : Rat → List Char)
    (config : ConfigObject)
    (hfloats : ∀ q, .float q ∈ numbers config.value → Keeps r floatText (.float q))
    (path : String) :
    (∃ json, parseJsoncConfig fromStr (renderJsoncConfig floatText config.value) path = .ok json ∧
        normalise json = normalise config.value) ↔
      (∀ key ∈ objectKeys config.value, Plain key) ∧
        (∀ n ∈ leafNumbers config.value, ¬ Cut n) ∧
        ∀ d ∈ r.depth, config.value.nesting ≤ d := by
  have hnumbers := keeps_numbers hintegers hfloats
  have hnumeric : Numeric floatText config.value := fun n hn => (hnumbers n hn).1
  have hcut : (∀ n ∈ leafNumbers config.value, ¬ Cut n) ↔
      normalise (reread config.value) = normalise config.value := by
    rw [normalise_reread]
    exact forall₂_congr fun n _ => value_leafNumber.symm
  have hread (hkeys : ∀ key ∈ objectKeys config.value, Plain key)
      (hdepth : ∀ d ∈ r.depth, config.value.nesting ≤ d) :
      r.read .nothing (renderJsoncConfig floatText config.value) = some (reread config.value) := by
    rw [← loaded_eq hintegers hnumbers]
    exact read_rendering hintegers config.ordered (fun n hn => (hnumbers n hn).rereads) hkeys hdepth
  simp only [parseJsoncConfig_iff hjson]
  constructor
  · rintro ⟨json, ⟨hjson, -⟩, hsame⟩
    have hkeys := plain_of_read hnumeric hjson hsame
    have hdepth : ∀ d ∈ r.depth, config.value.nesting ≤ d := by
      rw [← nesting_normalise, ← hsame, nesting_normalise]
      exact nesting_le_of_read hjson
    rw [hread hkeys hdepth] at hjson
    obtain rfl := Option.some.inj hjson
    exact ⟨hkeys, hcut.mpr hsame, hdepth⟩
  · rintro ⟨hkeys, hleaves, hdepth⟩
    exact ⟨_, ⟨hread hkeys hdepth, rfl⟩, hcut.mp hleaves⟩

section

/-- A parser for JSON, with integers only. -/
def integers : Reader where
  number
    | '-' :: digits =>
      let n := Nat.ofDigitChars 10 digits 0
      if 0 < n ∧ n ≤ 2 ^ 63 then some (.negInt (Int64.ofInt (-(n : Int)))) else none
    | digits => some (.posInt (UInt64.ofNat (Nat.ofDigitChars 10 digits 0)))
  depth := some 127

def parseIntegers (text : List Char) : Except String Json :=
  match integers.read .refused text with
  | some json => .ok json
  | none => .error "expected value"

theorem parseIntegers_toOption (text : List Char) :
    (parseIntegers text).toOption = integers.read .refused text := by
  rw [parseIntegers]
  cases integers.read .refused text <;> rfl

theorem keepsIntegers_integers : KeepsIntegers integers where
  posInt n := by
    have hdigits := DecimalText.digits_repr n.toNat
    simp only [integers]
    split
    · next digits heq =>
      rw [heq, List.forall_mem_cons] at hdigits
      cases hdigits.1
    · rw [DecimalText.ofDigitChars_repr, UInt64.ofNat_toNat]
  negInt n hn := by
    have hlt : n.toInt < 0 := Int64.lt_iff_toInt_lt.mp hn
    have htext : n.toInt.repr.toList = '-' :: n.toInt.natAbs.repr.toList := by
      rw [Int.repr_eq_if, if_neg (Int.not_le.mpr hlt), String.toList_append]
      have habs : (-n.toInt).toNat = n.toInt.natAbs := by omega
      rw [habs]
      rfl
    have hlow := n.le_toInt
    have hvalue : (-(n.toInt.natAbs : Int)) = n.toInt := by omega
    simp only [integers, htext]
    rw [DecimalText.ofDigitChars_repr, if_pos (by omega), hvalue, Int64.ofInt_toInt]

/-- An object with one field, a scalar. -/
def single (key : String) (n : UInt64) : ConfigObject where
  fields := [(key, .number (.posInt n))]
  ordered := .object (List.pairwise_singleton _ _) fun _ hfield => by
    rw [List.mem_singleton.mp hfield]
    exact .number _
  negative _ h := by simp [numbersFields, numbers] at h

theorem version_survives :
    ∃ json, parseJsoncConfig parseIntegers
        (renderJsoncConfig (fun _ => []) (single "version" 1).value) "config.jsonc" = .ok json ∧
      normalise json = normalise (single "version" 1).value :=
  (roundTrip_iff integers keepsIntegers_integers parseIntegers parseIntegers_toOption (fun _ => [])
    (single "version" 1) (by simp [ConfigObject.value, single, numbers, numbersFields]) _).mpr
    ⟨by simp [ConfigObject.value, single, objectKeys, fieldKeys, Plain],
      by simp [ConfigObject.value, single, leafNumbers, fieldNumbers, Cut],
      by simp [ConfigObject.value, single, integers, Json.nesting, Json.nestingFields]⟩

/-- A key with a quote in it ends where the quote stands. -/
theorem quoted_key_lost :
    ¬ ∀ (r : Reader), KeepsIntegers r → ∀ fromStr : List Char → Except String Json,
      (∀ text, (fromStr text).toOption = r.read .refused text) →
        ∀ (floatText : Rat → List Char) (config : ConfigObject),
          (∀ q, .float q ∈ numbers config.value → Keeps r floatText (.float q)) →
            ∀ path : String, ∃ json,
              parseJsoncConfig fromStr (renderJsoncConfig floatText config.value) path = .ok json ∧
                normalise json = normalise config.value := by
  intro h
  have hfloats : ∀ q, .float q ∈ numbers (single "a\"b" 1).value →
      Keeps integers (fun _ => []) (.float q) := by
    simp [ConfigObject.value, single, numbers, numbersFields]
  obtain ⟨json, hparse, hsame⟩ := h integers keepsIntegers_integers parseIntegers
    parseIntegers_toOption (fun _ => []) (single "a\"b" 1) hfloats "config.jsonc"
  have hnumbers := keeps_numbers keepsIntegers_integers hfloats
  have hread := ((parseJsoncConfig_iff parseIntegers_toOption).mp hparse).1
  have hplain := plain_of_read (fun n hn => (hnumbers n hn).1) hread hsame "a\"b" List.mem_cons_self
  exact (hplain '"' (by decide)).1 rfl

end

end Climon.Config.RoundTrip
