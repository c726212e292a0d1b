import Climon.Config.EscapedKeys
import Climon.Config.ReadYourWrite

namespace Climon.Config.SettingPaths

open Climon.Config.ReadYourWrite Climon.Config.Rendering Climon.Config.RoundTrip
open Climon.Lib Climon.Lib.JsonOccurrences Climon.Lib.JsonPrint Climon.Lib.JsonText
  Climon.Lib.JsonValue

/-!
# Values at the paths of a config

What a config has at a path, it has when it is read back from its rendering, and so it has the keys
and the numbers on the way.
-/

/-- The value at a path of names. -/
def valueAt : Json → List String → Option Json
  | json, [] => some json
  | json, name :: path => (json.get? name).bind (valueAt · path)

/-! ## Paths -/

section Paths

variable {json value : Json} {fields : List (String × Json)} {name : String}
  {path rest : List String} {n : Number} {r : Reader} {floatText : Rat → List Char}

theorem valueAt_append :
    valueAt json (path ++ rest) = (valueAt json path).bind (valueAt · rest) := by
  induction path generalizing json with
  | nil => rfl
  | cons name path ih =>
    rw [List.cons_append, valueAt, valueAt, Option.bind_assoc]
    apply congrArg (json.get? name).bind
    funext inner
    exact ih

theorem valueAt_loaded :
    valueAt (loaded r floatText json) path = (valueAt json path).map (loaded r floatText) := by
  induction path generalizing json with
  | nil => rfl
  | cons name path ih =>
    rw [valueAt, valueAt, get?_loaded, Option.bind_map, Option.map_bind]
    apply congrArg (json.get? name).bind
    funext inner
    exact ih

theorem valueAt_object :
    valueAt (.object fields) (name :: path) = (fields.lookup name).bind (valueAt · path) := rfl

theorem valueAt_single : valueAt (.object fields) [name] = fields.lookup name := by
  rw [valueAt_object]
  exact Option.bind_fun_some _

theorem valueAt_member {inner : String} : valueAt (.object fields) (name :: inner :: path) =
    ((fields.lookup name).bind (·.get? inner)).bind (valueAt · path) := by
  rw [valueAt_object, Option.bind_assoc]
  rfl

/-- The field of an object that a lookup finds. -/
theorem mem_of_get? (h : json.get? name = some value) :
    ∃ fields, json = .object fields ∧ (name, value) ∈ fields := by
  cases json with
  | object fields => exact ⟨fields, rfl, AssocList.mem_of_lookup h⟩
  | _ => cases h

theorem nodup_of_ordered (h : Ordered (.object fields)) : (fields.map (·.1)).Nodup := by
  cases h with
  | object hsorted _ => exact hsorted.nodup

theorem ordered_field (h : Ordered (.object fields)) {field : String × Json} (hfield : field ∈ fields) :
    Ordered field.2 := by
  cases h with
  | object _ hfields => exact hfields field hfield

theorem get?_of_mem (h : Ordered (.object fields)) (hfield : (name, value) ∈ fields) :
    (Json.object fields).get? name = some value :=
  AssocList.lookup_of_mem (nodup_of_ordered h) hfield

theorem valueAt_cons (h : valueAt json (name :: path) = some value) :
    ∃ inner, json.get? name = some inner ∧ valueAt inner path = some value :=
  Option.bind_eq_some_iff.mp h

theorem numbers_valueAt (h : valueAt json path = some value) (hn : n ∈ numbers value) :
    n ∈ numbers json := by
  induction path generalizing json with
  | nil =>
    obtain rfl := Option.some.inj h
    exact hn
  | cons name path ih =>
    obtain ⟨inner, hget, hinner⟩ := valueAt_cons h
    obtain ⟨fields, rfl, hfield⟩ := mem_of_get? hget
    exact mem_numbersFields.mpr ⟨_, hfield, ih hinner⟩

theorem keys_valueAt (h : valueAt json path = some value) :
    ∀ name ∈ path, name ∈ objectKeys json := by
  induction path generalizing json with
  | nil => exact List.forall_mem_nil _
  | cons name path ih =>
    obtain ⟨inner, hget, hinner⟩ := valueAt_cons h
    obtain ⟨fields, rfl, hfield⟩ := mem_of_get? hget
    intro other hother
    rw [objectKeys, mem_fieldKeys]
    refine ⟨_, hfield, ?_⟩
    rcases List.mem_cons.mp hother with rfl | hmem
    · exact .inl rfl
    · exact .inr (ih hinner other hmem)

theorem ordered_valueAt (hordered : Ordered json) (h : valueAt json path = some value) :
    Ordered value := by
  induction path generalizing json with
  | nil =>
    obtain rfl := Option.some.inj h
    exact hordered
  | cons name path ih =>
    obtain ⟨inner, hget, hinner⟩ := valueAt_cons h
    obtain ⟨fields, rfl, hfield⟩ := mem_of_get? hget
    exact ih (ordered_field hordered hfield) hinner

/-- Every key is on a path. -/
theorem exists_path_key (hordered : Ordered json) (h : name ∈ objectKeys json) :
    ∃ path value, valueAt json path = some value ∧ name ∈ path := by
  induction json using Json.induction with
  | object fields ih =>
    obtain ⟨field, hfield, hname⟩ := mem_fieldKeys.mp h
    have hget := get?_of_mem hordered hfield
    cases hname with
    | inl heq =>
      subst heq
      refine ⟨[field.1], field.2, ?_, List.mem_cons_self⟩
      rw [valueAt, hget]
      rfl
    | inr hin =>
      obtain ⟨path, value, hpath, hmem⟩ := ih field hfield (ordered_field hordered hfield) hin
      refine ⟨field.1 :: path, value, ?_, List.mem_cons_of_mem _ hmem⟩
      rw [valueAt, hget]
      exact hpath
  | _ => cases h

theorem exists_path_number (hordered : Ordered json) (h : n ∈ leafNumbers json) :
    ∃ path, valueAt json path = some (.number n) := by
  induction json using Json.induction with
  | number m =>
    rw [List.mem_singleton.mp h]
    exact ⟨[], rfl⟩
  | object fields ih =>
    obtain ⟨field, hfield, hin⟩ := mem_fieldNumbers.mp h
    obtain ⟨path, hpath⟩ := ih field hfield (ordered_field hordered hfield) hin
    refine ⟨field.1 :: path, ?_⟩
    rw [valueAt, get?_of_mem hordered hfield]
    exact hpath
  | _ => cases h

end Paths

/-! ## Values up to their numbers -/

section Normalised

variable {json other : Json} {fields others : List (String × Json)} {k name : String}
  {r : Reader} {floatText : Rat → List Char}

theorem isObject_loaded : (loaded r floatText json).isObject = json.isObject := by
  cases json with
  | _ => rfl

theorem isObject_of_normalise (h : normalise other = normalise json) :
    other.isObject = json.isObject := by
  have hmap : ∀ json : Json, (normalise json).isObject = json.isObject := by
    intro json
    cases json with
    | _ => rfl
  rw [← hmap other, h, hmap]

theorem occurrences_normalise : occurrences k (normalise json) = occurrences k json := by
  induction json using Json.induction with
  | array items ih =>
    rw [normalise, Json.mapNumbers, Json.mapItems_eq, occurrences, occurrences, occurrencesItems_eq,
      occurrencesItems_eq, List.map_map]
    apply congrArg List.sum
    apply List.map_congr_left
    intro item hitem
    have hstring : isString k (normalise item) = isString k item := by
      cases item with
      | _ => rfl
    have hinner := ih item hitem
    exact congrArg₂ (· + ·) hstring hinner
  | object fields ih =>
    rw [normalise, Json.mapNumbers, Json.mapFields_eq, occurrences, occurrences,
      occurrencesFields_eq, occurrencesFields_eq, List.map_map]
    apply congrArg List.sum
    apply List.map_congr_left
    intro field hfield
    exact congrArg ((if field.1 = k then 1 else 0) + ·) (ih field hfield)
  | _ => rfl

theorem occurrences_of_normalise (h : normalise other = normalise json) :
    occurrences k other = occurrences k json := by
  rw [← @occurrences_normalise other, h, occurrences_normalise]

/-- A value whose numbers are read back is kept where the casts cut none of its settings. -/
theorem normalise_loaded_iff (hintegers : KeepsIntegers r)
    (h : ∀ n ∈ numbers json, Keeps r floatText n) :
    normalise (loaded r floatText json) = normalise json ↔ ∀ n ∈ leafNumbers json, ¬ Cut n := by
  rw [loaded_eq hintegers h, normalise_reread]
  exact forall₂_congr fun n _ => value_leafNumber

theorem occurrencesFields_cons {field : String × Json} : occurrencesFields k (field :: fields) =
    (if field.1 = k then 1 else 0) + occurrences k field.2 + occurrencesFields k fields := rfl

theorem occurrencesFields_filter {value : Json} (h : fields.lookup name = some value) :
    (if name = k then 1 else 0) + occurrences k value +
        occurrencesFields k (fields.filter fun field => field.1 != name) ≤
      occurrencesFields k fields := by
  induction fields with
  | nil => cases h
  | cons field fields ih =>
    rw [List.lookup_cons] at h
    rw [occurrencesFields_cons, List.filter_cons]
    by_cases heq : name = field.1
    · subst heq
      rw [beq_self_eq_true] at h
      obtain rfl := Option.some.inj h
      have hfilter := ((List.filter_sublist (l := fields)
        (p := fun other => other.1 != field.1)).map fun other =>
          (if other.1 = k then 1 else 0) + occurrences k other.2).sum_le_sum fun _ _ => Nat.zero_le _
      rw [← occurrencesFields_eq, ← occurrencesFields_eq] at hfilter
      rw [bne_self_eq_false, if_neg Bool.false_ne_true]
      exact Nat.add_le_add_left hfilter _
    · rw [beq_eq_false_iff_ne.mpr heq] at h
      have hkept : (field.1 != name) = true := bne_iff_ne.mpr (Ne.symm heq)
      have hle := ih h
      rw [hkept, if_pos rfl, occurrencesFields_cons]
      omega

/-- Fields that are found elsewhere, each with as many keys, have no more of them. -/
theorem occurrencesFields_le (hkeys : (fields.map (·.1)).Nodup)
    (h : ∀ field ∈ fields, (field.1 ≠ k ∧ occurrences k field.2 = 0) ∨
      ∃ other, others.lookup field.1 = some other ∧ occurrences k field.2 ≤ occurrences k other) :
    occurrencesFields k fields ≤ occurrencesFields k others := by
  induction fields generalizing others with
  | nil => exact Nat.zero_le _
  | cons field fields ih =>
    rw [List.map_cons, List.nodup_cons] at hkeys
    rw [List.forall_mem_cons] at h
    rw [occurrencesFields_cons]
    rcases h.1 with ⟨hname, hzero⟩ | ⟨other, hother, hle⟩
    · rw [if_neg hname, hzero]
      exact (Nat.zero_add _).le.trans (ih hkeys.2 h.2)
    · have hrest : occurrencesFields k fields ≤
          occurrencesFields k (others.filter fun other => other.1 != field.1) := by
        refine ih hkeys.2 fun f hf => (h.2 f hf).imp_right ?_
        rintro ⟨value, hvalue, hcount⟩
        have hne : f.1 ≠ field.1 := by
          intro heq
          exact hkeys.1 (heq ▸ List.mem_map_of_mem hf)
        exact ⟨value, (AssocList.lookup_filter_ne hne).trans hvalue, hcount⟩
      have hfilter := @occurrencesFields_filter others k field.1 other hother
      omega

end Normalised

end Climon.Config.SettingPaths
