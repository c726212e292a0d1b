import Climon.Lib.AssocList
import Climon.Lib.JavaScript
import Mathlib.Algebra.Order.Floor.Ring
import Mathlib.Tactic.FieldSimp
import Mathlib.Tactic.Positivity

namespace Climon.Lib.JsonAgreement

open Climon.Lib.AssocList Climon.Lib.JavaScript Climon.Lib.JavaScript.JsValue
  Climon.Lib.JsonDocument Climon.Lib.Utf16

/-!
# Typed decoders and JavaScript readers

When a decoder accepts a document, JavaScript sees the same value in it, and what JavaScript
writes of such a value is accepted again.
-/

/-! ## Properties -/

theorem get?_assign_self (props : Props) (key : String) (value : Option JsValue) :
    (props.assign key value).get? key = value := by
  cases value with
  | none => exact lookup_filter_self props (encode key)
  | some v => exact List.lookup_cons_self

theorem lookup_assign_of_ne (props : Props) {key : List UInt16} {other : String}
    (value : Option JsValue) (h : key ≠ encode other) :
    (props.assign other value).lookup key = props.lookup key := by
  cases value with
  | none => exact lookup_filter_ne h
  | some v =>
    change List.lookup key ((encode other, v) :: _) = _
    rw [List.lookup_cons, beq_eq_false_iff_ne.mpr h]
    exact lookup_filter_ne h

theorem get?_assign_of_ne (props : Props) {key other : String} (value : Option JsValue)
    (h : key ≠ other) : (props.assign other value).get? key = props.get? key :=
  lookup_assign_of_ne props value fun heq => h (encode_injective heq)

theorem lookup_spread_of_notMem (props : Props) {changes : List (String × Option JsValue)}
    {key : List UInt16} (h : ∀ change ∈ changes, key ≠ encode change.1) :
    (props.spread changes).lookup key = props.lookup key := by
  induction changes generalizing props with
  | nil => rfl
  | cons change changes ih =>
    have hrest := ih (props.assign change.1 change.2)
      fun other hother => h other (List.mem_cons_of_mem _ hother)
    exact hrest.trans (lookup_assign_of_ne props _ (h change List.mem_cons_self))

theorem get?_spread_of_notMem (props : Props) {changes : List (String × Option JsValue)}
    {key : String} (h : ∀ change ∈ changes, key ≠ change.1) :
    (props.spread changes).get? key = props.get? key :=
  lookup_spread_of_notMem props fun change hchange heq =>
    h change hchange (encode_injective heq)

theorem get?_spread_cons_self (props : Props) {key : String} (value : Option JsValue)
    {changes : List (String × Option JsValue)} (h : ∀ change ∈ changes, key ≠ change.1) :
    (props.spread ((key, value) :: changes)).get? key = value :=
  (get?_spread_of_notMem (props.assign key value) h).trans (get?_assign_self props key value)

theorem get?_spread_of_mem (props : Props) {changes : List (String × Option JsValue)}
    (hkeys : (changes.map (·.1)).Nodup) {change : String × Option JsValue}
    (hchange : change ∈ changes) : (props.spread changes).get? change.1 = change.2 := by
  induction changes generalizing props with
  | nil => cases hchange
  | cons first changes ih =>
    rw [List.map_cons, List.nodup_cons] at hkeys
    obtain ⟨hnew, hkeys⟩ := hkeys
    rcases List.mem_cons.mp hchange with rfl | hrest
    · refine get?_spread_cons_self props change.2 fun other hother heq => hnew ?_
      exact List.mem_map.mpr ⟨other, hother, heq.symm⟩
    · exact ih (props.assign first.1 first.2) hkeys hrest

theorem nodup_assign {props : Props} (h : (props.map (·.1)).Nodup) (key : String)
    (value : Option JsValue) : ((props.assign key value).map (·.1)).Nodup := by
  have hothers : ((props.filter fun prop => prop.1 != encode key).map (·.1)).Nodup :=
    h.sublist (List.filter_sublist.map _)
  cases value with
  | none => exact hothers
  | some v =>
    rw [Props.assign, List.map_cons, List.nodup_cons]
    refine ⟨fun hmem => ?_, hothers⟩
    obtain ⟨prop, hprop, hkey⟩ := List.mem_map.mp hmem
    simp [hkey] at hprop

theorem nodup_spread {props : Props} (h : (props.map (·.1)).Nodup)
    (changes : List (String × Option JsValue)) : ((props.spread changes).map (·.1)).Nodup := by
  induction changes generalizing props with
  | nil => exact h
  | cons change changes ih => exact ih (nodup_assign h change.1 change.2)

/-- An object has distinct keys. Here they also decode. -/
structure Clean (props : Props) : Prop where
  nodup : (props.map (·.1)).Nodup
  decodes : ∀ prop ∈ props, (decode prop.1).isSome = true

theorem Clean.assign {props : Props} (h : Clean props) (key : String) (value : Option JsValue) :
    Clean (props.assign key value) := by
  refine ⟨nodup_assign h.nodup key value, fun prop hprop => ?_⟩
  cases value with
  | none => exact h.decodes prop (List.mem_of_mem_filter hprop)
  | some v =>
    rcases List.mem_cons.mp hprop with rfl | hrest
    · exact decode_encode_isSome key
    · exact h.decodes prop (List.mem_of_mem_filter hrest)

theorem Clean.spread {props : Props} (h : Clean props)
    (changes : List (String × Option JsValue)) : Clean (props.spread changes) := by
  induction changes generalizing props with
  | nil => exact h
  | cons change changes ih => exact ih (h.assign change.1 change.2)

/-! ## Parsing and writing -/

theorem ofItems_eq_map (items : List Doc) : ofItems items = items.map ofDoc := by
  induction items with
  | nil => rfl
  | cons item items ih => rw [ofItems, ih, List.map_cons]

theorem toItems_eq_map (items : List JsValue) : toItems items = items.map toDoc := by
  induction items with
  | nil => rfl
  | cons item items ih => rw [toItems, ih, List.map_cons]

theorem mem_keys_ofFields {fields : Fields} {prop : List UInt16 × JsValue}
    (h : prop ∈ ofFields fields) : prop.1 ∈ fields.map (·.1) := by
  induction fields with
  | nil => cases h
  | cons field fields ih =>
    obtain ⟨key, value⟩ := field
    rw [ofFields] at h
    split at h
    · exact List.mem_cons_of_mem _ (ih h)
    · rcases List.mem_cons.mp h with rfl | hrest
      · exact List.mem_cons_self
      · exact List.mem_cons_of_mem _ (ih hrest)

theorem nodup_ofFields (fields : Fields) : ((ofFields fields).map (·.1)).Nodup := by
  induction fields with
  | nil => exact List.nodup_nil
  | cons field fields ih =>
    obtain ⟨key, value⟩ := field
    rw [ofFields]
    split
    · exact ih
    next hnew =>
      rw [List.map_cons, List.nodup_cons]
      refine ⟨fun hmem => hnew ?_, ih⟩
      obtain ⟨prop, hprop, hkey⟩ := List.mem_map.mp hmem
      exact List.any_eq_true.mpr ⟨prop, hprop, beq_iff_eq.mpr hkey⟩

theorem lookup_ofFields {fields : Fields} {key : List UInt16}
    (h : (fields.map (·.1)).count key ≤ 1) :
    (ofFields fields).lookup key = (fields.lookup key).map ofDoc := by
  induction fields with
  | nil => rfl
  | cons field fields ih =>
    obtain ⟨name, value⟩ := field
    rw [List.map_cons, List.count_cons] at h
    rw [ofFields, List.lookup_cons]
    dsimp only at h ⊢
    by_cases hname : name = key
    · subst hname
      rw [beq_self_eq_true, if_pos rfl] at h
      have hnew : ¬ ((ofFields fields).any fun prop => prop.1 == name) = true := by
        intro hany
        obtain ⟨prop, hprop, hkey⟩ := List.any_eq_true.mp hany
        have hmem := mem_keys_ofFields hprop
        rw [beq_iff_eq.mp hkey] at hmem
        have hcount := List.count_pos_iff.mpr hmem
        omega
      rw [if_neg hnew, List.lookup_cons_self, beq_self_eq_true]
      rfl
    · have hkey : (key == name) = false := beq_eq_false_iff_ne.mpr fun heq => hname heq.symm
      have hrest := ih (by split at h <;> omega)
      rw [hkey]
      split
      · exact hrest
      · rw [List.lookup_cons, hkey]
        exact hrest

theorem keys_toFields (props : Props) : (toFields props).map (·.1) = props.map (·.1) := by
  induction props with
  | nil => rfl
  | cons prop props ih =>
    obtain ⟨key, value⟩ := prop
    rw [toFields, List.map_cons, List.map_cons, ih]

theorem lookup_toFields (props : Props) (key : List UInt16) :
    (toFields props).lookup key = (props.lookup key).map toDoc := by
  induction props with
  | nil => rfl
  | cons prop props ih =>
    obtain ⟨name, value⟩ := prop
    rw [toFields, List.lookup_cons, List.lookup_cons]
    split
    · rfl
    · exact ih

theorem get?_toFields (props : Props) (key : String) :
    Fields.get? (toFields props) key = (props.get? key).map toDoc :=
  lookup_toFields props (encode key)

theorem Clean.wellFormed {props : Props} (h : Clean props) (known : List String) :
    Fields.wellFormed known (toFields props) = true := by
  unfold Fields.wellFormed
  rw [Bool.and_eq_true, List.all_eq_true, List.all_eq_true]
  refine ⟨fun field hfield => ?_, fun key _ => ?_⟩
  · have hmem : field.1 ∈ (toFields props).map (·.1) := List.mem_map_of_mem hfield
    rw [keys_toFields] at hmem
    obtain ⟨prop, hprop, heq⟩ := List.mem_map.mp hmem
    rw [← heq]
    exact h.decodes prop hprop
  · rw [keys_toFields]
    exact decide_eq_true (List.nodup_iff_count_le_one.mp h.nodup _)

theorem clean_ofFields {known : List String} {fields : Fields}
    (h : Fields.wellFormed known fields = true) : Clean (ofFields fields) := by
  refine ⟨nodup_ofFields fields, fun prop hprop => ?_⟩
  unfold Fields.wellFormed at h
  rw [Bool.and_eq_true, List.all_eq_true] at h
  obtain ⟨field, hfield, heq⟩ := List.mem_map.mp (mem_keys_ofFields hprop)
  rw [← heq]
  exact h.1 field hfield

theorem get?_ofFields {known : List String} {fields : Fields}
    (h : Fields.wellFormed known fields = true) {key : String} (hkey : key ∈ known) :
    Props.get? (ofFields fields) key = (fields.get? key).map ofDoc := by
  unfold Fields.wellFormed at h
  rw [Bool.and_eq_true, List.all_eq_true, List.all_eq_true] at h
  exact lookup_ofFields (of_decide_eq_true (h.2 key hkey))

/-! ## Numbers -/

theorem roundTo_of_multiple {unit q : Rat} (hunit : unit ≠ 0) (n : Int) (h : q = n * unit) :
    roundTo unit q = q := by
  have hquotient : q / unit = n := by rw [h, mul_div_cancel_right₀ _ hunit]
  have hfloor : (q / unit).floor = n := by rw [hquotient, Rat.floor_intCast]
  unfold roundTo
  simp only [hfloor]
  rw [hquotient, sub_self, if_neg (by norm_num), ← h]

theorem power_sub {base : Nat} {k n : Nat} (h : k ≤ n) :
    power base ((k : Int) - n) = 1 / (base : Rat) ^ (n - k) := by
  unfold power
  split
  next hle =>
    have hkn : n - k = 0 := by omega
    have hz : ((k : Int) - n).toNat = 0 := by omega
    rw [hkn, hz, pow_zero, div_one]
  next =>
    have hz : (-((k : Int) - n)).toNat = n - k := by omega
    rw [hz]

/-- Integers of at most 53 bits are doubles. -/
theorem toDouble_int {n : Int} (h : n.natAbs < 2 ^ 53) : toDouble n = .finite n := by
  by_cases hzero : n = 0
  · rw [hzero]
    rfl
  · have habs : (|(n : Rat)| : Rat) = (n.natAbs : Rat) := by
      rw [Nat.cast_natAbs, Int.cast_abs]
    have hne : n.natAbs ≠ 0 := Int.natAbs_ne_zero.mpr hzero
    have hlog : n.natAbs.log2 ≤ 52 := by
      have hlt := (Nat.log2_lt hne).mpr h
      omega
    have hlow : power 2 (n.natAbs.log2 : Int) ≤ (n.natAbs : Rat) := by
      have hself := Nat.log2_self_le hne
      unfold power
      rw [if_pos (Int.natCast_nonneg _), Int.toNat_natCast]
      exact_mod_cast hself
    have hunit : power 2 (max ((n.natAbs.log2 : Int) - 52) (-1074)) =
        1 / (2 : Rat) ^ (52 - n.natAbs.log2) := by
      rw [max_eq_left (by omega)]
      exact power_sub hlog
    have hround : roundTo (1 / (2 : Rat) ^ (52 - n.natAbs.log2)) (n.natAbs : Rat) = n.natAbs := by
      refine roundTo_of_multiple (by positivity) ((n.natAbs * 2 ^ (52 - n.natAbs.log2) : Nat) : Int)
        ?_
      rw [Int.cast_natCast, Nat.cast_mul, Nat.cast_pow, Nat.cast_ofNat]
      field_simp
    have hsmall : ¬ power 2 1024 ≤ (n.natAbs : Rat) := by
      have hbig : n.natAbs < 2 ^ (1024 : Int).toNat :=
        h.trans (Nat.pow_lt_pow_right (by decide) (by decide))
      unfold power
      rw [if_pos (by decide), not_le, ← Nat.cast_pow, Nat.cast_lt]
      exact hbig
    unfold toDouble
    rw [if_neg (by exact_mod_cast hzero)]
    simp only [Rat.num_intCast, Rat.den_intCast, habs]
    have hone : (1 : Nat).log2 = 0 := by decide
    rw [hone, Nat.cast_zero, sub_zero, if_pos hlow, hunit, hround, if_neg hsmall]
    congr 1
    rw [← habs]
    split
    next hneg => rw [abs_of_neg hneg, neg_neg]
    next hpos => rw [abs_of_nonneg (not_lt.mp hpos)]

theorem toLiteral_int {n : Int} (h : n.natAbs < 2 ^ 53) : toLiteral (n : Rat) = .integer n := by
  unfold toLiteral
  rw [Rat.den_intCast, Rat.num_intCast, if_pos ⟨rfl, h.trans (by norm_num)⟩]

/-! ## Values -/

/-- A decoder of documents, and how JavaScript sees what it decodes. -/
structure Faithful {α : Type} (asValue : Doc → Option α) (shows : α → JsValue → Prop) : Prop where
  read : ∀ {d a}, asValue d = some a → shows a (ofDoc d)
  write : ∀ {a v}, shows a v → asValue (toDoc v) = some a

def isText (s : String) (v : JsValue) : Prop := v = .string (encode s)

def isBool (b : Bool) (v : JsValue) : Prop := v = .bool b

def isNumber (n : Int) (v : JsValue) : Prop := v = .number (.finite n)

def isTexts (texts : List String) (v : JsValue) : Prop :=
  v = .array (texts.map fun s => .string (encode s))

theorem eq_string_of_asString {d : Doc} {s : String} (h : d.asString = some s) :
    d = .string (encode s) := by
  cases d with
  | string units =>
    rw [encode_of_decode h]
  | _ => cases h

theorem faithful_string : Faithful Doc.asString isText where
  read := by
    intro d s h
    rw [eq_string_of_asString h]
    rfl
  write := by
    rintro s v rfl
    exact decode_encode s

theorem faithful_bool : Faithful Doc.asBool isBool where
  read := by
    intro d b h
    cases d with
    | bool b' =>
      cases h
      rfl
    | _ => cases h
  write := by
    rintro b v rfl
    rfl

theorem asArray_map_string (texts : List String) :
    Doc.asArray Doc.asString (.array (texts.map fun s => .string (encode s))) = some texts := by
  change (texts.map fun s => Doc.string (encode s)).mapM Doc.asString = some texts
  induction texts with
  | nil => rfl
  | cons s texts ih =>
    rw [List.map_cons, List.mapM_cons, ih]
    change (decode (encode s)).bind _ = _
    rw [decode_encode]
    rfl

theorem eq_map_string_of_mapM {items : List Doc} {texts : List String}
    (h : items.mapM Doc.asString = some texts) :
    items = texts.map fun s => Doc.string (encode s) := by
  induction items generalizing texts with
  | nil =>
    cases h
    rfl
  | cons item items ih =>
    rw [List.mapM_cons] at h
    obtain ⟨s, hs, h⟩ := Option.bind_eq_some_iff.mp h
    obtain ⟨rest, hrest, h⟩ := Option.bind_eq_some_iff.mp h
    cases h
    rw [ih hrest, eq_string_of_asString hs]
    rfl

theorem faithful_strings : Faithful (Doc.asArray Doc.asString) isTexts where
  read := by
    intro d texts h
    cases d with
    | array items =>
      rw [isTexts, ofDoc, ofItems_eq_map, eq_map_string_of_mapM h, List.map_map]
      rfl
    | _ => cases h
  write := by
    rintro texts v rfl
    rw [toDoc, toItems_eq_map, List.map_map]
    exact asArray_map_string texts

/-- Enumerations are decoded from their names. -/
theorem faithful_named {α : Type} {ofText : String → Option α} {name : α → String}
    (hname : ∀ a, ofText (name a) = some a) (hof : ∀ {s a}, ofText s = some a → name a = s) :
    Faithful (fun d => d.asString.bind ofText) fun a v => isText (name a) v where
  read := by
    intro d a h
    obtain ⟨s, hs, ha⟩ := Option.bind_eq_some_iff.mp h
    rw [hof ha]
    exact faithful_string.read hs
  write := by
    intro a v h
    rw [faithful_string.write h]
    exact hname a

/-- Integers of a machine type, none of them past 53 bits. -/
theorem faithful_integer {α : Type} {low high : Int} {ofInt : Int → α} {toInt : α → Int}
    (hof : ∀ a, ofInt (toInt a) = a) (hrange : ∀ a, low ≤ toInt a ∧ toInt a ≤ high)
    (hto : ∀ n, low ≤ n → n ≤ high → toInt (ofInt n) = n) (hlow : -2 ^ 53 < low)
    (hhigh : high < 2 ^ 53) :
    Faithful (fun d => (d.asInteger low high).map ofInt) fun a v => isNumber (toInt a) v where
  read := by
    intro d a h
    obtain ⟨n, hn, rfl⟩ := Option.map_eq_some_iff.mp h
    unfold Doc.asInteger at hn
    split at hn
    next k =>
      split at hn
      next hk =>
        cases hn
        have hdouble : toDouble n = .finite n := toDouble_int (by omega)
        rw [isNumber, hto n hk.1 hk.2, ofDoc, ofLiteral, hdouble]
      next => cases hn
    next => cases hn
  write := by
    rintro a v rfl
    obtain ⟨hl, hh⟩ := hrange a
    rw [toDoc, toLiteral_int (by omega), Doc.asInteger, if_pos ⟨hl, hh⟩, Option.map_some, hof]

/-! ## Fields -/

section Fields

variable {α : Type} {asValue : Doc → Option α} {shows : α → JsValue → Prop}

/-- The property shows the value of a required field. -/
def Required (shows : α → JsValue → Prop) (props : Props) (key : String) (a : α) : Prop :=
  ∃ v, props.get? key = some v ∧ shows a v

/-- An absent property and a null one both show `none`. -/
def Optional (shows : α → JsValue → Prop) (props : Props) (key : String) : Option α → Prop
  | none => props.get? key = none ∨ props.get? key = some .null
  | some a => Required shows props key a

/-- An absent property shows `none`, a null one `some none`. -/
def DoubleOption (shows : α → JsValue → Prop) (props : Props) (key : String) :
    Option (Option α) → Prop
  | none => props.get? key = none
  | some none => props.get? key = some .null
  | some (some a) => Required shows props key a

variable {known : List String} {fields : Fields} {props : Props} {key : String}

theorem Faithful.required_read (h : Faithful asValue shows)
    (hfields : Fields.wellFormed known fields = true) (hkey : key ∈ known) {a : α}
    (ha : fields.required asValue key = some a) : Required shows (ofFields fields) key a := by
  obtain ⟨d, hd, hda⟩ := Option.bind_eq_some_iff.mp ha
  refine ⟨ofDoc d, ?_, h.read hda⟩
  rw [get?_ofFields hfields hkey, hd]
  rfl

theorem Faithful.optional_read (h : Faithful asValue shows)
    (hfields : Fields.wellFormed known fields = true) (hkey : key ∈ known) {o : Option α}
    (ho : fields.optional asValue key = some o) : Optional shows (ofFields fields) key o := by
  unfold Fields.optional at ho
  split at ho
  next hget =>
    cases ho
    left
    rw [get?_ofFields hfields hkey, hget]
    rfl
  next hget =>
    cases ho
    right
    rw [get?_ofFields hfields hkey, hget]
    rfl
  next d _ hget =>
    obtain ⟨a, ha, rfl⟩ := Option.map_eq_some_iff.mp ho
    refine ⟨ofDoc d, ?_, h.read ha⟩
    rw [get?_ofFields hfields hkey, hget]
    rfl

theorem Faithful.doubleOption_read (h : Faithful asValue shows)
    (hfields : Fields.wellFormed known fields = true) (hkey : key ∈ known)
    {o : Option (Option α)} (ho : fields.doubleOption asValue key = some o) :
    DoubleOption shows (ofFields fields) key o := by
  unfold Fields.doubleOption at ho
  split at ho
  next hget =>
    cases ho
    change Props.get? _ key = none
    rw [get?_ofFields hfields hkey, hget]
    rfl
  next hget =>
    cases ho
    change Props.get? _ key = some .null
    rw [get?_ofFields hfields hkey, hget]
    rfl
  next d _ hget =>
    obtain ⟨a, ha, rfl⟩ := Option.map_eq_some_iff.mp ho
    refine ⟨ofDoc d, ?_, h.read ha⟩
    rw [get?_ofFields hfields hkey, hget]
    rfl

theorem Faithful.required_write (h : Faithful asValue shows) {a : α}
    (ha : Required shows props key a) : Fields.required asValue (toFields props) key = some a := by
  obtain ⟨v, hv, hshows⟩ := ha
  rw [Fields.required, get?_toFields, hv]
  exact h.write hshows

/-- What shows a value is not written as null. -/
theorem Faithful.toDoc_ne_null (h : Faithful asValue shows) {a : α} {v : JsValue}
    (hv : shows a v) (hnull : asValue .null = none) : toDoc v ≠ .null := by
  intro heq
  have hwrite := h.write hv
  rw [heq, hnull] at hwrite
  cases hwrite

theorem Faithful.optional_write (h : Faithful asValue shows) (hnull : asValue .null = none)
    {o : Option α} (ho : Optional shows props key o) :
    Fields.optional asValue (toFields props) key = some o := by
  unfold Fields.optional
  rw [get?_toFields]
  cases o with
  | none => rcases ho with hget | hget <;> rw [hget] <;> rfl
  | some a =>
    obtain ⟨v, hv, hshows⟩ := ho
    have hne := h.toDoc_ne_null hshows hnull
    rw [hv, Option.map_some]
    split
    next heq => cases heq
    next heq => exact absurd (Option.some.inj heq) hne
    next d _ heq => rw [← Option.some.inj heq, h.write hshows, Option.map_some]

theorem Faithful.doubleOption_write (h : Faithful asValue shows) (hnull : asValue .null = none)
    {o : Option (Option α)} (ho : DoubleOption shows props key o) :
    Fields.doubleOption asValue (toFields props) key = some o := by
  unfold Fields.doubleOption
  rw [get?_toFields]
  match o with
  | none =>
    rw [show props.get? key = none from ho]
    rfl
  | some none =>
    rw [show props.get? key = some .null from ho]
    rfl
  | some (some a) =>
    obtain ⟨v, hv, hshows⟩ := ho
    have hne := h.toDoc_ne_null hshows hnull
    rw [hv, Option.map_some]
    split
    next heq => cases heq
    next heq => exact absurd (Option.some.inj heq) hne
    next d _ heq => rw [← Option.some.inj heq, h.write hshows, Option.map_some]

end Fields

end Climon.Lib.JsonAgreement
