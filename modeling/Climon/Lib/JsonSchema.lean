import Climon.Lib.JsonAgreement

namespace Climon.Lib.JsonSchema

open Climon.Lib.JavaScript Climon.Lib.JavaScript.JsValue Climon.Lib.JsonAgreement
  Climon.Lib.JsonDocument Climon.Lib.Utf16

/-!
# Records as JSON objects

A schema lists the fields of a record: how each is written and decoded, and how JavaScript sees
it. What holds of every field holds of the record.
-/

/-! ## Codecs -/

structure Codec (α : Type) where
  ofValue : α → Doc
  asValue : Doc → Option α
  shows : α → JsValue → Prop
  asValue_ofValue : ∀ a, asValue (ofValue a) = some a
  asValue_null : asValue .null = none
  faithful : Faithful asValue shows

namespace Codec

def text : Codec String where
  ofValue s := .string (encode s)
  asValue := Doc.asString
  shows := isText
  asValue_ofValue := decode_encode
  asValue_null := rfl
  faithful := faithful_string

def texts : Codec (List String) where
  ofValue texts := .array (texts.map fun s => .string (encode s))
  asValue := Doc.asArray Doc.asString
  shows := isTexts
  asValue_ofValue := fun _ => asArray_map_string _
  asValue_null := rfl
  faithful := faithful_strings

def bool : Codec Bool where
  ofValue := .bool
  asValue := Doc.asBool
  shows := isBool
  asValue_ofValue := fun _ => rfl
  asValue_null := rfl
  faithful := faithful_bool

/-- An enumeration, by the names of its variants. -/
def named {α : Type} (ofText : String → Option α) (name : α → String)
    (hname : ∀ a, ofText (name a) = some a) (hof : ∀ {s a}, ofText s = some a → name a = s) :
    Codec α where
  ofValue a := .string (encode (name a))
  asValue d := d.asString.bind ofText
  shows a := isText (name a)
  asValue_ofValue a := by
    change (decode (encode (name a))).bind ofText = _
    rw [decode_encode]
    exact hname a
  asValue_null := rfl
  faithful := faithful_named hname hof

/-- A machine integer of at most 53 bits. -/
def integer {α : Type} (low high : Int) (ofInt : Int → α) (toInt : α → Int)
    (hof : ∀ a, ofInt (toInt a) = a) (hrange : ∀ a, low ≤ toInt a ∧ toInt a ≤ high)
    (hto : ∀ n, low ≤ n → n ≤ high → toInt (ofInt n) = n) (hlow : -2 ^ 53 < low)
    (hhigh : high < 2 ^ 53) : Codec α where
  ofValue a := .number (.integer (toInt a))
  asValue d := (d.asInteger low high).map ofInt
  shows a := isNumber (toInt a)
  asValue_ofValue a := by
    rw [Doc.asInteger, if_pos (hrange a), Option.map_some, hof]
  asValue_null := rfl
  faithful := faithful_integer hof hrange hto hlow hhigh

def uint8 : Codec UInt8 :=
  integer 0 255 (fun n => UInt8.ofNat n.toNat) (fun a => a.toNat) (fun a => by simp)
    (fun a => ⟨Int.natCast_nonneg _, by have := a.toNat_lt; omega⟩)
    (fun n hl hh => by
      rw [UInt8.toNat_ofNat_of_lt' (by simp only [UInt8.size]; omega)]
      exact Int.toNat_of_nonneg hl) (by decide) (by decide)

def uint16 : Codec UInt16 :=
  integer 0 65535 (fun n => UInt16.ofNat n.toNat) (fun a => a.toNat) (fun a => by simp)
    (fun a => ⟨Int.natCast_nonneg _, by have := a.toNat_lt; omega⟩)
    (fun n hl hh => by
      rw [UInt16.toNat_ofNat_of_lt' (by simp only [UInt16.size]; omega)]
      exact Int.toNat_of_nonneg hl) (by decide) (by decide)

def uint32 : Codec UInt32 :=
  integer 0 4294967295 (fun n => UInt32.ofNat n.toNat) (fun a => a.toNat) (fun a => by simp)
    (fun a => ⟨Int.natCast_nonneg _, by have := a.toNat_lt; omega⟩)
    (fun n hl hh => by
      rw [UInt32.toNat_ofNat_of_lt' (by simp only [UInt32.size]; omega)]
      exact Int.toNat_of_nonneg hl) (by decide) (by decide)

def int32 : Codec Int32 :=
  integer (-2147483648) 2147483647 Int32.ofInt Int32.toInt (fun a => Int32.ofInt_toInt a)
    (fun a => ⟨a.le_toInt, by have := a.toInt_lt; omega⟩)
    (fun n hl hh => Int32.toInt_ofInt_of_le (by omega) (by omega)) (by decide) (by decide)

end Codec

/-! ## Fields -/

/-- A field of a record `σ`. An absent one is written as nothing. -/
structure RecordField (σ : Type) where
  key : String
  written : σ → Option Doc
  decodes : Fields → σ → Prop
  shows : Props → σ → Prop
  decodes_written : ∀ {fields s}, Fields.get? fields key = written s → decodes fields s
  read : ∀ {known fields s}, Fields.wellFormed known fields = true → key ∈ known →
    decodes fields s → shows (ofFields fields) s
  write : ∀ {props s}, shows props s → decodes (toFields props) s
  shows_congr : ∀ {props props' s}, Props.get? props' key = props.get? key → shows props s →
    shows props' s

namespace RecordField

variable {σ α : Type}

def required (key : String) (codec : Codec α) (get : σ → α) : RecordField σ where
  key := key
  written s := some (codec.ofValue (get s))
  decodes fields s := fields.required codec.asValue key = some (get s)
  shows props s := Required codec.shows props key (get s)
  decodes_written h := by
    rw [Fields.required, h]
    exact codec.asValue_ofValue _
  read hfields hkey h := codec.faithful.required_read hfields hkey h
  write h := codec.faithful.required_write h
  shows_congr hget h := by
    rw [Required, hget]
    exact h

theorem optional_ofValue (codec : Codec α) {fields : Fields} {key : String} {a : α}
    (h : fields.get? key = some (codec.ofValue a)) :
    fields.optional codec.asValue key = some (some a) := by
  have ha := codec.asValue_ofValue a
  unfold Fields.optional
  rw [h]
  split
  next heq => cases heq
  next heq =>
    rw [Option.some.inj heq, codec.asValue_null] at ha
    cases ha
  next d _ heq => rw [← Option.some.inj heq, ha, Option.map_some]

def optional (key : String) (codec : Codec α) (get : σ → Option α) : RecordField σ where
  key := key
  written s := (get s).map codec.ofValue
  decodes fields s := fields.optional codec.asValue key = some (get s)
  shows props s := Optional codec.shows props key (get s)
  decodes_written {fields s} h := by
    cases hs : get s with
    | none =>
      rw [hs] at h
      rw [Fields.optional, h]
      rfl
    | some a =>
      rw [hs] at h
      exact optional_ofValue codec h
  read hfields hkey h := codec.faithful.optional_read hfields hkey h
  write h := codec.faithful.optional_write codec.asValue_null h
  shows_congr {props props' s} hget h := by
    cases hs : get s <;> simp only [hs, Optional, Required, hget] at h ⊢ <;> exact h

def doubleOption (key : String) (codec : Codec α) (get : σ → Option (Option α)) : RecordField σ where
  key := key
  written s := (get s).map fun o => (o.map codec.ofValue).getD .null
  decodes fields s := fields.doubleOption codec.asValue key = some (get s)
  shows props s := DoubleOption codec.shows props key (get s)
  decodes_written {fields s} h := by
    unfold Fields.doubleOption
    rw [h]
    match hs : get s with
    | none => rfl
    | some none => rfl
    | some (some a) =>
      have ha := codec.asValue_ofValue a
      simp only [Option.map_some, Option.getD_some]
      split
      next heq => cases heq
      next heq =>
        rw [Option.some.inj heq, codec.asValue_null] at ha
        cases ha
      next d _ heq => rw [← Option.some.inj heq, ha, Option.map_some]
  read hfields hkey h := codec.faithful.doubleOption_read hfields hkey h
  write h := codec.faithful.doubleOption_write codec.asValue_null h
  shows_congr {props props' s} hget h := by
    match hs : get s with
    | none => simp only [hs, DoubleOption, hget] at h ⊢; exact h
    | some none => simp only [hs, DoubleOption, hget] at h ⊢; exact h
    | some (some a) => simp only [hs, DoubleOption, Required, hget] at h ⊢; exact h

end RecordField

/-! ## Records -/

section Records

variable {σ : Type}

abbrev Schema (σ : Type) := List (RecordField σ)

def Schema.keys (schema : Schema σ) : List String := schema.map (·.key)

/-- The object written for a record. -/
def Schema.write (schema : Schema σ) (s : σ) : Fields :=
  schema.filterMap fun field => (field.written s).map fun d => (encode field.key, d)

/-- The keys are well formed and every field decodes to that of `s`. -/
structure Schema.Decodes (schema : Schema σ) (fields : Fields) (s : σ) : Prop where
  wellFormed : fields.wellFormed schema.keys = true
  fields : ∀ field ∈ schema, field.decodes fields s

/-- JavaScript sees the fields of `s` in the object. -/
def Schema.Shows (schema : Schema σ) (props : Props) (s : σ) : Prop :=
  ∀ field ∈ schema, field.shows props s

variable {schema : Schema σ} {s : σ}

theorem key_of_mem_write {entry : List UInt16 × Doc} (h : entry ∈ schema.write s) :
    ∃ key ∈ schema.keys, entry.1 = encode key := by
  obtain ⟨field, hfield, hentry⟩ := List.mem_filterMap.mp h
  obtain ⟨d, -, rfl⟩ := Option.map_eq_some_iff.mp hentry
  exact ⟨field.key, List.mem_map_of_mem hfield, rfl⟩

theorem write_cons_some {field : RecordField σ} {d : Doc} (h : field.written s = some d) :
    Schema.write (field :: schema) s = (encode field.key, d) :: Schema.write schema s := by
  unfold Schema.write
  rw [List.filterMap_cons, h]
  rfl

theorem write_cons_none {field : RecordField σ} (h : field.written s = none) :
    Schema.write (field :: schema) s = Schema.write schema s := by
  unfold Schema.write
  rw [List.filterMap_cons, h]
  rfl

theorem get?_write_of_notMem {key : String} (h : key ∉ schema.keys) :
    Fields.get? (schema.write s) key = none := by
  rw [Fields.get?, List.lookup_eq_none_iff]
  intro entry hentry
  obtain ⟨name, hname, heq⟩ := key_of_mem_write hentry
  rw [heq]
  exact bne_iff_ne.mpr fun hsame => h (encode_injective hsame ▸ hname)

theorem get?_write (hkeys : schema.keys.Nodup) {field : RecordField σ} (hfield : field ∈ schema) :
    Fields.get? (schema.write s) field.key = field.written s := by
  induction schema with
  | nil => cases hfield
  | cons other schema ih =>
    obtain ⟨hnew, hkeys⟩ := List.nodup_cons.mp hkeys
    rcases List.mem_cons.mp hfield with rfl | hrest
    · cases hwritten : field.written s with
      | some d => rw [write_cons_some hwritten, Fields.get?, List.lookup_cons_self]
      | none =>
        rw [write_cons_none hwritten]
        exact get?_write_of_notMem hnew
    · have hne : field.key ≠ other.key := by
        intro heq
        have hmem : field.key ∈ Schema.keys schema := List.mem_map_of_mem hrest
        rw [heq] at hmem
        exact hnew hmem
      have hunits : (encode field.key == encode other.key) = false :=
        beq_eq_false_iff_ne.mpr fun heq => hne (encode_injective heq)
      cases hwritten : other.written s with
      | some d =>
        rw [write_cons_some hwritten, Fields.get?, List.lookup_cons, hunits]
        exact ih hkeys hrest
      | none =>
        rw [write_cons_none hwritten]
        exact ih hkeys hrest

theorem nodup_keys_write (hkeys : schema.keys.Nodup) :
    ((schema.write s).map (·.1)).Nodup := by
  have hsub : ∀ schema : Schema σ,
      ((schema.write s).map (·.1)).Sublist (schema.keys.map encode) := by
    intro schema
    induction schema with
    | nil => exact List.Sublist.slnil
    | cons field schema ih =>
      cases hwritten : field.written s with
      | some d =>
        rw [write_cons_some hwritten]
        exact ih.cons_cons _
      | none =>
        rw [write_cons_none hwritten]
        exact ih.cons _
  exact (hkeys.map fun _ _ => encode_injective).sublist (hsub schema)

/-- What is written for a record decodes to it. -/
theorem decodes_write (hkeys : schema.keys.Nodup) : schema.Decodes (schema.write s) s where
  wellFormed := by
    unfold Fields.wellFormed
    rw [Bool.and_eq_true, List.all_eq_true, List.all_eq_true]
    refine ⟨fun entry hentry => ?_, fun key _ => ?_⟩
    · obtain ⟨key, -, heq⟩ := key_of_mem_write hentry
      rw [heq]
      exact decode_encode_isSome key
    · exact decide_eq_true (List.nodup_iff_count_le_one.mp (nodup_keys_write hkeys) _)
  fields field hfield := field.decodes_written (get?_write hkeys hfield)

/-- JavaScript sees in a decoded object what was decoded from it. -/
theorem Schema.Decodes.shows {fields : Fields} (h : schema.Decodes fields s) :
    schema.Shows (ofFields fields) s :=
  fun field hfield => field.read h.wellFormed (List.mem_map_of_mem hfield) (h.fields field hfield)

/-- What JavaScript writes of an object decodes to what it sees in it. -/
theorem Schema.Shows.decodes {props : Props} (h : schema.Shows props s) (hprops : Clean props) :
    schema.Decodes (toFields props) s where
  wellFormed := hprops.wellFormed _
  fields field hfield := field.write (h field hfield)

/-- A property set to what shows `t`, where `s` and `t` agree on all other fields. -/
theorem Schema.Shows.assign {props : Props} (h : schema.Shows props s) (hkeys : schema.keys.Nodup)
    {t : σ} (field : RecordField σ) (hfield : field ∈ schema) {value : Option JsValue}
    (hself : field.shows (props.assign field.key value) t)
    (hothers : ∀ other ∈ schema, other.key ≠ field.key → ∀ props, other.shows props s →
      other.shows props t) : schema.Shows (props.assign field.key value) t := by
  intro other hother
  by_cases hkey : other.key = field.key
  · rw [List.inj_on_of_nodup_map hkeys hother hfield hkey]
    exact hself
  · have hsame := other.shows_congr (get?_assign_of_ne props value hkey) (h other hother)
    exact hothers other hother hkey _ hsame

/-- A nested record. -/
def Codec.record (schema : Schema σ) (hkeys : schema.keys.Nodup)
    (decodeFields : Fields → Option σ)
    (hdecode : ∀ fields s, decodeFields fields = some s ↔ schema.Decodes fields s) : Codec σ where
  ofValue s := .object (schema.write s)
  asValue
    | .object fields => decodeFields fields
    | _ => none
  shows s v := ∃ props, v = .object props ∧ Clean props ∧ schema.Shows props s
  asValue_ofValue s := (hdecode _ s).mpr (decodes_write hkeys)
  asValue_null := rfl
  faithful := by
    refine ⟨fun {d s} h => ?_, fun {s v} h => ?_⟩
    · cases d with
      | object fields =>
        have hdecodes := (hdecode fields s).mp h
        exact ⟨ofFields fields, rfl, clean_ofFields hdecodes.wellFormed, hdecodes.shows⟩
      | _ => cases h
    · obtain ⟨props, rfl, hprops, hshows⟩ := h
      exact (hdecode _ s).mpr (hshows.decodes hprops)

end Records

end Climon.Lib.JsonSchema
