import Climon.Lib.JsonPrint
import Climon.Lib.JsonSchema

namespace Climon.Lib.DocumentPrint

open Climon.Lib.JsonDocument Climon.Lib.JsonPrint Climon.Lib.JsonSchema Climon.Lib.Utf16

/-! # Documents as compact JSON -/

/-- The text of code units without lone surrogates. -/
def textOf (units : List UInt16) : String := (decode units).getD ""

section

variable (doubleText : Rat → List Char)

/-- A double past the largest is printed as null. -/
def literalText : Literal → List Char
  | .integer n => n.repr.toList
  | .decimal q => doubleText q
  | .huge _ => "null".toList

mutual

/-- `doubleText` prints a double. -/
def compact : Doc → List Char
  | .null => "null".toList
  | .bool b => (if b then "true" else "false").toList
  | .number literal => literalText doubleText literal
  | .string units => quoted (escape (textOf units))
  | .array items => '[' :: commas ',' (compactItems items) ++ [']']
  | .object fields => '\x7b' :: commas ',' (compactFields fields) ++ ['\x7d']

def compactItems : List Doc → List (List Char)
  | [] => []
  | item :: items => compact item :: compactItems items

def compactFields : List (List UInt16 × Doc) → List (List Char)
  | [] => []
  | (key, value) :: fields =>
    (quoted (escape (textOf key)) ++ ':' :: compact value) :: compactFields fields

end

end

/-! ## Documents without doubles -/

mutual

/-- Every number of the document is an integer literal. -/
def integral : Doc → Bool
  | .number (.integer _) => true
  | .number _ => false
  | .array items => integralItems items
  | .object fields => integralFields fields
  | _ => true

def integralItems : List Doc → Bool
  | [] => true
  | item :: items => integral item && integralItems items

def integralFields : List (List UInt16 × Doc) → Bool
  | [] => true
  | (_, value) :: fields => integral value && integralFields fields

end

theorem integralFields_eq (fields : List (List UInt16 × Doc)) :
    integralFields fields = fields.all fun field => integral field.2 := by
  induction fields with
  | nil => rfl
  | cons field fields ih => rw [integralFields, ih, List.all_cons]

theorem integralItems_eq (items : List Doc) : integralItems items = items.all integral := by
  induction items with
  | nil => rfl
  | cons item items ih => rw [integralItems, ih, List.all_cons]

section

variable {σ α : Type}

def IntegralCodec (codec : Codec α) : Prop := ∀ a, integral (codec.ofValue a) = true

def IntegralField (field : RecordField σ) : Prop :=
  ∀ s d, field.written s = some d → integral d = true

theorem integral_write {schema : Schema σ} (h : ∀ field ∈ schema, IntegralField field) (s : σ) :
    integralFields (schema.write s) = true := by
  rw [integralFields_eq, List.all_eq_true]
  intro entry hentry
  obtain ⟨field, hfield, hwritten⟩ := List.mem_filterMap.mp hentry
  obtain ⟨d, hd, rfl⟩ := Option.map_eq_some_iff.mp hwritten
  exact h field hfield s d hd

@[simp] theorem integral_text : IntegralCodec Codec.text := fun _ => rfl

@[simp] theorem integral_texts : IntegralCodec Codec.texts := by
  intro texts
  change integralItems _ = true
  rw [integralItems_eq, List.all_map]
  exact List.all_eq_true.mpr fun _ _ => rfl

@[simp] theorem integral_bool : IntegralCodec Codec.bool := fun _ => rfl

@[simp] theorem integral_uint8 : IntegralCodec Codec.uint8 := fun _ => rfl

@[simp] theorem integral_uint16 : IntegralCodec Codec.uint16 := fun _ => rfl

@[simp] theorem integral_uint32 : IntegralCodec Codec.uint32 := fun _ => rfl

@[simp] theorem integral_int32 : IntegralCodec Codec.int32 := fun _ => rfl

@[simp] theorem integral_required {key : String} {codec : Codec α} {get : σ → α}
    (h : IntegralCodec codec) : IntegralField (.required key codec get) := by
  intro s d hwritten
  cases hwritten
  exact h _

@[simp] theorem integral_optional {key : String} {codec : Codec α} {get : σ → Option α}
    (h : IntegralCodec codec) : IntegralField (.optional key codec get) := by
  intro s d hwritten
  obtain ⟨a, -, rfl⟩ := Option.map_eq_some_iff.mp hwritten
  exact h a

@[simp] theorem integral_doubleOption {key : String} {codec : Codec α}
    {get : σ → Option (Option α)} (h : IntegralCodec codec) :
    IntegralField (.doubleOption key codec get) := by
  intro s d hwritten
  obtain ⟨a, -, rfl⟩ := Option.map_eq_some_iff.mp hwritten
  cases a with
  | none => rfl
  | some a => exact h a

end

/-! ## One line -/

theorem newline_notMem_escape (s : String) : '\n' ∉ escape s := by
  have hescapes : ∀ pair ∈ escapes, '\n' ≠ pair.2 := by decide
  have hdigits : ∀ n < 16, '\n' ≠ Nat.digitChar n := by decide
  intro h
  obtain ⟨c, -, hc⟩ := List.mem_flatMap.mp h
  unfold escapeChar at hc
  split at hc
  next d hlookup =>
    have hd := hescapes (c, d) (AssocList.mem_of_lookup hlookup)
    simp [hd] at hc
  next hlookup =>
    split at hc
    next hcontrol =>
      have hhigh := hdigits (c.toNat / 16) (by omega)
      have hlow := hdigits (c.toNat % 16) (by omega)
      simp [unitEscape, hhigh, hlow] at hc
    next =>
      rw [List.mem_singleton] at hc
      rw [← hc] at hlookup
      cases hlookup

theorem newline_notMem_quoted (s : String) : '\n' ∉ quoted (escape s) := by
  simp [quoted, newline_notMem_escape]

theorem newline_notMem_commas {pieces : List (List Char)} (h : ∀ piece ∈ pieces, '\n' ∉ piece) :
    '\n' ∉ commas ',' pieces := by
  cases pieces with
  | nil => exact List.not_mem_nil
  | cons piece pieces =>
    rw [List.forall_mem_cons] at h
    rw [commas, List.mem_append, List.mem_flatMap]
    rintro (hmem | ⟨next, hnext, hmem⟩)
    · exact h.1 hmem
    · rw [List.mem_cons] at hmem
      exact h.2 next hnext (hmem.resolve_left (by decide))

theorem newline_notMem_int (n : Int) : '\n' ∉ n.repr.toList := by
  have hdigits (m : Nat) : '\n' ∉ m.repr.toList := fun h =>
    absurd (DecimalText.digits_repr m _ h) (by decide)
  rw [Int.repr_eq_if]
  split
  · exact hdigits _
  · rw [String.toList_append, List.mem_append]
    rintro (h | h)
    · revert h
      decide
    · exact hdigits _ h

section

variable {doubleText : Rat → List Char}

mutual

/-- A document without doubles is printed in one line. -/
theorem newline_notMem_compact : ∀ {d : Doc}, integral d = true → '\n' ∉ compact doubleText d
  | .null, _ => by simp [compact]
  | .bool b, _ => by cases b <;> simp [compact]
  | .number (.integer n), _ => newline_notMem_int n
  | .number (.decimal _), h => by cases h
  | .number (.huge _), h => by cases h
  | .string _, _ => newline_notMem_quoted _
  | .array items, h => by
    rw [integral] at h
    have hitems := newline_notMem_commas (newline_notMem_items h)
    simp [compact, hitems]
  | .object fields, h => by
    rw [integral] at h
    have hfields := newline_notMem_commas (newline_notMem_fields h)
    simp [compact, hfields]

theorem newline_notMem_items : ∀ {items : List Doc}, integralItems items = true →
    ∀ piece ∈ compactItems doubleText items, '\n' ∉ piece
  | [], _ => nofun
  | item :: items, h => by
    rw [integralItems, Bool.and_eq_true] at h
    rw [compactItems, List.forall_mem_cons]
    exact ⟨newline_notMem_compact h.1, newline_notMem_items h.2⟩

theorem newline_notMem_fields : ∀ {fields : List (List UInt16 × Doc)},
    integralFields fields = true → ∀ piece ∈ compactFields doubleText fields, '\n' ∉ piece
  | [], _ => nofun
  | (key, value) :: fields, h => by
    rw [integralFields, Bool.and_eq_true] at h
    have hvalue := newline_notMem_compact h.1
    rw [compactFields, List.forall_mem_cons]
    refine ⟨?_, newline_notMem_fields h.2⟩
    simp [newline_notMem_quoted, hvalue]

end

end

end Climon.Lib.DocumentPrint
