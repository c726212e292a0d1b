import Climon.Lib.JsonSchema

namespace Climon.Lib.JsonPath

open Climon.Lib.AssocList Climon.Lib.JavaScript Climon.Lib.JavaScript.JsValue
  Climon.Lib.JsonAgreement Climon.Lib.JsonDocument Climon.Lib.JsonSchema Climon.Lib.Utf16

/-!
# Places in JSON documents

Two documents say the same when every place holds the same in both: the order of the members of an
object says nothing, and of a repeated key the last one counts.
-/

inductive Place where
  | key (units : List UInt16)
  | index (i : Nat)

/-- What stands at a place, its items and members aside. -/
inductive Node where
  | null
  | bool (b : Bool)
  | number (n : Double)
  | string (units : List UInt16)
  | array (length : Nat)
  | object

/-- The number itself, where JavaScript has the nearest double. -/
def exact : Literal → Double
  | .integer n => .finite n
  | .decimal q => .finite q
  | .huge negative => .infinite negative

def node : Doc → Node
  | .null => .null
  | .bool b => .bool b
  | .number literal => .number (exact literal)
  | .string units => .string units
  | .array items => .array items.length
  | .object _ => .object

def member (fields : Fields) (key : List UInt16) : Option Doc := fields.reverse.lookup key

def child : Doc → Place → Option Doc
  | .array items, .index i => items[i]?
  | .object fields, .key key => member fields key
  | _, _ => none

def descend : Doc → List Place → Option Doc
  | d, [] => some d
  | d, place :: path => (child d place).bind fun d => descend d path

def contents (d : Doc) (path : List Place) : Option Node := (descend d path).map node

/-- Both are absent, or they say the same. -/
def Same (d e : Option Doc) : Prop := ∀ path, (d.bind (contents · path)) = e.bind (contents · path)

theorem Same.refl (d : Option Doc) : Same d d := fun _ => rfl

theorem Same.symm {d e : Option Doc} (h : Same d e) : Same e d := fun path => (h path).symm

theorem Same.trans {d e f : Option Doc} (h : Same d e) (k : Same e f) : Same d f :=
  fun path => (h path).trans (k path)

theorem contents_member (fields : Fields) (key : List UInt16) (path : List Place) :
    contents (.object fields) (.key key :: path) = (member fields key).bind (contents · path) := by
  unfold contents
  rw [descend, child, Option.map_bind]
  rfl

theorem same_none_iff {d : Option Doc} : Same d none ↔ d = none := by
  refine ⟨fun h => ?_, fun h => h ▸ Same.refl _⟩
  have hnode := h []
  cases d with
  | none => rfl
  | some d => cases hnode

theorem same_string_iff {d : Option Doc} {units : List UInt16} :
    Same d (some (.string units)) ↔ d = some (.string units) := by
  refine ⟨fun h => ?_, fun h => h ▸ Same.refl _⟩
  have hnode := h []
  match d with
  | none => cases hnode
  | some d =>
    cases d with
    | string other =>
      cases hnode
      rfl
    | _ => cases hnode

theorem member_eq_get? {known : List String} {fields : Fields}
    (h : Fields.wellFormed known fields = true) {key : String} (hkey : key ∈ known) :
    member fields (encode key) = fields.get? key := by
  unfold Fields.wellFormed at h
  rw [Bool.and_eq_true, List.all_eq_true, List.all_eq_true] at h
  exact lookup_reverse (of_decide_eq_true (h.2 key hkey))

theorem member_of_nodup {fields : Fields} (h : (fields.map (·.1)).Nodup) (key : List UInt16) :
    member fields key = fields.lookup key :=
  lookup_reverse (List.nodup_iff_count_le_one.mp h key)

theorem member_eq_none_iff {fields : Fields} {key : List UInt16} :
    member fields key = none ↔ key ∉ fields.map (·.1) := by
  unfold member
  rw [List.lookup_eq_none_iff]
  constructor
  · intro h hmem
    obtain ⟨field, hfield, heq⟩ := List.mem_map.mp hmem
    exact bne_iff_ne.mp (h field (List.mem_reverse.mpr hfield)) heq.symm
  · intro h field hfield
    refine bne_iff_ne.mpr fun heq => h ?_
    rw [heq]
    exact List.mem_map_of_mem (List.mem_reverse.mp hfield)

theorem same_object_iff {fields others : Fields} :
    Same (some (.object fields)) (some (.object others)) ↔
      ∀ key, Same (member fields key) (member others key) := by
  constructor
  · intro h key path
    have hpath : contents (.object fields) (.key key :: path) =
        contents (.object others) (.key key :: path) := h (.key key :: path)
    rwa [contents_member, contents_member] at hpath
  · intro h path
    change contents (.object fields) path = contents (.object others) path
    match path with
    | [] => rfl
    | .index i :: path => rfl
    | .key key :: path =>
      rw [contents_member, contents_member]
      exact h key path

/-! ## What JavaScript writes back -/

/-- What `JSON.stringify` makes of what `JSON.parse` returns. -/
def rewrite (d : Doc) : Doc := toDoc (ofDoc d)

theorem lookup_ofFields_last (fields : Fields) (key : List UInt16) :
    (ofFields fields).lookup key = (member fields key).map ofDoc := by
  unfold member
  induction fields with
  | nil => rfl
  | cons field fields ih =>
    obtain ⟨name, value⟩ := field
    rw [List.reverse_cons, List.lookup_append, ofFields]
    by_cases hname : name = key
    · subst hname
      rw [List.lookup_cons_self]
      split
      next hany =>
        obtain ⟨prop, hprop, hkey⟩ := List.any_eq_true.mp hany
        have hsome := lookup_of_mem (nodup_ofFields fields) hprop
        rw [beq_iff_eq.mp hkey] at hsome
        rw [ih] at hsome ⊢
        obtain ⟨d, hd, -⟩ := Option.map_eq_some_iff.mp hsome
        rw [hd]
        rfl
      next hnew =>
        have hnone : (ofFields fields).lookup name = none := by
          rw [List.lookup_eq_none_iff]
          exact fun prop hprop => bne_iff_ne.mpr fun heq =>
            hnew (List.any_eq_true.mpr ⟨prop, hprop, beq_iff_eq.mpr heq.symm⟩)
        rw [ih] at hnone
        rw [List.lookup_cons_self, Option.map_eq_none_iff.mp hnone]
        rfl
    · have hkey : (key == name) = false := beq_eq_false_iff_ne.mpr fun heq => hname heq.symm
      rw [List.lookup_cons (k := name), hkey, List.lookup_nil, Option.or_none]
      split
      · exact ih
      · rw [List.lookup_cons, hkey]
        exact ih

theorem child_rewrite (d : Doc) (place : Place) :
    child (rewrite d) place = (child d place).map rewrite := by
  unfold rewrite
  cases d with
  | array items =>
    rw [ofDoc, toDoc, ofItems_eq_map, toItems_eq_map, List.map_map]
    cases place with
    | index i => exact List.getElem?_map
    | key key => rfl
  | object fields =>
    rw [ofDoc, toDoc]
    cases place with
    | index i => rfl
    | key key =>
      have hkeys : ((toFields (ofFields fields)).map (·.1)).Nodup := by
        rw [keys_toFields]
        exact nodup_ofFields fields
      change member _ _ = (member fields key).map _
      rw [member_of_nodup hkeys, lookup_toFields, lookup_ofFields_last, Option.map_map]
      rfl
  | number literal => cases hn : ofLiteral literal <;> simp only [ofDoc, hn, toDoc, child] <;> rfl
  | _ => rfl

theorem descend_rewrite (d : Doc) (path : List Place) :
    descend (rewrite d) path = (descend d path).map rewrite := by
  induction path generalizing d with
  | nil => rfl
  | cons place path ih =>
    rw [descend, descend, child_rewrite, Option.bind_map, Option.map_bind]
    exact congrArg _ (funext ih)

/-- A double holds the number. -/
def IsDouble (literal : Literal) : Prop :=
  ∃ q, ofLiteral literal = .finite q ∧ exact literal = .finite q

theorem exact_toLiteral (q : Rat) : exact (toLiteral q) = .finite q := by
  unfold toLiteral
  split
  next h => exact congrArg Double.finite ((Rat.den_eq_one_iff q).mp h.1)
  next => rfl

theorem node_rewrite_number (literal : Literal) :
    node (rewrite (.number literal)) = node (.number literal) ↔ IsDouble literal := by
  unfold rewrite IsDouble
  rw [ofDoc]
  cases hn : ofLiteral literal with
  | finite q =>
    rw [toDoc, node, node, exact_toLiteral]
    constructor
    · intro h
      exact ⟨q, rfl, (Node.number.inj h).symm⟩
    · rintro ⟨r, hr, hexact⟩
      cases hr
      rw [hexact]
  | infinite negative =>
    constructor
    · intro h
      rw [toDoc] at h
      cases h
    · rintro ⟨q, hq, -⟩
      cases hq

theorem node_rewrite {d : Doc} (h : ∀ literal, d = .number literal → IsDouble literal) :
    node (rewrite d) = node d := by
  cases d with
  | number literal => exact (node_rewrite_number literal).mpr (h literal rfl)
  | array items =>
    unfold rewrite
    rw [ofDoc, toDoc, node, node, ofItems_eq_map, toItems_eq_map, List.length_map, List.length_map]
  | _ => rfl

/-- Every number in it is a double. -/
def Doubles (d : Option Doc) : Prop :=
  ∀ path literal, (d.bind (descend · path)) = some (.number literal) → IsDouble literal

theorem doubles_none : Doubles none := fun _ _ => nofun

theorem doubles_string (units : List UInt16) : Doubles (some (.string units)) := by
  intro path literal h
  cases path <;> cases h

/-- What JavaScript writes back says the same exactly when every number in it is a double. -/
theorem same_rewrite_iff (d : Option Doc) : Same d (d.map rewrite) ↔ Doubles d := by
  cases d with
  | none => exact ⟨fun _ => doubles_none, fun _ => Same.refl none⟩
  | some d =>
    have hcontents (path : List Place) :
        contents (rewrite d) path = ((descend d path).map fun d => node (rewrite d)) := by
      unfold contents
      rw [descend_rewrite, Option.map_map]
      rfl
    constructor
    · intro h path literal hpath
      have hpath : descend d path = some (.number literal) := hpath
      have hnode : contents d path = contents (rewrite d) path := h path
      rw [hcontents, contents, hpath] at hnode
      exact (node_rewrite_number literal).mp (Option.some.inj hnode).symm
    · intro h path
      change contents d path = contents (rewrite d) path
      rw [hcontents, contents]
      cases hpath : descend d path with
      | none => rfl
      | some e =>
        refine congrArg some (node_rewrite fun literal heq => h path literal ?_).symm
        rw [Option.bind_some, hpath, heq]

/-! ## What a typed store writes back -/

section Records

variable {σ α : Type} {codec : Codec α} {key : String}

/-- Only one document decodes to each value. -/
def Exact (codec : Codec α) : Prop := ∀ {d a}, codec.asValue d = some a → d = codec.ofValue a

theorem exact_text : Exact Codec.text := eq_string_of_asString

theorem exact_texts : Exact Codec.texts := by
  intro d texts h
  cases d with
  | array items => exact congrArg Doc.array (eq_map_string_of_mapM h)
  | _ => cases h

theorem exact_bool : Exact Codec.bool := by
  intro d b h
  cases d with
  | bool b' =>
    cases h
    rfl
  | _ => cases h

theorem exact_named {ofText : String → Option α} (name : α → String)
    (hvalue : codec.asValue = fun d => d.asString.bind ofText)
    (hwritten : codec.ofValue = fun a => .string (encode (name a)))
    (hof : ∀ {s a}, ofText s = some a → name a = s) : Exact codec := by
  intro d a h
  rw [hvalue] at h
  obtain ⟨s, hs, ha⟩ := Option.bind_eq_some_iff.mp h
  rw [eq_string_of_asString hs, hwritten, ← hof ha]

theorem exact_integer {low high : Int} {ofInt : Int → α} {toInt : α → Int}
    {hof : ∀ a, ofInt (toInt a) = a} {hrange : ∀ a, low ≤ toInt a ∧ toInt a ≤ high}
    {hto : ∀ n, low ≤ n → n ≤ high → toInt (ofInt n) = n} {hlow : -2 ^ 53 < low}
    {hhigh : high < 2 ^ 53} :
    Exact (Codec.integer low high ofInt toInt hof hrange hto hlow hhigh) := by
  intro d a h
  obtain ⟨n, hn, rfl⟩ := Option.map_eq_some_iff.mp h
  cases d with
  | number literal =>
    cases literal with
    | integer k =>
      obtain ⟨hrange, heq⟩ := Option.ite_none_right_eq_some.mp hn
      cases heq
      change _ = Doc.number (.integer (toInt (ofInt n)))
      rw [hto n hrange.1 hrange.2]
    | _ => cases hn
  | _ => cases hn

/-- What is written of a decoded field says the same exactly where `lossless` holds. -/
def Restores (field : RecordField σ) (lossless : Option Doc → Prop) : Prop :=
  ∀ {fields s}, field.decodes fields s →
    (Same (Fields.get? fields field.key) (field.written s) ↔
      lossless (Fields.get? fields field.key))

theorem same_required (h : Exact codec) {get : σ → α} {fields : Fields} {s : σ}
    (hdecodes : (RecordField.required key codec get).decodes fields s) :
    Same (fields.get? key) ((RecordField.required key codec get).written s) := by
  obtain ⟨d, hd, ha⟩ := Option.bind_eq_some_iff.mp hdecodes
  change Same (Fields.get? fields key) (some (codec.ofValue (get s)))
  rw [hd, ← h ha]
  exact Same.refl _

theorem restores_required (h : Exact codec) (get : σ → α) :
    Restores (.required key codec get) (· ≠ some .null) := by
  intro fields s hdecodes
  refine iff_of_true (same_required h hdecodes) fun hnull => ?_
  obtain ⟨d, hd, ha⟩ := Option.bind_eq_some_iff.mp hdecodes
  have hd' : d = .null := Option.some.inj (hd.symm.trans hnull)
  rw [hd', codec.asValue_null] at ha
  cases ha

theorem restores_optional {lossless : Doc → Prop} (get : σ → Option α)
    (h : ∀ {d a}, codec.asValue d = some a →
      (Same (some d) (some (codec.ofValue a)) ↔ lossless d)) :
    Restores (.optional key codec get)
      fun d => d ≠ some .null ∧ ∀ e, d = some e → lossless e := by
  intro fields s hdecodes
  have hdecodes : fields.optional codec.asValue key = some (get s) := hdecodes
  change Same (Fields.get? fields key) ((get s).map codec.ofValue) ↔ _
  unfold Fields.optional at hdecodes
  change _ ↔ Fields.get? fields key ≠ _ ∧ ∀ e, Fields.get? fields key = _ → _
  split at hdecodes
  next hget =>
    rw [hget, ← Option.some.inj hdecodes]
    exact iff_of_true (Same.refl _) (by simp)
  next hget =>
    rw [hget, ← Option.some.inj hdecodes]
    refine iff_of_false (fun hsame => ?_) fun hne => hne.1 rfl
    cases same_none_iff.mp hsame
  next d hnull hget =>
    obtain ⟨a, ha, hs⟩ := Option.map_eq_some_iff.mp hdecodes
    rw [hget, ← hs, Option.map_some, h ha]
    refine ⟨fun hd => ⟨fun heq => hnull (Option.some.inj heq), fun e he => ?_⟩,
      fun hd => hd.2 d rfl⟩
    rw [← Option.some.inj he]
    exact hd

theorem restores_optional_exact (h : Exact codec) (get : σ → Option α) :
    Restores (.optional key codec get) (· ≠ some .null) := by
  intro fields s hdecodes
  have htrue {d : Doc} {a : α} (ha : codec.asValue d = some a) :
      Same (some d) (some (codec.ofValue a)) ↔ (fun _ => True) d :=
    iff_true_intro (h ha ▸ Same.refl _)
  have hrestores := restores_optional get htrue hdecodes
  exact hrestores.trans ⟨And.left, fun hne => ⟨hne, fun _ _ => trivial⟩⟩

theorem restores_doubleOption (h : Exact codec) (get : σ → Option (Option α)) :
    Restores (.doubleOption key codec get) fun _ => True := by
  intro fields s hdecodes
  have hdecodes : fields.doubleOption codec.asValue key = some (get s) := hdecodes
  refine iff_true_intro ?_
  change Same (Fields.get? fields key) ((get s).map fun o => (o.map codec.ofValue).getD .null)
  unfold Fields.doubleOption at hdecodes
  split at hdecodes
  next hget =>
    rw [hget, ← Option.some.inj hdecodes]
    exact Same.refl _
  next hget =>
    rw [hget, ← Option.some.inj hdecodes]
    exact Same.refl _
  next d _ hget =>
    obtain ⟨a, ha, hs⟩ := Option.map_eq_some_iff.mp hdecodes
    rw [hget, ← hs, h ha]
    exact Same.refl _

variable {schema : Schema σ} {s : σ}

theorem member_write (hkeys : schema.keys.Nodup) (field : RecordField σ) (hfield : field ∈ schema) :
    member (schema.write s) (encode field.key) = field.written s := by
  rw [member_of_nodup (nodup_keys_write hkeys)]
  exact get?_write hkeys hfield

theorem member_write_of_notMem {units : List UInt16}
    (h : ∀ key ∈ schema.keys, units ≠ encode key) : member (schema.write s) units = none := by
  rw [member_eq_none_iff]
  intro hmem
  obtain ⟨entry, hentry, rfl⟩ := List.mem_map.mp hmem
  obtain ⟨key, hkey, heq⟩ := key_of_mem_write hentry
  exact h key hkey heq

/-- The whole record is written back exactly when its fields are and there are no others. -/
theorem same_write_iff (hkeys : schema.keys.Nodup) {fields : Fields}
    (h : schema.Decodes fields s) :
    Same (some (.object fields)) (some (.object (schema.write s))) ↔
      (∀ entry ∈ fields, ∃ key ∈ schema.keys, entry.1 = encode key) ∧
        ∀ field ∈ schema, Same (fields.get? field.key) (field.written s) := by
  have hget (field : RecordField σ) (hfield : field ∈ schema) :
      member fields (encode field.key) = fields.get? field.key :=
    member_eq_get? h.wellFormed (List.mem_map_of_mem hfield)
  rw [same_object_iff]
  constructor
  · intro hsame
    refine ⟨fun entry hentry => ?_, fun field hfield => ?_⟩
    · by_contra hunknown
      have hnone := hsame entry.1
      rw [member_write_of_notMem fun key hkey heq => hunknown ⟨key, hkey, heq⟩, same_none_iff,
        member_eq_none_iff] at hnone
      exact hnone (List.mem_map_of_mem hentry)
    · have hkey := hsame (encode field.key)
      rwa [hget field hfield, member_write hkeys field hfield] at hkey
  · rintro ⟨hknown, hfields⟩ units
    by_cases hkey : ∃ key ∈ schema.keys, units = encode key
    · obtain ⟨key, hmem, rfl⟩ := hkey
      obtain ⟨field, hfield, rfl⟩ := List.mem_map.mp hmem
      rw [hget field hfield, member_write hkeys field hfield]
      exact hfields field hfield
    · have hnew : ∀ key ∈ schema.keys, units ≠ encode key :=
        fun key hmem heq => hkey ⟨key, hmem, heq⟩
      rw [member_write_of_notMem hnew, same_none_iff, member_eq_none_iff]
      intro hmem
      obtain ⟨entry, hentry, rfl⟩ := List.mem_map.mp hmem
      exact hkey (hknown entry hentry)

end Records

end Climon.Lib.JsonPath
