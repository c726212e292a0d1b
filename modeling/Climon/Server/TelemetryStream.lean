import Climon.Lib.JsonParse
import Climon.Lib.SeparatedFields
import Climon.Lib.Utf8

namespace Climon.Server.TelemetryStream

open Climon.Lib.JavaScript Climon.Lib.JsonParse Climon.Lib.SeparatedFields Climon.Lib.Utf16
  Climon.Lib.Utf8

/-!
# What is sent as telemetry

The log is rewritten line by line on its way out: of each record only the fields on a list are kept,
with the parameters that its catalog entry has marked scrubbed.
-/

/-! ## The catalog -/

abbrev Key := List UInt16

inductive RedactCategory where
  | hostname | path | url | config | pii | token | diagnostic | generic
  deriving DecidableEq, Repr

def RedactCategory.name : RedactCategory → String
  | hostname => "hostname"
  | path => "path"
  | url => "url"
  | config => "config"
  | pii => "pii"
  | token => "token"
  | diagnostic => "diagnostic"
  | generic => "generic"

structure ParamMeta where
  redact : Bool
  category : Option RedactCategory
  deriving DecidableEq, Repr

structure CatalogEntry where
  params : List (Key × ParamMeta)
  distinct : (params.map (·.1)).Nodup

abbrev Catalog := List (Key × CatalogEntry)

def lookupByKey (catalog : Catalog) (key : Key) : Option CatalogEntry := catalog.lookup key

/-- The id of the messages that are not in the catalog. -/
def sentinelMsgId : List UInt16 := encode "00000000"

def baseAllowedFields : List Key :=
  ["level", "time", "role", "pid", "version", "installId", "component", "msgId", "msgKey"].map encode

/-! ## One record -/

def pickAllowed (record : Props) (allowed : List Key) : Props :=
  record.filter fun prop => prop.1 ∈ allowed

def marker (category : Option RedactCategory) : List UInt16 :=
  encode ("[REDACTED:" ++ (category.getD .generic).name ++ "]")

section

variable (sanitizeDiagnostic : List UInt16 → List UInt16)

/-- A diagnostic that is no text is left as it is. -/
def redactValue (info : ParamMeta) (value : JsValue) : JsValue :=
  if info.category = some .diagnostic then
    match value with
    | .string text => .string (sanitizeDiagnostic text)
    | _ => value
  else .string (marker info.category)

def redactParam (record : Props) (param : Key × ParamMeta) : Props :=
  if param.2.redact = true then
    record.map fun prop =>
      if prop.1 = param.1 then (prop.1, redactValue sanitizeDiagnostic param.2 prop.2) else prop
  else record

def redactParams (record : Props) : Option CatalogEntry → Props
  | none => record
  | some entry => entry.params.foldl (redactParam sanitizeDiagnostic) record

/-- An id that is empty counts as none. -/
def msgIdOf (record : Props) : Option (List UInt16) :=
  match record.get? "msgId" with
  | some (.string []) => none
  | some (.string id) => some id
  | _ => none

/-- `String(record.msgKey ?? "")`, `none` where it throws. -/
def msgKeyOf (record : Props) : Option (List UInt16) :=
  match record.get? "msgKey" with
  | none => some []
  | some .null => some []
  | some key => key.toText

/-- The id and the catalog entry of a record that has both. -/
def cataloguedAs (catalog : Catalog) (record : Props) :
    Option (Option (List UInt16 × CatalogEntry)) :=
  match msgIdOf record with
  | none => some none
  | some id =>
    (msgKeyOf record).map fun key => (lookupByKey catalog key).map fun entry => (id, entry)

def allowedFields (entry : CatalogEntry) : List Key :=
  baseAllowedFields ++ entry.params.map (·.1)

def stamped (record : Props) : Props :=
  define (define (pickAllowed record baseAllowedFields) (encode "msgId") (.string sentinelMsgId))
    (encode "msg") (.string sentinelMsgId)

def compactRecord (catalog : Catalog) (record : Props) : Option Props :=
  (cataloguedAs catalog record).map fun
    | none => stamped record
    | some (id, entry) =>
      define (pickAllowed (redactParams sanitizeDiagnostic record (some entry))
        (allowedFields entry)) (encode "msg") (.string id)

/-! ## The stream -/

def sentinelRecord : Props :=
  [(encode "msgId", .string sentinelMsgId), (encode "msg", .string sentinelMsgId)]

/-- What a line is read as: null has no properties to be asked for, and what texts and lists have
are indices, which no list of fields names. -/
def readRecord (line : List Char) : Option Props :=
  (parse line).bind fun
    | .null => none
    | .object record => some record
    | _ => some []

def compactLine (catalog : Catalog) (line : List Char) : Props :=
  ((readRecord line).bind (compactRecord sanitizeDiagnostic catalog)).getD sentinelRecord

def isBlank (line : List Char) : Bool := trim (encode (String.ofList line)) = []

def emit (catalog : Catalog) (line : List Char) : List Props :=
  if isBlank line then [] else [compactLine sanitizeDiagnostic catalog line]

/-- Each record that is pushed is printed on a line of its own. -/
structure State where
  buffer : List Char
  pushed : List Props

end

/-! ## Cutting into lines -/

section

variable {sanitizeDiagnostic : List UInt16 → List UInt16} {catalog : Catalog}

end

/-! ## What a record does not tell -/

section

variable (sanitizeDiagnostic : List UInt16 → List UInt16)

/-- Two values of a parameter that is scrubbed: any two, or two diagnostics that read the same once
they are sanitised. -/
def Scrubbed (info : ParamMeta) (value other : JsValue) : Prop :=
  info.redact = true ∧ (info.category = some .diagnostic →
    ∃ text text', value = .string text ∧ other = .string text' ∧
      sanitizeDiagnostic text = sanitizeDiagnostic text')

/-- The same field, up to what is scrubbed of it. -/
def SameField (params : List (Key × ParamMeta)) (prop other : Key × JsValue) : Prop :=
  prop.1 = other.1 ∧ (prop.2 = other.2 ∨
    ∃ info, (prop.1, info) ∈ params ∧ Scrubbed sanitizeDiagnostic info prop.2 other.2)

end

section

variable {sanitizeDiagnostic : List UInt16 → List UInt16} {catalog : Catalog}

theorem redactValue_eq {info : ParamMeta} {value other : JsValue}
    (h : Scrubbed sanitizeDiagnostic info value other) :
    redactValue sanitizeDiagnostic info value = redactValue sanitizeDiagnostic info other := by
  unfold redactValue
  split
  next hcategory =>
    obtain ⟨text, text', rfl, rfl, hsame⟩ := h.2 hcategory
    exact congrArg JsValue.string hsame
  · rfl

/-- After its turn a parameter tells no two values apart that are scrubbed. -/
theorem SameField.redactParam {param : Key × ParamMeta} {params : List (Key × ParamMeta)}
    (hparam : param.1 ∉ params.map (·.1)) {record other : Props}
    (h : List.Forall₂ (SameField sanitizeDiagnostic (param :: params)) record other) :
    List.Forall₂ (SameField sanitizeDiagnostic params)
      (redactParam sanitizeDiagnostic record param)
      (redactParam sanitizeDiagnostic other param) := by
  unfold TelemetryStream.redactParam
  split
  next hredact =>
    rw [List.forall₂_map_left_iff, List.forall₂_map_right_iff]
    refine h.imp ?_
    rintro ⟨key, value⟩ ⟨key', value'⟩ ⟨hkey, hvalue⟩
    cases hkey
    dsimp only at hvalue ⊢
    by_cases hname : key = param.1
    · rw [if_pos hname, if_pos hname]
      refine ⟨rfl, .inl ?_⟩
      rcases hvalue with heq | ⟨info, hinfo, hscrubbed⟩
      · rw [heq]
      · rcases List.mem_cons.mp hinfo with heq | hmem
        · rw [← heq]
          exact redactValue_eq hscrubbed
        · exact absurd (List.mem_map_of_mem hmem) (hname ▸ hparam)
    · rw [if_neg hname, if_neg hname]
      refine ⟨rfl, hvalue.imp_right ?_⟩
      rintro ⟨info, hinfo, hscrubbed⟩
      rcases List.mem_cons.mp hinfo with heq | hmem
      · exact absurd (congrArg Prod.fst heq) hname
      · exact ⟨info, hmem, hscrubbed⟩
  next hredact =>
    refine h.imp ?_
    rintro prop prop' ⟨hkey, hvalue⟩
    refine ⟨hkey, hvalue.imp_right ?_⟩
    rintro ⟨info, hinfo, hscrubbed⟩
    rcases List.mem_cons.mp hinfo with heq | hmem
    · exact absurd (heq ▸ hscrubbed.1) hredact
    · exact ⟨info, hmem, hscrubbed⟩

/-- What may be the name of a field that is sent. -/
def Named (catalog : Catalog) (key : Key) : Prop :=
  key ∈ baseAllowedFields ∨ key = encode "msg" ∨
    ∃ name entry, (name, entry) ∈ catalog ∧ key ∈ entry.params.map (·.1)

end

def opened : CatalogEntry where
  params := [(encode "path", ⟨true, some .path⟩), (encode "mode", ⟨false, none⟩)]
  distinct := by decide

end Climon.Server.TelemetryStream
