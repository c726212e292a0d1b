import Climon.Remote.SpawnAuth
import Climon.Store.PatchFormat

namespace Climon.Remote.ControlFormat

open Climon.Lib.JsonDocument Climon.Lib.JsonSchema Climon.Lib.Utf16 Climon.Proto.Meta
  Climon.Remote.SpawnAuth Climon.Store.Format Climon.Store.Meta Climon.Store.PatchFormat

/-!
# Control messages as JSON objects

A message is an object with a `kind`. The decoders are the derived ones, for objects.
-/

inductive ControlKind where
  | hello
  | sessionAdded
  | sessionUpdated
  | sessionRemoved
  | sessionList
  | attach
  | detach
  | spawn
  | spawnResult
  | signed
  | ping
  | pong
  deriving DecidableEq, Repr

def ControlKind.all : List ControlKind :=
  [.hello, .sessionAdded, .sessionUpdated, .sessionRemoved, .sessionList, .attach, .detach, .spawn,
    .spawnResult, .signed, .ping, .pong]

def ControlKind.name : ControlKind → String
  | .hello => "hello"
  | .sessionAdded => "session-added"
  | .sessionUpdated => "session-updated"
  | .sessionRemoved => "session-removed"
  | .sessionList => "session-list"
  | .attach => "attach"
  | .detach => "detach"
  | .spawn => "spawn"
  | .spawnResult => "spawn-result"
  | .signed => "signed"
  | .ping => "ping"
  | .pong => "pong"

def kindCodec : Codec ControlKind :=
  .named (ofName ControlKind.all ControlKind.name) ControlKind.name
    (fun a => by cases a <;> rfl) fun h => (ofName_some h).2

/-! ## Fields -/

section

variable {σ : Type}

def kind (k : ControlKind) : RecordField σ := .required "kind" kindCodec fun _ => k

/-- A field that JavaScript need not see as it is. -/
def plain (key : String) (written : σ → Option Doc) : RecordField σ where
  key := key
  written := written
  decodes _ _ := True
  shows _ _ := True
  decodes_written _ := trivial
  read _ _ _ := trivial
  write _ := trivial
  shows_congr _ _ := trivial

end

def ofI64 (n : Int) : Doc := .number (.integer n)

def asI64 (d : Doc) : Option Int := d.asInteger (-2 ^ 63) (2 ^ 63 - 1)

def asMeta : Doc → Option SessionMeta
  | .object fields => decodeMeta fields
  | _ => none

def asPatch : Doc → Option SessionMetaPatch
  | .object fields => decodePatch fields
  | _ => none

/-- A boolean with the default `false`. -/
def asFlag : Option Doc → Option Bool
  | none => some false
  | some d => d.asBool

/-! ## Variants -/

def helloSchema : Schema (String × Bool × Option String × Option String) :=
  [ kind .hello,
    .required "clientId" .text (·.1),
    plain "peer" fun s => if s.2.1 then some (.bool true) else none,
    .optional "hostname" .text (·.2.2.1),
    .optional "os" .text (·.2.2.2) ]

def sessionAddedSchema : Schema SessionMeta :=
  [kind .sessionAdded, plain "meta" fun m => some (.object (writeMeta m))]

def sessionUpdatedSchema : Schema (String × SessionMetaPatch) :=
  [ kind .sessionUpdated,
    .required "id" .text (·.1),
    plain "patch" fun s => some (.object (writePatch s.2)) ]

/-- A message that only names a session. -/
def idSchema (k : ControlKind) : Schema String := [kind k, .required "id" .text id]

def sessionListSchema : Schema (List String) :=
  [kind .sessionList, .required "ids" .texts id]

def spawnSchema : Schema SpawnRequest :=
  [ kind .spawn,
    .required "requestId" .text (·.requestId),
    .required "command" .texts (·.command),
    .required "cwd" .text (·.cwd),
    .required "cols" .uint16 (·.cols),
    .required "rows" .uint16 (·.rows),
    .optional "name" .text (·.name),
    plain "priority" fun r => r.priority.map fun n => ofI64 n.toInt,
    .optional "color" .text (·.color),
    .required "headless" .bool (·.headless) ]

def spawnResultSchema : Schema SpawnOutcome :=
  [ kind .spawnResult,
    .required "requestId" .text (·.requestId),
    .optional "id" .text (·.id),
    .optional "warning" .text (·.warning),
    .optional "error" .text (·.error) ]

def signedSchema : Schema (String × String × Int × String) :=
  [ kind .signed,
    .required "payload" .text (·.1),
    .required "nonce" .text (·.2.1),
    plain "ts" fun s => some (ofI64 s.2.2.1),
    .required "sig" .text (·.2.2.2) ]

def unitSchema (k : ControlKind) : Schema Unit := [kind k]

def writeControl : ControlMessage → Fields
  | .hello clientId peer hostname os => helloSchema.write (clientId, peer, hostname, os)
  | .sessionAdded m => sessionAddedSchema.write m
  | .sessionUpdated id patch => sessionUpdatedSchema.write (id, patch)
  | .sessionRemoved id => (idSchema .sessionRemoved).write id
  | .sessionList ids => sessionListSchema.write ids
  | .attach id => (idSchema .attach).write id
  | .detach id => (idSchema .detach).write id
  | .spawn request => spawnSchema.write request
  | .spawnResult outcome => spawnResultSchema.write outcome
  | .signed payload nonce ts sig => signedSchema.write (payload, nonce, ts, sig)
  | .ping => (unitSchema .ping).write ()
  | .pong => (unitSchema .pong).write ()

section

variable (fields : Fields)

def decodeHello : Option ControlMessage :=
  if fields.wellFormed helloSchema.keys then do
    let clientId ← fields.required Codec.text.asValue "clientId"
    let peer ← asFlag (fields.get? "peer")
    let hostname ← fields.optional Codec.text.asValue "hostname"
    let os ← fields.optional Codec.text.asValue "os"
    some (.hello clientId peer hostname os)
  else none

def decodeSessionAdded : Option ControlMessage :=
  if fields.wellFormed sessionAddedSchema.keys then do
    let m ← fields.required asMeta "meta"
    some (.sessionAdded m)
  else none

def decodeSessionUpdated : Option ControlMessage :=
  if fields.wellFormed sessionUpdatedSchema.keys then do
    let id ← fields.required Codec.text.asValue "id"
    let patch ← fields.required asPatch "patch"
    some (.sessionUpdated id patch)
  else none

def decodeId (k : ControlKind) (message : String → ControlMessage) : Option ControlMessage :=
  if fields.wellFormed (idSchema k).keys then do
    let id ← fields.required Codec.text.asValue "id"
    some (message id)
  else none

def decodeSessionList : Option ControlMessage :=
  if fields.wellFormed sessionListSchema.keys then do
    let ids ← fields.required Codec.texts.asValue "ids"
    some (.sessionList ids)
  else none

def decodeSpawn : Option ControlMessage :=
  if fields.wellFormed spawnSchema.keys then do
    let requestId ← fields.required Codec.text.asValue "requestId"
    let command ← fields.required Codec.texts.asValue "command"
    let cwd ← fields.required Codec.text.asValue "cwd"
    let cols ← fields.required Codec.uint16.asValue "cols"
    let rows ← fields.required Codec.uint16.asValue "rows"
    let name ← fields.optional Codec.text.asValue "name"
    let priority ← fields.optional asI64 "priority"
    let color ← fields.optional Codec.text.asValue "color"
    let headless ← fields.required Codec.bool.asValue "headless"
    some (.spawn ⟨requestId, command, cwd, cols, rows, name, priority.map Int64.ofInt, color,
      headless⟩)
  else none

def decodeSpawnResult : Option ControlMessage :=
  if fields.wellFormed spawnResultSchema.keys then do
    let requestId ← fields.required Codec.text.asValue "requestId"
    let id ← fields.optional Codec.text.asValue "id"
    let warning ← fields.optional Codec.text.asValue "warning"
    let error ← fields.optional Codec.text.asValue "error"
    some (.spawnResult ⟨requestId, id, warning, error⟩)
  else none

def decodeSigned : Option ControlMessage :=
  if fields.wellFormed signedSchema.keys then do
    let payload ← fields.required Codec.text.asValue "payload"
    let nonce ← fields.required Codec.text.asValue "nonce"
    let ts ← fields.required asI64 "ts"
    let sig ← fields.required Codec.text.asValue "sig"
    some (.signed payload nonce ts sig)
  else none

def decodeUnit (k : ControlKind) (message : ControlMessage) : Option ControlMessage :=
  if fields.wellFormed (unitSchema k).keys then some message else none

def decodeKind : ControlKind → Option ControlMessage
  | .hello => decodeHello fields
  | .sessionAdded => decodeSessionAdded fields
  | .sessionUpdated => decodeSessionUpdated fields
  | .sessionRemoved => decodeId fields .sessionRemoved .sessionRemoved
  | .sessionList => decodeSessionList fields
  | .attach => decodeId fields .attach .attach
  | .detach => decodeId fields .detach .detach
  | .spawn => decodeSpawn fields
  | .spawnResult => decodeSpawnResult fields
  | .signed => decodeSigned fields
  | .ping => decodeUnit fields .ping .ping
  | .pong => decodeUnit fields .pong .pong

def decodeControl : Option ControlMessage :=
  (fields.required kindCodec.asValue "kind").bind (decodeKind fields)

end

/-! ## Round trips -/

theorem required_of_get? {α : Type} {asValue : Doc → Option α} {fields : Fields} {key : String}
    {d : Doc} (h : fields.get? key = some d) : fields.required asValue key = asValue d := by
  rw [Fields.required, h, Option.bind_some]

theorem asI64_ofI64 {n : Int} (h : -2 ^ 63 ≤ n ∧ n ≤ 2 ^ 63 - 1) : asI64 (ofI64 n) = some n :=
  if_pos h

section

variable {σ : Type} {schema : Schema σ} {s : σ}

theorem decodes_of_mem (hkeys : schema.keys.Nodup) {field : RecordField σ} (h : field ∈ schema) :
    field.decodes (schema.write s) s := (decodes_write hkeys).fields field h

end

theorem decodeHello_write (s : String × Bool × Option String × Option String) :
    decodeHello (helloSchema.write s) = some (.hello s.1 s.2.1 s.2.2.1 s.2.2.2) := by
  have hkeys : helloSchema.keys.Nodup := by decide
  have hclientId : Fields.required Codec.text.asValue (helloSchema.write s) "clientId" = some s.1 :=
    decodes_of_mem hkeys (.tail _ (.head _))
  have hpeer : Fields.get? (helloSchema.write s) "peer" =
      if s.2.1 then some (.bool true) else none :=
    get?_write hkeys (.tail _ (.tail _ (.head _)))
  have hhostname : Fields.optional Codec.text.asValue (helloSchema.write s) "hostname" =
      some s.2.2.1 := decodes_of_mem hkeys (.tail _ (.tail _ (.tail _ (.head _))))
  have hos : Fields.optional Codec.text.asValue (helloSchema.write s) "os" = some s.2.2.2 :=
    decodes_of_mem hkeys (.tail _ (.tail _ (.tail _ (.tail _ (.head _)))))
  have hflag : asFlag (Fields.get? (helloSchema.write s) "peer") = some s.2.1 := by
    rw [hpeer]
    cases s.2.1 <;> rfl
  unfold decodeHello
  rw [if_pos (decodes_write hkeys).wellFormed, hclientId, hflag, hhostname, hos]
  rfl

theorem decodeSessionAdded_write (m : SessionMeta) :
    decodeSessionAdded (sessionAddedSchema.write m) = some (.sessionAdded m) := by
  have hkeys : sessionAddedSchema.keys.Nodup := by decide
  have hmeta : Fields.required asMeta (sessionAddedSchema.write m) "meta" = some m :=
    (required_of_get? (get?_write hkeys (.tail _ (.head _)))).trans (decodeMeta_writeMeta m)
  unfold decodeSessionAdded
  rw [if_pos (decodes_write hkeys).wellFormed, hmeta]
  rfl

theorem decodeSessionUpdated_write (id : String) (patch : SessionMetaPatch) :
    decodeSessionUpdated (sessionUpdatedSchema.write (id, patch)) =
      some (.sessionUpdated id patch) := by
  have hkeys : sessionUpdatedSchema.keys.Nodup := by decide
  have hid : Fields.required Codec.text.asValue (sessionUpdatedSchema.write (id, patch)) "id" =
      some id := decodes_of_mem hkeys (.tail _ (.head _))
  have hpatch : Fields.required asPatch (sessionUpdatedSchema.write (id, patch)) "patch" =
      some patch :=
    (required_of_get? (get?_write hkeys (.tail _ (.tail _ (.head _))))).trans
      (decodePatch_writePatch patch)
  unfold decodeSessionUpdated
  rw [if_pos (decodes_write hkeys).wellFormed, hid, hpatch]
  rfl

theorem nodup_idSchema (k : ControlKind) : (idSchema k).keys.Nodup := by
  change ["kind", "id"].Nodup
  decide

theorem decodeId_write (k : ControlKind) (message : String → ControlMessage) (id : String) :
    decodeId ((idSchema k).write id) k message = some (message id) := by
  have hkeys := nodup_idSchema k
  have hid : Fields.required Codec.text.asValue ((idSchema k).write id) "id" = some id :=
    decodes_of_mem hkeys (.tail _ (.head _))
  unfold decodeId
  rw [if_pos (decodes_write hkeys).wellFormed, hid]
  rfl

theorem decodeSessionList_write (ids : List String) :
    decodeSessionList (sessionListSchema.write ids) = some (.sessionList ids) := by
  have hkeys : sessionListSchema.keys.Nodup := by decide
  have hids : Fields.required Codec.texts.asValue (sessionListSchema.write ids) "ids" = some ids :=
    decodes_of_mem hkeys (.tail _ (.head _))
  unfold decodeSessionList
  rw [if_pos (decodes_write hkeys).wellFormed, hids]
  rfl

/-- An absent priority stays absent, and any other comes back in full width. -/
theorem optional_asI64 {fields : Fields} {key : String} {priority : Option Int64}
    (h : fields.get? key = priority.map fun n => ofI64 n.toInt) :
    (fields.optional asI64 key).map (·.map Int64.ofInt) = some priority := by
  unfold Fields.optional
  rw [h]
  cases priority with
  | none => rfl
  | some n =>
    have hrange : -2 ^ 63 ≤ n.toInt ∧ n.toInt ≤ 2 ^ 63 - 1 := by
      have hlt := n.toInt_lt
      exact ⟨n.le_toInt, by omega⟩
    have hread : asI64 (ofI64 n.toInt) = some n.toInt := asI64_ofI64 hrange
    change ((asI64 (ofI64 n.toInt)).map some).map (·.map Int64.ofInt) = some (some n)
    rw [hread, Option.map_some, Option.map_some, Option.map_some, Int64.ofInt_toInt]

theorem decodeSpawn_write (r : SpawnRequest) :
    decodeSpawn (spawnSchema.write r) = some (.spawn r) := by
  have hkeys : spawnSchema.keys.Nodup := by decide
  have hrequestId : Fields.required Codec.text.asValue (spawnSchema.write r) "requestId" =
      some r.requestId := decodes_of_mem hkeys (.tail _ (.head _))
  have hcommand : Fields.required Codec.texts.asValue (spawnSchema.write r) "command" =
      some r.command := decodes_of_mem hkeys (.tail _ (.tail _ (.head _)))
  have hcwd : Fields.required Codec.text.asValue (spawnSchema.write r) "cwd" = some r.cwd :=
    decodes_of_mem hkeys (.tail _ (.tail _ (.tail _ (.head _))))
  have hcols : Fields.required Codec.uint16.asValue (spawnSchema.write r) "cols" = some r.cols :=
    decodes_of_mem hkeys (.tail _ (.tail _ (.tail _ (.tail _ (.head _)))))
  have hrows : Fields.required Codec.uint16.asValue (spawnSchema.write r) "rows" = some r.rows :=
    decodes_of_mem hkeys (.tail _ (.tail _ (.tail _ (.tail _ (.tail _ (.head _))))))
  have hname : Fields.optional Codec.text.asValue (spawnSchema.write r) "name" = some r.name :=
    decodes_of_mem hkeys (.tail _ (.tail _ (.tail _ (.tail _ (.tail _ (.tail _ (.head _)))))))
  have hpriority : (Fields.optional asI64 (spawnSchema.write r) "priority").map
      (·.map Int64.ofInt) = some r.priority :=
    optional_asI64 (get?_write hkeys
      (.tail _ (.tail _ (.tail _ (.tail _ (.tail _ (.tail _ (.tail _ (.head _)))))))))
  have hcolor : Fields.optional Codec.text.asValue (spawnSchema.write r) "color" = some r.color :=
    decodes_of_mem hkeys
      (.tail _ (.tail _ (.tail _ (.tail _ (.tail _ (.tail _ (.tail _ (.tail _ (.head _)))))))))
  have hheadless : Fields.required Codec.bool.asValue (spawnSchema.write r) "headless" =
      some r.headless :=
    decodes_of_mem hkeys (.tail _ (.tail _ (.tail _ (.tail _ (.tail _ (.tail _ (.tail _
      (.tail _ (.tail _ (.head _))))))))))
  obtain ⟨priority, hread, hpriority⟩ := Option.map_eq_some_iff.mp hpriority
  unfold decodeSpawn
  rw [if_pos (decodes_write hkeys).wellFormed, hrequestId, hcommand, hcwd, hcols, hrows, hname,
    hread, hcolor, hheadless]
  simp only [Option.bind_eq_bind, Option.bind_some, hpriority]

theorem decodeSpawnResult_write (outcome : SpawnOutcome) :
    decodeSpawnResult (spawnResultSchema.write outcome) = some (.spawnResult outcome) := by
  have hkeys : spawnResultSchema.keys.Nodup := by decide
  have hrequestId : Fields.required Codec.text.asValue (spawnResultSchema.write outcome)
      "requestId" = some outcome.requestId := decodes_of_mem hkeys (.tail _ (.head _))
  have hid : Fields.optional Codec.text.asValue (spawnResultSchema.write outcome) "id" =
      some outcome.id := decodes_of_mem hkeys (.tail _ (.tail _ (.head _)))
  have hwarning : Fields.optional Codec.text.asValue (spawnResultSchema.write outcome) "warning" =
      some outcome.warning := decodes_of_mem hkeys (.tail _ (.tail _ (.tail _ (.head _))))
  have herror : Fields.optional Codec.text.asValue (spawnResultSchema.write outcome) "error" =
      some outcome.error := decodes_of_mem hkeys (.tail _ (.tail _ (.tail _ (.tail _ (.head _)))))
  unfold decodeSpawnResult
  rw [if_pos (decodes_write hkeys).wellFormed, hrequestId, hid, hwarning, herror]
  rfl

theorem decodeSigned_write {payload nonce : String} {ts : Int} {sig : String}
    (hts : -2 ^ 63 ≤ ts ∧ ts ≤ 2 ^ 63 - 1) :
    decodeSigned (signedSchema.write (payload, nonce, ts, sig)) =
      some (.signed payload nonce ts sig) := by
  have hkeys : signedSchema.keys.Nodup := by decide
  have hpayload : Fields.required Codec.text.asValue
      (signedSchema.write (payload, nonce, ts, sig)) "payload" = some payload :=
    decodes_of_mem hkeys (.tail _ (.head _))
  have hnonce : Fields.required Codec.text.asValue
      (signedSchema.write (payload, nonce, ts, sig)) "nonce" = some nonce :=
    decodes_of_mem hkeys (.tail _ (.tail _ (.head _)))
  have hread : Fields.required asI64 (signedSchema.write (payload, nonce, ts, sig)) "ts" =
      some ts :=
    (required_of_get? (get?_write hkeys (.tail _ (.tail _ (.tail _ (.head _)))))).trans
      (asI64_ofI64 hts)
  have hsig : Fields.required Codec.text.asValue
      (signedSchema.write (payload, nonce, ts, sig)) "sig" = some sig :=
    decodes_of_mem hkeys (.tail _ (.tail _ (.tail _ (.tail _ (.head _)))))
  unfold decodeSigned
  rw [if_pos (decodes_write hkeys).wellFormed, hpayload, hnonce, hread, hsig]
  rfl

/-- The timestamp of an envelope is a 64-bit integer, as in the source. -/
def Fits : ControlMessage → Prop
  | .signed _ _ ts _ => -2 ^ 63 ≤ ts ∧ ts ≤ 2 ^ 63 - 1
  | _ => True

theorem kind_write {σ : Type} {k : ControlKind} {schema : Schema σ} {s : σ}
    (hkeys : schema.keys.Nodup) (h : kind k ∈ schema) :
    Fields.required kindCodec.asValue (schema.write s) "kind" = some k := decodes_of_mem hkeys h

theorem decodeUnit_write (k : ControlKind) (message : ControlMessage) :
    decodeUnit ((unitSchema k).write ()) k message = some message := by
  have hkeys : (unitSchema k).keys.Nodup := List.nodup_singleton "kind"
  unfold decodeUnit
  rw [if_pos (decodes_write hkeys).wellFormed]

def kindOf : ControlMessage → ControlKind
  | .hello .. => .hello
  | .sessionAdded _ => .sessionAdded
  | .sessionUpdated .. => .sessionUpdated
  | .sessionRemoved _ => .sessionRemoved
  | .sessionList _ => .sessionList
  | .attach _ => .attach
  | .detach _ => .detach
  | .spawn _ => .spawn
  | .spawnResult _ => .spawnResult
  | .signed .. => .signed
  | .ping => .ping
  | .pong => .pong

theorem kind_writeControl (message : ControlMessage) :
    (writeControl message).required kindCodec.asValue "kind" = some (kindOf message) := by
  cases message with
  | hello => exact kind_write (by decide) (.head _)
  | sessionAdded => exact kind_write (by decide) (.head _)
  | sessionUpdated => exact kind_write (by decide) (.head _)
  | sessionRemoved => exact kind_write (nodup_idSchema _) (.head _)
  | sessionList => exact kind_write (by decide) (.head _)
  | attach => exact kind_write (nodup_idSchema _) (.head _)
  | detach => exact kind_write (nodup_idSchema _) (.head _)
  | spawn => exact kind_write (by decide) (.head _)
  | spawnResult => exact kind_write (by decide) (.head _)
  | signed => exact kind_write (by decide) (.head _)
  | ping => exact kind_write (List.nodup_singleton "kind") (.head _)
  | pong => exact kind_write (List.nodup_singleton "kind") (.head _)

/-- What is written of a control message reads as the message. -/
theorem decodeControl_writeControl {message : ControlMessage} (h : Fits message) :
    decodeControl (writeControl message) = some message := by
  rw [decodeControl, kind_writeControl, Option.bind_some]
  cases message with
  | hello => exact decodeHello_write _
  | sessionAdded => exact decodeSessionAdded_write _
  | sessionUpdated => exact decodeSessionUpdated_write _ _
  | sessionRemoved => exact decodeId_write _ _ _
  | sessionList => exact decodeSessionList_write _
  | attach => exact decodeId_write _ _ _
  | detach => exact decodeId_write _ _ _
  | spawn => exact decodeSpawn_write _
  | spawnResult => exact decodeSpawnResult_write _
  | signed => exact decodeSigned_write h
  | ping => exact decodeUnit_write _ _
  | pong => exact decodeUnit_write _ _

/-! ## Texts -/

/-- The crate that prints and parses JSON texts. -/
structure SerdeJson where
  toText : Doc → String
  toTextPretty : Doc → String
  fromText : String → Option Doc

section

variable (serde : SerdeJson)

def serializeSessionMeta (m : SessionMeta) : String :=
  serde.toTextPretty (.object (writeMeta m)) ++ "\n"

def parseSessionMeta (text : String) : Option SessionMeta := (serde.fromText text).bind asMeta

def serializePatch (patch : SessionMetaPatch) : String := serde.toText (.object (writePatch patch))

def parsePatch (text : String) : Option SessionMetaPatch := (serde.fromText text).bind asPatch

def serializeControl (message : ControlMessage) : String :=
  serde.toText (.object (writeControl message))

def asControl : Doc → Option ControlMessage
  | .object fields => decodeControl fields
  | _ => none

def parseControl (text : String) : Option ControlMessage := (serde.fromText text).bind asControl

/-- Where the crate gives the documents back that it printed, metadata, patches and control
messages come back as they were, and a patch that went over the wire merges as the original. -/
theorem json_round_trip {m : SessionMeta} {patch : SessionMetaPatch} {message : ControlMessage}
    (hmeta : serde.fromText (serializeSessionMeta serde m) = some (.object (writeMeta m)))
    (hpatch : serde.fromText (serializePatch serde patch) = some (.object (writePatch patch)))
    (hmessage : serde.fromText (serializeControl serde message) =
      some (.object (writeControl message)))
    (hfits : Fits message) :
    parseSessionMeta serde (serializeSessionMeta serde m) = some m ∧
      parsePatch serde (serializePatch serde patch) = some patch ∧
      parseControl serde (serializeControl serde message) = some message ∧
      ∀ base, (parsePatch serde (serializePatch serde patch)).map (mergePatch base) =
        some (mergePatch base patch) := by
  have hread : parsePatch serde (serializePatch serde patch) = some patch := by
    rw [parsePatch, hpatch, Option.bind_some]
    exact decodePatch_writePatch patch
  refine ⟨?_, hread, ?_, ?_⟩
  · rw [parseSessionMeta, hmeta, Option.bind_some]
    exact decodeMeta_writeMeta m
  · rw [parseControl, hmessage, Option.bind_some]
    exact decodeControl_writeControl hfits
  · intro base
    rw [hread, Option.map_some]

end

/-! A patch that clears the color of a session, in the texts the crate really prints. -/

def greenMeta : SessionMeta where
  id := "s"
  command := ["sh"]
  displayCommand := "sh"
  cwd := "/"
  status := .running
  priorityReason := .running
  daemonPid := none
  cols := 80
  rows := 24
  headless := none
  socketPath := "/s"
  clientVersion := none
  createdAt := "t"
  updatedAt := "t"
  lastActivityAt := "t"
  attentionMatchedAt := none
  attentionReason := none
  completedAt := none
  exitCode := none
  error := none
  origin := none
  clientLabel := none
  name := none
  priority := none
  color := some (some .green)
  theme := none
  userPaused := none
  terminalTitle := none
  attentionSnippet := none
  progress := none

def greenText : String :=
  "\x7b\n  \"id\": \"s\",\n  \"command\": [\n    \"sh\"\n  ],\n  \"displayCommand\": \"sh\"," ++
    "\n  \"cwd\": \"/\",\n  \"status\": \"running\",\n  \"priorityReason\": \"running\"," ++
    "\n  \"cols\": 80,\n  \"rows\": 24,\n  \"socketPath\": \"/s\",\n  \"createdAt\": \"t\"," ++
    "\n  \"updatedAt\": \"t\",\n  \"lastActivityAt\": \"t\",\n  \"color\": \"green\"\n\x7d"

def noColor : SessionMetaPatch := { color := some none }

def noColorText : String := "\x7b\"color\":null\x7d"

def pingText : String := "\x7b\"kind\":\"ping\"\x7d"

/-- The crate on these three documents, which their first keys tell apart. -/
def sampleSerde : SerdeJson where
  toText
    | .object ((key, _) :: _) => if key = encode "kind" then pingText else noColorText
    | _ => ""
  toTextPretty _ := greenText
  fromText text :=
    if text = greenText ++ "\n" then some (.object (writeMeta greenMeta))
    else if text = noColorText then some (.object (writePatch noColor))
    else if text = pingText then some (.object (writeControl .ping))
    else none

theorem sampleSerde_toTextPretty (d : Doc) : sampleSerde.toTextPretty d = greenText := rfl

theorem sampleSerde_fromText (text : String) :
    sampleSerde.fromText text =
      if text = greenText ++ "\n" then some (.object (writeMeta greenMeta))
      else if text = noColorText then some (.object (writePatch noColor))
      else if text = pingText then some (.object (writeControl .ping))
      else none := rfl

theorem json_round_trip_no_color :
    (parsePatch sampleSerde (serializePatch sampleSerde noColor)).map (mergePatch greenMeta) =
      some { greenMeta with color := some none } := by
  have hmeta : sampleSerde.fromText (serializeSessionMeta sampleSerde greenMeta) =
      some (.object (writeMeta greenMeta)) := by
    rw [serializeSessionMeta, sampleSerde_toTextPretty, sampleSerde_fromText, if_pos rfl]
  have hpatch : sampleSerde.fromText (serializePatch sampleSerde noColor) =
      some (.object (writePatch noColor)) := by
    have htext : serializePatch sampleSerde noColor = noColorText := rfl
    rw [htext, sampleSerde_fromText, if_neg (by decide +kernel), if_pos rfl]
  have hping : sampleSerde.fromText (serializeControl sampleSerde .ping) =
      some (.object (writeControl .ping)) := by
    have htext : serializeControl sampleSerde .ping = pingText := rfl
    rw [htext, sampleSerde_fromText, if_neg (by decide +kernel), if_neg (by decide), if_pos rfl]
  exact (json_round_trip sampleSerde hmeta hpatch hping trivial).2.2.2 greenMeta

end Climon.Remote.ControlFormat
