import NeuralTts.Daemon.Framing
import NeuralTts.Daemon.VoiceIndexHistory
import NeuralTts.Library.Json

/-! The control socket (`control.py`), with the client's side of it as `neural-tts-ctl`, `neural-tts-say`
and `sd-neural-tts` have it: JSON in frames of a length and a body. -/

namespace Daemon

open Library

def maxControlFrame : Nat := 64 * 1024

def encodeUtf8 (text : List Char) : Bytes := (String.ofList text).toUTF8.data.toList

def decodeUtf8 (raw : Bytes) : Option (List Char) := (String.fromUTF8? ⟨raw.toArray⟩).map String.toList

/-- The body of a frame: `json.dumps(obj, separators=(",", ":")).encode("utf-8")`. -/
def jsonBody (v : Json) : Bytes := encodeUtf8 (Json.dumps v)

/-- How many arrays and objects `json` can read, and write, in one another before it raises a `RecursionError`;
a few there always are. -/
structure Room where
  reads : Nat
  writes : Nat
  reads_few : 8 ≤ reads
  writes_few : 8 ≤ writes

/-- `json.loads(raw.decode("utf-8"))` -/
def parseBody (room : Room) (raw : Bytes) : Option Json := (decodeUtf8 raw).bind (Json.loads room.reads)

/-- `_read_json`; whatever it raises, the handler logs it and closes the connection. -/
def readJson (room : Room) (reader : Bytes) : Option Json :=
  match readexactly reader 4 with
  | (.error _, _) => none
  | (.ok head, rest) =>
    let length := unpackLength head
    if length = 0 ∨ length > maxControlFrame then none
    else
      match readexactly rest length with
      | (.error _, _) => none
      | (.ok raw, _) => parseBody room raw

/-- Whether the frame of a value can be made: `struct.pack` raises for a length of more than four bytes. -/
def Room.Frames (room : Room) (v : Json) : Prop := v.depth ≤ room.writes ∧ (jsonBody v).length < 256 ^ 4

instance (room : Room) (v : Json) : Decidable (room.Frames v) := inferInstanceAs (Decidable (_ ∧ _))

def writeJson (room : Room) (v : Json) : Bytes :=
  if room.Frames v then packLength (jsonBody v).length ++ jsonBody v else []

/-- An exception as a reply shows it: `text` is `str(e)`. -/
inductive ControlError
  | notInstalled (text : String)
  | unknown (text : String)
  | other (typeName text : String)

def ControlError.text : ControlError → String
  | .notInstalled text | .unknown text => text
  | .other typeName text => typeName ++ ": " ++ text

def errorReply (text : String) : Json :=
  .object [("ok".toList, .bool false), ("error".toList, .str text)]

/-- What the operations come to for one connection, and `repr` of a value, or of `None`. -/
structure ControlOps where
  status : Except ControlError Json
  listVoices : Except ControlError Json
  reloadVoices : Except ControlError Json
  listProviders : Except ControlError Json
  repr : Option Json → Except ControlError String

def ControlOps.unknownOp (ops : ControlOps) (op : Option Json) : Except ControlError Json :=
  (ops.repr op).map fun shown => errorReply ("unknown op " ++ shown)

/-- The operation that a request names, if there is one of that name. -/
def ControlOps.outcome (ops : ControlOps) (op : Option Json) : Except ControlError Json :=
  match op with
  | some (.string name) =>
    if name = "status".toList then ops.status
    else if name = "list-voices".toList then ops.listVoices
    else if name = "reload-voices".toList then ops.reloadVoices
    else if name = "list-providers".toList then ops.listProviders
    else ops.unknownOp op
  | _ => ops.unknownOp op

def ControlOps.reply (ops : ControlOps) (request : Json) : Json :=
  match ops.outcome (request.get "op") with
  | .ok reply => reply
  | .error e => errorReply e.text

/-- `handle_control_connection`: what it writes before it closes the connection. A request that is no
object has no `get`, which raises where nothing replies. -/
def handleControlConnection (room : Room) (ops : ControlOps) (reader : Bytes) : Bytes :=
  match readJson room reader with
  | some (.object members) => writeJson room (ops.reply (.object members))
  | _ => []

/-- `_round_trip` of `neural-tts-ctl` and `control_request` of the others; `none` is what they raise. -/
def controlRequest (room : Room) (serve : Bytes → Bytes) (request : Json) : Option Json :=
  if room.Frames request then
    match readexactly (serve (packLength (jsonBody request).length ++ jsonBody request)) 4 with
    | (.error _, _) => none
    | (.ok head, rest) =>
      match readexactly rest (unpackLength head) with
      | (.error _, _) => none
      | (.ok raw, _) => parseBody room raw
  else none

def Gender.text : Gender → String
  | .male => "MALE"
  | .female => "FEMALE"
  | .neutral => "NEUTRAL"

def Voice.members (v : Voice) : List (List Char × Json) :=
  [("id".toList, .str v.id), ("language".toList, .str v.language), ("gender".toList, .str v.gender.text),
    ("display_name".toList, (v.displayName.map Json.str).getD .null),
    ("extra_languages".toList, .array (v.extraLanguages.map Json.str))]

def Gender.ofText (text : String) : Option Gender :=
  if text = "MALE" then some .male
  else if text = "FEMALE" then some .female
  else if text = "NEUTRAL" then some .neutral
  else none

def optionalText : Option Json → Option (Option String)
  | none | some .null => some none
  | some shown => shown.asText.map some

/-- `tuple(raw.get(key) or ())` of strings. -/
def textsOf : Option Json → Option (List String)
  | none | some .null => some []
  | some (.array items) => items.mapM Json.asText
  | some _ => none

/-- `Voice.from_json`; `none` is an exception, or a value of another type than the annotations say. -/
def Voice.fromJson (raw : Json) : Option Voice := do
  let id ← (raw.get "id").bind Json.asText
  let language ← (raw.get "language").bind Json.asText
  let gender ← ((raw.get "gender").bind Json.asText).bind Gender.ofText
  let displayName ← optionalText (raw.get "display_name")
  let extraLanguages ← textsOf (raw.get "extra_languages")
  return ⟨id, language, gender, displayName, extraLanguages⟩

/-- `{**v.to_json(), "provider": idx.provider_for(v.id)}` -/
def VoiceIndex.row (idx : VoiceIndex) (v : Voice) : Json :=
  .object (v.members ++ [("provider".toList, ((idx.providerFor v.id).map Json.str).getD .null)])

def VoiceIndex.listVoicesReply (idx : VoiceIndex) : Json :=
  .object [("ok".toList, .bool true), ("voices_count".toList, .natural idx.allVoices.length),
    ("voices".toList, .array (idx.allVoices.map idx.row))]

section

variable {room client daemon : Room} {ops : ControlOps} {v : Json}

theorem decodeUtf8_encodeUtf8 (text : List Char) : decodeUtf8 (encodeUtf8 text) = some text := by
  have valid : String.fromUTF8? (String.ofList text).toUTF8 = some (String.ofList text) :=
    dif_pos (String.ofList text).isValidUTF8
  rw [decodeUtf8, encodeUtf8, Array.toArray_toList, valid, Option.map_some, String.toList_ofList]

theorem length_le_encodeUtf8 (text : List Char) : text.length ≤ (encodeUtf8 text).length := by
  have size (text : List Char) : text.length ≤ text.utf8Encode.size := by
    induction text with
    | nil => exact Nat.zero_le _
    | cons c text ih =>
      have positive : 0 < [c].utf8Encode.size := by
        rw [List.utf8Encode_singleton, List.size_toByteArray, String.length_utf8EncodeChar]
        exact Char.utf8Size_pos c
      rw [List.utf8Encode_cons, ByteArray.size_append, List.length_cons]
      omega
  have bytes : (String.ofList text).toUTF8 = text.utf8Encode := String.toByteArray_ofList
  rw [encodeUtf8, bytes]
  exact size text

theorem parseBody_jsonBody (proper : Json.Proper v) (shallow : v.depth ≤ room.reads) :
    parseBody room (jsonBody v) = some v := by
  rw [parseBody, jsonBody, decodeUtf8_encodeUtf8, Option.bind_some, Json.loads_dumps proper shallow]

theorem jsonBody_ne_nil (proper : Json.Proper v) : jsonBody v ≠ [] := by
  obtain ⟨c, s, starts, -⟩ := Json.dumps_head proper
  intro empty
  have read := decodeUtf8_encodeUtf8 (Json.dumps v)
  rw [← jsonBody, empty, starts] at read
  cases read

theorem proper_str (s : String) : Json.Proper (.str s) := .string _

theorem proper_errorReply (text : String) : Json.Proper (errorReply text) := by
  have keys : ["ok".toList, "error".toList].Nodup := by decide
  rw [errorReply]
  constructor
  · exact keys
  · simp only [List.forall_mem_cons]
    exact ⟨.bool false, proper_str text, List.forall_mem_nil _⟩

structure ControlOps.Proper (ops : ControlOps) : Prop where
  status : ∀ reply, ops.status = .ok reply → Json.Proper reply
  listVoices : ∀ reply, ops.listVoices = .ok reply → Json.Proper reply
  reloadVoices : ∀ reply, ops.reloadVoices = .ok reply → Json.Proper reply
  listProviders : ∀ reply, ops.listProviders = .ok reply → Json.Proper reply

theorem proper_reply (proper : ops.Proper) (request : Json) : Json.Proper (ops.reply request) := by
  have unknown (op : Option Json) (reply : Json) (returned : ops.unknownOp op = .ok reply) : Json.Proper reply := by
    unfold ControlOps.unknownOp at returned
    cases shown : ops.repr op with
    | error e =>
      rw [shown] at returned
      cases returned
    | ok shown' =>
      rw [shown] at returned
      cases returned
      exact proper_errorReply _
  have outcome (op : Option Json) (reply : Json) (returned : ops.outcome op = .ok reply) : Json.Proper reply := by
    unfold ControlOps.outcome at returned
    split at returned
    · split at returned
      · exact proper.status reply returned
      · split at returned
        · exact proper.listVoices reply returned
        · split at returned
          · exact proper.reloadVoices reply returned
          · split at returned
            · exact proper.listProviders reply returned
            · exact unknown _ reply returned
    · exact unknown _ reply returned
  rw [ControlOps.reply]
  split
  · rename_i reply returned
    exact outcome _ reply returned
  · exact proper_errorReply _

theorem readexactly_packLength (n : Nat) (rest : Bytes) : readexactly (packLength n ++ rest) 4 = (.ok (packLength n), rest) := by
  have head := readexactly_append (packLength n) rest
  rwa [length_packLength] at head

theorem readexactly_self (raw : Bytes) : readexactly raw raw.length = (.ok raw, []) := by
  have whole := readexactly_append raw []
  rwa [List.append_nil] at whole

theorem readJson_frame (proper : Json.Proper v) (small : (jsonBody v).length < 256 ^ 4)
    (shallow : v.depth ≤ room.reads) : readJson room (packLength (jsonBody v).length ++ jsonBody v) =
      if (jsonBody v).length ≤ maxControlFrame then some v else none := by
  have positive : 0 < (jsonBody v).length := List.length_pos_iff.mpr (jsonBody_ne_nil proper)
  simp only [readJson, readexactly_packLength, unpackLength_packLength _ small]
  by_cases fits : (jsonBody v).length ≤ maxControlFrame
  · rw [if_neg (by omega), if_pos fits, readexactly_self]
    exact parseBody_jsonBody proper shallow
  · rw [if_pos (by omega), if_neg fits]

theorem controlRequest_writes {serve : Bytes → Bytes} {request reply : Json} (proper : Json.Proper reply)
    (asks : client.Frames request) (replies : daemon.Frames reply) (shallow : reply.depth ≤ client.reads)
    (serves : serve (packLength (jsonBody request).length ++ jsonBody request) = writeJson daemon reply) :
    controlRequest client serve request = some reply := by
  rw [controlRequest, if_pos asks, serves, writeJson, if_pos replies]
  simp only [readexactly_packLength, unpackLength_packLength _ replies.2, readexactly_self,
    parseBody_jsonBody proper shallow]

theorem controlRequest_silent {serve : Bytes → Bytes} {request : Json}
    (serves : serve (packLength (jsonBody request).length ++ jsonBody request) = []) :
    controlRequest client serve request = none := by
  rw [controlRequest, serves, readexactly_short (by decide), ite_self]

/-- A request that is not nested too deep is answered exactly when it is an object and its frame is no longer
than 64 KiB, and then the client has the very reply that the handler made; else it is left without one. -/
theorem controlRequest_handled (client daemon : Room) (ops : ControlOps) (request : Json) (proper : Json.Proper request)
    (nested : request.depth ≤ min client.writes daemon.reads) (returns : ops.Proper)
    (fits : request.isObject = true → (ops.reply request).depth ≤ min daemon.writes client.reads ∧
      (jsonBody (ops.reply request)).length < 256 ^ 4) :
    controlRequest client (handleControlConnection daemon ops) request =
      if (jsonBody request).length ≤ maxControlFrame ∧ request.isObject = true then some (ops.reply request)
      else none := by
  rw [le_min_iff] at nested fits
  by_cases small : (jsonBody request).length < 256 ^ 4
  · have read := readJson_frame proper small nested.2
    split
    · rename_i answered
      cases request with
      | object members =>
        obtain ⟨⟨written, heard⟩, short⟩ := fits rfl
        apply controlRequest_writes (proper_reply returns _) ⟨nested.1, small⟩ ⟨written, short⟩ heard
        rw [handleControlConnection, read, if_pos answered.1]
      | _ => cases answered.2
    · rename_i unanswered
      apply controlRequest_silent
      rw [handleControlConnection, read]
      by_cases short : (jsonBody request).length ≤ maxControlFrame
      · rw [if_pos short]
        cases request with
        | object members => exact absurd ⟨short, rfl⟩ unanswered
        | _ => rfl
      · rw [if_neg short]
  · have long : ¬(jsonBody request).length ≤ maxControlFrame := by
      unfold maxControlFrame
      omega
    rw [controlRequest, if_neg fun asks => small asks.2, if_neg fun answered => long answered.1]

def idleOps : ControlOps := ⟨.ok .null, .ok .null, .ok .null, .ok .null, fun _ => .ok "'switch'"⟩

def switchRequest : Json := .object [("op".toList, .str "switch")]

def roomy : Room := ⟨980, 980, by decide, by decide⟩

theorem switch_refused : controlRequest roomy (handleControlConnection roomy idleOps) switchRequest =
    some (errorReply "unknown op 'switch'") := by
  have proper : Json.Proper switchRequest := by
    have keys : ["op".toList].Nodup := by decide
    rw [switchRequest]
    constructor
    · exact keys
    · simp only [List.forall_mem_cons]
      exact ⟨.string _, List.forall_mem_nil _⟩
  have null : ∀ reply, Except.ok Json.null = (.ok reply : Except ControlError Json) → Json.Proper reply := by
    intro reply same
    cases same
    exact .null
  have short : (jsonBody switchRequest).length ≤ maxControlFrame := by decide +kernel
  have fits : (jsonBody (idleOps.reply switchRequest)).length < 256 ^ 4 := by decide +kernel
  have shallow : (idleOps.reply switchRequest).depth ≤ min roomy.writes roomy.reads := by decide
  rw [controlRequest_handled roomy roomy idleOps switchRequest proper (by decide) ⟨null, null, null, null⟩
    (fun _ => ⟨shallow, fits⟩), if_pos ⟨short, rfl⟩]
  rfl

theorem optionalText_str (shown : Option String) : optionalText (some ((shown.map Json.str).getD .null)) = some shown := by
  cases shown with
  | none => rfl
  | some shown => exact congrArg (Option.map some) (Json.asText_str shown)

theorem textsOf_array (texts : List String) : textsOf (some (.array (texts.map Json.str))) = some texts := by
  rw [textsOf]
  induction texts with
  | nil => rfl
  | cons text rest ih =>
    rw [List.map_cons, List.mapM_cons, Json.asText_str, ih]
    rfl

theorem ofText_text (gender : Gender) : Gender.ofText gender.text = some gender := by
  cases gender <;> decide

theorem fromJson_members (v : Voice) (more : List (List Char × Json)) :
    Voice.fromJson (.object (v.members ++ more)) = some v := by
  simp only [Voice.fromJson, Voice.members, List.cons_append, Json.get_cons, String.reduceEq, if_true, if_false,
    Option.bind_some, Json.asText_str, ofText_text, optionalText_str, textsOf_array]
  rfl

end

end Daemon
