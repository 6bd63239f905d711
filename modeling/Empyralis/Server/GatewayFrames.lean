import Empyralis.Gateway.Codec
import Empyralis.Kernel.GatewayFrame

/-! What the server checks of each frame that a gateway sends.

    A text is a list of UTF-16 code units, as it is for the gateway; the kernel has characters, and no request with half
    of a pair of units. `json.loads`, and `int` and `str` of what it has read, are parameters. -/

namespace Empyralis.Server.GatewayFrames
open Gateway.Codec (JsString Json js byteLength isHighSurrogate isLowSurrogate)
open Kernel.GatewayFrame (maxGatewayFrameBytes maxGatewayJsonDepth)

/-- `GatewayFrameValidationError` -/
structure ValidationError where
  errorCode : String
  reason : String
  closeCode : Nat
  deriving DecidableEq

/-! ### Texts -/

/-- The white space of `str.strip`. -/
def pySpace (unit : UInt16) : Bool :=
  (9 ≤ unit && unit ≤ 13) || (0x1C ≤ unit && unit ≤ 0x20) || (0x2000 ≤ unit && unit ≤ 0x200A) ||
    [0x85, 0xA0, 0x1680, 0x2028, 0x2029, 0x202F, 0x205F, 0x3000].contains unit

/-- `str.strip` -/
def strip (text : JsString) : JsString := (text.dropWhile pySpace).rdropWhile pySpace

theorem strip_strip (text : JsString) : strip (strip text) = strip text :=
  Text.dropWhile_rdropWhile_idempotent pySpace text

/-- The character of a pair of units. -/
def pairChar (high low : UInt16) : Char :=
  Char.ofNat (0x10000 + (high.toNat - 0xD800) * 0x400 + (low.toNat - 0xDC00))

/-- The characters of a text, `none` where half of a pair is on its own. -/
def characters : JsString → Option (List Char)
  | [] => some []
  | [unit] => if isHighSurrogate unit || isLowSurrogate unit then none else some [Char.ofNat unit.toNat]
  | high :: low :: rest =>
    if isHighSurrogate high && isLowSurrogate low then (characters rest).map (pairChar high low :: ·)
    else if isHighSurrogate high || isLowSurrogate high then none
    else (characters (low :: rest)).map (Char.ofNat high.toNat :: ·)

/-- A lone surrogate has no character. -/
def decode (text : JsString) : Option String := (characters text).map String.ofList

/-- The truth of a value in Python. -/
def truthy : Json → Bool
  | .null => false
  | .bool value => value
  | .number n => n.text ≠ js "0"
  | .string value => value ≠ []
  | .array items => !items.isEmpty
  | .object fields => !fields.isEmpty

variable (repr : Json → JsString)

/-- `str(value)`; `repr` is the text of what is no string. -/
def str : Json → JsString
  | .string value => value
  | value => repr value

/-- `str(value or other or .. or "").strip()` -/
def token (values : List (Option Json)) : JsString :=
  match values.findSome? fun value => value.filter truthy with
  | none => []
  | some value => strip (str repr value)

variable {repr} in
theorem token_eq_strip (values : List (Option Json)) : ∃ text, token repr values = strip text := by
  rw [token]
  split
  · exact ⟨[], rfl⟩
  · exact ⟨_, rfl⟩

/-! ### The nesting of a value -/

mutual

/-- `_walk` -/
def walk (limit : Nat) : Json → Nat → Nat
  | .array (item :: items), depth => if limit < depth then depth else walkItems limit (item :: items) (depth + 1)
  | .object (field :: fields), depth => if limit < depth then depth else walkFields limit (field :: fields) (depth + 1)
  | _, depth => depth

def walkItems (limit : Nat) : List Json → Nat → Nat
  | [], _ => 0
  | child :: rest, depth => max (walk limit child depth) (walkItems limit rest depth)

def walkFields (limit : Nat) : List (JsString × Json) → Nat → Nat
  | [], _ => 0
  | (_, child) :: rest, depth => max (walk limit child depth) (walkFields limit rest depth)

end

/-- `_json_depth` -/
def jsonDepth (value : Json) : Nat := walk maxGatewayJsonDepth value 0

mutual

/-- How many values are in each other: a value that has no others in it is on level 0. -/
def levels : Json → Nat
  | .array items => levelsItems items
  | .object fields => levelsFields fields
  | _ => 0

def levelsItems : List Json → Nat
  | [] => 0
  | child :: rest => max (levels child + 1) (levelsItems rest)

def levelsFields : List (JsString × Json) → Nat
  | [] => 0
  | (_, child) :: rest => max (levels child + 1) (levelsFields rest)

end

mutual

/-- The walk stops beyond the limit, and tells what is beyond it. -/
theorem walk_le_iff (limit : Nat) : ∀ (value : Json) (depth : Nat),
    walk limit value depth ≤ limit ↔ depth + levels value ≤ limit
  | .array [], depth => by simp [walk, levels, levelsItems]
  | .array (item :: items), depth => by
    rw [walk, levels]
    split
    · omega
    · rename_i hdepth
      exact walkItems_le_iff limit (item :: items) depth (Nat.not_lt.mp hdepth)
  | .object [], depth => by simp [walk, levels, levelsFields]
  | .object (field :: fields), depth => by
    rw [walk, levels]
    split
    · omega
    · rename_i hdepth
      exact walkFields_le_iff limit (field :: fields) depth (Nat.not_lt.mp hdepth)
  | .null, depth => by simp [walk, levels]
  | .bool _, depth => by simp [walk, levels]
  | .number _, depth => by simp [walk, levels]
  | .string _, depth => by simp [walk, levels]

theorem walkItems_le_iff (limit : Nat) : ∀ (items : List Json) (depth : Nat), depth ≤ limit →
    (walkItems limit items (depth + 1) ≤ limit ↔ depth + levelsItems items ≤ limit)
  | [], depth, h => by rw [walkItems, levelsItems]; omega
  | child :: rest, depth, h => by
    have hchild := walk_le_iff limit child (depth + 1)
    have hrest := walkItems_le_iff limit rest depth h
    rw [walkItems, levelsItems]
    omega

theorem walkFields_le_iff (limit : Nat) : ∀ (fields : List (JsString × Json)) (depth : Nat), depth ≤ limit →
    (walkFields limit fields (depth + 1) ≤ limit ↔ depth + levelsFields fields ≤ limit)
  | [], depth, h => by rw [walkFields, levelsFields]; omega
  | (_, child) :: rest, depth, h => by
    have hchild := walk_le_iff limit child (depth + 1)
    have hrest := walkFields_le_iff limit rest depth h
    rw [walkFields, levelsFields]
    omega

end

theorem jsonDepth_le_iff (value : Json) : jsonDepth value ≤ maxGatewayJsonDepth ↔
    levels value ≤ maxGatewayJsonDepth := by
  rw [jsonDepth, walk_le_iff, Nat.zero_add]

/-! ### The checks -/

variable (loads : JsString → Option Json) (int : Json → Option Int)

/-- `_parse_frame`; `loads` is `json.loads`, `none` where it raises. -/
def parseFrame (raw : JsString) : Except ValidationError Json :=
  if maxGatewayFrameBytes < byteLength raw then
    .error ⟨"gateway_frame_too_large", "Gateway frame exceeds the maximum allowed size.", 4409⟩
  else match loads raw with
    | none => .error ⟨"gateway_frame_invalid_json", "Gateway frame must be valid JSON.", 4408⟩
    | some (.object fields) =>
      if maxGatewayJsonDepth < jsonDepth (.object fields) then
        .error ⟨"gateway_frame_too_deep", "Gateway frame exceeds the maximum allowed nesting depth.", 4408⟩
      else .ok (.object fields)
    | some _ => .error ⟨"gateway_frame_not_object", "Gateway frame must decode to an object.", 4408⟩

/-- `_normalize` of a field; `int` is `int(value)`, `none` where it raises. -/
def normalizeSequence (frame : Json) (name : String) : Except ValidationError (Option Nat) :=
  let notInteger : ValidationError := ⟨"gateway_frame_invalid_sequence",
    s!"Gateway frame {name} must be an integer.", 4408⟩
  match frame.get name with
  | none | some .null | some (.string []) => .ok none
  | some (.bool _) => .error notInteger
  | some value => match int value with
    | none => .error notInteger
    | some n =>
      if n < 0 then .error ⟨"gateway_frame_invalid_sequence", s!"Gateway frame {name} must be non-negative.", 4408⟩
      else .ok (some n.toNat)

/-- `_normalize_frame_seq_ack` -/
def normalizeFrameSeqAck (frame : Json) : Except ValidationError (Option Nat × Option Nat) :=
  match normalizeSequence int frame "seq" with
  | .error e => .error e
  | .ok seq => match normalizeSequence int frame "ack" with
    | .error e => .error e
    | .ok ack => .ok (seq, ack)

/-- The kind as the server reads it. -/
def kindText (frame : Json) : JsString := token repr [frame.get "kind"]

/-- `_normalized_request_type` -/
def typeText (frame : Json) : JsString := token repr [frame.get "type"]

def idText (frame : Json) : JsString := token repr [frame.get "id"]

/-- The payload of a frame when it is an object. -/
def objectPayload (frame : Json) : Json :=
  match frame.get "payload" with
  | some (.object fields) => .object fields
  | _ => .object []

/-- `_connect_frame_protocol_version` -/
def protocolVersion (frame : Json) : JsString :=
  token repr [frame.get "protocolVersion", frame.get "protocol_version", (objectPayload frame).get "protocol_version"]

/-- The request that the kernel is sent. -/
structure FrameRequest where
  kind : String
  type : String
  id : String
  protocolVersion : String
  rawSizeBytes : Nat
  jsonDepth : Nat
  seq : Option Nat
  ack : Option Nat

def optionalNumber : Option Nat → Kernel.Json
  | none => .null
  | some n => .number (.posInt n)

/-- What the kernel is asked about a frame. -/
def framePayload (r : FrameRequest) : Kernel.Json :=
  .object [("operation", .string "validate_frame"), ("kind", .string r.kind), ("type", .string r.type),
    ("id", .string r.id), ("raw_size_bytes", .number (.posInt r.rawSizeBytes)), ("frame_object", .bool true),
    ("json_depth", .number (.posInt r.jsonDepth)), ("protocol_version", .string r.protocolVersion),
    ("seq", optionalNumber r.seq), ("ack", optionalNumber r.ack)]

/-- The request for a frame, `none` where the kernel cannot read it. -/
def frameRequest (raw : JsString) (frame : Json) (seq ack : Option Nat) : Option FrameRequest :=
  (decode (kindText repr frame)).bind fun kind => (decode (typeText repr frame)).bind fun type =>
    (decode (idText repr frame)).bind fun id => (decode (protocolVersion repr frame)).map fun version =>
      ⟨kind, type, id, version, byteLength raw, jsonDepth frame, seq, ack⟩

/-- What is read of the reply of the kernel: why it blocks, or its next action. -/
inductive FrameVerdict where
  | blocked (reason : String) (closeCode : Nat)
  | allowed (nextAction : String)
  deriving DecidableEq

/-- `gateway_frame_decision` and `enforce_kernel_decision` -/
def frameVerdict : Option FrameRequest → FrameVerdict
  | none => .blocked "invalid_json" 4408
  | some r => match Kernel.GatewayFrame.gatewayFrameDecisionCommand (framePayload r) with
    | .block reason _ _ closeCode => .blocked reason closeCode
    | .allow allowed => .allowed allowed.nextAction

/-- `_expected_inbound_gateway_frame_next_action` -/
def expectedNextAction (frame : Json) : String :=
  if kindText repr frame = js "request" ∧ typeText repr frame = js "gateway.connect" then "accept_gateway_connect"
  else if kindText repr frame = js "request" then "route_gateway_request"
  else if kindText repr frame = js "response" then "resolve_gateway_response"
  else if kindText repr frame = js "event" then "handle_gateway_event"
  else "record_gateway_frame"

/-- `_enforce_gateway_inbound_frame_decision` -/
def enforceInboundFrameDecision (raw : JsString) (frame : Json) (seq ack : Option Nat) : Except ValidationError Unit :=
  match frameVerdict (frameRequest repr raw frame seq ack) with
  | .blocked reason closeCode =>
    .error ⟨reason, s!"Gateway frame rejected by Rust gateway-frame gate: {reason}.", closeCode⟩
  | .allowed nextAction =>
    if nextAction = expectedNextAction repr frame then .ok ()
    else
      let shown := if nextAction = "" then "missing" else nextAction
      .error ⟨"gateway_frame_invalid_next_action", s!"Gateway frame returned unexpected next_action: {shown}.", 4408⟩

/-- What `handle_gateway_websocket` checks of a text before it looks at the frame. -/
def checkFrame (raw : JsString) : Except ValidationError Json :=
  match parseFrame loads raw with
  | .error e => .error e
  | .ok frame => match normalizeFrameSeqAck int frame with
    | .error e => .error e
    | .ok (seq, ack) => (enforceInboundFrameDecision repr raw frame seq ack).map fun _ => frame

end Empyralis.Server.GatewayFrames
