import Empyralis.Kernel.Protocol

/-! The decision of the kernel on a frame of a gateway. -/

namespace Empyralis.Kernel.GatewayFrame
open Text (trim rustSpace)

def maxGatewayFrameBytes : Nat := 16 * 1024 * 1024

def maxGatewayJsonDepth : Nat := 32

def supportedProtocolVersion : String := "v1alpha2"

/-- `text_any` -/
def textAny (payload : Json) (keys : List String) : String := (keys.findSome? (stringField payload)).getD ""

/-- A text under the first of the keys, and nothing under the others. -/
theorem textAny_of_get {payload : Json} {key value : String} {keys : List String}
    (h : payload.get key = some (.string value)) (hkeys : ∀ other ∈ keys, payload.get other = none) :
    textAny payload (key :: keys) = (present value).getD "" := by
  have hfirst : stringField payload key = present value := by rw [stringField, h]; rfl
  have hothers : keys.findSome? (stringField payload) = none := by
    rw [List.findSome?_eq_none_iff]
    intro other hother
    rw [stringField, hkeys other hother]
    rfl
  rw [textAny, List.findSome?_cons, hfirst, hothers]
  cases present value <;> rfl

/-- `str::parse::<u64>` -/
def parseU64 (text : String) : Option Nat :=
  let digits : List Char := match text.toList with
    | '+' :: rest => rest
    | cs => cs
  let n := digits.foldl (fun n c => 10 * n + (c.toNat - 48)) 0
  if digits ≠ [] ∧ digits.all Char.isDigit ∧ n ≤ u64Max then some n else none

def numeric : Json → Option Nat
  | .number value => value.asU64
  | .string value => parseU64 (trim rustSpace value)
  | _ => none

/-- `numeric_any` -/
def numericAny (payload : Json) (keys : List String) : Option Nat :=
  keys.findSome? fun key => (payload.get key).bind numeric

theorem numericAny_of_get {payload : Json} {key : String} {keys : List String} {n : Nat}
    (h : payload.get key = some (.number (.posInt n))) (hn : n ≤ u64Max) :
    numericAny payload (key :: keys) = some n := by
  have hfirst : (payload.get key).bind numeric = some n := by
    rw [h]
    exact if_pos hn
  rw [numericAny, List.findSome?_cons, hfirst]

theorem numericAny_eq_none {payload : Json} {keys : List String} (h : ∀ key ∈ keys, payload.get key = none) :
    numericAny payload keys = none := by
  rw [numericAny, List.findSome?_eq_none_iff]
  intro key hkey
  rw [h key hkey]
  rfl

def lowercase (value : String) : String := String.ofList (value.toList.map Char.toLower)

/-- `boolish` -/
def boolishOr (payload : Json) (key : String) (default : Bool) : Bool :=
  match payload.get key with
  | some (.bool value) => value
  | some (.string value) =>
    let text := lowercase (trim rustSpace value)
    if ["1", "true", "yes", "y", "enabled"].contains text then true
    else if ["0", "false", "no", "n", "disabled"].contains text then false
    else default
  | _ => default

theorem boolishOr_of_absent {payload : Json} {key : String} (h : payload.get key = none) (default : Bool) :
    boolishOr payload key default = default := by
  rw [boolishOr, h]

/-- `normalize_token` -/
def normalizeToken (raw : String) : String :=
  String.ofList ((lowercase (trim rustSpace raw)).toList.map fun c => if c = '-' then '_' else c)

/-- `normalize_operation` -/
def normalizeOperation (raw : String) : String :=
  let token := normalizeToken raw
  if ["parse", "parse_frame", "validate"].contains token then "validate_frame" else token

/-- What is said of a frame that is allowed. -/
structure Allowed where
  reason : String
  operation : String
  nextAction : String
  frameKind : String
  messageType : String
  frameId : String
  cacheable : Bool
  seq : Option Nat
  ack : Option Nat
  deriving DecidableEq

/-- What the kernel answers. -/
inductive Reply where
  | block (reason frameKind messageType : String) (closeCode : Nat)
  | allow (allowed : Allowed)
  deriving DecidableEq

/-- What is said of the size, the depth, the kind and the type of a frame, and the code with which the socket is
    closed. -/
def shapeReason (payload : Json) (kind messageType : String) : Option (String × Nat) :=
  if ¬ boolishOr payload "frame_object" true then some ("gateway_frame_not_object", 4408)
  else if maxGatewayFrameBytes < (numericAny payload ["raw_size_bytes", "frame_size_bytes", "payload_size_bytes"]).getD 0 then
    some ("gateway_frame_too_large", 4409)
  else if maxGatewayJsonDepth < (numericAny payload ["json_depth", "depth"]).getD 0 then
    some ("gateway_frame_too_deep", 4408)
  else if kind = "" then some ("gateway_frame_kind_missing", 4408)
  else if ¬ ["request", "response", "event"].contains kind then some ("gateway_frame_kind_invalid", 4408)
  else if kind ≠ "response" ∧ trim rustSpace messageType = "" then some ("gateway_frame_type_missing", 4408)
  else none

/-- A number that is below the one before it. -/
def regressed (next previous : Option Nat) : Bool := next.any fun n => previous.any (n < ·)

/-- What is said of the first frame of a connection. -/
def connectReason (payload : Json) (kind messageType : String) : Option String :=
  if kind ≠ "request" ∨ messageType ≠ "gateway.connect" then some "gateway_connect_required"
  else
    let version := textAny payload ["client_protocol_version", "protocol_version", "protocolVersion"]
    if version = "" then some "gateway_protocol_version_required"
    else if version ≠ supportedProtocolVersion then some "gateway_protocol_version_unsupported"
    else none

/-- What is said of the id, the sequence and the scope of a frame that is none that was seen before. -/
def frameReason (payload : Json) (kind messageType frameId : String) (seq ack : Option Nat) : Option (String × Nat) :=
  if (kind = "request" ∨ kind = "response") ∧ frameId = "" then some ("gateway_frame_id_missing", 4408)
  else if regressed seq (numericAny payload ["previous_seq", "last_seq"]) then some ("gateway_frame_seq_regressed", 4408)
  else if regressed ack (numericAny payload ["previous_ack", "last_ack"]) then some ("gateway_frame_ack_regressed", 4408)
  else match if boolishOr payload "first_frame" false then connectReason payload kind messageType else none with
    | some reason => some (reason, 4408)
    | none =>
      if boolishOr payload "scope_required" false ∧ ¬ boolishOr payload "scope_matches_registration" true then
        some ("gateway_scope_mismatch", 4403)
      else none

/-- What the caller is told to do next. -/
def nextAction (kind messageType : String) : String :=
  if kind = "request" then
    if messageType = "gateway.connect" then "accept_gateway_connect" else "route_gateway_request"
  else if kind = "response" then "resolve_gateway_response"
  else if kind = "event" then "handle_gateway_event"
  else "record_gateway_frame"

/-- `gateway_frame_decision_command` -/
def gatewayFrameDecisionCommand (payload : Json) : Reply :=
  let kind := normalizeToken (textAny payload ["kind", "frame_kind"])
  let messageType := textAny payload ["type", "message_type"]
  let operation := normalizeOperation (textAny payload ["operation", "action"])
  let operation := if operation = "" then "validate_frame" else operation
  let frameId := textAny payload ["id", "frame_id", "request_id"]
  let seq := numericAny payload ["seq", "sequence"]
  let ack := numericAny payload ["ack"]
  match shapeReason payload kind messageType with
  | some (reason, closeCode) => .block reason kind messageType closeCode
  | none =>
    if boolishOr payload "duplicate_frame_id" false then
      .allow ⟨"gateway_frame_duplicate_replay_allowed", operation, "replay_cached_frame_response", kind, messageType,
        frameId, true, none, none⟩
    else match frameReason payload kind messageType frameId seq ack with
      | some (reason, closeCode) => .block reason kind messageType closeCode
      | none =>
        .allow ⟨"gateway_frame_allowed", operation, nextAction kind messageType, kind, messageType, frameId, false,
          seq, ack⟩

end Empyralis.Kernel.GatewayFrame
