import Mathlib.Data.List.DropRight

/-! The frame codec of the gateway: `encodeFrame` and `decodeFrame`.

    A string is a list of UTF-16 code units. `JSON.stringify` is defined here for JSON values;
    `JSON.parse` is a parameter, of which a statement assumes at most that it reads back what
    `JSON.stringify` has written. The depth of the call stack is not modelled. -/

namespace Empyralis.Gateway.Codec

/-- A JavaScript string: its UTF-16 units. -/
abbrev JsString := List UInt16

/-- A literal in ASCII. -/
def js (literal : String) : JsString := literal.toList.map fun c => UInt16.ofNat c.toNat

/-- The white space and line ends that `String.prototype.trim` strips. -/
def isSpace (unit : UInt16) : Bool :=
  (9 ≤ unit && unit ≤ 13) || (0x2000 ≤ unit && unit ≤ 0x200A) ||
    [0x20, 0xA0, 0x1680, 0x2028, 0x2029, 0x202F, 0x205F, 0x3000, 0xFEFF].contains unit

/-- `String.prototype.trim` -/
def trim (text : JsString) : JsString := (text.dropWhile isSpace).rdropWhile isSpace

def isHighSurrogate (unit : UInt16) : Bool := 0xD800 ≤ unit && unit ≤ 0xDBFF

def isLowSurrogate (unit : UInt16) : Bool := 0xDC00 ≤ unit && unit ≤ 0xDFFF

/-- The bytes of a unit that is not half of a pair; a lone surrogate is written as U+FFFD. -/
def unitBytes (unit : UInt16) : Nat := if unit < 0x80 then 1 else if unit < 0x800 then 2 else 3

/-- `Buffer.byteLength(text, "utf8")` -/
def byteLength : JsString → Nat
  | [] => 0
  | [unit] => unitBytes unit
  | high :: low :: rest =>
    if isHighSurrogate high && isLowSurrogate low then 4 + byteLength rest
    else unitBytes high + byteLength (low :: rest)

/-! ### JSON values -/

/-- What the code asks of a number: its text, and whether it is an integer. -/
structure Number where
  text : JsString
  isInteger : Bool

/-- The values of `JSON.parse`; an object keeps its fields in their order. -/
inductive Json where
  | null
  | bool (value : Bool)
  | number (value : Number)
  | string (value : JsString)
  | array (items : List Json)
  | object (fields : List (JsString × Json))

namespace Json

/-- A property; `none` is `undefined`. -/
def get (key : String) : Json → Option Json
  | .object fields => fields.lookup (js key)
  | _ => none

/-- `isObject`: an array is an object too. -/
def isObject : Json → Bool
  | .array _ | .object _ => true
  | _ => false

def isBool : Json → Bool
  | .bool _ => true
  | _ => false

def isString : Json → Bool
  | .string _ => true
  | _ => false

/-- `typeof value === "number" && Number.isInteger(value)` -/
def isInteger : Json → Bool
  | .number n => n.isInteger
  | _ => false

mutual

/-- `String(value)`, `none` where it raises: an own property `toString` of an object read from JSON
    cannot be called. -/
def text : Json → Option JsString
  | .null => some (js "null")
  | .bool value => some (js (if value then "true" else "false"))
  | .number n => some n.text
  | .string value => some value
  | .array items => join items
  | .object fields => if (fields.lookup (js "toString")).isSome then none else some (js "[object Object]")

/-- `Array.prototype.join`: a `null` becomes the empty text. -/
def join : List Json → Option JsString
  | [] => some []
  | [.null] => some []
  | [item] => item.text
  | .null :: items => (join items).map (js "," ++ ·)
  | item :: items => do
    let head ← item.text
    let tail ← join items
    return head ++ js "," ++ tail

end

def hexDigit (n : Nat) : UInt16 := UInt16.ofNat (if n < 10 then 48 + n else 87 + n)

/-- `\uXXXX` -/
def unicodeEscape (unit : UInt16) : JsString :=
  js "\\u" ++ [hexDigit (unit.toNat / 4096), hexDigit (unit.toNat / 256 % 16),
    hexDigit (unit.toNat / 16 % 16), hexDigit (unit.toNat % 16)]

/-- A unit as `JSON.stringify` writes it in a string. -/
def escapeUnit (unit : UInt16) : JsString :=
  if unit = 0x22 then js "\\\""
  else if unit = 0x5C then js "\\\\"
  else if unit = 8 then js "\\b"
  else if unit = 9 then js "\\t"
  else if unit = 10 then js "\\n"
  else if unit = 12 then js "\\f"
  else if unit = 13 then js "\\r"
  else if unit < 0x20 || isHighSurrogate unit || isLowSurrogate unit then unicodeEscape unit
  else [unit]

/-- A surrogate is escaped unless it is half of a pair. -/
def escape : JsString → JsString
  | [] => []
  | [unit] => escapeUnit unit
  | high :: low :: rest =>
    if isHighSurrogate high && isLowSurrogate low then high :: low :: escape rest
    else escapeUnit high ++ escape (low :: rest)

def quote (value : JsString) : JsString := js "\"" ++ escape value ++ js "\""

mutual

/-- `JSON.stringify` -/
def stringify : Json → JsString
  | .null => js "null"
  | .bool value => js (if value then "true" else "false")
  | .number n => n.text
  | .string value => quote value
  | .array items => js "[" ++ stringifyItems items ++ js "]"
  | .object fields => js "\x7b" ++ stringifyFields fields ++ js "\x7d"

def stringifyItems : List Json → JsString
  | [] => []
  | [item] => item.stringify
  | item :: items => item.stringify ++ js "," ++ stringifyItems items

def stringifyFields : List (JsString × Json) → JsString
  | [] => []
  | [(key, value)] => quote key ++ js ":" ++ value.stringify
  | (key, value) :: fields => quote key ++ js ":" ++ value.stringify ++ js "," ++ stringifyFields fields

end

mutual

/-- `maxDepth`: the depth of the deepest value in this one. -/
def maxDepth : Json → Nat → Nat
  | .array items, currentDepth => deepestItem items currentDepth currentDepth
  | .object fields, currentDepth => deepestField fields currentDepth currentDepth
  | _, currentDepth => currentDepth

/-- The loop of `maxDepth` over the items of an array. -/
def deepestItem : List Json → Nat → Nat → Nat
  | [], _, deepest => deepest
  | child :: rest, currentDepth, deepest =>
    deepestItem rest currentDepth
      (if child.isObject then max deepest (child.maxDepth (currentDepth + 1)) else deepest)

/-- The loop of `maxDepth` over the properties of an object. -/
def deepestField : List (JsString × Json) → Nat → Nat → Nat
  | [], _, deepest => deepest
  | (_, child) :: rest, currentDepth, deepest =>
    deepestField rest currentDepth
      (if child.isObject then max deepest (child.maxDepth (currentDepth + 1)) else deepest)

end

end Json

/-! ### The codec -/

/-- `MAX_FRAME_BYTES` -/
def maxFrameBytes : Nat := 16 * 1024 * 1024

/-- `MAX_FRAME_DEPTH` -/
def maxFrameDepth : Nat := 32

/-- `SAFE_FRAME_TYPES` -/
def safeFrameTypes : List String :=
  ["gateway.connect", "gateway.heartbeat", "gateway.probe", "gateway.state.update",
    "gateway.disconnect", "tool.invoke", "tool.interrupt", "channel.outbound", "channel.media_fetch",
    "gateway.hello", "gateway.presence", "channel.inbound", "cli.login.output", "tool.invoke.chunk"]

/-- Why a frame is not accepted: an error is returned, or an exception leaves the call. -/
inductive Failure where
  | refused (error : JsString)
  | raised
  deriving DecidableEq

/-- A refusal with its text. -/
def refuse {α : Type} (error : String) : Except Failure α := .error (.refused (js error))

def isNonEmptyString (value : Option Json) (maxLength : Nat) : Bool :=
  match value with
  | some (.string text) => trim text ≠ [] && text.length ≤ maxLength
  | _ => false

/-- `typeof frame.ts !== "string" || frame.ts.trim().length === 0` -/
def validTs (frame : Json) : Bool :=
  match frame.get "ts" with
  | some (.string text) => trim text ≠ []
  | _ => false

/-- `msgType` is a string where this is asked. -/
def safeType (msgType : Option Json) : Bool :=
  match msgType with
  | some (.string text) => (safeFrameTypes.map js).contains text
  | _ => false

/-- The text of a field, empty where it has none. -/
def textOf (value : Option Json) : JsString :=
  match value with
  | some (.string text) => text
  | _ => []

/-- The checks of a request, in the order of the source. -/
def validateRequest (frame : Json) : Except Failure Unit :=
  if ¬ isNonEmptyString (frame.get "id") 256 then
    refuse "Request frame must have a non-empty 'id' (string, max 256 chars)."
  else if ¬ isNonEmptyString (frame.get "type") 128 then
    refuse "Request frame must have a non-empty 'type' (string, max 128 chars)."
  else if ¬ validTs frame then
    refuse "Request frame must have a non-empty 'ts' string."
  else if ¬ safeType (frame.get "type") then
    .error (.refused (js "Unknown request type: \"" ++ textOf (frame.get "type") ++ js "\"."))
  else if (frame.get "protocolVersion").any (!·.isString) then
    refuse "Request frame 'protocolVersion' must be a string."
  else .ok ()

/-- The checks of a response, in the order of the source. -/
def validateResponse (frame : Json) : Except Failure Unit :=
  if ¬ isNonEmptyString (frame.get "id") 256 then
    refuse "Response frame must have a non-empty 'id' (string, max 256 chars)."
  else if ¬ (frame.get "ok").any (·.isBool) then
    refuse "Response frame must have a boolean 'ok' field."
  else if ¬ validTs frame then
    refuse "Response frame must have a non-empty 'ts' string."
  else if (frame.get "protocolVersion").any (!·.isString) then
    refuse "Response frame 'protocolVersion' must be a string."
  else .ok ()

/-- The checks of an event, in the order of the source. -/
def validateEvent (frame : Json) : Except Failure Unit :=
  if ¬ isNonEmptyString (frame.get "type") 128 then
    refuse "Event frame must have a non-empty 'type' (string, max 128 chars)."
  else if ¬ validTs frame then
    refuse "Event frame must have a non-empty 'ts' string."
  else if (frame.get "scope").any (!·.isObject) then
    refuse "Event frame 'scope' must be an object."
  else if (frame.get "seq").any (!·.isInteger) then
    refuse "Event frame 'seq' must be an integer."
  else if ¬ safeType (frame.get "type") then
    .error (.refused (js "Unknown event type: \"" ++ textOf (frame.get "type") ++ js "\"."))
  else if (frame.get "protocolVersion").any (!·.isString) then
    refuse "Event frame 'protocolVersion' must be a string."
  else .ok ()

/-- `String(frame.kind ?? "").trim()` -/
def kindOf (frame : Json) : Option JsString :=
  match frame.get "kind" with
  | none | some .null => some []
  | some kind => kind.text.map trim

/-- The checks by the kind of the frame; a frame without a kind raises. -/
def validateFrame (frame : Json) : Except Failure Unit :=
  match kindOf frame with
  | none => .error .raised
  | some kind =>
    if kind = js "request" then validateRequest frame
    else if kind = js "response" then validateResponse frame
    else if kind = js "event" then validateEvent frame
    else .error (.refused (js "Unsupported gateway frame kind: \"" ++ kind ++
      js "\". Must be \"request\", \"response\", or \"event\"."))

/-- The message of a limit that is exceeded. -/
def exceeds (what : String) (limit got : Nat) (unit : String) : Failure :=
  .refused (js (what ++ toString limit ++ unit ++ " (got " ++ toString got ++ ")."))

/-- `encodeFrame`: the depth is not looked at. -/
def encodeFrame (frame : Json) : Except Failure JsString :=
  if ¬ frame.isObject then refuse "Frame must be an object."
  else
    match validateFrame frame with
    | .error failure => .error failure
    | .ok () =>
      let raw := frame.stringify
      if byteLength raw > maxFrameBytes then
        .error (exceeds "Encoded frame exceeds maximum size of " maxFrameBytes (byteLength raw) " bytes")
      else .ok raw

variable (parse : JsString → Option Json)

/-- `parse` is `JSON.parse`, `none` where it throws. -/
def decodeFrame (raw : JsString) : Except Failure Json :=
  if byteLength raw > maxFrameBytes then
    .error (exceeds "Frame exceeds maximum size of " maxFrameBytes (byteLength raw) " bytes")
  else
    match parse raw with
    | none => refuse "Frame is not valid JSON."
    | some parsed =>
      if ¬ parsed.isObject then refuse "Gateway frame must be an object."
      else if parsed.maxDepth 1 > maxFrameDepth then
        .error (exceeds "Frame exceeds maximum nesting depth of " maxFrameDepth (parsed.maxDepth 1) "")
      else
        match validateFrame parsed with
        | .error failure => .error failure
        | .ok () => .ok parsed

variable {parse} {frame : Json} {raw : JsString}

/-- What is encoded has passed the checks and is within the limit of the bytes. -/
theorem encodeFrame_ok : encodeFrame frame = .ok raw ↔
    frame.isObject ∧ validateFrame frame = .ok () ∧ frame.stringify = raw ∧
      byteLength raw ≤ maxFrameBytes := by
  unfold encodeFrame
  by_cases hobject : frame.isObject
  · rw [if_neg (not_not.mpr hobject)]
    cases hvalid : validateFrame frame with
    | error failure => simp
    | ok =>
      by_cases hbytes : byteLength frame.stringify > maxFrameBytes
      · rw [if_pos hbytes]
        refine iff_of_false (by simp) ?_
        rintro ⟨_, _, rfl, hle⟩
        exact absurd hle (Nat.not_le.mpr hbytes)
      · rw [if_neg hbytes, Except.ok.injEq]
        refine ⟨?_, fun h => h.2.2.1⟩
        rintro rfl
        exact ⟨hobject, rfl, rfl, Nat.not_lt.mp hbytes⟩
  · rw [if_pos hobject]
    exact iff_of_false (by simp [refuse]) (fun h => hobject h.1)

/-- What is decoded has passed the checks and is within both limits. -/
theorem decodeFrame_ok : decodeFrame parse raw = .ok frame ↔
    byteLength raw ≤ maxFrameBytes ∧ parse raw = some frame ∧ frame.isObject ∧
      frame.maxDepth 1 ≤ maxFrameDepth ∧ validateFrame frame = .ok () := by
  unfold decodeFrame
  by_cases hbytes : byteLength raw > maxFrameBytes
  · rw [if_pos hbytes]
    exact iff_of_false (by simp) fun h => absurd h.1 (Nat.not_le.mpr hbytes)
  rw [if_neg hbytes]
  cases hparse : parse raw with
  | none => simp [refuse]
  | some parsed =>
    by_cases hobject : parsed.isObject
    · by_cases hdepth : parsed.maxDepth 1 > maxFrameDepth
      · simp only [hobject, not_true_eq_false, if_false, if_pos hdepth]
        refine iff_of_false (by simp) ?_
        rintro ⟨_, hframe, _, hle, _⟩
        rw [← Option.some.inj hframe] at hle
        exact absurd hle (Nat.not_le.mpr hdepth)
      · simp only [hobject, not_true_eq_false, if_false, if_neg hdepth]
        cases hvalid : validateFrame parsed with
        | error failure =>
          refine iff_of_false (by simp) ?_
          rintro ⟨_, hframe, _, _, hok⟩
          rw [← Option.some.inj hframe, hvalid] at hok
          exact absurd hok (by simp)
        | ok =>
          rw [Except.ok.injEq]
          refine ⟨?_, fun h => Option.some.inj h.2.1⟩
          rintro rfl
          exact ⟨Nat.not_lt.mp hbytes, rfl, hobject, Nat.not_lt.mp hdepth, hvalid⟩
    · simp only [hobject, refuse]
      refine iff_of_false (by simp) ?_
      rintro ⟨_, hframe, hframe', _⟩
      exact hobject (Option.some.inj hframe ▸ hframe')

/-- A frame that the encoder accepts is read back just when it is not nested too deeply; a frame that
    the decoder accepts is encoded again just when the text that is made of it is not too long. -/
theorem frame_codec_iff : (∀ frame raw, encodeFrame frame = .ok raw → parse raw = some frame →
      (decodeFrame parse raw = .ok frame ↔ frame.maxDepth 1 ≤ maxFrameDepth)) ∧
    ∀ raw frame, decodeFrame parse raw = .ok frame →
      ((∃ text, encodeFrame frame = .ok text) ↔ byteLength frame.stringify ≤ maxFrameBytes) := by
  refine ⟨?_, ?_⟩
  · intro frame raw hencode hparse
    obtain ⟨hobject, hvalid, _, hbytes⟩ := encodeFrame_ok.mp hencode
    rw [decodeFrame_ok]
    exact ⟨fun h => h.2.2.2.1, fun hdepth => ⟨hbytes, hparse, hobject, hdepth, hvalid⟩⟩
  · intro raw frame hdecode
    obtain ⟨_, _, hobject, _, hvalid⟩ := decodeFrame_ok.mp hdecode
    refine ⟨?_, fun hbytes => ⟨_, encodeFrame_ok.mpr ⟨hobject, hvalid, rfl, hbytes⟩⟩⟩
    rintro ⟨text, hencode⟩
    obtain ⟨_, _, rfl, hbytes⟩ := encodeFrame_ok.mp hencode
    exact hbytes

/-- Arrays in arrays. -/
def nested : Nat → Json
  | 0 => .array []
  | depth + 1 => .array [nested depth]

/-- An event of a presence with this payload. -/
def event (payload : Json) : Json :=
  .object [(js "kind", .string (js "event")), (js "type", .string (js "gateway.presence")),
    (js "ts", .string (js "2026-03-01T00:00:00Z")), (js "payload", payload)]

/-- A parser that knows one text. -/
def parseOnly (frame : Json) (raw : JsString) : Option Json :=
  if raw = frame.stringify then some frame else none

set_option maxRecDepth 20000 in
/-- An event whose payload is nested as deep as the limit allows goes through. -/
theorem frame_codec_iff_event : decodeFrame (parseOnly (event (nested 30))) (event (nested 30)).stringify =
      .ok (event (nested 30)) ∧
    ∃ text, encodeFrame (event (nested 30)) = .ok text := by
  have hparse : parseOnly (event (nested 30)) (event (nested 30)).stringify = some (event (nested 30)) :=
    if_pos rfl
  have hencode : encodeFrame (event (nested 30)) = .ok (event (nested 30)).stringify :=
    encodeFrame_ok.mpr ⟨rfl, by decide, rfl, by decide⟩
  have hdecode := ((frame_codec_iff.1 _ _ hencode hparse).mpr (by decide))
  exact ⟨hdecode, (frame_codec_iff.2 _ _ hdecode).mpr (by decide)⟩

set_option maxRecDepth 20000 in
/-- One array more, and the frame that was encoded is not decoded. -/
theorem nested_frame_lost :
    encodeFrame (event (nested 31)) = .ok (event (nested 31)).stringify ∧
      parseOnly (event (nested 31)) (event (nested 31)).stringify = some (event (nested 31)) ∧
      decodeFrame (parseOnly (event (nested 31))) (event (nested 31)).stringify =
        .error (.refused (js "Frame exceeds maximum nesting depth of 32 (got 33).")) := by
  have hbytes : ¬ byteLength (event (nested 31)).stringify > maxFrameBytes := by decide
  have hparse : parseOnly (event (nested 31)) (event (nested 31)).stringify = some (event (nested 31)) :=
    if_pos rfl
  refine ⟨encodeFrame_ok.mpr ⟨rfl, by decide, rfl, Nat.not_lt.mp hbytes⟩, hparse, ?_⟩
  have hdepth : (event (nested 31)).maxDepth 1 = 33 := by decide
  unfold decodeFrame
  rw [if_neg hbytes, hparse]
  simp only [hdepth]
  rfl

end Empyralis.Gateway.Codec
