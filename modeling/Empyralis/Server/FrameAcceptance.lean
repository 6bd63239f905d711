import Empyralis.Server.GatewayFrames

/-! Which of the frames that a gateway encodes the server accepts. -/

namespace Empyralis.Server.GatewayFrames
open Gateway.Codec (JsString Json js byteLength isHighSurrogate isLowSurrogate encodeFrame encodeFrame_ok safeFrameTypes
  nested event parseOnly)
open Kernel (present)
open Kernel.GatewayFrame (textAny textAny_of_get numericAny numericAny_of_get numericAny_eq_none boolishOr
  boolishOr_of_absent shapeReason regressed frameReason gatewayFrameDecisionCommand nextAction maxGatewayFrameBytes
  maxGatewayJsonDepth)
open Text (trim rustSpace)

attribute [local simp] framePayload Kernel.Json.get List.lookup_cons

def frameKinds : List String := ["request", "response", "event"]

theorem toNat_ofNat_of_rustSpace {n : Nat} (h : rustSpace (Char.ofNat n)) : (Char.ofNat n).toNat = n := by
  by_cases hvalid : n.isValidChar
  · rw [Char.ofNat, dif_pos hvalid]
    rfl
  · rw [Char.ofNat, dif_neg hvalid] at h
    cases h

theorem pySpace_of_rustSpace {unit : UInt16} (h : rustSpace (Char.ofNat unit.toNat)) : pySpace unit = true := by
  have hunit := toNat_ofNat_of_rustSpace h
  simp only [rustSpace, Text.commonSpace, hunit, Bool.or_eq_true, Bool.and_eq_true, decide_eq_true_eq, beq_iff_eq] at h
  simp only [pySpace, Bool.or_eq_true, Bool.and_eq_true, decide_eq_true_eq, List.contains_iff_mem, List.mem_cons,
    UInt16.le_iff_toNat_le, ← UInt16.toNat_inj, UInt16.toNat_ofNat, List.not_mem_nil, or_false, Nat.reduceMod,
      Nat.reducePow]
  omega

theorem rustSpace_pairChar (high low : UInt16) : rustSpace (pairChar high low) = false := by
  by_contra h
  rw [Bool.not_eq_false] at h
  have hpair : (pairChar high low).toNat = _ := toNat_ofNat_of_rustSpace h
  simp only [rustSpace, Text.commonSpace, Bool.or_eq_true, Bool.and_eq_true, decide_eq_true_eq, beq_iff_eq] at h
  omega

/-- A text that was stripped does not begin with white space. -/
theorem not_pySpace_of_strip {text rest : JsString} {unit : UInt16} (h : strip text = unit :: rest) :
    pySpace unit = false := by
  obtain ⟨more, hmore⟩ : strip text <+: text.dropWhile pySpace := List.rdropWhile_prefix pySpace _
  have hhead := List.head?_dropWhile_not pySpace text
  rw [← hmore, h] at hhead
  simpa using hhead

/-- The characters of a text that does not begin with white space do not either. -/
theorem characters_head {unit : UInt16} {rest : JsString} {cs : List Char} (hunit : pySpace unit = false)
    (h : characters (unit :: rest) = some cs) : ∃ c ∈ cs, rustSpace c = false := by
  have hchar : rustSpace (Char.ofNat unit.toNat) = false := by
    by_contra hc
    rw [Bool.not_eq_false] at hc
    rw [pySpace_of_rustSpace hc] at hunit
    cases hunit
  cases rest with
  | nil =>
    rw [characters] at h
    split at h
    · cases h
    · rw [← Option.some.inj h]
      exact ⟨_, List.mem_singleton_self _, hchar⟩
  | cons low rest =>
    rw [characters] at h
    split at h
    · obtain ⟨more, _, rfl⟩ := Option.map_eq_some_iff.mp h
      exact ⟨_, List.mem_cons_self, rustSpace_pairChar unit low⟩
    · split at h
      · cases h
      · obtain ⟨more, _, rfl⟩ := Option.map_eq_some_iff.mp h
        exact ⟨_, List.mem_cons_self, hchar⟩

/-- The kernel finds a text just when the server's strip leaves one. -/
theorem present_decode_strip {text : JsString} {value : String} (h : decode (strip text) = some value) :
    present value = none ↔ strip text = [] := by
  obtain ⟨cs, hcs, rfl⟩ := Option.map_eq_some_iff.mp h
  cases htext : strip text with
  | nil =>
    rw [htext, characters, Option.some.injEq] at hcs
    subst hcs
    exact iff_of_true (by decide) rfl
  | cons unit rest =>
    rw [htext] at hcs
    obtain ⟨c, hc, hspace⟩ := characters_head (not_pySpace_of_strip htext) hcs
    refine iff_of_false ?_ (by simp)
    have hne : trim rustSpace (String.ofList cs) ≠ "" := Text.trim_ne_empty (by simpa using hc) hspace
    simp [present, hne]

/-! ### What the kernel says of a request -/

theorem shapeReason_none (r : FrameRequest) {messageType : String} (hkind : r.kind ∈ frameKinds)
    (htype : r.kind ≠ "response" → trim rustSpace messageType ≠ "") (hsize : r.rawSizeBytes ≤ maxGatewayFrameBytes)
    (hdepth : r.jsonDepth ≤ maxGatewayJsonDepth) : shapeReason (framePayload r) r.kind messageType = none := by
  have hobject : boolishOr (framePayload r) "frame_object" true = true := by simp [boolishOr]
  have hbytes : numericAny (framePayload r) ["raw_size_bytes", "frame_size_bytes", "payload_size_bytes"] =
      some r.rawSizeBytes := numericAny_of_get (by simp) (hsize.trans (by decide))
  have hlevels : numericAny (framePayload r) ["json_depth", "depth"] = some r.jsonDepth :=
    numericAny_of_get (by simp) (hdepth.trans (by decide))
  have hne : r.kind ≠ "" := by
    intro hempty
    rw [hempty] at hkind
    exact absurd hkind (by decide)
  have hknown : ["request", "response", "event"].contains r.kind := List.contains_iff_mem.mpr hkind
  rw [shapeReason, if_neg (not_not.mpr hobject), hbytes, Option.getD_some, if_neg (Nat.not_lt.mpr hsize), hlevels,
    Option.getD_some, if_neg (Nat.not_lt.mpr hdepth), if_neg hne, if_neg (not_not.mpr hknown),
    if_neg fun h => htype h.1 h.2]

theorem frameReason_eq (r : FrameRequest) (messageType frameId : String) (seq ack : Option Nat) :
    frameReason (framePayload r) r.kind messageType frameId seq ack =
      if (r.kind = "request" ∨ r.kind = "response") ∧ frameId = "" then some ("gateway_frame_id_missing", 4408)
      else none := by
  have hseq : numericAny (framePayload r) ["previous_seq", "last_seq"] = none := numericAny_eq_none (by simp)
  have hack : numericAny (framePayload r) ["previous_ack", "last_ack"] = none := numericAny_eq_none (by simp)
  have hfirst : boolishOr (framePayload r) "first_frame" false = false := boolishOr_of_absent (by simp) false
  have hscope : boolishOr (framePayload r) "scope_required" false = false := boolishOr_of_absent (by simp) false
  have hregressed : ∀ next, regressed next none = false := by rintro (- | n) <;> rfl
  rw [frameReason, hseq, hack, hfirst, hscope, hregressed, hregressed]
  simp

/-- The request is blocked just when it is to have an id and has none. -/
theorem frameVerdict_of (r : FrameRequest) (hkind : r.kind ∈ frameKinds)
    (htype : r.kind ≠ "response" → present r.type = some r.type) (hsize : r.rawSizeBytes ≤ maxGatewayFrameBytes)
    (hdepth : r.jsonDepth ≤ maxGatewayJsonDepth) :
    frameVerdict (some r) =
      if (r.kind = "request" ∨ r.kind = "response") ∧ present r.id = none then .blocked "gateway_frame_id_missing" 4408
      else .allowed (nextAction r.kind ((present r.type).getD "")) := by
  have hnormal : ∀ kind ∈ frameKinds, present kind = some kind ∧ Kernel.GatewayFrame.normalizeToken kind = kind :=
    by decide
  have htextKind : textAny (framePayload r) ["kind", "frame_kind"] = (present r.kind).getD "" :=
    textAny_of_get (by simp) (by simp)
  rw [(hnormal _ hkind).1, Option.getD_some] at htextKind
  have htextType : textAny (framePayload r) ["type", "message_type"] = (present r.type).getD "" :=
    textAny_of_get (by simp) (by simp)
  have htextId : textAny (framePayload r) ["id", "frame_id", "request_id"] = (present r.id).getD "" :=
    textAny_of_get (by simp) (by simp)
  have hshape : shapeReason (framePayload r) r.kind ((present r.type).getD "") = none := by
    refine shapeReason_none r hkind (fun hresponse => ?_) hsize hdepth
    have hpresent := htype hresponse
    rw [hpresent, Option.getD_some]
    intro hempty
    rw [present, hempty] at hpresent
    cases hpresent
  have hid : (present r.id).getD "" = "" ↔ present r.id = none := by
    cases hfound : present r.id with
    | none => simp
    | some id =>
      refine iff_of_false (fun hempty => ?_) (by simp)
      have hpresent := Kernel.present_of_present hfound
      rw [show id = "" from hempty] at hpresent
      exact absurd hpresent (by decide)
  have hnew : boolishOr (framePayload r) "duplicate_frame_id" false = false := boolishOr_of_absent (by simp) false
  simp only [frameVerdict, gatewayFrameDecisionCommand, htextKind, htextType, htextId, (hnormal _ hkind).2,
    hshape, hnew,
    frameReason_eq, hid]
  split_ifs <;> simp_all

/-! ### The frames of a gateway -/

/-- What the types of the gateway say of a frame, of which the payload can be anything; `int` gives the value of a
    number. -/
structure WellTyped (int : Json → Option Int) (frame : Json) : Prop where
  record : ∃ fields, frame = .object fields
  kind : ∃ kind ∈ frameKinds, frame.get "kind" = some (.string (js kind))
  sequence : ∀ name ∈ ["seq", "ack"], frame.get name = none ∨
    ∃ (value : Gateway.Codec.Number) (n : Nat), frame.get name = some (.number value) ∧ value.isInteger ∧
      int (.number value) = some (n : Int)

variable {repr : Json → JsString} {loads : JsString → Option Json} {int : Json → Option Int} {frame : Json}
  {raw : JsString}

/-- A text of the protocol is what the server reads of it, and what the kernel then has. -/
theorem text_kept : ∀ text ∈ frameKinds ++ safeFrameTypes,
    js text ≠ [] ∧ strip (js text) = js text ∧ decode (js text) = some text ∧ present text = some text := by
  decide

theorem token_string {text : String} (h : text ∈ frameKinds ++ safeFrameTypes) :
    token repr [some (.string (js text))] = js text := by
  obtain ⟨hne, hstrip, _, _⟩ := text_kept text h
  have htrue : (some (Json.string (js text))).filter truthy = some (.string (js text)) := by simp [truthy, hne]
  rw [token, List.findSome?_cons, htrue]
  exact hstrip

theorem normalizeSequence_of (htyped : WellTyped int frame) {name : String} (hname : name ∈ ["seq", "ack"]) :
    ∃ n, normalizeSequence int frame name = .ok n := by
  rcases htyped.sequence name hname with hget | ⟨value, n, hget, _, hint⟩
  · exact ⟨none, by rw [normalizeSequence, hget]⟩
  · refine ⟨some n, ?_⟩
    rw [normalizeSequence, hget]
    simp [hint]

theorem safeType_eq {msgType : Option Json} (h : Gateway.Codec.safeType msgType) :
    ∃ type ∈ safeFrameTypes, msgType = some (.string (js type)) := by
  rcases msgType with - | value
  · cases h
  · cases value with
    | string text =>
      obtain ⟨type, htype, rfl⟩ := List.mem_map.mp (List.contains_iff_mem.mp h)
      exact ⟨type, htype, rfl⟩
    | _ => cases h

/-- A request or an event that the gateway encodes has a type that it knows. -/
theorem type_of_valid {kind : String} (hkind : kind ∈ frameKinds) (hget : frame.get "kind" = some (.string (js kind)))
    (hvalid : Gateway.Codec.validateFrame frame = .ok ()) (hresponse : kind ≠ "response") :
    ∃ type ∈ safeFrameTypes, frame.get "type" = some (.string (js type)) := by
  have htrim : ∀ kind ∈ frameKinds, Gateway.Codec.trim (js kind) = js kind := by decide
  have hkindOf : Gateway.Codec.kindOf frame = some (js kind) := by
    rw [Gateway.Codec.kindOf, hget]
    simp [Gateway.Codec.Json.text, htrim kind hkind]
  refine safeType_eq ?_
  rw [Gateway.Codec.validateFrame, hkindOf] at hvalid
  simp only [frameKinds, List.mem_cons, List.not_mem_nil, or_false] at hkind
  rcases hkind with rfl | rfl | rfl
  · change Gateway.Codec.validateRequest frame = .ok () at hvalid
    by_contra hsafe
    simp only [Gateway.Codec.validateRequest, Gateway.Codec.refuse, hsafe, not_false_eq_true, if_true] at hvalid
    split_ifs at hvalid
  · exact absurd rfl hresponse
  · change Gateway.Codec.validateEvent frame = .ok () at hvalid
    by_contra hsafe
    simp only [Gateway.Codec.validateEvent, Gateway.Codec.refuse, hsafe, not_false_eq_true, if_true] at hvalid
    split_ifs at hvalid

/-- The server expects the next action that the kernel names. -/
theorem expectedNextAction_eq {kind messageType : String} (hkind : kind ∈ frameKinds)
    (hkindText : kindText repr frame = js kind)
    (htype : kind ≠ "response" → messageType ∈ safeFrameTypes ∧ typeText repr frame = js messageType) :
    nextAction kind messageType = expectedNextAction repr frame := by
  have hconnect : ∀ type ∈ safeFrameTypes, js type = js "gateway.connect" ↔ type = "gateway.connect" :=
    by decide
  rw [expectedNextAction, hkindText]
  simp only [frameKinds, List.mem_cons, List.not_mem_nil, or_false] at hkind
  rcases hkind with rfl | rfl | rfl
  · obtain ⟨hsafe, htext⟩ := htype (by decide)
    rw [htext, nextAction, if_pos rfl]
    by_cases hfirst : messageType = "gateway.connect"
    · rw [if_pos hfirst, if_pos ⟨rfl, (hconnect messageType hsafe).mpr hfirst⟩]
    · rw [if_neg hfirst, if_neg fun h => hfirst ((hconnect messageType hsafe).mp h.2), if_pos rfl]
  · rfl
  · rfl

/-- The kernel can read the texts of a frame: none of them has half of a pair of units on its own. -/
structure Readable (repr : Json → JsString) (frame : Json) : Prop where
  type : (decode (typeText repr frame)).isSome
  id : (decode (idText repr frame)).isSome
  protocolVersion : (decode (protocolVersion repr frame)).isSome

theorem frameRequest_of_readable (raw : JsString) {kind : String} (hkind : decode (kindText repr frame) = some kind)
    (h : Readable repr frame) (seq ack : Option Nat) :
    ∃ r, frameRequest repr raw frame seq ack = some r ∧ r.kind = kind ∧
      decode (typeText repr frame) = some r.type ∧ decode (idText repr frame) = some r.id ∧
      r.rawSizeBytes = byteLength raw ∧ r.jsonDepth = jsonDepth frame := by
  obtain ⟨type, htype⟩ := Option.isSome_iff_exists.mp h.type
  obtain ⟨id, hid⟩ := Option.isSome_iff_exists.mp h.id
  obtain ⟨version, hversion⟩ := Option.isSome_iff_exists.mp h.protocolVersion
  refine ⟨⟨kind, type, id, version, byteLength raw, jsonDepth frame, seq, ack⟩, ?_, rfl, htype, hid, rfl, rfl⟩
  simp [frameRequest, hkind, htype, hid, hversion]

theorem readable_of_frameRequest {seq ack : Option Nat} {r : FrameRequest}
    (h : frameRequest repr raw frame seq ack = some r) : Readable repr frame := by
  rw [frameRequest] at h
  obtain ⟨kind, _, h⟩ := Option.bind_eq_some_iff.mp h
  obtain ⟨type, htype, h⟩ := Option.bind_eq_some_iff.mp h
  obtain ⟨id, hid, h⟩ := Option.bind_eq_some_iff.mp h
  obtain ⟨version, hversion, _⟩ := Option.map_eq_some_iff.mp h
  exact ⟨Option.isSome_of_eq_some htype, Option.isSome_of_eq_some hid, Option.isSome_of_eq_some hversion⟩

/-- A frame of a known kind and type that is within the limits is accepted exactly if it is readable. -/
theorem enforce_iff {kind : String} (hkind : kind ∈ frameKinds) (hget : frame.get "kind" = some (.string (js kind)))
    (htype : kind ≠ "response" → ∃ type ∈ safeFrameTypes, frame.get "type" = some (.string (js type)))
    (hsize : byteLength raw ≤ maxGatewayFrameBytes) (hdepth : jsonDepth frame ≤ maxGatewayJsonDepth)
    (seq ack : Option Nat) :
    enforceInboundFrameDecision repr raw frame seq ack = .ok () ↔
      Readable repr frame ∧ (kind ≠ "event" → idText repr frame ≠ []) := by
  have hknown : kind ∈ frameKinds ++ safeFrameTypes := List.mem_append_left _ hkind
  have hkindText : kindText repr frame = js kind := by rw [kindText, hget, token_string hknown]
  have hdecoded : decode (kindText repr frame) = some kind := by rw [hkindText, (text_kept kind hknown).2.2.1]
  rw [enforceInboundFrameDecision]
  by_cases hreadable : Readable repr frame
  · obtain ⟨r, hrequest, rfl, hrtype, hrid, hrsize, hrdepth⟩ :=
      frameRequest_of_readable raw hdecoded hreadable seq ack
    have hsafe : r.kind ≠ "response" → r.type ∈ safeFrameTypes ∧ typeText repr frame = js r.type := by
      intro hresponse
      obtain ⟨type, hmem, htypeGet⟩ := htype hresponse
      have htext : typeText repr frame = js type := by
        rw [typeText, htypeGet, token_string (List.mem_append_right _ hmem)]
      rw [htext, (text_kept type (List.mem_append_right _ hmem)).2.2.1, Option.some.injEq] at hrtype
      subst hrtype
      exact ⟨hmem, htext⟩
    have hpresent : r.kind ≠ "response" → present r.type = some r.type := fun hresponse =>
      (text_kept r.type (List.mem_append_right _ (hsafe hresponse).1)).2.2.2
    have hid : present r.id = none ↔ idText repr frame = [] := by
      obtain ⟨text, htext⟩ : ∃ text, token repr [frame.get "id"] = strip text := token_eq_strip _
      rw [idText, htext] at hrid ⊢
      exact present_decode_strip hrid
    have hevent : (r.kind = "request" ∨ r.kind = "response") ↔ r.kind ≠ "event" := by
      simp only [frameKinds, List.mem_cons, List.not_mem_nil, or_false] at hkind
      rcases hkind with h | h | h <;> simp [h]
    rw [hrequest, frameVerdict_of r hkind hpresent (hrsize ▸ hsize) (hrdepth ▸ hdepth)]
    by_cases hmissing : (r.kind = "request" ∨ r.kind = "response") ∧ present r.id = none
    · rw [if_pos hmissing]
      exact iff_of_false (by simp) fun h => h.2 (hevent.mp hmissing.1) (hid.mp hmissing.2)
    · have hexpected : nextAction r.kind ((present r.type).getD "") = expectedNextAction repr frame := by
        refine expectedNextAction_eq hkind hkindText fun hresponse => ?_
        rw [hpresent hresponse, Option.getD_some]
        exact hsafe hresponse
      rw [if_neg hmissing]
      simp only [hexpected, if_true, true_iff]
      exact ⟨hreadable, fun hother hempty => hmissing ⟨hevent.mpr hother, hid.mpr hempty⟩⟩
  · have hrequest : frameRequest repr raw frame seq ack = none := by
      rw [Option.eq_none_iff_forall_ne_some]
      exact fun r hr => hreadable (readable_of_frameRequest hr)
    rw [hrequest]
    exact iff_of_false (by simp [frameVerdict]) fun h => hreadable h.1

/-- Of the frames that the gateway encodes, the server accepts just those that are not nested too deeply, of which the
    kernel can read the texts, and of which the id, unless the frame is an event, has more than what `strip` takes. -/
theorem encoded_frame_accepted (htyped : WellTyped int frame) (hencode : encodeFrame frame = .ok raw)
    (hloads : loads raw = some frame) : checkFrame repr loads int raw = .ok frame ↔
      levels frame ≤ maxGatewayJsonDepth ∧ Readable repr frame ∧
        (frame.get "kind" ≠ some (.string (js "event")) → idText repr frame ≠ []) := by
  obtain ⟨_, hvalid, _, hbytes⟩ := encodeFrame_ok.mp hencode
  have hsize : byteLength raw ≤ maxGatewayFrameBytes := hbytes
  obtain ⟨fields, hfields⟩ := htyped.record
  obtain ⟨kind, hkind, hget⟩ := htyped.kind
  have hparse : parseFrame loads raw =
      if maxGatewayJsonDepth < jsonDepth frame then
        .error ⟨"gateway_frame_too_deep", "Gateway frame exceeds the maximum allowed nesting depth.", 4408⟩
      else .ok frame := by
    rw [parseFrame, if_neg (Nat.not_lt.mpr hsize), hloads, hfields]
  have hevent : frame.get "kind" ≠ some (.string (js "event")) ↔ kind ≠ "event" := by
    have hinjective : ∀ kind ∈ frameKinds, js kind = js "event" ↔ kind = "event" := by decide
    rw [hget, ne_eq, Option.some.injEq, Json.string.injEq, hinjective kind hkind]
  rw [checkFrame, hparse, hevent]
  by_cases hdepth : jsonDepth frame ≤ maxGatewayJsonDepth
  · obtain ⟨seq, hseq⟩ := normalizeSequence_of htyped (List.mem_cons_self : "seq" ∈ ["seq", "ack"])
    obtain ⟨ack, hack⟩ := normalizeSequence_of htyped (by simp : "ack" ∈ ["seq", "ack"])
    have hnumbers : normalizeFrameSeqAck int frame = .ok (seq, ack) := by rw [normalizeFrameSeqAck, hseq, hack]
    have henforce : enforceInboundFrameDecision repr raw frame seq ack = .ok () ↔
        Readable repr frame ∧ (kind ≠ "event" → idText repr frame ≠ []) :=
      enforce_iff hkind hget (type_of_valid hkind hget hvalid) hsize hdepth seq ack
    rw [if_neg (Nat.not_lt.mpr hdepth), ← henforce, and_iff_right ((jsonDepth_le_iff frame).mp hdepth)]
    simp only [hnumbers]
    cases enforceInboundFrameDecision repr raw frame seq ack with
    | error e => exact iff_of_false (by simp [Except.map]) (by simp)
    | ok _ => exact iff_of_true rfl rfl
  · rw [if_pos (Nat.lt_of_not_le hdepth)]
    exact iff_of_false (by simp) fun h => hdepth ((jsonDepth_le_iff frame).mpr h.1)

/-- The value of a number that is written in digits. -/
def digits : Json → Option Int
  | .number n => some (n.text.foldl (fun value unit => 10 * value + (unit.toNat - 48 : Nat)) 0)
  | _ => none

def heartbeat : Json :=
  .object [(js "kind", .string (js "request")), (js "id", .string (js "hb-1")),
    (js "type", .string (js "gateway.heartbeat")),
    (js "ts", .string (js "2026-03-01T00:00:00Z")), (js "seq", .number ⟨js "17", true⟩),
    (js "payload", .object [(js "data", nested 30)])]

set_option maxRecDepth 20000 in
theorem encoded_frame_accepted_heartbeat :
    checkFrame (fun _ => []) (parseOnly heartbeat) digits heartbeat.stringify = .ok heartbeat := by
  have hencode : encodeFrame heartbeat = .ok heartbeat.stringify :=
    encodeFrame_ok.mpr ⟨rfl, by decide, rfl, by decide⟩
  have htyped : WellTyped digits heartbeat := by
    refine ⟨⟨_, rfl⟩, ⟨"request", by decide, by rfl⟩, ?_⟩
    intro name hname
    simp only [List.mem_cons, List.not_mem_nil, or_false] at hname
    rcases hname with rfl | rfl
    · exact Or.inr ⟨⟨js "17", true⟩, 17, by rfl, rfl, by decide⟩
    · exact Or.inl (by rfl)
  have hreadable : Readable (fun _ => []) heartbeat := ⟨by decide, by decide, by decide⟩
  exact (encoded_frame_accepted htyped hencode (if_pos rfl)).mpr
    ⟨by decide, hreadable, fun _ => by decide⟩

/-- One array more than the server takes. -/
def deepEvent : Json := event (.object [(js "data", nested 31)])

set_option maxRecDepth 20000 in
/-- The gateway encodes it, and the server refuses it as too deep. -/
theorem encoded_frame_refused : WellTyped digits deepEvent ∧ encodeFrame deepEvent = .ok deepEvent.stringify ∧
    parseOnly deepEvent deepEvent.stringify = some deepEvent ∧
      checkFrame (fun _ => []) (parseOnly deepEvent) digits deepEvent.stringify =
        .error ⟨"gateway_frame_too_deep", "Gateway frame exceeds the maximum allowed nesting depth.", 4408⟩ := by
  have htyped : WellTyped digits deepEvent := by
    refine ⟨⟨_, rfl⟩, ⟨"event", by decide, by rfl⟩, ?_⟩
    intro name hname
    simp only [List.mem_cons, List.not_mem_nil, or_false] at hname
    rcases hname with rfl | rfl
    · exact Or.inl (by rfl)
    · exact Or.inl (by rfl)
  have hbytes : byteLength deepEvent.stringify ≤ maxGatewayFrameBytes := by decide
  have hparse : parseOnly deepEvent deepEvent.stringify = some deepEvent := if_pos rfl
  refine ⟨htyped, encodeFrame_ok.mpr ⟨rfl, by decide, rfl, hbytes⟩, hparse, ?_⟩
  have hdepth : maxGatewayJsonDepth < jsonDepth deepEvent := by decide
  have hrefused : parseFrame (parseOnly deepEvent) deepEvent.stringify =
      .error ⟨"gateway_frame_too_deep", "Gateway frame exceeds the maximum allowed nesting depth.", 4408⟩ := by
    rw [parseFrame, if_neg (Nat.not_lt.mpr hbytes), hparse]
    exact if_pos hdepth
  rw [checkFrame, hrefused]

end Empyralis.Server.GatewayFrames
