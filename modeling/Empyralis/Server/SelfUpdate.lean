import Empyralis.Gateway.VersionCompare

/-! `is_newer_gateway_version` of the server, and what it shares with the gateway's comparison.

    Python's `str.isdigit` goes by Unicode: it takes the decimal digits of every script, whose value
    `int` reads, and the digits that are no decimals, such as superscripts, on which `int` raises. -/

namespace Empyralis.Server.SelfUpdate
open Empyralis.Gateway.VersionCompare

/-- The zeros of the scripts with decimal digits; the other nine follow each of them. -/
def decimalZeros : List ℕ :=
  [0x30, 0x660, 0x6F0, 0x7C0, 0x966, 0x9E6, 0xA66, 0xAE6, 0xB66, 0xBE6, 0xC66, 0xCE6, 0xD66, 0xDE6,
    0xE50, 0xED0, 0xF20, 0x1040, 0x1090, 0x17E0, 0x1810, 0x1946, 0x19D0, 0x1A80, 0x1A90, 0x1B50,
    0x1BB0, 0x1C40, 0x1C50, 0xA620, 0xA8D0, 0xA900, 0xA9D0, 0xA9F0, 0xAA50, 0xABF0, 0xFF10, 0x104A0,
    0x10D30, 0x11066, 0x110F0, 0x11136, 0x111D0, 0x112F0, 0x11450, 0x114D0, 0x11650, 0x116C0,
    0x11730, 0x118E0, 0x11950, 0x11C50, 0x11D50, 0x11DA0, 0x11F50, 0x16A60, 0x16AC0, 0x16B50,
    0x1D7CE, 0x1D7D8, 0x1D7E2, 0x1D7EC, 0x1D7F6, 0x1E140, 0x1E2F0, 0x1E4F0, 0x1E950, 0x1FBF0]

/-- The first and the last of the digits that are no decimals. -/
def otherDigits : List (ℕ × ℕ) :=
  [(0xB2, 0xB3), (0xB9, 0xB9), (0x1369, 0x1371), (0x19DA, 0x19DA), (0x2070, 0x2070),
    (0x2074, 0x2079), (0x2080, 0x2089), (0x2460, 0x2468), (0x2474, 0x247C), (0x2488, 0x2490),
    (0x24EA, 0x24EA), (0x24F5, 0x24FD), (0x24FF, 0x24FF), (0x2776, 0x277E), (0x2780, 0x2788),
    (0x278A, 0x2792), (0x10A40, 0x10A43), (0x10E60, 0x10E68), (0x11052, 0x1105A),
    (0x1F100, 0x1F10A)]

/-- The value of the decimal digit with the code point `n`. -/
def decimalValue (n : ℕ) : Option ℕ :=
  (decimalZeros.find? fun first => first ≤ n ∧ n ≤ first + 9).map (n - ·)

/-- `ch.isdigit()` -/
def isdigit (c : Char) : Bool :=
  (decimalValue c.toNat).isSome ||
    otherDigits.any fun range => range.1 ≤ c.toNat ∧ c.toNat ≤ range.2

inductive PyError where
  | valueError
  deriving DecidableEq

/-- `int(digits)`, which reads 4300 digits at most. -/
def int (digits : List Char) : Except PyError ℕ :=
  if digits.all (fun c => (decimalValue c.toNat).isSome) ∧ digits.length ≤ 4300 then
    .ok (digits.foldl (fun n c => 10 * n + (decimalValue c.toNat).getD 0) 0)
  else .error .valueError

/-- The loop over the segments; a segment without a digit ends it with `None`. -/
def partsOf : List (List Char) → Except PyError (Option (List ℕ))
  | [] => .ok (some [])
  | segment :: segments =>
    let digits := segment.filter isdigit
    if digits = [] then .ok none
    else do
      let part ← int digits
      let parts ← partsOf segments
      return parts.map (part :: ·)

/-- `_version_parts` -/
def versionParts (value : String) : Except PyError (Option (List ℕ)) :=
  let cleaned := dropV (Text.trimList Text.pySpace value.toList)
  if cleaned = [] then .ok none
  else do
    let parts ← partsOf (cleaned.splitOn '.')
    return parts.filter (· ≠ [])

/-- `parts + [0] * (length - len(parts))` -/
def padTo (length : ℕ) (parts : List ℕ) : List ℕ :=
  parts ++ List.replicate (length - parts.length) 0

def isNewerGatewayVersion (current candidate : String) : Except PyError Bool := do
  let currentParts ← versionParts current
  let candidateParts ← versionParts candidate
  match currentParts, candidateParts with
  | some a, some b =>
    let length := max a.length b.length
    return padTo length a < padTo length b
  | _, _ => return false

/-! ### The order -/

/-- What the server compares a version by, where it can read it. -/
def versionKey (value : String) : Option (Lex (ℕ → ℕ)) :=
  match versionParts value with
  | .ok (some parts) => some (PaddedLex.padded 0 parts)
  | _ => none

theorem padTo_lt_iff (a b : List ℕ) :
    padTo (max a.length b.length) a < padTo (max a.length b.length) b ↔
      PaddedLex.padded 0 a < PaddedLex.padded 0 b := by
  have hlen : (padTo (max a.length b.length) a).length =
      (padTo (max a.length b.length) b).length := by
    simp only [padTo, List.length_append, List.length_replicate]
    omega
  rw [PaddedLex.lt_iff_padded_lt 0 hlen, padTo, padTo,
    PaddedLex.padded_append_replicate, PaddedLex.padded_append_replicate]

theorem isNewerGatewayVersion_iff (current candidate : String) :
    isNewerGatewayVersion current candidate = .ok true ↔ ∃ x y, versionKey current = some x ∧
      versionKey candidate = some y ∧ x < y := by
  unfold isNewerGatewayVersion versionKey
  rcases versionParts current with error | _ | a
  · simp [bind, Except.bind]
  · rcases versionParts candidate with error | _ | b <;> simp [bind, Except.bind, pure, Except.pure]
  · rcases versionParts candidate with error | _ | b
    · simp [bind, Except.bind]
    · simp [bind, Except.bind, pure, Except.pure]
    · simp [bind, Except.bind, pure, Except.pure, padTo_lt_iff]

/-! ### Where the two agree -/

/-- The digits of the version are ASCII digits, and `int` and a double take the number of each
    segment as it stands. -/
def Plain (value : String) : Prop :=
  (∀ c ∈ value.toList, isdigit c → asciiDigit c) ∧
    ∀ digits ∈ digitSegments asciiDigit value,
      digits.length ≤ 4300 ∧ toDouble (decimal digits) = (decimal digits : ℕ)

theorem decimalValue_ascii {c : Char} (hc : asciiDigit c) :
    decimalValue c.toNat = some (c.toNat - 48) := by
  have hascii : ∀ n ∈ List.range' 48 10, decimalValue n = some (n - 48) := by decide
  simp only [asciiDigit, Bool.and_eq_true, decide_eq_true_eq] at hc
  exact hascii c.toNat (List.mem_range'_1.mpr ⟨hc.1, by omega⟩)

theorem isdigit_of_ascii {c : Char} (hc : asciiDigit c) : isdigit c := by
  simp [isdigit, decimalValue_ascii hc]

/-- The code points of white space. -/
def spaces : List ℕ :=
  List.range' 9 5 ++ List.range' 0x1C 5 ++ [0x85, 0xA0, 0x1680] ++ List.range' 0x2000 11 ++
    [0x2028, 0x2029, 0x202F, 0x205F, 0x3000]

theorem mem_spaces {c : Char} (hc : Text.pySpace c) : c.toNat ∈ spaces := by
  simp only [Text.pySpace, Text.commonSpace, Bool.or_eq_true, Bool.and_eq_true, decide_eq_true_eq,
    beq_iff_eq] at hc
  simp only [spaces, List.mem_append, List.mem_range'_1, List.mem_cons, List.not_mem_nil, or_false]
  omega

theorem isdigit_not_space (c : Char) (hc : Text.pySpace c) : isdigit c = false := by
  have hspaces : ∀ n ∈ spaces, ((decimalValue n).isSome ||
      otherDigits.any fun range => range.1 ≤ n ∧ n ≤ range.2) = false := by decide
  exact hspaces c.toNat (mem_spaces hc)

theorem int_ascii {digits : List Char} (hdigits : ∀ c ∈ digits, asciiDigit c)
    (hlen : digits.length ≤ 4300) : int digits = .ok (decimal digits) := by
  have hall : digits.all (fun c => (decimalValue c.toNat).isSome) = true :=
    List.all_eq_true.mpr fun c hc => by simp [decimalValue_ascii (hdigits c hc)]
  rw [int, if_pos ⟨hall, hlen⟩, decimal]
  refine congrArg Except.ok (List.foldl_ext _ _ _ fun n c hc => ?_)
  rw [decimalValue_ascii (hdigits c hc), Option.getD_some]

/-- The parts that the server reads off segments with short numbers in ASCII. -/
theorem partsOf_ascii : ∀ {segments : List (List Char)},
    (∀ segment ∈ segments, (∀ c ∈ segment, isdigit c → asciiDigit c) ∧
      (segment.filter isdigit).length ≤ 4300) →
    partsOf segments = .ok (if [] ∈ segments.map (List.filter isdigit) then none
      else some ((segments.map (List.filter isdigit)).map decimal))
  | [], _ => rfl
  | segment :: segments, h => by
    obtain ⟨hsegment, hrest⟩ := List.forall_mem_cons.mp h
    have hdigits : ∀ c ∈ segment.filter isdigit, asciiDigit c := by
      intro c hc
      obtain ⟨hmem, hdigit⟩ := List.mem_filter.mp hc
      exact hsegment.1 c hmem hdigit
    simp only [partsOf, int_ascii hdigits hsegment.2, partsOf_ascii hrest, List.map_cons,
      List.mem_cons]
    by_cases hempty : segment.filter isdigit = []
    · simp [hempty]
    · rw [if_neg hempty]
      by_cases hnone : [] ∈ segments.map (List.filter isdigit)
      · simp [hnone, bind, Except.bind, pure, Except.pure]
      · simp [hnone, Ne.symm hempty, bind, Except.bind, pure, Except.pure]

theorem digitSegments_eq (digit : Char → Bool) (value : String) :
    digitSegments digit value = (value.toList.splitOn '.').map (List.filter digit) :=
  (Text.splitOn_filter digit '.' value.toList).symm

theorem digitSegments_isdigit {value : String}
    (h : ∀ c ∈ value.toList, isdigit c → asciiDigit c) :
    digitSegments isdigit value = digitSegments asciiDigit value := by
  unfold digitSegments
  refine congrArg (List.splitOn '.') (List.filter_congr fun c hc => ?_)
  have hsame : isdigit c = asciiDigit c := Bool.eq_iff_iff.mpr ⟨h c hc, isdigit_of_ascii⟩
  rw [hsame]

/-- The parts of a plain version are its digits between the dots. -/
theorem versionParts_plain {value : String} (h : Plain value) :
    versionParts value = .ok (if [] ∈ digitSegments asciiDigit value then none
      else some ((digitSegments asciiDigit value).map decimal)) := by
  have hv : isdigit 'v' = false := by decide
  have hV : isdigit 'V' = false := by decide
  have hsegments := segments_cleaned isdigit_not_space rfl hv hV value
  rw [digitSegments_isdigit h.1] at hsegments
  unfold versionParts
  simp only
  split_ifs with hempty hnone hnone
  · rfl
  · rw [← digitSegments_isdigit h.1, digitSegments_of_empty isdigit_not_space rfl hv hV hempty]
      at hnone
    exact absurd (List.mem_singleton.mpr rfl) hnone
  all_goals
    have hascii : ∀ segment ∈ (dropV (Text.trimList Text.pySpace value.toList)).splitOn '.',
        (∀ c ∈ segment, isdigit c → asciiDigit c) ∧ (segment.filter isdigit).length ≤ 4300 := by
      intro segment hsegment
      have hmem := hsegments ▸ List.mem_map_of_mem (f := List.filter isdigit) hsegment
      refine ⟨fun c hc hdigit => ?_, (h.2 _ hmem).1⟩
      rw [digitSegments_eq] at hmem
      obtain ⟨original, -, horiginal⟩ := List.mem_map.mp hmem
      have hkept : c ∈ original.filter asciiDigit :=
        horiginal ▸ List.mem_filter.mpr ⟨hc, hdigit⟩
      exact (List.mem_filter.mp hkept).2
    rw [partsOf_ascii hascii, hsegments]
  · rw [if_pos hnone]
    rfl
  · have hne : digitSegments asciiDigit value ≠ [] := List.splitOn_ne_nil _ _
    rw [if_neg hnone]
    simp [bind, Except.bind, pure, Except.pure, Option.filter, hne]

/-- On a plain version the gateway has the same numbers. -/
theorem gatewayParts_plain {value : String} (h : Plain value) :
    Gateway.VersionCompare.versionParts value =
      if [] ∈ digitSegments asciiDigit value then none
      else some (((digitSegments asciiDigit value).map decimal).map fun n : ℕ => (n : WithTop ℕ)) := by
  rw [versionParts_eq, partsOfDigits, List.map_map]
  split_ifs
  · rfl
  · exact congrArg some (List.map_congr_left fun digits hdigits => (h.2 digits hdigits).2)

theorem isNewer_plain {current candidate : String} (hcurrent : Plain current)
    (hcandidate : Plain candidate) : isNewerGatewayVersion current candidate =
      .ok (Gateway.VersionCompare.isNewerGatewayVersion current candidate) := by
  unfold isNewerGatewayVersion Gateway.VersionCompare.isNewerGatewayVersion
  rw [versionParts_plain hcurrent, versionParts_plain hcandidate, gatewayParts_plain hcurrent,
    gatewayParts_plain hcandidate]
  split_ifs
  · rfl
  · rfl
  · rfl
  · simp only [bind, Except.bind, pure, Except.pure]
    refine congrArg Except.ok (Bool.eq_iff_iff.mpr ?_)
    rw [decide_eq_true_iff, padTo_lt_iff, newerFrom_iff]
    exact (PaddedLex.padded_map_lt WithTop.coe_strictMono).symm

/-- On plain versions the two comparisons give one answer, and neither raises. Each of them is a
    strict order on all versions, under which not being ordered is transitive among the versions that
    it can read. -/
theorem version_comparisons_agree :
    (∀ current candidate, Plain current → Plain candidate →
      isNewerGatewayVersion current candidate =
        .ok (Gateway.VersionCompare.isNewerGatewayVersion current candidate)) ∧
    PaddedLex.WeakOrderOn
      (fun current candidate =>
        Gateway.VersionCompare.isNewerGatewayVersion current candidate = true)
      (fun value => (Gateway.VersionCompare.versionParts value).isSome) ∧
    PaddedLex.WeakOrderOn
      (fun current candidate => isNewerGatewayVersion current candidate = .ok true)
      (fun value => ∃ parts, versionParts value = .ok (some parts)) := by
  refine ⟨fun _ _ => isNewer_plain, ?_, ?_⟩
  · have hgateway := PaddedLex.weakOrderOn_of_key _
      Gateway.VersionCompare.isNewerGatewayVersion_iff
    simpa [Gateway.VersionCompare.versionKey] using hgateway
  · have hserver := PaddedLex.weakOrderOn_of_key _ isNewerGatewayVersion_iff
    have hread : ∀ value, (versionKey value).isSome ↔
        ∃ parts, versionParts value = .ok (some parts) := by
      intro value
      unfold versionKey
      rcases versionParts value with error | _ | parts <;> simp
    simpa only [hread] using hserver

theorem plain_of_all {value : String}
    (hdigits : value.toList.all fun c => !isdigit c || asciiDigit c)
    (hsegments : ∀ digits ∈ digitSegments asciiDigit value,
      digits.length ≤ 4300 ∧ decimal digits < 2 ^ 53) : Plain value := by
  refine ⟨fun c hc hdigit => ?_, fun digits hmem => ?_⟩
  · simpa [hdigit] using List.all_eq_true.mp hdigits c hc
  · obtain ⟨hlength, hsmall⟩ := hsegments digits hmem
    exact ⟨hlength, Gateway.VersionCompare.toDouble_of_lt hsmall⟩

theorem plain_v1_2_3 : Plain "v1.2.3-rc" := plain_of_all (by decide) (by decide)

theorem plain_1_10 : Plain "1.10" := plain_of_all (by decide) (by decide)

/-- The parts of the versions below. -/
theorem versionParts_examples : Gateway.VersionCompare.versionParts "v1.2.3-rc" = some [1, 2, 3] ∧
    Gateway.VersionCompare.versionParts "1.10" = some [1, 10] ∧
    Gateway.VersionCompare.versionParts "1.0" = some [1, 0] ∧
    Gateway.VersionCompare.versionParts "2.0" = some [2, 0] :=
  ⟨versionParts_of_small (by decide) (by decide), versionParts_of_small (by decide) (by decide),
    versionParts_of_small (by decide) (by decide), versionParts_of_small (by decide) (by decide)⟩

theorem version_comparisons_agree_example :
    isNewerGatewayVersion "v1.2.3-rc" "1.10" = .ok true ∧
    Gateway.VersionCompare.isNewerGatewayVersion "v1.2.3-rc" "1.10" = true := by
  have hgateway : Gateway.VersionCompare.isNewerGatewayVersion "v1.2.3-rc" "1.10" = true := by
    rw [Gateway.VersionCompare.isNewerGatewayVersion, versionParts_examples.1, versionParts_examples.2.1]
    decide
  refine ⟨?_, hgateway⟩
  rw [version_comparisons_agree.1 "v1.2.3-rc" "1.10" plain_v1_2_3 plain_1_10, hgateway]

/-- A version that cannot be read is ordered with none, so not being ordered is not transitive. -/
theorem unreadable_version_between :
    (isNewerGatewayVersion "1.0" "x" = .ok false ∧ isNewerGatewayVersion "x" "1.0" = .ok false) ∧
    (isNewerGatewayVersion "x" "2.0" = .ok false ∧ isNewerGatewayVersion "2.0" "x" = .ok false) ∧
    isNewerGatewayVersion "1.0" "2.0" = .ok true ∧
    (Gateway.VersionCompare.isNewerGatewayVersion "1.0" "x" = false ∧
      Gateway.VersionCompare.isNewerGatewayVersion "x" "1.0" = false) ∧
    (Gateway.VersionCompare.isNewerGatewayVersion "x" "2.0" = false ∧
      Gateway.VersionCompare.isNewerGatewayVersion "2.0" "x" = false) ∧
    Gateway.VersionCompare.isNewerGatewayVersion "1.0" "2.0" = true := by
  have hunread : Gateway.VersionCompare.versionParts "x" = none := by decide
  refine ⟨by decide, by decide, by decide, ?_⟩
  simp only [Gateway.VersionCompare.isNewerGatewayVersion, hunread, versionParts_examples.2.2.1,
    versionParts_examples.2.2.2]
  decide

end Empyralis.Server.SelfUpdate
