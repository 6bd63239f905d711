import Empyralis.Lib.PaddedLex
import Empyralis.Lib.Text
import Mathlib.Algebra.Order.Ring.WithTop

/-! `isNewerGatewayVersion` of the gateway: dotted numbers, compared as JavaScript numbers.

    A number that `Number.parseInt` gives here is a natural number or, from about `2 ^ 1024` on,
    `Infinity`, which is `⊤`. -/

namespace Empyralis.Gateway.VersionCompare

/-- The digits that `[^0-9]` spares. -/
def asciiDigit (c : Char) : Bool := 48 ≤ c.toNat && c.toNat ≤ 57

/-- The value of ASCII digits. -/
def decimal (digits : List Char) : ℕ := digits.foldl (fun n c => 10 * n + (c.toNat - 48)) 0

/-- The double nearest to `n`, where the even one of two nearest. -/
def toDouble (n : ℕ) : WithTop ℕ :=
  let unit := 2 ^ (n.log2 + 1 - 53)
  let rest := n % unit
  let quotient := n / unit
  let rounded :=
    if unit < 2 * rest ∨ (unit = 2 * rest ∧ quotient % 2 = 1) then quotient + 1 else quotient
  if rounded * unit < 2 ^ 1024 then ((rounded * unit : ℕ) : WithTop ℕ) else ⊤

/-- A double takes a number of at most 53 bits as it stands. -/
theorem toDouble_of_lt {n : ℕ} (h : n < 2 ^ 53) : toDouble n = (n : ℕ) := by
  have hbits : n.log2 + 1 - 53 = 0 := by
    have hlog : n.log2 < 53 := by
      rcases Nat.eq_zero_or_pos n with rfl | hpos
      · decide
      · exact (Nat.log2_lt (Nat.ne_of_gt hpos)).mpr h
    omega
  have hpow : ∀ k, 53 ≤ k → n < 2 ^ k := fun k hk => h.trans_le (Nat.pow_le_pow_right Nat.two_pos hk)
  have hfinite : n < 2 ^ 1024 := hpow 1024 (by decide)
  simp only [toDouble, hbits, Nat.pow_zero, Nat.mod_one, Nat.div_one, Nat.mul_zero, Nat.not_lt_zero,
    Nat.one_ne_zero, false_and, or_self, if_false, Nat.mul_one, hfinite, if_true]

/-- `if (/^v/i.test(cleaned)) cleaned = cleaned.slice(1)` -/
def dropV : List Char → List Char
  | [] => []
  | c :: cs => if c = 'v' ∨ c = 'V' then cs else c :: cs

/-- The loop over the segments; a segment without a digit ends it with `null`. -/
def partsOf : List (List Char) → Option (List (WithTop ℕ))
  | [] => some []
  | segment :: segments =>
    let digits := segment.filter asciiDigit
    if digits = [] then none
    else (partsOf segments).map (toDouble (decimal digits) :: ·)

def versionParts (value : String) : Option (List (WithTop ℕ)) :=
  let cleaned := dropV (Text.trimList Text.jsSpace value.toList)
  if cleaned = [] then none
  else (partsOf (cleaned.splitOn '.')).filter (· ≠ [])

/-- The loop over the places: `b[i] ?? 0` against `a[i] ?? 0`. -/
def newerFrom (a b : List (WithTop ℕ)) : List ℕ → Bool
  | [] => false
  | i :: places =>
    if a.getD i 0 < b.getD i 0 then true
    else if b.getD i 0 < a.getD i 0 then false
    else newerFrom a b places

def isNewerGatewayVersion (current candidate : String) : Bool :=
  match versionParts current, versionParts candidate with
  | some a, some b => newerFrom a b (List.range (max a.length b.length))
  | _, _ => false

/-! ### The order -/

variable {a b : List (WithTop ℕ)}

/-- The first part in which two versions differ decides. -/
theorem newerFrom_range' : ∀ (n k : ℕ), newerFrom a b (List.range' k n) ↔
    ∃ i, k ≤ i ∧ i < k + n ∧ (∀ j, k ≤ j → j < i → a.getD j 0 = b.getD j 0) ∧
      a.getD i 0 < b.getD i 0
  | 0, k => by
    simp only [List.range'_zero, newerFrom]
    exact iff_of_false Bool.false_ne_true fun ⟨i, hk, hi, _⟩ => absurd hi (by omega)
  | n + 1, k => by
    rw [List.range'_succ, newerFrom]
    by_cases hlt : a.getD k 0 < b.getD k 0
    · rw [if_pos hlt]
      exact iff_of_true rfl ⟨k, le_refl k, by omega, fun j _ _ => by omega, hlt⟩
    rw [if_neg hlt]
    by_cases hgt : b.getD k 0 < a.getD k 0
    · rw [if_pos hgt]
      refine iff_of_false Bool.false_ne_true ?_
      rintro ⟨i, hki, -, hbefore, hi⟩
      rcases Nat.eq_or_lt_of_le hki with rfl | hlt'
      · exact hlt hi
      · exact absurd hgt (by rw [hbefore k (le_refl k) hlt']; exact lt_irrefl _)
    rw [if_neg hgt, newerFrom_range' n (k + 1)]
    have hk : a.getD k 0 = b.getD k 0 := le_antisymm (not_lt.mp hgt) (not_lt.mp hlt)
    constructor
    · rintro ⟨i, hki, hi, hbefore, hlt'⟩
      refine ⟨i, by omega, by omega, fun j hj hji => ?_, hlt'⟩
      rcases Nat.eq_or_lt_of_le hj with rfl | hkj
      · exact hk
      · exact hbefore j hkj hji
    · rintro ⟨i, hki, hi, hbefore, hlt'⟩
      rcases Nat.eq_or_lt_of_le hki with rfl | hki'
      · exact absurd hlt' hlt
      · exact ⟨i, hki', by omega, fun j hj hji => hbefore j (by omega) hji, hlt'⟩

/-- The loop decides the order of the numbers, continued by zeros. -/
theorem newerFrom_iff : newerFrom a b (List.range (max a.length b.length)) ↔
    PaddedLex.padded 0 a < PaddedLex.padded 0 b := by
  rw [List.range_eq_range', newerFrom_range', PaddedLex.padded_lt_iff]
  constructor
  · rintro ⟨i, -, -, hbefore, hlt⟩
    exact ⟨i, fun j hj => hbefore j (Nat.zero_le j) hj, hlt⟩
  · rintro ⟨i, hbefore, hlt⟩
    refine ⟨i, Nat.zero_le i, ?_, fun j _ hj => hbefore j hj, hlt⟩
    by_contra hi
    rw [List.getD_eq_default a 0 (by omega), List.getD_eq_default b 0 (by omega)] at hlt
    exact lt_irrefl _ hlt

/-- What a version is compared by. -/
def versionKey (value : String) : Option (Lex (ℕ → WithTop ℕ)) :=
  (versionParts value).map (PaddedLex.padded 0)

theorem isNewerGatewayVersion_iff (current candidate : String) :
    isNewerGatewayVersion current candidate ↔ ∃ x y, versionKey current = some x ∧
      versionKey candidate = some y ∧ x < y := by
  unfold isNewerGatewayVersion versionKey
  cases versionParts current with
  | none => simp
  | some a =>
    cases versionParts candidate with
    | none => simp
    | some b => simp [newerFrom_iff]

/-! ### What the parts depend on -/

/-- The segments of a version with nothing but the characters that `digit` accepts. -/
def digitSegments (digit : Char → Bool) (value : String) : List (List Char) :=
  (value.toList.filter fun c => digit c || c == '.').splitOn '.'

theorem filter_dropV {keep : Char → Bool} (hv : keep 'v' = false) (hV : keep 'V' = false)
    (cs : List Char) : (dropV cs).filter keep = cs.filter keep := by
  cases cs with
  | nil => rfl
  | cons c cs =>
    simp only [dropV]
    split_ifs with hc
    · rcases hc with rfl | rfl
      · rw [List.filter_cons_of_neg (by simp [hv])]
      · rw [List.filter_cons_of_neg (by simp [hV])]
    · rfl

/-- Neither the trimming nor the letter in front change the digits of a segment. -/
theorem segments_cleaned {space digit : Char → Bool} (hspace : ∀ c, space c → digit c = false)
    (hdot : space '.' = false) (hv : digit 'v' = false) (hV : digit 'V' = false) (value : String) :
    ((dropV (Text.trimList space value.toList)).splitOn '.').map (List.filter digit) =
      digitSegments digit value := by
  rw [Text.splitOn_filter, filter_dropV (by simp [hv]) (by simp [hV]), Text.filter_trimList]
  · rfl
  · intro c hc
    have hne : c ≠ '.' := fun heq => by simp [heq, hdot] at hc
    simp [hspace c hc, hne]

/-- Nothing but white space and a letter `v` leaves one segment without a digit. -/
theorem digitSegments_of_empty {space digit : Char → Bool}
    (hspace : ∀ c, space c → digit c = false) (hdot : space '.' = false) (hv : digit 'v' = false)
    (hV : digit 'V' = false) {value : String}
    (h : dropV (Text.trimList space value.toList) = []) : digitSegments digit value = [[]] := by
  rw [← segments_cleaned hspace hdot hv hV, h]
  rfl

/-- The parts of segments that have been reduced to their digits. -/
def partsOfDigits (segments : List (List Char)) : Option (List (WithTop ℕ)) :=
  if [] ∈ segments then none else some (segments.map fun digits => toDouble (decimal digits))

theorem partsOf_eq : ∀ segments : List (List Char),
    partsOf segments = partsOfDigits (segments.map (List.filter asciiDigit))
  | [] => rfl
  | segment :: segments => by
    simp only [partsOf, partsOf_eq segments, partsOfDigits, List.map_cons, List.mem_cons]
    by_cases hempty : segment.filter asciiDigit = []
    · simp [hempty]
    · rw [if_neg hempty]
      by_cases hrest : [] ∈ segments.map (List.filter asciiDigit)
      · simp [hrest]
      · simp [hrest, Ne.symm hempty]

theorem asciiDigit_not_space (c : Char) (hc : Text.jsSpace c) : asciiDigit c = false := by
  simp only [Text.jsSpace, Text.commonSpace, asciiDigit, Bool.or_eq_true, Bool.and_eq_true,
    decide_eq_true_eq, beq_iff_eq, Bool.and_eq_false_iff, decide_eq_false_iff_not] at hc ⊢
  omega

theorem versionParts_eq (value : String) :
    versionParts value = partsOfDigits (digitSegments asciiDigit value) := by
  unfold versionParts
  simp only
  split_ifs with hempty
  · rw [digitSegments_of_empty asciiDigit_not_space rfl rfl rfl hempty]
    rfl
  · rw [partsOf_eq, segments_cleaned asciiDigit_not_space rfl rfl rfl]
    unfold partsOfDigits
    split_ifs
    · rfl
    · have hne : digitSegments asciiDigit value ≠ [] := List.splitOn_ne_nil _ _
      simp [Option.filter, hne]

/-- The parts of a version whose numbers have at most 53 bits. -/
theorem versionParts_of_small {value : String} (hdigits : [] ∉ digitSegments asciiDigit value)
    (hsmall : ∀ digits ∈ digitSegments asciiDigit value, decimal digits < 2 ^ 53) :
    versionParts value =
      some ((digitSegments asciiDigit value).map fun digits => ((decimal digits : ℕ) : WithTop ℕ)) := by
  rw [versionParts_eq, partsOfDigits, if_neg hdigits]
  exact congrArg some (List.map_congr_left fun digits hmem => toDouble_of_lt (hsmall digits hmem))

end Empyralis.Gateway.VersionCompare
