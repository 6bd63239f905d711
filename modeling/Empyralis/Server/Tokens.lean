import Empyralis.Kernel.Protocol
import Empyralis.Server.Values

/-! Identifiers as the server reads them: `str(value or "").strip()`, and nothing when that is blank. -/

namespace Empyralis.Server
open Kernel
open Text (strip)

/-- What Python has stripped the kernel has nothing to trim of. -/
theorem present_strip (text : String) :
    present (strip text) = if strip text = "" then none else some (strip text) := by
  have h : Text.trim Text.rustSpace (strip text) = strip text := by
    refine Text.trim_trim_of_le (fun c hc => ?_) text
    simp only [Text.rustSpace, Text.pySpace, Bool.or_eq_true] at hc ⊢
    exact .inl hc
  simp only [present, h]

theorem strip_empty : strip "" = "" := by decide

theorem Value.strip_token (repr : Value → String) (value : Value) : strip (value.token repr) = value.token repr := by
  unfold token
  split
  · exact Text.trim_trim Text.pySpace _
  · exact strip_empty

theorem Value.token_string (repr : Value → String) (text : String) :
    (Value.string text).token repr = strip text := by
  by_cases h : text = ""
  · subst h
    simp only [token, truthy, ne_eq, not_true_eq_false, decide_false, Bool.false_eq_true, if_false, strip_empty]
  · simp only [token, truthy, str, ne_eq, h, not_false_eq_true, decide_true, if_true]

structure Token where
  text : String
  trimmed : strip text = text
  written : text ≠ ""

namespace Token

theorem ext_text {a b : Token} (h : a.text = b.text) : a = b := by
  cases a
  cases b
  cases h
  rfl

instance : DecidableEq Token := fun _ _ => decidable_of_iff _ ⟨ext_text, congrArg text⟩

/-- `str(value or "").strip() or None` -/
def read (value : String) : Option Token :=
  if h : strip value = "" then none else some ⟨strip value, Text.trim_trim Text.pySpace value, h⟩

@[simp] theorem read_text (t : Token) : read t.text = some t := by
  have h : strip t.text ≠ "" := by
    rw [t.trimmed]
    exact t.written
  rw [read, dif_neg h, Option.some.injEq]
  exact ext_text t.trimmed

theorem read_eq_none {value : String} : read value = none ↔ strip value = "" := by
  unfold read
  split <;> simp [*]

theorem present_text (t : Token) : present t.text = some t.text := by
  have h := present_strip t.text
  rw [t.trimmed, if_neg t.written] at h
  exact h

/-- The same of an argument that may be left out. -/
def readOpt (value : Option String) : Option Token := value.bind read

@[simp] theorem readOpt_map (t : Option Token) : readOpt (t.map text) = t := by
  cases t <;> simp [readOpt]

end Token

/-- `str.lower`: small letters stay, and what it has made of a text, stripped, it leaves as it is. -/
structure Lowercase where
  lower : String → String
  plain : ∀ s, (∀ c ∈ s.toList, c.isLower ∨ c = '_') → lower s = s
  stable : ∀ s, lower (strip (lower (strip s))) = lower (strip s)

namespace Lowercase

/-- `str(value or "").strip().lower()` -/
def token (l : Lowercase) (value : String) : String := l.lower (strip value)

@[simp] theorem token_token (l : Lowercase) (value : String) : l.token (l.token value) = l.token value :=
  l.stable value

theorem bounds_of_isLower {c : Char} (h : c.isLower = true) : 97 ≤ c.toNat ∧ c.toNat ≤ 122 := by
  have hval : (decide ('a'.val ≤ c.val) && decide (c.val ≤ 'z'.val)) = true := h
  rw [Bool.and_eq_true, decide_eq_true_eq, decide_eq_true_eq, UInt32.le_iff_toNat_le,
    UInt32.le_iff_toNat_le] at hval
  exact hval

theorem not_space_of_plain {c : Char} (h : c.isLower ∨ c = '_') : Text.pySpace c = false := by
  rcases h with h | rfl
  · obtain ⟨hlow, hhigh⟩ := bounds_of_isLower h
    simp only [Text.pySpace, Text.commonSpace, Bool.or_eq_false_iff, Bool.and_eq_false_iff,
      decide_eq_false_iff_not, beq_eq_false_iff_ne]
    omega
  · decide

theorem plain_of_all {s : String} (h : (s.toList.all fun c => c.isLower || c = '_') = true) :
    ∀ c ∈ s.toList, c.isLower ∨ c = '_' := by
  intro c hc
  simpa using List.all_eq_true.mp h c hc

theorem token_plain (l : Lowercase) {s : String} (h : ∀ c ∈ s.toList, c.isLower ∨ c = '_') :
    l.token s = s := by
  have hstrip : strip s = s := Text.trim_eq_self fun c hc => not_space_of_plain (h c hc)
  rw [token, hstrip, l.plain s h]

theorem space_toLower (c : Char) : Text.pySpace c.toLower = Text.pySpace c := by
  rcases Text.toLower_cases c with h | ⟨hlow, hhigh, h⟩
  · rw [h]
  · rw [Bool.eq_iff_iff]
    simp only [Text.pySpace, Text.commonSpace, h, Bool.or_eq_true, Bool.and_eq_true,
      decide_eq_true_eq, beq_iff_eq]
    omega

theorem toLower_toLower (c : Char) : c.toLower.toLower = c.toLower := by
  rcases Text.toLower_cases c.toLower with h | ⟨hlow, hhigh, -⟩
  · exact h
  · rcases Text.toLower_cases c with h | ⟨hlow', -, h⟩
    · rw [h, h]
    · omega

theorem toLower_plain {c : Char} (hc : c.isLower ∨ c = '_') : c.toLower = c := by
  rcases Text.toLower_cases c with h | ⟨hlow, hhigh, -⟩
  · exact h
  · rcases hc with hc | rfl
    · have hlower := (bounds_of_isLower hc).1
      omega
    · rfl

theorem trimList_map {space : Char → Bool} {f : Char → Char} (h : ∀ c, space (f c) = space c)
    (cs : List Char) : Text.trimList space (cs.map f) = (Text.trimList space cs).map f := by
  have hcomp : space ∘ f = space := funext h
  rw [Text.trimList, Text.trimList, List.dropWhile_map, List.rdropWhile, List.rdropWhile,
    ← List.map_reverse, List.dropWhile_map, hcomp, List.map_reverse]

/-- Lower case of the ASCII letters. -/
def ascii : Lowercase where
  lower s := String.ofList (s.toList.map Char.toLower)
  plain s h := by
    rw [List.map_congr_left fun c hc => toLower_plain (h c hc), List.map_id', String.ofList_toList]
  stable s := by
    simp only [strip, Text.trim, String.toList_ofList, trimList_map space_toLower,
      Text.trimList_trimList, List.map_map]
    refine congrArg String.ofList (List.map_congr_left fun c _ => ?_)
    exact toLower_toLower c

end Lowercase

end Empyralis.Server
