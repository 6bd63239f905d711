import Mathlib.Data.List.DropRight

/-! Trimming text by the notion of white space of a source language.

    Strings are handled through their characters, so every function here runs on closed terms. -/

namespace Empyralis.Text

/-- The white space that JavaScript, Rust and Python agree on. -/
def commonSpace (c : Char) : Bool :=
  let n := c.toNat
  (9 ≤ n && n ≤ 13) || n == 32 || n == 0xA0 || n == 0x1680 || (0x2000 ≤ n && n ≤ 0x200A) ||
    n == 0x2028 || n == 0x2029 || n == 0x202F || n == 0x205F || n == 0x3000

/-- `String.prototype.trim` also strips the byte order mark. -/
def jsSpace (c : Char) : Bool := commonSpace c || c.toNat == 0xFEFF

/-- `str::trim` strips the characters with the property `White_Space`. -/
def rustSpace (c : Char) : Bool := commonSpace c || c.toNat == 0x85

/-- `str.strip` also strips the four information separators. -/
def pySpace (c : Char) : Bool :=
  commonSpace c || c.toNat == 0x85 || (0x1C ≤ c.toNat && c.toNat ≤ 0x1F)

def trimList (space : Char → Bool) (cs : List Char) : List Char :=
  (cs.dropWhile space).rdropWhile space

def trim (space : Char → Bool) (s : String) : String :=
  String.ofList (trimList space s.toList)

/-- `str.strip` -/
def strip (s : String) : String := trim pySpace s

/-- `Char.toLower` leaves a character as it is or makes a small letter of a capital one. -/
theorem toLower_cases (c : Char) :
    c.toLower = c ∨ (65 ≤ c.toNat ∧ c.toNat ≤ 90 ∧ c.toLower.toNat = c.toNat + 32) := by
  unfold Char.toLower
  split
  · rename_i h
    have hlow : 65 ≤ c.toNat := h.1
    have hhigh : c.toNat ≤ 90 := h.2
    refine .inr ⟨hlow, hhigh, ?_⟩
    change (c.val + ('a'.val - 'A'.val)).toNat = c.val.toNat + 32
    rw [UInt32.toNat_add, show ('a'.val - 'A'.val).toNat = 32 from by decide]
    exact Nat.mod_eq_of_lt (by change c.toNat + 32 < _; omega)
  · exact .inl rfl

theorem dropWhile_of_prefix {α : Type} {p : α → Bool} {cs ds : List α} (h : cs <+: ds)
    (hd : ds.dropWhile p = ds) : cs.dropWhile p = cs := by
  obtain ⟨es, rfl⟩ := h
  cases cs with
  | nil => rfl
  | cons c cs =>
    have hc : p c = false := by
      by_contra hp
      rw [Bool.not_eq_false] at hp
      have hlen := congrArg List.length hd
      rw [List.cons_append, List.dropWhile_cons_of_pos hp, List.length_cons] at hlen
      have := (List.dropWhile_suffix p (l := cs ++ es)).length_le
      omega
    rw [List.dropWhile_cons_of_neg (by simp [hc])]

/-- What is left between the ends is left again. -/
theorem dropWhile_rdropWhile_idempotent {α : Type} (p : α → Bool) (cs : List α) :
    (((cs.dropWhile p).rdropWhile p).dropWhile p).rdropWhile p = (cs.dropWhile p).rdropWhile p := by
  have hpre : (cs.dropWhile p).rdropWhile p <+: cs.dropWhile p := List.rdropWhile_prefix p _
  have hdrop : ((cs.dropWhile p).rdropWhile p).dropWhile p = (cs.dropWhile p).rdropWhile p :=
    dropWhile_of_prefix hpre (List.dropWhile_idempotent p cs)
  rw [hdrop]
  exact List.rdropWhile_idempotent p _

theorem trimList_trimList (space : Char → Bool) (cs : List Char) :
    trimList space (trimList space cs) = trimList space cs := dropWhile_rdropWhile_idempotent space cs

@[simp] theorem trim_trim (space : Char → Bool) (s : String) :
    trim space (trim space s) = trim space s := by
  simp [trim, trimList_trimList]

/-- Text that one trim has left has nothing at its ends for a trim that takes less. -/
theorem trim_trim_of_le {space wide : Char → Bool} (h : ∀ c, space c → wide c) (s : String) :
    trim space (trim wide s) = trim wide s := by
  have hdrop : ∀ cs : List Char, cs.dropWhile wide = cs → cs.dropWhile space = cs := by
    rintro (- | ⟨c, cs⟩) hcs
    · rfl
    · refine List.dropWhile_cons_of_neg fun hc => ?_
      have hlen := congrArg List.length hcs
      rw [List.dropWhile_cons_of_pos (h c hc), List.length_cons] at hlen
      have := (List.dropWhile_suffix wide (l := cs)).length_le
      omega
  have hl : (trimList wide s.toList).dropWhile wide = trimList wide s.toList :=
    dropWhile_of_prefix (List.rdropWhile_prefix wide _) (List.dropWhile_idempotent wide _)
  have hr : (trimList wide s.toList).reverse.dropWhile wide = (trimList wide s.toList).reverse := by
    rw [trimList, List.rdropWhile, List.reverse_reverse, List.dropWhile_idempotent]
  rw [trim, trim, String.toList_ofList, trimList, hdrop _ hl, List.rdropWhile, hdrop _ hr,
    List.reverse_reverse]

/-- Text without white space is its own trim. -/
theorem trim_eq_self {space : Char → Bool} {s : String} (h : ∀ c ∈ s.toList, space c = false) :
    trim space s = s := by
  have hdrop : s.toList.dropWhile space = s.toList := by
    cases hs : s.toList with
    | nil => rfl
    | cons c cs => rw [List.dropWhile_cons_of_neg (by simp [h c (by simp [hs])])]
  have hrdrop : s.toList.rdropWhile space = s.toList := by
    rw [List.rdropWhile, List.dropWhile_eq_self_iff.mpr, List.reverse_reverse]
    intro hlen
    simpa using h _ (List.mem_reverse.mp (List.get_mem _ ⟨0, hlen⟩))
  rw [trim, trimList, hdrop, hrdrop, String.ofList_toList]

/-- Text without white space, before white space. -/
theorem trim_append_space {space : Char → Bool} {s t : String} (hs : ∀ c ∈ s.toList, space c = false)
    (ht : ∀ c ∈ t.toList, space c = true) : trim space (s ++ t) = s := by
  have hend : (s.toList ++ t.toList).rdropWhile space = s.toList := by
    rw [List.rdropWhile, List.reverse_append,
      List.dropWhile_append_of_pos fun c hc => ht c (List.mem_reverse.mp hc), List.dropWhile_eq_self_iff.mpr,
      List.reverse_reverse]
    intro hlen
    simpa using hs _ (List.mem_reverse.mp (List.get_mem _ ⟨0, hlen⟩))
  rw [trim, trimList, String.toList_append]
  cases hlist : s.toList with
  | nil =>
    rw [List.nil_append, List.dropWhile_eq_nil_iff.mpr ht, List.rdropWhile_nil, ← hlist, String.ofList_toList]
  | cons c cs =>
    have hc : space c = false := hs c (by simp [hlist])
    rw [List.cons_append, List.dropWhile_cons_of_neg (by simp [hc]), ← List.cons_append, ← hlist, hend,
      String.ofList_toList]

/-- Trimming takes nothing that a filter without white space keeps. -/
theorem filter_trimList {space keep : Char → Bool} (h : ∀ c, space c → keep c = false)
    (cs : List Char) : (trimList space cs).filter keep = cs.filter keep := by
  have hdrop : ∀ ds : List Char, (ds.dropWhile space).filter keep = ds.filter keep := by
    intro ds
    induction ds with
    | nil => rfl
    | cons d ds ih =>
      by_cases hd : space d
      · rw [List.dropWhile_cons_of_pos hd, List.filter_cons_of_neg (by simp [h d hd]), ih]
      · rw [List.dropWhile_cons_of_neg hd]
  rw [trimList, List.rdropWhile, List.filter_reverse, hdrop, List.filter_reverse,
    List.reverse_reverse, hdrop]

/-- Text with a character that is not white space is not blank. -/
theorem trim_ne_empty {space : Char → Bool} {s : String} {c : Char} (hc : c ∈ s.toList)
    (h : space c = false) : trim space s ≠ "" := by
  intro hempty
  have hfilter : (trimList space s.toList).filter (fun d => !space d) =
      s.toList.filter fun d => !space d := filter_trimList (by simp) s.toList
  rw [show trimList space s.toList = [] from String.ofList_eq_empty_iff.mp hempty, List.filter_nil] at hfilter
  have hmem : c ∈ s.toList.filter fun d => !space d := List.mem_filter.mpr ⟨hc, by simp [h]⟩
  rw [← hfilter] at hmem
  cases hmem

/-- Splitting and then filtering the segments is filtering, with the separator kept, and then
    splitting. -/
theorem splitOn_filter (keep : Char → Bool) (sep : Char) (cs : List Char) :
    (cs.splitOn sep).map (List.filter keep) =
      (cs.filter fun c => keep c || c == sep).splitOn sep := by
  induction cs with
  | nil => simp
  | cons c cs ih =>
    rw [List.splitOn_cons_eq_if_modifyHead]
    by_cases hsep : c == sep
    · rw [if_pos hsep, List.map_cons, ih, List.filter_cons_of_pos (by simp [hsep]),
        List.splitOn_cons_eq_if_modifyHead, if_pos hsep]
      rfl
    · rw [if_neg hsep]
      obtain ⟨segment, rest, hsegs⟩ := List.exists_cons_of_ne_nil (List.splitOn_ne_nil sep cs)
      rw [hsegs, List.map_cons] at ih
      rw [hsegs, List.modifyHead_cons, List.map_cons]
      by_cases hc : keep c
      · have hkept : (c :: cs).filter (fun d => keep d || d == sep) =
            c :: cs.filter (fun d => keep d || d == sep) :=
          List.filter_cons_of_pos (by simp [hc])
        rw [hkept, List.splitOn_cons_eq_if_modifyHead, if_neg hsep, ← ih, List.modifyHead_cons,
          List.filter_cons_of_pos hc]
      · have hdropped : (c :: cs).filter (fun d => keep d || d == sep) =
            cs.filter (fun d => keep d || d == sep) :=
          List.filter_cons_of_neg (by simp [hc, hsep])
        rw [hdropped, ← ih, List.filter_cons_of_neg hc]

end Empyralis.Text
