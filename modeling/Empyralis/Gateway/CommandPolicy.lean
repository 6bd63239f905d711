import Empyralis.Gateway.Codec
import Empyralis.Kernel.HardBlock
import Empyralis.Lib.Occurrence
import Empyralis.Lib.Words

/-! The commands that the gateway never runs: `hardBlockedCommand`, beside the kernel's `hard_blocked_command`.

    A pattern blocks by its first occurrence alone. Where that one goes on to a path, a later one that does not is not
    seen, so a command that is blocked need not stay blocked after another. -/

namespace Empyralis.Gateway.CommandPolicy

open Codec Occurrence Words

/-- `HARD_BLOCKED_COMMAND_PATTERNS` -/
def hardBlockedCommandPatterns : List String :=
  ["rm -rf /", "rm -rf /*", "rm -fr /", "rm -fr /*", "rm -rf ~", "rm -fr ~", "rm -rf ~/", "rm -fr ~/", "rm -rf .",
    "mkfs.", "diskutil erasedisk", "dd if=/dev/", ":()\x7b :|:& \x7d;:", "> /dev/sda", "> /dev/nvme",
    "chmod -r 000 /", "chmod -r 777 /", "chown -r ", "shutdown -", "reboot", "halt", "poweroff"]

def lowerUnit (unit : UInt16) : UInt16 := if 0x41 ≤ unit && unit ≤ 0x5A then unit + 0x20 else unit

/-- `String.prototype.toLowerCase`: the small letters of ASCII, and in any text no change that depends on what stands
    across a space, a semicolon or an ampersand. -/
structure LowerCase where
  lower : JsString → JsString
  ascii : ∀ text, (∀ unit ∈ text, unit < 0x80) → lower text = text.map lowerUnit
  across : ∀ (a b : JsString) (unit : UInt16), unit ∈ js " ;&" → lower (a ++ unit :: b) = lower a ++ unit :: lower b

/-- `split(/\s+/)`: of a run of white space the last unit separates. -/
def splitSpaces : JsString → List JsString
  | [] => [[]]
  | unit :: text =>
    if isSpace unit then
      if text.head?.any isSpace then splitSpaces text else [] :: splitSpaces text
    else (splitSpaces text).modifyHead (unit :: ·)

variable (l : LowerCase)

/-- `command.trim().split(/\s+/).join(" ").toLowerCase()` -/
def normalized (command : JsString) : JsString := l.lower ((js " ").intercalate (splitSpaces (trim command)))

def startsWith (text : JsString) (part : String) : Bool := (js part).isPrefixOf text

def endsWith (text : JsString) (part : String) : Bool := (js part).isSuffixOf text

def isRootScopedRmPattern (pattern : JsString) : Bool :=
  startsWith pattern "rm -" &&
    (endsWith pattern " /" || endsWith pattern " ~" || endsWith pattern " ~/" || endsWith pattern " .")

/-- One round of the loop over the patterns. -/
def patternBlocks (normalized pattern : JsString) : Bool :=
  match firstAt pattern normalized with
  | none => false
  | some pos =>
    let afterChar := (normalized.drop (pos + pattern.length)).head?
    if afterChar = none ∨ afterChar = some 0x20 then true
    else if isRootScopedRmPattern pattern then false
    else true

def hardBlockedCommand (command : JsString) : Bool :=
  if normalized l command = [] then false
  else hardBlockedCommandPatterns.any fun pattern => patternBlocks (normalized l command) (js pattern)

/-! ### Normal forms -/

theorem patternBlocks_eq (text pattern : JsString) :
    patternBlocks text pattern = found (isRootScopedRmPattern pattern) 0x20 text pattern :=
  (found_eq (isRootScopedRmPattern pattern) 0x20 text pattern).symm

/-- Where a text does not end in white space its pieces are its words, after an empty one where it begins with some. -/
theorem splitSpaces_eq {text : JsString} (hne : text ≠ []) (hlast : ∀ unit ∈ text.getLast?, isSpace unit = false) :
    splitSpaces text = (if text.head?.any isSpace then [[]] else []) ++ words isSpace text := by
  induction text with
  | nil => exact absurd rfl hne
  | cons unit text ih =>
    rw [splitSpaces, List.head?_cons, Option.any_some]
    rcases text with - | ⟨next, rest⟩
    · have hunit : isSpace unit = false := hlast unit rfl
      have hword : words isSpace [unit] = [[unit]] := words_of_forall (by simpa using hunit) (List.cons_ne_nil _ _)
      rw [hunit, hword]
      rfl
    · have hrest : splitSpaces (next :: rest) =
          (if isSpace next then [[]] else []) ++ words isSpace (next :: rest) :=
        ih (List.cons_ne_nil _ _) fun u hu => hlast u (by rwa [List.getLast?_cons_cons])
      rw [List.head?_cons, Option.any_some, hrest]
      by_cases hunit : isSpace unit = true
      · rw [if_pos hunit, if_pos hunit, words_cons_of_space hunit]
        cases isSpace next <;> rfl
      · rw [if_neg hunit, if_neg hunit, words_cons_head (Bool.not_eq_true _ ▸ hunit)]
        cases isSpace next <;> rfl

theorem head_trim {text : JsString} {unit : UInt16} (h : unit ∈ (trim text).head?) : isSpace unit = false := by
  obtain ⟨rest, hrest⟩ := List.rdropWhile_prefix isSpace (text.dropWhile isSpace)
  have hhead := List.head?_dropWhile_not isSpace text
  rw [← hrest] at hhead
  change unit ∈ ((text.dropWhile isSpace).rdropWhile isSpace).head? at h
  cases hkept : (text.dropWhile isSpace).rdropWhile isSpace with
  | nil =>
    rw [hkept] at h
    cases h
  | cons first kept =>
    rw [hkept] at h hhead
    cases h
    exact hhead

theorem getLast_trim {text : JsString} {unit : UInt16} (h : unit ∈ (trim text).getLast?) : isSpace unit = false := by
  have hne : trim text ≠ [] := by
    rintro hempty
    rw [hempty] at h
    cases h
  rw [List.getLast?_eq_getLast_of_ne_nil hne, Option.mem_some_iff] at h
  rw [← h]
  exact Bool.not_eq_true _ ▸ List.rdropWhile_last_not isSpace (text.dropWhile isSpace) hne

/-- Trimmed, split at its white space and joined again a text is its words with single spaces. -/
theorem normalized_eq (command : JsString) : normalized l command = l.lower (collapse isSpace 0x20 command) := by
  have hwords : words isSpace (trim command) = words isSpace command := by
    rw [trim, words_rdropWhile, words_dropWhile]
  rw [normalized, collapse, ← hwords]
  by_cases hempty : trim command = []
  · rw [hempty]
    rfl
  · have hhead : (trim command).head?.any isSpace = false := by
      rw [Option.any_eq_false]
      exact fun unit hunit => by rw [head_trim hunit]
    rw [splitSpaces_eq hempty fun unit hunit => getLast_trim hunit, hhead]
    rfl

theorem hardBlockedCommand_iff (command : JsString) : hardBlockedCommand l command = true ↔
    ∃ pattern ∈ hardBlockedCommandPatterns,
      found (isRootScopedRmPattern (js pattern)) 0x20 (normalized l command) (js pattern) = true := by
  rw [hardBlockedCommand]
  split
  · rename_i hempty
    rw [hempty]
    exact iff_of_false Bool.false_ne_true (by decide)
  · rw [List.any_eq_true]
    simp only [patternBlocks_eq]

/-! ### A command after another -/

variable {l}

theorem words_ne_nil {command : JsString} (h : hardBlockedCommand l command = true) :
    words isSpace command ≠ [] := by
  intro hnone
  have hempty : normalized l command = [] := by
    rw [normalized_eq, collapse_eq_nil hnone, l.ascii [] (by simp)]
    rfl
  simp [hardBlockedCommand, hempty] at h

theorem normalized_append {first second : JsString} (hfirst : words isSpace first ≠ [])
    (hsecond : words isSpace second ≠ []) :
    normalized l (first ++ 0x20 :: second) = normalized l first ++ 0x20 :: normalized l second := by
  rw [normalized_eq, normalized_eq, normalized_eq, collapse_append_cons _ (by decide) hfirst hsecond,
    l.across _ _ _ (by decide)]

/-- The units that join two commands stand at the end of the first in lower case too. -/
theorem suffix_normalized {text rest : JsString} {unit : UInt16} (hunit : unit ∈ js " ;&")
    (hjoint : ((unit :: rest).all fun u => !isSpace u) = true) (hrest : l.lower rest = rest) :
    words isSpace (text ++ unit :: rest) ≠ [] ∧ unit :: rest <:+ normalized l (text ++ unit :: rest) := by
  have hspace : ∀ u ∈ unit :: rest, isSpace u = false := fun u hu => by
    simpa using List.all_eq_true.mp hjoint u hu
  obtain ⟨ws, w, hwords⟩ := words_append hspace (List.cons_ne_nil unit rest) text
  refine ⟨by simp [hwords], ?_⟩
  obtain ⟨before, hbefore⟩ : unit :: rest <:+ collapse isSpace 0x20 (text ++ unit :: rest) :=
    suffix_collapse hspace (List.cons_ne_nil unit rest) text
  rw [normalized_eq, ← hbefore, l.across _ _ _ hunit, hrest]
  exact List.suffix_append _ _

variable (l) in
/-- Of the patterns that occur in the first command, one that blocks by its first occurrence there; or one that blocks
    the second command and does not occur in the first. -/
def Leads (first second : JsString) : Prop :=
  ∃ pattern ∈ hardBlockedCommandPatterns,
    found (isRootScopedRmPattern (js pattern)) 0x20 (normalized l first) (js pattern) = true ∨
      occurs (js pattern) (normalized l first) = false ∧
        found (isRootScopedRmPattern (js pattern)) 0x20 (normalized l second) (js pattern) = true

theorem hardBlockedCommand_append {text rest second : JsString} {unit : UInt16} (hunit : unit ∈ js " ;&")
    (hjoint : ((unit :: rest).all fun u => !isSpace u) = true) (hrest : l.lower rest = rest)
    (hapart : ∀ pattern ∈ hardBlockedCommandPatterns, Apart (unit :: rest) 0x20 (js pattern))
    (h : hardBlockedCommand l second = true) :
    hardBlockedCommand l (text ++ unit :: rest ++ 0x20 :: second) = true ↔ Leads l (text ++ unit :: rest) second := by
  obtain ⟨hwords, hends⟩ := @suffix_normalized l text rest unit hunit hjoint hrest
  rw [hardBlockedCommand_iff, normalized_append hwords (words_ne_nil h), Leads]
  refine exists_congr fun pattern => and_congr_right fun hmem => ?_
  rw [found_append_cons _ (hapart pattern hmem) hends]
  simp

/-- A blocked command stays blocked after another just when the other leads to it. -/
theorem hardBlockedCommand_sequence {second : JsString} (h : hardBlockedCommand l second = true) (first : JsString) :
    (hardBlockedCommand l (first ++ js "; " ++ second) = true ↔ Leads l (first ++ js ";") second) ∧
      (hardBlockedCommand l (first ++ js " && " ++ second) = true ↔ Leads l (first ++ js " &&") second) := by
  have hsemicolon : first ++ js "; " ++ second = first ++ 0x3B :: [] ++ 0x20 :: second := by
    rw [List.append_assoc, List.append_assoc]
    rfl
  have hampersands : first ++ js " && " ++ second = first ++ [0x20] ++ 0x26 :: [0x26] ++ 0x20 :: second := by
    rw [List.append_assoc, List.append_assoc, List.append_assoc]
    rfl
  have hjoint : first ++ js " &&" = first ++ [0x20] ++ 0x26 :: [0x26] := by
    rw [List.append_assoc]
    rfl
  have hempty : l.lower [] = [] := l.ascii [] (by simp)
  have hampersand : l.lower [0x26] = [0x26] := by
    rw [l.ascii _ (by simp)]
    rfl
  rw [hsemicolon, hampersands, hjoint]
  exact ⟨hardBlockedCommand_append (by decide) (by decide) hempty (by decide) h,
    hardBlockedCommand_append (by decide) (by decide) hampersand (by decide) h⟩

/-! ### Beside the kernel -/

def unit (c : Char) : UInt16 := UInt16.ofNat c.toNat

theorem unit_toNat {c : Char} (hc : c.toNat < 128) : (unit c).toNat = c.toNat :=
  UInt16.toNat_ofNat_of_lt (Nat.lt_trans hc (by decide))

theorem unit_inj {c d : Char} (hc : c.toNat < 128) (hd : d.toNat < 128) (h : unit c = unit d) : c = d := by
  have hnat : c.toNat = d.toNat := by rw [← unit_toNat hc, ← unit_toNat hd, h]
  exact Char.toNat_inj.mp hnat

theorem isSpace_unit {c : Char} (hc : c.toNat < 128) : isSpace (unit c) = Text.rustSpace c := by
  have hall : ∀ n < 128, isSpace (unit (Char.ofNat n)) = Text.rustSpace (Char.ofNat n) := by decide
  have hchar := hall c.toNat hc
  rwa [Char.ofNat_toNat] at hchar

theorem lowerUnit_unit {c : Char} (hc : c.toNat < 128) : lowerUnit (unit c) = unit c.toLower := by
  have hall : ∀ n < 128, lowerUnit (unit (Char.ofNat n)) = unit (Char.ofNat n).toLower := by decide
  have hchar := hall c.toNat hc
  rwa [Char.ofNat_toNat] at hchar

theorem ascii_toLower {c : Char} (hc : c.toNat < 128) : c.toLower.toNat < 128 := by
  rcases Text.toLower_cases c with h | ⟨-, hhigh, h⟩
  · rwa [h]
  · omega

/-- Both normal forms of an ASCII command are the same text. -/
theorem normalized_ascii {command : String} (hascii : ∀ c ∈ command.toList, c.toNat < 128) :
    normalized l (js command) = (Kernel.HardBlock.normalized command).map unit := by
  have hcompact : ∀ c ∈ Kernel.HardBlock.compactText command.toList, c.toNat < 128 := by
    intro c hc
    rcases mem_collapse hc with rfl | hc
    · decide
    · exact hascii c hc
  have hunits : collapse isSpace 0x20 (js command) = (Kernel.HardBlock.compactText command.toList).map unit :=
    collapse_map ' ' fun c hc => isSpace_unit (hascii c hc)
  rw [normalized_eq, hunits, Kernel.HardBlock.normalized_eq, l.ascii, List.map_map, List.map_map]
  · exact List.map_congr_left fun c hc => lowerUnit_unit (hcompact c hc)
  · intro u hu
    obtain ⟨c, hc, rfl⟩ := List.mem_map.mp hu
    rw [UInt16.lt_iff_toNat_lt, unit_toNat (hcompact c hc)]
    exact hcompact c hc

/-- The two implementations have the same patterns, and the same of them are root-scoped. -/
theorem patterns_agree : hardBlockedCommandPatterns = Kernel.HardBlock.hardBlockedCommandPatterns ∧
    ∀ pattern ∈ hardBlockedCommandPatterns,
      isRootScopedRmPattern (js pattern) = Kernel.HardBlock.rootScoped pattern.toList ∧
        (pattern.toList.all fun c => c.toNat < 128) = true := by decide

/-- On ASCII the gateway and the kernel refuse the same commands. -/
theorem hardBlockedCommand_ascii {command : String} (hascii : ∀ c ∈ command.toList, c.toNat < 128) :
    hardBlockedCommand l (js command) = Kernel.HardBlock.hardBlockedCommand command := by
  have hnormalized : ∀ c ∈ Kernel.HardBlock.normalized command, c.toNat < 128 := by
    intro c hc
    rw [Kernel.HardBlock.normalized_eq] at hc
    obtain ⟨d, hd, rfl⟩ := List.mem_map.mp hc
    rcases mem_collapse hd with rfl | hd
    · decide
    · exact ascii_toLower (hascii d hd)
  obtain ⟨hsame, hpatterns⟩ := patterns_agree
  rw [Bool.eq_iff_iff, hardBlockedCommand_iff, Kernel.HardBlock.hardBlockedCommand_iff, ← hsame,
    normalized_ascii hascii]
  refine exists_congr fun pattern => and_congr_right fun hmem => ?_
  obtain ⟨hscope, hpattern⟩ := hpatterns pattern hmem
  have hgap : 0x20 = unit ' ' := by decide
  rw [hscope, hgap]
  refine iff_of_eq (congrArg (· = true) (found_map ' ' _ ?_ ?_))
  · exact fun c hc d hd => unit_inj (by simpa using List.all_eq_true.mp hpattern c hc) (hnormalized d hd)
  · exact fun d hd => unit_inj (hnormalized d hd) (by decide)

variable (l) in
/-- The gateway and the kernel agree on ASCII, and in both a blocked command stays blocked behind another just when the
    other leads to it. -/
theorem hardBlock_closure :
    (∀ command : String, (∀ c ∈ command.toList, c.toNat < 128) →
      hardBlockedCommand l (js command) = Kernel.HardBlock.hardBlockedCommand command) ∧
    (∀ first second : JsString, hardBlockedCommand l second = true →
      (hardBlockedCommand l (first ++ js "; " ++ second) = true ↔ Leads l (first ++ js ";") second) ∧
        (hardBlockedCommand l (first ++ js " && " ++ second) = true ↔ Leads l (first ++ js " &&") second)) ∧
    ∀ first second : String, Kernel.HardBlock.hardBlockedCommand second = true →
      (Kernel.HardBlock.hardBlockedCommand (first ++ "; " ++ second) = true ↔
          Kernel.HardBlock.Leads (first ++ ";") second) ∧
        (Kernel.HardBlock.hardBlockedCommand (first ++ " && " ++ second) = true ↔
          Kernel.HardBlock.Leads (first ++ " &&") second) :=
  ⟨fun _ hascii => hardBlockedCommand_ascii hascii, fun first _ h => hardBlockedCommand_sequence h first,
    fun first _ h => Kernel.HardBlock.hardBlockedCommand_sequence_iff h first⟩

/-- Lower case of ASCII alone. -/
def asciiLowerCase : LowerCase where
  lower text := text.map lowerUnit
  ascii _ _ := rfl
  across a b u hu := by
    have hsame : lowerUnit u = u := by
      rcases List.mem_cons.mp hu with rfl | hu
      · rfl
      · rcases List.mem_cons.mp hu with rfl | hu
        · rfl
        · rw [List.mem_singleton.mp hu]
          rfl
    rw [List.map_append, List.map_cons, hsame]

theorem hardBlock_closure_of_ascii :
    hardBlockedCommand asciiLowerCase (js "rm -rf /") = Kernel.HardBlock.hardBlockedCommand "rm -rf /" ∧
      ((hardBlockedCommand asciiLowerCase (js "ls" ++ js "; " ++ js "halt") = true ↔
          Leads asciiLowerCase (js "ls" ++ js ";") (js "halt")) ∧
        (hardBlockedCommand asciiLowerCase (js "ls" ++ js " && " ++ js "halt") = true ↔
          Leads asciiLowerCase (js "ls" ++ js " &&") (js "halt"))) ∧
      ((Kernel.HardBlock.hardBlockedCommand ("ls" ++ "; " ++ "halt") = true ↔
          Kernel.HardBlock.Leads ("ls" ++ ";") "halt") ∧
        (Kernel.HardBlock.hardBlockedCommand ("ls" ++ " && " ++ "halt") = true ↔
          Kernel.HardBlock.Leads ("ls" ++ " &&") "halt")) :=
  ⟨(hardBlock_closure asciiLowerCase).1 "rm -rf /" (by simp),
    (hardBlock_closure asciiLowerCase).2.1 (js "ls") (js "halt") (by decide),
    (hardBlock_closure asciiLowerCase).2.2 "ls" "halt" (by decide)⟩

/-- A deletion that is allowed hides one that is not. -/
theorem allowed_hides_blocked :
    (¬∀ first second : JsString, hardBlockedCommand asciiLowerCase second = true →
      hardBlockedCommand asciiLowerCase (first ++ js "; " ++ second) = true ∧
        hardBlockedCommand asciiLowerCase (first ++ js " && " ++ second) = true) ∧
    ¬∀ first second : String, Kernel.HardBlock.hardBlockedCommand second = true →
      Kernel.HardBlock.hardBlockedCommand (first ++ "; " ++ second) = true ∧
        Kernel.HardBlock.hardBlockedCommand (first ++ " && " ++ second) = true := by
  constructor
  · intro h
    have hhidden : hardBlockedCommand asciiLowerCase (js "rm -rf /") = true ∧
        hardBlockedCommand asciiLowerCase (js "rm -rf /tmp/x" ++ js "; " ++ js "rm -rf /") = false := by
      decide
    exact Bool.false_ne_true (hhidden.2 ▸ (h (js "rm -rf /tmp/x") (js "rm -rf /") hhidden.1).1)
  · intro h
    have hhidden : Kernel.HardBlock.hardBlockedCommand "rm -rf /" = true ∧
        Kernel.HardBlock.hardBlockedCommand ("rm -rf /tmp/x" ++ "; " ++ "rm -rf /") = false := by
      decide
    exact Bool.false_ne_true (hhidden.2 ▸ (h "rm -rf /tmp/x" "rm -rf /" hhidden.1).1)

end Empyralis.Gateway.CommandPolicy
