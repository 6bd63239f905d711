import Empyralis.Lib.Occurrence
import Empyralis.Lib.Text
import Empyralis.Lib.Words

/-! The commands that the runtime kernel never runs: `hard_blocked_command`. -/

namespace Empyralis.Kernel.HardBlock

open Occurrence Words

/-- `HARD_BLOCKED_COMMAND_PATTERNS` -/
def hardBlockedCommandPatterns : List String :=
  ["rm -rf /", "rm -rf /*", "rm -fr /", "rm -fr /*", "rm -rf ~", "rm -fr ~", "rm -rf ~/", "rm -fr ~/", "rm -rf .",
    "mkfs.", "diskutil erasedisk", "dd if=/dev/", ":()\x7b :|:& \x7d;:", "> /dev/sda", "> /dev/nvme",
    "chmod -r 000 /", "chmod -r 777 /", "chown -r ", "shutdown -", "reboot", "halt", "poweroff"]

def startsWith (text : List Char) (part : String) : Bool := part.toList.isPrefixOf text

def endsWith (text : List Char) (part : String) : Bool := part.toList.isSuffixOf text

/-- `split_whitespace` and `join(" ")` -/
def compactText (text : List Char) : List Char := collapse Text.rustSpace ' ' text

def normalized (command : String) : List Char :=
  let compact := (compactText command.toList).map Char.toLower
  compactText compact

/-- A deletion of a root or home directory, which may go on to a path below it. -/
def rootScoped (pattern : List Char) : Bool :=
  startsWith pattern "rm -" &&
    (endsWith pattern " /" || endsWith pattern " ~" || endsWith pattern " ~/" || endsWith pattern " .")

/-- One round of the loop over the patterns. -/
def patternBlocks (normalized pattern : List Char) : Bool :=
  match firstAt pattern normalized with
  | none => false
  | some pos =>
    let after := (normalized.drop (pos + pattern.length)).head?
    if after = none ∨ after = some ' ' then true
    else if rootScoped pattern then false
    else true

def hardBlockedCommand (command : String) : Bool :=
  let compact := (compactText command.toList).map Char.toLower
  if compact = [] then false
  else hardBlockedCommandPatterns.any fun pattern => patternBlocks (normalized command) pattern.toList

/-! ### Normal forms -/

theorem patternBlocks_eq (text pattern : List Char) :
    patternBlocks text pattern = found (rootScoped pattern) ' ' text pattern :=
  (found_eq (rootScoped pattern) ' ' text pattern).symm

theorem rustSpace_toLower (c : Char) : Text.rustSpace c.toLower = Text.rustSpace c := by
  rcases Text.toLower_cases c with h | ⟨hlow, hhigh, h⟩
  · rw [h]
  · rw [Bool.eq_iff_iff]
    simp only [Text.rustSpace, Text.commonSpace, h, Bool.or_eq_true, Bool.and_eq_true, decide_eq_true_eq, beq_iff_eq]
    omega

theorem normalized_eq (command : String) : normalized command = (compactText command.toList).map Char.toLower := by
  have hspace : ∀ x ∈ compactText command.toList, Text.rustSpace x.toLower = Text.rustSpace x := fun x _ =>
    rustSpace_toLower x
  have hmap : compactText ((compactText command.toList).map Char.toLower) =
      (compactText (compactText command.toList)).map Char.toLower := collapse_map ' ' hspace
  show compactText ((compactText command.toList).map Char.toLower) = _
  rw [hmap]
  exact congrArg (List.map Char.toLower) (collapse_collapse (by decide) command.toList)

theorem hardBlockedCommand_iff (command : String) : hardBlockedCommand command = true ↔
    ∃ pattern ∈ hardBlockedCommandPatterns,
      found (rootScoped pattern.toList) ' ' (normalized command) pattern.toList = true := by
  rw [hardBlockedCommand]
  split
  · rename_i hempty
    rw [normalized_eq, hempty]
    exact iff_of_false Bool.false_ne_true (by decide)
  · rw [List.any_eq_true]
    simp only [patternBlocks_eq]

theorem words_ne_nil {command : String} (h : hardBlockedCommand command = true) :
    words Text.rustSpace command.toList ≠ [] := by
  intro hnone
  have hempty : compactText command.toList = [] := collapse_eq_nil hnone
  simp [hardBlockedCommand, hempty] at h

/-- Two commands with a space between them. -/
theorem normalized_append {first second : String} (hfirst : words Text.rustSpace first.toList ≠ [])
    (hsecond : words Text.rustSpace second.toList ≠ []) :
    normalized (first ++ " " ++ second) = normalized first ++ ' ' :: normalized second := by
  have htext : (first ++ " " ++ second).toList = first.toList ++ ' ' :: second.toList := by
    rw [String.toList_append, String.toList_append, List.append_assoc]
    rfl
  rw [normalized_eq, normalized_eq, normalized_eq, htext, compactText,
    collapse_append_cons ' ' (by decide) hfirst hsecond, List.map_append, List.map_cons]
  rfl

/-- The words that join two commands, to which no capital letter and no white space belongs. -/
theorem suffix_normalized {text joint : String} (hjoint : (joint.toList.all fun c => !Text.rustSpace c) = true)
    (hlower : joint.toList.map Char.toLower = joint.toList) (hne : joint.toList ≠ []) :
    words Text.rustSpace (text ++ joint).toList ≠ [] ∧ joint.toList <:+ normalized (text ++ joint) := by
  have hspace : ∀ c ∈ joint.toList, Text.rustSpace c = false := fun c hc => by
    simpa using List.all_eq_true.mp hjoint c hc
  rw [normalized_eq, String.toList_append]
  constructor
  · obtain ⟨ws, w, hwords⟩ := words_append hspace hne text.toList
    simp [hwords]
  · have hsuffix : joint.toList <:+ compactText (text.toList ++ joint.toList) := suffix_collapse hspace hne text.toList
    have hmap : joint.toList.map Char.toLower <:+ (compactText (text.toList ++ joint.toList)).map Char.toLower :=
      hsuffix.map Char.toLower
    rwa [hlower] at hmap

/-- Of the patterns that occur in the first command, one that blocks by its first occurrence there; or one that blocks
    the second command and does not occur in the first. -/
def Leads (first second : String) : Prop :=
  ∃ pattern ∈ hardBlockedCommandPatterns,
    found (rootScoped pattern.toList) ' ' (normalized first) pattern.toList = true ∨
      occurs pattern.toList (normalized first) = false ∧
        found (rootScoped pattern.toList) ' ' (normalized second) pattern.toList = true

/-- A joint within which, up to a space, no pattern begins. -/
theorem hardBlockedCommand_append {text joint second : String}
    (hjoint : (joint.toList.all fun c => !Text.rustSpace c) = true) (hlower : joint.toList.map Char.toLower = joint.toList)
    (hne : joint.toList ≠ [])
    (hapart : ∀ pattern ∈ hardBlockedCommandPatterns, Apart joint.toList ' ' pattern.toList)
    (h : hardBlockedCommand second = true) :
    hardBlockedCommand (text ++ joint ++ " " ++ second) = true ↔ Leads (text ++ joint) second := by
  obtain ⟨hwords, hends⟩ := @suffix_normalized text joint hjoint hlower hne
  rw [hardBlockedCommand_iff, normalized_append hwords (words_ne_nil h), Leads]
  refine exists_congr fun pattern => and_congr_right fun hmem => ?_
  rw [found_append_cons _ (hapart pattern hmem) hends]
  simp

theorem apart_semicolon : ∀ pattern ∈ hardBlockedCommandPatterns, Apart ";".toList ' ' pattern.toList := by decide

theorem apart_ampersands : ∀ pattern ∈ hardBlockedCommandPatterns, Apart "&&".toList ' ' pattern.toList := by decide

/-- A blocked command stays blocked after another just when the other leads to it. -/
theorem hardBlockedCommand_sequence_iff {second : String} (h : hardBlockedCommand second = true) (first : String) :
    (hardBlockedCommand (first ++ "; " ++ second) = true ↔ Leads (first ++ ";") second) ∧
      (hardBlockedCommand (first ++ " && " ++ second) = true ↔ Leads (first ++ " &&") second) := by
  have hsemicolon : first ++ "; " ++ second = first ++ ";" ++ " " ++ second := by
    rw [show "; " = ";" ++ " " by decide, ← String.append_assoc]
  have hampersands : first ++ " && " ++ second = first ++ " " ++ "&&" ++ " " ++ second := by
    rw [show " && " = " " ++ "&&" ++ " " by decide, ← String.append_assoc, ← String.append_assoc]
  have hjoint : first ++ " &&" = first ++ " " ++ "&&" := by
    rw [show " &&" = " " ++ "&&" by decide, ← String.append_assoc]
  rw [hsemicolon, hampersands, hjoint]
  exact ⟨hardBlockedCommand_append (by decide) (by decide) (by decide) apart_semicolon h,
    hardBlockedCommand_append (by decide) (by decide) (by decide) apart_ampersands h⟩

end Empyralis.Kernel.HardBlock
