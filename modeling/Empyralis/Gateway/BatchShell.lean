import Empyralis.Lib.Text
import Empyralis.Lib.Traced
import Mathlib.Data.List.Forall2
import Mathlib.Logic.Function.Basic

/-! A batch of shell commands: the driver script, what a run of it leaves on the disk, and what is read back of that.

    A command leaves the driver's variables and the files of the batch alone. It finishes with a code, it calls `exit`,
    or it runs on until the timeout of the batch kills the driver. -/

namespace Empyralis.Gateway.BatchShell

open Lib (Traced)

/-- A command of a batch. -/
structure BatchCommandSpec where
  index : Nat
  command : String
  timeoutSeconds : Nat

/-! ### The script -/

/-- A file in the directory of the batch. -/
inductive File where
  | cmd (index : Nat)
  | status (index : Nat)
  | out (index : Nat)
  | err (index : Nat)
  | code (index : Nat)
  deriving DecidableEq

def File.index : File → Nat
  | .cmd i | .status i | .out i | .err i | .code i => i

/-- The name of a file in the directory of the batch. -/
def File.name : File → String
  | .cmd i => "cmd_" ++ toString i ++ ".sh"
  | .status i => "status_" ++ toString i
  | .out i => "out_" ++ toString i
  | .err i => "err_" ++ toString i
  | .code i => "code_" ++ toString i

/-- A line of the driver. -/
inductive Stmt where
  | echo (word : String) (file : File)
  | source (index : Nat)
  | saveCode
  | echoCode (file : File)
  | stopIfFailed

/-- `if [ "$STOP" = "0" ]; then` the one `else` the other `fi` -/
structure Block where
  run : List Stmt
  skip : List Stmt

/-- The lines of one command: those that run it, and the one that skips it. -/
def block (stopOnFailure : Bool) (spec : BatchCommandSpec) : Block where
  run :=
    [.echo "started" (.status spec.index), .source spec.index, .saveCode, .echoCode (.code spec.index),
      .echo "done" (.status spec.index)] ++ if stopOnFailure then [.stopIfFailed] else []
  skip := [.echo "skipped" (.status spec.index)]

/-- A text in single quotes. -/
def shQuote (value : String) : String :=
  "'" ++ String.ofList (value.toList.flatMap fun c => if c = '\'' then "'\\''".toList else [c]) ++ "'"

/-- A line as the script has it. -/
def Stmt.line (dir : String) : Stmt → String
  | .echo word file => "echo " ++ word ++ " > " ++ quoted file
  | .source i => "\x7b . " ++ quoted (.cmd i) ++ "; \x7d > " ++ quoted (.out i) ++ " 2> " ++ quoted (.err i)
  | .saveCode => "code=$?"
  | .echoCode file => "echo \"$code\" > " ++ quoted file
  | .stopIfFailed => "if [ \"$code\" != \"0\" ]; then STOP=1; fi"
where
  quoted (file : File) : String := shQuote (dir ++ "/" ++ file.name)

def Block.lines (dir : String) (b : Block) : List String :=
  ["if [ \"$STOP\" = \"0\" ]; then"] ++ b.run.map (fun stmt => "  " ++ stmt.line dir) ++ ["else"] ++
    b.skip.map (fun stmt => "  " ++ stmt.line dir) ++ ["fi"]

/-- `buildBatchDriverScript`: the text of the script whose blocks are run below. -/
def buildBatchDriverScript (specs : List BatchCommandSpec) (stopOnFailure : Bool) (dir : String) : String :=
  "\n".intercalate (["#!/bin/sh", "set +e", "mkdir -p " ++ shQuote dir, "STOP=0"] ++
    specs.flatMap fun spec => (block stopOnFailure spec).lines dir) ++ "\n"

/-! ### A run of it -/

/-- The two outputs of a command. -/
inductive Stream where
  | stdout | stderr

def Stream.file (i : Nat) : Stream → File
  | .stdout => .out i
  | .stderr => .err i

/-- How a command ends: with a code, with the shell that it runs in, or not before the timeout. -/
inductive Ending where
  | code (n : Nat)
  | exit
  | overrun
  deriving DecidableEq

/-- What a command does when it is run: what it writes, in order, and how it ends. -/
structure Behaviour where
  output : List (Stream × String)
  ending : Ending

/-- A write to one of the files. -/
inductive Write where
  | truncate (file : File)
  | append (file : File) (text : String)

def Write.file : Write → File
  | .truncate file | .append file _ => file

/-- The files of the directory; one that is not there has no text. -/
abbrev Disk := File → Option String

/-- The disk after a write. -/
def Write.apply (disk : Disk) : Write → Disk
  | .truncate file => Function.update disk file (some "")
  | .append file text => Function.update disk file (some ((disk file).getD "" ++ text))

/-- The files after some writes. -/
def Disk.after (disk : Disk) (writes : List Write) : Disk := writes.foldl Write.apply disk

/-- The variables: `STOP`, `$?` and `code`. -/
structure Shell where
  stop : Bool
  last : Nat
  code : Nat

/-- How a script ends before its last line. -/
inductive Stop where
  | exited | killed
  deriving DecidableEq

/-- What a part of the driver does: its writes, and the shell after it unless it has ended. -/
abbrev Run := Traced Write Stop Shell

/-- A redirection that writes one text. -/
def redirect (file : File) (text : String) (s : Shell) : Run := ⟨[.truncate file, .append file text], .ok s⟩

/-- The shell after a command, unless the command ends the driver. -/
def Ending.result (s : Shell) : Ending → Except Stop Shell
  | .code n => .ok { s with last := n }
  | .exit => .error .exited
  | .overrun => .error .killed

/-- The writes of a command, whose output goes to its files. -/
def sourced (i : Nat) (b : Behaviour) : List Write :=
  [.truncate (.out i), .truncate (.err i)] ++ b.output.map fun piece => .append (piece.1.file i) piece.2

variable (behaviour : Nat → Behaviour)

/-- What a statement writes, and the shell after it. -/
def Stmt.exec (s : Shell) : Stmt → Run
  | .echo word file => redirect file (word ++ "\n") { s with last := 0 }
  | .source i => ⟨sourced i (behaviour i), (behaviour i).ending.result s⟩
  | .saveCode => ⟨[], .ok { s with code := s.last, last := 0 }⟩
  | .echoCode file => redirect file (toString s.code ++ "\n") { s with last := 0 }
  | .stopIfFailed => ⟨[], .ok { s with stop := s.stop || s.code ≠ 0, last := 0 }⟩

/-- One line after the other, until one ends the driver. -/
def runLines : List Stmt → Shell → Run
  | [], s => pure s
  | stmt :: rest, s => stmt.exec behaviour s >>= runLines rest

/-- A block runs its command, or skips it once the script has stopped. -/
def Block.exec (b : Block) (s : Shell) : Run := runLines behaviour (if s.stop then b.skip else b.run) s

/-- The blocks one after the other. -/
def runBlocks : List Block → Shell → Run
  | [], s => pure s
  | b :: rest, s => b.exec behaviour s >>= runBlocks rest

/-- The run of the whole script. -/
def runDriver (specs : List BatchCommandSpec) (stopOnFailure : Bool) : Run :=
  runBlocks behaviour (specs.map (block stopOnFailure)) ⟨false, 0, 0⟩

/-! ### What is read back -/

/-- What the status file of a command says. -/
inductive Marker where
  | absent | started | done | skipped
  deriving DecidableEq

/-- What is read of the files of a command. -/
structure RawCommandFileState where
  status : Marker
  exitCode : Option Int
  stdout : String
  stderr : String

/-- The status in a text; any other text is none. -/
def normalizedStatus (status : String) : Marker :=
  if status = "started" then .started
  else if status = "done" then .done
  else if status = "skipped" then .skipped
  else .absent

/-- The number of a text that is `-?\d+`. -/
def readCode (text : String) : Option Int :=
  let (sign, digits) : Int × List Char := match text.toList with
    | '-' :: rest => (-1, rest)
    | cs => (1, cs)
  if digits ≠ [] ∧ digits.all Char.isDigit then some (sign * (Nat.ofDigitChars 10 digits 0 : Nat)) else none

/-- The text of a file, and none of one that is not there. -/
def readIfPresent (disk : Disk) (file : File) : String := Text.trim Text.jsSpace ((disk file).getD "")

/-- What the files of a command say. -/
def readState (disk : Disk) (i : Nat) : RawCommandFileState where
  status := normalizedStatus (readIfPresent disk (.status i))
  exitCode := readCode (readIfPresent disk (.code i))
  stdout := readIfPresent disk (.out i)
  stderr := readIfPresent disk (.err i)

/-- Only the commands of the batch are read. -/
def readBatchFileStates (disk : Disk) (specs : List BatchCommandSpec) (i : Nat) : Option RawCommandFileState :=
  if i ∈ specs.map (·.index) then some (readState disk i) else none

/-! ### What is reported -/

/-- Where a batch runs. -/
inductive Isolation where
  | sandbox | host
  deriving DecidableEq

/-- Why a command was killed. -/
inductive KillReason where
  | memoryLimitExceeded | killedByTheSystem
  deriving DecidableEq

/-- What is said of a command that was killed. -/
structure KillDiagnosis where
  reason : KillReason
  statement : String
  memoryLimitMb : Option Nat

/-- `128 + 9` -/
def sigkillExitCode : Int := 137

def chunkingAdvice : String :=
  "Working through the file in pieces, or querying it where it sits instead of loading all of it at once, needs far " ++
    "less memory."

/-- `diagnoseKill` of a code, without a signal: the driver sees none. -/
def diagnoseKill (exitCode : Option Int) (timedOut : Bool) (isolation : Isolation) (memoryLimitMb : Option Nat) :
    Option KillDiagnosis :=
  if timedOut then none
  else if exitCode ≠ some sigkillExitCode then none
  else
    match isolation, memoryLimitMb.filter (0 < ·) with
    | .sandbox, some limit => some
      { reason := .memoryLimitExceeded
        memoryLimitMb := some limit
        statement := "This command was stopped before it finished because it needed more memory than it is allowed " ++
          "here — the limit is " ++ toString limit ++ " MB. Anything it printed before stopping is real; the rest " ++
          "never ran. " ++ chunkingAdvice }
    | _, _ => some
      { reason := .killedByTheSystem
        memoryLimitMb := none
        statement := "This command was stopped by the computer before it finished, and it did not get the chance to " ++
          "say why. Anything it printed before stopping is real; the rest never ran. The usual cause is needing " ++
          "more memory than was free. " ++ chunkingAdvice }

/-- What a command is reported as. -/
inductive BatchCommandStatus where
  | success | failed | killed | skipped | timedOut | notRun
  deriving DecidableEq

/-- What is reported of a command. -/
structure BatchCommandResult where
  index : Nat
  command : String
  status : BatchCommandStatus
  ran : Bool
  exitCode : Option Int
  stdout : String
  stderr : String
  reason : Option String

/-- What is known of a batch besides its files. -/
structure Options where
  batchTimedOut : Bool
  isolation : Option Isolation
  memoryLimitMb : Option Nat

/-- The result of a command, by its status. -/
def interpretCommand (opts : Options) (spec : BatchCommandSpec) (state : RawCommandFileState) : BatchCommandResult :=
  match state.status with
  | .done =>
    let killed := diagnoseKill state.exitCode false (opts.isolation.getD .host) opts.memoryLimitMb
    { index := spec.index, command := spec.command
      status := if killed.isSome then .killed else if state.exitCode = some 0 then .success else .failed
      ran := true, exitCode := state.exitCode, stdout := state.stdout, stderr := state.stderr
      reason := killed.map (·.statement) }
  | .skipped =>
    { index := spec.index, command := spec.command, status := .skipped, ran := false, exitCode := none
      stdout := "", stderr := ""
      reason := some "not run: an earlier command in this batch failed and stop_on_failure was set (default)." }
  | .started =>
    { index := spec.index, command := spec.command, status := .timedOut, ran := true, exitCode := none
      stdout := state.stdout, stderr := state.stderr
      reason := some ("this command started but the batch's shared time budget ran out before it finished — its " ++
        "exit code is unknown; any stdout/stderr shown is whatever it had written before the batch was stopped.") }
  | .absent =>
    { index := spec.index, command := spec.command, status := .notRun, ran := false, exitCode := none
      stdout := "", stderr := ""
      reason := some (if opts.batchTimedOut
        then "not run: the batch's shared time budget ran out before this command could start."
        else "not run: the batch ended (an earlier command's own `exit`, or a batch-level failure) before this " ++
          "command could start.") }

/-- The results, and whether the batch stopped early. -/
def interpretBatchResults (specs : List BatchCommandSpec) (states : Nat → Option RawCommandFileState) (opts : Options) :
    List BatchCommandResult × Bool :=
  let state (spec : BatchCommandSpec) : RawCommandFileState := (states spec.index).getD ⟨.absent, none, "", ""⟩
  (specs.map fun spec => interpretCommand opts spec (state spec), specs.any fun spec => (state spec).status ≠ .done)

/-- A batch: the driver runs on an empty directory, and what it leaves there is read back. -/
def runBatch (specs : List BatchCommandSpec) (stopOnFailure : Bool) (isolation : Option Isolation)
    (memoryLimitMb : Option Nat) : List BatchCommandResult × Bool :=
  let run := runDriver behaviour specs stopOnFailure
  let killed := match run.result with
    | .error .killed => true
    | _ => false
  interpretBatchResults specs (readBatchFileStates (Disk.after (fun _ => none) run.events) specs)
    ⟨killed, isolation, memoryLimitMb⟩

/-! ### What happens to the commands -/

/-- What happens to a command: it finishes with a code, it ends the shell, the batch is killed while it runs, or it
    never starts, after a failure or because the driver is not there any more. -/
inductive Fate where
  | finished (n : Nat)
  | exited
  | overran
  | passedOver
  | notReached
  deriving DecidableEq

/-- The commands with their fates, in a batch that has or has not met a failure to stop at. -/
def fates (stopOnFailure : Bool) : Bool → List BatchCommandSpec → List (BatchCommandSpec × Fate)
  | _, [] => []
  | true, spec :: rest => (spec, .passedOver) :: fates stopOnFailure true rest
  | false, spec :: rest =>
    match (behaviour spec.index).ending with
    | .code n => (spec, .finished n) :: fates stopOnFailure (stopOnFailure && n ≠ 0) rest
    | .exit => (spec, .exited) :: rest.map (·, .notReached)
    | .overrun => (spec, .overran) :: rest.map (·, .notReached)

/-- The result of a command tells its fate. Of one that ends the shell it is not said whether it timed out. -/
structure Reported (command : BatchCommandSpec × Fate) (r : BatchCommandResult) : Prop where
  named : r.index = command.1.index ∧ r.command = command.1.command
  finished : ∀ n, command.2 = .finished n → r.ran = true ∧ r.exitCode = some (n : Int) ∧
    r.status = if n = 137 then .killed else if n = 0 then .success else .failed
  ended : r.status = .success ∨ r.status = .failed ∨ r.status = .killed → ∃ n, command.2 = .finished n
  passedOver : r.status = .skipped ↔ command.2 = .passedOver
  notReached : r.status = .notRun ↔ command.2 = .notReached
  timedOut : command.2 ≠ .exited → (r.status = .timedOut ↔ command.2 = .overran)

variable {behaviour}

/-! ### Writes -/

theorem Disk.after_append (disk : Disk) (ws vs : List Write) : disk.after (ws ++ vs) = (disk.after ws).after vs :=
  List.foldl_append

theorem Write.apply_other (disk : Disk) {w : Write} {file : File} (h : w.file ≠ file) :
    w.apply disk file = disk file := by
  cases w with
  | truncate f => exact Function.update_of_ne (Ne.symm h) _ _
  | append f text => exact Function.update_of_ne (Ne.symm h) _ _

/-- What is not written stays. -/
theorem Disk.after_other {file : File} {ws : List Write} (h : ∀ w ∈ ws, w.file ≠ file) (disk : Disk) :
    disk.after ws file = disk file := by
  induction ws generalizing disk with
  | nil => rfl
  | cons w ws ih =>
    rw [Disk.after, List.foldl_cons]
    refine (ih (fun v hv => h v (List.mem_cons_of_mem w hv)) _).trans ?_
    exact Write.apply_other disk (h w List.mem_cons_self)

theorem Disk.after_redirect (disk : Disk) (file : File) (text : String) (s : Shell) :
    disk.after (redirect file text s).events = Function.update disk file (some text) := by
  show Function.update (Function.update disk file (some "")) file
    (some ((Function.update disk file (some "") file).getD "" ++ text)) = _
  rw [Function.update_idem, Function.update_self, Option.getD_some, String.empty_append]

theorem sourced_file {i : Nat} {b : Behaviour} {w : Write} (hw : w ∈ sourced i b) :
    w.file = .out i ∨ w.file = .err i := by
  rcases List.mem_append.mp hw with hw | hw
  · rcases List.mem_pair.mp hw with rfl | rfl
    · exact .inl rfl
    · exact .inr rfl
  · obtain ⟨⟨stream, text⟩, -, rfl⟩ := List.mem_map.mp hw
    cases stream with
    | stdout => exact .inl rfl
    | stderr => exact .inr rfl

/-! ### One block -/

section
variable {stopOnFailure : Bool} {spec : BatchCommandSpec} {s : Shell}

theorem bind_ok {events : List Write} {a : Shell} (f : Shell → Run) :
    ((⟨events, .ok a⟩ : Run) >>= f) = ⟨events ++ (f a).events, (f a).result⟩ := rfl

theorem bind_error {events : List Write} {stop : Stop} (f : Shell → Run) :
    ((⟨events, .error stop⟩ : Run) >>= f) = ⟨events, .error stop⟩ := rfl

theorem exec_skip (hstop : s.stop = true) : (block stopOnFailure spec).exec behaviour s =
    redirect (.status spec.index) "skipped\n" { s with last := 0 } := by
  rw [Block.exec, if_pos hstop]
  rfl

/-- The mark of a command that starts, and what it writes. -/
def startedWrites (i : Nat) (b : Behaviour) (s : Shell) : List Write :=
  (redirect (.status i) "started\n" s).events ++ sourced i b

theorem exec_code {n : Nat} (hstop : s.stop = false) (hending : (behaviour spec.index).ending = .code n) :
    (block stopOnFailure spec).exec behaviour s =
      ⟨startedWrites spec.index (behaviour spec.index) s ++
          (redirect (.code spec.index) (toString n ++ "\n") s).events ++
          (redirect (.status spec.index) "done\n" s).events,
        .ok ⟨stopOnFailure && n ≠ 0, 0, n⟩⟩ := by
  rw [Block.exec, if_neg (by simp [hstop])]
  cases stopOnFailure with
  | false => simp [block, runLines, Stmt.exec, redirect, hending, Ending.result, startedWrites, hstop, bind,
    Traced.bind, pure]
  | true => simp [block, runLines, Stmt.exec, redirect, hending, Ending.result, startedWrites, hstop, bind,
    Traced.bind, pure]

theorem exec_ends {stop : Stop} (hstop : s.stop = false)
    (hending : ∀ t : Shell, (behaviour spec.index).ending.result t = .error stop) :
    (block stopOnFailure spec).exec behaviour s =
      ⟨startedWrites spec.index (behaviour spec.index) s, .error stop⟩ := by
  rw [Block.exec, if_neg (by simp [hstop])]
  simp [block, runLines, Stmt.exec, redirect, hending, startedWrites, bind, Traced.bind]

/-- A block writes files of its command only. -/
theorem exec_index : Traced.Only (fun w : Write => w.file.index = spec.index)
    ((block stopOnFailure spec).exec behaviour s) := by
  have hredirect : ∀ (file : File) (text : String) (t : Shell), file.index = spec.index →
      ∀ w ∈ (redirect file text t).events, w.file.index = spec.index := by
    intro file text t hfile w hw
    rcases List.mem_pair.mp hw with rfl | rfl
    · exact hfile
    · exact hfile
  have hstarted : ∀ w ∈ startedWrites spec.index (behaviour spec.index) s, w.file.index = spec.index := by
    intro w hw
    rcases List.mem_append.mp hw with hw | hw
    · exact hredirect (.status spec.index) _ _ rfl w hw
    · rcases sourced_file hw with hfile | hfile
      · rw [hfile, File.index]
      · rw [hfile, File.index]
  cases hstop : s.stop with
  | true =>
    rw [exec_skip hstop]
    exact hredirect (.status spec.index) _ _ rfl
  | false =>
    cases hending : (behaviour spec.index).ending with
    | code n =>
      rw [exec_code hstop hending]
      intro w hw
      rcases List.mem_append.mp hw with hw | hw
      · rcases List.mem_append.mp hw with hw | hw
        · exact hstarted w hw
        · exact hredirect (.code spec.index) _ _ rfl w hw
      · exact hredirect (.status spec.index) _ _ rfl w hw
    | exit =>
      rw [exec_ends hstop fun t => congrArg (Ending.result t) hending]
      exact hstarted
    | overrun =>
      rw [exec_ends hstop fun t => congrArg (Ending.result t) hending]
      exact hstarted

end

/-! ### The marks of a command -/

/-- What the files of a command say of its fate. -/
def Left : Fate → RawCommandFileState → Prop
  | .finished n, state => state.status = .done ∧ state.exitCode = some (n : Int)
  | .exited, state | .overran, state => state.status = .started
  | .passedOver, state => state.status = .skipped
  | .notReached, state => state.status = .absent

section
variable {disk : Disk} {i : Nat}

theorem status_of_text {text : String} (hfile : disk (.status i) = some text) :
    (readState disk i).status = normalizedStatus (Text.trim Text.jsSpace text) := by
  rw [readState, readIfPresent, hfile, Option.getD_some]

theorem exitCode_of_text {text : String} (hfile : disk (.code i) = some text) :
    (readState disk i).exitCode = readCode (Text.trim Text.jsSpace text) := by
  rw [readState, readIfPresent, readIfPresent, hfile, Option.getD_some]

theorem normalizedStatus_marks : normalizedStatus (Text.trim Text.jsSpace "started\n") = .started ∧
    normalizedStatus (Text.trim Text.jsSpace "done\n") = .done ∧
    normalizedStatus (Text.trim Text.jsSpace "skipped\n") = .skipped := by
  decide

/-- A code that the script has written is read back. -/
theorem readCode_toString (n : Nat) : readCode (Text.trim Text.jsSpace (toString n ++ "\n")) = some (n : Int) := by
  have hdigit : ∀ c ∈ (toString n).toList, c.isDigit = true := by
    intro c hc
    rw [Nat.toString_eq_repr, Nat.toList_repr] at hc
    exact Nat.isDigit_of_mem_toDigits (by decide) (by decide) hc
  have hspace : ∀ c ∈ (toString n).toList, Text.jsSpace c = false := by
    intro c hc
    have hbounds := hdigit c hc
    rw [Char.isDigit, Bool.and_eq_true, decide_eq_true_eq, decide_eq_true_eq, ge_iff_le, UInt32.le_iff_toNat_le,
      UInt32.le_iff_toNat_le] at hbounds
    have hlow : 48 ≤ c.toNat := hbounds.1
    have hhigh : c.toNat ≤ 57 := hbounds.2
    simp [Text.jsSpace, Text.commonSpace]
    omega
  have hline : ∀ c ∈ "\n".toList, Text.jsSpace c = true := by
    intro c hc
    rw [List.mem_singleton.mp hc]
    rfl
  have htrim : Text.trim Text.jsSpace (toString n ++ "\n") = toString n := Text.trim_append_space hspace hline
  have hlist : (toString n).toList = Nat.toDigits 10 n := by
    rw [Nat.toString_eq_repr, Nat.toList_repr]
  rw [htrim, readCode, hlist]
  rw [hlist] at hdigit
  split
  rename_i sign digits heq
  have hread : sign = 1 ∧ digits = Nat.toDigits 10 n := by
    split at heq
    · rename_i rest hminus
      exact absurd (hdigit '-' (by simp [hminus])) (by decide)
    · obtain ⟨rfl, rfl⟩ := Prod.mk.inj heq
      exact ⟨rfl, rfl⟩
  obtain ⟨rfl, rfl⟩ := hread
  rw [if_pos ⟨Nat.toDigits_ne_nil, List.all_eq_true.mpr hdigit⟩, Nat.ofDigitChars_ten_toDigits, Int.one_mul]

theorem readState_other {ws : List Write} (h : ∀ w ∈ ws, w.file.index ≠ i) :
    readState (disk.after ws) i = readState disk i := by
  have hfile : ∀ file : File, file.index = i → disk.after ws file = disk file := by
    intro file hfile
    refine Disk.after_other (fun w hw heq => h w hw ?_) disk
    rw [heq, hfile]
  simp only [readState, readIfPresent, hfile (.status i) rfl, hfile (.code i) rfl, hfile (.out i) rfl,
    hfile (.err i) rfl]

end

section
variable {disk : Disk} (b : Behaviour) (i : Nat) (s : Shell)

theorem left_skip : Left .passedOver (readState (disk.after (redirect (.status i) "skipped\n" s).events) i) := by
  rw [Disk.after_redirect]
  exact (status_of_text (Function.update_self _ _ _)).trans normalizedStatus_marks.2.2

theorem left_started {fate : Fate} (hfate : fate = .exited ∨ fate = .overran) :
    Left fate (readState (disk.after (startedWrites i b s)) i) := by
  have hfile : disk.after (startedWrites i b s) (.status i) = some "started\n" := by
    rw [startedWrites, Disk.after_append, Disk.after_redirect, Disk.after_other, Function.update_self]
    intro w hw
    rcases sourced_file hw with hfile | hfile
    · rw [hfile]
      exact File.noConfusion
    · rw [hfile]
      exact File.noConfusion
  rcases hfate with rfl | rfl
  · exact (status_of_text hfile).trans normalizedStatus_marks.1
  · exact (status_of_text hfile).trans normalizedStatus_marks.1

theorem left_done (n : Nat) : Left (.finished n) (readState (disk.after (startedWrites i b s ++
    (redirect (.code i) (toString n ++ "\n") s).events ++ (redirect (.status i) "done\n" s).events)) i) := by
  rw [Disk.after_append, Disk.after_append, Disk.after_redirect, Disk.after_redirect]
  constructor
  · exact (status_of_text (Function.update_self _ _ _)).trans normalizedStatus_marks.2.1
  · have hcode : File.code i ≠ .status i := File.noConfusion
    refine (exitCode_of_text ?_).trans (readCode_toString n)
    rw [Function.update_of_ne hcode, Function.update_self]

end

/-! ### A whole run -/

section
variable {stopOnFailure : Bool}

theorem runBlocks_cons (spec : BatchCommandSpec) (specs : List BatchCommandSpec) (s : Shell) :
    runBlocks behaviour ((spec :: specs).map (block stopOnFailure)) s =
      (block stopOnFailure spec).exec behaviour s >>= runBlocks behaviour (specs.map (block stopOnFailure)) := rfl

/-- The commands of a run that are not there any more have no mark. -/
theorem left_notReached {specs : List BatchCommandSpec} {disk : Disk}
    (h : ∀ spec ∈ specs, disk (.status spec.index) = none) :
    ∀ p ∈ specs.map (·, Fate.notReached), Left p.2 (readState disk p.1.index) := by
  intro p hp
  obtain ⟨spec, hspec, rfl⟩ := List.mem_map.mp hp
  have hempty : normalizedStatus (Text.trim Text.jsSpace "") = .absent := by
    decide
  show (readState disk spec.index).status = .absent
  rw [readState, readIfPresent, h spec hspec, Option.getD_none, hempty]

theorem runBlocks_index (specs : List BatchCommandSpec) (s : Shell) :
    Traced.Only (fun w : Write => w.file.index ∈ specs.map (·.index))
      (runBlocks behaviour (specs.map (block stopOnFailure)) s) := by
  induction specs generalizing s with
  | nil => exact Traced.only_pure s
  | cons spec specs ih =>
    rw [runBlocks_cons]
    refine Traced.Only.bind ?_ fun t => ?_
    · intro w hw
      rw [exec_index w hw]
      exact List.mem_cons_self
    · intro w hw
      exact List.mem_cons_of_mem _ (ih t w hw)

section
variable {spec : BatchCommandSpec} {specs : List BatchCommandSpec} {s t : Shell} {disk : Disk} {ws : List Write}
  {fate : Fate}

/-- The files of the other commands are as before after the block of the first. -/
theorem status_of_others {result : Except Stop Shell}
    (hexec : (block stopOnFailure spec).exec behaviour s = ⟨ws, result⟩)
    (hindices : ((spec :: specs).map (·.index)).Nodup)
    (hempty : ∀ other ∈ spec :: specs, disk (.status other.index) = none) :
    ∀ other ∈ specs, disk.after ws (.status other.index) = none := by
  intro other hother
  rw [Disk.after_other, hempty other (List.mem_cons_of_mem spec hother)]
  intro w hw heq
  have hindex : other.index = spec.index := by
    have hmem : w ∈ ((block stopOnFailure spec).exec behaviour s).events := by
      rw [hexec]
      exact hw
    rw [← exec_index w hmem, heq, File.index]
  have hmem : other.index ∈ specs.map (·.index) := List.mem_map_of_mem hother
  rw [hindex] at hmem
  exact (List.nodup_cons.mp hindices).1 hmem

/-- The files of the first command stay as they are in the blocks of the others. -/
theorem readState_of_first (hindices : ((spec :: specs).map (·.index)).Nodup) :
    readState (disk.after (runBlocks behaviour (specs.map (block stopOnFailure)) s).events) spec.index =
      readState disk spec.index := by
  refine readState_other fun w hw heq => (List.nodup_cons.mp hindices).1 ?_
  have hmem : w.file.index ∈ specs.map (·.index) := runBlocks_index specs s w hw
  rw [heq] at hmem
  exact hmem

theorem left_cons {ps : List (BatchCommandSpec × Fate)} (hindices : ((spec :: specs).map (·.index)).Nodup)
    (hexec : (block stopOnFailure spec).exec behaviour s = ⟨ws, .ok t⟩)
    (hleft : Left fate (readState (disk.after ws) spec.index))
    (hlater : ∀ p ∈ ps, Left p.2 (readState
      ((disk.after ws).after (runBlocks behaviour (specs.map (block stopOnFailure)) t).events) p.1.index)) :
    ∀ p ∈ (spec, fate) :: ps, Left p.2 (readState
      (disk.after (runBlocks behaviour ((spec :: specs).map (block stopOnFailure)) s).events) p.1.index) := by
  intro p hp
  rw [runBlocks_cons, hexec, bind_ok, Disk.after_append]
  rcases List.mem_cons.mp hp with rfl | hp
  · rw [readState_of_first hindices]
    exact hleft
  · exact hlater p hp

theorem left_last {stop : Stop} (hexec : (block stopOnFailure spec).exec behaviour s = ⟨ws, .error stop⟩)
    (hleft : Left fate (readState (disk.after ws) spec.index))
    (hempty : ∀ other ∈ specs, disk.after ws (.status other.index) = none) :
    ∀ p ∈ (spec, fate) :: specs.map (·, .notReached), Left p.2 (readState
      (disk.after (runBlocks behaviour ((spec :: specs).map (block stopOnFailure)) s).events) p.1.index) := by
  intro p hp
  rw [runBlocks_cons, hexec, bind_error]
  rcases List.mem_cons.mp hp with rfl | hp
  · exact hleft
  · exact left_notReached hempty p hp

end

/-- Each command's files tell its fate. -/
theorem runBlocks_left {specs : List BatchCommandSpec} (hindices : (specs.map (·.index)).Nodup) (s : Shell)
    {disk : Disk} (hempty : ∀ spec ∈ specs, disk (.status spec.index) = none) :
    ∀ p ∈ fates behaviour stopOnFailure s.stop specs, Left p.2
      (readState (disk.after (runBlocks behaviour (specs.map (block stopOnFailure)) s).events) p.1.index) := by
  induction specs generalizing s disk with
  | nil =>
    intro p hp
    rw [fates] at hp
    cases hp
  | cons spec specs ih =>
    have hrest : (specs.map (·.index)).Nodup := (List.nodup_cons.mp hindices).2
    cases hstop : s.stop with
    | true =>
      rw [fates, ← hstop]
      have hexec : (block stopOnFailure spec).exec behaviour s =
          ⟨(redirect (.status spec.index) "skipped\n" s).events, .ok { s with last := 0 }⟩ := exec_skip hstop
      refine left_cons hindices hexec (left_skip spec.index s) ?_
      exact ih hrest { s with last := 0 } (status_of_others hexec hindices hempty)
    | false =>
      cases hending : (behaviour spec.index).ending with
      | code n =>
        rw [fates, hending]
        have hexec : (block stopOnFailure spec).exec behaviour s = _ := exec_code hstop hending
        refine left_cons hindices hexec (left_done _ _ _ n) ?_
        exact ih hrest ⟨stopOnFailure && n ≠ 0, 0, n⟩ (status_of_others hexec hindices hempty)
      | exit =>
        rw [fates, hending]
        have hexec : (block stopOnFailure spec).exec behaviour s = _ :=
          exec_ends hstop fun t => congrArg (Ending.result t) hending
        exact left_last hexec (left_started _ _ _ (.inl rfl)) (status_of_others hexec hindices hempty)
      | overrun =>
        rw [fates, hending]
        have hexec : (block stopOnFailure spec).exec behaviour s = _ :=
          exec_ends hstop fun t => congrArg (Ending.result t) hending
        exact left_last hexec (left_started _ _ _ (.inr rfl)) (status_of_others hexec hindices hempty)

end

/-! ### From the marks to the report -/

/-- Of the codes that a shell reports only 137 is taken for a kill. -/
theorem diagnoseKill_isSome {n : Nat} {isolation : Isolation} {limit : Option Nat} :
    (diagnoseKill (some (n : Int)) false isolation limit).isSome = true ↔ n = 137 := by
  unfold diagnoseKill
  rw [if_neg Bool.false_ne_true]
  by_cases hn : n = 137
  · refine iff_of_true ?_ hn
    have hcode : some (n : Int) = some sigkillExitCode := by
      rw [hn]
      rfl
    rw [if_neg fun hne => hne hcode]
    split
    · rfl
    · rfl
  · refine iff_of_false ?_ hn
    have hcode : some (n : Int) ≠ some sigkillExitCode := by
      rw [ne_eq, Option.some.injEq, sigkillExitCode]
      omega
    rw [if_pos hcode]
    exact Bool.false_ne_true

/-- A command that has finished is reported with its code. -/
theorem reported_of_done {opts : Options} {spec : BatchCommandSpec} {state : RawCommandFileState} {n : Nat}
    (hstatus : state.status = .done) (hcode : state.exitCode = some (n : Int)) :
    Reported (spec, .finished n) (interpretCommand opts spec state) := by
  have hresult : (interpretCommand opts spec state).status =
      if n = 137 then .killed else if n = 0 then .success else .failed := by
    rw [interpretCommand, hstatus]
    dsimp only
    rw [hcode, if_congr diagnoseKill_isSome rfl rfl]
    simp only [Option.some.injEq, Int.natCast_eq_zero]
  have hran : (interpretCommand opts spec state).ran = true ∧
      (interpretCommand opts spec state).exitCode = some (n : Int) := by
    rw [interpretCommand, hstatus]
    exact ⟨rfl, hcode⟩
  have hnamed : (interpretCommand opts spec state).index = spec.index ∧
      (interpretCommand opts spec state).command = spec.command := by
    rw [interpretCommand, hstatus]
    exact ⟨rfl, rfl⟩
  refine ⟨hnamed, ?_, fun _ => ⟨n, rfl⟩, ?_, ?_, fun _ => ?_⟩
  · intro m hm
    cases hm
    exact ⟨hran.1, hran.2, hresult⟩
  · rw [hresult]
    refine iff_of_false ?_ Fate.noConfusion
    split <;> [skip; split] <;> exact BatchCommandStatus.noConfusion
  · rw [hresult]
    refine iff_of_false ?_ Fate.noConfusion
    split <;> [skip; split] <;> exact BatchCommandStatus.noConfusion
  · rw [hresult]
    refine iff_of_false ?_ Fate.noConfusion
    split <;> [skip; split] <;> exact BatchCommandStatus.noConfusion

/-- A command that left no code is reported as its fate demands. -/
theorem reported_of_left {opts : Options} {spec : BatchCommandSpec} {fate : Fate} {state : RawCommandFileState}
    (h : Left fate state) : Reported (spec, fate) (interpretCommand opts spec state) := by
  cases fate with
  | finished n => exact reported_of_done h.1 h.2
  | exited =>
    have hstatus : state.status = .started := h
    rw [interpretCommand, hstatus]
    constructor <;> simp
  | overran =>
    have hstatus : state.status = .started := h
    rw [interpretCommand, hstatus]
    constructor <;> simp
  | passedOver =>
    have hstatus : state.status = .skipped := h
    rw [interpretCommand, hstatus]
    constructor <;> simp
  | notReached =>
    have hstatus : state.status = .absent := h
    rw [interpretCommand, hstatus]
    constructor <;> simp

section
variable {stopOnFailure : Bool}

theorem fates_fst (stopped : Bool) (specs : List BatchCommandSpec) :
    (fates behaviour stopOnFailure stopped specs).map Prod.fst = specs := by
  induction specs generalizing stopped with
  | nil => rw [fates, List.map_nil]
  | cons spec specs ih =>
    have hrest : (specs.map (·, Fate.notReached)).map Prod.fst = specs := by
      rw [List.map_map]
      exact List.map_id specs
    cases stopped with
    | true => rw [fates, List.map_cons, ih]
    | false =>
      rw [fates]
      cases (behaviour spec.index).ending with
      | code n => exact congrArg (spec :: ·) (ih _)
      | exit => exact congrArg (spec :: ·) hrest
      | overrun => exact congrArg (spec :: ·) hrest

/-- The driver is killed exactly where a command overruns. -/
theorem runBlocks_killed {specs : List BatchCommandSpec} (s : Shell) :
    (runBlocks behaviour (specs.map (block stopOnFailure)) s).result = .error .killed ↔
      ∃ p ∈ fates behaviour stopOnFailure s.stop specs, p.2 = .overran := by
  induction specs generalizing s with
  | nil =>
    rw [fates]
    exact iff_of_false (fun h => nomatch h) (by simp)
  | cons spec specs ih =>
    rw [runBlocks_cons]
    cases hstop : s.stop with
    | true =>
      rw [fates, exec_skip hstop, redirect, bind_ok, ih]
      simp [hstop]
    | false =>
      cases hending : (behaviour spec.index).ending with
      | code n =>
        rw [fates, hending, exec_code hstop hending, bind_ok, ih]
        simp
      | exit =>
        rw [fates, hending, exec_ends hstop fun t => congrArg (Ending.result t) hending, bind_error]
        simp
      | overrun =>
        rw [fates, hending, exec_ends hstop fun t => congrArg (Ending.result t) hending, bind_error]
        simp

end

section
variable {stopOnFailure : Bool} {specs : List BatchCommandSpec} {isolation : Option Isolation}
  {memoryLimitMb : Option Nat}

theorem readBatchFileStates_of_mem {disk : Disk} {spec : BatchCommandSpec} (h : spec ∈ specs) :
    readBatchFileStates disk specs spec.index = some (readState disk spec.index) :=
  if_pos (List.mem_map_of_mem h)

/-- A command is passed over only after a failure, in a batch that stops at one. -/
theorem fates_passedOver {stopped : Bool} {p : BatchCommandSpec × Fate} (hstopped : stopped = false)
    (hp : p ∈ fates behaviour stopOnFailure stopped specs) (hfate : p.2 = .passedOver) :
    stopOnFailure = true ∧
      ∃ q ∈ fates behaviour stopOnFailure stopped specs, ∃ n, n ≠ 0 ∧ q.2 = .finished n := by
  subst hstopped
  induction specs with
  | nil => cases hp
  | cons spec specs ih =>
    rw [fates] at hp ⊢
    cases hending : (behaviour spec.index).ending with
    | code n =>
      rw [hending] at hp
      rcases List.mem_cons.mp hp with rfl | hp
      · cases hfate
      · cases hstop : (stopOnFailure && decide (n ≠ 0)) with
        | true =>
          rw [Bool.and_eq_true, decide_eq_true_eq] at hstop
          exact ⟨hstop.1, _, List.mem_cons_self, n, hstop.2, rfl⟩
        | false =>
          rw [hstop] at hp
          obtain ⟨hon, q, hq, hfailed⟩ := ih hp
          rw [← hstop] at hq
          exact ⟨hon, q, List.mem_cons_of_mem _ hq, hfailed⟩
    | exit =>
      rw [hending] at hp
      rcases List.mem_cons.mp hp with rfl | hp
      · cases hfate
      · obtain ⟨other, -, rfl⟩ := List.mem_map.mp hp
        cases hfate
    | overrun =>
      rw [hending] at hp
      rcases List.mem_cons.mp hp with rfl | hp
      · cases hfate
      · obtain ⟨other, -, rfl⟩ := List.mem_map.mp hp
        cases hfate

theorem interpretBatchResults_forall {ps : List (BatchCommandSpec × Fate)} (hps : ps.map Prod.fst = specs)
    {disk : Disk} (hleft : ∀ p ∈ ps, Left p.2 (readState disk p.1.index)) (opts : Options) :
    List.Forall₂ Reported ps (interpretBatchResults specs (readBatchFileStates disk specs) opts).1 := by
  subst hps
  rw [interpretBatchResults, List.map_map, List.forall₂_map_right_iff, List.forall₂_same]
  intro p hp
  show Reported p (interpretCommand opts p.1 ((readBatchFileStates disk (ps.map Prod.fst) p.1.index).getD _))
  rw [readBatchFileStates_of_mem (List.mem_map_of_mem hp), Option.getD_some]
  exact reported_of_left (hleft p hp)

theorem runBatch_forall (hindices : (specs.map (·.index)).Nodup) :
    List.Forall₂ Reported (fates behaviour stopOnFailure false specs)
      (runBatch behaviour specs stopOnFailure isolation memoryLimitMb).1 := by
  have hleft : ∀ p ∈ fates behaviour stopOnFailure false specs, Left p.2
      (readState (Disk.after (fun _ => none) (runDriver behaviour specs stopOnFailure).events) p.1.index) :=
    runBlocks_left hindices ⟨false, 0, 0⟩ fun _ _ => rfl
  exact interpretBatchResults_forall (fates_fst false specs) hleft _

end

/-- Each result tells what happened to its command, and no command overruns but in a batch that is killed. -/
theorem runBatch_reported (behaviour : Nat → Behaviour) (specs : List BatchCommandSpec) (stopOnFailure : Bool)
    (isolation : Option Isolation) (memoryLimitMb : Option Nat) (hindices : (specs.map (·.index)).Nodup) :
    List.Forall₂ Reported (fates behaviour stopOnFailure false specs)
        (runBatch behaviour specs stopOnFailure isolation memoryLimitMb).1 ∧
      ((runDriver behaviour specs stopOnFailure).result = .error .killed ↔
        ∃ p ∈ fates behaviour stopOnFailure false specs, p.2 = .overran) ∧
      ∀ p ∈ fates behaviour stopOnFailure false specs, p.2 = .passedOver → stopOnFailure = true ∧
        ∃ q ∈ fates behaviour stopOnFailure false specs, ∃ n, n ≠ 0 ∧ q.2 = .finished n :=
  ⟨runBatch_forall hindices, runBlocks_killed ⟨false, 0, 0⟩, fun _ => fates_passedOver rfl⟩

/-- A command that fails, and one after it that is skipped. -/
theorem runBatch_reported_two :
    List.Forall₂ Reported [(⟨0, "false", 60⟩, .finished 1), (⟨1, "pwd", 60⟩, .passedOver)]
      (runBatch (fun _ => ⟨[(.stderr, "boom")], .code 1⟩) [⟨0, "false", 60⟩, ⟨1, "pwd", 60⟩] true none none).1 :=
  (runBatch_reported (fun _ => ⟨[(.stderr, "boom")], .code 1⟩) [⟨0, "false", 60⟩, ⟨1, "pwd", 60⟩] true none none
    (by decide)).1

/-- A command that finishes with 137 is not reported as failed, and one that never starts not always as skipped. -/
theorem not_failed_or_skipped :
    (¬∀ (behaviour : Nat → Behaviour) (specs : List BatchCommandSpec) (stopOnFailure : Bool),
      (specs.map (·.index)).Nodup → List.Forall₂ (fun p r => ∀ n, p.2 = .finished n →
        r.status = if n = 0 then .success else .failed) (fates behaviour stopOnFailure false specs)
          (runBatch behaviour specs stopOnFailure none none).1) ∧
      ¬∀ (behaviour : Nat → Behaviour) (specs : List BatchCommandSpec) (stopOnFailure : Bool),
        (specs.map (·.index)).Nodup → List.Forall₂ (fun p r => p.2 = .passedOver ∨ p.2 = .notReached →
          r.status = .skipped) (fates behaviour stopOnFailure false specs)
            (runBatch behaviour specs stopOnFailure none none).1 := by
  constructor
  · intro h
    obtain ⟨r, rs, hreported, -, hresults⟩ := List.forall₂_cons_left_iff.mp
      (h (fun _ => ⟨[], .code 137⟩) [⟨0, "a", 60⟩] true (by decide))
    have hstatus : (runBatch (fun _ => ⟨[], .code 137⟩) [⟨0, "a", 60⟩] true none none).1.map (·.status) =
        [.killed] := by
      decide
    rw [hresults, List.map_cons, hreported 137 rfl] at hstatus
    exact absurd (List.head_eq_of_cons_eq hstatus) (by decide)
  · intro h
    obtain ⟨r, rs, -, hrest, hresults⟩ := List.forall₂_cons_left_iff.mp
      (h (fun _ => ⟨[], .exit⟩) [⟨0, "exit", 60⟩, ⟨1, "pwd", 60⟩] true (by decide))
    obtain ⟨q, qs, hreported, -, rfl⟩ := List.forall₂_cons_left_iff.mp hrest
    have hstatus : (runBatch (fun _ => ⟨[], .exit⟩) [⟨0, "exit", 60⟩, ⟨1, "pwd", 60⟩] true none none).1.map
        (·.status) = [.timedOut, .notRun] := by
      decide
    rw [hresults, List.map_cons, List.map_cons, hreported (.inr rfl)] at hstatus
    exact absurd (List.head_eq_of_cons_eq (List.tail_eq_of_cons_eq hstatus)) (by decide)

end Empyralis.Gateway.BatchShell
