import Empyralis.Lib.Iterate
import Empyralis.Lib.SuffixCut
import Empyralis.Server.Tokens
import Mathlib.Algebra.Order.Group.Int

/-! The compaction of a transcript: where it is cut, what is kept of it as it is, and the summary of what is not. -/

namespace Empyralis.Server.Compaction
open Text (strip)
open SuffixCut (weightFrom IsCut)

/-- `repr` is the text of a list or a dictionary, `lower` is `str.lower`. -/
structure Env where
  repr : Value → String
  lower : String → String

variable (env : Env)

/-! ### Turns -/

/-- `str(value or "")` -/
def written (value : Value) : String := if value.truthy then value.str env.repr else ""

/-- `str(turn.get("role") or "").strip().lower()` -/
def roleOf (turn : Fields) : String := env.lower (strip (written env (Fields.get turn "role")))

/-- The content of a turn as it is written. -/
def contentOf (turn : Fields) : String := written env (Fields.get turn "content")

/-- Four characters to the token. -/
def estimateTokens (text : String) : Nat := text.length / 4

def estimateTurnTokens (turn : Fields) : Nat := estimateTokens (contentOf env turn)

def estimateTurnsTokens (turns : List Fields) : Nat :=
  turns.foldr (fun turn total => estimateTurnTokens env turn + total) 0

/-- `TOOL_RESULT_MAX_CHARS` -/
def toolResultMaxChars : Nat := 2000

/-- `meta.get("tool_name") or meta.get("name") or "unknown"`, when there are metadata. -/
def toolName (turn : Fields) : String :=
  match Fields.get turn "metadata" with
  | .object metadata =>
    if (Fields.get metadata "tool_name").truthy then (Fields.get metadata "tool_name").str env.repr
    else if (Fields.get metadata "name").truthy then (Fields.get metadata "name").str env.repr
    else "unknown"
  | _ => "unknown"

/-- A tool result that is too long becomes a note of its length. -/
def pruneToolResult (turn : Fields) : String :=
  let content := contentOf env turn
  if roleOf env turn = "tool_result" ∧ toolResultMaxChars < content.length then
    "[tool result: " ++ toolName env turn ++ " — " ++ toString content.length ++ " chars" ++ " — pruned for context]"
  else content

/-! ### The cut -/

/-- `DEFAULT_CONTEXT_WINDOW` -/
def defaultContextWindow : Int := 128000

def keepRecentCap : Int := 30000

/-- The product is of floats there: it does not cross an integer before the cap has been passed. -/
def keepRecentTokensForWindow (contextWindow : Int) : Int := min ((contextWindow * 15).tdiv 100) keepRecentCap

def forcedKeepRecentTokensFloor : Int := 500

/-- The walk down from the turn before index `i`, with what the turns from there on weigh. -/
def walkBack (turns : List Fields) (keepRecentTokens : Int) : Nat → Int → Nat
  | 0, _ => 0
  | i + 1, accumulated =>
    let accumulated := accumulated + estimateTurnTokens env (turns.getD i [])
    if keepRecentTokens ≤ accumulated then i else walkBack turns keepRecentTokens i accumulated

/-- `find_cut_point` -/
def findCutPoint (turns : List Fields) (keepRecentTokens contextWindow : Option Int) : Nat :=
  let keepRecentTokens := keepRecentTokens.getD (keepRecentTokensForWindow (contextWindow.getD defaultContextWindow))
  walkBack env turns keepRecentTokens turns.length 0

/-- The cut, and whether it was the floor that was asked for it. -/
def findCutPointWithFallback (turns : List Fields) (contextWindow : Int) : Nat × Bool :=
  let cutIdx := findCutPoint env turns none (some contextWindow)
  if 0 < cutIdx then (cutIdx, false)
  else (findCutPoint env turns (some forcedKeepRecentTokensFloor) none, true)

/-- A turn as it is kept: of a tool's result only that it was there, when it is long. -/
def pruneTurn (turn : Fields) : Fields :=
  if roleOf env turn = "tool_result" then Fields.put turn "content" (.string (pruneToolResult env turn)) else turn

/-- `structural_truncate`: what is cut off is not summarised. -/
def structuralTruncate (turns : List Fields) (contextWindow : Int) : List Fields :=
  let pruned := turns.map (pruneTurn env)
  pruned.drop (findCutPoint env pruned none (some contextWindow))

/-! ### The summary -/

/-- The line of a turn, if it says anything. -/
def serializeTurn (turn : Fields) : Option String :=
  let content := strip (contentOf env turn)
  if content = "" then none
  else match roleOf env turn with
    | "user" => some ("[User]: " ++ content)
    | "assistant" => some ("[Assistant]: " ++ content)
    | "tool_result" => some ("[Tool result: " ++ toolName env turn ++ "]: " ++ pruneToolResult env turn)
    | "compaction_summary" => some ("[Previous summary]: " ++ content)
    | "system" => some ("[System]: " ++ content)
    | role => some ("[" ++ role ++ "]: " ++ content)

/-- `serialize_turns_for_compaction` -/
def serializeTurnsForCompaction (turns : List Fields) : String :=
  String.intercalate "\n\n" (turns.filterMap (serializeTurn env))

/-- The prompt that the model is given. -/
def compactionPrompt (previousSummary conversationText : String) : String :=
  "Summarize this conversation segment concisely. Preserve:
- Decisions made and their outcomes
- User preferences and stated requirements
- Active tasks and their current status
- Pending items that need follow-up
- Important facts about the user or their work

If a prior compaction summary is present below, extract its key historical
thread and carry it forward as a cumulative section (a few dense sentences
per prior round) at the TOP of your summary — never discard earlier
entries just because they came from an older summary rather than raw
conversation. Each new summary should read as the running history, not
just the delta since the last one.

Do not invent. Do not speculate. Be factual and dense.

Previous summary (if any):
" ++ previousSummary ++ "

Conversation to summarize:
" ++ conversationText

/-- The words by which an error is taken for an overflow. -/
def overflowKeywords : List String :=
  ["context_length_exceeded", "request_too_large", "maximum context length", "context window", "token limit",
    "too many tokens", "prompt is too long"]

/-- `part in text` -/
def occursIn (part : List Char) : List Char → Bool
  | [] => part.isEmpty
  | c :: text => part.isPrefixOf (c :: text) || occursIn part text

/-- `is_context_overflow_error`, by the words of the message -/
def isContextOverflowError (errorMessage : String) : Bool :=
  overflowKeywords.any fun keyword => occursIn keyword.toList (env.lower errorMessage).toList

/-- What the model is called with. -/
structure Call where
  systemPrompt : String
  provider : String
  modelOverride : Option String

/-- What the model answers: a text or an error. -/
structure Reply where
  text : String
  error : String

/-- What `openai_chat_text` does when it is called for the nth time: it replies or raises. -/
abbrev Chat := Nat → Call → Option Reply

/-- What a compaction is asked with, besides the turns. -/
structure Request where
  previousSummary : String
  provider : String
  model : String

def Request.resolvedProvider (request : Request) : String := env.lower (strip request.provider)

/-- The call that an attempt makes. -/
def Request.call (request : Request) (turns : List Fields) : Call where
  systemPrompt := compactionPrompt
    (if request.previousSummary = "" then "(none — this is the first compaction)" else request.previousSummary)
    (serializeTurnsForCompaction env turns)
  provider := request.resolvedProvider env
  modelOverride := if strip request.model = "" then none else some (strip request.model)

/-- How the loop over the turns is left. -/
inductive Ending where
  | answered (turns : List Fields) (summary error : String)
  | overflowed
  | raised

/-- One round: the calls made so far and the turns that are left. -/
def attempt (chat : Chat) (request : Request) : Nat × List Fields → Ending ⊕ (Nat × List Fields)
  | (calls, workingTurns) =>
    match chat calls (request.call env workingTurns) with
    | none => .inl .raised
    | some reply =>
      let summary := strip reply.text
      if summary ≠ "" ∨ isContextOverflowError env reply.error = false then
        .inl (.answered workingTurns summary reply.error)
      else if workingTurns.length ≤ 1 then .inl .overflowed
      else .inr (calls + 1, workingTurns.drop 1)

/-- What compaction does: a summary is stored and returned; for a reason that is traced, an empty one is returned. -/
inductive Outcome where
  | summarized (summary : String)
  | skipped (reason : String)
  | raised
  deriving DecidableEq

/-- What an attempt that is the last one comes to. -/
def Ending.outcome : Ending → Outcome
  | .raised => .raised
  | .overflowed => .skipped "compaction_itself_overflowed_single_item"
  | .answered _ summary error =>
    if summary ≠ "" then .summarized summary
    else
      let reason := strip (if error = "" then "empty_summary" else error)
      .skipped (if reason = "" then "empty_summary" else reason)

/-- `compact_turns`: the attempts, each with fewer turns, until one ends. -/
def compactTurns (chat : Chat) (request : Request) (fuel : Nat) (turns : List Fields) : Option Outcome :=
  if request.resolvedProvider env = "" then some (.skipped "model_unavailable_no_fallback")
  else (Iterate.iterate (attempt env chat request) fuel (0, turns)).map Ending.outcome

/-! ### Where it is cut -/

/-- The size of a turn. -/
def tokens (turn : Fields) : Int := estimateTurnTokens env turn

theorem tokens_nonneg (turn : Fields) : 0 ≤ tokens env turn := Int.natCast_nonneg _

theorem weightFrom_tokens (turns : List Fields) (i : Nat) :
    weightFrom (tokens env) turns i = estimateTurnsTokens env (turns.drop i) := by
  rw [weightFrom, estimateTurnsTokens]
  induction turns.drop i with
  | nil => rfl
  | cons turn turns ih =>
    rw [List.map_cons, List.sum_cons, ih, List.foldr_cons, Int.natCast_add]
    rfl

variable {env}

/-- The walk has passed no index that reaches the budget, and knows what the turns from there on weigh. -/
theorem isCut_walkBack {turns : List Fields} {keepRecentTokens : Int} :
    ∀ {i : Nat}, i ≤ turns.length → (∀ j, i ≤ j → ¬SuffixCut.Reaches (tokens env) turns keepRecentTokens j) →
      IsCut (tokens env) turns keepRecentTokens
        (walkBack env turns keepRecentTokens i (weightFrom (tokens env) turns i))
  | 0, _, habove => .inr ⟨fun j => habove j (Nat.zero_le j), rfl⟩
  | i + 1, hi, habove => by
    have hthere : i < turns.length := hi
    have hweight : weightFrom (tokens env) turns (i + 1) + estimateTurnTokens env (turns.getD i []) =
        weightFrom (tokens env) turns i := by
      rw [SuffixCut.weightFrom_succ hthere, List.getD_eq_getElem?_getD, List.getElem?_eq_getElem hthere, Int.add_comm]
      rfl
    simp only [walkBack, hweight]
    split
    · rename_i hreaches
      exact SuffixCut.isCut_of_above ⟨hthere, hreaches⟩ fun j hj => habove j hj
    · rename_i hreaches
      refine isCut_walkBack (Nat.le_of_lt hthere) fun j hj => ?_
      rcases Nat.eq_or_lt_of_le hj with rfl | hj
      · exact fun h => hreaches h.2
      · exact habove j hj

theorem isCut_findCutPoint (turns : List Fields) (keepRecentTokens contextWindow : Option Int) :
    IsCut (tokens env) turns
      (keepRecentTokens.getD (keepRecentTokensForWindow (contextWindow.getD defaultContextWindow)))
      (findCutPoint env turns keepRecentTokens contextWindow) := by
  have hend : weightFrom (tokens env) turns turns.length = 0 := SuffixCut.weightFrom_of_le (Nat.le_refl _)
  rw [findCutPoint, ← hend]
  exact isCut_walkBack (Nat.le_refl _) fun j hj h => absurd h.1 (Nat.not_lt.mpr hj)

/-- The fallback asks the floor just when the budget of the window cuts nothing. -/
theorem fallback_cases (turns : List Fields) (contextWindow : Int) :
    match findCutPointWithFallback env turns contextWindow with
    | (i, false) => 0 < i ∧ IsCut (tokens env) turns (keepRecentTokensForWindow contextWindow) i
    | (i, true) => IsCut (tokens env) turns (keepRecentTokensForWindow contextWindow) 0 ∧
      IsCut (tokens env) turns forcedKeepRecentTokensFloor i := by
  have hcut : IsCut (tokens env) turns (keepRecentTokensForWindow contextWindow)
      (findCutPoint env turns none (some contextWindow)) := isCut_findCutPoint turns none (some contextWindow)
  rw [findCutPointWithFallback]
  split
  · rename_i i hi
    split at hi
    · cases hi
      exact ⟨by assumption, hcut⟩
    · cases hi
  · rename_i i hi
    split at hi
    · cases hi
    · rename_i hzero
      cases hi
      rw [Nat.eq_zero_of_not_pos hzero] at hcut
      exact ⟨hcut, isCut_findCutPoint turns (some forcedKeepRecentTokensFloor) none⟩

/-! ### The rounds of the summary -/

theorem attempt_shrinks (chat : Chat) (request : Request) (s t : Nat × List Fields)
    (h : attempt env chat request s = .inr t) : t.2.length - 1 < s.2.length - 1 := by
  obtain ⟨calls, workingTurns⟩ := s
  rw [attempt] at h
  split at h
  · cases h
  · dsimp only at h
    split at h
    · cases h
    split at h
    · cases h
    · cases h
      simp only [List.length_drop]
      omega

/-- One call for each turn is enough, and one when there are none. -/
theorem compactTurns_ends (chat : Chat) (request : Request) (turns : List Fields) :
    ∃ outcome, ∀ fuel, max 1 turns.length ≤ fuel → compactTurns env chat request fuel turns = some outcome := by
  have hfuel : (0, turns).2.length - 1 < max 1 turns.length := by
    dsimp only
    omega
  obtain ⟨ending, hends⟩ := Iterate.exists_iterate (attempt_shrinks chat request) hfuel
  by_cases hprovider : request.resolvedProvider env = ""
  · exact ⟨_, fun fuel _ => by rw [compactTurns, if_pos hprovider]⟩
  · refine ⟨ending.outcome, fun fuel hle => ?_⟩
    rw [compactTurns, if_neg hprovider, Iterate.iterate_mono hle hends]
    rfl

/-! ### The budget -/

/-- What compaction is for: the cut is the last that leaves the budget's worth of turns, or what is documented where
    there is none; what is kept of a transcript are its latest turns, within the budget when they are more than one;
    and the summary of the rest comes to an end. -/
structure Compacts (env : Env) (chat : Chat) (request : Request) (turns : List Fields) (contextWindow : Int) :
    Prop where
  cut : ∀ keepRecentTokens window,
    IsCut (tokens env) turns keepRecentTokens (findCutPoint env turns (some keepRecentTokens) window)
  fallback : match findCutPointWithFallback env turns contextWindow with
    | (i, false) => 0 < i ∧ IsCut (tokens env) turns (keepRecentTokensForWindow contextWindow) i
    | (i, true) => IsCut (tokens env) turns (keepRecentTokensForWindow contextWindow) 0 ∧
      IsCut (tokens env) turns forcedKeepRecentTokensFloor i
  within : 1 < (structuralTruncate env turns contextWindow).length →
    estimateTurnsTokens env (structuralTruncate env turns contextWindow) ≤ keepRecentTokensForWindow contextWindow
  inOrder : ∃ kept, kept <:+ turns ∧ structuralTruncate env turns contextWindow = kept.map (pruneTurn env)
  ends : ∃ outcome, ∀ fuel, max 1 turns.length ≤ fuel → compactTurns env chat request fuel turns = some outcome

/-- The turn that crosses the budget is kept: what stays of a transcript is within it just when the pruned turns fit. -/
theorem within_iff (turns : List Fields) (contextWindow : Int) :
    (1 < (structuralTruncate env turns contextWindow).length →
      estimateTurnsTokens env (structuralTruncate env turns contextWindow) ≤
        keepRecentTokensForWindow contextWindow) ↔
    SuffixCut.Fits (tokens env) (turns.map (pruneTurn env)) (keepRecentTokensForWindow contextWindow) := by
  have hcut : IsCut (tokens env) (turns.map (pruneTurn env)) (keepRecentTokensForWindow contextWindow)
      (findCutPoint env (turns.map (pruneTurn env)) none (some contextWindow)) :=
    isCut_findCutPoint _ none (some contextWindow)
  rw [← hcut.within_iff (tokens_nonneg env), weightFrom_tokens, structuralTruncate, List.length_drop]

/-- What is kept is within the budget exactly if the pruned turns can be cut so. -/
theorem compaction_budget (chat : Chat) (request : Request) (turns : List Fields) (contextWindow : Int) :
    Compacts env chat request turns contextWindow ↔
      SuffixCut.Fits (tokens env) (turns.map (pruneTurn env)) (keepRecentTokensForWindow contextWindow) := by
  refine ⟨fun h => (within_iff turns contextWindow).mp h.within, fun h => ?_⟩
  constructor
  case cut =>
    intro keepRecentTokens window
    exact isCut_findCutPoint turns (some keepRecentTokens) window
  case fallback => exact fallback_cases turns contextWindow
  case within => exact (within_iff turns contextWindow).mpr h
  case inOrder => exact ⟨_, List.drop_suffix _ turns, by rw [structuralTruncate, List.map_drop]⟩
  case ends => exact compactTurns_ends chat request turns

def plainEnv : Env where
  repr := fun _ => "[]"
  lower := fun text => String.ofList (text.toList.map Char.toLower)

/-- A turn of 800 tokens. -/
def longTurn (role : String) : Fields :=
  [("role", .string role), ("content", .string (String.ofList (List.replicate 3200 'a')))]

theorem tokens_longTurn (role : String) : tokens plainEnv (longTurn role) = 800 := by
  have hlength : (String.ofList (List.replicate 3200 'a')).length = 3200 := by
    rw [String.length_ofList, List.length_replicate]
  have hcontent : ∀ text : String, text.length = 3200 →
      tokens plainEnv [("role", .string role), ("content", .string text)] = 800 := by
    intro text htext
    have hne : text ≠ "" := by
      rintro rfl
      cases htext
    have hwritten : contentOf plainEnv [("role", .string role), ("content", .string text)] = text :=
      if_pos (decide_eq_true hne)
    rw [tokens, estimateTurnTokens, estimateTokens, hwritten, htext]
    rfl
  exact hcontent _ hlength

def readyChat : Chat := fun _ _ => some ⟨"They spoke at length.", ""⟩

/-- Two turns of 800 tokens are both kept, for a budget of 1200. -/
theorem crossing_turn_kept :
    ¬Compacts plainEnv readyChat ⟨"", "openai", ""⟩ [longTurn "user", longTurn "assistant"] 8000 := by
  intro h
  have hbudget : keepRecentTokensForWindow 8000 = 1200 := by decide
  have hprune : [longTurn "user", longTurn "assistant"].map (pruneTurn plainEnv) =
      [longTurn "user", longTurn "assistant"] := rfl
  have hfits := (within_iff [longTurn "user", longTurn "assistant"] 8000).mp h.within
  rw [hprune, hbudget] at hfits
  rcases hfits with htotal | hlast | ⟨i, hi⟩
  · simp [weightFrom, tokens_longTurn] at htotal
  · have hle := hlast (longTurn "assistant") rfl
    simp [tokens_longTurn] at hle
  · rcases i with - | - | i <;> simp [weightFrom, tokens_longTurn] at hi

end Empyralis.Server.Compaction
