import Empyralis.Server.Values
import Mathlib.Data.List.Basic

/-! The two ways of `_workflow_execute_loop_node` to run a FOR_EACH loop: one iteration after another, and
    all at the same time.

    The body is a function of the iteration and of the state that it is given: it is deterministic, and
    its nodes succeed. No node writes `loop_vars`. Parallel iterations are completed in some order. -/

namespace Empyralis.Server.WorkflowParallel
open Text (strip)

/-- A dictionary with the order of its keys. -/
structure Dict where
  keys : List String
  value : String → Value

def Dict.put (dict : Dict) (key : String) (value : Value) : Dict where
  keys := if key ∈ dict.keys then dict.keys else dict.keys ++ [key]
  value := Function.update dict.value key value

structure LoopState where
  lastText : String
  lastData : Value
  activeProvider : String
  activeModel : String
  loopVars : Dict

/-- What the body leaves behind; `loop_vars` stay as they were given. -/
structure BodyResult where
  resultText : Value
  resultData : Value
  finalNodeId : Option String
  lastText : String
  lastData : Value
  activeProvider : String
  activeModel : String

abbrev Body := Nat → LoopState → BodyResult

/-- What the loop reads of its node and of the run: the name of the item, and the provider and the model
    where the state has none. -/
structure Setting where
  variableName : String
  provider : String
  model : String

/-- `a or b` -/
def orElse (text other : String) : String := if text ≠ "" then text else other

def assignVars (setting : Setting) (vars : Dict) (index : Nat) (item : Value) : Dict :=
  ((vars.put setting.variableName item).put "item_index" (.int index)).put "iteration_index" (.int index)

/-- The state that `_run_iteration` gives the body. -/
def iterationState (setting : Setting) (base : LoopState) (index : Nat) (item : Value) : LoopState where
  lastText :=
    let iterationText :=
      match item with
      | .null => strip base.lastText
      | item => item.payloadText
    orElse iterationText (strip base.lastText)
  lastData :=
    match item with
    | .null => if base.lastData.truthy then base.lastData else .object []
    | item => .object [("item", item), ("index", .int index)]
  activeProvider := orElse base.activeProvider setting.provider
  activeModel := orElse base.activeModel setting.model
  loopVars := assignVars setting base.loopVars index item

/-- The state behind the body. -/
def stateAfter (input : LoopState) (result : BodyResult) : LoopState where
  lastText := result.lastText
  lastData := result.lastData
  activeProvider := result.activeProvider
  activeModel := result.activeModel
  loopVars := input.loopVars

structure Payload where
  resultText : String
  resultData : Value
  finalNodeId : Option String

/-- `_workflow_loop_result_payload` -/
def loopResultPayload (result : BodyResult) : Payload where
  resultText := (if result.resultText.truthy then result.resultText else .string "").payloadText
  resultData := result.resultData
  finalNodeId := (result.finalNodeId.map strip).filter (· ≠ "")

/-- What the loop returns of its iterations. -/
structure LoopResult where
  results : List Payload
  activeProvider : String
  activeModel : String

variable (setting : Setting) (body : Body) (state : LoopState)

/-- One iteration: its payload and the state behind it. -/
def runIteration (base : LoopState) (index : Nat) (item : Value) : Payload × LoopState :=
  let input := iterationState setting base index item
  let result := body index input
  (loopResultPayload result, stateAfter input result)

/-- The loop that hands the state of an iteration to the next. -/
def sequential : LoopState → Nat → List Value → List Payload × LoopState
  | last, _, [] => ([], last)
  | last, index, item :: items =>
    let (payload, next) := runIteration setting body last index item
    let (payloads, final) := sequential next (index + 1) items
    (payload :: payloads, final)

/-- The loop over the futures: each result is put in the place of its item. -/
def collect (items : List Value) (order : List Nat) (collected : List (Option Payload) × LoopState) :
    List (Option Payload) × LoopState :=
  order.foldl (fun (results, last) index =>
    match items[index]? with
    | some item =>
      let (payload, next) := runIteration setting body state index item
      (results.set index (some payload), next)
    | none => (results, last)) collected

def loopResult (results : List Payload) (last : LoopState) : LoopResult where
  results := results
  activeProvider := orElse last.activeProvider (orElse state.activeProvider setting.provider)
  activeModel := orElse last.activeModel (orElse state.activeModel setting.model)

/-- The FOR_EACH branch of `_workflow_execute_loop_node`, from the resolved array on. -/
def forEach (isParallel : Bool) (rawItems : List Value) (maxIterations : Nat) (order : List Nat) :
    LoopResult :=
  let items := rawItems.take maxIterations
  if isParallel ∧ 1 < items.length then
    let (results, last) := collect setting body state items order (List.replicate items.length none, state)
    loopResult setting state (results.filterMap id) last
  else
    let (results, last) := sequential setting body state 0 items
    loopResult setting state results last

/-- The body ends with the provider and the model that it was given. -/
def Keeps : Prop := ∀ index input, (body index input).activeProvider = input.activeProvider ∧
  (body index input).activeModel = input.activeModel

variable {setting body state}

variable {items : List Value} {base last : LoopState} {item : Value}

/-! ### All at the same time -/

/-- The payloads of iterations that all start from the state of the loop. -/
def separate (setting : Setting) (body : Body) (state : LoopState) (items : List Value) : List Payload :=
  items.mapIdx fun index item => (runIteration setting body state index item).1

theorem separate_get {index : Nat} (h : items[index]? = some item) :
    (separate setting body state items)[index]? = some (runIteration setting body state index item).1 := by
  rw [separate, List.getElem?_mapIdx, h]
  rfl

/-- Each result stands at the index of its item, in whatever order the iterations come. -/
theorem collect_get (order : List Nat) (results : List (Option Payload)) (last : LoopState)
    (hlength : results.length = items.length) (i : Nat) :
    (collect setting body state items order (results, last)).1[i]? =
      if i ∈ order then (separate setting body state items)[i]?.map some else results[i]? := by
  induction order generalizing results last with
  | nil => simp [collect]
  | cons index order ih =>
    cases hitem : items[index]? with
    | none =>
      have hstep : collect setting body state items (index :: order) (results, last) =
          collect setting body state items order (results, last) := by
        simp [collect, hitem]
      rw [hstep, ih results last hlength]
      by_cases hi : i = index
      · subst hi
        have hout : results[i]? = none := by
          rw [List.getElem?_eq_none_iff] at hitem ⊢
          omega
        simp [separate, hitem, hout]
      · simp [hi]
    | some item =>
      have hstep : collect setting body state items (index :: order) (results, last) =
          collect setting body state items order
            (results.set index (some (runIteration setting body state index item).1),
              (runIteration setting body state index item).2) := by
        simp [collect, hitem]
      rw [hstep, ih _ _ (by simpa using hlength)]
      obtain ⟨hindex, -⟩ := List.getElem?_eq_some_iff.mp hitem
      by_cases hi : i = index
      · subst hi
        rw [separate_get hitem, if_pos List.mem_cons_self,
          List.getElem?_set_self (by omega), Option.map_some, ite_self]
      · rw [List.getElem?_set_ne (Ne.symm hi)]
        simp [hi]

/-- Every order gives the same results. -/
theorem collect_results {order : List Nat} (horder : order.Perm (List.range items.length)) :
    (collect setting body state items order (List.replicate items.length none, state)).1.filterMap id =
      separate setting body state items := by
  have hall : (collect setting body state items order (List.replicate items.length none, state)).1 =
      (separate setting body state items).map some := by
    refine List.ext_getElem? fun i => ?_
    rw [collect_get order _ _ List.length_replicate, List.getElem?_map]
    split_ifs with hi
    · rfl
    · have hout : items.length ≤ i := by
        rw [horder.mem_iff, List.mem_range] at hi
        omega
      simp [separate, hout]
  rw [hall, List.filterMap_map]
  exact List.filterMap_some

/-! ### One after another -/

theorem orElse_orElse (text other : String) : orElse (orElse text other) other = orElse text other := by
  unfold orElse
  split_ifs <;> rfl

theorem mem_put {dict : Dict} {key other : String} (value : Value) :
    other ∈ (dict.put key value).keys ↔ other ∈ dict.keys ∨ other = key := by
  unfold Dict.put
  split_ifs with h
  · refine ⟨Or.inl, ?_⟩
    rintro (hother | rfl)
    · exact hother
    · exact h
  · simp

theorem keys_put {dict : Dict} {key : String} (value : Value) (h : key ∈ dict.keys) :
    (dict.put key value).keys = dict.keys := if_pos h

theorem assignVars_assignVars (setting : Setting) (vars : Dict) (index index' : Nat) (item item' : Value) :
    assignVars setting (assignVars setting vars index item) index' item' =
      assignVars setting vars index' item' := by
  have hkeys : ∀ index item, (assignVars setting vars index item).keys =
      (assignVars setting vars index' item').keys := fun _ _ => rfl
  have hmem : ∀ key, key = setting.variableName ∨ key = "item_index" ∨ key = "iteration_index" →
      key ∈ (assignVars setting vars index item).keys := by
    rintro key (rfl | rfl | rfl) <;> simp [assignVars, mem_put]
  have hvalue : (assignVars setting (assignVars setting vars index item) index' item').value =
      (assignVars setting vars index' item').value := by
    funext key
    simp only [assignVars, Dict.put, Function.update_apply]
    split_ifs <;> rfl
  have hsame : (assignVars setting (assignVars setting vars index item) index' item').keys =
      (assignVars setting vars index' item').keys := by
    rw [← hkeys index item]
    conv_lhs => rw [assignVars]
    rw [keys_put, keys_put, keys_put] <;> simp [mem_put, hmem]
  cases h : assignVars setting (assignVars setting vars index item) index' item'
  cases h' : assignVars setting vars index' item'
  simp_all

/-- The state of an earlier iteration has what the state of the loop has, as far as an item that renders
    as text can tell. -/
structure Follows (setting : Setting) (state last : LoopState) : Prop where
  provider : orElse last.activeProvider setting.provider = orElse state.activeProvider setting.provider
  model : orElse last.activeModel setting.model = orElse state.activeModel setting.model
  vars : ∀ index item, assignVars setting last.loopVars index item =
    assignVars setting state.loopVars index item

theorem follows_after (hkeeps : Keeps body) (hlast : Follows setting state last) (index : Nat) :
    Follows setting state (runIteration setting body last index item).2 where
  provider := by
    simp only [runIteration, stateAfter, (hkeeps index _).1, iterationState, orElse_orElse]
    exact hlast.provider
  model := by
    simp only [runIteration, stateAfter, (hkeeps index _).2, iterationState, orElse_orElse]
    exact hlast.model
  vars index' item' := by
    simp only [runIteration, stateAfter, iterationState, assignVars_assignVars]
    exact hlast.vars index' item'

theorem iterationState_follows (hlast : Follows setting state last) (index : Nat)
    (hitem : item.payloadText ≠ "") :
    iterationState setting last index item = iterationState setting state index item := by
  have hnull : item ≠ .null := by
    rintro rfl
    exact hitem rfl
  unfold iterationState
  rw [hlast.provider, hlast.model, hlast.vars]
  cases item <;> simp_all [orElse]

theorem sequential_follows (hkeeps : Keeps body) : ∀ {items : List Value} {last : LoopState} {index : Nat},
    Follows setting state last → (∀ item ∈ items, item.payloadText ≠ "") →
    (sequential setting body last index items).1 =
      items.mapIdx fun i item => (runIteration setting body state (index + i) item).1
  | [], _, _, _, _ => rfl
  | item :: items, last, index, hlast, hitems => by
    obtain ⟨hitem, hrest⟩ := List.forall_mem_cons.mp hitems
    have hsame : (runIteration setting body last index item).1 =
        (runIteration setting body state index item).1 := by
      rw [runIteration, iterationState_follows hlast index hitem, runIteration]
    have hseq : (sequential setting body last index (item :: items)).1 =
        (runIteration setting body last index item).1 ::
          (sequential setting body (runIteration setting body last index item).2 (index + 1) items).1 := rfl
    rw [hseq, hsame, List.mapIdx_cons,
      sequential_follows hkeeps (follows_after hkeeps hlast index) hrest]
    simp only [Nat.add_zero, Nat.add_assoc, Nat.add_comm 1]

theorem sequential_cons (setting : Setting) (body : Body) (last : LoopState) (index : Nat) (item : Value)
    (items : List Value) : (sequential setting body last index (item :: items)).1 =
      (runIteration setting body last index item).1 ::
        (sequential setting body (runIteration setting body last index item).2 (index + 1) items).1 := rfl

theorem sequential_separate (hkeeps : Keeps body) (hitems : ∀ item ∈ items.tail, item.payloadText ≠ "") :
    (sequential setting body state 0 items).1 = separate setting body state items := by
  cases items with
  | nil => rfl
  | cons first items =>
    rw [List.tail_cons] at hitems
    have hstate : Follows setting state state := ⟨rfl, rfl, fun _ _ => rfl⟩
    rw [sequential_cons, sequential_follows hkeeps (follows_after hkeeps hstate 0) hitems, separate,
      List.mapIdx_cons]
    simp only [Nat.add_comm 1, Nat.zero_add]

theorem forEach_parallel {rawItems : List Value} {maxIterations : Nat} {order : List Nat}
    (hlength : 1 < (rawItems.take maxIterations).length)
    (horder : order.Perm (List.range (rawItems.take maxIterations).length)) :
    (forEach setting body state true rawItems maxIterations order).results =
      separate setting body state (rawItems.take maxIterations) := by
  rw [forEach]
  dsimp only
  rw [if_pos ⟨rfl, hlength⟩]
  exact collect_results horder

theorem forEach_sequential {rawItems : List Value} {maxIterations : Nat} {order : List Nat} :
    (forEach setting body state false rawItems maxIterations order).results =
      (sequential setting body state 0 (rawItems.take maxIterations)).1 := rfl

/-! ### Items that render as no text -/

/-- A body that returns the text that it is given and leaves another. -/
def echo : Body := fun _ input =>
  ⟨.string input.lastText, .null, none, "b", .null, input.activeProvider, input.activeModel⟩

def echoState : LoopState := ⟨"a", .null, "", "", ⟨[], fun _ => .null⟩⟩

theorem iterationState_blank (hitem : item.payloadText = "") (index : Nat)
    (htext : strip base.lastText = base.lastText) :
    (iterationState setting base index item).lastText = base.lastText := by
  unfold iterationState
  cases item <;> simp_all [orElse]

theorem payload_string {result : BodyResult} {text : String} (h : result.resultText = .string text) :
    (loopResultPayload result).resultText = strip text := by
  rw [loopResultPayload, h]
  by_cases htext : text = ""
  · subst htext
    rfl
  · simp [Value.truthy, htext, Value.payloadText]

theorem echo_payload (index : Nat) (hitem : item.payloadText = "")
    (htext : strip base.lastText = base.lastText) :
    (runIteration setting echo base index item).1.resultText = base.lastText := by
  have hinput : (iterationState setting base index item).lastText = base.lastText :=
    iterationState_blank hitem index htext
  rw [runIteration, payload_string rfl, hinput, htext]

/-- In sequence, such an item is given the text that the iteration before it has left. -/
theorem echo_sequential {k : Nat} (hitem : item.payloadText = "") (htext : strip "b" = "b") :
    ∀ {items : List Value} {last : LoopState} {index : Nat}, last.lastText = "b" →
      items[k]? = some item →
      (sequential setting echo last index items).1[k]?.map (·.resultText) = some "b" := by
  induction k with
  | zero =>
    intro items last index hlast hk
    cases items with
    | nil => simp at hk
    | cons first items =>
      obtain rfl : first = item := by simpa using hk
      rw [sequential_cons, List.getElem?_cons_zero, Option.map_some,
        echo_payload index hitem (hlast ▸ htext), hlast]
  | succ k ih =>
    intro items last index hlast hk
    cases items with
    | nil => simp at hk
    | cons first items => exact ih rfl hk

/-- The two ways agree, for all bodies that end with the provider and the model that they were given, just
    for the arrays in which every item behind the first renders as text. -/
theorem parallel_agrees_iff (setting : Setting) (rawItems : List Value) (maxIterations : Nat) :
    (∀ body, Keeps body → ∀ state order,
      order.Perm (List.range (rawItems.take maxIterations).length) →
      (forEach setting body state true rawItems maxIterations order).results =
        (forEach setting body state false rawItems maxIterations order).results) ↔
      ∀ item ∈ (rawItems.take maxIterations).tail, item.payloadText ≠ "" := by
  constructor
  · intro h item hmem hitem
    obtain ⟨k, hk⟩ := List.mem_iff_getElem?.mp hmem
    rw [List.getElem?_tail] at hk
    obtain ⟨hlength, -⟩ := List.getElem?_eq_some_iff.mp hk
    have hsame := h echo (fun _ _ => ⟨rfl, rfl⟩) echoState _ (List.Perm.refl _)
    rw [forEach_parallel (by omega) (List.Perm.refl _), forEach_sequential] at hsame
    have hparallel : (separate setting echo echoState (rawItems.take maxIterations))[k + 1]?.map
        (·.resultText) = some "a" := by
      rw [separate_get hk, Option.map_some]
      exact congrArg some (echo_payload _ hitem (by decide))
    obtain ⟨first, items, hitems⟩ := List.exists_cons_of_length_pos (Nat.zero_lt_of_lt hlength)
    rw [hsame, hitems, sequential_cons, List.getElem?_cons_succ] at hparallel
    rw [hitems, List.getElem?_cons_succ] at hk
    rw [echo_sequential hitem (by decide) rfl hk] at hparallel
    exact absurd hparallel (by decide)
  · intro hitems body hkeeps state order horder
    by_cases hlength : 1 < (rawItems.take maxIterations).length
    · rw [forEach_parallel hlength horder, forEach_sequential, sequential_separate hkeeps hitems]
    · rw [forEach, forEach]
      dsimp only
      rw [if_neg fun h => hlength h.2, if_neg fun h => hlength h.2]

/-- A body that returns the provider that it is given and leaves another. -/
def switch : Body := fun _ input =>
  ⟨.string input.activeProvider, .null, none, input.lastText, .null, "anthropic", input.activeModel⟩

def openai : Setting := ⟨"item", "openai", "gpt"⟩

/-- A null item takes the text of another state, and a provider is handed on in sequence alone. -/
theorem parallel_differs :
    (forEach openai echo echoState true [.string "x", .null] 100 [0, 1]).results.map (·.resultText) =
      ["x", "a"] ∧
    (forEach openai echo echoState false [.string "x", .null] 100 [0, 1]).results.map (·.resultText) =
      ["x", "b"] ∧
    (forEach openai switch echoState true [.string "x", .string "y"] 100 [0, 1]).results.map
      (·.resultText) = ["openai", "openai"] ∧
    (forEach openai switch echoState false [.string "x", .string "y"] 100 [0, 1]).results.map
      (·.resultText) = ["openai", "anthropic"] := by
  decide

end Empyralis.Server.WorkflowParallel
