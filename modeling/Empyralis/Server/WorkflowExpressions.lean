import Empyralis.Lib.Table
import Empyralis.Lib.Text
import Empyralis.Lib.Traced

/-! The expressions and the references of a workflow, and the attributes that they read on their way. -/

namespace Empyralis.Server.WorkflowExpressions

open Lib Text

/-! ### Values -/

/-- What an evaluation raises. -/
inductive Raised where
  | valueError (text : String)
  | attributeError (text : String)
  | other (text : String)

inductive Comparator where | eq | notEq | gt | gtE | lt | ltE | inside | notIn | is | isNot
  deriving DecidableEq

inductive BoolOperator where | and | or
  deriving DecidableEq

inductive UnaryOperator where | not | uAdd | uSub | invert
  deriving DecidableEq

/-- What the language does with its objects, which are the members of `V`. -/
structure Python (V : Type) where
  none : V
  bool : Bool → V
  str : String → V
  list : List V → V
  tuple : List V → V
  dict : List (V × V) → Except Raised V
  isNone : V → Bool
  isDict : V → Bool
  isList : V → Bool
  /-- `isinstance(value, (int, float, bool))` -/
  isNumber : V → Bool
  /-- The text of a value that is a string. -/
  asStr : V → Option String
  /-- `str(value)` -/
  text : V → String
  /-- `int(text)`, nothing when it raises. -/
  parseInt : String → Option Int
  truthy : V → Except Raised Bool
  items : V → List (V × V)
  /-- `value.get(name)` of a dictionary. -/
  entry : V → String → V
  /-- `value.get(key)` of a dictionary. -/
  get : V → V → Except Raised V
  /-- `value[key]` -/
  item : V → V → Except Raised V
  /-- `value[i]` of a list, nothing when it raises. -/
  index : V → Int → Option V
  /-- `getattr(value, name)` -/
  getattr : V → String → Except Raised V
  compare : Comparator → V → V → Except Raised Bool
  pos : V → Except Raised V
  neg : V → Except Raised V

/-- The nodes of a parsed expression. A node without a branch below is there by the name of its type. -/
inductive Expr (V : Type) where
  | expression (body : Expr V)
  | constant (value : V)
  | name (id : String)
  | attribute (value : Expr V) (attr : String)
  | subscript (value slice : Expr V)
  | boolOp (op : BoolOperator) (values : List (Expr V))
  | unaryOp (op : UnaryOperator) (operand : Expr V)
  | compare (left : Expr V) (comparisons : List (Comparator × Expr V))
  | list (elts : List (Expr V))
  | tuple (elts : List (Expr V))
  | dict (items : List (Expr V × Expr V))
  | other (type : String)

variable {V : Type} (py : Python V)

/-- A computation with the attributes that it reads, each with its value. -/
abbrev Eval (V : Type) := Traced (V × String) Raised

/-- `getattr(value, name, None)` -/
def getattrOrNone (value : V) (name : String) : Except Raised V :=
  match py.getattr value name with
  | .error (.attributeError _) => .ok py.none
  | result => result

def emptyDict : V :=
  match py.dict [] with
  | .ok value => value
  | .error _ => py.none

/-- The value if it is a dictionary, else `{}`. -/
def orEmpty (value : V) : V := if py.isDict value then value else emptyDict py

/-! ### Expressions -/

/-- `attr.startswith("__")` -/
def dunder (attr : String) : Bool := "__".toList.isPrefixOf attr.toList

/-- `_workflow_expression_scope` -/
def workflowExpressionScope (currentText : String) (state context : V) : Table String V :=
  let loopVars := orEmpty py (py.entry state "loop_vars")
  let scope : Table String V := (((((Table.empty.put "context_text" (py.str currentText)).put "result_text"
    (py.str currentText)).put "result_data" (orEmpty py (py.entry state "last_data"))).put "state" state).put
    "loop_vars" loopVars).put "context" (orEmpty py context)
  (py.items loopVars).foldl
    (fun scope (key, value) =>
      match py.asStr key with
      | some name => if strip name = "" then scope else scope.put name value
      | none => scope)
    scope

variable (scope : Table String V)

/-- A name of the scope, or one of the three constants. -/
def resolveName (name : String) : Eval V V :=
  match scope.get? name with
  | some value => pure value
  | none =>
    if name = "True" then pure (py.bool true)
    else if name = "False" then pure (py.bool false)
    else if name = "None" then pure py.none
    else .raise (.valueError s!"Unsupported decision name '{name}'.")

/-- Dictionaries have their entries for attributes. -/
def resolveAttribute (value : V) (attr : String) : Eval V V :=
  if dunder attr then .raise (.valueError "Decision expressions cannot access dunder attributes.")
  else if py.isDict value then pure (py.entry value attr)
  else .emit (value, attr) (py.getattr value attr)

/-- Dictionaries have no error for a missing key. -/
def resolveSubscript (value key : V) : Eval V V :=
  if py.isDict value then .silent (py.get value key) else .silent (py.item value key)

/-- `all(values)` -/
def all : List V → Except Raised Bool
  | [] => .ok true
  | value :: values => do if ← py.truthy value then all values else .ok false

/-- `any(values)` -/
def any : List V → Except Raised Bool
  | [] => .ok false
  | value :: values => do if ← py.truthy value then .ok true else any values

/-- `all` and `any`, so the value is a truth value. -/
def applyBool : BoolOperator → List V → Except Raised V
  | .and, values => py.bool <$> all py values
  | .or, values => py.bool <$> any py values

def applyUnary : UnaryOperator → V → Except Raised V
  | .not, operand => (fun truth => py.bool !truth) <$> py.truthy operand
  | .uAdd, operand => py.pos operand
  | .uSub, operand => py.neg operand
  | .invert, _ => .error (.valueError "Unsupported decision unary operator 'Invert'.")

mutual

/-- `_evaluate` -/
def evaluate : Expr V → Eval V V
  | .expression body => evaluate body
  | .constant value => pure value
  | .name id => resolveName py scope id
  | .attribute value attr => do
    let value ← evaluate value
    resolveAttribute py value attr
  | .subscript value slice => do
    let value ← evaluate value
    let key ← evaluate slice
    resolveSubscript py value key
  | .boolOp op values => do
    let values ← evaluateAll values
    .silent (applyBool py op values)
  | .unaryOp op operand => do
    let operand ← evaluate operand
    .silent (applyUnary py op operand)
  | .compare left comparisons => do
    let left ← evaluate left
    compareAll left comparisons
  | .list elts => do
    let values ← evaluateAll elts
    pure (py.list values)
  | .tuple elts => do
    let values ← evaluateAll elts
    pure (py.tuple values)
  | .dict items => do
    let entries ← evaluateItems items
    .silent (py.dict entries)
  | .other type => .raise (.valueError s!"Unsupported decision expression node '{type}'.")

/-- Node after node. -/
def evaluateAll : List (Expr V) → Eval V (List V)
  | [] => pure []
  | node :: nodes => do
    let value ← evaluate node
    let values ← evaluateAll nodes
    pure (value :: values)

/-- Key and value of each entry, in turn. -/
def evaluateItems : List (Expr V × Expr V) → Eval V (List (V × V))
  | [] => pure []
  | (key, value) :: items => do
    let key ← evaluate key
    let value ← evaluate value
    let entries ← evaluateItems items
    pure ((key, value) :: entries)

/-- The loop over the comparisons, which ends at the first that does not hold. -/
def compareAll (left : V) : List (Comparator × Expr V) → Eval V V
  | [] => pure (py.bool true)
  | (operator, comparator) :: comparisons => do
    let right ← evaluate comparator
    if ← .silent (py.compare operator left right) then compareAll right comparisons else pure (py.bool false)

end

-- `ast.parse(expression, mode="eval")`
variable (parse : String → Except Raised (Expr V))

/-- `_workflow_evaluate_expression_value` -/
def workflowEvaluateExpressionValue (currentText : String) (state : V) (expression : String) (context : V) :
    Eval V V := do
  let parsed ← .silent (parse expression)
  evaluate py (workflowExpressionScope py currentText state context) parsed

/-! ### References -/

def startsWith (token start : String) : Bool := start.toList.isPrefixOf token.toList

/-- The text of a reference, without its `$.` -/
def referenceToken (reference : V) : String :=
  let token := strip (py.text reference)
  if startsWith token "$." then String.ofList (token.toList.drop 2) else token

/-- A token that is a dotted path. -/
def dotted (token : String) : Bool :=
  startsWith token "state." || startsWith token "result_data." || startsWith token "loop_vars." ||
    startsWith token "context."

def split (token : String) : List String := (token.toList.splitOn '.').map String.ofList

/-- What the first part of a dotted path stands for. -/
def rootValue (state context : V) (root : String) : V :=
  if root = "state" then state
  else if root = "result_data" then orEmpty py (py.entry state "last_data")
  else if root = "loop_vars" then orEmpty py (py.entry state "loop_vars")
  else context

/-- The loop over the other parts. -/
def walk : V → List String → Eval V V
  | value, [] => pure value
  | value, part :: parts =>
    if py.isDict value then
      if py.isNone (py.entry value part) then pure py.none else walk (py.entry value part) parts
    else if py.isList value then
      match (py.parseInt part).bind (py.index value) with
      | none => pure py.none
      | some item => if py.isNone item then pure py.none else walk item parts
    else do
      let found ← .emit (value, part) (getattrOrNone py value part)
      if py.isNone found then pure py.none else walk found parts

/-- A reference that is its own value. -/
def isPlain (reference : V) : Bool :=
  py.isNone reference || py.isDict reference || py.isList reference || py.isNumber reference

/-- `_workflow_resolve_reference_value` -/
def workflowResolveReferenceValue (reference : V) (currentText : String) (state context : V) : Eval V V :=
  if py.isNone reference then pure py.none
  else if isPlain py reference then pure reference
  else if strip (py.text reference) = "" then pure py.none
  else
    let token := referenceToken py reference
    if token = "context_text" ∨ token = "result_text" then pure (py.str currentText)
    else if dotted token then walk py (rootValue py state context ((split token).headD "")) (split token).tail
    else workflowEvaluateExpressionValue py parse currentText state token context

/-! ### What is read -/

/-- An attribute that is not private to the language. -/
def Open (read : V × String) : Prop := dunder read.2 = false

section Expressions

variable {py scope parse}

theorem open_resolveName (name : String) : Traced.Only Open (resolveName py scope name) := by
  unfold resolveName
  split
  · exact Traced.only_pure _
  · exact (Traced.only_pure _).ite ((Traced.only_pure _).ite ((Traced.only_pure _).ite (Traced.only_raise _)))

theorem open_resolveAttribute (value : V) (attr : String) : Traced.Only Open (resolveAttribute py value attr) := by
  unfold resolveAttribute
  by_cases h : dunder attr
  · rw [if_pos h]
    exact Traced.only_raise _
  · rw [if_neg h]
    exact (Traced.only_pure _).ite (Traced.only_emit.mpr (Bool.not_eq_true _ |>.mp h))

theorem open_resolveSubscript (value key : V) : Traced.Only Open (resolveSubscript py value key) :=
  (Traced.only_silent _).ite (Traced.only_silent _)

mutual

/-- No node of an expression reads a private attribute. -/
theorem open_evaluate : ∀ node : Expr V, Traced.Only Open (evaluate py scope node)
  | .expression body => by
    rw [evaluate]
    exact open_evaluate body
  | .constant value => by
    rw [evaluate]
    exact Traced.only_pure value
  | .name id => by
    rw [evaluate]
    exact open_resolveName id
  | .attribute value attr => by
    rw [evaluate]
    exact (open_evaluate value).bind fun value => open_resolveAttribute value attr
  | .subscript value slice => by
    rw [evaluate]
    exact (open_evaluate value).bind fun value => (open_evaluate slice).bind fun key => open_resolveSubscript value key
  | .boolOp op values => by
    rw [evaluate]
    exact (open_evaluateAll values).bind fun values => Traced.only_silent _
  | .unaryOp op operand => by
    rw [evaluate]
    exact (open_evaluate operand).bind fun operand => Traced.only_silent _
  | .compare left comparisons => by
    rw [evaluate]
    exact (open_evaluate left).bind fun left => open_compareAll left comparisons
  | .list elts => by
    rw [evaluate]
    exact (open_evaluateAll elts).bind fun values => Traced.only_pure _
  | .tuple elts => by
    rw [evaluate]
    exact (open_evaluateAll elts).bind fun values => Traced.only_pure _
  | .dict items => by
    rw [evaluate]
    exact (open_evaluateItems items).bind fun entries => Traced.only_silent _
  | .other type => by
    rw [evaluate]
    exact Traced.only_raise _

theorem open_evaluateAll : ∀ nodes : List (Expr V), Traced.Only Open (evaluateAll py scope nodes)
  | [] => by
    rw [evaluateAll]
    exact Traced.only_pure _
  | node :: nodes => by
    rw [evaluateAll]
    exact (open_evaluate node).bind fun value => (open_evaluateAll nodes).bind fun values => Traced.only_pure _

theorem open_evaluateItems : ∀ items : List (Expr V × Expr V), Traced.Only Open (evaluateItems py scope items)
  | [] => by
    rw [evaluateItems]
    exact Traced.only_pure _
  | (key, value) :: items => by
    rw [evaluateItems]
    exact (open_evaluate key).bind fun key => (open_evaluate value).bind fun value =>
      (open_evaluateItems items).bind fun entries => Traced.only_pure _

theorem open_compareAll (left : V) :
    ∀ comparisons : List (Comparator × Expr V), Traced.Only Open (compareAll py scope left comparisons)
  | [] => by
    rw [compareAll]
    exact Traced.only_pure _
  | (operator, comparator) :: comparisons => by
    rw [compareAll]
    refine (open_evaluate comparator).bind fun right => (Traced.only_silent _).bind fun holds => ?_
    exact (open_compareAll right comparisons).ite (Traced.only_pure _)

end

theorem open_expression (currentText : String) (state : V) (expression : String) (context : V) :
    Traced.Only Open (workflowEvaluateExpressionValue py parse currentText state expression context) :=
  (Traced.only_silent _).bind fun node => open_evaluate node

end Expressions

section References

/-- A part leads from a value to the next: to an entry, to an item or to an attribute. -/
inductive Step (value : V) (part : String) : V → Prop
  | entry (hdict : py.isDict value) (hthere : py.isNone (py.entry value part) = false) :
    Step value part (py.entry value part)
  | item {item : V} (hdict : py.isDict value = false) (hlist : py.isList value)
    (hitem : (py.parseInt part).bind (py.index value) = some item) (hthere : py.isNone item = false) :
    Step value part item
  | found {found : V} (hdict : py.isDict value = false) (hlist : py.isList value = false)
    (hfound : getattrOrNone py value part = .ok found) (hthere : py.isNone found = false) : Step value part found

/-- The value that a path of attributes and entries ends at. -/
inductive Leads : V → List String → V → Prop
  | here (value : V) : Leads value [] value
  | step {value next last : V} {part : String} {parts : List String} (hstep : Step py value part next)
    (h : Leads next parts last) : Leads value (part :: parts) last

/-- On the way of the parts from the value, a part that begins with two underscores meets a value that is neither a
    dictionary nor a list. -/
def Exposed (value : V) (parts : List String) : Prop :=
  ∃ front part back last, parts = front ++ part :: back ∧ Leads py value front last ∧
    py.isDict last = false ∧ py.isList last = false ∧ dunder part

variable {py}

theorem not_exposed_nil (value : V) : ¬Exposed py value [] := by
  rintro ⟨front, part, back, last, heq, -⟩
  cases front <;> cases heq

/-- A part is the one that meets such a value, or it leads on. -/
theorem exposed_cons {value : V} {part : String} {parts : List String} :
    Exposed py value (part :: parts) ↔
      (py.isDict value = false ∧ py.isList value = false ∧ dunder part) ∨
        ∃ next, Step py value part next ∧ Exposed py next parts := by
  constructor
  · rintro ⟨front, found, back, last, heq, hleads, hlast⟩
    cases hleads with
    | here =>
      obtain ⟨rfl, rfl⟩ := List.cons.inj heq
      exact .inl hlast
    | step hstep hleads =>
      obtain ⟨rfl, rfl⟩ := List.cons.inj heq
      exact .inr ⟨_, hstep, _, found, back, last, rfl, hleads, hlast⟩
  · rintro (hvalue | ⟨next, hstep, front, found, back, last, rfl, hleads, hlast⟩)
    · exact ⟨[], part, parts, value, rfl, .here value, hvalue⟩
    · exact ⟨part :: front, found, back, last, rfl, .step hstep hleads, hlast⟩

theorem step_dict {value next : V} {part : String} (h : py.isDict value) :
    Step py value part next ↔ py.isNone (py.entry value part) = false ∧ next = py.entry value part := by
  constructor
  · rintro (⟨-, hthere⟩ | ⟨hdict, -⟩ | ⟨hdict, -⟩)
    · exact ⟨hthere, rfl⟩
    · cases hdict.symm.trans h
    · cases hdict.symm.trans h
  · rintro ⟨hthere, rfl⟩
    exact .entry h hthere

theorem step_list {value next : V} {part : String} (hdict : py.isDict value = false) (h : py.isList value) :
    Step py value part next ↔
      (py.parseInt part).bind (py.index value) = some next ∧ py.isNone next = false := by
  constructor
  · rintro (⟨hd, -⟩ | ⟨-, -, hitem, hthere⟩ | ⟨-, hlist, -⟩)
    · cases hdict.symm.trans hd
    · exact ⟨hitem, hthere⟩
    · cases hlist.symm.trans h
  · rintro ⟨hitem, hthere⟩
    exact .item hdict h hitem hthere

theorem step_other {value next : V} {part : String} (hdict : py.isDict value = false)
    (hlist : py.isList value = false) :
    Step py value part next ↔ getattrOrNone py value part = .ok next ∧ py.isNone next = false := by
  constructor
  · rintro (⟨hd, -⟩ | ⟨-, hl, -⟩ | ⟨-, -, hfound, hthere⟩)
    · cases hdict.symm.trans hd
    · cases hlist.symm.trans hl
    · exact ⟨hfound, hthere⟩
  · rintro ⟨hfound, hthere⟩
    exact .found hdict hlist hfound hthere

/-- What a walk goes on with, if it goes on. -/
theorem only_next {value : V} {m : Eval V V} :
    Traced.Only Open (if py.isNone value then pure py.none else m) ↔
      (py.isNone value = false → Traced.Only Open m) := by
  cases h : py.isNone value
  · simp
  · simp [Traced.only_pure]

/-- A walk reads only what is open exactly if nothing is exposed on it. -/
theorem only_walk (parts : List String) (value : V) :
    Traced.Only Open (walk py value parts) ↔ ¬Exposed py value parts := by
  induction parts generalizing value with
  | nil => exact iff_of_true (Traced.only_pure value) (not_exposed_nil value)
  | cons part parts ih =>
    rw [walk, exposed_cons]
    cases hdict : py.isDict value with
    | true =>
      simp only [if_true, only_next, ih, step_dict hdict]
      grind
    | false =>
      cases hlist : py.isList value with
      | true =>
        simp only [step_list hdict hlist]
        cases hitem : (py.parseInt part).bind (py.index value) with
        | none => simp [Traced.only_pure]
        | some item => simp [only_next, ih]
      | false =>
        simp only [step_other hdict hlist, Bool.false_eq_true, if_false, Traced.only_bind, Traced.only_emit, only_next,
          ih, Open]
        constructor
        · rintro ⟨hpart, hnext⟩ (⟨-, -, hdunder⟩ | ⟨next, ⟨hfound, hthere⟩, hexposed⟩)
          · cases hpart.symm.trans hdunder
          · exact hnext next hfound hthere hexposed
        · intro h
          refine ⟨?_, fun next hfound hthere hexposed => h (.inr ⟨next, ⟨hfound, hthere⟩, hexposed⟩)⟩
          exact Bool.eq_false_iff.mpr fun hdunder => h (.inl ⟨trivial, trivial, hdunder⟩)

/-- A reference that is a dotted path into the scope, on which a part that begins with two underscores meets a value
    that is neither a dictionary nor a list. -/
def Unguarded (py : Python V) (reference state context : V) : Prop :=
  isPlain py reference = false ∧ strip (py.text reference) ≠ "" ∧ dotted (referenceToken py reference) ∧
    Exposed py (rootValue py state context ((split (referenceToken py reference)).headD ""))
      (split (referenceToken py reference)).tail

theorem not_dotted_text : dotted "context_text" = false ∧ dotted "result_text" = false := by decide

/-- So does a reference, exactly if it is guarded. -/
theorem only_reference (parse : String → Except Raised (Expr V)) (reference : V) (currentText : String)
    (state context : V) :
    Traced.Only Open (workflowResolveReferenceValue py parse reference currentText state context) ↔
      ¬Unguarded py reference state context := by
  unfold workflowResolveReferenceValue Unguarded
  cases hplain : isPlain py reference with
  | true => exact iff_of_true ((Traced.only_pure _).ite (Traced.only_pure _)) (by simp)
  | false =>
    have hnone : py.isNone reference = false := by
      simp only [isPlain, Bool.or_eq_false_iff] at hplain
      exact hplain.1.1.1
    rw [hnone, if_neg Bool.false_ne_true, if_neg Bool.false_ne_true]
    by_cases hempty : strip (py.text reference) = ""
    · rw [if_pos hempty]
      exact iff_of_true (Traced.only_pure _) fun h => h.2.1 hempty
    · rw [if_neg hempty]
      dsimp only
      generalize referenceToken py reference = token
      by_cases htext : token = "context_text" ∨ token = "result_text"
      · rw [if_pos htext]
        refine iff_of_true (Traced.only_pure _) ?_
        rintro ⟨-, -, hdotted, -⟩
        rcases htext with rfl | rfl
        · cases not_dotted_text.1.symm.trans hdotted
        · cases not_dotted_text.2.symm.trans hdotted
      · rw [if_neg htext]
        cases hdotted : dotted token with
        | true =>
          rw [if_pos rfl, only_walk]
          simp [hempty]
        | false =>
          rw [if_neg Bool.false_ne_true]
          exact iff_of_true (open_expression _ _ _ _) (by simp)

end References

/-- No expression reads a private attribute, and a reference reads one just when it is a dotted path on which a part
    that begins with two underscores meets a value that is neither a dictionary nor a list. -/
theorem workflow_reads (currentText : String) (state context : V) :
    (∀ expression, Traced.Only Open (workflowEvaluateExpressionValue py parse currentText state expression context)) ∧
      ∀ reference, Traced.Only Open (workflowResolveReferenceValue py parse reference currentText state context) ↔
        ¬Unguarded py reference state context :=
  ⟨fun expression => open_expression currentText state expression context,
    fun reference => only_reference parse reference currentText state context⟩

/-! ### A reference into a text -/

/-- Texts, the types, and dictionaries by text, which is as much as the reference below meets. -/
inductive Obj where
  | none
  | bool (value : Bool)
  | str (value : String)
  | dict (items : List (String × Obj))
  | type (name : String)

def Obj.typeName : Obj → String
  | .none => "NoneType"
  | .bool _ => "bool"
  | .str _ => "str"
  | .dict _ => "dict"
  | .type _ => "type"

def Obj.entry : Obj → String → Obj
  | .dict items, name => (items.lookup name).getD .none
  | _, _ => .none

def Obj.asStr : Obj → Option String
  | .str value => some value
  | _ => Option.none

/-- A `TypeError` that names the type. -/
def unsupported {α : Type} (value : Obj) : Except Raised α := .error (.other s!"TypeError: {value.typeName}")

/-- The operations on these objects. -/
def python : Python Obj where
  none := .none
  bool := .bool
  str := .str
  list _ := .type "list"
  tuple _ := .type "tuple"
  dict
    | [] => .ok (.dict [])
    | entries => .ok (.dict (entries.filterMap fun (key, value) => key.asStr.map fun name => (name, value)))
  isNone
    | .none => true
    | _ => false
  isDict
    | .dict _ => true
    | _ => false
  isList _ := false
  isNumber
    | .bool _ => true
    | _ => false
  asStr := Obj.asStr
  text
    | .str value => value
    | value => value.typeName
  parseInt _ := Option.none
  truthy
    | .none => .ok false
    | .bool value => .ok value
    | .str value => .ok (value ≠ "")
    | .dict items => .ok !items.isEmpty
    | .type _ => .ok true
  items
    | .dict items => items.map fun (name, value) => (.str name, value)
    | _ => []
  entry := Obj.entry
  get value
    | .str name => .ok (value.entry name)
    | _ => .ok .none
  item value _ := unsupported value
  index _ _ := Option.none
  getattr value name :=
    if name = "__class__" then .ok (.type value.typeName)
    else .error (.attributeError s!"'{value.typeName}' object has no attribute '{name}'")
  compare _ value _ := unsupported value
  pos := unsupported
  neg := unsupported

/-- The reading of a reference, with a text in the state and no expression that parses. -/
def textClass (reference : String) : Eval Obj Obj :=
  workflowResolveReferenceValue python (fun _ => .error (.other "SyntaxError")) (.str reference) ""
    (.dict [("last_text", .str "a")]) (.dict [])

/-- A reference may read the class of the text, which is not open to it. -/
theorem reads_class_of_text : ¬∀ reference, Traced.Only Open (textClass reference) := by
  intro h
  have hall : (textClass "state.last_text.__class__").events.all (fun read => !dunder read.2) := by
    rw [List.all_eq_true]
    intro read hread
    rw [h _ read hread, Bool.not_false]
  revert hall
  decide

end Empyralis.Server.WorkflowExpressions
