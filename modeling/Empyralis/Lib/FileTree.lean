import Mathlib.Data.List.Basic
import Mathlib.Data.List.Induction

/-! Path resolution in a tree of directories, files and symbolic links.

    A location is the list of the names that lead to it from the root. A path is resolved step by step:
    `advance` is one step, which takes a step off the path or puts the target of a link before the
    rest. `resolveFrom` goes on until the path is used up, and may be told to accept that the last name
    is missing, as a call that creates the file does. `resolve_induction` is the induction over the
    steps. -/

namespace Empyralis

abbrev Location := List String

namespace FileTree

/-- A path, split at the slashes. The empty text has no steps. -/
structure Path where
  absolute : Bool
  steps : List String
  deriving DecidableEq

inductive Node where
  | directory | file
  | link (target : Path)
  deriving DecidableEq

/-- The step stays where it is. -/
def isNoop (step : String) : Bool := step = "" || step = "."

def isName (step : String) : Bool := !isNoop step && step ≠ ".."

end FileTree

open FileTree

structure FileTree where
  node : Location → Option Node
  root : node [] = some .directory
  parent : ∀ dir name, node (dir ++ [name]) ≠ none → node dir = some .directory
  named : ∀ dir name, node (dir ++ [name]) ≠ none → isName name

namespace FileTree

def Path.isEmpty (path : Path) : Bool := !path.absolute && path.steps = []

/-- Where the resolution of the path starts. -/
def Path.origin (path : Path) (dir : Location) : Location := if path.absolute then [] else dir

variable (tree : FileTree)

/-- The loop over the steps of a path; `follow` goes on behind a link. -/
def walk (create : Bool) (follow : Location → List String → Option Location) :
    Location → List String → Option Location
  | dir, [] => some dir
  | dir, step :: rest =>
    if tree.node dir ≠ some .directory then none
    else if isNoop step then walk create follow dir rest
    else if step = ".." then walk create follow dir.dropLast rest
    else
      match tree.node (dir ++ [step]) with
      | none => if create ∧ rest = [] then some (dir ++ [step]) else none
      | some (.link target) =>
        if target.isEmpty then none else follow (target.origin dir) (target.steps ++ rest)
      | some _ => walk create follow (dir ++ [step]) rest

/-- Resolution that follows at most `limit` links. With `create` the last name may be missing. -/
def resolveFrom (create : Bool) : Nat → Location → List String → Option Location
  | 0 => tree.walk create fun _ _ => none
  | limit + 1 => tree.walk create (resolveFrom create limit)

/-- The empty path names nothing. -/
def resolve (create : Bool) (limit : Nat) (cwd : Location) (path : Path) : Option Location :=
  if path.isEmpty then none else tree.resolveFrom create limit (path.origin cwd) path.steps

/-- One step of a resolution: the links that may still be followed, the next location, and the steps
    that come before the rest. -/
def advance (limit : Nat) (dir : Location) (step : String) :
    Option (Nat × Location × List String) :=
  if tree.node dir ≠ some .directory then none
  else if isNoop step then some (limit, dir, [])
  else if step = ".." then some (limit, dir.dropLast, [])
  else
    match tree.node (dir ++ [step]), limit with
    | none, _ => none
    | some (.link target), limit + 1 =>
      if target.isEmpty then none else some (limit, target.origin dir, target.steps)
    | some (.link _), 0 => none
    | some _, limit => some (limit, dir ++ [step], [])

/-- The step would create its name. -/
def Creates (dir : Location) (step : String) : Prop :=
  tree.node dir = some .directory ∧ isName step ∧ tree.node (dir ++ [step]) = none

instance (dir : Location) (step : String) : Decidable (tree.Creates dir step) :=
  inferInstanceAs (Decidable (_ ∧ _ ∧ _))

/-- A call creates a directory under the last name of the path, behind which slashes may stand. It
    follows no link there. -/
def Makes (limit : Nat) (cwd : Location) (path : Path) (loc : Location) : Prop :=
  ∃ before name after dir, path.steps = before ++ name :: after ∧ (∀ step ∈ after, step = "") ∧
    tree.resolveFrom false limit (path.origin cwd) before = some dir ∧ tree.Creates dir name ∧
    loc = dir ++ [name]

/-- A call that opens or creates what the path names reaches this location. -/
def Reaches (limit : Nat) (cwd : Location) (path : Path) (loc : Location) : Prop :=
  tree.resolve true limit cwd path = some loc ∨ tree.Makes limit cwd path loc

variable {tree} {create : Bool} {limit limit' : Nat} {dir dir' loc : Location} {step : String}
  {steps rest before more : List String}

@[simp] theorem resolveFrom_nil : tree.resolveFrom create limit dir [] = some dir := by
  cases limit <;> rfl

/-- A path is resolved step by step. -/
theorem resolveFrom_cons : tree.resolveFrom create limit dir (step :: rest) =
    match tree.advance limit dir step with
    | some (limit', dir', before) => tree.resolveFrom create limit' dir' (before ++ rest)
    | none => if create ∧ rest = [] ∧ tree.Creates dir step then some (dir ++ [step]) else none := by
  by_cases hdir : tree.node dir = some .directory
  · by_cases hnoop : isNoop step
    · cases limit <;> simp [resolveFrom, walk, advance, hdir, hnoop]
    · by_cases hup : step = ".."
      · subst hup
        cases limit <;> simp [resolveFrom, walk, advance, hdir, isNoop]
      · have hname : isName step := by simp [isName, hnoop, hup]
        cases hnode : tree.node (dir ++ [step]) with
        | none =>
          have hcreates : tree.Creates dir step := ⟨hdir, hname, hnode⟩
          cases limit <;> simp [resolveFrom, walk, advance, hdir, hnoop, hup, hnode, hcreates]
        | some node =>
          have hcreates : ¬ tree.Creates dir step := fun h => by simp [h.2.2] at hnode
          cases node with
          | link target =>
            cases limit with
            | zero => simp [resolveFrom, walk, advance, hdir, hnoop, hup, hnode, hcreates]
            | succ limit =>
              by_cases hempty : target.isEmpty <;>
                simp [resolveFrom, walk, advance, hdir, hnoop, hup, hnode, hcreates, hempty]
          | directory | file =>
            cases limit <;> simp [resolveFrom, walk, advance, hdir, hnoop, hup, hnode]
  · have hcreates : ¬ tree.Creates dir step := fun h => hdir h.1
    cases limit <;> simp [resolveFrom, walk, advance, hdir, hcreates]

theorem resolveFrom_advance (h : tree.advance limit dir step = some (limit', dir', before)) :
    tree.resolveFrom create limit dir (step :: rest) =
      tree.resolveFrom create limit' dir' (before ++ rest) := by
  rw [resolveFrom_cons, h]

theorem advance_creates (h : tree.Creates dir step) : tree.advance limit dir step = none := by
  obtain ⟨hdir, hname, hnode⟩ := h
  simp only [isName, Bool.and_eq_true, Bool.not_eq_true', decide_eq_true_eq] at hname
  simp [advance, hdir, hname.1, hname.2, hnode]

/-- What a resolution that succeeds does with its first step. -/
theorem resolveFrom_some : tree.resolveFrom create limit dir (step :: rest) = some loc ↔
    (∃ limit' dir' before, tree.advance limit dir step = some (limit', dir', before) ∧
      tree.resolveFrom create limit' dir' (before ++ rest) = some loc) ∨
    (create ∧ rest = [] ∧ tree.Creates dir step ∧ dir ++ [step] = loc) := by
  rw [resolveFrom_cons]
  cases hadvance : tree.advance limit dir step with
  | none =>
    constructor
    · intro h
      split_ifs at h with hcreate
      exact Or.inr ⟨hcreate.1, hcreate.2.1, hcreate.2.2, Option.some.inj h⟩
    · rintro (⟨limit', dir', before, h, -⟩ | ⟨hcreate, hrest, hcreates, rfl⟩)
      · exact absurd h (by simp)
      · rw [if_pos ⟨hcreate, hrest, hcreates⟩]
  | some next =>
    obtain ⟨limit', dir', before⟩ := next
    constructor
    · exact fun h => Or.inl ⟨limit', dir', before, rfl, h⟩
    · rintro (⟨limit'', dir'', before', h, hresolve⟩ | ⟨-, -, hcreates, -⟩)
      · obtain ⟨rfl, rfl, rfl⟩ := by simpa using h
        exact hresolve
      · rw [advance_creates hcreates] at hadvance
        exact absurd hadvance (by simp)

/-- A step leads from a directory to what is no link, and follows a link or lengthens nothing. -/
theorem advance_some (h : tree.advance limit dir step = some (limit', dir', before)) :
    tree.node dir = some .directory ∧
      (tree.node dir' = some .directory ∨ tree.node dir' = some .file) ∧
      (limit' < limit ∨ (limit' = limit ∧ before = [])) := by
  have hparent : ∀ d : Location, tree.node d = some .directory →
      tree.node d.dropLast = some .directory := by
    intro d hd
    rcases List.eq_nil_or_concat d with rfl | ⟨d, name, rfl⟩
    · exact hd
    · rw [List.concat_eq_append, List.dropLast_concat]
      exact tree.parent d name (by simp [← List.concat_eq_append, hd])
  unfold advance at h
  split_ifs at h with hdir hnoop hup
  · obtain ⟨rfl, rfl, rfl⟩ := by simpa using h
    rw [not_not] at hdir
    exact ⟨hdir, Or.inl hdir, Or.inr ⟨rfl, rfl⟩⟩
  · obtain ⟨rfl, rfl, rfl⟩ := by simpa using h
    rw [not_not] at hdir
    exact ⟨hdir, Or.inl (hparent _ hdir), Or.inr ⟨rfl, rfl⟩⟩
  · rw [not_not] at hdir
    split at h
    · simp at h
    · rename_i target limit hnode
      split_ifs at h with hempty
      obtain ⟨rfl, rfl, rfl⟩ := by simpa using h
      refine ⟨hdir, Or.inl ?_, Or.inl (Nat.lt_succ_self _)⟩
      unfold Path.origin
      split_ifs
      · exact tree.root
      · exact hdir
    · simp at h
    · rename_i links _ _ node hnode hlink hzero
      obtain ⟨rfl, rfl, rfl⟩ := by simpa using h
      refine ⟨hdir, ?_, Or.inr ⟨rfl, rfl⟩⟩
      cases node with
      | directory => exact Or.inl hnode
      | file => exact Or.inr hnode
      | link target =>
        cases links with
        | zero => exact (hzero target rfl rfl).elim
        | succ limit => exact (hlink target limit rfl rfl).elim

/-- The step of a name goes into what stands there, unless it is a link. -/
theorem advance_name (hname : isName step)
    (h : tree.advance limit dir step = some (limit', dir', before)) :
    (dir' = dir ++ [step] ∧ before = []) ∨ ∃ target, tree.node (dir ++ [step]) = some (.link target) := by
  simp only [isName, Bool.and_eq_true, Bool.not_eq_true', decide_eq_true_eq] at hname
  unfold advance at h
  split_ifs at h with hdir hnoop hup
  · exact absurd hnoop (by simp [hname.1])
  · exact absurd hup hname.2
  · cases hnode : tree.node (dir ++ [step]) with
    | none => simp [hnode] at h
    | some node =>
      cases node with
      | link target => exact Or.inr ⟨target, rfl⟩
      | directory | file =>
        simp only [hnode, Option.some.injEq, Prod.mk.injEq] at h
        exact Or.inl ⟨h.2.1.symm, h.2.2.symm⟩

theorem resolve_induction (tree : FileTree) {P : Nat → Location → List String → Prop}
    (nil : ∀ limit dir, P limit dir [])
    (cons : ∀ limit dir step rest,
      (∀ limit' dir' before, tree.advance limit dir step = some (limit', dir', before) →
        P limit' dir' (before ++ rest)) → P limit dir (step :: rest))
    (limit : Nat) (dir : Location) (steps : List String) : P limit dir steps := by
  induction limit using Nat.strongRecOn generalizing dir steps with
  | _ limit ih =>
    induction steps generalizing dir with
    | nil => exact nil limit dir
    | cons step rest ihsteps =>
      refine cons limit dir step rest fun limit' dir' before h => ?_
      rcases (advance_some h).2.2 with hlt | ⟨rfl, rfl⟩
      · exact ih limit' hlt dir' (before ++ rest)
      · exact ihsteps dir'

/-- A path whose first part exists goes on from where that part leads. -/
theorem resolveFrom_append (h : tree.resolveFrom false limit dir steps = some loc) :
    ∃ limit', ∀ create more, tree.resolveFrom create limit dir (steps ++ more) =
      tree.resolveFrom create limit' loc more := by
  induction limit, dir, steps using resolve_induction tree with
  | nil limit dir =>
    rw [resolveFrom_nil, Option.some.injEq] at h
    exact ⟨limit, fun create more => by rw [List.nil_append, h]⟩
  | cons limit dir step rest ih =>
    obtain ⟨limit', dir', before, hadvance, hrest⟩ | ⟨hcreate, -⟩ := resolveFrom_some.mp h
    · obtain ⟨limit'', happend⟩ := ih limit' dir' before hadvance hrest
      refine ⟨limit'', fun create more => ?_⟩
      rw [List.cons_append, resolveFrom_advance hadvance, ← List.append_assoc, happend]
    · exact absurd hcreate (by simp)

theorem resolveFrom_create (h : tree.resolveFrom false limit dir steps = some loc) :
    tree.resolveFrom create limit dir steps = some loc := by
  obtain ⟨limit', happend⟩ := resolveFrom_append h
  rw [← List.append_nil steps, happend, resolveFrom_nil]

/-- The directory part of a path that can be resolved or created exists. -/
theorem resolveFrom_prefix (hmore : more ≠ [])
    (h : tree.resolveFrom create limit dir (steps ++ more) = some loc) :
    ∃ loc', tree.resolveFrom false limit dir steps = some loc' := by
  induction limit, dir, steps using resolve_induction tree with
  | nil limit dir => exact ⟨dir, resolveFrom_nil⟩
  | cons limit dir step rest ih =>
    rw [List.cons_append] at h
    obtain ⟨limit', dir', before, hadvance, hrest⟩ | ⟨-, hnil, -⟩ := resolveFrom_some.mp h
    · rw [← List.append_assoc] at hrest
      rw [resolveFrom_advance hadvance]
      exact ih limit' dir' before hadvance hrest
    · exact absurd (List.append_eq_nil_iff.mp hnil).2 hmore

/-- A path leads to what is no link. -/
theorem resolveFrom_stands (h : tree.resolveFrom false limit dir steps = some loc)
    (hdir : steps = [] → tree.node dir = some .directory ∨ tree.node dir = some .file) :
    tree.node loc = some .directory ∨ tree.node loc = some .file := by
  induction limit, dir, steps using resolve_induction tree with
  | nil limit dir =>
    rw [resolveFrom_nil, Option.some.injEq] at h
    exact h ▸ hdir rfl
  | cons limit dir step rest ih =>
    obtain ⟨limit', dir', before, hadvance, hrest⟩ | ⟨hcreate, -⟩ := resolveFrom_some.mp h
    · exact ih limit' dir' before hadvance hrest fun _ => (advance_some hadvance).2.1
    · exact absurd hcreate (by simp)

/-- A path that may create its last name leads to what exists or to a missing name of a directory. -/
theorem resolveFrom_created (h : tree.resolveFrom true limit dir steps = some loc) :
    tree.resolveFrom false limit dir steps = some loc ∨
      ∃ parent name, loc = parent ++ [name] ∧ tree.Creates parent name := by
  induction limit, dir, steps using resolve_induction tree with
  | nil limit dir => exact Or.inl (by rwa [resolveFrom_nil] at h ⊢)
  | cons limit dir step rest ih =>
    obtain ⟨limit', dir', before, hadvance, hrest⟩ | ⟨-, -, hcreates, rfl⟩ := resolveFrom_some.mp h
    · rw [resolveFrom_advance hadvance]
      exact ih limit' dir' before hadvance hrest
    · exact Or.inr ⟨dir, step, rfl, hcreates⟩

/-- A path with a first step or from the root leads to what is no link. -/
theorem resolve_stands {cwd : Location} {path : Path}
    (h : tree.resolve false limit cwd path = some loc) :
    tree.node loc = some .directory ∨ tree.node loc = some .file := by
  unfold resolve at h
  split_ifs at h with hempty
  refine resolveFrom_stands h fun hsteps => Or.inl ?_
  have habsolute : path.absolute := by simpa [Path.isEmpty, hsteps] using hempty
  rw [Path.origin, if_pos habsolute]
  exact tree.root

theorem resolve_created {cwd : Location} {path : Path}
    (hmissing : tree.resolve false limit cwd path = none)
    (h : tree.resolve true limit cwd path = some loc) :
    ∃ parent name, loc = parent ++ [name] ∧ tree.Creates parent name := by
  unfold resolve at hmissing h
  split_ifs at hmissing h
  exact (resolveFrom_created h).resolve_left (by simp [hmissing])

theorem node_ancestor (h : tree.node (dir ++ more) = some .directory) :
    tree.node dir = some .directory := by
  induction more using List.reverseRecOn with
  | nil => rwa [List.append_nil] at h
  | append_singleton more name ih =>
    rw [← List.append_assoc] at h
    exact ih (tree.parent _ name (by rw [h]; simp))

/-- The names of a directory lead to it, and the resolution goes on from there. -/
theorem resolveFrom_directory (more : List String) : ∀ (steps : List String) (dir : Location),
    tree.node (dir ++ steps) = some .directory →
    tree.resolveFrom create limit dir (steps ++ more) = tree.resolveFrom create limit (dir ++ steps) more
  | [], dir, _ => by rw [List.nil_append, List.append_nil]
  | step :: rest, dir, h => by
    rw [List.append_cons] at h ⊢
    have hnode : tree.node (dir ++ [step]) = some .directory := node_ancestor h
    have hname : isName step := tree.named dir step (by simp [hnode])
    simp only [isName, Bool.and_eq_true, Bool.not_eq_true', decide_eq_true_eq] at hname
    have hadvance : tree.advance limit dir step = some (limit, dir ++ [step], []) := by
      simp [advance, node_ancestor hnode, hname.1, hname.2, hnode]
    rw [List.cons_append, resolveFrom_advance hadvance, List.nil_append]
    exact resolveFrom_directory more rest _ h

theorem resolveFrom_self (steps : List String) (dir : Location) (h : tree.node (dir ++ steps) = some .directory) :
    tree.resolveFrom create limit dir steps = some (dir ++ steps) := by
  have hmore : tree.resolveFrom create limit dir (steps ++ []) = _ := resolveFrom_directory [] steps dir h
  rwa [List.append_nil, resolveFrom_nil] at hmore

theorem resolve_self {cwd : Location} (h : tree.node loc = some .directory) :
    tree.resolve create limit cwd ⟨true, loc⟩ = some loc :=
  resolveFrom_self loc [] h

/-- What stands somewhere is inside a directory with a name of another kind only with the directory. -/
theorem prefix_name (tree : FileTree) {root : Location} {name : String}
    (h : tree.node root ≠ tree.node (dir ++ [name])) :
    root <+: dir ++ [name] ↔ root <+: dir := by
  rw [List.prefix_concat_iff, or_iff_right]
  exact fun heq => h (heq ▸ rfl)

/-! ### Steps that stay where they are -/

/-- Some of the steps that stay where they are have been left out. -/
inductive Thins : List String → List String → Prop
  | nil : Thins [] []
  | keep (step : String) {steps thinned : List String} (h : Thins steps thinned) :
      Thins (step :: steps) (step :: thinned)
  | drop {step : String} {steps thinned : List String} (hnoop : isNoop step) (h : Thins steps thinned) :
      Thins (step :: steps) thinned

variable {thinned : List String}

theorem thins_filter : ∀ steps : List String, Thins steps (steps.filter (!isNoop ·))
  | [] => .nil
  | step :: steps => by
    cases hstep : isNoop step with
    | true =>
      rw [List.filter_cons_of_neg (by simp [hstep])]
      exact .drop hstep (thins_filter steps)
    | false =>
      rw [List.filter_cons_of_pos (by simp [hstep])]
      exact .keep step (thins_filter steps)

theorem thins_append : ∀ (before : List String), Thins rest thinned →
    Thins (before ++ rest) (before ++ thinned)
  | [], h => h
  | step :: before, h => .keep step (thins_append before h)

/-- Steps that stand still may be left out. -/
theorem resolveFrom_thins (hthins : Thins steps thinned)
    (h : tree.resolveFrom create limit dir steps = some loc) :
    tree.resolveFrom create limit dir thinned = some loc := by
  induction limit, dir, steps using resolve_induction tree generalizing thinned with
  | nil limit dir =>
    cases hthins
    exact h
  | cons limit dir step rest ih =>
    obtain ⟨limit', dir', before, hadvance, hrest⟩ | ⟨hcreate, rfl, hcreates, rfl⟩ := resolveFrom_some.mp h
    · cases hthins with
      | keep _ hthins =>
        rw [resolveFrom_advance hadvance]
        exact ih limit' dir' before hadvance (thins_append before hthins) hrest
      | drop hnoop hthins =>
        have hstay : tree.advance limit dir step = some (limit, dir, []) := by
          simp [advance, (advance_some hadvance).1, hnoop]
        rw [resolveFrom_advance hstay] at h
        exact ih limit dir [] hstay hthins h
    · -- a name that is created is the last step, and is kept
      cases hthins with
      | keep _ hthins =>
        cases hthins
        exact h
      | drop hnoop _ => exact absurd hcreates.2.1 (by simp [isName, hnoop])

theorem noop_of_thins_nil (h : Thins steps []) : ∀ step ∈ steps, isNoop step := by
  generalize hthinned : ([] : List String) = thinned at h
  induction h with
  | nil => simp
  | keep => exact absurd hthinned (by simp)
  | drop hnoop _ ih => exact List.forall_mem_cons.mpr ⟨hnoop, ih hthinned⟩

/-- Behind the last step that is left, the steps stay where they are. -/
theorem thins_concat (h : Thins steps (thinned ++ [step])) :
    ∃ before after, steps = before ++ step :: after ∧ Thins before thinned ∧
      ∀ s ∈ after, isNoop s := by
  generalize hall : thinned ++ [step] = all at h
  induction h generalizing thinned with
  | nil => exact absurd hall (by simp)
  | keep s h ih =>
    cases thinned with
    | nil =>
      obtain ⟨rfl, rfl⟩ := by simpa using hall
      exact ⟨[], _, rfl, .nil, noop_of_thins_nil h⟩
    | cons first thinned =>
      obtain ⟨rfl, htail⟩ := List.cons.inj hall
      obtain ⟨before, after, rfl, hbefore, hafter⟩ := ih htail
      exact ⟨first :: before, after, rfl, .keep first hbefore, hafter⟩
  | drop hnoop _ ih =>
    obtain ⟨before, after, rfl, hbefore, hafter⟩ := ih hall
    exact ⟨_ :: before, after, rfl, .drop hnoop hbefore, hafter⟩

theorem resolveFrom_noops (hnoops : ∀ step ∈ steps, isNoop step)
    (h : tree.resolveFrom create limit dir steps = some loc) : loc = dir := by
  induction steps with
  | nil => exact (Option.some.inj (resolveFrom_nil.symm.trans h)).symm
  | cons step rest ih =>
    obtain ⟨hnoop, hrest⟩ := List.forall_mem_cons.mp hnoops
    obtain ⟨limit', dir', before, hadvance, hresolve⟩ | ⟨-, -, hcreates, -⟩ := resolveFrom_some.mp h
    · have hstay : tree.advance limit dir step = some (limit, dir, []) := by
        simp [advance, (advance_some hadvance).1, hnoop]
      rw [resolveFrom_advance hstay] at h
      exact ih hrest h
    · exact absurd hcreates.2.1 (by simp [isName, hnoop])

/-- The last name of a list of steps, behind which all stay where they are, is in one place. -/
theorem last_name_unique {name name' : String} {before' after after' : List String}
    (h : before ++ name :: after = before' ++ name' :: after') (hname : isName name)
    (hname' : isName name') (hafter : ∀ step ∈ after, isNoop step)
    (hafter' : ∀ step ∈ after', isNoop step) : before = before' ∧ name = name' := by
  have hne : ∀ {s : String}, isName s → ¬ isNoop s := fun hs => by simp_all [isName]
  rcases List.append_eq_append_iff.mp h with ⟨mid, rfl, hmid⟩ | ⟨mid, rfl, hmid⟩
  · cases mid with
    | nil => exact ⟨by simp, (List.cons.inj hmid).1⟩
    | cons first mid =>
      have hmem : name' ∈ after := by
        rw [(List.cons.inj hmid).2]
        exact List.mem_append_right _ List.mem_cons_self
      exact absurd (hafter name' hmem) (hne hname')
  · cases mid with
    | nil => exact ⟨by simp, (List.cons.inj hmid).1.symm⟩
    | cons first mid =>
      have hmem : name ∈ after' := by
        rw [(List.cons.inj hmid).2]
        exact List.mem_append_right _ List.mem_cons_self
      exact absurd (hafter' name hmem) (hne hname)

end FileTree

end Empyralis
