import Empyralis.Kernel.Protocol
import Empyralis.Lib.FileTree

/-! The path guard of the kernel: `check_path_containment_command`.

    The file system is a tree that does not change meanwhile, and every part of it may be read. `limit`
    is the number of links that the system follows in one path, and `cwd` the working directory. -/

namespace Empyralis.Kernel.PathGuard
open FileTree

/-- `PathBuf::from` -/
def pathOf (text : String) : Path where
  absolute := text.toList.head? = some '/'
  steps := if text = "" then [] else (text.toList.splitOn '/').map String.ofList

/-- `Path::components`: of the steps that stay where they are only a dot in front is kept. -/
def components (path : Path) : List String :=
  match path.absolute, path.steps with
  | false, "." :: steps => "." :: steps.filter (!isNoop ·)
  | _, steps => steps.filter (!isNoop ·)

/-- `Path::parent` -/
def parent (path : Path) : Option Path :=
  if components path = [] then none else some ⟨path.absolute, (components path).dropLast⟩

/-- `Path::file_name` -/
def fileName (path : Path) : Option String := (components path).getLast?.filter (isName ·)

variable (tree : FileTree) (limit : Nat) (cwd : Location)

/-- `fs::canonicalize`; `Path::exists` asks whether there is an answer. -/
def canonicalize (path : Path) : Option Location := tree.resolve false limit cwd path

def canonicalCandidate (path : Path) : Except String Location :=
  match canonicalize tree limit cwd path with
  | some candidate => .ok candidate
  | none =>
    match parent path, fileName path with
    | none, _ => .error "path_parent_missing"
    | some _, none => .error "path_file_name_missing"
    | some parent, some fileName =>
      match canonicalize tree limit cwd parent with
      | none => .error "path_parent_invalid"
      | some canonicalParent => .ok (canonicalParent ++ [fileName])

inductive Reply where
  | block (reason : String)
  | allow (canonicalPath allowedRoot : Location)
  deriving DecidableEq

/-- The loop over the blocked roots: the reason for which one of them blocks. -/
def blockedReason (candidate : Location) : List Path → Option String
  | [] => none
  | root :: roots =>
    match canonicalize tree limit cwd root with
    | some root =>
      if root <+: candidate then some "path_blocked_by_root" else blockedReason candidate roots
    | none => some "blocked_root_invalid"

/-- The loop over the allowed roots. -/
def allowedReply (candidate : Location) : List Path → Reply
  | [] => .block "path_outside_allowed_roots"
  | root :: roots =>
    match canonicalize tree limit cwd root with
    | some root => if root <+: candidate then .allow candidate root else allowedReply candidate roots
    | none => .block "allowed_root_invalid"

def checkPathContainment (path : Path) (allowedRoots blockedRoots : List Path) : Reply :=
  if allowedRoots = [] then .block "allowed_roots_missing"
  else
    match canonicalCandidate tree limit cwd path with
    | .error reason => .block reason
    | .ok candidate =>
      match blockedReason tree limit cwd candidate blockedRoots with
      | some reason => .block reason
      | none => allowedReply tree limit cwd candidate allowedRoots

def checkPathContainmentCommand (input : Json) : Reply :=
  match stringField input "path" with
  | none => .block "path_missing"
  | some rawPath =>
    checkPathContainment tree limit cwd (pathOf rawPath)
      ((stringVecField input "allowed_roots").map pathOf)
      ((stringVecField input "blocked_roots").map pathOf)

def Allows (path : Path) (allowedRoots blockedRoots : List Path) : Prop :=
  ∃ candidate root, checkPathContainment tree limit cwd path allowedRoots blockedRoots =
    .allow candidate root

/-- The location is inside an allowed root and outside every blocked root. -/
def Contained (allowedRoots blockedRoots : List Path) (loc : Location) : Prop :=
  (∃ path ∈ allowedRoots, ∃ root, canonicalize tree limit cwd path = some root ∧ root <+: loc) ∧
    ∀ path ∈ blockedRoots, ∀ root, canonicalize tree limit cwd path = some root → ¬ root <+: loc

/-- The path is a link that dangles, through which a file would be created in another directory. -/
def LeadsElsewhere (path : Path) : Prop :=
  ∃ parentPath name dir target loc, parent path = some parentPath ∧ fileName path = some name ∧
    canonicalize tree limit cwd parentPath = some dir ∧
    tree.node (dir ++ [name]) = some (.link target) ∧ canonicalize tree limit cwd path = none ∧
    tree.resolve true limit cwd path = some loc ∧ loc.dropLast ≠ dir

variable {tree limit cwd} {path parentPath : Path} {allowedRoots blockedRoots : List Path}
  {candidate root dir loc : Location} {name : String}

theorem blockedReason_none : blockedReason tree limit cwd candidate blockedRoots = none ↔
    ∀ path ∈ blockedRoots, ∃ root, canonicalize tree limit cwd path = some root ∧
      ¬ root <+: candidate := by
  induction blockedRoots with
  | nil => simp [blockedReason]
  | cons path paths ih =>
    rw [List.forall_mem_cons, ← ih, blockedReason]
    cases hroot : canonicalize tree limit cwd path with
    | none => simp
    | some root => by_cases hpre : root <+: candidate <;> simp [hpre]

theorem allowedReply_allow {candidate' : Location}
    (h : allowedReply tree limit cwd candidate allowedRoots = .allow candidate' root) :
    ∃ path ∈ allowedRoots, canonicalize tree limit cwd path = some root ∧ root <+: candidate := by
  induction allowedRoots with
  | nil => simp [allowedReply] at h
  | cons path paths ih =>
    rw [allowedReply] at h
    cases hroot : canonicalize tree limit cwd path with
    | none => simp [hroot] at h
    | some first =>
      rw [hroot] at h
      by_cases hpre : first <+: candidate
      · simp only [if_pos hpre, Reply.allow.injEq] at h
        exact ⟨path, List.mem_cons_self, h.2 ▸ hroot, h.2 ▸ hpre⟩
      · simp only [if_neg hpre] at h
        obtain ⟨path', hpath, hrest⟩ := ih h
        exact ⟨path', List.mem_cons_of_mem _ hpath, hrest⟩

/-- What the guard has found where it allows a path. -/
theorem allows_candidate (h : Allows tree limit cwd path allowedRoots blockedRoots) :
    ∃ candidate, canonicalCandidate tree limit cwd path = .ok candidate ∧
      Contained tree limit cwd allowedRoots blockedRoots candidate ∧
      ∀ path ∈ blockedRoots, ∃ root, canonicalize tree limit cwd path = some root := by
  obtain ⟨candidate', root, h⟩ := h
  unfold checkPathContainment at h
  split_ifs at h
  split at h
  · exact absurd h (by simp)
  · rename_i candidate hcandidate
    split at h
    · exact absurd h (by simp)
    · rename_i hblocked
      rw [blockedReason_none] at hblocked
      obtain ⟨path, hpath, hroot, hpre⟩ := allowedReply_allow h
      refine ⟨candidate, hcandidate, ⟨⟨path, hpath, root, hroot, hpre⟩, ?_⟩, ?_⟩
      · intro path hpath root hroot
        obtain ⟨root', hroot', hpre⟩ := hblocked path hpath
        exact Option.some.inj (hroot'.symm.trans hroot) ▸ hpre
      · exact fun path hpath => (hblocked path hpath).imp fun _ h => h.1

/-! ### Where a path leads -/

theorem thins_components (path : Path) : Thins path.steps (components path) := by
  unfold components
  split
  · rename_i steps _ hsteps
    rw [hsteps]
    exact .keep "." (thins_filter steps)
  · exact thins_filter _

/-- A path that exists is opened where it is, and nothing is created. -/
theorem reaches_existing (hexists : canonicalize tree limit cwd path = some candidate)
    (hreaches : tree.Reaches limit cwd path loc) : loc = candidate := by
  unfold canonicalize resolve at hexists
  split_ifs at hexists with hempty
  rcases hreaches with hopen | ⟨before, name, after, dir, hsteps, -, hbefore, hcreates, -⟩
  · rw [resolve, if_neg hempty, resolveFrom_create hexists] at hopen
    exact (Option.some.inj hopen).symm
  · obtain ⟨limit', happend⟩ := resolveFrom_append hbefore
    rw [hsteps, happend] at hexists
    obtain ⟨limit'', dir', before', hadvance, -⟩ | ⟨hcreate, -⟩ := resolveFrom_some.mp hexists
    · rw [advance_creates hcreates] at hadvance
      exact absurd hadvance (by simp)
    · exact absurd hcreate (by simp)

/-- The steps of a path that has a parent and a name. -/
theorem steps_of_parent (hparent : parent path = some parentPath) (hname : fileName path = some name) :
    isName name ∧ parentPath.absolute = path.absolute ∧
      ∃ before after, path.steps = before ++ name :: after ∧ Thins before parentPath.steps ∧
        ∀ step ∈ after, isNoop step := by
  unfold parent at hparent
  split_ifs at hparent
  rw [Option.some.injEq] at hparent
  subst hparent
  obtain ⟨hlast, hisName⟩ := Option.filter_eq_some_iff.mp hname
  refine ⟨hisName, rfl, thins_concat ?_⟩
  rw [List.dropLast_append_getLast? name hlast]
  exact thins_components path

/-- A path that does not exist, with a parent that does, leads to its name there or is a link. -/
theorem reaches_missing (hparent : parent path = some parentPath) (hname : fileName path = some name)
    (hdir : canonicalize tree limit cwd parentPath = some dir)
    (hreaches : tree.Reaches limit cwd path loc) :
    loc = dir ++ [name] ∨ tree.resolve true limit cwd path = some loc ∧
      ∃ target, tree.node (dir ++ [name]) = some (.link target) := by
  obtain ⟨hisName, habsolute, before, after, hsteps, hthins, hafter⟩ := steps_of_parent hparent hname
  have horigin : parentPath.origin cwd = path.origin cwd := by rw [Path.origin, habsolute, Path.origin]
  unfold canonicalize resolve at hdir
  split_ifs at hdir
  rw [horigin] at hdir
  have hbefore : ∀ {d : Location}, tree.resolveFrom false limit (path.origin cwd) before = some d →
      d = dir := fun hd => Option.some.inj ((resolveFrom_thins hthins hd).symm.trans hdir)
  rcases hreaches with hopen | ⟨before', name', after', dir', hsteps', hafter', hdir', hcreates, rfl⟩
  · have hresolve := hopen
    unfold resolve at hresolve
    split_ifs at hresolve
    rw [hsteps] at hresolve
    obtain ⟨d, hd⟩ := resolveFrom_prefix (by simp) hresolve
    obtain rfl := hbefore hd
    obtain ⟨limit', happend⟩ := resolveFrom_append hd
    rw [happend] at hresolve
    obtain ⟨limit'', dir', before', hadvance, hrest⟩ | ⟨-, -, -, rfl⟩ := resolveFrom_some.mp hresolve
    · rcases advance_name hisName hadvance with ⟨rfl, rfl⟩ | hlink
      · exact Or.inl (resolveFrom_noops hafter hrest)
      · exact Or.inr ⟨hopen, hlink⟩
    · exact Or.inl rfl
  · have hslashes : ∀ step ∈ after', isNoop step := fun step hstep => by simp [isNoop, hafter' step hstep]
    obtain ⟨rfl, rfl⟩ := last_name_unique (hsteps.symm.trans hsteps') hisName hcreates.2.1 hafter hslashes
    exact Or.inl (by rw [hbefore hdir'])

/-- Two names of a directory, none of which leads to a root, are inside the same roots. -/
theorem contained_sibling {name' : String}
    (hlink : ∀ root, tree.node root = some .directory ∨ tree.node root = some .file →
      tree.node root ≠ tree.node (dir ++ [name]) ∧ tree.node root ≠ tree.node (dir ++ [name']))
    (h : Contained tree limit cwd allowedRoots blockedRoots (dir ++ [name])) :
    Contained tree limit cwd allowedRoots blockedRoots (dir ++ [name']) := by
  have hsame : ∀ {path : Path} {root : Location}, canonicalize tree limit cwd path = some root →
      (root <+: dir ++ [name'] ↔ root <+: dir ++ [name]) := by
    intro path root hroot
    obtain ⟨hname, hname'⟩ := hlink root (resolve_stands hroot)
    rw [prefix_name tree hname, prefix_name tree hname']
  obtain ⟨⟨path, hpath, root, hroot, hpre⟩, hblocked⟩ := h
  refine ⟨⟨path, hpath, root, hroot, (hsame hroot).mpr hpre⟩, ?_⟩
  exact fun path hpath root hroot hpre => hblocked path hpath root hroot ((hsame hroot).mp hpre)

/-- Where the path does not lead elsewhere, what is allowed is inside. -/
theorem contained_of_stays (hstays : ¬ LeadsElsewhere tree limit cwd path)
    (hallows : Allows tree limit cwd path allowedRoots blockedRoots)
    (hreaches : tree.Reaches limit cwd path loc) :
    Contained tree limit cwd allowedRoots blockedRoots loc := by
  obtain ⟨candidate, hcandidate, hcontained, -⟩ := allows_candidate hallows
  unfold canonicalCandidate at hcandidate
  split at hcandidate
  · rename_i existing hexists
    obtain rfl := Except.ok.inj hcandidate
    rwa [reaches_existing hexists hreaches]
  · rename_i hmissing
    split at hcandidate
    · exact absurd hcandidate (by simp)
    · exact absurd hcandidate (by simp)
    · rename_i parentPath name hparent hname
      split at hcandidate
      · exact absurd hcandidate (by simp)
      · rename_i dir hdir
        obtain rfl := Except.ok.inj hcandidate
        rcases reaches_missing hparent hname hdir hreaches with rfl | ⟨hopen, target, hlink⟩
        · exact hcontained
        · by_cases hloc : loc.dropLast = dir
          · obtain ⟨dir', name', rfl, hcreates⟩ := resolve_created hmissing hopen
            obtain rfl := List.dropLast_concat.symm.trans hloc
            refine contained_sibling (fun root hroot => ?_) hcontained
            rw [hlink, hcreates.2.2]
            rcases hroot with hroot | hroot <;> simp [hroot]
          · exact absurd ⟨parentPath, name, dir, target, loc, hparent, hname, hdir, hlink, hmissing,
              hopen, hloc⟩ hstays

/-- A dangling link that leads elsewhere gets past the guard with the roots chosen for it. -/
theorem escapes (h : LeadsElsewhere tree limit cwd path) : ∃ allowedRoots blockedRoots loc,
    Allows tree limit cwd path allowedRoots blockedRoots ∧ tree.Reaches limit cwd path loc ∧
      ¬ Contained tree limit cwd allowedRoots blockedRoots loc := by
  obtain ⟨parentPath, name, dir, target, loc, hparent, hname, hdir, hlink, hmissing, hopen, hloc⟩ := h
  obtain ⟨dir', name', rfl, hcreates⟩ := resolve_created hmissing hopen
  rw [List.dropLast_concat] at hloc
  have hdirectory : tree.node dir = some .directory := tree.parent dir name (by simp [hlink])
  have hself : canonicalize tree limit cwd ⟨true, dir⟩ = some dir := resolve_self hdirectory
  have hself' : canonicalize tree limit cwd ⟨true, dir'⟩ = some dir' := resolve_self hcreates.1
  have hcandidate : canonicalCandidate tree limit cwd path = .ok (dir ++ [name]) := by
    simp [canonicalCandidate, hmissing, hparent, hname, hdir]
  by_cases hinside : dir <+: dir' ++ [name']
  · refine ⟨[⟨true, dir⟩], [⟨true, dir'⟩], _, ⟨dir ++ [name], dir, ?_⟩, Or.inl hopen, fun hcontained =>
      hcontained.2 _ List.mem_cons_self dir' hself' (List.prefix_append dir' [name'])⟩
    have houtside : ¬ dir' <+: dir ++ [name] := by
      rw [prefix_name tree (by simp [hcreates.1, hlink])]
      rw [prefix_name tree (by simp [hdirectory, hcreates.2.2])] at hinside
      exact fun hpre => hloc (hpre.eq_of_length_le hinside.length_le)
    simp [checkPathContainment, hcandidate, blockedReason, hself', houtside, allowedReply, hself]
  · refine ⟨[⟨true, dir⟩], [], _, ⟨dir ++ [name], dir, ?_⟩, Or.inl hopen, fun hcontained => ?_⟩
    · simp [checkPathContainment, hcandidate, blockedReason, allowedReply, hself]
    · obtain ⟨⟨path, hpath, root, hroot, hpre⟩, -⟩ := hcontained
      rw [List.mem_singleton] at hpath
      subst hpath
      exact hinside (Option.some.inj (hself.symm.trans hroot) ▸ hpre)

/-- What the guard allows is inside its roots, whatever these are, unless the path leads elsewhere. -/
theorem path_guard_contains_iff (tree : FileTree) (limit : Nat) (cwd : Location) (path : Path) :
    (∀ allowedRoots blockedRoots, Allows tree limit cwd path allowedRoots blockedRoots →
      ∀ loc, tree.Reaches limit cwd path loc →
        Contained tree limit cwd allowedRoots blockedRoots loc) ↔
      ¬ LeadsElsewhere tree limit cwd path := by
  constructor
  · intro h hleads
    obtain ⟨allowedRoots, blockedRoots, loc, hallows, hreaches, hout⟩ := escapes hleads
    exact hout (h allowedRoots blockedRoots hallows loc hreaches)
  · exact fun hstays _ _ hallows _ hreaches => contained_of_stays hstays hallows hreaches

/-- A link in the box points at a name of another directory, where nothing stands. -/
def danglingLink : FileTree where
  node
    | [] | ["box"] | ["etc"] => some .directory
    | ["box", "out"] => some (.link ⟨true, ["etc", "job"]⟩)
    | _ => none
  root := rfl
  parent dir name h := by
    match dir with
    | [] => rfl
    | [top] =>
      simp only [List.cons_append, List.nil_append] at h ⊢
      split at h <;> simp_all
    | _ :: _ :: _ => simp at h
  named dir name h := by
    match dir with
    | [] =>
      simp only [List.nil_append] at h
      split at h <;> simp_all [isName, isNoop]
    | [top] =>
      simp only [List.cons_append, List.nil_append] at h
      split at h <;> simp_all [isName, isNoop]
    | _ :: _ :: _ => simp at h

/-- The guard allows the link, and the file is created in the other directory. -/
theorem dangling_link_escapes :
    Allows danglingLink 40 [] (pathOf "/box/out") [pathOf "/box"] [] ∧
      danglingLink.Reaches 40 [] (pathOf "/box/out") ["etc", "job"] ∧
      ¬ Contained danglingLink 40 [] [pathOf "/box"] [] ["etc", "job"] := by
  have hbox : canonicalize danglingLink 40 [] (pathOf "/box") = some ["box"] := by decide
  refine ⟨⟨["box", "out"], ["box"], by decide⟩, Or.inl (by decide), ?_⟩
  rintro ⟨⟨path, hpath, root, hroot, hpre⟩, -⟩
  rw [List.mem_singleton] at hpath
  subst hpath
  obtain rfl := Option.some.inj (hbox.symm.trans hroot)
  exact absurd hpre (by decide)

end Empyralis.Kernel.PathGuard
