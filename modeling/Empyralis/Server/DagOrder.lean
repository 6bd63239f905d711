import Empyralis.Lib.LeastFirst
import Empyralis.Lib.Table
import Empyralis.Server.Values
import Mathlib.Data.List.Sort
import Mathlib.Data.String.Basic
import Mathlib.Logic.Function.Basic

/-! `_resolve_dag_order`: the nodes of a graph in an order in which each comes after those that it depends on. -/

namespace Empyralis.Server.DagOrder

-- the text of a list or a dictionary
variable (repr : Value → String)

/-! ### Nodes and edges -/

/-- A node of `node_map`: its dictionary, in which `deps` has been replaced. -/
structure DagNode where
  id : String
  deps : List String
  fields : Fields

def readDeps : Value → List String
  | .array items => (items.map (Value.token repr)).filter (· ≠ "")
  | _ => []

def readNode (raw : Fields) : DagNode :=
  let deps := readDeps repr (raw.get "deps")
  ⟨(raw.get "id").token repr, deps, raw.put "deps" (.array (deps.map .string))⟩

/-- The first loop, over the nodes as they are given. -/
def collect : Table String DagNode → List DagNode → Except String (Table String DagNode)
  | nodeMap, [] => .ok nodeMap
  | nodeMap, node :: nodes =>
    if node.id = "" then .error "DAG node id is required."
    else if (nodeMap.get? node.id).isSome then .error s!"Duplicate DAG node id '{node.id}'."
    else collect (nodeMap.put node.id node) nodes

/-- The dictionaries of the second loop, with what is taken for a key that is not there. -/
structure Edges where
  indegree : String → Int
  adjacency : String → List String

def addEdge (nodeMap : Table String DagNode) (nodeId : String) (edges : Edges) (dep : String) : Except String Edges :=
  if (nodeMap.get? dep).isNone then .error s!"DAG node '{nodeId}' depends on unknown node '{dep}'."
  else .ok
    { indegree := Function.update edges.indegree nodeId (edges.indegree nodeId + 1)
      adjacency := Function.update edges.adjacency dep (edges.adjacency dep ++ [nodeId]) }

/-- The second loop. -/
def link (nodeMap : Table String DagNode) : Edges → List (String × DagNode) → Except String Edges
  | edges, [] => .ok edges
  | edges, (nodeId, node) :: entries => do
    let edges ← node.deps.foldlM (addEdge nodeMap nodeId) edges
    link nodeMap edges entries

/-! ### The queue -/

def sorted (ids : List String) : List String := ids.insertionSort (· ≤ ·)

structure Queue where
  indegree : String → Int
  ready : List String
  ordered : List String

/-- One edge that leaves the node that was taken. -/
def release (q : Queue) (nxt : String) : Queue :=
  let count := q.indegree nxt - 1
  { q with
    indegree := Function.update q.indegree nxt count
    ready := if count = 0 then q.ready ++ [nxt] else q.ready }

/-- The body of `while ready`, with what was taken from the front. -/
def take (adjacency : String → List String) (q : Queue) (current : String) (ready : List String) : Queue :=
  let released := (sorted (adjacency current)).foldl release { q with ready, ordered := q.ordered ++ [current] }
  { released with ready := sorted released.ready }

/-- `while ready`, so many times at most. -/
def loop (adjacency : String → List String) : Nat → Queue → Queue
  | 0, q => q
  | fuel + 1, q =>
    match q.ready with
    | [] => q
    | current :: ready => loop adjacency fuel (take adjacency q current ready)

/-- The queue before the loop. -/
def start (nodeMap : Table String DagNode) (edges : Edges) : Queue :=
  ⟨edges.indegree, sorted (nodeMap.keys.filter fun id => edges.indegree id = 0), []⟩

/-- `_resolve_dag_order` -/
def resolveDagOrder (nodes : List Fields) : Except String (List DagNode) := do
  let nodeMap ← collect Table.empty (nodes.map (readNode repr))
  let edges ← link nodeMap ⟨fun _ => 0, fun _ => []⟩ nodeMap.entries
  let ordered := (loop edges.adjacency nodeMap.keys.length (start nodeMap edges)).ordered
  if ordered.length ≠ nodeMap.keys.length then .error "DAG contains a cycle or unresolved dependency."
  else .ok (ordered.filterMap nodeMap.get?)

/-! ### What the queue does -/

/-- The ids that are released by these edges, in their order. -/
def releases : (String → Int) → List String → List String
  | _, [] => []
  | f, nxt :: rest =>
    (if f nxt - 1 = 0 then [nxt] else []) ++ releases (Function.update f nxt (f nxt - 1)) rest

/-- What the edges of a node release. -/
theorem foldl_release (edges : List String) (q : Queue) :
    edges.foldl release q =
      { indegree := fun id => q.indegree id - edges.count id
        ready := q.ready ++ releases q.indegree edges
        ordered := q.ordered } := by
  induction edges generalizing q with
  | nil => simp [releases]
  | cons nxt edges ih =>
    rw [List.foldl_cons, ih, release]
    simp only [Queue.mk.injEq, and_true]
    refine ⟨funext fun id => ?_, ?_⟩
    · by_cases h : id = nxt
      · subst h
        rw [Function.update_self, List.count_cons_self]
        omega
      · rw [Function.update_of_ne h, List.count_cons_of_ne (Ne.symm h)]
    · rw [releases]
      split_ifs <;> simp

/-- An id is released once, by the edge that is the last that it waits for. -/
theorem count_releases (edges : List String) (f : String → Int) (id : String) :
    (releases f edges).count id = if 1 ≤ f id ∧ f id ≤ edges.count id then 1 else 0 := by
  induction edges generalizing f with
  | nil =>
    rw [releases, List.count_nil, if_neg]
    omega
  | cons nxt edges ih =>
    rw [releases, List.count_append, ih]
    by_cases h : id = nxt
    · subst h
      rw [Function.update_self, List.count_cons_self]
      by_cases hone : f id - 1 = 0
      · rw [if_pos hone, List.count_singleton_self, if_neg (by omega), if_pos (by omega)]
      · rw [if_neg hone, List.count_nil, Nat.zero_add]
        exact if_congr (by omega) rfl rfl
    · rw [Function.update_of_ne h, List.count_cons_of_ne (Ne.symm h)]
      have hzero : (if f nxt - 1 = 0 then [nxt] else []).count id = 0 := by
        split_ifs
        · exact List.count_eq_zero.mpr fun hmem => h (List.mem_singleton.mp hmem)
        · rfl
      rw [hzero, Nat.zero_add]

section Queue

variable {ids : List String} {deps : String → List String} {adjacency : String → List String}

/-- `adjacency` has, of each id, one edge from a node for each time that the node depends on it. -/
structure Adjacent (ids : List String) (deps : String → List String) (adjacency : String → List String) : Prop where
  count : ∀ id dep, (adjacency dep).count id = (deps id).count dep
  deps : ∀ id dep, dep ∈ deps id → id ∈ ids ∧ dep ∈ ids

/-- The order so far takes the least first, `indegree` counts the dependencies that it has not, and `ready` has
    what comes next. -/
structure Inv (ids : List String) (deps : String → List String) (q : Queue) : Prop where
  greedy : LeastFirst.Greedy {id | id ∈ ids} (fun id dep => dep ∈ deps id) q.ordered
  indegree : ∀ id, q.indegree id = ((deps id).filter (· ∉ q.ordered)).length
  sorted : q.ready.Pairwise (· < ·)
  ready : ∀ id, id ∈ q.ready ↔ LeastFirst.Ready {id | id ∈ ids} (fun id dep => dep ∈ deps id) q.ordered id

theorem mem_sorted {id : String} {ids : List String} : id ∈ sorted ids ↔ id ∈ ids := List.mem_insertionSort _

theorem sorted_strict {ids : List String} (h : ids.Nodup) : (sorted ids).Pairwise (· < ·) := by
  have hle : (sorted ids).Pairwise (· ≤ ·) := List.pairwise_insertionSort _ ids
  have hne : (sorted ids).Pairwise (· ≠ ·) := (List.perm_insertionSort _ ids).nodup_iff.mpr h
  exact hle.imp₂ (fun _ _ hle hne => lt_of_le_of_ne hle hne) hne

/-- What waits for nothing has all its dependencies in the order. -/
theorem indegree_eq_zero {q : Queue} (h : Inv ids deps q) (id : String) :
    q.indegree id = 0 ↔ ∀ dep ∈ deps id, dep ∈ q.ordered := by
  rw [h.indegree, Int.natCast_eq_zero, List.length_eq_zero_iff, List.filter_eq_nil_iff]
  simp

theorem ready_of_indegree {q : Queue} (h : Inv ids deps q) {id : String} (hid : id ∈ ids) (hout : id ∉ q.ordered)
    (hzero : q.indegree id = 0) : id ∈ q.ready :=
  (h.ready id).mpr ⟨hid, hout, (indegree_eq_zero h id).mp hzero⟩

/-- The dependencies that are left, before and after one is taken. -/
theorem length_filter_concat (out deps : List String) (current : String) (hout : current ∉ out) :
    (deps.filter (· ∉ out)).length =
      (deps.filter (· ∉ out ++ [current])).length + deps.count current := by
  induction deps with
  | nil => rfl
  | cons dep deps ih =>
    by_cases heq : dep = current
    · subst heq
      rw [List.filter_cons_of_pos (by simpa using hout), List.filter_cons_of_neg (by simp), List.count_cons_self,
        List.length_cons, ih]
      omega
    · rw [List.count_cons_of_ne heq]
      by_cases hmem : dep ∈ out
      · rw [List.filter_cons_of_neg (by simpa using hmem), List.filter_cons_of_neg (by simp [hmem]), ih]
      · rw [List.filter_cons_of_pos (by simpa using hmem), List.filter_cons_of_pos (by simp [hmem, heq]),
          List.length_cons, List.length_cons, ih]
        omega

/-- The ids that wait for nothing but the one that is taken. -/
theorem mem_releases_iff (hadj : Adjacent ids deps adjacency) (q : Queue) (current id : String) :
    (releases q.indegree (sorted (adjacency current))).count id =
      if 1 ≤ q.indegree id ∧ q.indegree id ≤ (deps id).count current then 1 else 0 := by
  rw [count_releases, sorted, (List.perm_insertionSort _ _).count_eq, hadj.count]

theorem take_eq (hadj : Adjacent ids deps adjacency) (q : Queue) (current : String) (ready : List String) :
    take adjacency q current ready =
      { indegree := fun id => q.indegree id - (deps id).count current
        ready := sorted (ready ++ releases q.indegree (sorted (adjacency current)))
        ordered := q.ordered ++ [current] } := by
  rw [take, foldl_release]
  dsimp only
  rw [Queue.mk.injEq]
  refine ⟨funext fun id => ?_, rfl, rfl⟩
  rw [sorted, (List.perm_insertionSort _ _).count_eq, hadj.count]

/-- One round of the loop takes a node whose dependencies are taken. -/
theorem inv_take {q : Queue} (hadj : Adjacent ids deps adjacency) (h : Inv ids deps q) {current : String}
    {ready : List String} (hready : q.ready = current :: ready) : Inv ids deps (take adjacency q current ready) := by
  have hcurrent : LeastFirst.Ready {id | id ∈ ids} (fun id dep => dep ∈ deps id) q.ordered current :=
    (h.ready current).mp (hready ▸ List.mem_cons_self ..)
  have hsorted := h.sorted
  rw [hready] at hsorted
  obtain ⟨hleast, hrest⟩ := List.pairwise_cons.mp hsorted
  have hzero : q.indegree current = 0 := (indegree_eq_zero h current).mpr hcurrent.2.2
  have hreadyZero : ∀ id ∈ ready, q.indegree id = 0 := fun id hid =>
    (indegree_eq_zero h id).mpr ((h.ready id).mp (hready ▸ List.mem_cons_of_mem _ hid)).2.2
  have hreleases (id : String) : id ∈ releases q.indegree (sorted (adjacency current)) ↔
      1 ≤ q.indegree id ∧ q.indegree id ≤ (deps id).count current := by
    rw [← List.count_pos_iff, mem_releases_iff hadj]
    split_ifs with hcond <;> simp [hcond]
  have hindegree (id : String) : q.indegree id - (deps id).count current =
      ((deps id).filter (· ∉ q.ordered ++ [current])).length := by
    rw [h.indegree, length_filter_concat q.ordered (deps id) current hcurrent.2.1]
    omega
  have hafter (id : String) :
      q.indegree id = (deps id).count current ↔ ∀ dep ∈ deps id, dep ∈ q.ordered ++ [current] := by
    rw [← Int.sub_eq_zero, hindegree, Int.natCast_eq_zero, List.length_eq_zero_iff, List.filter_eq_nil_iff]
    simp [or_iff_not_imp_left]
  rw [take_eq hadj]
  refine ⟨.pick h.greedy ⟨hcurrent, fun id hid => ?_⟩, hindegree, sorted_strict ?_, fun id => ?_⟩
  · have hmem := (h.ready id).mpr hid
    rw [hready] at hmem
    rcases List.mem_cons.mp hmem with rfl | hmem
    · exact le_rfl
    · exact (hleast id hmem).le
  · refine List.nodup_append.mpr ⟨hrest.imp fun hlt => hlt.ne, List.nodup_iff_count_le_one.mpr fun id => ?_, ?_⟩
    · rw [mem_releases_iff hadj]
      split_ifs <;> omega
    · rintro id hid other hother rfl
      have hone := ((hreleases id).mp hother).1
      rw [hreadyZero id hid] at hone
      omega
  · rw [mem_sorted, List.mem_append, hreleases]
    constructor
    · rintro (hid | ⟨hone, hcount⟩)
      · obtain ⟨hin, hout, hdeps⟩ := (h.ready id).mp (hready ▸ List.mem_cons_of_mem _ hid)
        have hne : id ≠ current := (hleast id hid).ne'
        exact ⟨hin, by simp [hout, hne], fun dep hdep => List.mem_append_left _ (hdeps dep hdep)⟩
      · have hdeps : ∀ dep ∈ deps id, dep ∈ q.ordered ++ [current] := by
          rw [← hafter]
          have hle := hindegree id
          omega
        have hmem : current ∈ deps id := List.count_pos_iff.mp (by omega)
        refine ⟨(hadj.deps id current hmem).1, fun hout => ?_, hdeps⟩
        rcases List.mem_append.mp hout with hout | hout
        · obtain ⟨front, back, heq⟩ := List.append_of_mem hout
          have hfront := h.greedy.deps_mem heq current hmem
          rw [heq] at hcurrent
          exact hcurrent.2.1 (List.mem_append_left _ hfront)
        · rw [List.mem_singleton.mp hout] at hone
          omega
    · rintro ⟨hin, hout, hdeps⟩
      have hcount := (hafter id).mpr hdeps
      rw [List.mem_append, List.mem_singleton, not_or] at hout
      by_cases hid : q.indegree id = 0
      · have hmem := ready_of_indegree h hin hout.1 hid
        rw [hready] at hmem
        exact .inl ((List.mem_cons.mp hmem).resolve_left hout.2)
      · refine .inr ⟨?_, hcount.le⟩
        omega

theorem inv_loop (hadj : Adjacent ids deps adjacency) : ∀ (fuel : Nat) {q : Queue}, Inv ids deps q →
    Inv ids deps (loop adjacency fuel q) ∧
      ((loop adjacency fuel q).ready = [] ∨ (loop adjacency fuel q).ordered.length = q.ordered.length + fuel)
  | 0, q, h => ⟨h, .inr rfl⟩
  | fuel + 1, q, h => by
    rw [loop]
    cases hready : q.ready with
    | nil => exact ⟨h, .inl hready⟩
    | cons current ready =>
      obtain ⟨hinv, hend⟩ := inv_loop hadj fuel (inv_take hadj h hready)
      refine ⟨hinv, hend.imp_right fun hlen => ?_⟩
      have htaken : (take adjacency q current ready).ordered = q.ordered ++ [current] := by rw [take_eq hadj]
      rw [htaken, List.length_append, List.length_singleton] at hlen
      dsimp only
      omega

/-- So many turns as there are ids are enough for the loop to come to its end. -/
theorem loop_ready (hadj : Adjacent ids deps adjacency) {q : Queue} (h : Inv ids deps q)
    (hstart : q.ordered = []) : (loop adjacency ids.length q).ready = [] := by
  obtain ⟨hinv, hready | hlen⟩ := inv_loop hadj ids.length h
  · exact hready
  · rw [hstart, List.length_nil, Nat.zero_add] at hlen
    have hperm : (loop adjacency ids.length q).ordered.Subperm ids :=
      hinv.greedy.nodup.subperm fun id hid => hinv.greedy.subset id hid
    have hall := hperm.perm_of_length_le hlen.ge
    refine List.eq_nil_iff_forall_not_mem.mpr fun id hid => ?_
    obtain ⟨hin, hout, -⟩ := (hinv.ready id).mp hid
    exact hout (hall.mem_iff.mpr hin)

end Queue

/-! ### What the loops before it do -/

/-- The nodes are collected, or one of them has no id or one that is taken. -/
theorem collect_cases (nodeMap : Table String DagNode) (nodes : List DagNode) :
    (∃ m, collect nodeMap nodes = .ok m ∧ m.entries = nodeMap.entries ++ nodes.map (fun node => (node.id, node)) ∧
      (∀ node ∈ nodes, node.id ≠ "" ∧ node.id ∉ nodeMap.keys) ∧ (nodes.map DagNode.id).Nodup) ∨
    (∃ e, collect nodeMap nodes = .error e) ∧
      ((∃ node ∈ nodes, node.id = "" ∨ node.id ∈ nodeMap.keys) ∨ ¬(nodes.map DagNode.id).Nodup) := by
  induction nodes generalizing nodeMap with
  | nil => exact .inl ⟨nodeMap, rfl, by simp, by simp, List.nodup_nil⟩
  | cons node nodes ih =>
    rw [collect]
    by_cases hblank : node.id = ""
    · rw [if_pos hblank]
      exact .inr ⟨⟨_, rfl⟩, .inl ⟨node, List.mem_cons_self .., .inl hblank⟩⟩
    by_cases hthere : (nodeMap.get? node.id).isSome = true
    · rw [if_neg hblank, if_pos hthere]
      have hkey : node.id ∈ nodeMap.keys := Table.mem_keys.mpr (Option.isSome_iff_exists.mp hthere)
      exact .inr ⟨⟨_, rfl⟩, .inl ⟨node, List.mem_cons_self .., .inr hkey⟩⟩
    rw [if_neg hblank, if_neg hthere]
    have hnew : node.id ∉ nodeMap.keys := Table.get?_eq_none.mp (Option.not_isSome_iff_eq_none.mp hthere)
    rcases ih (nodeMap.put node.id node) with ⟨m, hm, hentries, hall, hnodup⟩ | ⟨herror, hfault⟩
    · refine .inl ⟨m, hm, ?_, ?_, ?_⟩
      · rw [hentries, Table.entries_put_new hnew, List.append_assoc]
        rfl
      · intro other hother
        rcases List.mem_cons.mp hother with rfl | hother
        · exact ⟨hblank, hnew⟩
        · obtain ⟨hne, hout⟩ := hall other hother
          exact ⟨hne, fun hkey => hout (Table.mem_keys_put.mpr (.inr hkey))⟩
      · refine List.nodup_cons.mpr ⟨fun hmem => ?_, hnodup⟩
        obtain ⟨other, hother, hid⟩ := List.mem_map.mp hmem
        exact (hall other hother).2 (Table.mem_keys_put.mpr (.inl hid))
    · refine .inr ⟨herror, ?_⟩
      rcases hfault with ⟨other, hother, hempty | hkey⟩ | hdup
      · exact .inl ⟨other, List.mem_cons_of_mem _ hother, .inl hempty⟩
      · rcases Table.mem_keys_put.mp hkey with hid | hkey
        · refine .inr fun hnodup => (List.nodup_cons.mp hnodup).1 ?_
          exact List.mem_map.mpr ⟨other, hother, hid⟩
        · exact .inl ⟨other, List.mem_cons_of_mem _ hother, .inr hkey⟩
      · exact .inr fun hnodup => hdup (List.nodup_cons.mp hnodup).2

theorem addEdge_cases (nodeMap : Table String DagNode) (nodeId : String) (deps : List String) (edges : Edges) :
    (∃ e, deps.foldlM (addEdge nodeMap nodeId) edges = .ok e ∧
      (∀ id, e.indegree id = edges.indegree id + if id = nodeId then (deps.length : Int) else 0) ∧
      (∀ dep, e.adjacency dep = edges.adjacency dep ++ List.replicate (deps.count dep) nodeId) ∧
      ∀ dep ∈ deps, dep ∈ nodeMap.keys) ∨
    (∃ message, deps.foldlM (addEdge nodeMap nodeId) edges = .error message) ∧ ∃ dep ∈ deps, dep ∉ nodeMap.keys := by
  induction deps generalizing edges with
  | nil => exact .inl ⟨edges, rfl, by simp, by simp, by simp⟩
  | cons dep deps ih =>
    rw [List.foldlM_cons]
    by_cases hunknown : (nodeMap.get? dep).isNone = true
    · rw [addEdge, if_pos hunknown]
      exact .inr ⟨⟨_, rfl⟩, dep, List.mem_cons_self .., Table.get?_eq_none.mp (Option.isNone_iff_eq_none.mp hunknown)⟩
    have hknown : dep ∈ nodeMap.keys := by
      by_contra hout
      exact hunknown (Option.isNone_iff_eq_none.mpr (Table.get?_eq_none.mpr hout))
    rw [addEdge, if_neg hunknown]
    change (∃ e, deps.foldlM (addEdge nodeMap nodeId) _ = .ok e ∧ _) ∨
      (∃ message, deps.foldlM (addEdge nodeMap nodeId) _ = .error message) ∧ _
    rcases ih _ with ⟨e, he, hindegree, hadjacency, hall⟩ | ⟨herror, other, hother, hout⟩
    · refine .inl ⟨e, he, fun id => ?_, fun other => ?_, ?_⟩
      · rw [hindegree]
        dsimp only
        by_cases hid : id = nodeId
        · subst hid
          rw [Function.update_self, if_pos rfl, if_pos rfl, List.length_cons]
          omega
        · rw [Function.update_of_ne hid, if_neg hid, if_neg hid]
      · rw [hadjacency]
        dsimp only
        by_cases hdep : other = dep
        · subst hdep
          rw [Function.update_self, List.count_cons_self, List.append_assoc, List.singleton_append,
            List.replicate_succ]
        · rw [Function.update_of_ne hdep, List.count_cons_of_ne (Ne.symm hdep)]
      · intro other hother
        rcases List.mem_cons.mp hother with rfl | hother
        · exact hknown
        · exact hall other hother
    · exact .inr ⟨herror, other, List.mem_cons_of_mem _ hother, hout⟩

/-- The dependencies of the node under an id. -/
def depsOf (entries : List (String × DagNode)) (id : String) : List String :=
  ((entries.lookup id).map DagNode.deps).getD []

theorem depsOf_cons (nodeId : String) (node : DagNode) (entries : List (String × DagNode)) (id : String) :
    depsOf ((nodeId, node) :: entries) id = if id = nodeId then node.deps else depsOf entries id := by
  rw [depsOf, List.lookup_cons]
  by_cases h : id = nodeId
  · simp [h]
  · rw [beq_eq_false_iff_ne.mpr h, if_neg h, depsOf]

theorem depsOf_eq_nil {entries : List (String × DagNode)} {id : String} (h : id ∉ entries.map Prod.fst) :
    depsOf entries id = [] := by
  induction entries with
  | nil => rfl
  | cons entry entries ih =>
    rw [List.map_cons, List.mem_cons, not_or] at h
    rw [depsOf_cons, if_neg h.1, ih h.2]

/-- The edges are linked, or one of them comes from an unknown node. -/
theorem link_cases (nodeMap : Table String DagNode) (entries : List (String × DagNode)) (edges : Edges)
    (hnodup : (entries.map Prod.fst).Nodup) :
    (∃ e, link nodeMap edges entries = .ok e ∧
      (∀ id, e.indegree id = edges.indegree id + (depsOf entries id).length) ∧
      (∀ id dep, (e.adjacency dep).count id = (edges.adjacency dep).count id + (depsOf entries id).count dep) ∧
      ∀ entry ∈ entries, ∀ dep ∈ entry.2.deps, dep ∈ nodeMap.keys) ∨
    (∃ message, link nodeMap edges entries = .error message) ∧
      ∃ entry ∈ entries, ∃ dep ∈ entry.2.deps, dep ∉ nodeMap.keys := by
  induction entries generalizing edges with
  | nil => exact .inl ⟨edges, rfl, by simp [depsOf], by simp [depsOf], by simp⟩
  | cons entry entries ih =>
    obtain ⟨nodeId, node⟩ := entry
    obtain ⟨hnew, hrest⟩ := List.nodup_cons.mp hnodup
    rw [link]
    rcases addEdge_cases nodeMap nodeId node.deps edges with ⟨e, he, hindegree, hadjacency, hall⟩ |
        ⟨⟨message, herror⟩, dep, hdep, hout⟩
    · rw [he]
      change (∃ e', link nodeMap e entries = .ok e' ∧ _) ∨ (∃ message, link nodeMap e entries = .error message) ∧ _
      rcases ih e hrest with ⟨e', he', hindegree', hadjacency', hall'⟩ | ⟨herror, other, hother, hfault⟩
      · refine .inl ⟨e', he', fun id => ?_, fun id dep => ?_, ?_⟩
        · rw [hindegree', hindegree, depsOf_cons]
          by_cases hid : id = nodeId
          · subst hid
            rw [depsOf_eq_nil hnew, if_pos rfl, if_pos rfl, List.length_nil]
            omega
          · rw [if_neg hid, if_neg hid, Int.add_zero]
        · rw [hadjacency', hadjacency, depsOf_cons, List.count_append]
          by_cases hid : id = nodeId
          · subst hid
            rw [depsOf_eq_nil hnew, if_pos rfl, List.count_replicate_self, List.count_nil, Nat.add_zero]
          · rw [if_neg hid, List.count_eq_zero.mpr fun hmem => hid (List.eq_of_mem_replicate hmem), Nat.add_zero]
        · intro other hother
          rcases List.mem_cons.mp hother with rfl | hother
          · exact hall
          · exact hall' other hother
      · exact .inr ⟨herror, other, List.mem_cons_of_mem _ hother, hfault⟩
    · rw [herror]
      exact .inr ⟨⟨message, rfl⟩, (nodeId, node), List.mem_cons_self .., dep, hdep, hout⟩

/-! ### The order -/

/-- A node of this id depends on `dep`. -/
def DependsOn (nodes : List DagNode) (id dep : String) : Prop := ∃ node ∈ nodes, node.id = id ∧ dep ∈ node.deps

/-- What there is no order for. -/
def Faulty (nodes : List DagNode) : Prop :=
  (∃ node ∈ nodes, node.id = "") ∨ ¬(nodes.map DagNode.id).Nodup ∨
    (∃ node ∈ nodes, ∃ dep ∈ node.deps, dep ∉ nodes.map DagNode.id) ∨ ∃ id, Relation.TransGen (DependsOn nodes) id id

/-- The nodes as `node_map` has them once each has been collected. -/
structure Collected (nodes : List DagNode) (nodeMap : Table String DagNode) : Prop where
  entries : nodeMap.entries = nodes.map fun node => (node.id, node)

theorem Collected.keys {nodes : List DagNode} {nodeMap : Table String DagNode} (h : Collected nodes nodeMap) :
    nodeMap.keys = nodes.map DagNode.id := by
  rw [Table.keys, h.entries, List.map_map]
  rfl

theorem Collected.get? {nodes : List DagNode} {nodeMap : Table String DagNode} (h : Collected nodes nodeMap)
    {node : DagNode} (hnode : node ∈ nodes) : nodeMap.get? node.id = some node := by
  rw [Table.get?_eq_some, h.entries]
  exact List.mem_map_of_mem (f := fun node => (node.id, node)) hnode

theorem Collected.mem_deps {nodes : List DagNode} {nodeMap : Table String DagNode} (h : Collected nodes nodeMap)
    {id dep : String} : dep ∈ depsOf nodeMap.entries id ↔ DependsOn nodes id dep := by
  rw [depsOf, ← Table.get?]
  constructor
  · intro hdep
    cases hget : nodeMap.get? id with
    | none =>
      rw [hget] at hdep
      cases hdep
    | some node =>
      rw [hget] at hdep
      have hmem := Table.get?_eq_some.mp hget
      rw [h.entries] at hmem
      obtain ⟨other, hother, heq⟩ := List.mem_map.mp hmem
      obtain ⟨hid, rfl⟩ := Prod.mk.inj heq
      exact ⟨other, hother, hid, hdep⟩
  · rintro ⟨node, hnode, rfl, hdep⟩
    rw [h.get? hnode]
    exact hdep

theorem Collected.filterMap {nodes : List DagNode} {nodeMap : Table String DagNode} (h : Collected nodes nodeMap) :
    (nodes.map DagNode.id).filterMap nodeMap.get? = nodes := by
  rw [List.filterMap_map]
  have hget : ∀ node ∈ nodes, (nodeMap.get? ∘ DagNode.id) node = some node := fun node hnode => h.get? hnode
  rw [List.filterMap_congr hget, List.filterMap_some]

/-- The linked graph, as the queue sees it. -/
theorem Collected.adjacent {nodes : List DagNode} {nodeMap : Table String DagNode} (h : Collected nodes nodeMap)
    {e : Edges} (hcount : ∀ id dep, (e.adjacency dep).count id = (depsOf nodeMap.entries id).count dep)
    (hknown : ∀ entry ∈ nodeMap.entries, ∀ dep ∈ entry.2.deps, dep ∈ nodeMap.keys) :
    Adjacent nodeMap.keys (depsOf nodeMap.entries) e.adjacency where
  count := hcount
  deps id dep hdep := by
    obtain ⟨node, hnode, rfl, hmem⟩ := h.mem_deps.mp hdep
    have hentry := Table.get?_eq_some.mp (h.get? hnode)
    exact ⟨Table.mem_keys_of_mem hentry, hknown _ hentry dep hmem⟩

theorem inv_start {nodeMap : Table String DagNode} {e : Edges}
    (hindegree : ∀ id, e.indegree id = (depsOf nodeMap.entries id).length) :
    Inv nodeMap.keys (depsOf nodeMap.entries) (start nodeMap e) where
  greedy := .nil
  indegree id := by
    rw [start]
    simp [hindegree]
  sorted := sorted_strict (nodeMap.nodup.filter _)
  ready id := by
    rw [start, mem_sorted, List.mem_filter, decide_eq_true_eq, hindegree, Int.natCast_eq_zero,
      List.length_eq_zero_iff, List.eq_nil_iff_forall_not_mem]
    simp [LeastFirst.Ready]

theorem Collected.dependsOn {nodes : List DagNode} {nodeMap : Table String DagNode} (h : Collected nodes nodeMap) :
    (fun id dep => dep ∈ depsOf nodeMap.entries id) = DependsOn nodes :=
  funext fun _ => funext fun _ => propext h.mem_deps

/-- What `_resolve_dag_order` comes to: the order that takes the least first, if it takes all. -/
theorem resolve_cases (nodes : List Fields) :
    (Faulty (nodes.map (readNode repr)) ∧ ∃ e, resolveDagOrder repr nodes = .error e) ∨
    ¬Faulty (nodes.map (readNode repr)) ∧ ∃ nodeMap ordered, Collected (nodes.map (readNode repr)) nodeMap ∧
      LeastFirst.Greedy {id | id ∈ nodeMap.keys} (DependsOn (nodes.map (readNode repr))) ordered ∧
      LeastFirst.Maximal {id | id ∈ nodeMap.keys} (DependsOn (nodes.map (readNode repr))) ordered ∧
      ordered.Perm nodeMap.keys ∧ resolveDagOrder repr nodes = .ok (ordered.filterMap nodeMap.get?) := by
  unfold resolveDagOrder
  generalize nodes.map (readNode repr) = read
  rcases collect_cases Table.empty read with ⟨nodeMap, hm, hentries, hall, hnodup⟩ | ⟨⟨e, herror⟩, hfault⟩
  · have hcollected : Collected read nodeMap := ⟨hentries⟩
    simp only [hm, bind, Except.bind]
    rcases link_cases nodeMap nodeMap.entries ⟨fun _ => 0, fun _ => []⟩ nodeMap.nodup with
      ⟨e, he, hindegree, hcount, hknown⟩ | ⟨⟨message, herror⟩, entry, hentry, dep, hdep, hout⟩
    · have hadj := hcollected.adjacent (e := e) (fun id dep => by rw [hcount]; simp) hknown
      have hstart : Inv nodeMap.keys (depsOf nodeMap.entries) (start nodeMap e) :=
        inv_start fun id => by rw [hindegree]; simp
      have hready := loop_ready hadj hstart rfl
      obtain ⟨hinv, -⟩ := inv_loop hadj nodeMap.keys.length hstart
      simp only [he]
      generalize loop e.adjacency nodeMap.keys.length (start nodeMap e) = q at hready hinv ⊢
      have hmax : LeastFirst.Maximal {id | id ∈ nodeMap.keys} (fun id dep => dep ∈ depsOf nodeMap.entries id)
          q.ordered := by
        intro id hid
        have hmem := (hinv.ready id).mpr hid
        rw [hready] at hmem
        cases hmem
      have hgreedy := hinv.greedy
      have hdeps : ∀ id dep, dep ∈ depsOf nodeMap.entries id → id ∈ nodeMap.keys ∧ dep ∈ nodeMap.keys := hadj.deps
      have hcovers := LeastFirst.covers_iff (List.finite_toSet nodeMap.keys) hdeps hgreedy hmax
      rw [hcollected.dependsOn] at hmax hgreedy hcovers
      have hsub : q.ordered.Subperm nodeMap.keys := hgreedy.nodup.subperm fun id hid => hgreedy.subset id hid
      by_cases hlen : q.ordered.length = nodeMap.keys.length
      · have hperm := hsub.perm_of_length_le hlen.ge
        have hacyclic := hcovers.mp fun id hid => hperm.mem_iff.mpr hid
        refine .inr ⟨?_, nodeMap, q.ordered, hcollected, hgreedy, hmax, hperm, if_neg (not_not.mpr hlen)⟩
        rintro (⟨node, hnode, hblank⟩ | hdup | ⟨node, hnode, dep, hdep, hout⟩ | ⟨id, hcycle⟩)
        · exact (hall node hnode).1 hblank
        · exact hdup hnodup
        · refine hout (hcollected.keys ▸ hknown (node.id, node) ?_ dep hdep)
          exact Table.get?_eq_some.mp (hcollected.get? hnode)
        · exact hacyclic id hcycle
      · refine .inl ⟨?_, _, if_pos hlen⟩
        refine .inr (.inr (.inr ?_))
        by_contra hnone
        have hall' := hcovers.mpr fun id hcycle => hnone ⟨id, hcycle⟩
        have hback : nodeMap.keys.Subperm q.ordered := nodeMap.nodup.subperm fun id hid => hall' id hid
        exact hlen (le_antisymm hsub.length_le hback.length_le)
    · simp only [herror]
      refine .inl ⟨.inr (.inr (.inl ?_)), message, rfl⟩
      rw [hcollected.entries] at hentry
      obtain ⟨node, hnode, rfl⟩ := List.mem_map.mp hentry
      exact ⟨node, hnode, dep, hdep, hcollected.keys ▸ hout⟩
  · simp only [herror, bind, Except.bind]
    refine .inl ⟨?_, e, rfl⟩
    rcases hfault with ⟨node, hnode, hblank | hkey⟩ | hdup
    · exact .inl ⟨node, hnode, hblank⟩
    · cases hkey
    · exact .inr (.inl hdup)

theorem of_resolved {nodes : List Fields} {ordered : List DagNode} (h : resolveDagOrder repr nodes = .ok ordered) :
    ∃ nodeMap ids, Collected (nodes.map (readNode repr)) nodeMap ∧
      LeastFirst.Greedy {id | id ∈ nodeMap.keys} (DependsOn (nodes.map (readNode repr))) ids ∧
      LeastFirst.Maximal {id | id ∈ nodeMap.keys} (DependsOn (nodes.map (readNode repr))) ids ∧
      ids.Perm nodeMap.keys ∧ ids.filterMap nodeMap.get? = ordered := by
  rcases resolve_cases repr nodes with ⟨-, e, herror⟩ | ⟨-, nodeMap, ids, hcollected, hgreedy, hmax, hperm, hok⟩
  · cases herror.symm.trans h
  · exact ⟨nodeMap, ids, hcollected, hgreedy, hmax, hperm, Except.ok.inj (hok.symm.trans h)⟩

theorem Collected.ids_filterMap {nodes : List DagNode} {nodeMap : Table String DagNode} (h : Collected nodes nodeMap)
    {ids : List String} (hids : ∀ id ∈ ids, id ∈ nodeMap.keys) : (ids.filterMap nodeMap.get?).map DagNode.id = ids := by
  induction ids with
  | nil => rfl
  | cons id ids ih =>
    obtain ⟨hid, hrest⟩ := List.forall_mem_cons.mp hids
    rw [h.keys] at hid
    obtain ⟨node, hnode, rfl⟩ := List.mem_map.mp hid
    rw [List.filterMap_cons_some (h.get? hnode), List.map_cons, ih hrest]

/-- An order is refused just when an id is blank or given twice, a dependency is no node, or a node depends on
    itself. Else it has each node once, after its dependencies, and the order of the ids is the same for any nodes
    with the same ids and dependencies. -/
theorem dag_order (nodes : List Fields) :
    ((∃ e, resolveDagOrder repr nodes = .error e) ↔ Faulty (nodes.map (readNode repr))) ∧
    ∀ ordered, resolveDagOrder repr nodes = .ok ordered →
      ordered.Perm (nodes.map (readNode repr)) ∧
      (∀ front node back, ordered = front ++ node :: back → ∀ dep ∈ node.deps, ∃ other ∈ front, other.id = dep) ∧
      ∀ nodes' ordered', resolveDagOrder repr nodes' = .ok ordered' →
        (∀ id, (∃ node ∈ nodes.map (readNode repr), node.id = id) ↔ ∃ node ∈ nodes'.map (readNode repr), node.id = id) →
        (∀ id dep, DependsOn (nodes.map (readNode repr)) id dep ↔ DependsOn (nodes'.map (readNode repr)) id dep) →
        ordered'.map DagNode.id = ordered.map DagNode.id := by
  constructor
  · rcases resolve_cases repr nodes with ⟨hfault, herror⟩ | ⟨hfault, nodeMap, ids, -, -, -, -, hok⟩
    · exact ⟨fun _ => hfault, fun _ => herror⟩
    · refine ⟨?_, fun h => absurd h hfault⟩
      rintro ⟨e, he⟩
      cases hok.symm.trans he
  · intro ordered hordered
    obtain ⟨nodeMap, ids, hcollected, hgreedy, hmax, hperm, rfl⟩ := of_resolved repr hordered
    have hids := hcollected.ids_filterMap fun id hid => hperm.mem_iff.mp hid
    refine ⟨?_, ?_, ?_⟩
    · have hnodes := hperm.filterMap nodeMap.get?
      rw [hcollected.keys, hcollected.filterMap] at hnodes
      exact hnodes
    · intro front node back heq dep hdep
      have hnode : node ∈ nodes.map (readNode repr) := by
        have hmem : node ∈ ids.filterMap nodeMap.get? := heq ▸ List.mem_append_right _ (List.mem_cons_self ..)
        obtain ⟨id, -, hget⟩ := List.mem_filterMap.mp hmem
        have hentry := Table.get?_eq_some.mp hget
        rw [hcollected.entries] at hentry
        obtain ⟨other, hother, hpair⟩ := List.mem_map.mp hentry
        obtain ⟨-, rfl⟩ := Prod.mk.inj hpair
        exact hother
      have hsplit : ids = front.map DagNode.id ++ node.id :: back.map DagNode.id := by
        rw [← hids, heq, List.map_append, List.map_cons]
      obtain ⟨other, hother, hid⟩ := List.mem_map.mp (hgreedy.deps_mem hsplit dep ⟨node, hnode, rfl, hdep⟩)
      exact ⟨other, hother, hid⟩
    · intro nodes' ordered' hordered' hsame hdeps
      obtain ⟨nodeMap', ids', hcollected', hgreedy', hmax', hperm', rfl⟩ := of_resolved repr hordered'
      rw [hids, hcollected'.ids_filterMap fun id hid => hperm'.mem_iff.mp hid]
      have hV : {id | id ∈ nodeMap.keys} = {id | id ∈ nodeMap'.keys} := by
        ext id
        rw [Set.mem_ofPred_eq, Set.mem_ofPred_eq, hcollected.keys, hcollected'.keys, List.mem_map, List.mem_map]
        exact hsame id
      have hD : DependsOn (nodes.map (readNode repr)) = DependsOn (nodes'.map (readNode repr)) :=
        funext fun id => funext fun dep => propext (hdeps id dep)
      rw [hV, hD] at hgreedy hmax
      exact hgreedy'.unique hgreedy hmax' hmax

/-- A node that two others depend on, of which one names it twice and has a blank dependency. -/
def fork : List Fields :=
  [[("id", .string "b"), ("deps", .array [.string "a", .string " a", .string ""])],
    [("id", .string "c"), ("deps", .array [.string "a"])], [("id", .string "a")]]

theorem of_toOption {result : Except String (List DagNode)} (h : result.toOption.isSome) :
    ∃ ordered, result = .ok ordered := by
  cases result with
  | error => cases h
  | ok ordered => exact ⟨ordered, rfl⟩

/-- The order is the same when the nodes are listed the other way round. -/
theorem dag_order_fork : ∃ ordered ordered',
    resolveDagOrder (fun _ => "") fork = .ok ordered ∧ resolveDagOrder (fun _ => "") fork.reverse = .ok ordered' ∧
      ordered.Perm (fork.map (readNode fun _ => "")) ∧ ordered'.map DagNode.id = ordered.map DagNode.id := by
  obtain ⟨ordered, hordered⟩ := of_toOption (by decide : (resolveDagOrder (fun _ => "") fork).toOption.isSome)
  obtain ⟨ordered', hordered'⟩ :=
    of_toOption (by decide : (resolveDagOrder (fun _ => "") fork.reverse).toOption.isSome)
  obtain ⟨hperm, -, hsame⟩ := (dag_order (fun _ => "") fork).2 ordered hordered
  refine ⟨ordered, ordered', hordered, hordered', hperm, hsame fork.reverse ordered' hordered' ?_ ?_⟩
  · intro id
    simp only [List.map_reverse, List.mem_reverse]
  · intro id dep
    simp only [DependsOn, List.map_reverse, List.mem_reverse]

end Empyralis.Server.DagOrder
