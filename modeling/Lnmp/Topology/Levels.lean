import Mathlib.Algebra.Order.BigOperators.Group.List
import Lnmp.Foundation.Runs
import Lnmp.Topology.Updates

/-!
# The levels of the topology graph

The loop that `full_rebuild` and `update_endpoint_path` (`services/topology.py`) share: it takes
nodes from a queue, raises the levels of their targets, and appends a target when no edge into it is
left. The root is in the queue from the start, with or without edges into it.

`layering`: without edges into the root the loop takes each node once at most, and without cycles
the levels are the lengths of the longest walks. With an edge into the root it may take nodes twice,
and never end on a cycle.
-/

set_option autoImplicit false
set_option relaxedAutoImplicit false

namespace Lnmp.Topology

open Lnmp.Foundation Lnmp.Foundation.Digraph Lnmp.Foundation.Runs
open Lnmp.Monitoring (EndpointId)

/-! ### The loop -/

/-- The nodes and edges that the loop is given, and its root. -/
structure LevelGraph (Node : Type*) where
  nodes : List Node
  nodup_nodes : nodes.Nodup
  edges : List (Node × Node)
  nodup_edges : edges.Nodup
  root : Node

/-- The queue, the levels that are set, and the numbers of the edges that are left. -/
structure LevelState (Node : Type*) where
  queue : List Node
  levels : Node → Option ℕ
  inDegrees : Node → ℤ

namespace LevelGraph

variable {Node : Type*} [DecidableEq Node]

/-- The edges between the nodes. -/
def innerEdges (graph : LevelGraph Node) : List (Node × Node) :=
  graph.edges.filter fun edge ↦ edge.1 ∈ graph.nodes ∧ edge.2 ∈ graph.nodes

/-- `adj`. -/
def adj (graph : LevelGraph Node) (node : Node) : List Node :=
  (graph.innerEdges.filter (·.1 = node)).map Prod.snd

/-- The sources of the edges into a node. -/
def sources (graph : LevelGraph Node) (node : Node) : List Node :=
  (graph.innerEdges.filter (·.2 = node)).map Prod.fst

/-- An edge between two of the nodes. -/
def Edge (graph : LevelGraph Node) (source target : Node) : Prop :=
  (source, target) ∈ graph.innerEdges

/-- The state in front of the loop. -/
def start (graph : LevelGraph Node) : LevelState Node :=
  let inDegrees : Node → ℤ := fun node ↦ (graph.sources node).length
  let queue := graph.nodes.filter fun node ↦ inDegrees node = 0 ∨ node = graph.root
  { queue := queue
    levels := fun node ↦ if node ∈ queue then some 0 else none
    inDegrees := inDegrees }

/-- One target of a node. -/
def visitTarget (level : ℕ) (state : LevelState Node) (target : Node) : LevelState Node where
  queue := if state.inDegrees target - 1 ≤ 0 then state.queue ++ [target] else state.queue
  levels :=
    if (state.levels target).all (· < level + 1) then
      Function.update state.levels target (some (level + 1))
    else state.levels
  inDegrees := Function.update state.inDegrees target (state.inDegrees target - 1)

/-- One round of the loop, for the node at the head of the queue. -/
def round (graph : LevelGraph Node) (state : LevelState Node) (node : Node) :
    Option (LevelState Node) :=
  match state.queue with
  | [] => none
  | first :: rest =>
    if first = node then
      some ((graph.adj node).foldl (visitTarget ((state.levels node).getD 0))
        { state with queue := rest })
    else none

/-- The loop takes these nodes from its queue, in this order, and ends. -/
def Ends (graph : LevelGraph Node) (dequeued : List Node) (finish : LevelState Node) : Prop :=
  run graph.round graph.start dequeued = some finish ∧ finish.queue = []

/-- The level of a node, with the default for one without a level. -/
def level (graph : LevelGraph Node) (finish : LevelState Node) (node : Node) : ℕ :=
  (finish.levels node).getD (if node ≠ graph.root then 1 else 0)

/-! ### Edges -/

variable {graph : LevelGraph Node} {source target node : Node}

theorem mem_adj : target ∈ graph.adj source ↔ graph.Edge source target := by
  simp [adj, Edge]

theorem mem_sources : source ∈ graph.sources target ↔ graph.Edge source target := by
  simp [sources, Edge]

theorem nodup_innerEdges (graph : LevelGraph Node) : graph.innerEdges.Nodup :=
  graph.nodup_edges.filter _

theorem nodup_adj (graph : LevelGraph Node) (node : Node) : (graph.adj node).Nodup := by
  refine List.Nodup.map_on ?_ (graph.nodup_innerEdges.filter _)
  intro first hfirst second hsecond hsame
  have hsource := of_decide_eq_true (List.mem_filter.mp hfirst).2
  exact Prod.ext (hsource.trans (of_decide_eq_true (List.mem_filter.mp hsecond).2).symm) hsame

theorem nodup_sources (graph : LevelGraph Node) (node : Node) : (graph.sources node).Nodup := by
  refine List.Nodup.map_on ?_ (graph.nodup_innerEdges.filter _)
  intro first hfirst second hsecond hsame
  have htarget := of_decide_eq_true (List.mem_filter.mp hfirst).2
  exact Prod.ext hsame (htarget.trans (of_decide_eq_true (List.mem_filter.mp hsecond).2).symm)

theorem Edge.mem_nodes (hedge : graph.Edge source target) :
    source ∈ graph.nodes ∧ target ∈ graph.nodes :=
  of_decide_eq_true (List.mem_filter.mp hedge).2

/-! ### What a round does -/

/-- A level raised to a candidate. -/
def raise (candidate : ℕ) : Option ℕ → Option ℕ
  | none => some candidate
  | some level => some (max level candidate)

/-- The state behind the targets of a node. -/
structure Visited (level : ℕ) (targets : List Node) (state next : LevelState Node) : Prop where
  queue : next.queue = state.queue ++ targets.filter fun target ↦ state.inDegrees target - 1 ≤ 0
  levels : ∀ node, next.levels node =
    if node ∈ targets then raise (level + 1) (state.levels node) else state.levels node
  inDegrees : ∀ node, next.inDegrees node =
    if node ∈ targets then state.inDegrees node - 1 else state.inDegrees node

theorem levels_visitTarget (level : ℕ) (state : LevelState Node) (target node : Node) :
    (visitTarget level state target).levels node =
      if node = target then raise (level + 1) (state.levels node) else state.levels node := by
  unfold visitTarget
  dsimp only
  by_cases hnode : node = target
  · subst hnode
    rw [if_pos rfl]
    cases hlevel : state.levels node with
    | none => simp [raise]
    | some old =>
      by_cases hlt : old < level + 1
      · rw [Option.all_some, if_pos (decide_eq_true hlt), Function.update_self, raise,
          max_eq_right hlt.le]
      · rw [Option.all_some, if_neg (fun hall ↦ hlt (of_decide_eq_true hall)), hlevel, raise,
          max_eq_left (not_lt.mp hlt)]
  · rw [if_neg hnode]
    split_ifs
    · exact Function.update_of_ne hnode _ _
    · rfl

theorem inDegrees_visitTarget (level : ℕ) (state : LevelState Node) (target node : Node) :
    (visitTarget level state target).inDegrees node =
      if node = target then state.inDegrees node - 1 else state.inDegrees node := by
  by_cases hnode : node = target
  · subst hnode
    rw [if_pos rfl]
    exact Function.update_self ..
  · rw [if_neg hnode]
    exact Function.update_of_ne hnode _ _

theorem visited_foldl (level : ℕ) {targets : List Node} (htargets : targets.Nodup)
    (state : LevelState Node) :
    Visited level targets state (targets.foldl (visitTarget level) state) := by
  induction targets generalizing state with
  | nil => exact ⟨(List.append_nil _).symm, fun _ ↦ rfl, fun _ ↦ rfl⟩
  | cons target rest ih =>
    obtain ⟨hfresh, hrest⟩ := List.nodup_cons.mp htargets
    obtain ⟨hqueue, hlevels, hinDegrees⟩ := ih hrest (visitTarget level state target)
    have hne : ∀ node ∈ rest, node ≠ target := fun node hnode hsame ↦ hfresh (hsame ▸ hnode)
    rw [List.foldl_cons]
    refine ⟨?_, fun node ↦ ?_, fun node ↦ ?_⟩
    · have hsame : (rest.filter fun other ↦
          (visitTarget level state target).inDegrees other - 1 ≤ 0) =
          rest.filter fun other ↦ state.inDegrees other - 1 ≤ 0 := by
        refine List.filter_congr fun other hother ↦ ?_
        rw [inDegrees_visitTarget, if_neg (hne other hother)]
      rw [hqueue, hsame, List.filter_cons]
      by_cases hlast : state.inDegrees target - 1 ≤ 0
      · simp [visitTarget, hlast]
      · simp [visitTarget, hlast]
    · rw [hlevels, levels_visitTarget]
      by_cases hnode : node = target
      · simp [hnode, hfresh]
      · simp [hnode]
    · rw [hinDegrees, inDegrees_visitTarget]
      by_cases hnode : node = target
      · simp [hnode, hfresh]
      · simp [hnode]

/-- The spec of a round. -/
theorem round_eq_some {state next : LevelState Node}
    (hround : graph.round state node = some next) :
    ∃ rest, state.queue = node :: rest ∧
      Visited ((state.levels node).getD 0) (graph.adj node) { state with queue := rest } next := by
  unfold round at hround
  split at hround
  · cases hround
  · rename_i first rest hqueue
    obtain ⟨rfl, hnext⟩ := Option.ite_none_right_eq_some.mp hround
    obtain rfl := Option.some.inj hnext
    exact ⟨rest, hqueue, visited_foldl _ (graph.nodup_adj first) _⟩

/-- There is a round as long as the queue is not empty. -/
theorem exists_round {state : LevelState Node} (hqueue : state.queue ≠ []) :
    ∃ node next, graph.round state node = some next := by
  cases hstate : state.queue with
  | nil => exact absurd hstate hqueue
  | cons first rest =>
    refine ⟨first, (graph.adj first).foldl (visitTarget ((state.levels first).getD 0))
      { state with queue := rest }, ?_⟩
    rw [round, hstate]
    exact if_pos rfl

/-! ### The edges that are left -/

/-- The number of edges into a node, less one for every time that the source of one was taken. -/
def remaining (graph : LevelGraph Node) (dequeued : List Node) (node : Node) : ℤ :=
  ((graph.sources node).map fun source ↦ 1 - (dequeued.count source : ℤ)).sum

theorem remaining_nil (graph : LevelGraph Node) (node : Node) :
    graph.remaining [] node = (graph.sources node).length := by
  simp [remaining]

theorem remaining_concat (graph : LevelGraph Node) (dequeued : List Node) (source node : Node) :
    graph.remaining (dequeued ++ [source]) node =
      if node ∈ graph.adj source then graph.remaining dequeued node - 1
      else graph.remaining dequeued node := by
  have hcount : ∀ sources : List Node, sources.Nodup →
      (sources.map fun other ↦ 1 - ((dequeued ++ [source]).count other : ℤ)).sum =
        (sources.map fun other ↦ 1 - (dequeued.count other : ℤ)).sum -
          if source ∈ sources then 1 else 0 := by
    intro sources hnodup
    induction sources with
    | nil => rfl
    | cons first rest ih =>
      obtain ⟨hfresh, hrest⟩ := List.nodup_cons.mp hnodup
      rw [List.map_cons, List.sum_cons, ih hrest, List.map_cons, List.sum_cons, List.count_append,
        List.count_singleton]
      by_cases hfirst : source = first
      · subst hfirst
        simp [hfresh]
        ring
      · simp [hfirst]
        ring
  have hiff : source ∈ graph.sources node ↔ node ∈ graph.adj source :=
    mem_sources.trans mem_adj.symm
  rw [remaining, hcount _ (graph.nodup_sources node), ← remaining]
  by_cases hedge : node ∈ graph.adj source
  · rw [if_pos (hiff.mpr hedge), if_pos hedge]
  · rw [if_neg (hiff.not.mpr hedge), if_neg hedge, sub_zero]

/-- No edge is left into a node whose sources were all taken. -/
theorem remaining_nonpos {dequeued : List Node}
    (hsources : ∀ source, graph.Edge source node → source ∈ dequeued) :
    graph.remaining dequeued node ≤ 0 := by
  refine (List.sum_le_card_nsmul _ 0 fun term hterm ↦ ?_).trans (by simp)
  obtain ⟨source, hsource, rfl⟩ := List.mem_map.mp hterm
  have hcount := List.count_pos_iff.mpr (hsources source (mem_sources.mp hsource))
  omega

/-- Where no node was taken twice, an edge is left as long as its source was not taken. -/
theorem remaining_pos {dequeued : List Node} (hnodup : dequeued.Nodup)
    (hedge : graph.Edge source node) (hsource : source ∉ dequeued) :
    0 < graph.remaining dequeued node := by
  have hterms : ∀ term ∈ (graph.sources node).map fun source ↦ 1 - (dequeued.count source : ℤ),
      0 ≤ term := by
    intro term hterm
    obtain ⟨other, -, rfl⟩ := List.mem_map.mp hterm
    have hcount := List.nodup_iff_count_le_one.mp hnodup other
    omega
  have hmem : (1 : ℤ) ∈ (graph.sources node).map fun source ↦ 1 - (dequeued.count source : ℤ) := by
    refine List.mem_map.mpr ⟨source, mem_sources.mpr hedge, ?_⟩
    rw [List.count_eq_zero_of_not_mem hsource]
    rfl
  exact lt_of_lt_of_le one_pos (List.single_le_sum hterms 1 hmem)

/-! ### The invariant of the loop -/

/-- What holds behind every round: the counts are right, a node without edges that are left was
taken or is in the queue, such nodes have levels, levels are lengths of walks, and the targets of a
node that is up to date are above it. -/
structure Layered (graph : LevelGraph Node) (dequeued : List Node) (state : LevelState Node) :
    Prop where
  inDegrees : ∀ node, state.inDegrees node = graph.remaining dequeued node
  reached : ∀ node ∈ graph.nodes, state.inDegrees node ≤ 0 → node ∈ dequeued ∨ node ∈ state.queue
  leveled : ∀ node, node ∈ dequeued ∨ node ∈ state.queue → state.levels node ≠ none
  sound : ∀ node level, state.levels node = some level → WalkTo graph.Edge level node
  raised : ∀ source target, graph.Edge source target →
    source ∈ state.queue ∨ 0 < state.inDegrees source ∨
      ∃ level, state.levels target = some level ∧ (state.levels source).getD 0 + 1 ≤ level

theorem mem_queue_start : node ∈ graph.start.queue ↔
    node ∈ graph.nodes ∧ ((graph.sources node).length = 0 ∨ node = graph.root) := by
  simp [start]

theorem layered_start (graph : LevelGraph Node) : graph.Layered [] graph.start where
  inDegrees node := (graph.remaining_nil node).symm
  reached node hmem hdegree := by
    have hzero : (graph.sources node).length = 0 := by
      have hle : ((graph.sources node).length : ℤ) ≤ 0 := hdegree
      omega
    exact Or.inr (mem_queue_start.mpr ⟨hmem, Or.inl hzero⟩)
  leveled node hnode := by
    have hqueue := hnode.resolve_left List.not_mem_nil
    have hlevel : graph.start.levels node = some 0 := if_pos hqueue
    rw [hlevel]
    exact Option.some_ne_none 0
  sound node level hlevel := by
    obtain ⟨-, hzero⟩ := Option.ite_none_right_eq_some.mp hlevel
    exact Option.some.inj hzero ▸ WalkTo.zero node
  raised source target hedge := by
    by_cases hzero : (graph.sources source).length = 0
    · exact Or.inl (mem_queue_start.mpr ⟨hedge.mem_nodes.1, Or.inl hzero⟩)
    · refine Or.inr (Or.inl ?_)
      have hpos : (0 : ℤ) < (graph.sources source).length := by omega
      exact hpos

/-- The level that a node passes on is the length of a walk to it. -/
theorem Layered.walkTo {dequeued : List Node} {state : LevelState Node}
    (hlayered : graph.Layered dequeued state) (node : Node) :
    WalkTo graph.Edge ((state.levels node).getD 0) node := by
  cases hlevel : state.levels node with
  | none => exact WalkTo.zero node
  | some level => exact hlayered.sound node level hlevel

/-- A raised level is the candidate or the old level, and at least as high as both. -/
theorem raise_eq_some {candidate level : ℕ} {old : Option ℕ}
    (hraise : raise candidate old = some level) :
    (level = candidate ∨ old = some level) ∧ candidate ≤ level := by
  cases old with
  | none =>
    obtain rfl := Option.some.inj hraise
    exact ⟨Or.inl rfl, le_rfl⟩
  | some stored =>
    obtain rfl := Option.some.inj hraise
    refine ⟨?_, le_max_right ..⟩
    rcases max_choice stored candidate with hmax | hmax
    · exact Or.inr (congrArg some hmax.symm)
    · exact Or.inl hmax

/-- A target is in the queue when its last edge is taken. -/
theorem mem_queue_of_round {state next : LevelState Node} {target : Node}
    (hround : graph.round state node = some next) (htarget : target ∈ graph.adj node)
    (hzero : next.inDegrees target ≤ 0) : target ∈ next.queue := by
  obtain ⟨rest, -, hnextQueue, -, hdegrees⟩ := round_eq_some hround
  rw [hdegrees, if_pos htarget] at hzero
  rw [hnextQueue]
  exact List.mem_append_right _ (List.mem_filter.mpr ⟨htarget, decide_eq_true hzero⟩)

/-- A node that was in the queue is the one that is taken, or is still there. -/
theorem eq_or_mem_queue_of_round {state next : LevelState Node} {other : Node}
    (hround : graph.round state node = some next) (hother : other ∈ state.queue) :
    other = node ∨ other ∈ next.queue := by
  obtain ⟨rest, hqueue, hnextQueue, -⟩ := round_eq_some hround
  rw [hqueue, List.mem_cons] at hother
  exact hother.imp_right fun hrest ↦ hnextQueue ▸ List.mem_append_left _ hrest

/-- After a round an edge has raised its target, or its source is still to be taken. -/
theorem Layered.raised_round {dequeued : List Node} {state next : LevelState Node}
    (hlayered : graph.Layered dequeued state) (hround : graph.round state node = some next)
    {source target : Node} (hedge : graph.Edge source target) :
    source ∈ next.queue ∨ 0 < next.inDegrees source ∨
      ∃ level, next.levels target = some level ∧ (next.levels source).getD 0 + 1 ≤ level := by
  obtain ⟨rest, -, -, hlevels, hdegrees⟩ := round_eq_some hround
  have htarget := hlevels target
  by_cases hsource : source ∈ graph.adj node
  · -- a source that is raised itself is in the queue, or has edges left
    by_cases hzero : next.inDegrees source ≤ 0
    · exact Or.inl (mem_queue_of_round hround hsource hzero)
    · exact Or.inr (Or.inl (not_le.mp hzero))
  · have hsame : next.levels source = state.levels source := by rw [hlevels, if_neg hsource]
    have hdegree : next.inDegrees source = state.inDegrees source := by
      rw [hdegrees, if_neg hsource]
    rw [hsame, hdegree]
    rcases hlayered.raised source target hedge with hwaiting | hleft | ⟨level, hlevel, hbelow⟩
    · rcases eq_or_mem_queue_of_round hround hwaiting with rfl | hother
      · refine Or.inr (Or.inr ?_)
        rw [if_pos (mem_adj.mpr hedge)] at htarget
        obtain ⟨level, hlevel⟩ : ∃ level, next.levels target = some level := by
          rw [htarget]
          cases state.levels target <;> exact ⟨_, rfl⟩
        exact ⟨level, hlevel, (raise_eq_some (htarget.symm.trans hlevel)).2⟩
      · exact Or.inl hother
    · exact Or.inr (Or.inl hleft)
    · refine Or.inr (Or.inr ?_)
      rw [hlevel] at htarget
      split_ifs at htarget
      · exact ⟨_, htarget, hbelow.trans (le_max_left ..)⟩
      · exact ⟨level, htarget, hbelow⟩

/-- The step lemma. -/
theorem Layered.round {dequeued : List Node} {state next : LevelState Node}
    (hlayered : graph.Layered dequeued state) (hround : graph.round state node = some next) :
    graph.Layered (dequeued ++ [node]) next := by
  obtain ⟨rest, hqueue, hnextQueue, hlevels, hdegrees⟩ := round_eq_some hround
  refine ⟨fun other ↦ ?_, fun other hmem hdegree ↦ ?_, fun other hother ↦ ?_,
    fun other level hlevel ↦ ?_, fun source target ↦ hlayered.raised_round hround⟩
  · rw [hdegrees, remaining_concat, hlayered.inDegrees]
  · by_cases htarget : other ∈ graph.adj node
    · exact Or.inr (mem_queue_of_round hround htarget hdegree)
    · rw [hdegrees, if_neg htarget] at hdegree
      rcases hlayered.reached other hmem hdegree with htaken | hwaiting
      · exact Or.inl (List.mem_append_left _ htaken)
      · rcases eq_or_mem_queue_of_round hround hwaiting with rfl | hother
        · exact Or.inl List.mem_concat_self
        · exact Or.inr hother
  · rw [hlevels]
    by_cases htarget : other ∈ graph.adj node
    · rw [if_pos htarget]
      cases state.levels other <;> exact Option.some_ne_none _
    · rw [if_neg htarget]
      refine hlayered.leveled other ?_
      rw [hnextQueue, List.mem_append, List.mem_append, List.mem_singleton] at hother
      rw [hqueue, List.mem_cons]
      rcases hother with (htaken | hnode) | hother | hfiltered
      · exact Or.inl htaken
      · exact Or.inr (Or.inl hnode)
      · exact Or.inr (Or.inr hother)
      · exact absurd (List.mem_filter.mp hfiltered).1 htarget
  · rw [hlevels] at hlevel
    by_cases htarget : other ∈ graph.adj node
    · rw [if_pos htarget] at hlevel
      rcases (raise_eq_some hlevel).1 with rfl | hold
      · exact WalkTo.succ (hlayered.walkTo node) (mem_adj.mp htarget)
      · exact hlayered.sound other level hold
    · rw [if_neg htarget] at hlevel
      exact hlayered.sound other level hlevel

/-- The run lemma. -/
theorem layered_of_run {dequeued : List Node} {state : LevelState Node}
    (hrun : run graph.round graph.start dequeued = some state) : graph.Layered dequeued state := by
  induction dequeued using List.reverseRecOn generalizing state with
  | nil =>
    obtain rfl := Option.some.inj hrun
    exact graph.layered_start
  | append_singleton dequeued node ih =>
    obtain ⟨middle, hmiddle, hlast⟩ := run_concat_eq_some.mp hrun
    exact (ih hmiddle).round hlast

/-! ### Acyclic graphs -/

section Acyclic

variable {dequeued : List Node} {state next finish : LevelState Node}

/-- Without cycles the loop ends: a node weighs more than its targets together, so that the weight
of the queue falls. -/
theorem exists_ends_of_acyclic (hacyclic : Acyclic graph.Edge) :
    ∃ dequeued finish, graph.Ends dequeued finish := by
  have hinner : Acyclic fun source target ↦ (source, target) ∈ graph.innerEdges := hacyclic
  obtain ⟨weight, hweight⟩ := exists_weight hinner
  have hadj : ∀ node, ((graph.adj node).map weight).sum < weight node := by
    intro node
    rw [adj, List.map_map]
    exact hweight node
  have hfall : ∀ state node next, graph.round state node = some next →
      (next.queue.map weight).sum < (state.queue.map weight).sum := by
    intro state node next hround
    obtain ⟨rest, hqueue, hvisited⟩ := round_eq_some hround
    rw [hvisited.queue, hqueue, List.map_append, List.sum_append, List.map_cons, List.sum_cons]
    have hsub : (((graph.adj node).filter fun target ↦ state.inDegrees target - 1 ≤ 0).map
        weight).sum ≤ ((graph.adj node).map weight).sum :=
      (List.filter_sublist.map weight).sum_le_sum fun _ _ ↦ Nat.zero_le _
    have hlt := hadj node
    dsimp only
    omega
  refine exists_run_of_bounded (graph.start.queue.map weight).sum
    (fun dequeued finish hrun ↦ ?_) fun state hqueue ↦ exists_round hqueue
  have hle := length_add_measure_le _ hfall hrun
  omega

/-- Without cycles every node is taken. -/
theorem Ends.mem_dequeued (hends : graph.Ends dequeued finish) (hacyclic : Acyclic graph.Edge)
    (hnode : node ∈ graph.nodes) : node ∈ dequeued := by
  obtain ⟨rank, hrank⟩ := (acyclic_iff_exists_rank graph.innerEdges).mp hacyclic
  have hlayered := layered_of_run hends.1
  induction hheight : rank node using Nat.strong_induction_on generalizing node with
  | _ height ih =>
    have hsources : ∀ source, graph.Edge source node → source ∈ dequeued := fun source hedge ↦
      ih (rank source) (hheight ▸ hrank source node hedge) hedge.mem_nodes.1 rfl
    have hdegree := (hlayered.inDegrees node).trans_le (remaining_nonpos hsources)
    refine (hlayered.reached node hnode hdegree).resolve_right fun hwaiting ↦ ?_
    rw [hends.2] at hwaiting
    exact List.not_mem_nil hwaiting

/-- The levels are the lengths of the longest walks, and one more than those of the sources. -/
structure LongestPaths (graph : LevelGraph Node) (finish : LevelState Node) : Prop where
  longest : ∀ node ∈ graph.nodes,
    IsGreatest {length | WalkTo graph.Edge length node} (graph.level finish node)
  recurrence : ∀ node ∈ graph.nodes, (∃ source, graph.Edge source node) →
    IsGreatest {next | ∃ source, graph.Edge source node ∧ next = graph.level finish source + 1}
      (graph.level finish node)
  initial : ∀ node ∈ graph.nodes, (¬∃ source, graph.Edge source node) →
    graph.level finish node = 0

theorem Ends.longestPaths (hends : graph.Ends dequeued finish) (hacyclic : Acyclic graph.Edge) :
    graph.LongestPaths finish := by
  have hlayered := layered_of_run hends.1
  have hlevels : ∀ node ∈ graph.nodes, finish.levels node = some (graph.level finish node) := by
    intro node hnode
    have hleveled := hlayered.leveled node (Or.inl (hends.mem_dequeued hacyclic hnode))
    obtain ⟨stored, hstored⟩ := Option.ne_none_iff_exists'.mp hleveled
    rw [level, hstored, Option.getD_some]
  have hwalk : ∀ node ∈ graph.nodes, WalkTo graph.Edge (graph.level finish node) node :=
    fun node hnode ↦ hlayered.sound node _ (hlevels node hnode)
  have hrises : ∀ source target, graph.Edge source target →
      graph.level finish source + 1 ≤ graph.level finish target := by
    intro source target hedge
    have hdegree : finish.inDegrees source ≤ 0 := by
      rw [hlayered.inDegrees]
      exact remaining_nonpos fun other hother ↦ hends.mem_dequeued hacyclic hother.mem_nodes.1
    rcases hlayered.raised source target hedge with hwaiting | hleft | ⟨level, hlevel, hbelow⟩
    · rw [hends.2] at hwaiting
      exact absurd hwaiting List.not_mem_nil
    · exact absurd hdegree (not_le.mpr hleft)
    · rw [hlevels source hedge.mem_nodes.1, Option.getD_some] at hbelow
      rw [hlevels target hedge.mem_nodes.2] at hlevel
      exact Option.some.inj hlevel ▸ hbelow
  exact ⟨fun node hnode ↦ isGreatest_level hrises (hwalk node hnode),
    fun node hnode ↦ (level_recurrence hrises (hwalk node hnode)).1,
    fun node hnode ↦ (level_recurrence hrises (hwalk node hnode)).2⟩

end Acyclic

/-! ### Graphs without edges into the root -/

section Once

variable {dequeued : List Node} {state next finish : LevelState Node}

/-- What holds behind every round when no edge enters the root: a node enters the queue once, when
no edge into it is left. -/
structure TakesOnce (graph : LevelGraph Node) (dequeued : List Node) (state : LevelState Node) :
    Prop where
  inDegrees : ∀ node, state.inDegrees node = graph.remaining dequeued node
  nodup : (dequeued ++ state.queue).Nodup
  ready : ∀ node ∈ dequeued ++ state.queue, node ∈ graph.nodes ∧ state.inDegrees node ≤ 0

theorem takesOnce_start (hroot : ∀ source, ¬graph.Edge source graph.root) :
    graph.TakesOnce [] graph.start where
  inDegrees node := (graph.remaining_nil node).symm
  nodup := graph.nodup_nodes.filter _
  ready node hnode := by
    obtain ⟨hmem, hstart⟩ := mem_queue_start.mp hnode
    refine ⟨hmem, ?_⟩
    have hempty : (graph.sources node).length = 0 := by
      rcases hstart with hzero | rfl
      · exact hzero
      · rw [List.length_eq_zero_iff, List.eq_nil_iff_forall_not_mem]
        exact fun source hsource ↦ hroot source (mem_sources.mp hsource)
    show ((graph.sources node).length : ℤ) ≤ 0
    omega

/-- The step lemma. -/
theorem TakesOnce.round (honce : graph.TakesOnce dequeued state)
    (hround : graph.round state node = some next) : graph.TakesOnce (dequeued ++ [node]) next := by
  obtain ⟨rest, hqueue, hnextQueue, hlevels, hdegrees⟩ := round_eq_some hround
  have hnodup := honce.nodup
  have hready := honce.ready
  rw [hqueue, List.append_cons] at hnodup hready
  have hnode : node ∉ dequeued := by
    have htaken := (List.nodup_append.mp (List.nodup_append.mp hnodup).1).2.2
    exact fun hmem ↦ htaken node hmem node (List.mem_singleton_self _) rfl
  -- a target has an edge left, so that it was not in the queue before
  have hfresh : ∀ target ∈ graph.adj node, target ∉ dequeued ++ [node] ++ rest := by
    intro target htarget hmem
    have hpos := remaining_pos (List.nodup_append.mp honce.nodup).1 (mem_adj.mp htarget) hnode
    have hle := (hready target hmem).2
    rw [honce.inDegrees] at hle
    omega
  refine ⟨fun other ↦ ?_, ?_, fun other hother ↦ ?_⟩
  · rw [hdegrees, remaining_concat, honce.inDegrees]
  · rw [hnextQueue, ← List.append_assoc, List.nodup_append]
    refine ⟨hnodup, (graph.nodup_adj node).filter _, fun old hold target htarget hsame ↦ ?_⟩
    exact hfresh target (List.mem_filter.mp htarget).1 (hsame ▸ hold)
  · rw [hnextQueue, ← List.append_assoc, List.mem_append] at hother
    rw [hdegrees]
    rcases hother with hold | hnew
    · obtain ⟨hmem, hle⟩ := hready other hold
      refine ⟨hmem, ?_⟩
      dsimp only
      split_ifs <;> omega
    · obtain ⟨htarget, hzero⟩ := List.mem_filter.mp hnew
      refine ⟨(mem_adj.mp htarget).mem_nodes.2, ?_⟩
      rw [if_pos htarget]
      exact of_decide_eq_true hzero

/-- The run lemma. -/
theorem takesOnce_of_run (hroot : ∀ source, ¬graph.Edge source graph.root)
    (hrun : run graph.round graph.start dequeued = some state) :
    graph.TakesOnce dequeued state := by
  induction dequeued using List.reverseRecOn generalizing state with
  | nil =>
    obtain rfl := Option.some.inj hrun
    exact takesOnce_start hroot
  | append_singleton dequeued node ih =>
    obtain ⟨middle, hmiddle, hlast⟩ := run_concat_eq_some.mp hrun
    exact (ih hmiddle).round hlast

/-- The nodes that are taken are some of the nodes, each taken once. -/
theorem exists_ends_of_root (hroot : ∀ source, ¬graph.Edge source graph.root) :
    ∃ dequeued finish, graph.Ends dequeued finish := by
  refine exists_run_of_bounded graph.nodes.length (fun dequeued state hrun ↦ ?_)
    fun state hqueue ↦ exists_round hqueue
  have honce := takesOnce_of_run hroot hrun
  have hnodup := (List.nodup_append.mp honce.nodup).1
  exact (hnodup.subperm fun node hmem ↦
    (honce.ready node (List.mem_append_left _ hmem)).1).length_le

end Once

/-- Without edges into the root the loop ends and takes each node once at most; without cycles it
ends, and the levels are the lengths of the longest walks. -/
theorem layering (graph : LevelGraph Node) :
    ((∀ source, ¬graph.Edge source graph.root) →
      (∃ dequeued finish, graph.Ends dequeued finish) ∧
        ∀ dequeued finish, graph.Ends dequeued finish → dequeued.Nodup) ∧
    (Acyclic graph.Edge →
      (∃ dequeued finish, graph.Ends dequeued finish) ∧
        ∀ dequeued finish, graph.Ends dequeued finish → graph.LongestPaths finish) := by
  refine ⟨fun hroot ↦ ⟨exists_ends_of_root hroot, fun dequeued finish hends ↦ ?_⟩,
    fun hacyclic ↦ ⟨exists_ends_of_acyclic hacyclic, fun _ _ hends ↦ hends.longestPaths hacyclic⟩⟩
  exact (List.nodup_append.mp (takesOnce_of_run hroot hends.1).nodup).1

end LevelGraph

/-! ### A cycle through the root -/

theorem nodup_nodes_rootCycle : [false, true].Nodup := by decide

theorem nodup_edges_rootCycle : [(false, true), (true, false)].Nodup := by decide

/-- Two nodes with edges to each other, and one of them the root. -/
def rootCycle : LevelGraph Bool where
  nodes := [false, true]
  nodup_nodes := nodup_nodes_rootCycle
  edges := [(false, true), (true, false)]
  nodup_edges := nodup_edges_rootCycle
  root := false

/-- One of the two nodes waits, and no count is above one. -/
def OneWaits (state : LevelState Bool) : Prop :=
  (∃ node, state.queue = [node]) ∧ ∀ node, state.inDegrees node ≤ 1

/-- A round takes the node that waits, and puts the other one into the queue. -/
theorem OneWaits.round {state next : LevelState Bool} {node : Bool} (hwaits : OneWaits state)
    (hround : rootCycle.round state node = some next) : OneWaits next := by
  obtain ⟨⟨first, hfirst⟩, hdegrees⟩ := hwaits
  obtain ⟨rest, hstate, hvisited⟩ := LevelGraph.round_eq_some hround
  obtain ⟨rfl, rfl⟩ := List.cons_eq_cons.mp (hfirst.symm.trans hstate)
  have hadj : rootCycle.adj first = [!first] := by cases first <;> decide
  have hlast := hdegrees (!first)
  refine ⟨⟨!first, ?_⟩, fun other ↦ ?_⟩
  · rw [hvisited.queue, hadj]
    simp [hlast]
  · have hother := hdegrees other
    rw [hvisited.inDegrees]
    dsimp only
    split_ifs <;> omega

theorem oneWaits_start : OneWaits rootCycle.start := ⟨⟨false, by decide⟩, by decide⟩

/-- On a cycle through the root the loop does not end. -/
theorem not_ends_rootCycle : ¬∃ dequeued finish, rootCycle.Ends dequeued finish := by
  rintro ⟨dequeued, finish, hrun, hqueue⟩
  have hkeep : ∀ state node next, OneWaits state → True →
      rootCycle.round state node = some next → OneWaits next :=
    fun state node next hwaits _ hround ↦ hwaits.round hround
  obtain ⟨⟨node, hnode⟩, -⟩ :=
    invariant_of_forall_mem OneWaits hkeep oneWaits_start (fun _ _ ↦ trivial) hrun
  exact List.cons_ne_nil _ _ (hnode.symm.trans hqueue)

/-! ### The graphs of the manager -/

/-- What the loop is given. -/
def Graph.levelGraph (graph : Graph) : LevelGraph NodeId where
  nodes := graph.nodes.keys
  nodup_nodes := graph.nodes.nodup_keys
  edges := graph.edges
  nodup_edges := graph.nodup_edges
  root := .root

/-- No link of a path leads to the root. -/
theorem ne_root_of_mem_steps {monitoredByIp : Dict String EndpointId} {epId : EndpointId}
    {hops : List Hop} {last : List NodeId} {link : NodeId × NodeId}
    (hlast : ∀ id ∈ last, id = .monitored epId)
    (hlink : link ∈ steps .root (hopNodes monitoredByIp epId none hops ++ last)) :
    link.2 ≠ .root := by
  intro hroot
  have hmem := (of_mem_steps hlink).2.1
  rw [hroot] at hmem
  rcases List.mem_append.mp hmem with hhop | hend
  · rcases mem_hopNodes_cases hhop with hishop | ⟨_, _, _, hmonitored⟩
    · exact Bool.false_ne_true hishop
    · exact NodeId.noConfusion hmonitored
  · exact NodeId.noConfusion (hlast _ hend)

theorem Manager.ne_root_fullRebuild (tables : Tables) :
    ∀ edge ∈ (Manager.fullRebuild tables).graph.edges, edge.2 ≠ .root := by
  intro edge hedge
  rcases (mem_edges_buildGraph _ _ edge).mp hedge with ⟨hlink, -⟩ | ⟨_, -, rfl | ⟨_, -, rfl⟩⟩
  · obtain ⟨epId, epData, -, hentry⟩ := (Inventory.mem_links_iff _ _ edge).mp hlink
    rcases (Inventory.mem_entryLinks_iff _ _ epId epData edge).mp hentry with
      ⟨_, -, rfl⟩ | ⟨-, hstep⟩
    · exact NodeId.noConfusion
    · exact ne_root_of_mem_steps (fun id hid ↦ List.mem_singleton.mp hid) hstep
  · exact NodeId.noConfusion
  · exact NodeId.noConfusion

theorem Manager.ne_root_apply {manager : Manager} (hmanager : manager.WellFormed)
    (hroot : ∀ edge ∈ manager.graph.edges, edge.2 ≠ .root) (call : Call) :
    ∀ edge ∈ (manager.apply call).graph.edges, edge.2 ≠ .root := by
  intro edge hedge
  cases call with
  | fullRebuild tables => exact ne_root_fullRebuild tables edge hedge
  | updateNodeStatus id newState =>
    exact hroot edge (manager.edges_updateNodeStatus id newState ▸ hedge)
  | updateEndpointPath epId newHops =>
    by_cases hdisabled : epId ∈ manager.inventory.disabledTopologyEpIds
    · rw [Manager.apply, manager.updateEndpointPath_of_mem newHops hdisabled] at hedge
      exact hroot edge hedge
    · obtain ⟨-, -, hedges⟩ := manager.graph_updateEndpointPath newHops hmanager.graph hdisabled
      rcases ((hedges edge).mp hedge).1 with ⟨hold, -⟩ | hstep
      · exact hroot edge hold
      · refine ne_root_of_mem_steps (fun id hid ↦ ?_) hstep
        split_ifs at hid
        · exact List.mem_singleton.mp hid
        · exact absurd hid List.not_mem_nil

/-- In every history of the manager no edge enters the root, so that the loop takes each node once
at most. -/
theorem Manager.not_edge_root {manager : Manager} {calls : List Call}
    (hrun : run Manager.step Manager.empty calls = some manager) (source : NodeId) :
    ¬manager.graph.levelGraph.Edge source .root := by
  have hkeep : ∀ state call next, state.WellFormed ∧ (∀ edge ∈ state.graph.edges, edge.2 ≠ .root) →
      True → Manager.step state call = some next →
      next.WellFormed ∧ ∀ edge ∈ next.graph.edges, edge.2 ≠ .root := by
    rintro state call next ⟨hstate, hroot⟩ - hnext
    obtain rfl := Option.some.inj hnext
    exact ⟨hstate.apply call, ne_root_apply hstate hroot call⟩
  have hreached := invariant_of_forall_mem
    (fun state : Manager ↦ state.WellFormed ∧ ∀ edge ∈ state.graph.edges, edge.2 ≠ .root) hkeep
    ⟨wellFormed_empty, fun _ hedge ↦ absurd hedge List.not_mem_nil⟩ (fun _ _ ↦ trivial) hrun
  exact fun hedge ↦ hreached.2 _ (List.mem_filter.mp hedge).1 rfl

end Lnmp.Topology
