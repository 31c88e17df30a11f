import Mathlib.Algebra.Order.BigOperators.Group.List
import Mathlib.Algebra.Order.Ring.Nat
import Mathlib.Data.Finset.Card
import Mathlib.Logic.Relation
import Mathlib.Order.Bounds.Basic
import Mathlib.Tactic.Common

/-!
# Directed graphs

`steps` is the list of the links along a path, where a node that stands twice in a row makes no
link. `Acyclic` says that no node of a relation can be reached from itself. A relation given by a
list of edges is acyclic exactly when its nodes can be ranked so that every edge rises
(`acyclic_iff_exists_rank`).

`reflTransGen_cut` cuts a path at its last entry into a node: what is reached at all is reached
without entering the node, from the old start or from the node itself.
-/

set_option autoImplicit false
set_option relaxedAutoImplicit false

namespace Lnmp.Foundation.Digraph

open Relation

variable {Node : Type*}

/-! ### Paths -/

section Paths

/-- The last node of a path. -/
def pathEnd (start : Node) (path : List Node) : Node := path.getLast?.getD start

@[simp] theorem pathEnd_nil (start : Node) : pathEnd start [] = start := rfl

@[simp] theorem pathEnd_cons (start next : Node) (rest : List Node) :
    pathEnd start (next :: rest) = pathEnd next rest := by
  rw [pathEnd, pathEnd, List.getLast?_cons, Option.getD_some]

variable [DecidableEq Node]

/-- The links of a path from a start: the pairs of consecutive nodes that differ. -/
def steps : Node → List Node → List (Node × Node)
  | _, [] => []
  | start, next :: rest =>
    if start = next then steps next rest else (start, next) :: steps next rest

@[simp] theorem steps_nil (start : Node) : steps start [] = [] := rfl

/-- A node that stands twice in a row makes no link, and any other one makes one. -/
theorem mem_steps_cons {start next : Node} {rest : List Node} {link : Node × Node} :
    link ∈ steps start (next :: rest) ↔
      link = (start, next) ∧ start ≠ next ∨ link ∈ steps next rest := by
  rw [steps]
  by_cases hsame : start = next <;> simp [hsame]

theorem mem_steps_append {start : Node} {first second : List Node} {link : Node × Node} :
    link ∈ steps start (first ++ second) ↔
      link ∈ steps start first ∨ link ∈ steps (pathEnd start first) second := by
  induction first generalizing start with
  | nil => simp
  | cons next rest ih =>
    rw [List.cons_append, mem_steps_cons, mem_steps_cons, ih, pathEnd_cons, or_assoc]

/-- A link joins two different nodes of the path, and does not lead to the start alone. -/
theorem of_mem_steps {start source target : Node} {path : List Node}
    (hlink : (source, target) ∈ steps start path) :
    (source = start ∨ source ∈ path) ∧ target ∈ path ∧ source ≠ target := by
  induction path generalizing start with
  | nil => exact absurd hlink List.not_mem_nil
  | cons next rest ih =>
    rcases mem_steps_cons.mp hlink with ⟨hsame, hne⟩ | hlater
    · obtain ⟨rfl, rfl⟩ := Prod.mk.inj hsame
      exact ⟨Or.inl rfl, List.mem_cons_self .., hne⟩
    · obtain ⟨hsource, htarget, hne⟩ := ih hlater
      refine ⟨Or.inr ?_, List.mem_cons_of_mem _ htarget, hne⟩
      exact hsource.elim (fun hsame ↦ hsame ▸ List.mem_cons_self ..) (List.mem_cons_of_mem _)

/-- Every node of a path other than its start has a link into it. -/
theorem exists_mem_steps {start target : Node} {path : List Node} (htarget : target ∈ path)
    (hne : target ≠ start) : ∃ source, (source, target) ∈ steps start path := by
  induction path generalizing start with
  | nil => exact absurd htarget List.not_mem_nil
  | cons next rest ih =>
    by_cases hnext : target = next
    · subst hnext
      exact ⟨start, mem_steps_cons.mpr (Or.inl ⟨rfl, hne.symm⟩)⟩
    · obtain ⟨source, hlink⟩ := ih ((List.mem_cons.mp htarget).resolve_left hnext) hnext
      exact ⟨source, mem_steps_cons.mpr (Or.inr hlink)⟩

/-- What is reached along the rest of a path is reached along the whole path. -/
theorem reflTransGen_steps_cons {start next target : Node} {rest : List Node}
    (hreach : ReflTransGen (fun source target ↦ (source, target) ∈ steps next rest) next target) :
    ReflTransGen (fun source target ↦ (source, target) ∈ steps start (next :: rest))
      start target := by
  induction hreach with
  | refl =>
    by_cases hsame : start = next
    · exact hsame ▸ ReflTransGen.refl
    · exact ReflTransGen.single (mem_steps_cons.mpr (Or.inl ⟨rfl, hsame⟩))
  | tail _ hlink ih => exact ih.tail (mem_steps_cons.mpr (Or.inr hlink))

/-- Every node of a path is reached along its links. -/
theorem reflTransGen_steps {start target : Node} {path : List Node} (htarget : target ∈ path) :
    ReflTransGen (fun source target ↦ (source, target) ∈ steps start path) start target := by
  induction path generalizing start with
  | nil => exact absurd htarget List.not_mem_nil
  | cons next rest ih =>
    rcases List.mem_cons.mp htarget with rfl | hlater
    · exact reflTransGen_steps_cons ReflTransGen.refl
    · exact reflTransGen_steps_cons (ih hlater)

end Paths

/-! ### Cutting -/

/-- A path cut at its last entry into a node. -/
theorem reflTransGen_cut {edge : Node → Node → Prop} (cut : Node) {start finish : Node}
    (hreach : ReflTransGen edge start finish) :
    ReflTransGen (fun source target ↦ edge source target ∧ target ≠ cut) start finish ∨
      ReflTransGen (fun source target ↦ edge source target ∧ target ≠ cut) cut finish := by
  induction hreach with
  | refl => exact Or.inl ReflTransGen.refl
  | @tail middle finish _ hedge ih =>
    by_cases hcut : finish = cut
    · exact Or.inr (hcut ▸ ReflTransGen.refl)
    · exact ih.imp (·.tail ⟨hedge, hcut⟩) (·.tail ⟨hedge, hcut⟩)

/-! ### Cycles -/

/-- No node can be reached from itself. -/
def Acyclic (edge : Node → Node → Prop) : Prop := ∀ node, ¬TransGen edge node node

/-- Fewer edges make no new cycle. -/
theorem Acyclic.mono {edge other : Node → Node → Prop} (hacyclic : Acyclic edge)
    (hsub : ∀ source target, other source target → edge source target) : Acyclic other :=
  fun node hcycle ↦ hacyclic node (TransGen.mono hsub _ _ hcycle)

/-- Where only edges at one node are added, and none of them is looked at that enters it, there is
no new cycle: a cycle leaves only nodes that it enters. -/
theorem acyclic_of_not_entered {edge other : Node → Node → Prop} {entry : Node}
    (hacyclic : Acyclic edge)
    (hsub : ∀ source target, source ≠ entry → target ≠ entry → other source target →
      edge source target) :
    Acyclic fun source target ↦ other source target ∧ target ≠ entry := by
  intro node hcycle
  have hpath : ∀ {finish}, node ≠ entry →
      TransGen (fun source target ↦ other source target ∧ target ≠ entry) node finish →
      TransGen edge node finish ∧ finish ≠ entry := by
    intro finish hnode hreach
    induction hreach with
    | single hedge => exact ⟨TransGen.single (hsub _ _ hnode hedge.2 hedge.1), hedge.2⟩
    | tail _ hedge ih => exact ⟨ih.1.tail (hsub _ _ ih.2 hedge.2 hedge.1), hedge.2⟩
  obtain ⟨-, -, -, hentry⟩ := TransGen.tail'_iff.mp hcycle
  exact hacyclic node (hpath hentry hcycle).1

/-- A cycle through no node but one enters that node: where the edges that do not enter a node make
no cycle, the others make none exactly when they close no path from the node. -/
theorem acyclic_iff_of_entry {edge : Node → Node → Prop} (entry : Node)
    (hrest : Acyclic fun source target ↦ edge source target ∧ target ≠ entry) :
    Acyclic edge ↔ ∀ source, edge source entry →
      ¬ReflTransGen (fun source target ↦ edge source target ∧ target ≠ entry) entry source := by
  constructor
  · intro hacyclic source hedge hreach
    exact hacyclic entry (TransGen.tail' (ReflTransGen.mono (fun _ _ hstep ↦ hstep.1) _ _ hreach)
      hedge)
  · intro hclosed node hcycle
    -- A cycle that does not enter the node is one of the rest, so that this one does.
    have henters : ∀ {finish}, TransGen edge node finish →
        TransGen (fun source target ↦ edge source target ∧ target ≠ entry) node finish ∨
          ∃ source, ReflTransGen edge node source ∧ edge source entry ∧
            ReflTransGen (fun source target ↦ edge source target ∧ target ≠ entry) entry
              finish := by
      intro finish hreach
      induction hreach with
      | @single finish hedge =>
        by_cases hentry : finish = entry
        · subst hentry
          exact Or.inr ⟨node, ReflTransGen.refl, hedge, ReflTransGen.refl⟩
        · exact Or.inl (TransGen.single ⟨hedge, hentry⟩)
      | @tail middle finish hpath hedge ih =>
        by_cases hentry : finish = entry
        · subst hentry
          exact Or.inr ⟨middle, hpath.to_reflTransGen, hedge, ReflTransGen.refl⟩
        · refine ih.imp (·.tail ⟨hedge, hentry⟩) ?_
          rintro ⟨source, hsource, hlast, hrest⟩
          exact ⟨source, hsource, hlast, hrest.tail ⟨hedge, hentry⟩⟩
    rcases henters hcycle with hinner | ⟨source, hsource, hedge, hback⟩
    · exact hrest node hinner
    · refine hclosed source hedge ?_
      exact (reflTransGen_cut entry hsource).elim hback.trans fun hlast ↦ hlast

/-- A rank that rises along every edge rises along every path. -/
theorem rank_lt_of_transGen {edge : Node → Node → Prop} {rank : Node → ℕ}
    (hrank : ∀ source target, edge source target → rank source < rank target)
    {source target : Node} (hreach : TransGen edge source target) : rank source < rank target := by
  induction hreach with
  | single hedge => exact hrank _ _ hedge
  | tail _ hedge ih => exact ih.trans (hrank _ _ hedge)

/-- The number of nodes from which a node can be reached. -/
noncomputable def depth (edges : List (Node × Node)) (node : Node) : ℕ := by
  classical
  exact ((edges.map Prod.fst).toFinset.filter fun source ↦
    TransGen (fun source target ↦ (source, target) ∈ edges) source node).card

/-- Along an edge of an acyclic relation the depth rises. -/
theorem depth_lt_depth {edges : List (Node × Node)}
    (hacyclic : Acyclic fun source target ↦ (source, target) ∈ edges) {source target : Node}
    (hedge : (source, target) ∈ edges) : depth edges source < depth edges target := by
  classical
  refine Finset.card_lt_card (Finset.ssubset_iff_of_subset ?_ |>.mpr ⟨source, ?_, ?_⟩)
  · intro node hnode
    obtain ⟨hmem, hreach⟩ := Finset.mem_filter.mp hnode
    exact Finset.mem_filter.mpr ⟨hmem, hreach.tail hedge⟩
  · refine Finset.mem_filter.mpr ⟨?_, TransGen.single hedge⟩
    exact List.mem_toFinset.mpr (List.mem_map.mpr ⟨_, hedge, rfl⟩)
  · exact fun hnode ↦ hacyclic source (Finset.mem_filter.mp hnode).2

/-- A list of edges has no cycle exactly when its nodes can be ranked so that every edge rises. -/
theorem acyclic_iff_exists_rank (edges : List (Node × Node)) :
    Acyclic (fun source target ↦ (source, target) ∈ edges) ↔
      ∃ rank : Node → ℕ, ∀ source target, (source, target) ∈ edges → rank source < rank target := by
  constructor
  · exact fun hacyclic ↦ ⟨depth edges, fun _ _ hedge ↦ depth_lt_depth hacyclic hedge⟩
  · rintro ⟨rank, hrank⟩ node hcycle
    exact absurd (rank_lt_of_transGen hrank hcycle) (lt_irrefl _)

/-- The nodes from which a node can be reached are sources of edges. -/
theorem depth_le_length (edges : List (Node × Node)) (node : Node) :
    depth edges node ≤ edges.length := by
  classical
  calc depth edges node ≤ (edges.map Prod.fst).toFinset.card := Finset.card_filter_le ..
    _ ≤ (edges.map Prod.fst).length := List.toFinset_card_le _
    _ = edges.length := List.length_map ..

/-- The nodes of an acyclic list of edges have weights that exceed the sum of the weights of their
targets. -/
theorem exists_weight [DecidableEq Node] {edges : List (Node × Node)}
    (hacyclic : Acyclic fun source target ↦ (source, target) ∈ edges) :
    ∃ weight : Node → ℕ, ∀ source,
      ((edges.filter (·.1 = source)).map fun edge ↦ weight edge.2).sum < weight source := by
  refine ⟨fun node ↦ (edges.length + 1) ^ (edges.length - depth edges node), fun source ↦ ?_⟩
  dsimp only
  -- every target is deeper than the source
  have hdeeper : ∀ edge ∈ edges.filter (·.1 = source),
      depth edges source < depth edges edge.2 := by
    intro edge hedge
    obtain ⟨hmem, hsource⟩ := List.mem_filter.mp hedge
    obtain rfl : edge.1 = source := of_decide_eq_true hsource
    exact depth_lt_depth hacyclic hmem
  by_cases hout : edges.filter (·.1 = source) = []
  · rw [hout]
    exact Nat.pow_pos (Nat.succ_pos _)
  · obtain ⟨first, hfirst⟩ := List.exists_mem_of_ne_nil _ hout
    have hlt := hdeeper first hfirst
    have hle := depth_le_length edges first.2
    obtain ⟨height, hheight⟩ : ∃ height, edges.length - depth edges source = height + 1 :=
      ⟨edges.length - depth edges source - 1, by omega⟩
    rw [hheight]
    calc ((edges.filter (·.1 = source)).map fun edge ↦
          (edges.length + 1) ^ (edges.length - depth edges edge.2)).sum
        ≤ (edges.filter (·.1 = source)).length * (edges.length + 1) ^ height := by
          refine (List.sum_le_card_nsmul _ ((edges.length + 1) ^ height) ?_).trans (by simp)
          intro weight hweight
          obtain ⟨edge, hedge, rfl⟩ := List.mem_map.mp hweight
          have hbelow := hdeeper edge hedge
          exact Nat.pow_le_pow_right (Nat.succ_pos _) (by omega)
      _ ≤ edges.length * (edges.length + 1) ^ height :=
          Nat.mul_le_mul_right _ (List.length_filter_le ..)
      _ < (edges.length + 1) * (edges.length + 1) ^ height :=
          Nat.mul_lt_mul_of_pos_right (Nat.lt_succ_self _) (Nat.pow_pos (Nat.succ_pos _))
      _ = (edges.length + 1) ^ (height + 1) := (Nat.pow_succ' ..).symm

/-! ### Lengths -/

/-- A walk with this number of edges ends at a node. -/
inductive WalkTo (edge : Node → Node → Prop) : ℕ → Node → Prop
  | zero (node : Node) : WalkTo edge 0 node
  | succ {length : ℕ} {source target : Node} (hwalk : WalkTo edge length source)
      (hedge : edge source target) : WalkTo edge (length + 1) target

section Levels

variable {edge : Node → Node → Prop} {level : Node → ℕ} {node : Node}

/-- Where the levels rise along every edge, no walk to a node is longer than its level. -/
theorem WalkTo.length_le (hrises : ∀ source target, edge source target →
    level source + 1 ≤ level target) {length : ℕ} (hwalk : WalkTo edge length node) :
    length ≤ level node := by
  induction hwalk with
  | zero node => exact Nat.zero_le _
  | succ _ hedge ih => exact (Nat.succ_le_succ ih).trans (hrises _ _ hedge)

/-- The level of a node that rises along every edge, and that a walk attains, is the length of the
longest walk to the node. -/
theorem isGreatest_level (hrises : ∀ source target, edge source target →
    level source + 1 ≤ level target) (hwalk : WalkTo edge (level node) node) :
    IsGreatest {length | WalkTo edge length node} (level node) :=
  ⟨hwalk, fun _ hlength ↦ hlength.length_le hrises⟩

/-- Such a level is one more than the greatest level of a source, or zero without sources. -/
theorem level_recurrence (hrises : ∀ source target, edge source target →
    level source + 1 ≤ level target) (hwalk : WalkTo edge (level node) node) :
    ((∃ source, edge source node) →
        IsGreatest {next | ∃ source, edge source node ∧ next = level source + 1} (level node)) ∧
      ((¬∃ source, edge source node) → level node = 0) := by
  have hupper : level node ∈ upperBounds {next | ∃ source, edge source node ∧
      next = level source + 1} := by
    rintro _ ⟨source, hedge, rfl⟩
    exact hrises source node hedge
  generalize hlevel : level node = length at hwalk hupper
  cases hwalk with
  | zero =>
    refine ⟨fun ⟨source, hedge⟩ ↦ ?_, fun _ ↦ rfl⟩
    have hrise := hrises source node hedge
    omega
  | @succ length source _ hwalk hedge =>
    refine ⟨fun _ ↦ ⟨⟨source, hedge, ?_⟩, hupper⟩, fun hnone ↦ absurd ⟨source, hedge⟩ hnone⟩
    have hle := hwalk.length_le hrises
    have hrise := hrises source node hedge
    omega

end Levels

end Lnmp.Foundation.Digraph
