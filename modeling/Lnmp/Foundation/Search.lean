import Mathlib.Data.Finset.Card
import Mathlib.Logic.Relation
import Mathlib.Tactic.Common

/-!
# Depth-first search with a shared visited set

A search collects the nodes at which it stops: it goes through the children of a node one after the
other, passes over those that were visited, records those at which it stops, and searches on from
the others. The visited set is shared by the whole search. `collect` has as fuel the depth to which
the search may go. With as much fuel as there are nodes to visit it collects exactly the stops that
are children of a node reached without passing a stop (`mem_collect_iff`).
-/

set_option autoImplicit false
set_option relaxedAutoImplicit false

namespace Lnmp.Foundation.Search

open Relation

variable {Node : Type*}

/-- A step of a search: to a child at which it does not stop. -/
def InnerStep (children : Node → List Node) (stops : Node → Bool) (source target : Node) : Prop :=
  target ∈ children source ∧ stops target = false

variable [DecidableEq Node]

/-- One child of a node: the stops found so far and the nodes visited so far. -/
def visitChild (explore : Node → List Node → List Node × List Node) (stops : Node → Bool)
    (progress : List Node × List Node) (child : Node) : List Node × List Node :=
  if child ∈ progress.2 then progress
  else if stops child then (progress.1.insert child, progress.2)
  else
    let result := explore child progress.2
    (progress.1 ∪ result.1, result.2)

/-- The stops found from a start, and the nodes visited. -/
def collect (children : Node → List Node) (stops : Node → Bool) :
    ℕ → Node → List Node → List Node × List Node
  | 0, _, visited => ([], visited)
  | fuel + 1, start, visited =>
    (children start).foldl (visitChild (collect children stops fuel) stops) ([], start :: visited)

/-! ### Progress of a search -/

/-- A node was visited or recorded. -/
def Seen (stops : Node → Bool) (progress : List Node × List Node) (node : Node) : Prop :=
  node ∈ progress.2 ∨ stops node = true ∧ node ∈ progress.1

/-- What a search from a start has done when it has gone through some of the children of the start,
and through all children of the other nodes that it visited. -/
structure Explored (children : Node → List Node) (stops : Node → Bool) (start : Node)
    (visited done : List Node) (progress : List Node × List Node) : Prop where
  subset : ∀ node ∈ visited, node ∈ progress.2
  start_mem : start ∈ progress.2
  reached : ∀ node ∈ progress.2, node ∈ visited ∨ ReflTransGen (InnerStep children stops) start node
  found : ∀ node ∈ progress.1, stops node = true ∧
    ∃ last, ReflTransGen (InnerStep children stops) start last ∧ node ∈ children last
  done_seen : ∀ child ∈ done, Seen stops progress child
  others_seen : ∀ node ∈ progress.2, node ∉ visited → node ≠ start →
    ∀ child ∈ children node, Seen stops progress child

section Progress

variable {children : Node → List Node} {stops : Node → Bool} {start : Node}
  {visited done : List Node} {progress : List Node × List Node}

omit [DecidableEq Node] in
theorem Seen.mono {further : List Node × List Node} {node : Node}
    (hseen : Seen stops progress node) (hfound : ∀ node ∈ progress.1, node ∈ further.1)
    (hvisited : ∀ node ∈ progress.2, node ∈ further.2) : Seen stops further node :=
  hseen.imp (hvisited node) (And.imp_right (hfound node))

omit [DecidableEq Node] in
/-- A search that has not looked at any child. -/
theorem explored_start :
    Explored children stops start visited [] ([], start :: visited) where
  subset _ hnode := List.mem_cons_of_mem _ hnode
  start_mem := List.mem_cons_self ..
  reached node hnode := by
    rcases List.mem_cons.mp hnode with rfl | hold
    · exact Or.inr ReflTransGen.refl
    · exact Or.inl hold
  found _ hnode := absurd hnode List.not_mem_nil
  done_seen _ hchild := absurd hchild List.not_mem_nil
  others_seen node hnode hfresh hne :=
    absurd ((List.mem_cons.mp hnode).resolve_left hne) hfresh

omit [DecidableEq Node] in
/-- One more child is seen. -/
theorem forall_seen_concat {further : List Node × List Node} {child : Node}
    (hseen : Seen stops further child) (hbefore : ∀ node ∈ done, Seen stops further node) :
    ∀ node ∈ done ++ [child], Seen stops further node := by
  intro node hnode
  rcases List.mem_append.mp hnode with hmem | hlast
  · exact hbefore node hmem
  · exact List.mem_singleton.mp hlast ▸ hseen

/-- A child that is a stop is recorded, and nothing else is visited. -/
theorem Explored.recordChild {child : Node}
    (hdone : Explored children stops start visited done progress) (hchild : child ∈ children start)
    (hstop : stops child = true) :
    Explored children stops start visited (done ++ [child])
      (progress.1.insert child, progress.2) := by
  have hmono : ∀ {node}, Seen stops progress node →
      Seen stops (progress.1.insert child, progress.2) node := fun hseen ↦
    hseen.mono (fun _ hnode ↦ List.mem_insert_of_mem hnode) fun _ hnode ↦ hnode
  refine { hdone with found := ?_, done_seen := ?_, others_seen := ?_ }
  · intro node hnode
    rcases List.mem_insert_iff.mp hnode with rfl | hold
    · exact ⟨hstop, start, ReflTransGen.refl, hchild⟩
    · exact hdone.found node hold
  · exact forall_seen_concat (Or.inr ⟨hstop, List.mem_insert_self ..⟩) fun node hnode ↦
      hmono (hdone.done_seen node hnode)
  · exact fun node hnode hnew hne other hother ↦
      hmono (hdone.others_seen node hnode hnew hne other hother)

/-- What the search from a child has done is done for the search from the start. -/
theorem Explored.exploreChild {child : Node} {result : List Node × List Node}
    (hdone : Explored children stops start visited done progress) (hchild : child ∈ children start)
    (hinner : stops child = false)
    (hresult : Explored children stops child progress.2 (children child) result) :
    Explored children stops start visited (done ++ [child])
      (progress.1 ∪ result.1, result.2) := by
  have hlift : ∀ {last}, ReflTransGen (InnerStep children stops) child last →
      ReflTransGen (InnerStep children stops) start last := fun hreach ↦
    hreach.head ⟨hchild, hinner⟩
  have hbefore : ∀ {node}, Seen stops progress node →
      Seen stops (progress.1 ∪ result.1, result.2) node := fun hseen ↦
    hseen.mono (fun _ hnode ↦ List.mem_union_left hnode _) hresult.subset
  have hlater : ∀ {node}, Seen stops result node →
      Seen stops (progress.1 ∪ result.1, result.2) node := fun hseen ↦
    hseen.mono (fun _ hnode ↦ List.mem_union_right _ hnode) fun _ hnode ↦ hnode
  refine ⟨fun node hnode ↦ hresult.subset node (hdone.subset node hnode),
    hresult.subset start hdone.start_mem, ?_, ?_, ?_, ?_⟩
  · intro node hnode
    rcases hresult.reached node hnode with hold | hreach
    · exact hdone.reached node hold
    · exact Or.inr (hlift hreach)
  · intro node hnode
    rcases List.mem_union_iff.mp hnode with hold | hnew
    · exact hdone.found node hold
    · obtain ⟨hstop, last, hreach, hlast⟩ := hresult.found node hnew
      exact ⟨hstop, last, hlift hreach, hlast⟩
  · exact forall_seen_concat (Or.inl hresult.start_mem) fun node hnode ↦
      hbefore (hdone.done_seen node hnode)
  · intro node hnode hnew hne other hother
    by_cases hold : node ∈ progress.2
    · exact hbefore (hdone.others_seen node hold hnew hne other hother)
    · by_cases hsame : node = child
      · subst hsame
        exact hlater (hresult.done_seen other hother)
      · exact hlater (hresult.others_seen node hnode hold hsame other hother)

/-- The next child: it was visited, or it is a stop, or the search goes on from it. -/
theorem Explored.visitChild {explore : Node → List Node → List Node × List Node} {child : Node}
    (hdone : Explored children stops start visited done progress) (hchild : child ∈ children start)
    (hexplore : child ∉ progress.2 → stops child = false →
      Explored children stops child progress.2 (children child) (explore child progress.2)) :
    Explored children stops start visited (done ++ [child])
      (visitChild explore stops progress child) := by
  unfold Search.visitChild
  split
  · rename_i hvisited
    exact { hdone with done_seen := forall_seen_concat (Or.inl hvisited) hdone.done_seen }
  · rename_i hfresh
    split
    · rename_i hstop
      exact hdone.recordChild hchild hstop
    · rename_i hinner
      have hinner := Bool.eq_false_of_not_eq_true hinner
      exact hdone.exploreChild hchild hinner (hexplore hfresh hinner)

end Progress

/-! ### Completed searches -/

section Complete

variable {children : Node → List Node} {stops : Node → Bool} {nodes : Finset Node}

/-- With enough fuel a search goes through all children of what it visits. -/
theorem explored_collect
    (hclosed : ∀ node ∈ nodes, ∀ child ∈ children node, stops child = false → child ∈ nodes)
    {fuel : ℕ} {start : Node} {visited : List Node} (hstart : start ∈ nodes)
    (hfresh : start ∉ visited) (hfuel : (nodes \ visited.toFinset).card ≤ fuel) :
    Explored children stops start visited (children start)
      (collect children stops fuel start visited) := by
  induction fuel generalizing start visited with
  | zero =>
    have hmem : start ∈ nodes \ visited.toFinset :=
      Finset.mem_sdiff.mpr ⟨hstart, fun hmem ↦ hfresh (List.mem_toFinset.mp hmem)⟩
    exact absurd (Finset.card_eq_zero.mp (Nat.le_zero.mp hfuel)) (Finset.ne_empty_of_mem hmem)
  | succ fuel ih =>
    -- The loop over the children, for those that are left.
    have hloop : ∀ (rest done : List Node) (progress : List Node × List Node),
        (∀ child ∈ rest, child ∈ children start) →
        Explored children stops start visited done progress →
          Explored children stops start visited (done ++ rest)
            (rest.foldl (visitChild (collect children stops fuel) stops) progress) := by
      intro rest
      induction rest with
      | nil =>
        intro done progress _ hdone
        rw [List.append_nil]
        exact hdone
      | cons child rest ihrest =>
        intro done progress hrest hdone
        have hchild := hrest child (List.mem_cons_self ..)
        rw [List.foldl_cons, List.append_cons]
        refine ihrest _ _ (fun other hother ↦ hrest other (List.mem_cons_of_mem _ hother))
          (hdone.visitChild hchild fun hnew hinner ↦ ih (hclosed start hstart child hchild hinner)
            hnew ?_)
        have hsub : nodes \ progress.2.toFinset ⊂ nodes \ visited.toFinset := by
          refine Finset.ssubset_iff_of_subset ?_ |>.mpr ⟨start, ?_, ?_⟩
          · refine Finset.sdiff_subset_sdiff (Finset.Subset.refl _) fun node hnode ↦ ?_
            exact List.mem_toFinset.mpr (hdone.subset node (List.mem_toFinset.mp hnode))
          · exact Finset.mem_sdiff.mpr ⟨hstart, fun hmem ↦ hfresh (List.mem_toFinset.mp hmem)⟩
          · exact fun hmem ↦ (Finset.mem_sdiff.mp hmem).2 (List.mem_toFinset.mpr hdone.start_mem)
        have hless := Finset.card_lt_card hsub
        omega
    exact hloop (children start) [] _ (fun _ hchild ↦ hchild) explored_start

/-- A search from a node at which it does not stop finds exactly the stops behind the nodes that it
reaches without passing a stop. -/
theorem mem_collect_iff
    (hclosed : ∀ node ∈ nodes, ∀ child ∈ children node, stops child = false → child ∈ nodes)
    {fuel : ℕ} {start : Node} (hstart : start ∈ nodes) (hinner : stops start = false)
    (hfuel : nodes.card ≤ fuel) {node : Node} :
    node ∈ (collect children stops fuel start []).1 ↔
      stops node = true ∧
        ∃ last, ReflTransGen (InnerStep children stops) start last ∧ node ∈ children last := by
  have hall : Explored children stops start [] (children start)
      (collect children stops fuel start []) :=
    explored_collect hclosed hstart List.not_mem_nil
      ((Finset.card_le_card Finset.sdiff_subset).trans hfuel)
  have hseen : ∀ last ∈ (collect children stops fuel start []).2, ∀ child ∈ children last,
      Seen stops (collect children stops fuel start []) child := by
    intro last hlast child hchild
    by_cases hsame : last = start
    · exact hall.done_seen child (hsame ▸ hchild)
    · exact hall.others_seen last hlast List.not_mem_nil hsame child hchild
  refine ⟨hall.found node, ?_⟩
  rintro ⟨hstop, last, hreach, hnode⟩
  have hvisited : last ∈ (collect children stops fuel start []).2 := by
    clear hnode
    induction hreach with
    | refl => exact hall.start_mem
    | tail _ hstep ih =>
      refine (hseen _ ih _ hstep.1).resolve_right fun hrecorded ↦ ?_
      exact Bool.false_ne_true (hstep.2.symm.trans hrecorded.1)
  rcases hseen last hvisited node hnode with hmem | ⟨-, hmem⟩
  · -- A stop is never visited: the start is none, and the steps lead to none.
    rcases (hall.reached node hmem).resolve_left List.not_mem_nil |>.cases_tail with hsame | hlast
    · exact absurd (hinner.symm.trans (hsame ▸ hstop)) Bool.false_ne_true
    · obtain ⟨_, -, hstep⟩ := hlast
      exact absurd (hstep.2.symm.trans hstop) Bool.false_ne_true
  · exact hmem

end Complete

end Lnmp.Foundation.Search
