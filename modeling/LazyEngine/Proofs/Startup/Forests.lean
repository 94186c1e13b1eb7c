/-
Tasks that post tasks.

A task that does nothing but post others is the root of a tree, and what is queued is a forest.

* `Call.areSeeds` — calls that post such tasks, close the queue, leave a note or panic;
* `Task.children`, `Task.nodes` — the tasks that a task posts, and the number of tasks in its tree;
* `Task.levelOrder` — the tasks of a forest, level by level;
* `Task.length_levelOrder` — they are as many as there are in the forest;
* **`Task.isPrefix_levelOrder`**, `Task.eq_levelOrder` — tasks that come behind the forest, the
  children of each in its turn, come in this order.
-/
import LazyEngine.Proofs.Startup.Progress

namespace LazyEngine

mutual

/-- Whether a call does nothing but post trees of tasks, close the queue, leave a note or panic. -/
def Call.isSeed : Call → Bool
  | .post calls => Call.areSeeds calls
  | .close | .note _ | .panic _ => true
  | _ => false

def Call.areSeeds : List Call → Bool
  | [] => true
  | call :: calls => call.isSeed && Call.areSeeds calls

end

mutual

/-- The number of tasks in the trees that a call posts. -/
def Call.nodes : Call → Nat
  | .post calls => 1 + Call.nodesAll calls
  | _ => 0

def Call.nodesAll : List Call → Nat
  | [] => 0
  | call :: calls => call.nodes + Call.nodesAll calls

end

/-- The tasks that calls post, in order. -/
def Call.offspring (calls : List Call) : List Task :=
  calls.filterMap fun
    | .post calls => some (.job calls)
    | _ => none

theorem Call.offspring_cons (call : Call) (calls : List Call) :
    offspring (call :: calls) = offspring [call] ++ offspring calls :=
  List.filterMap_append (l := [call])

namespace Task

def isSeed : Task → Bool
  | job calls => Call.areSeeds calls
  | _ => false

def children : Task → List Task
  | job calls => Call.offspring calls
  | _ => []

/-- The number of tasks in the tree of a task. -/
def nodes : Task → Nat
  | job calls => 1 + Call.nodesAll calls
  | _ => 1

theorem nodesAll_eq (calls : List Call) :
    Call.nodesAll calls = total nodes (Call.offspring calls) := by
  induction calls with
  | nil => rfl
  | cons call calls ih =>
    rw [Call.nodesAll, ih]
    cases call with
    | post posted => rfl
    | _ => exact Nat.zero_add _

theorem nodes_eq (task : Task) : task.nodes = 1 + total nodes task.children := by
  cases task with
  | job calls => rw [nodes, nodesAll_eq]; rfl
  | startup | reply => rfl

/-- A forest has its roots, and what they post. -/
theorem total_nodes (forest : List Task) :
    total nodes forest = forest.length + total nodes (forest.flatMap children) := by
  induction forest with
  | nil => rfl
  | cons task forest ih =>
    rw [total_cons, ih, nodes_eq, List.length_cons, List.flatMap_cons, total_append]
    omega

/-- The tasks of a forest, level by level. -/
def levelOrder : List Task → List Task
  | [] => []
  | task :: forest => (task :: forest) ++ levelOrder ((task :: forest).flatMap children)
termination_by forest => total nodes forest
decreasing_by
  rw [total_nodes (task :: forest), List.length_cons]
  omega

theorem levelOrder_eq (forest : List Task) :
    levelOrder forest = forest ++ levelOrder (forest.flatMap children) := by
  cases forest with
  | nil => rw [List.flatMap_nil, levelOrder, List.append_nil]
  | cons task forest => rw [levelOrder]

theorem length_levelOrder (forest : List Task) :
    (levelOrder forest).length = total nodes forest := by
  induction hsize : total nodes forest using Nat.strongRecOn generalizing forest with
  | _ size ih =>
    subst hsize
    cases forest with
    | nil => rw [levelOrder]; rfl
    | cons task forest =>
      have hless := total_nodes (task :: forest)
      rw [levelOrder_eq, List.length_append, ih _ (by rw [List.length_cons] at hless; omega) _ rfl,
        hless]

/-- **Each task comes in its turn behind the forest, among the children of those before**: then the
tasks are the first ones, level by level. -/
theorem isPrefix_levelOrder {forest order : List Task}
    (h : order <+: forest ++ order.flatMap children) : order <+: levelOrder forest := by
  induction hsize : total nodes forest using Nat.strongRecOn generalizing forest order with
  | _ size ih =>
    subst hsize
    cases forest with
    | nil =>
      -- without roots the list would have to be among its own offspring
      have hnodes := total_nodes order
      obtain ⟨rest, hrest⟩ := h
      rw [List.nil_append] at hrest
      rw [← hrest, total_append] at hnodes
      have hempty : order.length = 0 := by omega
      rw [List.length_eq_zero_iff.mp hempty]
      exact List.nil_prefix
    | cons task forest =>
      rw [levelOrder_eq]
      obtain ⟨rest, hrest⟩ := h
      rcases List.append_eq_append_iff.mp hrest with ⟨left, hroots, -⟩ | ⟨behind, rfl, hbehind⟩
      · rw [hroots, List.append_assoc]
        exact List.prefix_append ..
      · -- what comes behind the roots is the same kind of list, for the forest of their children
        have hless := total_nodes (task :: forest)
        rw [List.length_cons] at hless
        rw [List.flatMap_append] at hbehind
        exact (List.prefix_append_right_inj _).2 (ih _ (by omega) ⟨rest, hbehind.symm⟩ rfl)

/-- There is one list only in which the children of all tasks come behind the forest. -/
theorem eq_levelOrder {forest order : List Task} (h : order = forest ++ order.flatMap children) :
    order = levelOrder forest := by
  refine (isPrefix_levelOrder ⟨[], by rw [List.append_nil, ← h]⟩).eq_of_length ?_
  have hforest : total nodes order = total nodes forest + total nodes (order.flatMap children) := by
    rw [← total_append, ← h]
  rw [total_nodes] at hforest
  rw [length_levelOrder]
  omega

end Task

end LazyEngine
