import Mathlib.Algebra.Order.BigOperators.Group.List
import Mathlib.Algebra.Order.Ring.Nat
import FunnelFlow.Proofs.Funnel.Reachability

/-!
How long the traversals of a funnel take. Each turn of their loops is counted: a node is entered
once, and its edges are followed once from there, so that no cycle keeps a traversal going.
-/

namespace FunnelFlow.Funnel

variable {f : Funnel} {id : String}

def costOfRest (f : Funnel) (cost : Node → ℕ) (seen : List String) : ℕ :=
  (f.nodes.map fun n => if n.id ∈ seen then 0 else cost n).sum

theorem costOfRest_le (cost : Node → ℕ) (bound : ℕ) (hcost : ∀ n, cost n ≤ bound)
    (seen : List String) : f.costOfRest cost seen ≤ bound * f.nodes.length := by
  have hle : f.costOfRest cost seen ≤ (f.nodes.map fun _ => bound).sum := by
    apply List.sum_le_sum
    intro n _
    by_cases hn : n.id ∈ seen
    · simp [hn]
    · simpa [hn] using hcost n
  simpa [Nat.mul_comm] using hle

/-- A node that is entered is paid for by what the rest costs less from then on. -/
theorem costOfRest_cons_add_le (cost : Node → ℕ) {seen : List String} {n : Node}
    (hn : f.node? id = some n) (hid : id ∉ seen) :
    f.costOfRest cost (id :: seen) + cost n ≤ f.costOfRest cost seen := by
  have hsplit (m : Node) : (if m.id ∈ id :: seen then 0 else cost m) +
      (if m.id = id then cost m else 0) = if m.id ∈ seen then 0 else cost m := by
    by_cases hm : m.id = id
    · simp [hm, hid]
    · simp [hm]
  have hown : cost n ≤ (f.nodes.map fun m => if m.id = id then cost m else 0).sum := by
    apply List.single_le_sum (by simp)
    exact List.mem_map.mpr ⟨n, mem_of_node? hn, if_pos (node?_id hn)⟩
  have hsum : f.costOfRest cost (id :: seen) +
      (f.nodes.map fun m => if m.id = id then cost m else 0).sum = f.costOfRest cost seen := by
    rw [costOfRest, costOfRest, ← List.sum_map_add]
    simp only [hsplit]
  omega

theorem length_edges_le (n : Node) : n.edges.length ≤ 2 := by
  obtain ⟨id, position, label, action⟩ := n
  cases action <;> simp [Node.edges, Action.edges]

theorem length_targets_le (n : Node) : n.targets.length ≤ 2 :=
  (List.length_filterMap_le _ _).trans (length_edges_le n)

/-- The work list, a turn at a time: what is reached and what is pending, the turns that it takes
from there, and what is reached in the end. -/
inductive Traverses (f : Funnel) : List String → List String → ℕ → List String → Prop
  | done (reached : List String) : f.Traverses reached [] 0 reached
  | skip {reached pending result : List String} {id : String} {turns : ℕ}
      (hid : id ∈ reached ∨ f.node? id = none) (rest : f.Traverses reached pending turns result) :
      f.Traverses reached (id :: pending) (turns + 1) result
  | enter {reached pending result : List String} {id : String} {n : Node} {turns : ℕ}
      (hid : id ∉ reached) (hn : f.node? id = some n)
      (rest : f.Traverses (id :: reached) (n.targets ++ pending) turns result) :
      f.Traverses reached (id :: pending) (turns + 1) result

theorem traverses_reach (reached pending : List String) :
    ∃ turns ≤ pending.length + f.costOfRest (·.targets.length) reached,
      f.Traverses reached pending turns (f.reach reached pending) := by
  fun_induction f.reach reached pending with
  | case1 reached => exact ⟨0, by omega, .done reached⟩
  | case2 reached id pending hseen ih =>
    obtain ⟨turns, hturns, hrest⟩ := ih
    refine ⟨turns + 1, ?_, .skip (.inl (by simpa using hseen)) hrest⟩
    rw [List.length_cons]
    omega
  | case3 reached id pending _ hnone ih =>
    obtain ⟨turns, hturns, hrest⟩ := ih
    refine ⟨turns + 1, ?_, .skip (.inr hnone) hrest⟩
    rw [List.length_cons]
    omega
  | case4 reached id pending hunseen n hn ih =>
    obtain ⟨turns, hturns, hrest⟩ := ih
    have hid : id ∉ reached := by simpa using hunseen
    have hcost := costOfRest_cons_add_le (·.targets.length) hn hid
    refine ⟨turns + 1, ?_, .enter hid hn hrest⟩
    rw [List.length_append] at hturns
    rw [List.length_cons]
    omega

/-- The work list of a traversal is empty after a number of turns that is linear in the number of
nodes, whatever cycles there are. -/
theorem exists_traverses_reachedFrom (f : Funnel) (id : String) :
    ∃ turns ≤ 1 + 2 * f.nodes.length, f.Traverses [] [id] turns (f.reachedFrom id) := by
  obtain ⟨turns, hturns, htraverses⟩ := traverses_reach (f := f) [] [id]
  have hcost := f.costOfRest_le (·.targets.length) 2 length_targets_le []
  refine ⟨turns, ?_, htraverses⟩
  rw [List.length_singleton] at hturns
  omega

theorem Path.size_cons_cons (path : Path) (id : String) (edge : Edge) (edges : List Edge) :
    Path.size ((id, edge :: edges) :: path) = Path.size ((id, edges) :: path) + 1 := by
  simp only [Path.size, List.length_cons]
  omega

/-- The search along a path, a turn at a time: what was visited and the path, the turns that it
takes from there, and what is visited and found in the end. -/
inductive Searches (f : Funnel) : List String → Path → ℕ → List String → List BackEdge → Prop
  | done (visited : List String) : f.Searches visited [] 0 visited []
  | leave {visited result : List String} {path : Path} {id : String} {turns : ℕ}
      {found : List BackEdge} (rest : f.Searches visited path turns result found) :
      f.Searches visited ((id, []) :: path) (turns + 1) result found
  | stop {visited result : List String} {path : Path} {id : String} {edge : Edge}
      {edges : List Edge} {turns : ℕ} {found : List BackEdge} (ht : edge.target = none)
      (rest : f.Searches visited ((id, edges) :: path) turns result found) :
      f.Searches visited ((id, edge :: edges) :: path) (turns + 1) result found
  | pass {visited result : List String} {path : Path} {id target : String} {edge : Edge}
      {edges : List Edge} {turns : ℕ} {found : List BackEdge} (ht : edge.target = some target)
      (hpath : Path.has ((id, edges) :: path) target = false)
      (hseen : target ∈ visited ∨ f.node? target = none)
      (rest : f.Searches visited ((id, edges) :: path) turns result found) :
      f.Searches visited ((id, edge :: edges) :: path) (turns + 1) result found
  | report {visited result : List String} {path : Path} {id target : String} {edge : Edge}
      {edges : List Edge} {turns : ℕ} {found : List BackEdge} (ht : edge.target = some target)
      (hpath : Path.has ((id, edges) :: path) target = true)
      (rest : f.Searches visited ((id, edges) :: path) turns result found) :
      f.Searches visited ((id, edge :: edges) :: path) (turns + 1) result
        (⟨id, edge.label, target⟩ :: found)
  | enter {visited result : List String} {path : Path} {id target : String} {edge : Edge}
      {edges : List Edge} {n : Node} {turns : ℕ} {found : List BackEdge}
      (ht : edge.target = some target) (hpath : Path.has ((id, edges) :: path) target = false)
      (hunseen : target ∉ visited) (hn : f.node? target = some n)
      (rest : f.Searches (target :: visited) ((target, n.edges) :: (id, edges) :: path) turns result
        found) :
      f.Searches visited ((id, edge :: edges) :: path) (turns + 1) result found

/-- What a search does not spend is left for the searches after it. -/
theorem searches_search (visited : List String) (path : Path) :
    ∃ turns, f.Searches visited path turns (f.search visited path).1 (f.search visited path).2 ∧
      turns + f.costOfRest (·.edges.length + 1) (f.search visited path).1 ≤
        path.size + f.costOfRest (·.edges.length + 1) visited := by
  fun_induction f.search visited path with
  | case1 visited => exact ⟨0, .done visited, by simp [Path.size]⟩
  | case2 visited id path ih =>
    obtain ⟨turns, hrest, hturns⟩ := ih
    refine ⟨turns + 1, .leave hrest, ?_⟩
    rw [Path.size]
    omega
  | case3 visited id edge edges path hnone ih =>
    obtain ⟨turns, hrest, hturns⟩ := ih
    refine ⟨turns + 1, .stop hnone hrest, ?_⟩
    rw [Path.size_cons_cons]
    omega
  | case4 visited id edge edges path target ht hpath visited' found hsearch ih =>
    rw [hsearch] at ih
    obtain ⟨turns, hrest, hturns⟩ := ih
    refine ⟨turns + 1, .report ht hpath hrest, ?_⟩
    rw [Path.size_cons_cons]
    dsimp only at hturns ⊢
    omega
  | case5 visited id edge edges path target ht hpath hseen ih =>
    obtain ⟨turns, hrest, hturns⟩ := ih
    have hmem : target ∈ visited := by simpa using hseen
    refine ⟨turns + 1, .pass ht (by simpa using hpath) (.inl hmem) hrest, ?_⟩
    rw [Path.size_cons_cons]
    omega
  | case6 visited id edge edges path target ht hpath _ hnone ih =>
    obtain ⟨turns, hrest, hturns⟩ := ih
    refine ⟨turns + 1, .pass ht (by simpa using hpath) (.inr hnone) hrest, ?_⟩
    rw [Path.size_cons_cons]
    omega
  | case7 visited id edge edges path target ht hpath hunseen n hn ih =>
    obtain ⟨turns, hrest, hturns⟩ := ih
    have hnew : target ∉ visited := by simpa using hunseen
    -- the edges that are new on the path are no longer among what the rest costs
    have hcost := costOfRest_cons_add_le (·.edges.length + 1) hn hnew
    refine ⟨turns + 1, .enter ht (by simpa using hpath) hnew hn hrest, ?_⟩
    rw [Path.size] at hturns
    rw [Path.size_cons_cons]
    omega

/-- One search after the other, each from an id that was not visited before; the turns of the
searches are counted, and one for each of the ids. -/
inductive SearchesAll (f : Funnel) : List String → List String → ℕ → List BackEdge → Prop
  | done (visited : List String) : f.SearchesAll visited [] 0 []
  | skip {visited ids : List String} {id : String} {turns : ℕ} {found : List BackEdge}
      (hid : id ∈ visited ∨ f.node? id = none) (rest : f.SearchesAll visited ids turns found) :
      f.SearchesAll visited (id :: ids) (turns + 1) found
  | start {visited visited' ids : List String} {id : String} {n : Node} {turns turns' : ℕ}
      {found found' : List BackEdge} (hid : id ∉ visited) (hn : f.node? id = some n)
      (first : f.Searches (id :: visited) [(id, n.edges)] turns visited' found)
      (rest : f.SearchesAll visited' ids turns' found') :
      f.SearchesAll visited (id :: ids) (turns + turns' + 1) (found ++ found')

theorem searchesAll_searchAll (visited ids : List String) :
    ∃ turns ≤ ids.length + f.costOfRest (·.edges.length + 1) visited,
      f.SearchesAll visited ids turns (f.searchAll visited ids) := by
  fun_induction f.searchAll visited ids with
  | case1 visited => exact ⟨0, by omega, .done visited⟩
  | case2 visited id ids hseen ih =>
    obtain ⟨turns, hturns, hrest⟩ := ih
    refine ⟨turns + 1, ?_, .skip (.inl (by simpa using hseen)) hrest⟩
    rw [List.length_cons]
    omega
  | case3 visited id ids _ hnone ih =>
    obtain ⟨turns, hturns, hrest⟩ := ih
    refine ⟨turns + 1, ?_, .skip (.inr hnone) hrest⟩
    rw [List.length_cons]
    omega
  | case4 visited id ids hunseen n hn visited' found hsearch ih =>
    obtain ⟨turns', hturns', hrest⟩ := ih
    have hid : id ∉ visited := by simpa using hunseen
    have hcost := costOfRest_cons_add_le (·.edges.length + 1) hn hid
    obtain ⟨turns, hfirst, hturns⟩ := searches_search (f := f) (id :: visited) [(id, n.edges)]
    rw [hsearch] at hfirst hturns
    refine ⟨turns + turns' + 1, ?_, .start hid hn hfirst hrest⟩
    simp only [Path.size] at hturns
    rw [List.length_cons]
    omega

def searchOrder (f : Funnel) : List String :=
  (if f.hasNode f.startNodeId && !f.startNodeId.isEmpty then [f.startNodeId] else []) ++ f.nodeIds

/-- The search for cycles ends after a number of turns that is linear in the number of nodes. -/
theorem exists_searchesAll_backEdges (f : Funnel) :
    ∃ turns ≤ 1 + 4 * f.nodes.length, f.SearchesAll [] f.searchOrder turns f.backEdges := by
  obtain ⟨turns, hturns, hsearches⟩ := searchesAll_searchAll (f := f) [] f.searchOrder
  have hcost := f.costOfRest_le (·.edges.length + 1) 3
    (fun n => Nat.succ_le_succ (length_edges_le n)) []
  have hlength : f.searchOrder.length ≤ 1 + f.nodes.length := by
    rw [searchOrder, List.length_append, nodeIds, List.length_map]
    split <;> simp
  exact ⟨turns, by omega, hsearches⟩

end FunnelFlow.Funnel
