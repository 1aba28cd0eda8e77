import FunnelFlow.Funnel.Basic

/-!
The graph of a funnel: its roots, the ids that are reached from a node, and the edges that close a
cycle. A reference to an id stands for the first node with that id; one that names no node is not
followed.
-/

namespace FunnelFlow.Funnel

def targets (f : Funnel) : List String := f.nodes.flatMap Node.targets

def roots (f : Funnel) : List String := f.nodeIds.filter fun id => !f.targets.contains id

def remaining (f : Funnel) (seen : List String) : List String :=
  f.nodeIds.filter fun id => !seen.contains id

theorem mem_nodeIds_of_node? {f : Funnel} {id : String} {n : Node} (h : f.node? id = some n) :
    id ∈ f.nodeIds := by
  have hid : n.id = id := by simpa using List.find?_some h
  exact List.mem_map.2 ⟨n, List.mem_of_find?_eq_some h, hid⟩

theorem length_filter_lt {α : Type} {p q : α → Bool} {l : List α} (h : ∀ a ∈ l, p a → q a)
    {a : α} (ha : a ∈ l) (hq : q a = true) (hp : p a = false) :
    (l.filter p).length < (l.filter q).length := by
  induction l with
  | nil => simp at ha
  | cons b l ih =>
    have hle : (l.filter p).length ≤ (l.filter q).length := by
      rw [← List.countP_eq_length_filter, ← List.countP_eq_length_filter]
      exact List.countP_mono_left fun x hx => h x (List.mem_cons_of_mem _ hx)
    rcases List.mem_cons.1 ha with rfl | ha
    · simp only [List.filter_cons, hp, hq, Bool.false_eq_true, if_false, if_true, List.length_cons]
      omega
    · have hlt := ih (fun x hx => h x (List.mem_cons_of_mem _ hx)) ha
      cases hpb : p b
      · cases hqb : q b <;> simp [hpb, hqb] <;> omega
      · have hqb := h b (by simp) hpb
        simp [hpb, hqb]
        omega

/-- Every new node that is seen leaves fewer to see. -/
theorem remaining_cons_lt {f : Funnel} {id : String} {n : Node} {seen : List String}
    (hn : f.node? id = some n) (hs : seen.contains id = false) :
    (f.remaining (id :: seen)).length < (f.remaining seen).length := by
  refine length_filter_lt ?_ (mem_nodeIds_of_node? hn) (by simpa using hs) (by simp)
  intro a _ h
  simp_all

/-- The ids that are reached from the pending ones, added to those reached before. -/
def reach (f : Funnel) (reached : List String) : List String → List String
  | [] => reached
  | id :: pending =>
    if _unseen : reached.contains id then f.reach reached pending
    else match _found : f.node? id with
      | none => f.reach reached pending
      | some node => f.reach (id :: reached) (node.targets ++ pending)
termination_by pending => ((f.remaining reached).length, pending.length)
decreasing_by
  · exact Prod.Lex.right _ (by simp)
  · exact Prod.Lex.right _ (by simp)
  · exact Prod.Lex.left _ _ (remaining_cons_lt _found (by simpa using _unseen))

def reachedFrom (f : Funnel) (id : String) : List String := f.reach [] [id]

structure BackEdge where
  source : String
  label : EdgeLabel
  target : String
  deriving DecidableEq, Repr

/-- A path of the search, its last node first, each with the edges still to follow. -/
abbrev Path := List (String × List Edge)

def Path.has (path : Path) (id : String) : Bool := path.any (·.1 == id)

def Path.size : Path → Nat
  | [] => 0
  | (_, edges) :: path => edges.length + 1 + Path.size path

/-- Follows the edges of a path, depth first. Gives the ids visited in the end and the edges that
lead back to the path, in the order in which they are found. -/
def search (f : Funnel) (visited : List String) : Path → List String × List BackEdge
  | [] => (visited, [])
  | (_, []) :: path => f.search visited path
  | (id, edge :: edges) :: path =>
    match edge.target with
    | none => f.search visited ((id, edges) :: path)
    | some target =>
      if Path.has ((id, edges) :: path) target then
        let (visited, found) := f.search visited ((id, edges) :: path)
        (visited, ⟨id, edge.label, target⟩ :: found)
      else if _unseen : visited.contains target then f.search visited ((id, edges) :: path)
      else match _found : f.node? target with
        | none => f.search visited ((id, edges) :: path)
        | some node => f.search (target :: visited) ((target, node.edges) :: (id, edges) :: path)
termination_by path => ((f.remaining visited).length, Path.size path)
decreasing_by
  · exact Prod.Lex.right _ (by simp [Path.size])
  · exact Prod.Lex.right _ (by simp [Path.size])
  · exact Prod.Lex.right _ (by simp [Path.size])
  · exact Prod.Lex.right _ (by simp [Path.size])
  · exact Prod.Lex.right _ (by simp [Path.size])
  · exact Prod.Lex.left _ _ (remaining_cons_lt _found (by simpa using _unseen))

def searchAll (f : Funnel) (visited : List String) : List String → List BackEdge
  | [] => []
  | id :: ids =>
    if visited.contains id then f.searchAll visited ids
    else match f.node? id with
      | none => f.searchAll visited ids
      | some node =>
        let (visited, found) := f.search (id :: visited) [(id, node.edges)]
        found ++ f.searchAll visited ids

/-- The edges that close a cycle: the search starts at the start node and then at every node in
funnel order. -/
def backEdges (f : Funnel) : List BackEdge :=
  let start := if f.hasNode f.startNodeId && !f.startNodeId.isEmpty then [f.startNodeId] else []
  f.searchAll [] (start ++ f.nodeIds)

end FunnelFlow.Funnel
