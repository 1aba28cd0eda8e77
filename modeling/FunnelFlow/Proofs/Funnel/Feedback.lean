import FunnelFlow.Proofs.Funnel.Reports

namespace FunnelFlow.Funnel

open Relation

variable {f : Funnel} {visited : List String} {path : Path} {id : String} {edge : Edge}
  {edges : List Edge}

/-- An edge of a funnel is known by the node that it starts from and its label. -/
def BackEdge.key (e : BackEdge) : String × EdgeLabel := (e.source, e.label)

def keysOf (id : String) (edges : List Edge) : List (String × EdgeLabel) :=
  edges.map fun e => (id, e.label)

def Path.ahead (path : Path) : List (String × EdgeLabel) :=
  path.flatMap fun entry => keysOf entry.1 entry.2

theorem Path.ahead_cons (path : Path) (id : String) (edges : List Edge) :
    Path.ahead ((id, edges) :: path) = keysOf id edges ++ Path.ahead path :=
  List.flatMap_cons

theorem nodup_keysOf (id : String) (n : Node) : (keysOf id n.edges).Nodup := by
  obtain ⟨_, position, label, action⟩ := n
  cases action <;> simp [keysOf, Node.edges, Action.edges]

theorem source_of_key {e : BackEdge} {label : EdgeLabel} (h : e.key = (id, label)) :
    e.source = id := congrArg Prod.fst h

theorem fst_of_mem_keysOf {key : String × EdgeLabel} (h : key ∈ keysOf id edges) : key.1 = id := by
  obtain ⟨e, _, rfl⟩ := List.mem_map.mp h
  rfl

/-- No edge is ahead twice, and the nodes of the path were visited. -/
structure Path.IsFresh (visited : List String) (path : Path) : Prop where
  nodup : path.ahead.Nodup
  visited : ∀ entry ∈ path, entry.1 ∈ visited

namespace Path.IsFresh

theorem fst_mem (h : Path.IsFresh visited path) {key : String × EdgeLabel}
    (hkey : key ∈ path.ahead) : key.1 ∈ visited := by
  obtain ⟨entry, hentry, hkey⟩ := List.mem_flatMap.mp hkey
  rw [fst_of_mem_keysOf hkey]
  exact h.visited entry hentry

theorem single (n : Node) : Path.IsFresh (id :: visited) [(id, n.edges)] := by
  constructor
  · rw [Path.ahead_cons]
    simpa [Path.ahead] using nodup_keysOf id n
  · simp

theorem leave (h : Path.IsFresh visited ((id, []) :: path)) : Path.IsFresh visited path :=
  ⟨h.nodup, fun entry hentry => h.visited entry (List.mem_cons_of_mem _ hentry)⟩

theorem next (h : Path.IsFresh visited ((id, edge :: edges) :: path)) :
    Path.IsFresh visited ((id, edges) :: path) ∧
      (id, edge.label) ∉ Path.ahead ((id, edges) :: path) := by
  obtain ⟨hnew, hnodup⟩ := List.nodup_cons.mp h.nodup
  refine ⟨⟨hnodup, ?_⟩, hnew⟩
  intro entry hentry
  rcases List.mem_cons.mp hentry with rfl | hentry
  · exact h.visited (id, edge :: edges) List.mem_cons_self
  · exact h.visited entry (List.mem_cons_of_mem _ hentry)

theorem enter (h : Path.IsFresh visited path) {target : String} (n : Node)
    (hunseen : target ∉ visited) :
    Path.IsFresh (target :: visited) ((target, n.edges) :: path) := by
  constructor
  · rw [Path.ahead_cons, List.nodup_append']
    refine ⟨nodup_keysOf target n, h.nodup, ?_⟩
    intro key hkey hahead
    exact hunseen (fst_of_mem_keysOf hkey ▸ h.fst_mem hahead)
  · intro entry hentry
    rcases List.mem_cons.mp hentry with rfl | hentry
    · exact List.mem_cons_self
    · exact List.mem_cons_of_mem _ (h.visited entry hentry)

end Path.IsFresh

/-- What a search finds, each edge once: an edge that was ahead, or one of a node that was not
visited before. -/
structure FindsOnce (visited : List String) (path : Path) (result : List String)
    (found : List BackEdge) : Prop where
  nodup : (found.map BackEdge.key).Nodup
  source : ∀ e ∈ found, e.key ∈ path.ahead ∨ e.source ∉ visited
  visited : ∀ e ∈ found, e.source ∈ result

theorem FindsOnce.mono {visited' result : List String} {path' : Path} {found : List BackEdge}
    (h : FindsOnce visited' path' result found)
    (hsource : ∀ e ∈ found, e.key ∈ path'.ahead ∨ e.source ∉ visited' →
      e.key ∈ path.ahead ∨ e.source ∉ visited) : FindsOnce visited path result found :=
  ⟨h.nodup, fun e he => hsource e he (h.source e he), h.visited⟩

theorem FindsOnce.next {result : List String} {found : List BackEdge}
    (h : FindsOnce visited ((id, edges) :: path) result found) :
    FindsOnce visited ((id, edge :: edges) :: path) result found :=
  h.mono fun _ _ he => he.imp_left (List.mem_cons_of_mem _)

theorem search_findsOnce (visited : List String) (path : Path) (h : Path.IsFresh visited path) :
    FindsOnce visited path (f.search visited path).1 (f.search visited path).2 := by
  fun_induction f.search visited path with
  | case1 => exact ⟨by simp, by simp, by simp⟩
  | case2 visited id path ih => exact (ih h.leave).mono fun _ _ he => he
  | case3 visited id edge edges path _ ih => exact (ih h.next.1).next
  | case4 visited id edge edges path target ht hpath visited' found hsearch ih =>
    obtain ⟨hnext, hnew⟩ := h.next
    have hsub := subset_search (f := f) visited ((id, edges) :: path)
    rw [hsearch] at ih hsub
    have hrest : FindsOnce visited ((id, edge :: edges) :: path) visited' found := (ih hnext).next
    obtain ⟨hnodup, hsource, hvisited⟩ := hrest
    have hid : id ∈ visited := h.visited _ List.mem_cons_self
    refine ⟨List.nodup_cons.mpr ⟨?_, hnodup⟩, ?_, ?_⟩
    · -- the edge is not ahead any more, and no edge of its node is found by a later visit
      intro hkey
      obtain ⟨e, he, hkey⟩ : ∃ e ∈ found, e.key = (id, edge.label) := List.mem_map.mp hkey
      rcases (ih hnext).source e he with hahead | hunseen
      · exact hnew (hkey ▸ hahead)
      · exact hunseen (source_of_key hkey ▸ hid)
    · exact List.forall_mem_cons.mpr ⟨.inl List.mem_cons_self, hsource⟩
    · exact List.forall_mem_cons.mpr ⟨hsub hid, hvisited⟩
  | case5 visited id edge edges path _ _ _ _ ih => exact (ih h.next.1).next
  | case6 visited id edge edges path _ _ _ _ _ ih => exact (ih h.next.1).next
  | case7 visited id edge edges path target ht _ hunseen n hn ih =>
    have hnew : target ∉ visited := by simpa using hunseen
    refine ((ih (h.next.1.enter n hnew)).mono fun e _ he => ?_).next
    rcases he with he | he
    · rw [Path.ahead_cons] at he
      rcases List.mem_append.mp he with he | he
      · have hsource : e.source = target := fst_of_mem_keysOf he
        exact .inr (hsource ▸ hnew)
      · exact .inl he
    · exact .inr fun hseen => he (List.mem_cons_of_mem _ hseen)

theorem searchAll_nodup (visited ids : List String) :
    ((f.searchAll visited ids).map BackEdge.key).Nodup ∧
      ∀ e ∈ f.searchAll visited ids, e.source ∉ visited := by
  fun_induction f.searchAll visited ids with
  | case1 => simp
  | case2 visited id ids _ ih => exact ih
  | case3 visited id ids _ _ ih => exact ih
  | case4 visited id ids hunseen n hn visited' found hsearch ih =>
    have hid : id ∉ visited := by simpa using hunseen
    have hfresh : Path.IsFresh (id :: visited) [(id, n.edges)] := .single n
    have hfirst := search_findsOnce (f := f) _ _ hfresh
    have hsub := subset_search (f := f) (id :: visited) [(id, n.edges)]
    rw [hsearch] at hfirst hsub
    obtain ⟨hnodup, hrest⟩ := ih
    constructor
    · -- what is found first starts from nodes that were visited, what is found later does not
      rw [List.map_append, List.nodup_append']
      refine ⟨hfirst.nodup, hnodup, ?_⟩
      intro key hkey hkey'
      obtain ⟨e, he, rfl⟩ := List.mem_map.mp hkey
      obtain ⟨e', he', heq⟩ := List.mem_map.mp hkey'
      exact hrest e' he' (source_of_key heq ▸ hfirst.visited e he)
    · intro e he
      rcases List.mem_append.mp he with he | he
      · rcases hfirst.source e he with hahead | hseen
        · rw [Path.ahead_cons] at hahead
          have hsource : e.source = id := fst_of_mem_keysOf (by simpa [Path.ahead] using hahead)
          exact hsource ▸ hid
        · exact fun h => hseen (List.mem_cons_of_mem _ h)
      · exact fun h => hrest e he (hsub (List.mem_cons_of_mem _ h))

/-- An edge of a node to itself is always among them. -/
theorem mem_backEdges_of_self {n : Node} {label : EdgeLabel} (hn : f.node? id = some n)
    (he : ⟨label, some id⟩ ∈ n.edges) : ⟨id, label, id⟩ ∈ f.backEdges := by
  by_contra hcut
  have hloop : f.LeadsWithout f.backEdges id id := ⟨n, hn, hasNode_of_node? hn, label, he, hcut⟩
  exact no_cycle_without_backEdges id (.single hloop)

/-- The edges that are reported as cycles, after a number of turns that is linear in the number of
nodes: each leads back to where it comes from, none is reported twice, and without them there is no
cycle. -/
theorem backEdges_cut_all_cycles (f : Funnel) :
    f.violations.filter (·.kind = .cycle) =
      f.backEdges.map (fun e => .cycle e.source e.label e.target) ∧
    (∃ turns ≤ 1 + 4 * f.nodes.length, f.SearchesAll [] f.searchOrder turns f.backEdges) ∧
    (∀ e ∈ f.backEdges, f.ClosesCycle e) ∧ (f.backEdges.map BackEdge.key).Nodup ∧
    (∀ id, ¬ TransGen (f.LeadsWithout f.backEdges) id id) ∧ (f.backEdges = [] ↔ f.Acyclic) := by
  refine ⟨f.filter_violations_cycle, f.exists_searchesAll_backEdges, ?_, ?_, ?_, backEdges_eq_nil_iff⟩
  · intro e he
    exact closesCycle_of_mem_backEdges he
  · exact (searchAll_nodup [] _).1
  · exact no_cycle_without_backEdges

theorem tangled_backEdges :
    ⟨"back", .whenFalse, "back"⟩ ∈ tangled.backEdges ∧
    tangled.ClosesCycle ⟨"back", .whenFalse, "back"⟩ ∧
    ∀ id, ¬ TransGen (tangled.LeadsWithout tangled.backEdges) id id := by
  obtain ⟨_, _, hcloses, _, hcut, _⟩ := backEdges_cut_all_cycles tangled
  obtain ⟨n, hn⟩ : ∃ n, tangled.node? "back" = some n := exists_node? (by decide)
  have hmem : ⟨"back", .whenFalse, "back"⟩ ∈ tangled.backEdges :=
    mem_backEdges_of_self hn (by cases hn; decide)
  exact ⟨hmem, hcloses _ hmem, hcut⟩

end FunnelFlow.Funnel
