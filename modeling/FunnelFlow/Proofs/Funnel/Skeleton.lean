import FunnelFlow.Funnel.Validation

namespace FunnelFlow

def Node.skeleton (n : Node) : Node := { n with position := none, label := none }

namespace Funnel

/-- The funnel with nothing but its start, and the ids and actions of its nodes. -/
def skeleton (f : Funnel) : Funnel :=
  { id := "", name := "", trigger := .leadSubscribed, isActive := false
    startNodeId := f.startNodeId, nodes := f.nodes.map Node.skeleton
    createdAt := none, updatedAt := none }

variable (f : Funnel)

@[simp] theorem skeleton_startNodeId : f.skeleton.startNodeId = f.startNodeId := rfl

@[simp] theorem skeleton_node? (id : String) :
    f.skeleton.node? id = (f.node? id).map Node.skeleton := by
  simp only [node?, skeleton, List.find?_map]
  rfl

@[simp] theorem skeleton_nodeIds : f.skeleton.nodeIds = f.nodeIds := by
  simp only [nodeIds, skeleton, List.map_map]
  rfl

@[simp] theorem skeleton_hasNode (id : String) : f.skeleton.hasNode id = f.hasNode id := by
  simp [hasNode]

@[simp] theorem skeleton_targets : f.skeleton.targets = f.targets := by
  simp only [targets, skeleton, List.flatMap_map]
  rfl

@[simp] theorem skeleton_roots : f.skeleton.roots = f.roots := by
  simp [roots]

@[simp] theorem skeleton_reach (reached pending : List String) :
    f.skeleton.reach reached pending = f.reach reached pending := by
  fun_induction f.reach reached pending with
  | case1 reached => rw [reach]
  | case2 reached id pending seen ih => rw [reach, dif_pos seen, ih]
  | case3 reached id pending unseen hnone ih =>
    rw [reach, dif_neg unseen]
    split
    · exact ih
    · next n hn => simp [hnone] at hn
  | case4 reached id pending unseen n hn ih =>
    rw [reach, dif_neg unseen]
    split
    · next hnone => simp [hn] at hnone
    · next m hm =>
      obtain rfl : n.skeleton = m := by simpa [hn] using hm
      exact ih

@[simp] theorem skeleton_search (visited : List String) (path : Path) :
    f.skeleton.search visited path = f.search visited path := by
  fun_induction f.search visited path with
  | case1 visited => rw [search]
  | case2 visited id path ih => rw [search, ih]
  | case3 visited id path edge edges hnone ih => rw [search, hnone, ih]
  | case4 visited id path edge edges target ht hhas visited' found hsearch ih =>
    rw [search, ht]
    simp only [hhas, if_true, ih, hsearch]
  | case5 visited id path edge edges target ht hhas hseen ih =>
    rw [search, ht]
    dsimp only
    rw [if_neg hhas, dif_pos hseen, ih]
  | case6 visited id path edge edges target ht hhas hunseen hnone ih =>
    rw [search, ht]
    dsimp only
    rw [if_neg hhas, dif_neg hunseen]
    split
    · exact ih
    · next m hm => simp [hnone] at hm
  | case7 visited id path edge edges target ht hhas hunseen n hn ih =>
    rw [search, ht]
    dsimp only
    rw [if_neg hhas, dif_neg hunseen]
    split
    · next hnone => simp [hn] at hnone
    · next m hm =>
      obtain rfl : n.skeleton = m := by simpa [hn] using hm
      exact ih

@[simp] theorem skeleton_searchAll (visited ids : List String) :
    f.skeleton.searchAll visited ids = f.searchAll visited ids := by
  fun_induction f.searchAll visited ids with
  | case1 visited => rw [searchAll]
  | case2 visited id ids seen ih => rw [searchAll, if_pos seen, ih]
  | case3 visited id ids unseen hnone ih =>
    rw [searchAll, if_neg unseen, skeleton_node?, hnone]
    exact ih
  | case4 visited id ids unseen n hn visited' found hsearch ih =>
    have hedges : n.skeleton.edges = n.edges := rfl
    rw [searchAll, if_neg unseen, skeleton_node?, hn]
    simp only [Option.map_some, hedges, skeleton_search, hsearch, ih]

@[simp] theorem skeleton_backEdges : f.skeleton.backEdges = f.backEdges := by
  simp [backEdges]

theorem skeleton_rootViolations : f.skeleton.rootViolations = f.rootViolations := by
  simp [rootViolations, startMissing]

theorem skeleton_danglingViolations : f.skeleton.danglingViolations = f.danglingViolations := by
  simp only [danglingViolations, skeleton_hasNode]
  simp only [skeleton, List.flatMap_map]
  rfl

theorem skeleton_reachabilityViolations :
    f.skeleton.reachabilityViolations = f.reachabilityViolations := by
  simp [reachabilityViolations, reachedFrom]

theorem skeleton_cycleViolations : f.skeleton.cycleViolations = f.cycleViolations := by
  simp [cycleViolations]

theorem skeleton_violations : f.skeleton.violations = f.violations := by
  have hempty : f.skeleton.nodes.isEmpty = f.nodes.isEmpty := by simp [skeleton]
  have hnodes : f.skeleton.nodes.flatMap Node.violations = f.nodes.flatMap Node.violations := by
    simp only [skeleton, List.flatMap_map]
    rfl
  rw [violations, violations, hempty, hnodes, skeleton_nodeIds, skeleton_rootViolations,
    skeleton_danglingViolations, skeleton_reachabilityViolations, skeleton_cycleViolations]

theorem violations_congr {f g : Funnel} (h : f.skeleton = g.skeleton) :
    f.violations = g.violations := by
  rw [← skeleton_violations f, h, skeleton_violations]

end Funnel

end FunnelFlow
