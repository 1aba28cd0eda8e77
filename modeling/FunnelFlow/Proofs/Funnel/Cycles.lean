import FunnelFlow.Proofs.Funnel.Reachability

/-!
What the search for cycles finds. Every edge that it reports closes a cycle, and without the
reported edges the funnel has none: the nodes, in the order in which they are left, lead to nodes
left before only.
-/

namespace FunnelFlow.Funnel

open Relation

variable {f : Funnel} {cut : List BackEdge}

def Acyclic (f : Funnel) : Prop := ∀ id, ¬ TransGen f.Leads id id

/-- References to ids that name no node close no cycle. -/
theorem Acyclic.not_points (h : f.Acyclic) (id : String) : ¬ TransGen f.Points id id := by
  have hleads {a b : String} (hab : TransGen f.Points a b) (hb : f.hasNode b = true) :
      TransGen f.Leads a b := by
    induction hab with
    | single hab => exact .single (hab.leads hb)
    | tail _ hbc ih => exact (ih hbc.hasNode).tail (hbc.leads hb)
  intro hcycle
  obtain ⟨b, hid, _⟩ := TransGen.head'_iff.mp hcycle
  exact h id (hleads hcycle hid.hasNode)

def LeadsWithout (f : Funnel) (cut : List BackEdge) (a b : String) : Prop :=
  ∃ n, f.node? a = some n ∧ f.hasNode b = true ∧
    ∃ label, ⟨label, some b⟩ ∈ n.edges ∧ ⟨a, label, b⟩ ∉ cut

theorem mem_targets_iff {n : Node} {b : String} :
    b ∈ n.targets ↔ ∃ label, ⟨label, some b⟩ ∈ n.edges := by
  simp only [Node.targets, List.mem_filterMap]
  constructor
  · rintro ⟨⟨label, target⟩, he, rfl⟩
    exact ⟨label, he⟩
  · rintro ⟨label, he⟩
    exact ⟨_, he, rfl⟩

theorem leads_of_mem_edges {a b : String} {n : Node} {label : EdgeLabel}
    (hn : f.node? a = some n) (he : ⟨label, some b⟩ ∈ n.edges) (hb : f.hasNode b = true) :
    f.Leads a b :=
  ⟨n, hn, mem_targets_iff.mpr ⟨label, he⟩, hb⟩

theorem leadsWithout_nil : f.LeadsWithout [] = f.Leads := by
  funext a b
  simp only [LeadsWithout, Leads, mem_targets_iff, List.not_mem_nil, not_false_eq_true, and_true]
  exact propext (exists_congr fun n => and_congr_right fun _ => and_comm)

def ClosesCycle (f : Funnel) (e : BackEdge) : Prop :=
  (∃ n, f.node? e.source = some n ∧ ⟨e.label, some e.target⟩ ∈ n.edges) ∧
    f.hasNode e.target = true ∧ ReflTransGen f.Leads e.target e.source

/-- Each node of a path leads to the one that was entered after it, and has the edges that are
still to follow. -/
def Path.Sound (f : Funnel) : Path → Prop
  | [] => True
  | (id, edges) :: path =>
    (∃ n, f.node? id = some n ∧ edges ⊆ n.edges) ∧ (∀ e ∈ path.head?, f.Leads e.1 id) ∧
      Path.Sound f path

theorem Path.Sound.hasNode {path : Path} (h : Path.Sound f path) {id : String}
    (hid : Path.has path id = true) : f.hasNode id = true := by
  induction path with
  | nil => simp [Path.has] at hid
  | cons entry path ih =>
    obtain ⟨⟨n, hn, _⟩, _, hpath⟩ := h
    simp only [Path.has, List.any_cons, Bool.or_eq_true, beq_iff_eq] at hid
    rcases hid with rfl | hid
    · exact hasNode_of_node? hn
    · exact ih hpath hid

theorem Path.Sound.reaches {path : Path} {id : String} {edges : List Edge}
    (h : Path.Sound f ((id, edges) :: path)) {p : String}
    (hp : Path.has ((id, edges) :: path) p = true) : ReflTransGen f.Leads p id := by
  induction path generalizing id edges with
  | nil =>
    obtain rfl : id = p := by simpa [Path.has] using hp
    exact .refl
  | cons entry path ih =>
    obtain ⟨_, hlead, hpath⟩ := h
    rw [Path.has, List.any_cons, Bool.or_eq_true] at hp
    rcases hp with hp | hp
    · obtain rfl : id = p := by simpa using hp
      exact .refl
    · exact (ih hpath hp).tail (hlead entry rfl)

theorem Path.Sound.next {path : Path} {id : String} {edge : Edge} {edges : List Edge}
    (h : Path.Sound f ((id, edge :: edges) :: path)) : Path.Sound f ((id, edges) :: path) := by
  obtain ⟨⟨n, hn, hsub⟩, hrest⟩ := h
  exact ⟨⟨n, hn, fun e he => hsub (List.mem_cons_of_mem _ he)⟩, hrest⟩

theorem Path.Sound.edge {path : Path} {id target : String} {edge : Edge} {edges : List Edge}
    (h : Path.Sound f ((id, edge :: edges) :: path)) (ht : edge.target = some target) :
    ∃ n, f.node? id = some n ∧ ⟨edge.label, some target⟩ ∈ n.edges := by
  obtain ⟨⟨n, hn, hsub⟩, _⟩ := h
  obtain ⟨label, rfl⟩ : ∃ label, edge = ⟨label, some target⟩ := ⟨edge.label, by rw [← ht]⟩
  exact ⟨n, hn, hsub List.mem_cons_self⟩

theorem search_sound (visited : List String) (path : Path) (h : Path.Sound f path) :
    ∀ e ∈ (f.search visited path).2, f.ClosesCycle e := by
  fun_induction f.search visited path with
  | case1 => simp
  | case2 visited id path ih => exact ih h.2.2
  | case3 visited id path edge edges _ ih => exact ih h.next
  | case4 visited id path edge edges target ht hhas visited' found hsearch ih =>
    intro e he
    rcases List.mem_cons.mp he with rfl | he
    · exact ⟨h.edge ht, h.next.hasNode hhas, h.next.reaches hhas⟩
    · exact ih h.next e (by rw [hsearch]; exact he)
  | case5 visited id path edge edges _ _ _ _ ih => exact ih h.next
  | case6 visited id path edge edges _ _ _ _ _ ih => exact ih h.next
  | case7 visited id path edge edges target ht _ _ n hn ih =>
    obtain ⟨m, hm, he⟩ := h.edge ht
    refine ih ⟨⟨n, hn, fun _ h => h⟩, ?_, h.next⟩
    rintro _ ⟨⟩
    exact leads_of_mem_edges hm he (hasNode_of_node? hn)

theorem searchAll_sound (visited ids : List String) :
    ∀ e ∈ f.searchAll visited ids, f.ClosesCycle e := by
  fun_induction f.searchAll visited ids with
  | case1 => simp
  | case2 visited id ids _ ih => exact ih
  | case3 visited id ids _ _ ih => exact ih
  | case4 visited id ids _ n hn visited' found hsearch ih =>
    intro e he
    have hstart : Path.Sound f [(id, n.edges)] := ⟨⟨n, hn, fun _ h => h⟩, by simp, trivial⟩
    rcases List.mem_append.mp he with he | he
    · exact search_sound _ _ hstart e (by rw [hsearch]; exact he)
    · exact ih e he

/-- Nodes in the order in which they are left, the last one first: each leads to nodes left before
it only. -/
inductive Finished (f : Funnel) (cut : List BackEdge) : List String → Prop
  | nil : Finished f cut []
  | cons {id : String} {order : List String} (hid : id ∉ order)
      (hlead : ∀ b, f.LeadsWithout cut id b → b ∈ order) (h : Finished f cut order) :
      Finished f cut (id :: order)

theorem Finished.closed {order : List String} (h : f.Finished cut order) {a b : String}
    (ha : a ∈ order) (hab : f.LeadsWithout cut a b) : b ∈ order := by
  induction h with
  | nil => simp at ha
  | cons _ hlead _ ih =>
    rcases List.mem_cons.mp ha with rfl | ha
    · exact List.mem_cons_of_mem _ (hlead b hab)
    · exact List.mem_cons_of_mem _ (ih ha)

theorem Finished.closed_trans {order : List String} (h : f.Finished cut order) {a b : String}
    (ha : a ∈ order) (hab : ReflTransGen (f.LeadsWithout cut) a b) : b ∈ order := by
  induction hab with
  | refl => exact ha
  | tail _ hbc ih => exact h.closed ih hbc

theorem Finished.no_cycle {order : List String} (h : f.Finished cut order) {a : String}
    (ha : a ∈ order) : ¬ TransGen (f.LeadsWithout cut) a a := by
  induction h with
  | nil => simp at ha
  | cons hid hlead hrest ih =>
    rcases List.mem_cons.mp ha with rfl | ha
    · intro hcycle
      obtain ⟨b, hab, hba⟩ := TransGen.head'_iff.mp hcycle
      exact hid (hrest.closed_trans (hlead b hab) hba)
    · exact ih ha

/-- Every edge of a path's node is still to be followed, or it is cut, or it leads to a node that
was left, or to one further up the path. -/
def Path.Complete (f : Funnel) (cut : List BackEdge) (order : List String) :
    List String → Path → Prop
  | _, [] => True
  | above, (id, edges) :: path =>
    (∃ n, f.node? id = some n ∧ ∀ label b, ⟨label, some b⟩ ∈ n.edges → f.hasNode b = true →
      ⟨label, some b⟩ ∈ edges ∨ ⟨id, label, b⟩ ∈ cut ∨ b ∈ order ∨ b ∈ above) ∧
      Path.Complete f cut order (id :: above) path

theorem Path.Complete.mono {order order' above above' : List String} {path : Path}
    (h : Path.Complete f cut order above path)
    (hsub : ∀ b, b ∈ order ∨ b ∈ above → b ∈ order' ∨ b ∈ above') :
    Path.Complete f cut order' above' path := by
  induction path generalizing above above' with
  | nil => trivial
  | cons entry path ih =>
    obtain ⟨⟨n, hn, hedges⟩, hpath⟩ := h
    refine ⟨⟨n, hn, fun label b he hb => ?_⟩, ih hpath fun b hb => ?_⟩
    · rcases hedges label b he hb with h | h | h
      · exact .inl h
      · exact .inr (.inl h)
      · exact .inr (.inr (hsub b h))
    · simp only [List.mem_cons] at hb ⊢
      rcases hb with hb | rfl | hb
      · exact (hsub b (.inl hb)).imp_right .inr
      · exact .inr (.inl rfl)
      · exact (hsub b (.inr hb)).imp_right .inr

theorem Path.Complete.next {order above above' : List String} {path : Path} {id : String}
    {edge : Edge} {edges : List Edge}
    (h : Path.Complete f cut order above ((id, edge :: edges) :: path)) (hsub : above ⊆ above')
    (hedge : ∀ b, edge.target = some b → f.hasNode b = true →
      ⟨id, edge.label, b⟩ ∈ cut ∨ b ∈ order ∨ b ∈ above') :
    Path.Complete f cut order above' ((id, edges) :: path) := by
  have hmono : Path.Complete f cut order above' ((id, edge :: edges) :: path) :=
    h.mono fun b hb => hb.imp_right fun hb => hsub hb
  obtain ⟨⟨n, hn, hedges⟩, hpath⟩ := hmono
  refine ⟨⟨n, hn, fun label b he hb => ?_⟩, hpath⟩
  rcases hedges label b he hb with h | h
  · rcases List.mem_cons.mp h with rfl | h
    · exact .inr (hedge b rfl hb)
    · exact .inl h
  · exact .inr h

/-- What holds while the search follows a path: the nodes visited are those left and those of the
path, and none is both. -/
structure Searching (f : Funnel) (cut : List BackEdge) (order visited : List String)
    (path : Path) : Prop where
  finished : f.Finished cut order
  visited_iff : ∀ id, id ∈ visited ↔ id ∈ order ∨ id ∈ path.map (·.1)
  nodup : (path.map (·.1)).Nodup
  disjoint : ∀ id ∈ path.map (·.1), id ∉ order
  complete : Path.Complete f cut order [] path

theorem Path.has_iff {path : Path} {id : String} :
    Path.has path id = true ↔ id ∈ path.map (·.1) := by
  simp [Path.has, List.any_eq_true]

namespace Searching

variable {order visited : List String} {path : Path} {id : String} {edge : Edge}
  {edges : List Edge}

theorem leave (h : f.Searching cut order visited ((id, []) :: path)) :
    f.Searching cut (id :: order) visited path := by
  obtain ⟨hid, hnodup⟩ := List.nodup_cons.mp h.nodup
  obtain ⟨⟨n, hn, hedges⟩, hpath⟩ := h.complete
  constructor
  · -- above the last node of a path there is none, so that what it leads to was left or is cut
    refine .cons (h.disjoint id (by simp)) ?_ h.finished
    rintro b ⟨m, hm, hb, label, he, hcut⟩
    obtain rfl : n = m := by simpa [hn] using hm
    simpa [hcut] using hedges label b he hb
  · intro a
    rw [h.visited_iff]
    simp only [List.map_cons, List.mem_cons]
    exact or_left_comm.trans or_assoc.symm
  · exact hnodup
  · intro a ha horder
    rcases List.mem_cons.mp horder with rfl | horder
    · exact hid ha
    · exact h.disjoint a (List.mem_cons_of_mem _ ha) horder
  · refine hpath.mono fun b hb => .inl ?_
    rcases hb with hb | hb
    · exact List.mem_cons_of_mem _ hb
    · exact List.mem_cons.mpr (.inl (by simpa using hb))

theorem next (h : f.Searching cut order visited ((id, edge :: edges) :: path))
    (hedge : ∀ b, edge.target = some b → f.hasNode b = true →
      ⟨id, edge.label, b⟩ ∈ cut ∨ b ∈ order) :
    f.Searching cut order visited ((id, edges) :: path) := by
  refine ⟨h.finished, h.visited_iff, h.nodup, h.disjoint, h.complete.next (fun _ h => h) ?_⟩
  intro b ht hb
  exact (hedge b ht hb).imp_right .inl

theorem enter {target : String} {n : Node}
    (h : f.Searching cut order visited ((id, edge :: edges) :: path))
    (ht : edge.target = some target) (hunseen : target ∉ visited)
    (hn : f.node? target = some n) :
    f.Searching cut order (target :: visited) ((target, n.edges) :: (id, edges) :: path) := by
  have hnew := mt (h.visited_iff target).mpr hunseen
  rw [not_or] at hnew
  refine ⟨h.finished, ?_, List.nodup_cons.mpr ⟨hnew.2, h.nodup⟩, ?_, ⟨⟨n, hn, ?_⟩, ?_⟩⟩
  · intro a
    rw [List.mem_cons, h.visited_iff]
    simp only [List.map_cons, List.mem_cons]
    exact or_left_comm
  · intro a ha
    rcases List.mem_cons.mp ha with rfl | ha
    · exact hnew.1
    · exact h.disjoint a ha
  · intro label b he _
    exact .inl he
  · apply h.complete.next (by simp)
    intro b hb _
    obtain rfl : target = b := by simpa [ht] using hb
    exact .inr (.inr List.mem_cons_self)

end Searching

theorem subset_search (visited : List String) (path : Path) :
    visited ⊆ (f.search visited path).1 := by
  fun_induction f.search visited path with
  | case1 => exact fun _ h => h
  | case2 _ _ _ ih => exact ih
  | case3 _ _ _ _ _ _ ih => exact ih
  | case4 _ _ _ _ _ _ _ _ _ _ hsearch ih =>
    rw [hsearch] at ih
    exact ih
  | case5 _ _ _ _ _ _ _ _ _ ih => exact ih
  | case6 _ _ _ _ _ _ _ _ _ _ ih => exact ih
  | case7 _ _ _ _ _ _ _ _ _ _ _ ih => exact fun a ha => ih (List.mem_cons_of_mem _ ha)

/-- When all edges that the search reports are cut, it leaves the nodes it visits in an order in
which each leads to earlier ones only. -/
theorem search_complete (visited : List String) (path : Path)
    (hcut : ∀ e ∈ (f.search visited path).2, e ∈ cut) {order : List String}
    (h : f.Searching cut order visited path) :
    ∃ order', f.Finished cut order' ∧ ∀ id, id ∈ order' ↔ id ∈ (f.search visited path).1 := by
  fun_induction f.search visited path generalizing order with
  | case1 visited =>
    exact ⟨order, h.finished, fun id => by simpa using (h.visited_iff id).symm⟩
  | case2 visited id path ih => exact ih hcut h.leave
  | case3 visited id path edge edges hnone ih =>
    exact ih hcut (h.next fun b hb _ => by simp [hnone] at hb)
  | case4 visited id path edge edges target ht _ visited' found hsearch ih =>
    rw [hsearch] at ih
    refine ih (fun e he => hcut e (List.mem_cons_of_mem _ he)) (h.next fun b hb _ => .inl ?_)
    obtain rfl : target = b := by simpa [ht] using hb
    exact hcut _ List.mem_cons_self
  | case5 visited id path edge edges target ht hhas hseen ih =>
    -- a node that was visited and is not on the path has been left
    refine ih hcut (h.next fun b hb _ => .inr ?_)
    obtain rfl : target = b := by simpa [ht] using hb
    rcases (h.visited_iff target).mp (by simpa using hseen) with h | h
    · exact h
    · exact absurd (Path.has_iff.mpr h) hhas
  | case6 visited id path edge edges target ht _ _ hnone ih =>
    refine ih hcut (h.next fun b hb hnode => ?_)
    obtain rfl : target = b := by simpa [ht] using hb
    simp [hasNode, hnone] at hnode
  | case7 visited id path edge edges target ht _ hunseen n hn ih =>
    exact ih hcut (h.enter ht (by simpa using hunseen) hn)

theorem searchAll_complete (visited ids : List String)
    (hcut : ∀ e ∈ f.searchAll visited ids, e ∈ cut) {order : List String}
    (h : f.Finished cut order) (hvisited : ∀ id, id ∈ order ↔ id ∈ visited) :
    ∃ order', f.Finished cut order' ∧ (∀ id ∈ visited, id ∈ order') ∧
      ∀ id ∈ ids, f.hasNode id = true → id ∈ order' := by
  fun_induction f.searchAll visited ids generalizing order with
  | case1 visited => exact ⟨order, h, fun id => (hvisited id).mpr, by simp⟩
  | case2 visited id ids hseen ih =>
    obtain ⟨order', hfin, hsub, hids⟩ := ih hcut h hvisited
    have hid : id ∈ order' := hsub id (by simpa using hseen)
    exact ⟨order', hfin, hsub, List.forall_mem_cons.mpr ⟨fun _ => hid, hids⟩⟩
  | case3 visited id ids _ hnone ih =>
    obtain ⟨order', hfin, hsub, hids⟩ := ih hcut h hvisited
    have hid : f.hasNode id = true → id ∈ order' := by simp [hasNode, hnone]
    exact ⟨order', hfin, hsub, List.forall_mem_cons.mpr ⟨hid, hids⟩⟩
  | case4 visited id ids hunseen n hn visited' found hsearch ih =>
    have hnew : id ∉ order := mt (hvisited id).mp (by simpa using hunseen)
    have hstart : f.Searching cut order (id :: visited) [(id, n.edges)] := by
      refine ⟨h, fun a => ?_, by simp, by simpa using hnew, ⟨⟨n, hn, fun _ _ he _ => .inl he⟩, trivial⟩⟩
      simp [hvisited, or_comm]
    obtain ⟨left, hleft, hmem⟩ := search_complete _ _
      (fun e he => hcut e (List.mem_append_left _ (by rw [hsearch] at he; exact he))) hstart
    have hsub := subset_search (f := f) (id :: visited) [(id, n.edges)]
    rw [hsearch] at hmem hsub
    obtain ⟨order', hfin, hsub', hids⟩ :=
      ih (fun e he => hcut e (List.mem_append_right _ he)) hleft hmem
    have hid : id ∈ order' := hsub' _ (hsub List.mem_cons_self)
    refine ⟨order', hfin, fun a ha => hsub' a (hsub (List.mem_cons_of_mem _ ha)), ?_⟩
    exact List.forall_mem_cons.mpr ⟨fun _ => hid, hids⟩

/-- Without the edges that are reported a funnel has no cycle. -/
theorem no_cycle_without_backEdges (id : String) :
    ¬ TransGen (f.LeadsWithout f.backEdges) id id := by
  intro hcycle
  obtain ⟨order, hfin, _, hids⟩ :=
    searchAll_complete [] _ (fun _ (he : _ ∈ f.backEdges) => he) .nil (by simp)
  obtain ⟨b, ⟨n, hn, _⟩, _⟩ := TransGen.head'_iff.mp hcycle
  have hnode : f.hasNode id = true := hasNode_of_node? hn
  exact hfin.no_cycle (hids id (List.mem_append_right _ (hasNode_iff.mp hnode)) hnode) hcycle

theorem closesCycle_of_mem_backEdges {e : BackEdge} (h : e ∈ f.backEdges) : f.ClosesCycle e :=
  searchAll_sound _ _ e h

theorem backEdges_eq_nil_iff : f.backEdges = [] ↔ f.Acyclic := by
  constructor
  · intro h id
    have := no_cycle_without_backEdges (f := f) id
    rwa [h, leadsWithout_nil] at this
  · intro h
    rw [List.eq_nil_iff_forall_not_mem]
    intro e he
    obtain ⟨⟨n, hn, hedge⟩, hnode, hback⟩ := closesCycle_of_mem_backEdges he
    exact h e.source (.head' (leads_of_mem_edges hn hedge hnode) hback)

end FunnelFlow.Funnel
