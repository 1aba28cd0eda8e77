import Mathlib.Logic.Relation
import FunnelFlow.Funnel.Graph

namespace FunnelFlow.Funnel

open Relation

variable {f : Funnel}

/-- The first node with the id `a` refers to `b`, which names a node. -/
def Leads (f : Funnel) (a b : String) : Prop :=
  ∃ n, f.node? a = some n ∧ b ∈ n.targets ∧ f.hasNode b = true

/-- The same without a condition on `b`, which need not name a node. -/
def Points (f : Funnel) (a b : String) : Prop := ∃ n, f.node? a = some n ∧ b ∈ n.targets

theorem node?_id {id : String} {n : Node} (h : f.node? id = some n) : n.id = id := by
  simpa using List.find?_some h

theorem mem_of_node? {id : String} {n : Node} (h : f.node? id = some n) : n ∈ f.nodes :=
  List.mem_of_find?_eq_some h

theorem hasNode_iff {id : String} : f.hasNode id = true ↔ id ∈ f.nodeIds := by
  simp [hasNode, node?, nodeIds, List.find?_isSome]

theorem hasNode_of_node? {id : String} {n : Node} (h : f.node? id = some n) :
    f.hasNode id = true := by
  simp [hasNode, h]

theorem exists_node? {id : String} (h : f.hasNode id = true) : ∃ n, f.node? id = some n :=
  Option.isSome_iff_exists.mp h

theorem Points.hasNode {a b : String} (h : f.Points a b) : f.hasNode a = true := by
  obtain ⟨n, hn, _⟩ := h
  exact hasNode_of_node? hn

theorem Points.leads {a b : String} (h : f.Points a b) (hb : f.hasNode b = true) : f.Leads a b := by
  obtain ⟨n, hn, htarget⟩ := h
  exact ⟨n, hn, htarget, hb⟩

theorem Leads.hasNode {a b : String} (h : f.Leads a b) : f.hasNode b = true := h.choose_spec.2.2

theorem reach_sound (reached pending : List String) (id : String)
    (h : id ∈ f.reach reached pending) :
    id ∈ reached ∨ ∃ p ∈ pending, f.hasNode p = true ∧ ReflTransGen f.Leads p id := by
  fun_induction f.reach reached pending with
  | case1 reached => exact .inl h
  | case2 reached p pending _ ih =>
    rcases ih h with h | ⟨q, hq, hpath⟩
    · exact .inl h
    · exact .inr ⟨q, List.mem_cons_of_mem _ hq, hpath⟩
  | case3 reached p pending _ _ ih =>
    rcases ih h with h | ⟨q, hq, hpath⟩
    · exact .inl h
    · exact .inr ⟨q, List.mem_cons_of_mem _ hq, hpath⟩
  | case4 reached p pending _ n hn ih =>
    have hp : f.hasNode p = true := hasNode_of_node? hn
    rcases ih h with h | ⟨q, hq, hnode, hpath⟩
    · rcases List.mem_cons.mp h with rfl | h
      · exact .inr ⟨_, List.mem_cons_self, hp, .refl⟩
      · exact .inl h
    · rcases List.mem_append.mp hq with hq | hq
      · exact .inr ⟨p, List.mem_cons_self, hp, .head ⟨n, hn, hq, hnode⟩ hpath⟩
      · exact .inr ⟨q, List.mem_cons_of_mem _ hq, hnode, hpath⟩

/-- What the ids that are reached lead to is reached as well, or still pending. -/
def Closed (f : Funnel) (reached pending : List String) : Prop :=
  ∀ a ∈ reached, ∀ b, f.Leads a b → b ∈ reached ∨ b ∈ pending

theorem Closed.skip {reached pending : List String} {p : String}
    (h : f.Closed reached (p :: pending)) (hp : f.hasNode p = true → p ∈ reached) :
    f.Closed reached pending := by
  intro a ha b hab
  rcases h a ha b hab with hb | hb
  · exact .inl hb
  · rcases List.mem_cons.mp hb with rfl | hb
    · exact .inl (hp hab.hasNode)
    · exact .inr hb

theorem Closed.enter {reached pending : List String} {p : String} {n : Node}
    (h : f.Closed reached (p :: pending)) (hn : f.node? p = some n) :
    f.Closed (p :: reached) (n.targets ++ pending) := by
  intro a ha b hab
  rcases List.mem_cons.mp ha with rfl | ha
  · obtain ⟨m, hm, hb, _⟩ := hab
    obtain rfl : n = m := by simpa [hn] using hm
    exact .inr (List.mem_append_left _ hb)
  · rcases h a ha b hab with hb | hb
    · exact .inl (List.mem_cons_of_mem _ hb)
    · rcases List.mem_cons.mp hb with rfl | hb
      · exact .inl List.mem_cons_self
      · exact .inr (List.mem_append_right _ hb)

theorem reach_complete (reached pending : List String) (h : f.Closed reached pending) :
    reached ⊆ f.reach reached pending ∧
      (∀ p ∈ pending, f.hasNode p = true → p ∈ f.reach reached pending) ∧
      f.Closed (f.reach reached pending) [] := by
  fun_induction f.reach reached pending with
  | case1 reached => exact ⟨fun _ h => h, by simp, h⟩
  | case2 reached p pending seen ih =>
    have hp : p ∈ reached := by simpa using seen
    obtain ⟨hsub, hpend, hclosed⟩ := ih (h.skip fun _ => hp)
    exact ⟨hsub, List.forall_mem_cons.mpr ⟨fun _ => hsub hp, hpend⟩, hclosed⟩
  | case3 reached p pending _ hnone ih =>
    have hp : ¬ f.hasNode p = true := by simp [hasNode, hnone]
    obtain ⟨hsub, hpend, hclosed⟩ := ih (h.skip fun hnode => absurd hnode hp)
    exact ⟨hsub, List.forall_mem_cons.mpr ⟨fun hnode => absurd hnode hp, hpend⟩, hclosed⟩
  | case4 reached p pending _ n hn ih =>
    obtain ⟨hsub, hpend, hclosed⟩ := ih (h.enter hn)
    refine ⟨fun a ha => hsub (List.mem_cons_of_mem _ ha), ?_, hclosed⟩
    refine List.forall_mem_cons.mpr ⟨fun _ => hsub List.mem_cons_self, ?_⟩
    exact fun q hq => hpend q (List.mem_append_right _ hq)

theorem mem_reachedFrom_iff {s id : String} :
    id ∈ f.reachedFrom s ↔ f.hasNode s = true ∧ ReflTransGen f.Leads s id := by
  constructor
  · intro h
    rcases reach_sound [] [s] id h with h | ⟨p, hp, hnode, hpath⟩
    · simp at h
    · obtain rfl : p = s := by simpa using hp
      exact ⟨hnode, hpath⟩
  · rintro ⟨hs, hpath⟩
    have hstart : f.Closed [] [s] := nofun
    obtain ⟨_, hpend, hclosed⟩ := reach_complete [] [s] hstart
    induction hpath with
    | refl => exact hpend s (by simp) hs
    | tail _ hab ih => exact (hclosed _ ih _ hab).resolve_right (by simp)

end FunnelFlow.Funnel
