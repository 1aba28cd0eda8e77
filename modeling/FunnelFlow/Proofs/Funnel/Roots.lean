import FunnelFlow.Proofs.Funnel.Reports

/-!
References followed backwards. Where there is no cycle this ends, and it ends at a root; so what the
checks of roots, of cycles and of reachability report is not independent.
-/

namespace FunnelFlow.Funnel

open Relation

variable {f : Funnel} {a b id : String}

/-- References that only lead to nodes of a higher rank close no cycle. -/
theorem acyclic_of_rank (rank : String → ℕ)
    (h : ∀ n ∈ f.nodes, ∀ b ∈ n.targets, rank n.id < rank b) : f.Acyclic := by
  have hleads {a b : String} (hab : f.Leads a b) : rank a < rank b := by
    obtain ⟨n, hn, rfl, hb⟩ := hab.refers
    exact h n hn b hb
  have hrank {a b : String} (hab : TransGen f.Leads a b) : rank a < rank b := by
    induction hab with
    | single hab => exact hleads hab
    | tail _ hbc ih => exact Nat.lt_trans ih (hleads hbc)
  exact fun id hid => Nat.lt_irrefl _ (hrank hid)

open scoped Classical in
noncomputable def ancestors (f : Funnel) (id : String) : ℕ :=
  (f.nodeIds.filter fun a => TransGen f.Leads a id).length

theorem Leads.mem_nodeIds (h : f.Leads a b) : a ∈ f.nodeIds :=
  mem_nodeIds_of_node? h.choose_spec.1

theorem Acyclic.ancestors_lt (h : f.Acyclic) (hab : f.Leads a b) :
    f.ancestors a < f.ancestors b := by
  unfold ancestors
  apply length_filter_lt _ hab.mem_nodeIds
  · simpa using .single hab
  · simpa using h a
  · intro x _ hx
    simp only [decide_eq_true_eq] at hx ⊢
    exact hx.tail hab

theorem exists_leads_of_notMem_roots (hdistinct : f.nodeIds.Nodup) (hid : id ∈ f.nodeIds)
    (hroot : id ∉ f.roots) : ∃ a, f.Leads a id := by
  obtain ⟨_, n, hn, rfl, hb⟩ : ∃ a, f.Refers a id := by
    simpa [roots, hid, mem_targets] using hroot
  exact ⟨n.id, n, node?_of_mem hdistinct hn, hb, hasNode_iff.mpr hid⟩

theorem Acyclic.exists_root (h : f.Acyclic) (hdistinct : f.nodeIds.Nodup) (hid : id ∈ f.nodeIds) :
    ∃ root ∈ f.roots, ReflTransGen f.Leads root id := by
  -- a node that is no root has a predecessor, which fewer nodes lead to
  induction hcount : f.ancestors id using Nat.strongRecOn generalizing id with
  | ind count ih =>
    by_cases hroot : id ∈ f.roots
    · exact ⟨id, hroot, .refl⟩
    · obtain ⟨a, hab⟩ := exists_leads_of_notMem_roots hdistinct hid hroot
      obtain ⟨root, hroot, hpath⟩ := ih _ (hcount ▸ h.ancestors_lt hab) hab.mem_nodeIds rfl
      exact ⟨root, hroot, hpath.tail hab⟩

theorem mem_nodeIds_of_mem_roots (h : id ∈ f.roots) : id ∈ f.nodeIds := List.mem_of_mem_filter h

theorem Acyclic.roots_ne_nil (h : f.Acyclic) (hdistinct : f.nodeIds.Nodup) (hne : f.nodes ≠ []) :
    f.roots ≠ [] := by
  obtain ⟨n, hn⟩ := List.exists_mem_of_ne_nil _ hne
  obtain ⟨root, hroot, _⟩ := h.exists_root hdistinct (List.mem_map_of_mem hn)
  exact List.ne_nil_of_mem hroot

theorem Acyclic.reached_of_roots (h : f.Acyclic) (hdistinct : f.nodeIds.Nodup) {s : String}
    (hroots : f.roots = [s]) (hid : id ∈ f.nodeIds) : ReflTransGen f.Leads s id := by
  obtain ⟨root, hroot, hpath⟩ := h.exists_root hdistinct hid
  obtain rfl : root = s := by simpa [hroots] using hroot
  exact hpath

theorem Acyclic.violations_eq_nil (h : f.Acyclic) (hnonempty : f.nodes ≠ [])
    (hdistinct : f.nodeIds.Nodup) (hroot : f.rootViolations = [])
    (hdangling : f.danglingViolations = []) (hnodes : ∀ n ∈ f.nodes, n.violations = []) :
    f.violations = [] := by
  obtain ⟨hroots, hstart⟩ := rootViolations_eq_nil_iff.mp hroot
  refine violations_eq_nil_iff_checks.mpr ⟨hnonempty, hdistinct, hroot, hdangling, ?_, hnodes, ?_⟩
  · rw [reachabilityViolations_eq_nil_iff hstart]
    exact fun id hid => h.reached_of_roots hdistinct hroots hid
  · exact cycleViolations_eq_nil_iff.mpr h

/-- A funnel without a root has a cycle; a funnel with no other root than its start and without a
cycle has no unreachable nodes. So unreachable nodes are never reported alone. -/
theorem graph_reports_agree (f : Funnel) (hne : f.nodes ≠ []) (hdistinct : f.nodeIds.Nodup) :
    (f.Reports .noRoot → f.Reports .cycle) ∧
    (f.roots = [f.startNodeId] → ¬ f.Reports .cycle → ¬ f.Reports .unreachable) ∧
    (f.Reports .unreachable →
      f.Reports .multipleRoots ∨ f.Reports .startMismatch ∨ f.Reports .cycle) := by
  have hnoRoot : f.Reports .noRoot → f.Reports .cycle := by
    rw [reports_noRoot_iff hne, reports_cycle_iff]
    intro hroots hacyclic
    exact hacyclic.roots_ne_nil hdistinct hne hroots
  have hsingle : f.roots = [f.startNodeId] → ¬ f.Reports .cycle → ¬ f.Reports .unreachable := by
    rw [reports_cycle_iff, not_not, reports_unreachable_iff hne]
    rintro hroots hacyclic ⟨_, id, hid, hpath⟩
    exact hpath (hacyclic.reached_of_roots hdistinct hroots hid)
  refine ⟨hnoRoot, hsingle, ?_⟩
  intro hunreachable
  match hroots : f.roots with
  | [] => exact .inr (.inr (hnoRoot ((reports_noRoot_iff hne).mpr hroots)))
  | [root] =>
    by_cases hstart : root = f.startNodeId
    · right; right
      by_contra hcycle
      exact hsingle (hstart ▸ hroots) hcycle hunreachable
    · exact .inr (.inl ((reports_startMismatch_iff hne).mpr (.inl ⟨root, hroots, hstart⟩)))
  | _ :: _ :: _ => exact .inl ((reports_multipleRoots_iff hne).mpr (by simp [hroots]))

/-- Every node is referred to, two of them by each other and one by itself. -/
def ring : Funnel :=
  { id := "ring", name := "Ring", trigger := .leadSubscribed, isActive := false
    startNodeId := "there"
    nodes := [
      { id := "there", position := none, label := none, action := .email "There" "" (some "back") },
      { id := "back", position := none, label := none
        action := .condition ⟨"opened", "equals", "yes"⟩ (some "there") (some "ghost") },
      { id := "aside", position := none, label := none, action := .delay 1 (some "aside") }]
    createdAt := none, updatedAt := none }

theorem ring_not_reached_aside : ¬ ReflTransGen ring.Leads "there" "aside" := by
  have hself : ∀ n ∈ ring.nodes, "aside" ∈ n.targets → n.id = "aside" := by decide
  have hback {a : String} (ha : ReflTransGen ring.Leads a "aside") : a = "aside" := by
    induction ha using ReflTransGen.head_induction_on with
    | refl => rfl
    | head hab _ ih =>
      obtain ⟨n, hn, rfl, hb⟩ := hab.refers
      exact hself n hn (ih ▸ hb)
  intro hpath
  exact absurd (hback hpath) (by decide)

/-- One branch leads on, the other to no node. -/
def forked : Funnel :=
  { id := "forked", name := "Forked", trigger := .leadSubscribed, isActive := false
    startNodeId := "fork"
    nodes := [
      { id := "last", position := none, label := none, action := .email "Last" "" none },
      { id := "fork", position := none, label := none
        action := .condition ⟨"opened", "equals", "yes"⟩ (some "last") (some "ghost") }]
    createdAt := none, updatedAt := none }

theorem ring_reports_agree :
    (ring.nodes ≠ [] ∧ ring.nodeIds.Nodup ∧ ring.Reports .noRoot ∧ ring.Reports .cycle) ∧
    ring.Reports .unreachable ∧
      (ring.Reports .multipleRoots ∨ ring.Reports .startMismatch ∨ ring.Reports .cycle) ∧
    forked.nodes ≠ [] ∧ forked.nodeIds.Nodup ∧ forked.roots = [forked.startNodeId] ∧
      ¬ forked.Reports .cycle ∧ ¬ forked.Reports .unreachable := by
  have hring : ring.nodes ≠ [] := by decide
  have hdistinct : ring.nodeIds.Nodup := by decide
  have hnoRoot : ring.Reports .noRoot := (reports_noRoot_iff hring).mpr (by decide)
  have hunreachable : ring.Reports .unreachable := by
    rw [reports_unreachable_iff hring]
    exact ⟨by decide, "aside", by decide, ring_not_reached_aside⟩
  have hforked : forked.nodes ≠ [] := by decide
  have hdistinct' : forked.nodeIds.Nodup := by decide
  have hroots : forked.roots = [forked.startNodeId] := by decide
  have hcycle : ¬ forked.Reports .cycle := by
    rw [reports_cycle_iff, not_not]
    exact acyclic_of_rank ["fork", "last"].idxOf (by decide)
  obtain ⟨hfirst, _, hlast⟩ := graph_reports_agree ring hring hdistinct
  exact ⟨⟨hring, hdistinct, hnoRoot, hfirst hnoRoot⟩, hunreachable, hlast hunreachable, hforked,
    hdistinct', hroots, hcycle, (graph_reports_agree forked hforked hdistinct').2.1 hroots hcycle⟩

end FunnelFlow.Funnel
