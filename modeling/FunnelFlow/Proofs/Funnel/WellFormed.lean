import Mathlib.Data.List.Nodup
import FunnelFlow.Funnel.Validation
import FunnelFlow.Proofs.Condition
import FunnelFlow.Proofs.Funnel.Cycles

/-!
When a funnel has no violations. `WellFormed` says it of the graph alone, with paths and no
traversal; each of the checks is shown to ask for one part of it.
-/

namespace FunnelFlow

open Relation

def Text.HasInk (s : String) : Prop := ∃ c ∈ s.toList, Text.isBlank c = false

theorem Text.allBlank_eq_false_iff {s : String} : Text.allBlank s = false ↔ Text.HasInk s := by
  simp [Text.allBlank, Text.HasInk, List.all_eq_false]

theorem Comparison.ofName?_eq_some_iff {s : String} {c : Comparison} :
    ofName? s = some c ↔ s = c.name := by
  constructor
  · intro h
    unfold ofName? at h
    split at h <;> cases h <;> rfl
  · rintro rfl
    exact ofName?_name c

theorem Comparison.name_hasInk (c : Comparison) : Text.HasInk c.name := by
  rw [← Text.allBlank_eq_false_iff]
  cases c <;> decide

namespace Test

def IsComplete (t : Test) : Prop :=
  Text.HasInk t.target ∧ (∃ c : Comparison, t.operator = c.name) ∧ Text.HasInk t.value

theorem violations_eq_nil_iff_isComplete (id : String) (t : Test) :
    t.violations id = [] ↔ t.IsComplete := by
  rw [IsComplete]
  cases h : Comparison.ofName? t.operator with
  | none =>
    have hnone : ¬ ∃ c : Comparison, t.operator = c.name := by
      rintro ⟨c, hc⟩
      simp [hc, Comparison.ofName?_name] at h
    rw [violations, List.append_eq_nil_iff, List.append_eq_nil_iff]
    simp only [h, Option.isNone_none, if_true, hnone, false_and, and_false, iff_false, not_and]
    rintro ⟨_, hoperator⟩ _
    split at hoperator <;> cases hoperator
  | some c =>
    have hc : t.operator = c.name := Comparison.ofName?_eq_some_iff.mp h
    have hsome : ∃ c : Comparison, t.operator = c.name := ⟨c, hc⟩
    have hink : Text.allBlank t.operator = false := by
      rw [hc]
      exact Text.allBlank_eq_false_iff.mpr c.name_hasInk
    simp [violations, h, hink, hsome, Text.allBlank_eq_false_iff]

end Test

namespace Node

def IsComplete (n : Node) : Prop :=
  match n.action with
  | .email subject _ _ => Text.HasInk subject
  | .whatsApp templateId _ _ _ => Text.HasInk templateId
  | .delay hours _ => 0 < hours
  | .condition test whenTrue whenFalse => test.IsComplete ∧ (whenTrue = none ↔ whenFalse = none)

theorem violations_eq_nil_iff_isComplete (n : Node) : n.violations = [] ↔ n.IsComplete := by
  obtain ⟨id, position, label, action⟩ := n
  cases action with
  | email subject content next => simp [violations, IsComplete, Text.allBlank_eq_false_iff]
  | whatsApp templateId title time next =>
    simp [violations, IsComplete, Text.allBlank_eq_false_iff]
  | delay hours next => simp [violations, IsComplete]
  | condition test whenTrue whenFalse =>
    rw [violations, IsComplete, List.append_eq_nil_iff, Test.violations_eq_nil_iff_isComplete]
    apply and_congr_right
    intro _
    cases whenTrue <;> cases whenFalse <;> simp

end Node

namespace Funnel

variable {f : Funnel}

def Refers (f : Funnel) (a b : String) : Prop := ∃ n ∈ f.nodes, n.id = a ∧ b ∈ n.targets

structure WellFormed (f : Funnel) : Prop where
  nonempty : f.nodes ≠ []
  distinct : f.nodeIds.Nodup
  resolved : ∀ a b, f.Refers a b → b ∈ f.nodeIds
  start_mem : f.startNodeId ∈ f.nodeIds
  /-- The start is the only node that no reference points to. -/
  root_iff : ∀ id ∈ f.nodeIds, (∀ a, ¬ f.Refers a id) ↔ id = f.startNodeId
  reached : ∀ id ∈ f.nodeIds, ReflTransGen f.Refers f.startNodeId id
  acyclic : ∀ id, ¬ TransGen f.Refers id id
  complete : ∀ n ∈ f.nodes, n.IsComplete

theorem mem_targets {b : String} : b ∈ f.targets ↔ ∃ a, f.Refers a b := by
  simp only [targets, List.mem_flatMap, Refers]
  constructor
  · rintro ⟨n, hn, hb⟩
    exact ⟨n.id, n, hn, rfl, hb⟩
  · rintro ⟨_, n, hn, _, hb⟩
    exact ⟨n, hn, hb⟩

theorem node?_of_mem (hdistinct : f.nodeIds.Nodup) {n : Node} (hn : n ∈ f.nodes) :
    f.node? n.id = some n := by
  obtain ⟨m, hm⟩ := exists_node? (hasNode_iff.mpr (List.mem_map_of_mem hn))
  rw [hm, List.inj_on_of_nodup_map hdistinct (mem_of_node? hm) hn (node?_id hm)]

theorem Leads.refers {a b : String} (h : f.Leads a b) : f.Refers a b := by
  obtain ⟨n, hn, hb, _⟩ := h
  exact ⟨n, mem_of_node? hn, node?_id hn, hb⟩

theorem leads_eq_refers (hdistinct : f.nodeIds.Nodup)
    (hresolved : ∀ a b, f.Refers a b → b ∈ f.nodeIds) : f.Leads = f.Refers := by
  funext a b
  refine propext ⟨Leads.refers, fun h => ?_⟩
  have hnode : f.hasNode b = true := hasNode_iff.mpr (hresolved a b h)
  obtain ⟨n, hn, rfl, hb⟩ := h
  exact ⟨n, node?_of_mem hdistinct hn, hb, hnode⟩

theorem duplicates_eq_nil_iff (seen ids : List String) :
    duplicates seen ids = [] ↔ (∀ id ∈ ids, id ∉ seen) ∧ ids.Nodup := by
  induction ids generalizing seen with
  | nil => simp [duplicates]
  | cons id ids ih =>
    by_cases hid : id ∈ seen
    · simp [duplicates, hid]
    · simp only [duplicates, List.contains_iff_mem, hid, if_false, ih, List.mem_cons, not_or,
        forall_eq_or_imp, not_false_eq_true, true_and, List.nodup_cons]
      constructor
      · rintro ⟨hnew, hnodup⟩
        exact ⟨fun a ha => (hnew a ha).2, fun h => (hnew id h).1 rfl, hnodup⟩
      · rintro ⟨hnew, hid, hnodup⟩
        exact ⟨fun a ha => ⟨by rintro rfl; exact hid ha, hnew a ha⟩, hnodup⟩

theorem startMissing_eq_nil_iff : f.startMissing = [] ↔ f.hasNode f.startNodeId = true := by
  simp [startMissing]

theorem rootViolations_eq_nil_iff :
    f.rootViolations = [] ↔ f.roots = [f.startNodeId] ∧ f.hasNode f.startNodeId = true := by
  unfold rootViolations
  split
  · next h => simp [h]
  · next root h =>
    by_cases hroot : root = f.startNodeId
    · simp [hroot, h, startMissing_eq_nil_iff]
    · simp [hroot, h]
  · next hnil hone =>
    simp only [reduceCtorEq, false_iff, not_and]
    intro h
    exact absurd h (hone _)

theorem roots_eq_singleton_iff (hdistinct : f.nodeIds.Nodup) {s : String}
    (hs : s ∈ f.nodeIds) :
    f.roots = [s] ↔ ∀ id ∈ f.nodeIds, (∀ a, ¬ f.Refers a id) ↔ id = s := by
  have hmem (id : String) : id ∈ f.roots ↔ id ∈ f.nodeIds ∧ ∀ a, ¬ f.Refers a id := by
    simp [roots, mem_targets]
  constructor
  · intro h id hid
    simpa [h, hid] using (hmem id).symm
  · intro h
    have hnodup : f.roots.Nodup := hdistinct.filter _
    have hsub : ∀ id, id ∈ f.roots ↔ id ∈ [s] := fun id => by
      rw [hmem, List.mem_singleton]
      exact ⟨fun hid => (h id hid.1).mp hid.2, by rintro rfl; exact ⟨hs, (h _ hs).mpr rfl⟩⟩
    exact List.perm_singleton.mp ((List.perm_ext_iff_of_nodup hnodup (by simp)).mpr hsub)

theorem danglingViolations_eq_nil_iff :
    f.danglingViolations = [] ↔ ∀ a b, f.Refers a b → b ∈ f.nodeIds := by
  simp only [danglingViolations, List.flatMap_eq_nil_iff, List.filterMap_eq_nil_iff]
  constructor
  · rintro h _ b ⟨n, hn, rfl, hb⟩
    obtain ⟨label, he⟩ := mem_targets_iff.mp hb
    by_contra hnode
    have := h n hn _ he
    simp [mt hasNode_iff.mp hnode] at this
  · rintro h n hn ⟨label, target⟩ he
    cases target with
    | none => rfl
    | some b =>
      simp [hasNode_iff.mpr (h n.id b ⟨n, hn, rfl, mem_targets_iff.mpr ⟨label, he⟩⟩)]

theorem reachabilityViolations_eq_nil_iff (hstart : f.hasNode f.startNodeId = true) :
    f.reachabilityViolations = [] ↔
      ∀ id ∈ f.nodeIds, ReflTransGen f.Leads f.startNodeId id := by
  simp [reachabilityViolations, hstart, mem_reachedFrom_iff]

theorem cycleViolations_eq_nil_iff : f.cycleViolations = [] ↔ f.Acyclic := by
  rw [cycleViolations, List.map_eq_nil_iff, backEdges_eq_nil_iff]

theorem violations_eq_nil_iff_checks :
    f.violations = [] ↔ f.nodes ≠ [] ∧ f.nodeIds.Nodup ∧ f.rootViolations = [] ∧
      f.danglingViolations = [] ∧ f.reachabilityViolations = [] ∧
      (∀ n ∈ f.nodes, n.violations = []) ∧ f.cycleViolations = [] := by
  unfold violations
  split
  · next h => simp [List.isEmpty_iff.mp h]
  · next h =>
    simp only [List.append_eq_nil_iff, duplicates_eq_nil_iff, List.not_mem_nil, not_false_eq_true,
      implies_true, true_and, List.flatMap_eq_nil_iff, ne_eq, List.isEmpty_iff.not.mp h, and_assoc]

/-- Validation finds nothing exactly in the well-formed funnels. -/
theorem violations_eq_nil_iff_wellFormed (f : Funnel) : f.violations = [] ↔ f.WellFormed := by
  rw [violations_eq_nil_iff_checks]
  constructor
  · rintro ⟨hnonempty, hdistinct, hroot, hdangling, hreach, hnodes, hcycles⟩
    obtain ⟨hroots, hstart⟩ := rootViolations_eq_nil_iff.mp hroot
    have hmem := hasNode_iff.mp hstart
    have hresolved := danglingViolations_eq_nil_iff.mp hdangling
    have hleads := leads_eq_refers hdistinct hresolved
    rw [reachabilityViolations_eq_nil_iff hstart, hleads] at hreach
    rw [cycleViolations_eq_nil_iff, Acyclic, hleads] at hcycles
    exact ⟨hnonempty, hdistinct, hresolved, hmem, (roots_eq_singleton_iff hdistinct hmem).mp hroots,
      hreach, hcycles, fun n hn => n.violations_eq_nil_iff_isComplete.mp (hnodes n hn)⟩
  · intro h
    have hstart := hasNode_iff.mpr h.start_mem
    have hleads := leads_eq_refers h.distinct h.resolved
    refine ⟨h.nonempty, h.distinct, rootViolations_eq_nil_iff.mpr ⟨?_, hstart⟩,
      danglingViolations_eq_nil_iff.mpr h.resolved, ?_,
      fun n hn => n.violations_eq_nil_iff_isComplete.mpr (h.complete n hn), ?_⟩
    · exact (roots_eq_singleton_iff h.distinct h.start_mem).mpr h.root_iff
    · rw [reachabilityViolations_eq_nil_iff hstart, hleads]
      exact h.reached
    · rw [cycleViolations_eq_nil_iff, Acyclic, hleads]
      exact h.acyclic

end Funnel

end FunnelFlow
