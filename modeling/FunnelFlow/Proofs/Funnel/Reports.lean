import FunnelFlow.Proofs.Funnel.Effort
import FunnelFlow.Proofs.Funnel.WellFormed

namespace FunnelFlow

open Relation

variable {v : Violation}

theorem Test.kind_of_mem_violations {id : String} {t : Test} (h : v ∈ t.violations id) :
    v.kind = .missingField := by
  simp only [violations, List.mem_append, List.mem_ite_nil_right, List.mem_singleton] at h
  rcases h with (⟨_, rfl⟩ | h) | ⟨_, rfl⟩
  · rfl
  · split at h
    · obtain rfl := List.mem_singleton.mp h
      rfl
    · obtain ⟨_, rfl⟩ := by simpa using h
      rfl
  · rfl

theorem Node.kind_of_mem_violations {n : Node} (h : v ∈ n.violations) :
    v.kind = .missingField ∨ v.kind = .incompleteBranch := by
  obtain ⟨id, position, label, action⟩ := n
  cases action with
  | email subject content next =>
    obtain ⟨_, rfl⟩ : _ ∧ v = .missingSubject id := by simpa [violations] using h
    exact .inl rfl
  | whatsApp templateId title time next =>
    obtain ⟨_, rfl⟩ : _ ∧ v = .missingTemplate id := by simpa [violations] using h
    exact .inl rfl
  | delay hours next =>
    obtain ⟨_, rfl⟩ : _ ∧ v = .hoursNotPositive id := by simpa [violations] using h
    exact .inl rfl
  | condition test whenTrue whenFalse =>
    rcases List.mem_append.mp h with h | h
    · exact .inl (Test.kind_of_mem_violations h)
    · right
      cases whenTrue <;> cases whenFalse <;> simp_all [Violation.kind]

namespace Funnel

variable {f : Funnel}

theorem kind_of_mem_duplicates {seen ids : List String} (h : v ∈ duplicates seen ids) :
    v.kind = .duplicateNodeId := by
  induction ids generalizing seen with
  | nil => simp [duplicates] at h
  | cons id ids ih =>
    by_cases hid : id ∈ seen
    · simp only [duplicates, List.contains_iff_mem, hid, if_true, List.mem_cons] at h
      rcases h with rfl | h
      · rfl
      · exact ih h
    · simp only [duplicates, List.contains_iff_mem, hid, if_false] at h
      exact ih h

theorem mem_startMissing_iff :
    v ∈ f.startMissing ↔ f.hasNode f.startNodeId = false ∧ v = .startMissing f.startNodeId := by
  cases h : f.hasNode f.startNodeId <;> simp [startMissing, h]

theorem mem_rootViolations_iff : v ∈ f.rootViolations ↔
    (f.roots = [] ∧ v = .noRoot) ∨ (2 ≤ f.roots.length ∧ v = .multipleRoots f.roots) ∨
    (∃ root, f.roots = [root] ∧ root ≠ f.startNodeId ∧ v = .startMismatch root f.startNodeId) ∨
    ((∀ root, f.roots = [root] → root = f.startNodeId) ∧ v ∈ f.startMissing) := by
  unfold rootViolations
  split
  · next h => simp [h]
  · next root h =>
    by_cases hroot : root = f.startNodeId
    · simp [h, hroot]
    · simp [h, hroot]
  · next hnil hone =>
    match hroots : f.roots with
    | [] => exact absurd hroots hnil
    | [root] => exact absurd hroots (hone root)
    | _ :: _ :: _ => simp

theorem kind_of_mem_danglingViolations (h : v ∈ f.danglingViolations) :
    v.kind = .danglingEdge := by
  simp only [danglingViolations, List.mem_flatMap, List.mem_filterMap] at h
  obtain ⟨n, _, ⟨label, target⟩, _, h⟩ := h
  cases target with
  | none => simp at h
  | some target =>
    obtain ⟨_, rfl⟩ : _ ∧ Violation.danglingEdge n.id label target = v := by simpa using h
    rfl

theorem kind_of_mem_reachabilityViolations (h : v ∈ f.reachabilityViolations) :
    v.kind = .unreachable := by
  simp only [reachabilityViolations, List.mem_ite_nil_right, List.mem_map] at h
  obtain ⟨_, id, _, rfl⟩ := h
  rfl

theorem kind_of_mem_cycleViolations (h : v ∈ f.cycleViolations) : v.kind = .cycle := by
  obtain ⟨e, _, rfl⟩ := List.mem_map.mp h
  rfl

theorem kind_of_mem_rootViolations (h : v ∈ f.rootViolations) :
    v.kind = .noRoot ∨ v.kind = .multipleRoots ∨ v.kind = .startMismatch := by
  rcases mem_rootViolations_iff.mp h with ⟨_, rfl⟩ | ⟨_, rfl⟩ | ⟨_, _, _, rfl⟩ | ⟨_, h⟩
  · exact .inl rfl
  · exact .inr (.inl rfl)
  · exact .inr (.inr rfl)
  · obtain ⟨_, rfl⟩ := mem_startMissing_iff.mp h
    exact .inr (.inr rfl)

theorem filter_rootViolations {k : Violation.Kind} (hnone : k ≠ .noRoot)
    (hmany : k ≠ .multipleRoots) (hstart : k ≠ .startMismatch) :
    f.rootViolations.filter (·.kind = k) = [] := by
  apply List.filter_eq_nil_iff.mpr
  intro v hv
  rcases kind_of_mem_rootViolations hv with hk | hk | hk <;> simp [*, Ne.symm]

theorem filter_nodeViolations {k : Violation.Kind} (hfield : k ≠ .missingField)
    (hbranch : k ≠ .incompleteBranch) :
    (f.nodes.flatMap Node.violations).filter (·.kind = k) = [] := by
  apply List.filter_eq_nil_iff.mpr
  intro v hv
  obtain ⟨n, _, hv⟩ := List.mem_flatMap.mp hv
  rcases Node.kind_of_mem_violations hv with hk | hk <;> simp [*, Ne.symm]

theorem filter_of_kind {l : List Violation} {k₀ : Violation.Kind} (h : ∀ v ∈ l, v.kind = k₀)
    (k : Violation.Kind) : l.filter (·.kind = k) = if k₀ = k then l else [] := by
  by_cases hk : k₀ = k
  · rw [if_pos hk]
    apply List.filter_eq_self.mpr
    intro v hv
    simp [h v hv, hk]
  · rw [if_neg hk]
    apply List.filter_eq_nil_iff.mpr
    intro v hv
    simp [h v hv, hk]

def reported (f : Funnel) (k : Violation.Kind) : List Violation :=
  match k with
  | .emptyFunnel => []
  | .duplicateNodeId => duplicates [] f.nodeIds
  | .noRoot | .multipleRoots | .startMismatch => f.rootViolations.filter (·.kind = k)
  | .danglingEdge => f.danglingViolations
  | .unreachable => f.reachabilityViolations
  | .missingField | .incompleteBranch =>
    (f.nodes.flatMap Node.violations).filter (·.kind = k)
  | .cycle => f.cycleViolations

theorem filter_violations (h : f.nodes ≠ []) (k : Violation.Kind) :
    f.violations.filter (·.kind = k) = f.reported k := by
  have hempty : ¬ f.nodes.isEmpty = true := by simpa using h
  rw [violations, if_neg hempty]
  simp only [List.filter_append, filter_of_kind (fun _ => kind_of_mem_duplicates),
    filter_of_kind (fun _ => kind_of_mem_danglingViolations),
    filter_of_kind (fun _ => kind_of_mem_reachabilityViolations),
    filter_of_kind (fun _ => kind_of_mem_cycleViolations)]
  cases k <;> simp [reported, filter_rootViolations, filter_nodeViolations]

def Reports (f : Funnel) (k : Violation.Kind) : Prop := ∃ v ∈ f.violations, v.kind = k

theorem reports_iff (h : f.nodes ≠ []) {k : Violation.Kind} :
    f.Reports k ↔ ∃ v ∈ f.reported k, v.kind = k := by
  simp [Reports, ← filter_violations h]

theorem reports_noRoot_iff (h : f.nodes ≠ []) : f.Reports .noRoot ↔ f.roots = [] := by
  simp [reports_iff h, reported, mem_rootViolations_iff, mem_startMissing_iff, or_and_right,
    exists_or, Violation.kind]

theorem reports_multipleRoots_iff (h : f.nodes ≠ []) :
    f.Reports .multipleRoots ↔ 2 ≤ f.roots.length := by
  simp [reports_iff h, reported, mem_rootViolations_iff, mem_startMissing_iff, or_and_right,
    exists_or, Violation.kind]

theorem reports_startMismatch_iff (h : f.nodes ≠ []) : f.Reports .startMismatch ↔
    (∃ root, f.roots = [root] ∧ root ≠ f.startNodeId) ∨ f.hasNode f.startNodeId = false := by
  have hkind : f.Reports .startMismatch ↔
      (∃ root, f.roots = [root] ∧ root ≠ f.startNodeId) ∨
      ((∀ root, f.roots = [root] → root = f.startNodeId) ∧ f.hasNode f.startNodeId = false) := by
    simp [reports_iff h, reported, mem_rootViolations_iff, mem_startMissing_iff, or_and_right,
      exists_or, Violation.kind]
  rw [hkind]
  by_cases hroot : ∃ root, f.roots = [root] ∧ root ≠ f.startNodeId
  · exact iff_of_true (.inl hroot) (.inl hroot)
  · apply or_congr_right
    apply and_iff_right
    intro root hroots
    by_contra hne
    exact hroot ⟨root, hroots, hne⟩

theorem acyclic_of_nodes_eq_nil (h : f.nodes = []) : f.Acyclic := by
  intro id hid
  obtain ⟨a, ⟨n, hn, _⟩, _⟩ := TransGen.head'_iff.mp hid
  simp [node?, h] at hn

theorem filter_violations_cycle (f : Funnel) :
    f.violations.filter (·.kind = .cycle) = f.cycleViolations := by
  by_cases h : f.nodes = []
  · rw [cycleViolations_eq_nil_iff.mpr (acyclic_of_nodes_eq_nil h)]
    simp [violations, h, Violation.kind]
  · exact filter_violations h .cycle

theorem reports_cycle_iff : f.Reports .cycle ↔ ¬ f.Acyclic := by
  rw [← cycleViolations_eq_nil_iff, ← filter_violations_cycle, List.filter_eq_nil_iff]
  simp [Reports]

theorem mem_reachabilityViolations_iff : v ∈ f.reachabilityViolations ↔
    f.hasNode f.startNodeId = true ∧ ∃ id ∈ f.nodeIds,
      ¬ ReflTransGen f.Leads f.startNodeId id ∧ .unreachable id f.startNodeId = v := by
  by_cases hstart : f.hasNode f.startNodeId = true
  · simp [reachabilityViolations, hstart, mem_reachedFrom_iff, and_assoc]
  · simp [reachabilityViolations, hstart]

theorem reports_unreachable_iff (h : f.nodes ≠ []) : f.Reports .unreachable ↔
    f.hasNode f.startNodeId = true ∧
      ∃ id ∈ f.nodeIds, ¬ ReflTransGen f.Leads f.startNodeId id := by
  rw [reports_iff h]
  constructor
  · rintro ⟨v, hv, _⟩
    obtain ⟨hstart, id, hid, hpath, _⟩ := mem_reachabilityViolations_iff.mp hv
    exact ⟨hstart, id, hid, hpath⟩
  · rintro ⟨hstart, id, hid, hpath⟩
    exact ⟨_, mem_reachabilityViolations_iff.mpr ⟨hstart, id, hid, hpath, rfl⟩, rfl⟩

open scoped Classical in
/-- The nodes that are reported as unreachable are those that no references lead to from the start,
each in its place; when the start names no node, that is reported instead. -/
theorem unreachable_nodes_are_reported (f : Funnel) (h : f.nodes ≠ []) :
    (f.hasNode f.startNodeId = true → f.violations.filter (·.kind = .unreachable) =
      (f.nodes.filter fun n => ¬ ReflTransGen f.Leads f.startNodeId n.id).map
        fun n => .unreachable n.id f.startNodeId) ∧
    (f.hasNode f.startNodeId = false → ¬ f.Reports .unreachable ∧ f.Reports .startMismatch) ∧
    ∃ turns ≤ 1 + 2 * f.nodes.length,
      f.Traverses [] [f.startNodeId] turns (f.reachedFrom f.startNodeId) := by
  refine ⟨fun hstart => ?_, fun hstart => ⟨?_, ?_⟩, f.exists_traverses_reachedFrom f.startNodeId⟩
  · have hreached (n : Node) : (!(f.reachedFrom f.startNodeId).contains n.id) =
        decide ¬ ReflTransGen f.Leads f.startNodeId n.id := by
      simp [mem_reachedFrom_iff, hstart]
    rw [filter_violations h, reported, reachabilityViolations, if_pos hstart]
    dsimp only
    rw [nodeIds, List.filter_map, List.map_map]
    simp only [Function.comp_def, hreached]
  · simp [reports_unreachable_iff h, hstart]
  · exact (reports_startMismatch_iff h).mpr (.inr hstart)

/-- Two cycles, two nodes of one id that nothing leads to, and a reference to no node. -/
def tangled : Funnel :=
  { id := "tangled", name := "Tangled", trigger := .leadSubscribed, isActive := false
    startNodeId := "start"
    nodes := [
      { id := "start", position := none, label := none
        action := .condition ⟨"opened", "equals", "yes"⟩ (some "loop") (some "ghost") },
      { id := "loop", position := none, label := none, action := .email "Again" "" (some "back") },
      { id := "lost", position := none, label := none, action := .email "Lost" "" (some "loop") },
      { id := "back", position := none, label := none
        action := .condition ⟨"opened", "equals", "yes"⟩ (some "loop") (some "back") },
      { id := "lost", position := none, label := none, action := .delay 1 none }]
    createdAt := none, updatedAt := none }

def strayed : Funnel := { tangled with startNodeId := "ghost" }

open scoped Classical in
theorem tangled_unreachable_nodes :
    (tangled.nodes ≠ [] ∧ tangled.hasNode tangled.startNodeId = true ∧
      tangled.violations.filter (·.kind = .unreachable) =
        (tangled.nodes.filter fun n => ¬ ReflTransGen tangled.Leads tangled.startNodeId n.id).map
          fun n => .unreachable n.id tangled.startNodeId) ∧
    strayed.nodes ≠ [] ∧ strayed.hasNode strayed.startNodeId = false ∧
      ¬ strayed.Reports .unreachable ∧ strayed.Reports .startMismatch := by
  have hnodes : tangled.nodes ≠ [] := by decide
  have hstart : tangled.hasNode tangled.startNodeId = true := by decide
  have hghost : strayed.hasNode strayed.startNodeId = false := by decide
  exact ⟨⟨hnodes, hstart, (unreachable_nodes_are_reported tangled hnodes).1 hstart⟩, hnodes, hghost,
    (unreachable_nodes_are_reported strayed hnodes).2.1 hghost⟩

end Funnel

end FunnelFlow
