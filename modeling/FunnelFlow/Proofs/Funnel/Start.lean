import FunnelFlow.Proofs.Funnel.Roots
import FunnelFlow.Proofs.Funnel.RoundTrip

namespace FunnelFlow.Funnel

variable {f : Funnel}

theorem get?_recognised_startNodeId {doc : Fields}
    (hblank : (doc.get "startNodeId").isFilled = false) :
    (recognised doc).get? "startNodeId" = none := by
  rw [Table.get?_eq_none_iff]
  intro hkey
  obtain ⟨entry, hentry, hstart⟩ := List.mem_map.mp hkey
  obtain ⟨key, _, hkey⟩ := List.mem_filterMap.mp hentry
  by_cases hblankKey : key = "startNodeId"
  · simp [hblankKey, hblank] at hkey
  · obtain ⟨_, rfl⟩ : _ ∧ (key, doc.get key) = entry := by simpa [hblankKey] using hkey
    exact hblankKey hstart

/-- A document that leaves the start open is read as a funnel with the empty start. -/
theorem startNodeId_of_blank {document given : Value} {fresh : String} {fields : Fields}
    (hfields : document.fields? = .ok fields)
    (hblank : (fields.get "startNodeId").isFilled = false)
    (hread : (ofDocument document given).result fresh = .ok f) : f.startNodeId = "" := by
  obtain ⟨doc, nodes, id, hdoc, _, hread⟩ := exists_readFields hread
  obtain rfl : fields = doc := by simpa [hfields] using hdoc
  obtain ⟨_, _, hstart⟩ := of_readFields hread
  simpa [Coerce.withDefault, get?_recognised_startNodeId hblank] using hstart.symm

theorem inferStart_of_blank (hblank : f.startNodeId = "") {first : Node} {rest : List Node}
    (hnodes : f.nodes = first :: rest) :
    f.inferStart = { f with startNodeId := f.roots.headD first.id } := by
  simp [inferStart, hblank, hnodes]

theorem startNodeId_inferStart_mem (hblank : f.startNodeId = "") (hne : f.nodes ≠ []) :
    f.inferStart.startNodeId ∈ f.nodeIds ∧
      (f.roots ≠ [] → f.inferStart.startNodeId ∈ f.roots) := by
  obtain ⟨first, rest, hnodes⟩ := List.exists_cons_of_ne_nil hne
  rw [inferStart_of_blank hblank hnodes]
  cases hroots : f.roots with
  | nil => simp [nodeIds, hnodes]
  | cons root roots =>
    have hroot : root ∈ f.roots := by simp [hroots]
    exact ⟨mem_nodeIds_of_mem_roots hroot, fun _ => by simp⟩

theorem startNodeId_inferStart_of_violations (hblank : f.startNodeId = "") {s : String}
    (h : { f with startNodeId := s }.violations = []) : f.inferStart.startNodeId = s := by
  obtain ⟨hne, _, hroot, _⟩ := violations_eq_nil_iff_checks.mp h
  have hroots : f.roots = [s] := (rootViolations_eq_nil_iff.mp hroot).1
  simpa [hroots] using (startNodeId_inferStart_mem hblank hne).2

theorem nodes_inferStart (f : Funnel) : f.inferStart.nodes = f.nodes := by
  rw [inferStart_eq]

theorem not_reports_startMismatch_of_inferStart (hblank : f.startNodeId = "")
    (hne : f.nodes ≠ []) : ¬ f.inferStart.Reports .startMismatch := by
  obtain ⟨hmem, hroot⟩ := startNodeId_inferStart_mem hblank hne
  have hroots : f.inferStart.roots = f.roots := by simp [roots, targets, nodeIds, nodes_inferStart]
  have hstart : f.inferStart.hasNode f.inferStart.startNodeId = true := by
    simpa [hasNode_iff, nodeIds, nodes_inferStart] using hmem
  rw [reports_startMismatch_iff (f.nodes_inferStart ▸ hne), hroots, hstart]
  rintro (⟨root, hsingle, hother⟩ | hmissing)
  · exact hother (by simpa [hsingle, eq_comm] using hroot)
  · cases hmissing

/-- A document that leaves the start open gets the one start with which nothing is to be reported,
if there is any. In any case the start is a node, and a root if there is one, so that it is never
the start that is reported. -/
theorem open_start_is_inferred (fields : Fields) (fresh : String) (f : Funnel)
    (hblank : (fields.get "startNodeId").isFilled = false)
    (hread : (ofDocument (.object fields) .null).result fresh = .ok f) :
    ∃ g, (Editing.ofDocument (.object fields)).result fresh = .ok g ∧
      g = { f with startNodeId := g.startNodeId } ∧
      (∀ s, { f with startNodeId := s }.violations = [] →
        g.startNodeId = s ∧ g.violations = []) ∧
      (f.nodes ≠ [] → g.startNodeId ∈ f.nodeIds ∧ (f.roots ≠ [] → g.startNodeId ∈ f.roots) ∧
        ¬ g.Reports .startMismatch) := by
  have hempty : f.startNodeId = "" := startNodeId_of_blank rfl hblank hread
  refine ⟨f.inferStart, ?_, inferStart_eq f, ?_, ?_⟩
  · simp [Editing.ofDocument, hread]
  · intro s hs
    have hstart := startNodeId_inferStart_of_violations hempty hs
    rw [inferStart_eq, hstart]
    exact ⟨rfl, hs⟩
  · intro hne
    obtain ⟨hmem, hroot⟩ := startNodeId_inferStart_mem hempty hne
    exact ⟨hmem, hroot, not_reports_startMismatch_of_inferStart hempty hne⟩

/-- A document that names its last node first, and no start. -/
def backwards : Fields :=
  [("name", .text "Backwards"), ("startNodeId", .null), ("nodes", .list [
    .object [("id", .text "mail"), ("type", .text "EMAIL"),
      ("data", .object [("subject", .text "Hello")])],
    .object [("id", .text "wait"), ("type", .text "DELAY"), ("nextNodeId", .text "mail")]])]

def backwardsRead : Funnel :=
  { id := "fresh", name := "Backwards", trigger := .leadSubscribed, isActive := false
    startNodeId := ""
    nodes := [⟨"mail", none, none, .email "Hello" "" none⟩,
      ⟨"wait", none, none, .delay 24 (some "mail")⟩]
    createdAt := none, updatedAt := none }

theorem backwards_start_is_inferred :
    (backwards.get "startNodeId").isFilled = false ∧
    (ofDocument (.object backwards) .null).result "fresh" = .ok backwardsRead ∧
    { backwardsRead with startNodeId := "wait" }.violations = [] ∧
    ∃ g, (Editing.ofDocument (.object backwards)).result "fresh" = .ok g ∧
      g.startNodeId = "wait" ∧ g.violations = [] ∧ ¬ g.Reports .startMismatch := by
  have hblank : (backwards.get "startNodeId").isFilled = false := by rfl
  have hread : (ofDocument (.object backwards) .null).result "fresh" = .ok backwardsRead := by rfl
  have hacyclic : { backwardsRead with startNodeId := "wait" }.Acyclic :=
    acyclic_of_rank ["wait", "mail"].idxOf (by decide)
  have hvalid : { backwardsRead with startNodeId := "wait" }.violations = [] :=
    hacyclic.violations_eq_nil (by decide) (by decide) (by decide) (by decide) (by decide)
  obtain ⟨g, hg, _, hstart, hnodes⟩ :=
    open_start_is_inferred backwards "fresh" backwardsRead hblank hread
  obtain ⟨_, _, hmismatch⟩ := hnodes (by decide)
  exact ⟨hblank, hread, hvalid, g, hg, (hstart "wait" hvalid).1, (hstart "wait" hvalid).2, hmismatch⟩

end FunnelFlow.Funnel
