import FunnelFlow.Proofs.Funnel.Roots

namespace FunnelFlow.Funnel

variable {f : Funnel}

def LeadsForward (f : Funnel) : Prop :=
  ∀ n ∈ f.nodes, ∀ b ∈ n.targets, f.nodeIds.idxOf n.id < f.nodeIds.idxOf b

instance : Decidable f.LeadsForward :=
  inferInstanceAs (Decidable (∀ n ∈ f.nodes, ∀ b ∈ n.targets, _))

theorem LeadsForward.acyclic (h : f.LeadsForward) : f.Acyclic :=
  acyclic_of_rank f.nodeIds.idxOf h

theorem LeadsForward.violations_eq_nil (h : f.LeadsForward) (hnonempty : f.nodes ≠ [])
    (hdistinct : f.nodeIds.Nodup) (hroot : f.rootViolations = [])
    (hdangling : f.danglingViolations = []) (hnodes : ∀ n ∈ f.nodes, n.violations = []) :
    f.violations = [] :=
  h.acyclic.violations_eq_nil hnonempty hdistinct hroot hdangling hnodes

/-- A funnel with nodes of all kinds, two of which lead to the last one. -/
def welcome : Funnel :=
  { id := "welcome", name := "Welcome", trigger := .leadSubscribed, isActive := true
    startNodeId := "hello"
    nodes := [
      { id := "hello", position := none, label := none
        action := .email "Hello" "" (some "opened") },
      { id := "opened", position := none, label := none
        action := .condition ⟨"opened", "equals", "yes"⟩ (some "thanks") (some "pause") },
      { id := "pause", position := none, label := none, action := .delay 24 (some "again") },
      { id := "again", position := none, label := none
        action := .email "Hello again" "" (some "thanks") },
      { id := "thanks", position := none, label := none
        action := .whatsApp "thanks" "" "" none }]
    createdAt := none, updatedAt := none }

theorem welcome_violations : welcome.violations = [] :=
  LeadsForward.violations_eq_nil (by decide) (by decide) (by decide) (by decide) (by decide)
    (by decide)

end FunnelFlow.Funnel
