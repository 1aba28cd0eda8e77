import FunnelFlow.Proofs.Funnel.Document
import FunnelFlow.Run.Step

namespace FunnelFlow

theorem Action.reread_reread (a : Action) : a.reread.reread = a.reread := by
  have hreference (target : Option String) :
      rereadReference (rereadReference target) = rereadReference target := by
    simp [rereadReference, Option.filter_filter]
  cases a <;> simp only [reread, hreference]

namespace Funnel

variable {f g : Funnel}

/-- The funnel with nothing but its id, and the ids and actions of its nodes. -/
def outline (f : Funnel) : Funnel := { f.skeleton with id := f.id, startNodeId := "" }

theorem outline_eq_iff : f.outline = g.outline ↔
    f.id = g.id ∧ f.nodes.map Node.skeleton = g.nodes.map Node.skeleton := by
  simp [outline, skeleton]

@[simp] theorem outline_id (f : Funnel) : f.outline.id = f.id := rfl

@[simp] theorem outline_node? (f : Funnel) (id : String) :
    f.outline.node? id = (f.node? id).map Node.skeleton := skeleton_node? f id

@[simp] theorem outline_nodes_length (f : Funnel) : f.outline.nodes.length = f.nodes.length :=
  List.length_map _

theorem violations_eq_of_outline (h : f.outline = g.outline)
    (hstart : f.startNodeId = g.startNodeId) : f.violations = g.violations := by
  obtain ⟨-, hnodes⟩ := outline_eq_iff.mp h
  apply violations_congr
  rw [skeleton, skeleton, hstart, hnodes]

theorem outline_reread (h : f.outline = g.outline) (fresh : String) :
    (f.reread fresh).outline = (g.reread fresh).outline := by
  obtain ⟨hid, hnodes⟩ := outline_eq_iff.mp h
  have hreread (f : Funnel) : (f.reread fresh).nodes.map Node.skeleton =
      (f.nodes.map Node.skeleton).map Node.reread := by
    simp only [reread, List.map_map]
    rfl
  rw [outline_eq_iff, hreread f, hreread g, hnodes]
  exact ⟨by simp only [reread, hid], rfl⟩

theorem outline_reread_reread (f : Funnel) (hid : f.id ≠ "") (fresh : String) :
    ((f.reread "").reread fresh).outline = (f.reread fresh).outline := by
  have hnode (n : Node) : n.reread.reread.skeleton = n.reread.skeleton := by
    simp only [Node.reread, Node.skeleton, Action.reread_reread]
  rw [outline_eq_iff]
  simp [reread, hid, hnode]

theorem needsId_toDocument_eq (f : Funnel) :
    (ofDocument (.object f.toDocument) .null).needsId = decide (f.id = "") := by
  have hnodes : readNodes (f.toDocument.get "nodes") = .ok (f.nodes.map Node.reread) :=
    readNodes_toDocument f.nodes
  have hid : f.toDocument.get "id" = .text f.id := rfl
  rw [ofDocument_object, hnodes, hid]
  by_cases hempty : f.id = ""
  · simp [hempty, Reading.ofChecked, chosenId, Value.isFilled]
  · simp [hempty, Reading.ofChecked, chosenId_text hempty]

end Funnel

def Reading.outline (r : Reading Funnel) : Reading Funnel :=
  ⟨r.needsId, fun fresh => (r.result fresh).map Funnel.outline⟩

def Value.outline (document : Value) : Reading Funnel := (Funnel.ofDocument document .null).outline

theorem Funnel.outline_toDocument_of_reread {f g : Funnel} (hid : f.id = g.id)
    (h : ∀ fresh, (f.reread fresh).outline = (g.reread fresh).outline) :
    (Value.object f.toDocument).outline = (Value.object g.toDocument).outline := by
  have hresult (fresh : String) : Except.map outline (.ok (f.reread fresh) : Except Fault Funnel) =
      Except.map outline (.ok (g.reread fresh)) := congrArg Except.ok (h fresh)
  simp only [Value.outline, Reading.outline, needsId_toDocument_eq, ofDocument_toDocument, hid,
    hresult]

theorem Funnel.outline_toDocument {f g : Funnel} (h : f.outline = g.outline) :
    (Value.object f.toDocument).outline = (Value.object g.toDocument).outline :=
  outline_toDocument_of_reread (outline_eq_iff.mp h).1 (outline_reread h)

namespace Run

theorem moveAt_skeleton (r : Run) (funnelId : String) (n : Node) (now : Instant)
    (attributes : Fields) :
    r.moveAt funnelId n.skeleton now attributes = r.moveAt funnelId n now attributes := by
  obtain ⟨id, position, label, action⟩ := n
  cases action <;> rfl

theorem move_outline (r : Run) (f : Funnel) (now : Instant) (attributes : Fields) :
    r.move f.outline now attributes = r.move f now attributes := by
  simp only [move, Funnel.outline_node?, Funnel.outline_id]
  cases f.node? (r.resume now).currentNodeId with
  | none => rfl
  | some n => simp only [Option.map_some, moveAt_skeleton]

end Run

end FunnelFlow
