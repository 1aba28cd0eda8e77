import FunnelFlow.Service.Editing
import FunnelFlow.Proofs.Funnel.Document

namespace FunnelFlow

theorem Double.same_self (x : Double) : x.same x = true := by simp [same]

namespace Position

def IsPoint (p : Position) : Prop := p.x ≠ some .nan ∧ p.y ≠ some .nan

/-- A coordinate is written as it is, so that even one that is no number is the same when it is read
back. -/
theorem same_reread (p : Position) : p.reread.same p = true := by
  have hsame : p.reread.same p =
      ((number p.x).same (number p.x) && (number p.y).same (number p.y)) := rfl
  rw [hsame, Double.same_self, Double.same_self]
  rfl

end Position

namespace Action

theorem rereadReference_eq_self_iff (target : Option String) :
    rereadReference target = target ↔ target ≠ some "" := by
  refine ⟨?_, rereadReference_of_ne⟩
  rintro h rfl
  simp [rereadReference, Option.filter] at h

theorem reread_eq_self_iff (a : Action) :
    a.reread = a ↔ ∀ e ∈ a.edges, e.target ≠ some "" := by
  cases a <;> simp [reread, edges, rereadReference_eq_self_iff]

end Action

namespace Node

theorem same_reread_iff (n : Node) :
    n.reread.same n = true ↔ ∀ e ∈ n.edges, e.target ≠ some "" := by
  have haction : (n.action.reread == n.action) = true ↔ ∀ e ∈ n.edges, e.target ≠ some "" := by
    rw [beq_iff_eq, Action.reread_eq_self_iff]
    rfl
  rw [← haction]
  obtain ⟨id, position, label, a⟩ := n
  cases position with
  | none => simp [same, reread]
  | some p => simp [same, reread, Position.same_reread]

end Node

theorem Coerce.text_ne_empty {v : Value} {s : String} (hfilled : v.isFilled = true)
    (h : Coerce.text v = .ok s) : s ≠ "" := by
  rintro rfl
  cases v with
  | text s =>
    obtain rfl : s = "" := by simpa [text] using h
    simp [Value.isFilled] at hfilled
  | _ => simp [text, Checked.fail] at h

namespace Funnel

def HasPoints (f : Funnel) : Prop := ∀ n ∈ f.nodes, ∀ p ∈ n.position, p.IsPoint

theorem sameNodes_reread_iff (nodes : List Node) :
    sameNodes (nodes.map Node.reread) nodes = true ↔
      ∀ n ∈ nodes, ∀ e ∈ n.edges, e.target ≠ some "" := by
  induction nodes with
  | nil => simp [sameNodes]
  | cons n nodes ih =>
    rw [List.map_cons, sameNodes, Bool.and_eq_true, Node.same_reread_iff, ih, List.forall_mem_cons]

theorem same_reread_iff {fresh : String} (hfresh : fresh ≠ "") (f : Funnel) :
    (f.reread fresh).same f = true ↔ f.id ≠ "" ∧ f.HasNoEmptyReference := by
  have hid : (f.reread fresh).id = f.id ↔ f.id ≠ "" := by
    by_cases h : f.id = ""
    · simp [reread, h, hfresh]
    · simp [reread, h]
  have hsame : (f.reread fresh).same f = true ↔
      (f.reread fresh).id = f.id ∧ sameNodes (f.nodes.map Node.reread) f.nodes = true := by
    simp [same, reread]
  rw [hsame, hid, sameNodes_reread_iff]
  exact Iff.rfl

def plotted (f : Funnel) : Funnel :=
  { f with nodes := f.nodes.map fun n => { n with position := n.position.map Position.reread } }

theorem reread_eq_plotted {f : Funnel} (hid : f.id ≠ "") (h : f.HasNoEmptyReference)
    (fresh : String) : f.reread fresh = f.plotted := by
  have hnodes : f.nodes.map Node.reread =
      f.nodes.map fun n => { n with position := n.position.map Position.reread } :=
    List.map_congr_left fun n hn => by rw [Node.reread, Action.reread_eq (h n hn)]
  rw [reread, if_neg hid, hnodes, plotted]

theorem same_plotted {f : Funnel} (hid : f.id ≠ "") (h : f.HasNoEmptyReference) :
    f.plotted.same f = true := by
  rw [← reread_eq_plotted hid h "fresh"]
  exact (same_reread_iff (by decide) f).mpr ⟨hid, h⟩

section InferStart

theorem inferStart_eq (f : Funnel) :
    f.inferStart = { f with startNodeId := f.inferStart.startNodeId } := by
  unfold inferStart
  split <;> rfl

/-- The start is inferred from the ids and references of the nodes alone. -/
theorem startNodeId_inferStart_congr {f g : Funnel} (h : f.skeleton = g.skeleton) :
    f.inferStart.startNodeId = g.inferStart.startNodeId := by
  have hskeleton (f : Funnel) : f.inferStart.startNodeId = f.skeleton.inferStart.startNodeId := by
    have hroots := f.skeleton_roots
    obtain ⟨id, name, trigger, isActive, start, nodes, createdAt, updatedAt⟩ := f
    by_cases hstart : start = ""
    · subst hstart
      cases nodes with
      | nil => rfl
      | cons first rest => exact (congrArg (·.headD first.id) hroots).symm
    · simp [inferStart, skeleton, hstart]
  rw [hskeleton f, hskeleton g, h]

theorem startNodeId_inferStart_of_ne {f : Funnel} (h : f.startNodeId ≠ "") :
    f.inferStart.startNodeId = f.startNodeId := by
  unfold inferStart
  split
  · next hstart _ => exact absurd hstart h
  · rfl

theorem inferStart_inferStart (f : Funnel) : f.inferStart.inferStart = f.inferStart := by
  by_cases h : f.inferStart.startNodeId = ""
  · -- the id that was inferred is itself empty, so that it is inferred once more
    obtain ⟨id, name, trigger, isActive, start, nodes, createdAt, updatedAt⟩ := f
    by_cases hstart : start = ""
    · subst hstart
      cases nodes with
      | nil => rfl
      | cons first rest =>
        have hsame : inferStart ⟨id, name, trigger, isActive, "", first :: rest, createdAt,
            updatedAt⟩ = ⟨id, name, trigger, isActive, "", first :: rest, createdAt, updatedAt⟩ := by
          rw [inferStart_eq, h]
        rw [hsame, hsame]
    · rw [startNodeId_inferStart_of_ne (by exact hstart)] at h
      exact absurd h hstart
  · rw [inferStart_eq f.inferStart, startNodeId_inferStart_of_ne h]

end InferStart

theorem id_ne_of_ofDocument {document given : Value} {fresh : String} (hfresh : fresh ≠ "")
    {f : Funnel} (h : (ofDocument document given).result fresh = .ok f) : f.id ≠ "" := by
  obtain ⟨_, _, id, _, _, hread⟩ := exists_readFields h
  have hid := (of_readFields hread).1
  by_cases hfilled : id.isFilled = true
  · rw [if_pos hfilled] at hid
    exact Coerce.text_ne_empty hfilled hid
  · rw [if_neg hfilled] at hid
    obtain rfl : fresh = f.id := by simpa using hid
    exact hfresh

/-- What an editor sends has an id, and no empty references. -/
theorem readable_of_ofDocument {document : Value} {fresh : String} (hfresh : fresh ≠ "")
    {f : Funnel} (h : (Editing.ofDocument document).result fresh = .ok f) :
    f.id ≠ "" ∧ f.HasNoEmptyReference ∧ f.inferStart = f := by
  dsimp only [Editing.ofDocument] at h
  split at h
  · next g hg =>
    obtain rfl : g.inferStart = f := by simpa using h
    have hid := id_ne_of_ofDocument hfresh hg
    have hreferences := hasNoEmptyReference_of_ofDocument hg
    refine ⟨?_, ?_, inferStart_inferStart g⟩ <;> rw [inferStart_eq]
    · exact hid
    · exact hreferences
  · cases h

theorem inferStart_plotted {f : Funnel} (hid : f.id ≠ "") (h : f.HasNoEmptyReference)
    (hstart : f.inferStart = f) : f.plotted.inferStart = f.plotted := by
  have hskeleton : f.plotted.skeleton = f.skeleton := by
    rw [← reread_eq_plotted hid h "", skeleton_reread h]
  have hsame : f.plotted.inferStart.startNodeId = f.startNodeId :=
    (startNodeId_inferStart_congr hskeleton).trans (congrArg startNodeId hstart)
  rw [inferStart_eq, hsame]
  rfl

theorem ofDocument_of_inferStart {f : Funnel} (hid : f.id ≠ "") (h : f.HasNoEmptyReference)
    (hstart : f.inferStart = f) (fresh : String) :
    (Editing.ofDocument (.object f.toDocument)).result fresh = .ok f.plotted := by
  dsimp only [Editing.ofDocument]
  rw [ofDocument_toDocument, reread_eq_plotted hid h]
  exact congrArg Except.ok (inferStart_plotted hid h hstart)

/-- Every funnel is read back from its document, and as the same funnel exactly if it has an id and no
empty references. What was read from any editor's document has an id and none, so that it is read
back as it was read, up to how its coordinates are written. -/
theorem readsBack_from_document (f : Funnel) :
    (∀ fresh, fresh ≠ "" → ∃ g, (ofDocument (.object f.toDocument) .null).result fresh = .ok g ∧
      (g.same f = true ↔ f.id ≠ "" ∧ f.HasNoEmptyReference)) ∧
    ∀ document fresh, fresh ≠ "" → (Editing.ofDocument document).result fresh = .ok f →
      f.id ≠ "" ∧ f.HasNoEmptyReference ∧
      ∀ fresh', (Editing.ofDocument (.object f.toDocument)).result fresh' = .ok f.plotted ∧
        f.plotted.same f = true := by
  constructor
  · intro fresh hfresh
    exact ⟨f.reread fresh, ofDocument_toDocument f fresh, same_reread_iff hfresh f⟩
  · intro document fresh hfresh hread
    obtain ⟨hid, hreferences, hstart⟩ := readable_of_ofDocument hfresh hread
    refine ⟨hid, hreferences, fun fresh' => ⟨?_, same_plotted hid hreferences⟩⟩
    exact ofDocument_of_inferStart hid hreferences hstart fresh'

/-- A document without an id and a start, with a number for an id and an empty reference. -/
def sketch : Value :=
  .object [("nodes", .list [
    .object [("id", .int 7), ("type", .text "DELAY"), ("nextNodeId", .text "mail")],
    .object [("id", .text "mail"), ("type", .text "EMAIL"), ("nextNodeId", .text ""),
      ("position", .object [("x", .int 1)])]])]

def sketched : Funnel :=
  { id := "fresh", name := "New Funnel", trigger := .leadSubscribed, isActive := false
    startNodeId := "7"
    nodes := [⟨"7", none, none, .delay 24 (some "mail")⟩,
      ⟨"mail", some ⟨Double.ofInt? 1, none⟩, none, .email "" "" none⟩]
    createdAt := none, updatedAt := none }

theorem sketch_readsBack :
    (Editing.ofDocument sketch).result "fresh" = .ok sketched ∧
    (∃ g, (ofDocument (.object sketched.toDocument) .null).result "fresh" = .ok g ∧
      (g.same sketched = true ↔ sketched.id ≠ "" ∧ sketched.HasNoEmptyReference)) ∧
    sketched.id ≠ "" ∧ sketched.HasNoEmptyReference ∧
    ∀ fresh', (Editing.ofDocument (.object sketched.toDocument)).result fresh' =
      .ok sketched.plotted ∧ sketched.plotted.same sketched = true := by
  have hread : (Editing.ofDocument sketch).result "fresh" = .ok sketched := by rfl
  have hback := readsBack_from_document sketched
  exact ⟨hread, hback.1 "fresh" (by decide), hback.2 sketch "fresh" (by decide) hread⟩

/-- A funnel with one node, which is drawn nowhere that could be measured. -/
def offTheMap : Funnel :=
  { id := "f", name := "f", trigger := .leadSubscribed, isActive := false, startNodeId := "mail"
    nodes := [⟨"mail", some ⟨some .nan, none⟩, none, .email "" "" none⟩]
    createdAt := none, updatedAt := none }

theorem not_only_points_read_back : ¬ ∀ (f g : Funnel) (fresh : String), fresh ≠ "" →
    (ofDocument (.object f.toDocument) .null).result fresh = .ok g →
    (g.same f = true ↔ f.id ≠ "" ∧ f.HasNoEmptyReference ∧ f.HasPoints) := by
  intro h
  have hfresh : "fresh" ≠ "" := by decide
  have hreferences : offTheMap.HasNoEmptyReference := by
    intro n hn e he
    obtain rfl := List.mem_singleton.mp hn
    obtain rfl := List.mem_singleton.mp he
    exact nofun
  have hback := (same_reread_iff hfresh offTheMap).mpr ⟨by decide, hreferences⟩
  have hpoints := ((h offTheMap _ "fresh" hfresh (ofDocument_toDocument _ _)).mp hback).2.2
  exact (hpoints _ List.mem_cons_self _ rfl).1 rfl

end Funnel

end FunnelFlow
