import FunnelFlow.Funnel.Document
import FunnelFlow.Proofs.Funnel.Reachability
import FunnelFlow.Proofs.Funnel.Skeleton
import FunnelFlow.Proofs.Table
import FunnelFlow.Proofs.Value.Checked

namespace FunnelFlow

def Position.reread (p : Position) : Position := ⟨some (number p.x), some (number p.y)⟩

namespace Action

/-- A reference as it is read back: an empty one is open. -/
def rereadReference (target : Option String) : Option String := target.filter (· ≠ "")

def reread : Action → Action
  | .email subject content next => .email subject content (rereadReference next)
  | .whatsApp templateId templateTitle sendTime next =>
    .whatsApp templateId templateTitle sendTime (rereadReference next)
  | .delay hours next => .delay hours (rereadReference next)
  | .condition test whenTrue whenFalse =>
    .condition test (rereadReference whenTrue) (rereadReference whenFalse)

theorem rereadReference_of_ne {target : Option String} (h : target ≠ some "") :
    rereadReference target = target := by
  cases target with
  | none => rfl
  | some s =>
    have hs : s ≠ "" := fun hs => h (by rw [hs])
    simp [rereadReference, Option.filter, hs]

theorem reread_eq {a : Action} (h : ∀ e ∈ a.edges, e.target ≠ some "") : a.reread = a := by
  cases a <;> simp_all [reread, edges, rereadReference_of_ne]

theorem edges_reread (a : Action) :
    a.reread.edges = a.edges.map fun e => { e with target := rereadReference e.target } := by
  cases a <;> rfl

theorem exists_reference_of_read {kind : NodeKind} {fields : Fields} {a : Action}
    (h : read kind fields = .ok a) :
    ∀ e ∈ a.edges, ∃ key ∈ kind.referenceKeys, reference fields key = .ok e.target := by
  cases kind with
  | email =>
    obtain ⟨g₁, next, h₁, hnext, rfl⟩ := Checked.seq_eq_ok_iff.mp h
    obtain ⟨g₂, _, h₂, _, rfl⟩ := Checked.seq_eq_ok_iff.mp h₁
    obtain ⟨_, _, rfl⟩ := Checked.map_eq_ok_iff.mp h₂
    simpa [edges, NodeKind.referenceKeys] using hnext
  | whatsApp =>
    obtain ⟨g₁, next, h₁, hnext, rfl⟩ := Checked.seq_eq_ok_iff.mp h
    obtain ⟨g₂, _, h₂, _, rfl⟩ := Checked.seq_eq_ok_iff.mp h₁
    obtain ⟨g₃, _, h₃, _, rfl⟩ := Checked.seq_eq_ok_iff.mp h₂
    obtain ⟨_, _, rfl⟩ := Checked.map_eq_ok_iff.mp h₃
    simpa [edges, NodeKind.referenceKeys] using hnext
  | delay =>
    obtain ⟨g₁, next, h₁, hnext, rfl⟩ := Checked.seq_eq_ok_iff.mp h
    obtain ⟨_, _, rfl⟩ := Checked.map_eq_ok_iff.mp h₁
    simpa [edges, NodeKind.referenceKeys] using hnext
  | condition =>
    obtain ⟨g₁, whenFalse, h₁, hfalse, rfl⟩ := Checked.seq_eq_ok_iff.mp h
    obtain ⟨g₂, whenTrue, h₂, htrue, rfl⟩ := Checked.seq_eq_ok_iff.mp h₁
    obtain ⟨_, _, rfl⟩ := Checked.map_eq_ok_iff.mp h₂
    simp [edges, NodeKind.referenceKeys, htrue, hfalse]

end Action

def Node.reread (n : Node) : Node :=
  { n with position := n.position.map Position.reread, action := n.action.reread }

def Funnel.reread (f : Funnel) (fresh : String) : Funnel :=
  { f with id := if f.id = "" then fresh else f.id, nodes := f.nodes.map Node.reread }

theorem Position.read_toValue (p : Position) :
    Coerce.record Position.read p.toValue = .ok p.reread := by
  have hcoordinate (c : Option Double) : Coerce.double (coordinate c) = .ok (number c) := by
    cases c <;> rfl
  simp [Coerce.record, toValue, read, Coerce.withDefault, Table.get?, hcoordinate, Checked.map,
    reread]

namespace Node

def labelFields (label : Option String) : Fields :=
  (label.map fun label => ("label", Value.text label)).toList

theorem readPosition_toValue (position : Option Position) :
    readPosition (.ofOption Position.toValue position) = .ok (position.map Position.reread) := by
  cases position with
  | none => rfl
  | some p =>
    rw [Value.ofOption, readPosition, Position.read_toValue]
    · rfl
    · simp [Position.toValue]

theorem kindOf_name (kind : NodeKind) : kindOf (.text kind.name) = .ok kind := by
  cases kind <;> rfl

theorem recognised_data (a : Action) (label : Option String) :
    recognised a.kind ((a.parts.map fun (field, v) => (dataKey a.kind field, v)) ++
      labelFields label) = a.parts ++ labelFields label := by
  cases a <;> cases label <;> rfl

theorem ofText?_rereadReference (target : Option String) :
    (if (Value.ofText? target).isFilled then Value.ofText? target else .null) =
      Value.ofText? (Action.rereadReference target) := by
  cases target with
  | none => rfl
  | some s =>
    by_cases hs : s = "" <;>
      simp [Value.ofText?, Value.ofOption, Value.isFilled, Action.rereadReference, Option.filter, hs]

theorem recognisedReferences_of_get {a : Action} {doc : Fields}
    (h : ∀ key ∈ a.kind.referenceKeys, doc.get key = a.references.get key) :
    recognisedReferences a.kind doc = a.reread.references := by
  have hmap : recognisedReferences a.kind doc = a.kind.referenceKeys.map fun key =>
      (key, if (a.references.get key).isFilled then a.references.get key else .null) :=
    List.map_congr_left fun key hkey => by rw [h key hkey]
  rw [hmap]
  cases a <;>
    simp [Action.kind, NodeKind.referenceKeys, Action.references, Action.reread, Fields.get,
      Table.get?, ofText?_rereadReference]

theorem readFields_parts (id : String) (label : Option String) (position : Option Position)
    (a : Action) :
    readFields a.kind (("id", .text id) :: (a.parts ++ labelFields label) ++ a.references)
      (.ok position) = .ok ⟨id, position, label, a⟩ := by
  cases a with
  | email subject content next => cases label <;> cases next <;> rfl
  | whatsApp templateId templateTitle sendTime next => cases label <;> cases next <;> rfl
  | delay hours next => cases label <;> cases next <;> rfl
  | condition test whenTrue whenFalse =>
    cases label <;> cases whenTrue <;> cases whenFalse <;> rfl

/-- The data of a node; what is not filled in stands for none. -/
def dataOf (doc : Fields) : Except Fault Fields :=
  if (doc.get "data").isFilled then (doc.get "data").fields? else .ok []

def assemble (doc : Fields) (kind : NodeKind) (data : Fields) : Except Fault Node := do
  let position ← readPosition (doc.get "position")
  let fields := ("id", doc.get "id") :: recognised kind data ++ recognisedReferences kind doc
  match readFields kind fields (.ok position) with
  | .ok node => .ok node
  | .bad issues => .error (.ofIssues issues)

theorem ofDocument_eq_assemble (doc : Fields) : ofDocument (.object doc) =
    kindOf (doc.get "type") >>= fun kind => dataOf doc >>= assemble doc kind := by
  change (kindOf (doc.get "type") >>= fun kind => _) = _
  congr 1
  funext kind
  unfold dataOf
  split <;> rfl

theorem ofDocument_object {doc data : Fields} {kind : NodeKind} {position : Option Position}
    (hkind : kindOf (doc.get "type") = .ok kind) (hdata : doc.get "data" = .object data)
    (hfilled : (Value.object data).isFilled = true)
    (hposition : readPosition (doc.get "position") = .ok position) {n : Node}
    (hn : readFields kind (("id", doc.get "id") :: recognised kind data ++
      recognisedReferences kind doc) (.ok position) = .ok n) :
    ofDocument (.object doc) = .ok n := by
  simp only [ofDocument, Value.fields?, bind, Except.bind, hkind, hdata, hfilled, if_true,
    hposition, hn]

theorem ofDocument_toDocument (n : Node) : ofDocument n.toDocument = .ok n.reread := by
  obtain ⟨id, position, label, a⟩ := n
  let data : Fields := (a.parts.map fun (field, v) => (dataKey a.kind field, v)) ++ labelFields label
  let doc : Fields := [
    ("id", .text id), ("type", .text a.kind.name),
    ("position", .ofOption Position.toValue position), ("data", .object data),
    ("nextNodeId", a.references.get "nextNodeId"), ("trueNodeId", a.references.get "trueNodeId"),
    ("falseNodeId", a.references.get "falseNodeId")]
  have hfilled : (Value.object data).isFilled = true := by cases a <;> rfl
  have hkeys : ∀ key ∈ a.kind.referenceKeys, doc.get key = a.references.get key := by
    intro key hkey
    have hkey : key = "nextNodeId" ∨ key = "trueNodeId" ∨ key = "falseNodeId" := by
      cases a <;> simp_all [Action.kind, NodeKind.referenceKeys]
    rcases hkey with rfl | rfl | rfl <;> rfl
  have hkind : a.reread.kind = a.kind := by cases a <;> rfl
  have hparts : a.reread.parts = a.parts := by cases a <;> rfl
  have hdata : doc.get "data" = .object data := rfl
  have htype : kindOf (doc.get "type") = .ok a.kind := kindOf_name a.kind
  apply ofDocument_object htype hdata hfilled (readPosition_toValue position)
  have hread := readFields_parts id label (position.map Position.reread) a.reread
  rw [hkind, hparts, ← recognised_data, ← recognisedReferences_of_get hkeys] at hread
  exact hread

theorem get?_recognised {kind : NodeKind} {key : String} (hkey : key ∈ kind.referenceKeys)
    (v : Value) (data rest : Fields) :
    Table.get? (("id", v) :: recognised kind data ++ rest) key = Table.get? rest key := by
  have hfree : ∀ key ∈ kind.referenceKeys,
      key ∉ "id" :: (kind.dataKeys ++ [("label", "label")]).map (·.1) := by
    cases kind <;> decide
  refine Table.get?_append_of_ne fun e he => ?_
  rintro rfl
  refine hfree _ hkey (List.mem_cons.mpr ?_)
  apply (List.mem_cons.mp he).imp (congrArg Prod.fst)
  intro he
  obtain ⟨field, hfield, he⟩ := List.mem_filterMap.mp he
  refine List.mem_map.mpr ⟨field, hfield, ?_⟩
  dsimp only at he
  split at he <;> cases he
  rfl

theorem action_of_readFields {kind : NodeKind} {fields : Fields}
    {position : Checked (Option Position)} {n : Node}
    (h : readFields kind fields position = .ok n) : Action.read kind fields = .ok n.action := by
  obtain ⟨g₁, a, h₁, ha, rfl⟩ := Checked.seq_eq_ok_iff.mp h
  obtain ⟨g₂, _, h₂, _, rfl⟩ := Checked.seq_eq_ok_iff.mp h₁
  obtain ⟨g₃, _, h₃, _, rfl⟩ := Checked.seq_eq_ok_iff.mp h₂
  obtain ⟨g₄, _, h₄, _, rfl⟩ := Checked.seq_eq_ok_iff.mp h₃
  obtain ⟨_, _, rfl⟩ := Checked.map_eq_ok_iff.mp h₄
  exact ha

theorem reference_ne {kind : NodeKind} {data doc : Fields} {v : Value} {key : String}
    (hkey : key ∈ kind.referenceKeys) {target : Option String}
    (h : Action.reference (("id", v) :: recognised kind data ++ recognisedReferences kind doc) key =
      .ok target) : target ≠ some "" := by
  have hget := get?_recognised hkey v data (recognisedReferences kind doc)
  have hrefs := Table.get?_map_of_mem
    (fun key => if (doc.get key).isFilled then doc.get key else .null) hkey
  rw [Action.reference, Coerce.withDefault, hget, recognisedReferences, hrefs] at h
  exact Coerce.optional_filled_ne_empty (Checked.within_eq_ok_iff.mp h)

theorem exists_readFields {document : Value} {n : Node} (h : ofDocument document = .ok n) :
    ∃ (kind : NodeKind) (data doc : Fields) (position : Option Position),
      readFields kind (("id", doc.get "id") :: recognised kind data ++ recognisedReferences kind doc)
        (.ok position) = .ok n := by
  obtain ⟨doc, _, h⟩ := except_bind_eq_ok_iff.mp h
  obtain ⟨kind, _, h⟩ := except_bind_eq_ok_iff.mp h
  dsimp only at h
  split at h <;>
  · obtain ⟨data, _, h⟩ := except_bind_eq_ok_iff.mp h
    obtain ⟨position, _, h⟩ := except_bind_eq_ok_iff.mp h
    refine ⟨kind, data, doc, position, ?_⟩
    split at h <;> cases h
    assumption

theorem target_ne_of_ofDocument {document : Value} {n : Node} (h : ofDocument document = .ok n) :
    ∀ e ∈ n.edges, e.target ≠ some "" := by
  obtain ⟨kind, data, doc, position, h⟩ := exists_readFields h
  intro e he
  obtain ⟨key, hkey, htarget⟩ := Action.exists_reference_of_read (action_of_readFields h) e he
  exact reference_ne hkey htarget

theorem targets_reread_subset (n : Node) : n.reread.targets ⊆ n.targets := by
  intro b hb
  obtain ⟨e', he', hb⟩ := List.mem_filterMap.mp hb
  rw [edges, reread, Action.edges_reread] at he'
  obtain ⟨e, he, rfl⟩ := List.mem_map.mp he'
  exact List.mem_filterMap.mpr ⟨e, he, (Option.filter_eq_some_iff.mp hb).1⟩

end Node

namespace Funnel

def HasNoEmptyReference (f : Funnel) : Prop :=
  ∀ n ∈ f.nodes, ∀ e ∈ n.edges, e.target ≠ some ""

theorem skeleton_reread {f : Funnel} (h : f.HasNoEmptyReference) (fresh : String) :
    (f.reread fresh).skeleton = f.skeleton := by
  have hnodes : f.nodes.map (fun n => n.reread.skeleton) = f.nodes.map Node.skeleton :=
    List.map_congr_left fun n hn => by
      simp only [Node.reread, Node.skeleton, Action.reread_eq (h n hn)]
  simp only [skeleton, reread, List.map_map]
  rw [← hnodes]
  rfl

theorem node?_reread (f : Funnel) (fresh id : String) :
    (f.reread fresh).node? id = (f.node? id).map Node.reread := by
  simp only [node?, reread, List.find?_map]
  rfl

theorem Points.of_reread {f : Funnel} {fresh a b : String} (h : (f.reread fresh).Points a b) :
    f.Points a b := by
  obtain ⟨_, hfound, hb⟩ := h
  rw [node?_reread] at hfound
  obtain ⟨n, hn, rfl⟩ := Option.map_eq_some_iff.mp hfound
  exact ⟨n, hn, Node.targets_reread_subset n hb⟩

theorem HasNoEmptyReference.congr {f g : Funnel} (hf : f.HasNoEmptyReference)
    (h : f.skeleton = g.skeleton) : g.HasNoEmptyReference := by
  have hnodes : f.nodes.map Node.skeleton = g.nodes.map Node.skeleton := congrArg Funnel.nodes h
  intro n hn
  obtain ⟨m, hm, hmn⟩ := List.mem_map.mp (hnodes ▸ List.mem_map_of_mem hn)
  have hedges : m.edges = n.edges := congrArg (fun n => n.action.edges) hmn
  rw [← hedges]
  exact hf m hm

theorem readNodes_toDocument (nodes : List Node) :
    readNodes (.list (nodes.map Node.toDocument)) = .ok (nodes.map Node.reread) := by
  have hmap (nodes : List Node) :
      (nodes.map Node.toDocument).mapM Node.ofDocument = .ok (nodes.map Node.reread) := by
    induction nodes with
    | nil => rfl
    | cons n nodes ih =>
      rw [List.map_cons, List.mapM_cons, Node.ofDocument_toDocument, ih]
      rfl
  cases nodes with
  | nil => rfl
  | cons n nodes => exact hmap (n :: nodes)

/-- The fields of a written funnel that are recognised: a time only when it is set, and the start
only when it is not blank. -/
theorem recognised_toDocument (f : Funnel) :
    recognised f.toDocument =
      [("name", .text f.name), ("trigger", .text f.trigger.name), ("isActive", .bool f.isActive)] ++
        (if f.startNodeId = "" then [] else [("startNodeId", .text f.startNodeId)]) ++
        (f.createdAt.map fun t => ("created_at", Value.instant t)).toList ++
        (f.updatedAt.map fun t => ("updated_at", Value.instant t)).toList := by
  obtain ⟨id, name, trigger, isActive, start, nodes, createdAt, updatedAt⟩ := f
  by_cases hstart : start = ""
  · subst hstart
    cases createdAt <;> cases updatedAt <;> rfl
  · have hfilled : (Value.text start).isFilled = true := by simp [Value.isFilled, hstart]
    have hget (f : Funnel) : f.toDocument.get "startNodeId" = .text f.startNodeId := rfl
    rw [if_neg hstart, recognised]
    cases createdAt <;> cases updatedAt <;>
      simp only [List.filterMap_cons, hget, hfilled] <;> rfl

theorem readFields_toDocument (f : Funnel) (nodes : List Node) (id : String) :
    readFields (recognised f.toDocument) (.ok nodes) (.ok id) = .ok { f with id, nodes } := by
  obtain ⟨_, name, trigger, isActive, start, _, createdAt, updatedAt⟩ := f
  rw [recognised_toDocument]
  by_cases hstart : start = ""
  · subst hstart
    cases trigger <;> cases createdAt <;> cases updatedAt <;> rfl
  · simp only [hstart, if_false]
    cases trigger <;> cases createdAt <;> cases updatedAt <;> rfl

theorem ofDocument_toDocument (f : Funnel) (fresh : String) :
    (ofDocument (.object f.toDocument) .null).result fresh = .ok (f.reread fresh) := by
  have hnodes : readNodes (f.toDocument.get "nodes") = .ok (f.nodes.map Node.reread) :=
    readNodes_toDocument f.nodes
  have hid : f.toDocument.get "id" = .text f.id := rfl
  simp only [ofDocument, Value.fields?, hnodes, hid, Value.isFilled, Reading.ofChecked]
  by_cases hempty : f.id = ""
  · simp [hempty, readFields_toDocument, reread]
  · simp [hempty, Coerce.text, readFields_toDocument, reread]

theorem of_readFields {fields : Fields} {nodes : Checked (List Node)} {id : Checked String}
    {f : Funnel} (h : readFields fields nodes id = .ok f) :
    id = .ok f.id ∧ nodes = .ok f.nodes ∧
      Coerce.withDefault fields "startNodeId" "" Coerce.text = .ok f.startNodeId := by
  obtain ⟨g₁, _, h₁, _, rfl⟩ := Checked.seq_eq_ok_iff.mp h
  obtain ⟨g₂, _, h₂, _, rfl⟩ := Checked.seq_eq_ok_iff.mp h₁
  obtain ⟨g₃, nodes', h₃, hnodes, rfl⟩ := Checked.seq_eq_ok_iff.mp h₂
  obtain ⟨g₄, start, h₄, hstart, rfl⟩ := Checked.seq_eq_ok_iff.mp h₃
  obtain ⟨g₅, _, h₅, _, rfl⟩ := Checked.seq_eq_ok_iff.mp h₄
  obtain ⟨g₆, _, h₆, _, rfl⟩ := Checked.seq_eq_ok_iff.mp h₅
  obtain ⟨g₇, _, h₇, _, rfl⟩ := Checked.seq_eq_ok_iff.mp h₆
  obtain ⟨id', hid, rfl⟩ := Checked.map_eq_ok_iff.mp h₇
  exact ⟨Checked.within_eq_ok_iff.mp hid, Checked.within_eq_ok_iff.mp hnodes, hstart⟩

def chosenId (given id : Value) : Option (Checked String) :=
  let id := if given.isFilled then given else id
  if id.isFilled then some (Coerce.text id) else none

theorem ofDocument_object (doc : Fields) (given : Value) :
    ofDocument (.object doc) given =
      match readNodes (doc.get "nodes") with
      | .error e => .fail e
      | .ok nodes => .ofChecked (chosenId given (doc.get "id"))
        (readFields (recognised doc) (.ok nodes)) := rfl

theorem chosenId_text {id : String} (hne : id ≠ "") : chosenId .null (.text id) = some (.ok id) := by
  simp [chosenId, Value.isFilled, Coerce.text, hne]

theorem id_of_ofDocument {doc : Fields} {id fresh : String} {f : Funnel}
    (hid : doc.get "id" = .text id) (hne : id ≠ "")
    (h : (ofDocument (.object doc) .null).result fresh = .ok f) : f.id = id := by
  rw [ofDocument_object, hid, chosenId_text hne] at h
  split at h
  · cases h
  · dsimp only [Reading.ofChecked] at h
    split at h
    · next hread =>
      obtain rfl := Except.ok.inj h
      exact (Checked.ok.inj (of_readFields hread).1).symm
    · cases h

theorem needsId_of_text {doc : Fields} {id : String} (hid : doc.get "id" = .text id)
    (hne : id ≠ "") : (ofDocument (.object doc) .null).needsId = false := by
  rw [ofDocument_object, hid, chosenId_text hne]
  split <;> rfl

theorem exists_readFields {document given : Value} {fresh : String} {f : Funnel}
    (h : (ofDocument document given).result fresh = .ok f) :
    ∃ (doc : Fields) (nodes : List Node) (id : Value), document.fields? = .ok doc ∧
      readNodes (doc.get "nodes") = .ok nodes ∧
      readFields (recognised doc) (.ok nodes) (if id.isFilled then Coerce.text id else .ok fresh) =
        .ok f := by
  unfold ofDocument at h
  split at h
  · cases h
  · next doc hdoc =>
    split at h
    · cases h
    · next nodes hnodes =>
      dsimp only [Reading.ofChecked] at h
      generalize (if given.isFilled then given else doc.get "id") = id at h
      refine ⟨doc, nodes, id, hdoc, hnodes, ?_⟩
      split at h <;> cases h
      next hread =>
        rw [← hread]
        by_cases hfilled : id.isFilled = true
        · simp [hfilled]
        · simp [hfilled]

theorem hasNoEmptyReference_of_ofDocument {document given : Value} {fresh : String} {f : Funnel}
    (h : (ofDocument document given).result fresh = .ok f) : f.HasNoEmptyReference := by
  obtain ⟨doc, nodes, _, _, hv, hread⟩ := exists_readFields h
  obtain rfl : nodes = f.nodes := by simpa using (of_readFields hread).2.1
  intro n hn
  unfold readNodes at hv
  split at hv
  · obtain ⟨items, _, hitems⟩ := except_bind_eq_ok_iff.mp hv
    obtain ⟨item, _, hitem⟩ := exists_of_mem_mapM_ok hitems hn
    exact Node.target_ne_of_ofDocument hitem
  · have hnil : f.nodes = [] := by simpa using hv.symm
    simp [hnil] at hn

end Funnel

end FunnelFlow
