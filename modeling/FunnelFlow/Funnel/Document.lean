import FunnelFlow.Fault
import FunnelFlow.Funnel.Basic
import FunnelFlow.Value.Coerce
import FunnelFlow.Value.Display

/-!
The written forms of a funnel. The document form is what editors send and stores keep: every node
has the same outer fields, and what belongs to its kind stands under `data`. The record form has
the fields of each kind side by side.

A funnel read from a document without an id gets a fresh one. The readings say whether they take
it, so that a fresh id is used up by a document that is refused later, too.
-/

namespace FunnelFlow

/-- A document on its way to becoming an `α`: whether a fresh id is used up, and what the document
gives with that id. -/
structure Reading (α : Type) where
  needsId : Bool
  result : String → Except Fault α

namespace Reading

variable {α : Type}

def fail (e : Fault) : Reading α := ⟨false, fun _ => .error e⟩

def ofChecked (id? : Option (Checked String)) (read : Checked String → Checked α) : Reading α where
  needsId := id?.isNone
  result fresh :=
    match read (id?.getD (.ok fresh)) with
    | .ok a => .ok a
    | .bad issues => .error (.ofIssues issues)

end Reading

namespace Value

def fields? (v : Value) : Except Fault Fields :=
  match v with
  | .object fields => .ok fields
  | v => .error (.noSuchPart v.kindName "get")

def elements : Value → Except Fault (List Value)
  | .list items => .ok items
  | .text s => .ok (s.toList.map fun c => .text (String.singleton c))
  | .object fields => .ok (fields.map fun kv => .text kv.1)
  | v => .error (.notIterable v.kindName)

end Value

namespace Position

def read (fields : Fields) : Checked Position :=
  Position.mk <$> Coerce.withDefault fields "x" none (fun v => (Coerce.double v).map some)
    <*> Coerce.withDefault fields "y" none (fun v => (Coerce.double v).map some)

def coordinate : Option Double → Value
  | some x => .float x
  | none => .int 0

def toValue (p : Position) : Value := .object [("x", coordinate p.x), ("y", coordinate p.y)]

end Position

namespace NodeKind

def dataKeys : NodeKind → List (String × String)
  | .email => [("subject", "subject"), ("content", "content")]
  | .whatsApp =>
    [("templateId", "waTemplateId"), ("templateTitle", "waTemplateTitle"), ("sendTime", "sendTime")]
  | .delay => [("hours", "hours")]
  | .condition =>
    [("target", "conditionTarget"), ("operator", "conditionOperator"), ("value", "conditionValue")]

def referenceKeys : NodeKind → List String
  | .condition => ["trueNodeId", "falseNodeId"]
  | _ => ["nextNodeId"]

def ofTag? (v : Value) : Option NodeKind :=
  match v with
  | .text s => ofName? s
  | _ => none

end NodeKind

namespace Action

def reference (fields : Fields) (key : String) : Checked (Option String) :=
  Coerce.withDefault fields key none (Coerce.optional Coerce.textOrNumber)

def part (fields : Fields) (key : String) : Checked String :=
  Coerce.withDefault fields key "" Coerce.textOrNumber

def read (kind : NodeKind) (fields : Fields) : Checked Action :=
  match kind with
  | .email => .email <$> part fields "subject" <*> part fields "content"
      <*> reference fields "nextNodeId"
  | .whatsApp => .whatsApp <$> part fields "templateId" <*> part fields "templateTitle"
      <*> part fields "sendTime" <*> reference fields "nextNodeId"
  | .delay => .delay <$> Coerce.withDefault fields "hours" 24 Coerce.integer
      <*> reference fields "nextNodeId"
  | .condition => .condition
      <$> (Test.mk <$> part fields "target" <*> part fields "operator" <*> part fields "value")
      <*> reference fields "trueNodeId" <*> reference fields "falseNodeId"

def parts : Action → Fields
  | .email subject content _ => [("subject", .text subject), ("content", .text content)]
  | .whatsApp templateId templateTitle sendTime _ =>
    [("templateId", .text templateId), ("templateTitle", .text templateTitle),
      ("sendTime", .text sendTime)]
  | .delay hours _ => [("hours", .int hours)]
  | .condition test _ _ =>
    [("target", .text test.target), ("operator", .text test.operator), ("value", .text test.value)]

def references : Action → Fields
  | .email _ _ next | .whatsApp _ _ _ next | .delay _ next => [("nextNodeId", .ofText? next)]
  | .condition _ whenTrue whenFalse =>
    [("trueNodeId", .ofText? whenTrue), ("falseNodeId", .ofText? whenFalse)]

end Action

namespace Node

def readFields (kind : NodeKind) (fields : Fields) (position : Checked (Option Position)) :
    Checked Node :=
  (fun id position label _ action => ⟨id, position, label, action⟩)
    <$> Coerce.required fields "id" Coerce.textOrNumber
    <*> position.within (.key "position")
    <*> Coerce.withDefault fields "label" none (Coerce.optional Coerce.textOrNumber)
    <*> Coerce.withDefault fields "type" () (fun v =>
      if NodeKind.ofTag? v = some kind then .ok () else .fail .tagExpected)
    <*> Action.read kind fields

def readRecord (kind : NodeKind) (fields : Fields) : Checked Node :=
  readFields kind fields <| match fields.get? "position" with
    | some v => Coerce.optional (Coerce.record Position.read) v
    | none => .ok none

/-- Reads a node in its record form; the field `type` tells its kind. -/
def readTagged : Value → Checked Node
  | .object fields =>
    match Table.get? fields "type" with
    | none => .fail .variantTagMissing
    | some tag =>
      match NodeKind.ofTag? tag with
      | some kind => (readRecord kind fields).within (.key kind.name)
      | none => .fail .variantTagUnknown
  | _ => .fail .variantExpected

def kindOf (tag : Value) : Except Fault NodeKind :=
  match tag with
  | .list _ | .object _ => .error (.notComparable tag.kindName)
  | tag => match NodeKind.ofTag? tag with
    | some kind => .ok kind
    | none => tag.shown.bind fun shown => .error (.unknownNodeType shown)

def recognised (kind : NodeKind) (data : Fields) : Fields :=
  (kind.dataKeys ++ [("label", "label")]).filterMap fun (field, key) =>
    let v := data.get key
    if v.isNull then none else some (field, v)

/-- The references of a document's node; an empty one is open. -/
def recognisedReferences (kind : NodeKind) (doc : Fields) : Fields :=
  kind.referenceKeys.map fun key =>
    let v := doc.get key
    (key, if v.isFilled then v else .null)

def readPosition (v : Value) : Except Fault (Option Position) :=
  match v with
  | .null => .ok none
  | v => match Coerce.record Position.read v with
    | .ok p => .ok (some p)
    | .bad issues => .error (.malformed issues)

def ofDocument (document : Value) : Except Fault Node := do
  let doc ← document.fields?
  let kind ← kindOf (doc.get "type")
  let data ← if (doc.get "data").isFilled then (doc.get "data").fields? else pure []
  let position ← readPosition (doc.get "position")
  let fields := ("id", doc.get "id") :: recognised kind data ++ recognisedReferences kind doc
  match readFields kind fields (.ok position) with
  | .ok node => .ok node
  | .bad issues => .error (.ofIssues issues)

def dataKey (kind : NodeKind) (field : String) : String := (kind.dataKeys.lookup field).getD field

def toDocument (n : Node) : Value :=
  let data : Fields := n.action.parts.map fun (field, v) => (dataKey n.kind field, v)
  let labelled := data ++ (n.label.map fun label => ("label", Value.text label)).toList
  let references := n.action.references
  .object [
    ("id", .text n.id), ("type", .text n.kind.name),
    ("position", .ofOption Position.toValue n.position), ("data", .object labelled),
    ("nextNodeId", references.get "nextNodeId"), ("trueNodeId", references.get "trueNodeId"),
    ("falseNodeId", references.get "falseNodeId")]

def toRecord (n : Node) : Value :=
  .object ([("id", .text n.id), ("position", .ofOption Position.toValue n.position),
    ("label", .ofText? n.label), ("type", .text n.kind.name)] ++ n.action.parts ++
      n.action.references)

end Node

namespace Funnel

def readFields (fields : Fields) (nodes : Checked (List Node)) (id : Checked String) :
    Checked Funnel :=
  Funnel.mk <$> id.within (.key "id")
    <*> Coerce.withDefault fields "name" "New Funnel" Coerce.text
    <*> Coerce.withDefault fields "trigger" .leadSubscribed (Coerce.choice Trigger.ofName?)
    <*> Coerce.withDefault fields "isActive" false Coerce.flag
    <*> Coerce.withDefault fields "startNodeId" "" Coerce.text
    <*> nodes.within (.key "nodes")
    <*> Coerce.withDefault fields "created_at" none (Coerce.optional Coerce.instant)
    <*> Coerce.withDefault fields "updated_at" none (Coerce.optional Coerce.instant)

def ofRecord : Value → Reading Funnel
  | .object fields =>
    let nodes := match Table.get? fields "nodes" with
      | some v => Coerce.list Node.readTagged v
      | none => .ok []
    .ofChecked ((Table.get? fields "id").map Coerce.text) (readFields fields nodes)
  | _ => .fail (.malformed [⟨[], .recordExpected⟩])

/-- Reads the nodes of a document; a value that is not filled in stands for none. -/
def readNodes (v : Value) : Except Fault (List Node) :=
  if v.isFilled then do (← v.elements).mapM Node.ofDocument else .ok []

def recognised (doc : Fields) : Fields :=
  ["name", "trigger", "isActive", "startNodeId", "created_at", "updated_at"].filterMap fun key =>
    let v := doc.get key
    let unset := if key = "startNodeId" then !v.isFilled else v.isNull
    if unset then none else some (key, v)

/-- Reads a funnel in its document form. An id that is given counts more than the document's. -/
def ofDocument (document : Value) (given : Value) : Reading Funnel :=
  match document.fields? with
  | .error e => .fail e
  | .ok doc =>
    match readNodes (doc.get "nodes") with
    | .error e => .fail e
    | .ok nodes =>
      let id := if given.isFilled then given else doc.get "id"
      .ofChecked (if id.isFilled then some (Coerce.text id) else none)
        (readFields (recognised doc) (.ok nodes))

def toDocument (f : Funnel) : Fields :=
  [("id", .text f.id), ("name", .text f.name), ("trigger", .text f.trigger.name),
    ("isActive", .bool f.isActive), ("startNodeId", .text f.startNodeId),
    ("nodes", .list (f.nodes.map Node.toDocument)), ("created_at", .ofInstant? f.createdAt),
    ("updated_at", .ofInstant? f.updatedAt)]

def toRecord (f : Funnel) : Value :=
  .object [("id", .text f.id), ("name", .text f.name), ("trigger", .text f.trigger.name),
    ("isActive", .bool f.isActive), ("startNodeId", .text f.startNodeId),
    ("nodes", .list (f.nodes.map Node.toRecord)), ("created_at", .ofInstant? f.createdAt),
    ("updated_at", .ofInstant? f.updatedAt)]

end Funnel

end FunnelFlow
