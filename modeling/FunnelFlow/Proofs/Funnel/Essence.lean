import Mathlib.Data.List.Basic
import FunnelFlow.Proofs.Funnel.Document

namespace FunnelFlow

namespace Value

def unlessNull (v : Value) : Option Value := if v.isNull then none else some v

def ifFilled (v : Value) : Option Value := if v.isFilled then some v else none

@[simp] theorem unlessNull_getD (v : Value) : v.unlessNull.getD .null = v := by
  cases v <;> rfl

theorem ifFilled_getD (v : Value) :
    v.ifFilled.getD .null = if v.isFilled then v else .null := by
  unfold ifFilled
  split <;> rfl

theorem isFilled_ifFilled_getD (v : Value) : (v.ifFilled.getD .null).isFilled = v.isFilled := by
  rw [ifFilled_getD]
  split
  · rfl
  · next h => exact (Bool.not_eq_true _ ▸ h).symm

end Value

namespace Fields

/-- What is left of the fields when of each value a part is taken, or nothing. -/
def reduce (part : String → Value → Option Value) (fields : Fields) : Fields :=
  fields.filterMap fun entry => (part entry.1 (fields.get entry.1)).map (entry.1, ·)

theorem get?_filterMap (left : String → Option Value) (fields : Fields) (key : String) :
    Table.get? (fields.filterMap fun entry => (left entry.1).map (entry.1, ·)) key =
      (fields.get? key).bind fun _ => left key := by
  induction fields with
  | nil => rfl
  | cons entry fields ih =>
    obtain ⟨k, v⟩ := entry
    by_cases hk : k = key
    · subst hk
      cases hleft : left k with
      | none => simp [Table.get?, hleft, ih]
      | some v' => simp [Table.get?, hleft]
    · cases hleft : left k <;> simp [Table.get?, hleft, hk, ih]

theorem get_reduce {part : String → Value → Option Value} {key : String}
    (hnull : part key .null = none) (fields : Fields) :
    (fields.reduce part).get key = (part key (fields.get key)).getD .null := by
  have hget := get?_filterMap (fun key => part key (fields.get key)) fields key
  rw [get, reduce, hget]
  cases hkey : fields.get? key with
  | none =>
    have hmissing : fields.get key = .null := by rw [get, hkey]; rfl
    rw [hmissing, hnull]
    rfl
  | some v => rfl

end Fields

namespace Node

variable {kind : NodeKind} {key : String}

/-- What counts of a value in the data of a node. -/
def dataPart (kind : NodeKind) (key : String) (v : Value) : Option Value :=
  if key = "label" ∨ key ∈ kind.dataKeys.map (·.2) then v.unlessNull else none

def dataEssence (kind : NodeKind) : Value → Value
  | .object data => .object (Fields.reduce (dataPart kind) data)
  | v => v

def part (kind : NodeKind) (key : String) (v : Value) : Option Value :=
  if key = "data" then v.ifFilled.map (dataEssence kind)
  else if key ∈ kind.referenceKeys then v.ifFilled
  else if key ∈ ["id", "type", "position"] then v.unlessNull
  else none

def essence (v : Value) : Value :=
  match v with
  | .object doc => match NodeKind.ofTag? (Fields.get doc "type") with
    | some kind => .object (Fields.reduce (part kind) doc)
    | none => v
  | v => v

theorem get_dataReduce (hkey : key = "label" ∨ key ∈ kind.dataKeys.map (·.2)) (data : Fields) :
    (data.reduce (dataPart kind)).get key = data.get key := by
  have hpart (v : Value) : dataPart kind key v = v.unlessNull := if_pos hkey
  rw [Fields.get_reduce (hpart _), hpart, Value.unlessNull_getD]

theorem recognised_dataReduce (data : Fields) :
    recognised kind (data.reduce (dataPart kind)) = recognised kind data := by
  refine List.filterMap_congr fun field hfield => ?_
  have hkey : field.2 = "label" ∨ field.2 ∈ kind.dataKeys.map (·.2) := by
    rcases List.mem_append.mp hfield with hfield | hfield
    · exact .inr (List.mem_map_of_mem hfield)
    · exact .inl (congrArg Prod.snd (List.mem_singleton.mp hfield))
  dsimp only
  rw [get_dataReduce hkey]

theorem get_reduce_outer (hkey : key = "id" ∨ key = "type" ∨ key = "position") (doc : Fields) :
    (doc.reduce (part kind)).get key = doc.get key := by
  have hpart (v : Value) : part kind key v = v.unlessNull := by
    rcases hkey with rfl | rfl | rfl <;> cases kind <;> rfl
  rw [Fields.get_reduce (hpart _), hpart, Value.unlessNull_getD]

theorem recognisedReferences_reduce (doc : Fields) :
    recognisedReferences kind (doc.reduce (part kind)) = recognisedReferences kind doc := by
  refine List.map_congr_left fun key hkey => ?_
  have hpart (v : Value) : part kind key v = v.ifFilled := by
    have hdata : key ≠ "data" := by
      rintro rfl
      cases kind <;> simp [NodeKind.referenceKeys] at hkey
    rw [part, if_neg hdata, if_pos hkey]
  dsimp only
  rw [Fields.get_reduce (hpart _), hpart, Value.isFilled_ifFilled_getD, Value.ifFilled_getD]
  split <;> rfl

theorem dataOf_reduce (doc : Fields) :
    dataOf (doc.reduce (part kind)) = (dataOf doc).map (Fields.reduce (dataPart kind)) := by
  have hget : (doc.reduce (part kind)).get "data" =
      ((doc.get "data").ifFilled.map (dataEssence kind)).getD .null :=
    Fields.get_reduce rfl doc
  rw [dataOf, dataOf, hget, Value.ifFilled]
  generalize doc.get "data" = v
  by_cases hfilled : v.isFilled
  · rw [if_pos hfilled, if_pos hfilled, Option.map_some, Option.getD_some]
    cases v with
    | object data =>
      rw [dataEssence]
      split
      · rfl
      · next hempty =>
        have hnil : Fields.reduce (dataPart kind) data = [] := by
          simpa [Value.isFilled] using hempty
        simp [Value.fields?, Except.map, hnil]
    | _ => exact if_pos hfilled
  · rw [if_neg hfilled, if_neg hfilled]
    rfl

theorem assemble_reduce (doc data : Fields) :
    assemble (doc.reduce (part kind)) kind (data.reduce (dataPart kind)) =
      assemble doc kind data := by
  simp only [assemble, get_reduce_outer (.inl rfl), get_reduce_outer (.inr (.inr rfl)),
    recognised_dataReduce, recognisedReferences_reduce]

theorem kindOf_eq_ok {tag : Value} (h : NodeKind.ofTag? tag = some kind) :
    kindOf tag = .ok kind := by
  cases tag with
  | text s =>
    rw [kindOf]
    · rw [h]
    all_goals nofun
  | _ => cases h

theorem ofDocument_essence (v : Value) : ofDocument (essence v) = ofDocument v := by
  cases v with
  | object doc =>
    rw [essence]
    split
    · next kind htag =>
      rw [ofDocument_eq_assemble, ofDocument_eq_assemble, get_reduce_outer (.inr (.inl rfl)),
        kindOf_eq_ok htag, dataOf_reduce]
      change (dataOf doc).map _ >>= _ = dataOf doc >>= _
      cases dataOf doc with
      | error e => rfl
      | ok data => exact assemble_reduce doc data
    · rfl
  | _ => rfl

end Node

namespace Funnel

def part (key : String) (v : Value) : Option Value :=
  if key = "nodes" then v.ifFilled.map fun
    | .list items => .list (items.map Node.essence)
    | v => v
  else if key ∈ ["id", "startNodeId"] then v.ifFilled
  else if key ∈ ["name", "trigger", "isActive", "created_at", "updated_at"] then v.unlessNull
  else none

/-- A document without what does not count. -/
def essence : Value → Value
  | .object doc => .object (Fields.reduce part doc)
  | v => v

variable {doc : Fields} {key : String}

theorem get_reduce_filled (hkey : key = "id" ∨ key = "startNodeId") (doc : Fields) :
    (doc.reduce part).get key = if (doc.get key).isFilled then doc.get key else .null := by
  have hpart (v : Value) : part key v = v.ifFilled := by
    rcases hkey with rfl | rfl <;> rfl
  rw [Fields.get_reduce (hpart _), hpart, Value.ifFilled_getD]

theorem get_reduce_set (hkey : key ∈ ["name", "trigger", "isActive", "created_at", "updated_at"])
    (doc : Fields) : (doc.reduce part).get key = doc.get key := by
  have hpart (v : Value) : part key v = v.unlessNull := by
    simp only [List.mem_cons, List.not_mem_nil, or_false] at hkey
    rcases hkey with rfl | rfl | rfl | rfl | rfl <;> rfl
  rw [Fields.get_reduce (hpart _), hpart, Value.unlessNull_getD]

theorem readNodes_reduce (doc : Fields) :
    readNodes ((doc.reduce part).get "nodes") = readNodes (doc.get "nodes") := by
  rw [Fields.get_reduce rfl, part, if_pos rfl, Value.ifFilled]
  generalize doc.get "nodes" = v
  by_cases hfilled : v.isFilled
  · rw [if_pos hfilled, Option.map_some, Option.getD_some]
    cases v with
    | list items =>
      have hitems : (items.map Node.essence).mapM Node.ofDocument = items.mapM Node.ofDocument := by
        rw [List.mapM_map]
        simp only [Function.comp_def, Node.ofDocument_essence]
      have hfilled' : (Value.list (items.map Node.essence)).isFilled = true := by
        simpa [Value.isFilled] using hfilled
      rw [readNodes, readNodes, if_pos hfilled, if_pos hfilled']
      exact hitems
    | _ => rfl
  · rw [if_neg hfilled, readNodes, readNodes, if_neg hfilled]
    rfl

theorem recognised_reduce (doc : Fields) : recognised (doc.reduce part) = recognised doc := by
  refine List.filterMap_congr fun key hkey => ?_
  by_cases hstart : key = "startNodeId"
  · subst hstart
    have hnull : Value.null.isFilled = false := rfl
    by_cases hfilled : (doc.get "startNodeId").isFilled <;>
      simp [get_reduce_filled (.inr rfl), hfilled, hnull]
  · have hset : key ∈ ["name", "trigger", "isActive", "created_at", "updated_at"] := by
      simp only [List.mem_cons, hstart, false_or] at hkey ⊢
      exact hkey
    simp only [get_reduce_set hset]

theorem chosenId_reduce (given : Value) (doc : Fields) :
    chosenId given ((doc.reduce part).get "id") = chosenId given (doc.get "id") := by
  have hnull : Value.null.isFilled = false := rfl
  by_cases hgiven : given.isFilled <;> by_cases hfilled : (doc.get "id").isFilled <;>
    simp [chosenId, get_reduce_filled (.inl rfl), hgiven, hfilled, hnull]

theorem essence_reads_alike (document given : Value) :
    ofDocument (essence document) given = ofDocument document given := by
  cases document with
  | object doc =>
    rw [essence, ofDocument_object, ofDocument_object, readNodes_reduce, recognised_reduce,
      chosenId_reduce]
  | _ => rfl

example : essence (.object [("id", .text "f"), ("color", .text "red"), ("startNodeId", .text ""),
      ("nodes", .list [.object [("id", .text "a"), ("type", .text "DELAY"), ("position", .null),
        ("data", .object [("hours", .int 2), ("subject", .text "S"), ("label", .null)]),
        ("trueNodeId", .text "b")]])]) =
    .object [("id", .text "f"), ("nodes", .list [.object [("id", .text "a"),
      ("type", .text "DELAY"), ("data", .object [("hours", .int 2)])]])] := by
  decide +kernel

end Funnel

end FunnelFlow
