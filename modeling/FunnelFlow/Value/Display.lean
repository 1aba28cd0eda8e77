import FunnelFlow.Fault
import FunnelFlow.Number.Shortest
import FunnelFlow.Text.Quoted
import FunnelFlow.Value.Basic

namespace FunnelFlow.Value

def commaSeparated : List String → String
  | [] => ""
  | [s] => s
  | s :: rest => s ++ ", " ++ commaSeparated rest

mutual

/-- The text of a value inside another, as if all its integers could be written. -/
def nestedText : Value → String
  | .null => "None"
  | .bool b => if b then "True" else "False"
  | .int n => toString n
  | .float x => x.text
  | .text s => Text.quoted s
  | .instant t => t.text
  | .list items => "[" ++ commaSeparated (itemTexts items) ++ "]"
  | .object fields => "\x7b" ++ commaSeparated (fieldTexts fields) ++ "\x7d"

def itemTexts : List Value → List String
  | [] => []
  | v :: vs => nestedText v :: itemTexts vs

def fieldTexts : List (String × Value) → List String
  | [] => []
  | (k, v) :: rest => (Text.quoted k ++ ": " ++ nestedText v) :: fieldTexts rest

end

def display : Value → String
  | .text s => s
  | v => nestedText v

mutual

def isWritable : Value → Bool
  | .int n => Number.isWritable n
  | .list items => itemsWritable items
  | .object fields => fieldsWritable fields
  | _ => true

def itemsWritable : List Value → Bool
  | [] => true
  | v :: vs => isWritable v && itemsWritable vs

def fieldsWritable : List (String × Value) → Bool
  | [] => true
  | (_, v) :: rest => isWritable v && fieldsWritable rest

end

def shown (v : Value) : Except Fault String :=
  if v.isWritable then .ok v.display else .error (.tooManyDigits none)

end FunnelFlow.Value
