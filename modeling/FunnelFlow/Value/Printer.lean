import FunnelFlow.Fault
import FunnelFlow.Number.Shortest
import FunnelFlow.Text.Quoted
import FunnelFlow.Value.Basic

namespace FunnelFlow.Json

def escapeChar (c : Char) : List Char :=
  if c = '"' ∨ c = '\\' then ['\\', c]
  else if c = '\n' then ['\\', 'n']
  else if c = '\r' then ['\\', 'r']
  else if c = '\t' then ['\\', 't']
  else if c = '\x08' then ['\\', 'b']
  else if c = '\x0c' then ['\\', 'f']
  else if c.toNat < 0x20 then '\\' :: 'u' :: Text.hexPadded 4 c.toNat
  else [c]

def stringText (s : String) : String :=
  String.ofList ('"' :: s.toList.flatMap escapeChar ++ ['"'])

def numberText : Double → String
  | .nan => "NaN"
  | .infinite negative => if negative then "-Infinity" else "Infinity"
  | x => x.text

mutual

def print : Value → String
  | .null => "null"
  | .bool b => if b then "true" else "false"
  | .int n => toString n
  | .float x => numberText x
  | .text s => stringText s
  | .instant t => stringText t.text
  | .list items => "[" ++ printItems items ++ "]"
  | .object fields => "\x7b" ++ printFields fields ++ "\x7d"

def printItems : List Value → String
  | [] => ""
  | [v] => print v
  | v :: vs => print v ++ "," ++ printItems vs

def printFields : List (String × Value) → String
  | [] => ""
  | [(k, v)] => stringText k ++ ":" ++ print v
  | (k, v) :: rest => stringText k ++ ":" ++ print v ++ "," ++ printFields rest

end

mutual

/-- What keeps JSON in the strict sense from writing a value: nan and the infinities have no form,
and neither has an integer of too many digits. -/
def obstacle? : Value → Option Fault
  | .int n => if Number.isWritable n then none else some (.tooManyDigits none)
  | .float x => if x.isFinite then none else some .notStrictJson
  | .list items => itemsObstacle? items
  | .object fields => fieldsObstacle? fields
  | _ => none

def itemsObstacle? : List Value → Option Fault
  | [] => none
  | v :: vs => obstacle? v <|> itemsObstacle? vs

def fieldsObstacle? : List (String × Value) → Option Fault
  | [] => none
  | (_, v) :: rest => obstacle? v <|> fieldsObstacle? rest

end

def isStrict (v : Value) : Bool := (obstacle? v).isNone

mutual

def strict : Value → Value
  | .float x => if x.isFinite then .float x else .null
  | .list items => .list (strictItems items)
  | .object fields => .object (strictFields fields)
  | v => v

def strictItems : List Value → List Value
  | [] => []
  | v :: vs => strict v :: strictItems vs

def strictFields : List (String × Value) → List (String × Value)
  | [] => []
  | (k, v) :: rest => (k, strict v) :: strictFields rest

end

end FunnelFlow.Json
