import FunnelFlow.Activity
import FunnelFlow.Value.Display
import FunnelFlow.Value.Order
import FunnelFlow.Web.Address
import FunnelFlow.Web.Status

namespace FunnelFlow

/-- Values under keys that need not be texts, in the order in which the keys were first written. -/
abbrev Entries := List (Value × Value)

namespace Entries

def set (entries : Entries) (key v : Value) : Entries :=
  match entries with
  | [] => [(key, v)]
  | (k, w) :: rest => if k.sameKey key then (k, v) :: rest else (k, w) :: set rest key v

def fields (entries : Entries) : Fields :=
  entries.filterMap fun
    | (.text key, v) => some (key, v)
    | _ => none

end Entries

namespace Value

def toEntry (index : Nat) (pair : Value) : Except Fault (Value × Value) :=
  match pair.elements with
  | .error _ => .error (.notPair index)
  | .ok [key, v] => match key with
    | .list _ | .object _ => .error (.notComparable key.kindName)
    | key => .ok (key, v)
  | .ok parts => .error (.pairLength index parts.length)

def entriesFrom (index : Nat) (entries : Entries) : List Value → Except Fault Entries
  | [] => .ok entries
  | pair :: pairs => do
    let (key, v) ← toEntry index pair
    entriesFrom (index + 1) (entries.set key v) pairs

def toEntries : Value → Except Fault Entries
  | .object fields => .ok (fields.map fun (key, v) => (.text key, v))
  | v => do entriesFrom 0 [] (← v.elements)

end Value

namespace ContactBook

def address (base contactId : String) : Except Fault String :=
  Address.normal (base ++ "/" ++ contactId ++ "/attributes")

def judge (address : String) : Reply → Except Fault Entries
  | .answer status text =>
    if status = 200 then
      match Json.read text with
      | .ok v => v.toEntries
      | .error failure => .error (.notJson failure)
    else if status = 404 ∨ Status.isSuccess status then .ok []
    else .error (.badStatus (Status.complaint status address))
  | .failed failure message => .error (.requestFailed failure message)
  | .broken message => .error (.brokenPeer message)
  | .unwritable => .error .notStrictJson

def attributes (base contactId : String) : Activity Entries := do
  let address ← Activity.finish (address base contactId)
  Activity.finish (judge address (← Activity.read address))

end ContactBook

end FunnelFlow
