import FunnelFlow.Fault
import FunnelFlow.Number.Reader
import FunnelFlow.Value.Display

namespace FunnelFlow

namespace Text

def isPartOf (part : List Char) : List Char → Bool
  | [] => part.isEmpty
  | c :: cs => part.isPrefixOf (c :: cs) || isPartOf part cs

end Text

namespace Value

/-- The text that a value is compared by. Null is compared as the empty text. -/
def comparedText : Value → Except Fault String
  | .null => .ok ""
  | v => v.shown.map Text.lower

def asNumber : Value → Except Fault (Option Double)
  | .int n => match Double.ofInt? n with
    | some x => .ok (some x)
    | none => .error .integerTooLarge
  | .bool b => .ok (Double.ofInt? (if b then 1 else 0))
  | .float x => .ok (some x)
  | .text s => .ok (Number.readDouble s)
  | _ => .ok none

end Value

namespace Test

def contains (part whole : String) : Bool := Text.isPartOf part.toList whole.toList

def compareMembers (comparison : Comparison) (members : List String) (expected : String) : Bool :=
  match comparison with
  | .equals => members.contains expected
  | .notEquals => !members.contains expected
  | .contains => members.any (contains expected)
  | .greaterThan | .lessThan => false

def compareNumbers (less : Double → Double → Bool) (actual : Value) (expected : String) :
    Except Fault Bool := do
  match ← actual.asNumber, Number.readDouble expected with
  | some x, some y => .ok (less x y)
  | _, _ => .ok false

def compareSingle (comparison : Comparison) (actual : Value) (text expected : String) :
    Except Fault Bool :=
  match comparison with
  | .equals => .ok (text == Text.lower expected)
  | .notEquals => .ok (text != Text.lower expected)
  | .contains => .ok (contains (Text.lower expected) text)
  | .greaterThan => compareNumbers (fun x y => y.lt x) actual expected
  | .lessThan => compareNumbers Double.lt actual expected

/-- Whether a test holds for the attributes of a contact. A missing attribute counts as null, and
no test with an unknown comparison holds. -/
def holds (t : Test) (attributes : Fields) : Except Fault Bool :=
  match attributes.get t.target with
  | .list members => do
    let texts ← members.mapM Value.comparedText
    match Comparison.ofName? t.operator with
    | none => return false
    | some comparison => return compareMembers comparison texts (Text.lower t.value)
  | actual => do
    let text ← actual.comparedText
    match Comparison.ofName? t.operator with
    | none => return false
    | some comparison => compareSingle comparison actual text t.value

end Test

end FunnelFlow
