import FunnelFlow.Value.Basic

namespace FunnelFlow.Value

/-- Whether two values are the same to a query: numbers by value, flags as zero and one. -/
def sameTo : Value → Value → Bool
  | .bool a, .bool b => a == b
  | .int a, .int b => a == b
  | .bool a, .int b | .int b, .bool a => (if a then 1 else 0) == b
  | .float a, .float b => a.eq b
  | .int a, .float b | .float b, .int a => b.toInt? == some a
  | .bool a, .float b | .float b, .bool a => b.toInt? == some (if a then 1 else 0)
  | a, b => a == b

/-- Whether two values are the same as keys. Unlike to a query, nan is the same as itself. -/
def sameKey (a b : Value) : Bool := a == b || a.sameTo b

/-- The place of a kind in sorted order; numbers of both kinds stand together. -/
def rank : Value → Nat
  | .null => 0
  | .int _ | .float _ => 1
  | .text _ => 2
  | .object _ => 3
  | .list _ => 4
  | .bool _ => 5
  | .instant _ => 6

def intBefore (a : Int) : Double → Bool
  | .nan => false
  | .infinite negative => !negative
  | x => x.ratio?.any fun (num, den) => a * den < num

def doubleBefore (b : Int) : Double → Bool
  | .nan => false
  | .infinite negative => negative
  | x => x.ratio?.any fun (num, den) => num < b * den

def isBefore : Value → Value → Bool
  | .int a, .int b => a < b
  | .int a, .float b => intBefore a b
  | .float a, .int b => doubleBefore b a
  | .float a, .float b => a.lt b
  | .text s, .text t => s < t
  | .bool a, .bool b => !a && b
  | .instant t, .instant u => t.lt u
  | a, b => a.rank < b.rank

/-- Whether two values can be put in order: instants only if both are with or without a zone. -/
def canOrder : Value → Value → Bool
  | .instant t, .instant u => t.comparable u
  | _, _ => true

end FunnelFlow.Value
