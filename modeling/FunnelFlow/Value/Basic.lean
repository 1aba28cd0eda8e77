import FunnelFlow.Calendar.Instant
import FunnelFlow.Number.Double
import FunnelFlow.Table

/-!
Documents: the data that funnels and runs are stored as, that events and contacts bring along,
and that is exchanged with editors. Objects keep the order of their keys. Instants occur in stored
documents only; all else can be written as JSON.
-/

namespace FunnelFlow

inductive Value where
  | null
  | bool (b : Bool)
  | int (n : Int)
  | float (x : Double)
  | text (s : String)
  | instant (t : Instant)
  | list (items : List Value)
  | object (fields : List (String × Value))
  deriving Repr, Inhabited

abbrev Fields := Table Value

def Fields.get (fields : Fields) (key : String) : Value := (fields.get? key).getD .null

namespace Value

mutual

def decEq : (a b : Value) → Decidable (a = b)
  | .null, .null => isTrue rfl
  | .bool a, .bool b => decidable_of_iff (a = b) (by simp)
  | .int a, .int b => decidable_of_iff (a = b) (by simp)
  | .float a, .float b => decidable_of_iff (a = b) (by simp)
  | .text a, .text b => decidable_of_iff (a = b) (by simp)
  | .instant a, .instant b => decidable_of_iff (a = b) (by simp)
  | .list a, .list b =>
    match decEqItems a b with
    | isTrue h => isTrue (by rw [h])
    | isFalse h => isFalse (by simpa using h)
  | .object a, .object b =>
    match decEqFields a b with
    | isTrue h => isTrue (by rw [h])
    | isFalse h => isFalse (by simpa using h)
  | .null, .bool _ | .null, .int _ | .null, .float _ | .null, .text _ | .null, .instant _
  | .null, .list _ | .null, .object _ => isFalse nofun
  | .bool _, .null | .bool _, .int _ | .bool _, .float _ | .bool _, .text _
  | .bool _, .instant _ | .bool _, .list _ | .bool _, .object _ => isFalse nofun
  | .int _, .null | .int _, .bool _ | .int _, .float _ | .int _, .text _ | .int _, .instant _
  | .int _, .list _ | .int _, .object _ => isFalse nofun
  | .float _, .null | .float _, .bool _ | .float _, .int _ | .float _, .text _
  | .float _, .instant _ | .float _, .list _ | .float _, .object _ => isFalse nofun
  | .text _, .null | .text _, .bool _ | .text _, .int _ | .text _, .float _
  | .text _, .instant _ | .text _, .list _ | .text _, .object _ => isFalse nofun
  | .instant _, .null | .instant _, .bool _ | .instant _, .int _ | .instant _, .float _
  | .instant _, .text _ | .instant _, .list _ | .instant _, .object _ => isFalse nofun
  | .list _, .null | .list _, .bool _ | .list _, .int _ | .list _, .float _ | .list _, .text _
  | .list _, .instant _ | .list _, .object _ => isFalse nofun
  | .object _, .null | .object _, .bool _ | .object _, .int _ | .object _, .float _
  | .object _, .text _ | .object _, .instant _ | .object _, .list _ => isFalse nofun

def decEqItems : (a b : List Value) → Decidable (a = b)
  | [], [] => isTrue rfl
  | [], _ :: _ | _ :: _, [] => isFalse nofun
  | a :: as, b :: bs =>
    match decEq a b, decEqItems as bs with
    | isTrue h, isTrue hs => isTrue (by rw [h, hs])
    | isFalse h, _ => isFalse (by simp [h])
    | _, isFalse hs => isFalse (by simp [hs])

def decEqFields : (a b : List (String × Value)) → Decidable (a = b)
  | [], [] => isTrue rfl
  | [], _ :: _ | _ :: _, [] => isFalse nofun
  | (k, a) :: as, (l, b) :: bs =>
    match decEq a b, decEqFields as bs with
    | isTrue h, isTrue hs => decidable_of_iff (k = l) (by simp [h, hs])
    | isFalse h, _ => isFalse (by simp [h])
    | _, isFalse hs => isFalse (by simp [hs])

end

instance : DecidableEq Value := decEq

/-- Whether a value counts as filled in: null, false, zero and empty ones do not. -/
def isFilled : Value → Bool
  | .null => false
  | .bool b => b
  | .int n => n != 0
  | .float x => !x.isZero
  | .text s => !s.isEmpty
  | .instant _ => true
  | .list items => !items.isEmpty
  | .object fields => !fields.isEmpty

def isNull : Value → Bool
  | .null => true
  | _ => false

def ofOption {α : Type} (f : α → Value) : Option α → Value
  | some a => f a
  | none => .null

def ofText? : Option String → Value := ofOption .text
def ofInstant? : Option Instant → Value := ofOption .instant

mutual

def withoutInstants (write : Instant → String) : Value → Value
  | .instant t => .text (write t)
  | .list items => .list (itemsWithout write items)
  | .object fields => .object (fieldsWithout write fields)
  | v => v

def itemsWithout (write : Instant → String) : List Value → List Value
  | [] => []
  | v :: vs => v.withoutInstants write :: itemsWithout write vs

def fieldsWithout (write : Instant → String) : List (String × Value) → List (String × Value)
  | [] => []
  | (k, v) :: rest => (k, v.withoutInstants write) :: fieldsWithout write rest

end

mutual

/-- The levels of a value: one more than its deepest part has. -/
def height : Value → Nat
  | .list items => itemsHeight items + 1
  | .object fields => fieldsHeight fields + 1
  | _ => 1

def itemsHeight : List Value → Nat
  | [] => 0
  | v :: vs => max v.height (itemsHeight vs)

def fieldsHeight : List (String × Value) → Nat
  | [] => 0
  | (_, v) :: rest => max v.height (fieldsHeight rest)

end

def kindName : Value → String
  | .null => "NoneType"
  | .bool _ => "bool"
  | .int _ => "int"
  | .float _ => "float"
  | .text _ => "str"
  | .instant _ => "datetime.datetime"
  | .list _ => "list"
  | .object _ => "dict"

end Value

end FunnelFlow
