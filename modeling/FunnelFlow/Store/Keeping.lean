import FunnelFlow.Fault
import FunnelFlow.Value.Basic

/-!
How a database keeps the values it is given: as they are, or in its own format. In that format
instants are read on the universal clock and cut to milliseconds, integers have eight bytes, and no
name holds the null character.
-/

namespace FunnelFlow

inductive Keeping where
  | exactly
  | inFormat
  deriving DecidableEq, Repr

namespace Keeping

def smallestInteger : Int := -9223372036854775808
def largestInteger : Int := 9223372036854775807

def formatInstant (t : Instant) : Except Fault Instant :=
  if t.toUniversal.inRange then .ok t.toUniversal.toMillis else .error (.span .outsideCalendar)

mutual

def formatValue : Value → Except Fault Value
  | .int n =>
    if smallestInteger ≤ n ∧ n ≤ largestInteger then .ok (.int n) else .error .integerTooWide
  | .instant t => (formatInstant t).map .instant
  | .list items => (formatItems items).map .list
  | .object fields => (formatFields fields).map .object
  | v => .ok v

def formatItems : List Value → Except Fault (List Value)
  | [] => .ok []
  | v :: vs => do
    let v ← formatValue v
    return v :: (← formatItems vs)

def formatFields : List (String × Value) → Except Fault (List (String × Value))
  | [] => .ok []
  | (name, v) :: rest => do
    if name.toList.contains '\x00' then throw (.nullInName name)
    let v ← formatValue v
    return (name, v) :: (← formatFields rest)

end

def row : Keeping → Fields → Except Fault Fields
  | .exactly, fields => .ok fields
  | .inFormat, fields => formatFields fields

/-- An instant as it is kept, which is what instants in queries are compared as. -/
def instant : Keeping → Instant → Except Fault Instant
  | .exactly, t => .ok t
  | .inFormat, t => formatInstant t

end Keeping

end FunnelFlow
