import FunnelFlow.Calendar.Instant
import FunnelFlow.Number.Double

namespace FunnelFlow

inductive SpanError where
  /-- A number of seconds is no finite double. -/
  | notRepresentable
  /-- The days do not fit the machine integer that carries them. -/
  | daysNotRepresentable
  /-- The days fit but are more than a span may have. -/
  | tooManyDays (days : Int)
  /-- The sum is outside the years 1 to 9999. -/
  | outsideCalendar
  deriving DecidableEq, Repr

def SpanError.message : SpanError → String
  | .notRepresentable => "int too large to convert to float"
  | .daysNotRepresentable => "Python int too large to convert to C int"
  | .tooManyDays days => "days=" ++ toString days ++ "; must have magnitude <= 999999999"
  | .outsideCalendar => "date value out of range"

structure Span where
  micros : Int
  deriving DecidableEq, Repr

namespace Span

open Calendar

def ofMicros (n : Int) : Except SpanError Span :=
  let days := n / microsPerDay
  if days < -2147483648 ∨ 2147483647 < days then .error .daysNotRepresentable
  else if days < -999999999 ∨ 999999999 < days then .error (.tooManyDays days)
  else .ok ⟨n⟩

def ofSeconds (n : Int) : Except SpanError Span := ofMicros (n * microsPerSecond)

def ofHours (n : Int) : Except SpanError Span := ofSeconds (n * 3600)

/-- The microseconds of a double number of seconds: the fraction of a second is scaled as a double
and rounded to the nearest microsecond, a half to the even one. -/
def microsOfDouble (negative : Bool) (mantissa : Nat) (exponent : Int) : Int :=
  let whole := mantissa * Nat.pow 2 exponent.toNat / Nat.pow 2 (-exponent).toNat
  let den := Nat.pow 2 (-exponent).toNat
  let rest := mantissa * Nat.pow 2 exponent.toNat % den
  let magnitude := whole * 1000000 + match Double.ofRatio false (rest * 1000000) den with
    | .finite _ m e => Double.nearest (m * Nat.pow 2 e.toNat) (Nat.pow 2 (-e).toNat)
    | _ => 0
  if negative then -magnitude else magnitude

def ofHalvedSeconds (n : Int) (halvings : Nat) : Except SpanError Span :=
  match Double.ofInt? n with
  | some (.finite s m e) =>
    let shifted := e - halvings
    match Double.ofRatio s (m * Nat.pow 2 shifted.toNat) (Nat.pow 2 (-shifted).toNat) with
    | .finite s m e => ofMicros (microsOfDouble s m e)
    | _ => .error .notRepresentable
  | _ => .error .notRepresentable

/-- `base · 2 ^ doublings` seconds. A negative number of doublings must be a finite double itself. A
non-zero base doubled more than a hundred times is far too long, so the power is not computed. -/
def ofDoubledSeconds (base : Int) (doublings : Int) : Except SpanError Span :=
  if doublings < 0 then
    if (Double.ofInt? doublings).isNone then .error .notRepresentable
    else ofHalvedSeconds base (min (-doublings).toNat 3000)
  else if base ≠ 0 ∧ 100 < doublings then .error .daysNotRepresentable
  else ofSeconds (base * Nat.pow 2 doublings.toNat)

end Span

namespace Instant

/-- The instant a span later, unless it leaves the calendar. -/
def plus (t : Instant) (s : Span) : Except SpanError Instant :=
  let moved := { t with wall := t.wall + s.micros }
  if moved.inRange then .ok moved else .error .outsideCalendar

def minus (t : Instant) (s : Span) : Except SpanError Instant := t.plus ⟨-s.micros⟩

end Instant

end FunnelFlow
