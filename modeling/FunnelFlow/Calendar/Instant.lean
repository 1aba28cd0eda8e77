import FunnelFlow.Text.Digit

/-!
Points in time to the microsecond, in the years 1 to 9999, with or without a zone. An instant keeps
the reading of its wall clock; one with a zone also keeps how far that clock is ahead of the
universal one. Instants of the two sorts cannot be ordered against each other.
-/

namespace FunnelFlow

/-- Microseconds on the wall clock since the start of year 1, and the zone's offset in seconds. -/
structure Instant where
  wall : Int
  zone : Option Int
  deriving DecidableEq, Repr, Inhabited

namespace Calendar

def microsPerSecond : Int := 1000000
def secondsPerDay : Int := 86400
def microsPerDay : Int := secondsPerDay * microsPerSecond

def isLeap (year : Nat) : Bool :=
  year % 4 == 0 && (year % 100 != 0 || year % 400 == 0)

def daysBeforeYear (year : Nat) : Nat :=
  let y := year - 1
  y * 365 + y / 4 - y / 100 + y / 400

def daysInMonth (year month : Nat) : Nat :=
  if month = 2 then (if isLeap year then 29 else 28)
  else if month = 4 ∨ month = 6 ∨ month = 9 ∨ month = 11 then 30
  else 31

def daysBeforeMonth (year month : Nat) : Nat :=
  (List.range (month - 1)).foldl (fun days m => days + daysInMonth year (m + 1)) 0

structure Date where
  year : Nat
  month : Nat
  day : Nat
  deriving DecidableEq, Repr

def Date.toDays (d : Date) : Nat :=
  daysBeforeYear d.year + daysBeforeMonth d.year d.month + (d.day - 1)

def Date.isValid (d : Date) : Bool :=
  1 ≤ d.year && d.year ≤ 9999 && 1 ≤ d.month && d.month ≤ 12 &&
    1 ≤ d.day && d.day ≤ daysInMonth d.year d.month

/-- The year that a number of days since the start of year 1 falls into. The estimate from the
mean length of a year is at most one too high or too low. -/
def yearOfDays (days : Nat) : Nat :=
  let guess := days * 400 / 146097 + 1
  if days < daysBeforeYear guess then guess - 1
  else if daysBeforeYear (guess + 1) ≤ days then guess + 1
  else guess

/-- The month, and the day in it, of a day counted from the start of a year. -/
def monthOfDay (year : Nat) : List Nat → Nat → Nat × Nat
  | [], rest => (12, rest + 1)
  | month :: later, rest =>
    if rest < daysInMonth year month then (month, rest + 1)
    else monthOfDay year later (rest - daysInMonth year month)

def dateOfDays (days : Nat) : Date :=
  let year := yearOfDays days
  let (month, day) :=
    monthOfDay year [1, 2, 3, 4, 5, 6, 7, 8, 9, 10, 11, 12] (days - daysBeforeYear year)
  ⟨year, month, day⟩

def epochSeconds : Int := 719162 * secondsPerDay

/-- The first microsecond after year 9999. -/
def wallEnd : Int := 3652059 * microsPerDay

end Calendar

namespace Instant

open Calendar

def inRange (t : Instant) : Bool := 0 ≤ t.wall && t.wall < wallEnd

def naive (wall : Int) : Instant := ⟨wall, none⟩

def ofEpochMicros (micros : Int) : Instant :=
  ⟨epochSeconds * microsPerSecond + micros, some 0⟩

def universal (t : Instant) : Int :=
  t.wall - t.zone.getD 0 * microsPerSecond

def toUniversal (t : Instant) : Instant := naive t.universal

def comparable (a b : Instant) : Bool := a.zone.isSome == b.zone.isSome

def le (a b : Instant) : Bool := a.universal ≤ b.universal
def lt (a b : Instant) : Bool := a.universal < b.universal

def toMillis (t : Instant) : Instant := { t with wall := t.wall - t.wall % 1000 }

def zoneMinutes (offset : Int) : List Char :=
  let n := offset.natAbs
  (if offset < 0 then '-' else '+') :: Text.padded 2 (n / 3600) ++
    ':' :: Text.padded 2 (n / 60 % 60)

def zoneText (offset : Int) : List Char :=
  let seconds := offset.natAbs % 60
  zoneMinutes offset ++ if seconds = 0 then [] else ':' :: Text.padded 2 seconds

/-- Date and time of the wall clock; microseconds only when there are any. -/
def wallText (t : Instant) : List Char :=
  let date := dateOfDays (t.wall / microsPerDay).toNat
  let micros := (t.wall % microsPerDay).toNat
  let seconds := micros / 1000000
  let fraction := micros % 1000000
  Text.padded 4 date.year ++ '-' :: Text.padded 2 date.month ++ '-' :: Text.padded 2 date.day ++
    'T' :: Text.padded 2 (seconds / 3600) ++ ':' :: Text.padded 2 (seconds / 60 % 60) ++
    ':' :: Text.padded 2 (seconds % 60) ++
    (if fraction = 0 then [] else '.' :: Text.padded 6 fraction)

def text (t : Instant) : String :=
  String.ofList (t.wallText ++ (t.zone.map zoneText).getD [])

/-- The text of an instant in which the universal zone is the letter Z and other zones are cut to
minutes. -/
def zuluText (t : Instant) : String :=
  String.ofList (t.wallText ++ if t.zone = some 0 then ['Z'] else (t.zone.map zoneMinutes).getD [])

end Instant

end FunnelFlow
