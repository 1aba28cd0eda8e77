import FunnelFlow.Calendar.Instant
import FunnelFlow.Number.Reader

/-!
Instants read from text and numbers. A text is a date, or a date and a time with an optional
zone; a number, or the text of one, counts seconds of the universal clock since 1970, or
milliseconds when it is large.
-/

namespace FunnelFlow.Calendar

open Number

def takeDigits (count : Nat) (cs : List Char) : Option (Nat × List Char) :=
  let ds := cs.take count
  if ds.length = count ∧ ds.all isAsciiDigit then some (digitsToNat ds, cs.drop count) else none

def takeChar (p : Char → Bool) : List Char → Option (List Char)
  | c :: cs => if p c then some cs else none
  | [] => none

def takeDate (cs : List Char) : Option (Date × List Char) := do
  let (year, cs) ← takeDigits 4 cs
  let cs ← takeChar (· == '-') cs
  let (month, cs) ← takeDigits 2 cs
  let cs ← takeChar (· == '-') cs
  let (day, cs) ← takeDigits 2 cs
  let date : Date := ⟨year, month, day⟩
  if date.isValid then some (date, cs) else none

/-- A fraction of a second in microseconds; digits after the sixth are cut off. -/
def takeFraction (cs : List Char) : Option (Nat × List Char) :=
  let ds := cs.takeWhile isAsciiDigit
  if ds.isEmpty then none
  else
    let six := ds.take 6
    some (digitsToNat six * Nat.pow 10 (6 - six.length), cs.drop ds.length)

/-- Reads a time of day in microseconds; the seconds may be left out. -/
def takeTime (cs : List Char) : Option (Nat × List Char) := do
  let (hour, cs) ← takeDigits 2 cs
  let cs ← takeChar (· == ':') cs
  let (minute, cs) ← takeDigits 2 cs
  if 23 < hour ∨ 59 < minute then none
  let micros := (hour * 3600 + minute * 60) * 1000000
  match cs with
  | ':' :: cs =>
    let (second, cs) ← takeDigits 2 cs
    if 59 < second then none
    let micros := micros + second * 1000000
    match cs with
    | c :: cs' =>
      if c = '.' ∨ c = ',' then
        let (fraction, rest) ← takeFraction cs'
        some (micros + fraction, rest)
      else some (micros, cs)
    | [] => some (micros, [])
  | cs => some (micros, cs)

/-- Reads what ends a zone after its minutes: nothing, or seconds if it may have them. -/
def readZoneEnd (toSecond : Bool) : List Char → Option Nat
  | [] => some 0
  | c :: cs => do
    let (seconds, rest) ← takeDigits 2 cs
    if !toSecond ∨ c ≠ ':' ∨ 59 < seconds ∨ !rest.isEmpty then none
    some seconds

/-- Reads the zone that ends a text, as seconds ahead of the universal clock. -/
def readZone (toSecond : Bool) : List Char → Option (Option Int)
  | [] => some none
  | ['Z'] | ['z'] => some (some 0)
  | c :: cs => do
    let sign ← if c = '+' then some (1 : Int)
      else if c = '-' ∨ c = '\u2212' then some (-1) else none
    let (hours, cs) ← takeDigits 2 cs
    let cs := match cs with
      | ':' :: rest => rest
      | rest => rest
    let (minutes, cs) ← takeDigits 2 cs
    let seconds ← readZoneEnd toSecond cs
    if 59 < minutes ∨ 23 < hours then none
    some (some (sign * (hours * 3600 + minutes * 60 + seconds)))

def readCalendar (toSecond : Bool) (cs : List Char) : Option Instant := do
  let (date, rest) ← takeDate cs
  let day : Int := date.toDays * microsPerDay
  match rest with
  | [] => some ⟨day, none⟩
  | c :: rest =>
    if c = 'T' ∨ c = 't' ∨ c = ' ' ∨ c = '_' then
      let (time, rest) ← takeTime rest
      let zone ← readZone toSecond rest
      some ⟨day + time, zone⟩
    else none

def readWritten (s : String) : Option Instant := readCalendar true s.toList

/-- Numbers further from zero than this count milliseconds. -/
def millisecondThreshold : Int := 20000000000

/-- The universal instant `num / den` seconds after the start of 1970, or milliseconds when that is
far from zero, to the nearest microsecond, a half going up. -/
def ofRatio (num : Int) (den : Nat) : Option Instant :=
  let isLarge := num < -millisecondThreshold * den ∨ millisecondThreshold * den < num
  let micros := num * if isLarge then 1000 else microsPerSecond
  let t := Instant.ofEpochMicros ((2 * micros + den) / (2 * den))
  if t.inRange then some t else none

def ofCount (count : Int) : Option Instant := ofRatio count 1

def ofDouble (x : Double) : Option Instant := x.ratio?.bind fun (num, den) => ofRatio num den

/-- Reads a count of seconds or milliseconds. One that is not whole is a decimal; an exponent can
only follow a point. -/
def readCount (cs : List Char) : Option Instant :=
  let (negative, body) := splitSign cs
  match body.dropWhile isAsciiDigit with
  | [] =>
    let n : Int := digitsToNat body
    if body.isEmpty then none else ofCount (if negative then -n else n)
  | '.' :: _ =>
    (readDecimal body).bind fun (d, power) => ofDouble (.ofDecimal negative d power)
  | _ => none

/-- Reads an instant from a text; its zone ends with the minutes. -/
def readInstant (s : String) : Option Instant :=
  let cs := s.toList
  (readCalendar false cs).orElse fun _ => readCount cs

end FunnelFlow.Calendar
