import FunnelFlow.Number.Double
import FunnelFlow.Text.Blank

namespace FunnelFlow.Number

def isAsciiDigit (c : Char) : Bool := '0' ≤ c && c ≤ '9'

def digitsToNat (cs : List Char) : Nat := Text.ofDigits (cs.filterMap Text.asciiDigit?)

def splitSign : List Char → Bool × List Char
  | '-' :: cs => (true, cs)
  | '+' :: cs => (false, cs)
  | cs => (false, cs)

/-- Removes the underscores of a text, each of which must stand between two digits. -/
def dropUnderscores (previous : Char) : List Char → Option (List Char)
  | [] => some []
  | '_' :: c :: cs =>
    if isAsciiDigit previous && isAsciiDigit c then
      (dropUnderscores c cs).map (c :: ·)
    else none
  | c :: cs => if c = '_' then none else (dropUnderscores c cs).map (c :: ·)

def readExponent : List Char → Option Int
  | [] => some 0
  | c :: cs =>
    if c = 'e' ∨ c = 'E' then
      let (negative, ds) := splitSign cs
      if ds.isEmpty || !ds.all isAsciiDigit then none
      else
        let n : Int := digitsToNat ds
        some (if negative then -n else n)
    else none

/-- Reads an unsigned decimal `d · 10 ^ p` that fills the whole text. -/
def readDecimal (cs : List Char) : Option (Nat × Int) :=
  let whole := cs.takeWhile isAsciiDigit
  let afterWhole := cs.dropWhile isAsciiDigit
  let (fraction, rest) := match afterWhole with
    | '.' :: r => (r.takeWhile isAsciiDigit, r.dropWhile isAsciiDigit)
    | r => ([], r)
  if whole.isEmpty && fraction.isEmpty then none
  else (readExponent rest).map fun e => (digitsToNat (whole ++ fraction), e - fraction.length)

/-- Reads a number without blanks: a decimal, or one of the words for infinity and nan. -/
def readPlain (cs : List Char) : Option Double :=
  let (negative, body) := splitSign cs
  match String.ofList (body.map Char.toLower) with
  | "inf" | "infinity" => some (.infinite negative)
  | "nan" => some .nan
  | _ => (readDecimal body).map fun (d, power) => .ofDecimal negative d power

/-- The ASCII spelling of a text: blanks and decimal digits of every script become ASCII ones. -/
def toAscii (cs : List Char) : List Char :=
  if cs.all (·.toNat < 128) then cs
  else cs.map fun c =>
    if c.toNat < 128 then c
    else if Text.isBlank c then ' '
    else match Text.digitValue? c with
      | some d => Char.ofNat ('0'.toNat + d)
      | none => '?'

def readDouble (s : String) : Option Double :=
  (dropUnderscores ' ' (Text.trim Text.isAsciiBlank (toAscii s.toList))).bind readPlain

def mostDigits : Nat := 4300

def isWritable (n : Int) : Bool := (Text.digits n.natAbs).length ≤ mostDigits

def writingComplaint : String :=
  s!"Exceeds the limit ({mostDigits} digits) for integer string conversion; use " ++
    "sys.set_int_max_str_digits() to increase the limit"

def digitsComplaint (count : Nat) : String :=
  s!"Exceeds the limit ({mostDigits} digits) for integer string conversion: value has {count} " ++
    "digits; use sys.set_int_max_str_digits() to increase the limit"

/-- The digits of an integer that has too many. They are counted to where the number ends, whatever
follows, and an underscore must stand between two of them. -/
def excessDigits? (s : String) : Option Nat :=
  let body := (splitSign (Text.trim Text.isAsciiBlank (toAscii s.toList))).2
  let number := body.takeWhile fun c => isAsciiDigit c || c == '_'
  (dropUnderscores ' ' number).bind fun ds =>
    if mostDigits < ds.length then some ds.length else none

def readSigned (cs : List Char) : Option Int :=
  let (negative, body) := splitSign cs
  (dropUnderscores ' ' body).bind fun ds =>
    if ds.isEmpty || !ds.all isAsciiDigit then none
    else
      let n : Int := digitsToNat ds
      some (if negative then -n else n)

def readInt (s : String) : Option Int :=
  readSigned (Text.trim Text.isAsciiBlank (toAscii s.toList))

end FunnelFlow.Number
