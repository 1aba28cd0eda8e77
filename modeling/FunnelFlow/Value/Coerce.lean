import FunnelFlow.Calendar.Reader
import FunnelFlow.Number.Shortest
import FunnelFlow.Value.Issue

namespace FunnelFlow.Coerce

abbrev Reader (α : Type) := Value → Checked α

variable {α β : Type}

def text : Reader String
  | .text s => .ok s
  | _ => .fail .textExpected

def textOrNumber : Reader String
  | .text s => .ok s
  | .int n => if Number.isWritable n then .ok (toString n) else .fail .integerUnwritable
  | .float x => .ok x.text
  | _ => .fail .textExpected

def smallest64 : Int := -9223372036854775808
def largest64 : Int := 9223372036854775807

def splitMinus : List Char → Bool × List Char
  | '-' :: cs => (true, cs)
  | cs => (false, cs)

/-- Whether a text begins with more digits than an integer may have. A number that begins with a
zero has no others. -/
def hasTooManyDigits (cs : List Char) : Bool :=
  let digits := (splitMinus cs).2.takeWhile Number.isAsciiDigit
  digits.head? != some '0' && Number.mostDigits < digits.length

/-- Reads an integer that is written plainly: digits after a minus or not, which begin with a zero
only if that is all. -/
def plainInteger? (cs : List Char) : Option Int :=
  let (negative, digits) := splitMinus cs
  if digits.isEmpty || !digits.all Number.isAsciiDigit then none
  else if digits.head? = some '0' ∧ digits.length ≠ 1 then none
  else
    let n : Int := Number.digitsToNat digits
    some (if negative then -n else n)

/-- Drops the zeros that a number begins with, and underscores among them; `last` is the character
before. A zero in front of a point and the last character of all are kept. Nothing else than a
number may follow. -/
def dropZeros (last : Char) : List Char → Option (List Char)
  | [] => some [last]
  | c :: cs =>
    if c = '0' ∨ c = '_' then dropZeros c cs
    else if c = '.' then some (last :: c :: cs)
    else if c = '-' ∨ Number.isAsciiDigit c then some (c :: cs)
    else none

def dropLeadingZeros : List Char → Option (List Char)
  | [] => none
  | c :: cs =>
    if c = '0' then dropZeros c cs
    else if c = '-' ∨ Number.isAsciiDigit c then some (c :: cs)
    else none

/-- Drops a point and the zeros after it from the end of a text of digits. -/
def dropZeroFraction (cs : List Char) : List Char :=
  match cs.dropWhile (· != '.') with
  | '.' :: zeros => if !zeros.isEmpty && zeros.all (· == '0') then cs.takeWhile (· != '.') else cs
  | _ => cs

def hasDoubleSeparator : List Char → Bool
  | '_' :: '_' :: _ => true
  | _ :: cs => hasDoubleSeparator cs
  | [] => false

/-- Removes the underscores of a text, unless one stands at an end or two stand together. -/
def dropSeparators (cs : List Char) : List Char :=
  if cs.head? = some '_' ∨ cs.getLast? = some '_' ∨ hasDoubleSeparator cs then cs
  else cs.filter (· != '_')

/-- The plain writing of an integer that is written with a plus sign, zeros in front, a fraction of
zeros, or underscores. -/
def tidyInteger (cs : List Char) : Option (List Char) :=
  let digits (cs : List Char) : Option (List Char) :=
    (dropLeadingZeros cs).map fun ds => dropSeparators (dropZeroFraction ds)
  match cs with
  | '-' :: rest => (digits rest).map ('-' :: ·)
  | '+' :: '-' :: _ => none
  | '+' :: rest => digits rest
  | _ => digits cs

def integerOfText (s : String) : Checked Int :=
  let tidy := (tidyInteger (Text.trim Text.isWhiteSpace s.toList)).getD []
  if hasTooManyDigits s.toList then .fail .integerTooLong
  else match plainInteger? s.toList with
    | some n => .ok n
    | none =>
      if hasTooManyDigits tidy then .fail .integerTooLong
      else match plainInteger? tidy with
        | some n => .ok n
        | none => .fail .integerUnreadable

def integerOfDouble (x : Double) : Checked Int :=
  if !x.isFinite then .fail .finiteExpected
  else match x.toInt? with
    | none => .fail .integerFractional
    | some n => if smallest64 < n ∧ n ≤ largest64 then .ok n else .fail .integerTooLong

def integer : Reader Int
  | .int n => .ok n
  | .bool b => .ok (if b then 1 else 0)
  | .float x => integerOfDouble x
  | .text s => integerOfText s
  | _ => .fail .integerExpected

/-- Blanks around a number are passed over, and so are underscores in it, but not both. -/
def doubleOfText (s : String) : Checked Double :=
  let cs := s.toList
  let trimmed := Text.trim Text.isWhiteSpace cs
  match Number.readPlain trimmed <|> Number.readPlain (dropSeparators cs) with
  | some x => .ok x
  | none => .fail .numberUnreadable

def double : Reader Double
  | .float x => .ok x
  | .int n => match Double.ofInt? n with
    | some x => .ok x
    | none => .fail .numberExpected
  | .bool b => match Double.ofInt? (if b then 1 else 0) with
    | some x => .ok x
    | none => .fail .numberExpected
  | .text s => doubleOfText s
  | _ => .fail .numberExpected

def flagOfInt (n : Int) : Checked Bool :=
  if n = 0 then .ok false
  else if n = 1 then .ok true
  else if smallest64 ≤ n ∧ n ≤ largest64 then .fail .flagUnreadable
  else .fail .flagExpected

def flagOfText (s : String) : Checked Bool :=
  match String.ofList (s.toList.map Char.toLower) with
  | "true" | "t" | "yes" | "y" | "on" | "1" => .ok true
  | "false" | "f" | "no" | "n" | "off" | "0" => .ok false
  | _ => .fail .flagUnreadable

def flag : Reader Bool
  | .bool b => .ok b
  | .int n => flagOfInt n
  | .float x => match integerOfDouble x with
    | .ok n => flagOfInt n
    | .bad _ => .fail .flagExpected
  | .text s => flagOfText s
  | _ => .fail .flagExpected

def instant : Reader Instant
  | .instant t => .ok t
  | .text s => match Calendar.readInstant s with
    | some t => .ok t
    | none => .fail .instantUnreadable
  | .int n => match Calendar.ofCount n with
    | some t => .ok t
    | none => if (Double.ofInt? n).isSome then .fail .instantUnreadable else .fail .instantExpected
  | .float x => match Calendar.ofDouble x with
    | some t => .ok t
    | none => .fail .instantUnreadable
  | _ => .fail .instantExpected

def choice (ofText? : String → Option α) : Reader α
  | .text s => match ofText? s with
    | some a => .ok a
    | none => .fail .choiceExpected
  | _ => .fail .choiceExpected

def object : Reader Fields
  | .object fields => .ok fields
  | _ => .fail .objectExpected

def optional (read : Reader α) : Reader (Option α)
  | .null => .ok none
  | v => (read v).map some

def itemsFrom (read : Reader α) (i : Nat) : List Value → Checked (List α)
  | [] => .ok []
  | v :: vs => List.cons <$> (read v).within (.index i) <*> itemsFrom read (i + 1) vs

def list (read : Reader α) : Reader (List α)
  | .list items => itemsFrom read 0 items
  | _ => .fail .listExpected

def required (fields : Fields) (key : String) (read : Reader α) : Checked α :=
  (match fields.get? key with
    | some v => read v
    | none => .fail .missing).within (.key key)

def withDefault (fields : Fields) (key : String) (default : α) (read : Reader α) : Checked α :=
  match fields.get? key with
  | some v => (read v).within (.key key)
  | none => .ok default

def record (read : Fields → Checked α) : Reader α
  | .object fields => read fields
  | _ => .fail .recordExpected

end FunnelFlow.Coerce
