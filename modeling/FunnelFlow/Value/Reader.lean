import FunnelFlow.Number.Reader
import FunnelFlow.Text.Encoding
import FunnelFlow.Value.Basic

/-!
Reads JSON text. The words `NaN`, `Infinity` and `-Infinity` are numbers too; of a repeated key the
last value counts. A refusal names its cause and the place in the text. Integers have a most number
of digits, and lists and objects may not be nested too deep.
-/

namespace FunnelFlow.Json

inductive Cause where
  | expectingValue
  | expectingName
  | expectingColon
  | expectingComma
  | unterminatedString
  | controlCharacter
  | badEscape
  | badUnicodeEscape
  | extraData
  deriving DecidableEq, Repr

def Cause.message : Cause → String
  | .expectingValue => "Expecting value"
  | .expectingName => "Expecting property name enclosed in double quotes"
  | .expectingColon => "Expecting ':' delimiter"
  | .expectingComma => "Expecting ',' delimiter"
  | .unterminatedString => "Unterminated string starting at"
  | .controlCharacter => "Invalid control character at"
  | .badEscape => "Invalid \\escape"
  | .badUnicodeEscape => "Invalid \\uXXXX escape"
  | .extraData => "Extra data"

inductive Limit where
  /-- An integer has more digits than it may have. -/
  | digits (count : Nat)
  /-- A list is nested too deep. -/
  | list
  /-- An object is nested too deep. -/
  | object
  deriving DecidableEq, Repr

def Limit.message : Limit → String
  | .digits count => Number.digitsComplaint count
  | .list => "maximum recursion depth exceeded while decoding a JSON array from a unicode string"
  | .object => "maximum recursion depth exceeded while decoding a JSON object from a unicode string"

/-- Why a text is not read: it is no JSON, for a cause and with the characters left at that place, or
it goes over a bound. -/
inductive Stop where
  | wrong (cause : Cause) (rest : List Char)
  | over (limit : Limit)

abbrev Parsed (α : Type) := Except Stop (α × List Char)

def isSpace (c : Char) : Bool := c == ' ' || c == '\t' || c == '\n' || c == '\r'

def skipSpaces (cs : List Char) : List Char := cs.dropWhile isSpace

def hex4? (a b c d : Char) : Option Nat := do
  let a ← Text.hexDigit? a
  let b ← Text.hexDigit? b
  let c ← Text.hexDigit? c
  let d ← Text.hexDigit? d
  some (((a * 16 + b) * 16 + c) * 16 + d)

def simpleEscape? : Char → Option Char
  | '"' => some '"'
  | '\\' => some '\\'
  | '/' => some '/'
  | 'b' => some '\x08'
  | 'f' => some '\x0c'
  | 'n' => some '\n'
  | 'r' => some '\r'
  | 't' => some '\t'
  | _ => none

/-- Reads a string to its closing quote, after the codes in `acc`, the last of them first. `start`
are the characters from the opening quote on. -/
def readString (start : List Char) (acc : List Nat) : List Char → Parsed String
  | [] => .error (.wrong .unterminatedString start)
  | '"' :: rest => .ok (String.ofList (Text.joinHalves acc.reverse), rest)
  | '\\' :: 'u' :: a :: b :: c :: d :: rest =>
    match hex4? a b c d with
    | some code =>
      if rest.isEmpty then .error (.wrong .badUnicodeEscape ('u' :: a :: b :: c :: d :: rest))
      else readString start (code :: acc) rest
    | none => .error (.wrong .badUnicodeEscape ('u' :: a :: b :: c :: d :: rest))
  | '\\' :: 'u' :: rest => .error (.wrong .badUnicodeEscape ('u' :: rest))
  | '\\' :: c :: rest =>
    match simpleEscape? c with
    | some e => readString start (e.toNat :: acc) rest
    | none => .error (.wrong .badEscape ('\\' :: c :: rest))
  | ['\\'] => .error (.wrong .unterminatedString start)
  | c :: rest =>
    if c.toNat < 0x20 then .error (.wrong .controlCharacter (c :: rest))
    else readString start (c.toNat :: acc) rest

structure NumberParts where
  whole : List Char
  fraction : Option (List Char)
  exponent : Option Int
  rest : List Char

def takeFraction (cs : List Char) : Option (List Char) × List Char :=
  match cs with
  | '.' :: rest =>
    let ds := rest.takeWhile Number.isAsciiDigit
    if ds.isEmpty then (none, cs) else (some ds, rest.drop ds.length)
  | _ => (none, cs)

def takeExponent (cs : List Char) : Option Int × List Char :=
  match cs with
  | c :: rest =>
    if c = 'e' ∨ c = 'E' then
      let (negative, more) := Number.splitSign rest
      let ds := more.takeWhile Number.isAsciiDigit
      if ds.isEmpty then (none, cs)
      else
        let n : Int := Number.digitsToNat ds
        (some (if negative then -n else n), more.drop ds.length)
    else (none, cs)
  | [] => (none, cs)

/-- Splits off a number without sign. A zero ends the digits before the point. -/
def takeNumber? (cs : List Char) : Option NumberParts :=
  let whole := match cs with
    | '0' :: _ => ['0']
    | _ => cs.takeWhile Number.isAsciiDigit
  if whole.isEmpty then none
  else
    let (fraction, rest) := takeFraction (cs.drop whole.length)
    let (exponent, rest) := takeExponent rest
    some ⟨whole, fraction, exponent, rest⟩

def NumberParts.isWhole (parts : NumberParts) : Bool :=
  parts.fraction.isNone && parts.exponent.isNone

def NumberParts.toValue (negative : Bool) (parts : NumberParts) : Value :=
  if parts.isWhole then
    let n : Int := Number.digitsToNat parts.whole
    .int (if negative then -n else n)
  else
    let fraction := parts.fraction.getD []
    .float (.ofDecimal negative (Number.digitsToNat (parts.whole ++ fraction))
      (parts.exponent.getD 0 - fraction.length))

def readNumber (cs : List Char) : Parsed Value :=
  let (negative, body) := match cs with
    | '-' :: rest => (true, rest)
    | _ => (false, cs)
  match takeNumber? body with
  | some parts =>
    if parts.isWhole && Number.mostDigits < parts.whole.length then
      .error (.over (.digits parts.whole.length))
    else .ok (parts.toValue negative, parts.rest)
  | none => .error (.wrong .expectingValue cs)

def words : List (List Char × Value) := [
  ("null".toList, .null), ("true".toList, .bool true), ("false".toList, .bool false),
  ("NaN".toList, .float .nan), ("Infinity".toList, .float (.infinite false)),
  ("-Infinity".toList, .float (.infinite true))]

def readWord? (cs : List Char) : Option (Value × List Char) :=
  (words.find? fun w => w.1.isPrefixOf cs).map fun w => (w.2, cs.drop w.1.length)

mutual

/-- Reads one value, in which lists and objects are nested to some depth at most. The fuel bounds the
number of nested and following parts. -/
def readValue : (fuel depth : Nat) → List Char → Parsed Value
  | 0, _, cs => .error (.wrong .expectingValue cs)
  | fuel + 1, depth, cs =>
    match cs with
    | '"' :: rest => (readString cs [] rest).map fun (s, r) => (.text s, r)
    | '[' :: rest =>
      match depth with
      | 0 => .error (.over .list)
      | depth + 1 => match skipSpaces rest with
        | ']' :: after => .ok (.list [], after)
        | inside => (readItems fuel depth inside).map fun (items, r) => (.list items, r)
    | '\x7b' :: rest =>
      match depth with
      | 0 => .error (.over .object)
      | depth + 1 => match skipSpaces rest with
        | '\x7d' :: after => .ok (.object [], after)
        | inside => (readFields fuel depth [] inside).map fun (fields, r) => (.object fields, r)
    | _ =>
      match readWord? cs with
      | some word => .ok word
      | none => readNumber cs

def readItems : (fuel depth : Nat) → List Char → Except Stop (List Value × List Char)
  | 0, _, cs => .error (.wrong .expectingValue cs)
  | fuel + 1, depth, cs => do
    let (v, rest) ← readValue fuel depth cs
    match skipSpaces rest with
    | ']' :: after => .ok ([v], after)
    | ',' :: more =>
      let (vs, after) ← readItems fuel depth (skipSpaces more)
      .ok (v :: vs, after)
    | stop => .error (.wrong .expectingComma stop)

def readFields : (fuel depth : Nat) → Fields → List Char → Except Stop (Fields × List Char)
  | 0, _, _, cs => .error (.wrong .expectingName cs)
  | fuel + 1, depth, fields, cs =>
    match cs with
    | '"' :: rest => do
      let (key, rest) ← readString cs [] rest
      match skipSpaces rest with
      | ':' :: more =>
        let (v, rest) ← readValue fuel depth (skipSpaces more)
        let fields := fields.set key v
        match skipSpaces rest with
        | '\x7d' :: after => .ok (fields, after)
        | ',' :: more => readFields fuel depth fields (skipSpaces more)
        | stop => .error (.wrong .expectingComma stop)
      | stop => .error (.wrong .expectingColon stop)
    | _ => .error (.wrong .expectingName cs)

end

/-- Why and where a text is not JSON: the place is the number of characters before it. -/
structure Refusal where
  cause : Cause
  line : Nat
  column : Nat
  position : Nat
  deriving DecidableEq, Repr

def Refusal.message (r : Refusal) : String :=
  r.cause.message ++ ": line " ++ toString r.line ++ " column " ++ toString r.column ++
    " (char " ++ toString r.position ++ ")"

inductive Failure where
  | refused (refusal : Refusal)
  | over (limit : Limit)
  | undecodable (bytes : Text.Undecodable)
  deriving DecidableEq, Repr

def Failure.message : Failure → String
  | .refused refusal => refusal.message
  | .over limit => limit.message
  | .undecodable bytes => bytes.message

def Stop.locate (text : List Char) : Stop → Failure
  | .over limit => .over limit
  | .wrong cause rest =>
    let position := text.length - rest.length
    let before := text.take position
    let sinceLine := before.reverse.takeWhile (· != '\n')
    .refused ⟨cause, before.count '\n' + 1, sinceLine.length + 1, position⟩

def readText (depth : Nat) (text : List Char) : Except Failure Value :=
  match readValue (2 * text.length + 3) depth (skipSpaces text) with
  | .error stop => .error (stop.locate text)
  | .ok (v, rest) =>
    match skipSpaces rest with
    | [] => .ok v
    | stop => .error (Stop.locate text (.wrong .extraData stop))

def deepest : Nat := 950

/-- Reads what a peer sends. Its bytes are UTF-8, with a byte order mark in front or not, unless
zeros among the first of them show wider units. -/
def read (s : String) : Except Failure Value :=
  let cs := s.toList
  match Text.WideEncoding.detect? ((cs.take 4).flatMap Text.utf8Bytes) with
  | none => readText deepest (if cs.head? = some '\ufeff' then cs.tail else cs)
  | some encoding => match encoding.decode (cs.flatMap Text.utf8Bytes) with
    | .ok text => readText deepest text
    | .error bytes => .error (.undecodable bytes)

end FunnelFlow.Json
