import FunnelFlow.Text.Encoding

namespace FunnelFlow.Text

def upperHexDigit (n : Nat) : Char :=
  Char.ofNat (if n < 10 then '0'.toNat + n else 'A'.toNat + n - 10)

def percentByte (b : Nat) : List Char :=
  ['%', upperHexDigit (b / 16), upperHexDigit (b % 16)]

def percentEncode (safe : Char → Bool) (cs : List Char) : List Char :=
  cs.flatMap fun c => if safe c then [c] else (utf8Bytes c).flatMap percentByte

/-- Letters, digits and the four marks that need no encoding anywhere. -/
def isUnreserved (c : Char) : Bool :=
  c.isAlphanum || c == '-' || c == '.' || c == '_' || c == '~'

/-- A credential inside a connection address: spaces become plus signs, and everything that is
not unreserved is percent-encoded. -/
def encodeCredential (s : String) : String :=
  String.ofList <|
    s.toList.flatMap fun c => if c = ' ' then ['+'] else percentEncode isUnreserved [c]

/-- The bytes that a percent-encoded text stands for. A percent sign that starts no byte stands for
itself. -/
def percentBytes : List Char → List Nat
  | '%' :: a :: b :: rest =>
    match hexDigit? a, hexDigit? b with
    | some x, some y => (16 * x + y) :: percentBytes rest
    | _, _ => '%'.toNat :: percentBytes (a :: b :: rest)
  | c :: rest => utf8Bytes c ++ percentBytes rest
  | [] => []

def percentDecode (cs : List Char) : List Char := decodeUtf8 (percentBytes cs)

end FunnelFlow.Text
