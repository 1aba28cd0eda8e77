import FunnelFlow.Text.Digit

/-!
Texts as bytes. UTF-8 is written, and read with a replacement for whatever is none. The encodings
with wider units are recognised by the zeros among the first bytes, and refuse what they cannot
read, with its place. What cannot be written in ASCII is refused with its place too.
-/

namespace FunnelFlow.Text

def utf8Bytes (c : Char) : List Nat :=
  let n := c.toNat
  if n < 0x80 then [n]
  else if n < 0x800 then [0xc0 + n / 0x40, 0x80 + n % 0x40]
  else if n < 0x10000 then [0xe0 + n / 0x1000, 0x80 + n / 0x40 % 0x40, 0x80 + n % 0x40]
  else [0xf0 + n / 0x40000, 0x80 + n / 0x1000 % 0x40, 0x80 + n / 0x40 % 0x40, 0x80 + n % 0x40]

/-- What a leading byte of UTF-8 says: its own bits, the number of bytes that follow, and the range
of the first of them. -/
structure Leading where
  bits : Nat
  following : Nat
  low : Nat
  high : Nat

def Leading.ofByte? (b : Nat) : Option Leading :=
  if 0xc2 ≤ b ∧ b < 0xe0 then some ⟨b - 0xc0, 1, 0x80, 0xbf⟩
  else if b = 0xe0 then some ⟨0, 2, 0xa0, 0xbf⟩
  else if b = 0xed then some ⟨0xd, 2, 0x80, 0x9f⟩
  else if 0xe0 < b ∧ b < 0xf0 then some ⟨b - 0xe0, 2, 0x80, 0xbf⟩
  else if b = 0xf0 then some ⟨0, 3, 0x90, 0xbf⟩
  else if 0xf0 < b ∧ b < 0xf4 then some ⟨b - 0xf0, 3, 0x80, 0xbf⟩
  else if b = 0xf4 then some ⟨4, 3, 0x80, 0x8f⟩
  else none

/-- Reads the bytes that follow a leading one, the first of them in a range, as far as they are
there. -/
def takeFollowing (bits low high : Nat) : (count : Nat) → List Nat → Option Nat × List Nat
  | 0, rest => (some bits, rest)
  | _ + 1, [] => (none, [])
  | count + 1, b :: rest =>
    if low ≤ b ∧ b ≤ high then takeFollowing (bits * 0x40 + (b - 0x80)) 0x80 0xbf count rest
    else (none, b :: rest)

/-- The character that bytes of UTF-8 start with, and the bytes after it. A beginning of a character
that does not go on is replaced as a whole. -/
def decodeChar (b : Nat) (rest : List Nat) : Char × List Nat :=
  if b < 0x80 then (Char.ofNat b, rest)
  else match Leading.ofByte? b with
    | none => ('\ufffd', rest)
    | some l => match takeFollowing l.bits l.low l.high l.following rest with
      | (some code, after) => (Char.ofNat code, after)
      | (none, after) => ('\ufffd', after)

def decodeChars : (bound : Nat) → List Nat → List Char
  | 0, _ | _, [] => []
  | bound + 1, b :: rest =>
    let (c, rest) := decodeChar b rest
    c :: decodeChars bound rest

def decodeUtf8 (bytes : List Nat) : List Char := decodeChars bytes.length bytes

/-- The characters of a list of codes. Two halves of a character that follow each other are
joined; a half that stands alone has no character of its own. -/
def joinHalves : List Nat → List Char
  | [] => []
  | high :: low :: rest =>
    if 0xd800 ≤ high ∧ high < 0xdc00 ∧ 0xdc00 ≤ low ∧ low < 0xe000 then
      Char.ofNat (0x10000 + (high - 0xd800) * 0x400 + (low - 0xdc00)) :: joinHalves rest
    else if 0xd800 ≤ high ∧ high < 0xe000 then '\ufffd' :: joinHalves (low :: rest)
    else Char.ofNat high :: joinHalves (low :: rest)
  | [n] => [if 0xd800 ≤ n ∧ n < 0xe000 then '\ufffd' else Char.ofNat n]

structure WideEncoding where
  isLong : Bool
  isBigEndian : Bool
  deriving DecidableEq, Repr

inductive Undecodability where
  | truncated
  | outsideUnicode
  deriving DecidableEq, Repr

def Undecodability.message : Undecodability → String
  | .truncated => "truncated data"
  | .outsideUnicode => "code point not in range(0x110000)"

structure Undecodable where
  encoding : WideEncoding
  position : Nat
  bytes : List Nat
  reason : Undecodability
  deriving DecidableEq, Repr

namespace WideEncoding

def name (e : WideEncoding) : String :=
  (if e.isLong then "utf-32-" else "utf-16-") ++ if e.isBigEndian then "be" else "le"

/-- The encoding of bytes whose first character is an ASCII one; none if its units are single
bytes. -/
def detect? : List Nat → Option WideEncoding
  | [a, b] => if a = 0 then some ⟨false, true⟩ else if b = 0 then some ⟨false, false⟩ else none
  | a :: b :: c :: d :: _ =>
    if a = 0 then some ⟨b == 0, true⟩
    else if b = 0 then some ⟨c == 0 && d == 0, false⟩
    else none
  | _ => none

def unit (e : WideEncoding) (bytes : List Nat) : Nat :=
  (if e.isBigEndian then bytes else bytes.reverse).foldl (fun n b => 0x100 * n + b) 0

def shortCodes (e : WideEncoding) (position : Nat) : List Nat → Except Undecodable (List Nat)
  | [] => .ok []
  | a :: b :: rest => (e.shortCodes (position + 2) rest).map (e.unit [a, b] :: ·)
  | rest => .error ⟨e, position, rest, .truncated⟩

def longCodes (e : WideEncoding) (position : Nat) : List Nat → Except Undecodable (List Nat)
  | [] => .ok []
  | a :: b :: c :: d :: rest =>
    let code := e.unit [a, b, c, d]
    if code < 0x110000 then (e.longCodes (position + 4) rest).map (code :: ·)
    else .error ⟨e, position, [a, b, c, d], .outsideUnicode⟩
  | rest => .error ⟨e, position, rest, .truncated⟩

def decode (e : WideEncoding) (bytes : List Nat) : Except Undecodable (List Char) :=
  (if e.isLong then e.longCodes 0 bytes else e.shortCodes 0 bytes).map joinHalves

end WideEncoding

def Undecodable.message (u : Undecodable) : String :=
  let place := match u.bytes with
    | [b] => "byte 0x" ++ String.ofList (hexPadded 2 b) ++ " in position " ++ toString u.position
    | bytes => "bytes in position " ++ toString u.position ++ "-" ++
        toString (u.position + bytes.length - 1)
  "'" ++ u.encoding.name ++ "' codec can't decode " ++ place ++ ": " ++ u.reason.message

def isAscii (c : Char) : Bool := c.toNat < 0x80

def outsideAscii (cs : List Char) : List Char :=
  (cs.dropWhile isAscii).takeWhile (!isAscii ·)

def asciiComplaint (s : String) : String :=
  let position := (s.toList.takeWhile isAscii).length
  let place := match outsideAscii s.toList with
    | [c] => "character '" ++ String.ofList (charEscape c) ++ "' in position " ++ toString position
    | cs => "characters in position " ++ toString position ++ "-" ++
        toString (position + cs.length - 1)
  "'ascii' codec can't encode " ++ place ++ ": ordinal not in range(128)"

end FunnelFlow.Text
