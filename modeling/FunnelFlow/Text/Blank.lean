/-!
Blank characters. The readers of this library trim three different sets, so each is named.
-/

namespace FunnelFlow.Text

/-- The blanks of ASCII: tab to carriage return, and the space. -/
def isAsciiBlank (c : Char) : Bool :=
  ('\t' ≤ c && c ≤ '\r') || c == ' '

/-- The White_Space property of Unicode. -/
def isWhiteSpace (c : Char) : Bool :=
  isAsciiBlank c || c == '\x85' || c == '\xa0' || c == '\u1680' ||
    ('\u2000' ≤ c && c ≤ '\u200a') || c == '\u2028' || c == '\u2029' || c == '\u202f' ||
    c == '\u205f' || c == '\u3000'

/-- White space and the four information separators: what makes a required field count as empty. -/
def isBlank (c : Char) : Bool :=
  isWhiteSpace c || ('\x1c' ≤ c && c ≤ '\x1f')

def trim (blank : Char → Bool) (cs : List Char) : List Char :=
  ((cs.dropWhile blank).reverse.dropWhile blank).reverse

def allBlank (s : String) : Bool := s.toList.all isBlank

end FunnelFlow.Text
