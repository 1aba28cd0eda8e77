import FunnelFlow.Fault
import FunnelFlow.Text.Percent
import FunnelFlow.Text.Quoted

/-!
Addresses of peers. A written address is split into path, query and fragment; segments that name
the place itself or its parent are resolved, and characters that may not stand in a part are
percent-encoded. A percent sign stands for itself.
-/

namespace FunnelFlow.Address

def longest : Nat := 65536

def isGraphic (c : Char) : Bool := '!' ≤ c && c ≤ '~'

def isFragmentSafe (c : Char) : Bool := isGraphic c && !(['"', '<', '>', '\x60'].contains c)

def isQuerySafe (c : Char) : Bool := isGraphic c && !(['"', '#', '<', '>'].contains c)

def isPathSafe (c : Char) : Bool :=
  isQuerySafe c && !(['?', '\x60', '\x7b', '\x7d'].contains c)

def splitOn (mark : Char) (cs : List Char) : List (List Char) :=
  cs.foldr (fun c parts => match parts with
    | part :: rest => if c = mark then [] :: part :: rest else (c :: part) :: rest
    | [] => [[c]]) [[]]

def joinSegments : List (List Char) → List Char
  | [] => []
  | [part] => part
  | part :: rest => part ++ '/' :: joinSegments rest

/-- Resolves the segments, those kept so far given last first. The first segment stays. -/
def resolveSegments (kept : List (List Char)) : List (List Char) → List (List Char)
  | [] => kept.reverse
  | part :: rest =>
    if part = ['.'] then resolveSegments kept rest
    else if part = ['.', '.'] then
      resolveSegments (if kept.isEmpty || kept == [[]] then kept else kept.tail) rest
    else resolveSegments (part :: kept) rest

def normalPath (path : List Char) : List Char :=
  Text.percentEncode isPathSafe (joinSegments (resolveSegments [] (splitOn '/' path)))

/-- A part of an address that a mark introduces: the characters before the mark, and those after
it if it occurs. -/
def splitAt (mark : Char) (cs : List Char) : List Char × Option (List Char) :=
  match cs.dropWhile (· != mark) with
  | [] => (cs, none)
  | _ :: rest => (cs.takeWhile (· != mark), some rest)

def normalRest (cs : List Char) : List Char :=
  let (beforeFragment, fragment) := splitAt '#' cs
  let (path, query) := splitAt '?' beforeFragment
  let written (mark : Char) (safe : Char → Bool) (part : Option (List Char)) : List Char :=
    match part with
    | some part => mark :: Text.percentEncode safe part
    | none => []
  normalPath path ++ written '?' isQuerySafe query ++ written '#' isFragmentSafe fragment

def isScheme (cs : List Char) : Bool :=
  cs.isEmpty || cs.getLast? == some ':' && cs.dropLast.all Char.isAlphanum

def splitOrigin (cs : List Char) : List Char × List Char :=
  let scheme := cs.takeWhile (· != '/')
  match isScheme scheme, cs.dropWhile (· != '/') with
  | true, '/' :: '/' :: rest =>
    let isHost (c : Char) : Bool := c != '/' && c != '?' && c != '#'
    (scheme ++ '/' :: '/' :: rest.takeWhile isHost, rest.dropWhile isHost)
  | _, _ => ([], cs)

def chars (s : String) : Except Fault (List Char) :=
  let cs := s.toList
  let isControl (c : Char) : Bool := c.toNat < 32 || c.toNat == 127
  if longest < cs.length then .error (.badAddress "URL too long")
  else match cs.find? isControl with
    | some c => .error <| .badAddress <|
        "Invalid non-printable ASCII character in URL, " ++ Text.quoted (String.singleton c) ++
          " at position " ++ toString (cs.takeWhile (!isControl ·)).length ++ "."
    | none => .ok cs

def normal (s : String) : Except Fault String := do
  let (origin, rest) := splitOrigin (← chars s)
  return String.ofList (origin ++ normalRest rest)

end FunnelFlow.Address
