import FunnelFlow.Text.Percent
import FunnelFlow.Value.Basic
import FunnelFlow.Web.Address

namespace FunnelFlow.Web

structure Exchange.Target where
  /-- The decoded segments of the path, the empty one before the first slash left out. -/
  path : List String
  query : Table String
  deriving DecidableEq, Repr

/-- A request. Its header names may be written in any case. -/
structure Incoming where
  method : String
  target : Exchange.Target
  headers : Table String
  body : String
  deriving DecidableEq, Repr

inductive Content where
  | json (v : Value)
  | plain (s : String)
  deriving Repr

structure Response where
  status : Nat
  content : Content
  deriving Repr

def Incoming.header? (r : Incoming) (name : String) : Option String :=
  (r.headers.find? fun (key, _) => key.toLower == name).map (·.2)

namespace Exchange

def queryText (cs : List Char) : String :=
  String.ofList (Text.percentDecode (cs.map fun c => if c = '+' then ' ' else c))

/-- The parameters of a query; of a repeated one the last counts. -/
def readQuery (cs : List Char) : Table String :=
  let parts := (Address.splitOn '&' cs).filter (!·.isEmpty)
  Table.setAll [] <| parts.map fun part =>
    let (name, value) := Address.splitAt '=' part
    (queryText name, queryText (value.getD []))

def readPath (cs : List Char) : List String :=
  ((Address.splitOn '/' (Text.percentDecode cs)).map String.ofList).drop 1

def rooted (path : List Char) : List Char := '/' :: path.dropWhile (· == '/')

def Target.read (written : String) : Except Fault Target := do
  let (_, rest) := Address.splitOrigin (← Address.chars written)
  let (beforeFragment, _) := Address.splitAt '#' rest
  let (path, query) := Address.splitAt '?' beforeFragment
  return ⟨readPath (Address.normalPath (rooted path)), readQuery (query.getD [])⟩

end Exchange

end FunnelFlow.Web
