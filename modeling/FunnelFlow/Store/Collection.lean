import FunnelFlow.Fault
import FunnelFlow.Value.Order

/-!
Collections of rows. A row is an object with a unique `_id`; queries look at its fields, updates
set some of them. A field that is a list is also asked about through its items.
-/

namespace FunnelFlow

inductive Query where
  /-- A field has a value; null also stands for a missing field. -/
  | is (field : String) (v : Value)
  /-- A field has an instant that is not later than another. -/
  | notAfter (field : String) (t : Instant)
  | both (a b : Query)
  | either (a b : Query)
  | anything
  deriving Repr

namespace Query

def all : List Query → Query
  | [] => .anything
  | [q] => q
  | q :: qs => .both q (all qs)

def candidates : Value → List Value
  | .list items => .list items :: items
  | v => [v]

def isNotAfter (t : Instant) : Value → Except Fault Bool
  | .instant u => if u.comparable t then .ok (u.le t) else .error .mixedZones
  | _ => .ok false

def accepts (row : Fields) : Query → Except Fault Bool
  | .is field v => .ok ((candidates (row.get field)).any (·.sameTo v))
  | .notAfter field t => (candidates (row.get field)).anyM (isNotAfter t)
  | .both a b => do if ← a.accepts row then b.accepts row else .ok false
  | .either a b => do if ← a.accepts row then .ok true else b.accepts row
  | .anything => .ok true

end Query

abbrev Collection := List Fields

namespace Collection

def idOf (row : Fields) : Value := row.get "_id"

def find (c : Collection) (q : Query) : Except Fault (List Fields) :=
  c.filterM fun row => q.accepts row

def findOne (c : Collection) (q : Query) : Except Fault (Option Fields) :=
  c.findM? fun row => q.accepts row

def hasId (c : Collection) (id : Value) : Bool := c.any fun row => (idOf row).sameTo id

def insert (c : Collection) (row : Fields) : Except Fault Collection :=
  if c.hasId (idOf row) then .error .duplicateKey else .ok (c ++ [row])

def replace (c : Collection) (row : Fields) : Collection :=
  match c with
  | [] => [row]
  | first :: rest =>
    if (idOf first).sameTo (idOf row) then row :: rest
    else first :: replace rest row

/-- Sets fields of the first row that a query accepts. Gives that row as it was, if there is
one. -/
def updateOne (c : Collection) (q : Query) (updates : Fields) :
    Except Fault (Option Fields × Collection) :=
  match c with
  | [] => .ok (none, [])
  | row :: rest => do
    if ← q.accepts row then .ok (some row, row.setAll updates :: rest)
    else
      let (found, rest) ← updateOne rest q updates
      .ok (found, row :: rest)

def deleteOne (c : Collection) (q : Query) : Except Fault (Bool × Collection) :=
  match c with
  | [] => .ok (false, [])
  | row :: rest => do
    if ← q.accepts row then .ok (true, rest)
    else
      let (found, rest) ← deleteOne rest q
      .ok (found, row :: rest)

def before (a b : Value) : Except Fault Bool :=
  if a.canOrder b then .ok (a.isBefore b) else .error .mixedZones

def insertSorted (field : String) (row : Fields) : List Fields → Except Fault (List Fields)
  | [] => .ok [row]
  | first :: rest => do
    if ← before (row.get field) (first.get field) then .ok (row :: first :: rest)
    else .ok (first :: (← insertSorted field row rest))

def sortBy (field : String) (rows : List Fields) : Except Fault (List Fields) :=
  rows.foldlM (fun sorted row => insertSorted field row sorted) []

end Collection

end FunnelFlow
