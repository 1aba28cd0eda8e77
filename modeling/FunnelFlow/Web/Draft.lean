import FunnelFlow.Value.Display
import FunnelFlow.Value.Printer
import FunnelFlow.Web.Exchange

namespace FunnelFlow.Web

structure Draft where
  method : String
  address : String
  headers : Fields
  parameters? : Option Fields
  /-- The document to send; null stands for none. -/
  document : Value
  /-- What is sent when there is no document. -/
  text : String

namespace Draft

def asciiText (s : String) : Except Fault String :=
  if s.toList.all Text.isAscii then .ok s else .error (.notAscii s)

def header (name : String) (v : Value) : Except Fault (String × String) := do
  let name ← asciiText name
  match v with
  | .text s => return (name, ← asciiText s)
  | v => throw (.headerNotText v.kindName)

def parameterText : Value → String
  | .null => ""
  | .bool b => if b then "true" else "false"
  | v => v.display

def parameterTexts : Value → List String
  | .list items => items.map parameterText
  | v => [parameterText v]

def query (parameters : Fields) : Table String :=
  Table.setAll [] <| parameters.flatMap fun (name, v) => (parameterTexts v).map ((name, ·))

/-- The body and the headers that go with it. A document is declared as JSON unless the headers say
something else. -/
def body (d : Draft) (headers : Table String) : Except Fault (String × Table String) :=
  match d.document with
  | .null => .ok (d.text, headers)
  | document =>
    if let some e := Json.obstacle? document then .error e
    else if headers.any fun (name, _) => name.toLower == "content-type" then
      .ok (Json.print document, headers)
    else .ok (Json.print document, headers ++ [("content-type", "application/json")])

def request (d : Draft) : Except Fault Incoming := do
  let target ← Exchange.Target.read d.address
  let headers ← d.headers.mapM fun (name, v) => header name v
  let (body, headers) ← d.body headers
  let target := match d.parameters? with
    | some parameters => { target with query := query parameters }
    | none => target
  return { method := d.method.toUpper, target, headers, body }

end Draft

end FunnelFlow.Web
