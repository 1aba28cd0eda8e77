import FunnelFlow.Service.Editing
import FunnelFlow.Service.Event
import FunnelFlow.Service.Execution
import FunnelFlow.Value.Printer
import FunnelFlow.Web.Exchange
import FunnelFlow.Web.Route

/-!
The service on the web. A request is first matched to its route, then its body and parameters are
checked, then the operation is carried out; the answer is what it gives, or a refusal with its
status.
-/

namespace FunnelFlow.Web

/-- The service behind the routes: how runs are executed, and whether runs that events start are
handed over for execution. -/
structure Service where
  execution : Execution
  executed : Bool
  deriving Repr

namespace Response

def json (status : Nat) (v : Value) : Response := ⟨status, .json v⟩

def turnedAway (status : Nat) (detail : String) : Response :=
  json status (.object [("detail", .text detail)])

def issue (i : Issue) : Value :=
  .object [("loc", .list (i.place.map fun
    | .key name => .text name
    | .index n => .int n)), ("type", .text i.kind.name)]

def malformed (issues : List Issue) : Response :=
  json 422 (.object [("detail", .list (issues.map issue))])

def refused (status : Nat) (detail : String) : Response :=
  json status <| .object [("detail", .text detail),
    ("error", .text (toString status ++ ": " ++ detail)), ("status_code", .int status)]

def violation (v : Violation) : Value :=
  .object [("nodeId", .ofText? v.nodeId?), ("kind", .text v.kind.name), ("message", .text v.message)]

def violated (status : Nat) (message : String) (violations : List Violation) : Response :=
  json status <| .object [
    ("detail", .object [("message", .text message),
      ("violations", .list (violations.map violation))]),
    ("status_code", .int status)]

def broken (e : Fault) : Response :=
  json 500 <| .object [("detail", .text "Internal server error"), ("error", .text e.message),
    ("status_code", .int 500)]

def ofFault (e : Fault) : Response :=
  match e.status? with
  | none => broken e
  | some status => match e.violations? with
    | some (v :: vs) => violated status e.message (v :: vs)
    | _ => refused status e.message

/-- The answer that a document is; one that has no strict JSON form is a fault. -/
def ofDocument (v : Value) : Response :=
  match Json.obstacle? v with
  | none => json 200 (v.withoutInstants Instant.text)
  | some e => broken e

/-- The answer of a declared form, in which null stands for numbers without a strict JSON form. -/
def ofForm (v : Value) : Response := json 200 ((Json.strict v).withoutInstants Instant.zuluText)

def mostLevels : Nat := 255

def ofRuns (runs : List Run) (v : Value) : Response :=
  if runs.all fun r => r.payload.all fun (_, part) => part.height ≤ mostLevels then ofForm v
  else broken .tooDeepToWrite

def ofActivity {α : Type} (act : Activity α) (onFault : Fault → Response) (onResult : α → Response) :
    Activity Response := do
  match ← act.attempt with
  | .ok a => return onResult a
  | .error e => return onFault e

end Response

namespace Incoming

def declaresJson (r : Incoming) : Bool :=
  let written := (r.header? "content-type").getD ""
  let type := (Address.splitAt ';' written.toLower.toList).1
  match Address.splitOn '/' (Text.trim Text.isBlank type) with
  | [main, sub] => main == "application".toList &&
    (sub == "json".toList || "+json".toList.isSuffixOf sub)
  | _ => false

/-- A part of a request, or the answer to a request in which it is not as it should be. -/
abbrev Part (α : Type) := Except Response α

def Part.ofChecked {α : Type} : Checked α → Part α
  | .ok a => .ok a
  | .bad issues => .error (.malformed issues)

def Part.misplaced {α : Type} (place : List Place) (kind : IssueKind) : Part α :=
  .error (.malformed [⟨place, kind⟩])

def readBody (r : Incoming) : Part Value :=
  if r.body.isEmpty then .misplaced [.key "body"] .missing
  else if !r.declaresJson then .ok (.text r.body)
  else match Json.read r.body with
    | .ok v => .ok v
    | .error (.refused refusal) =>
      .misplaced [.key "body", .index refusal.position] .jsonUnreadable
    | .error _ => .error (.turnedAway 400 "There was an error parsing the body")

def document (r : Incoming) : Part Value := do
  match ← r.readBody with
  | .object fields => .ok (.object fields)
  | _ => .misplaced [.key "body"] .objectExpected

def record {α : Type} (r : Incoming) (read : Fields → Checked α) : Part α := do
  match ← r.readBody with
  | .object fields => .ofChecked ((read fields).within (.key "body"))
  | _ => .misplaced [.key "body"] .variantExpected

def runFilter (r : Incoming) : Part RunFilter :=
  let query := r.target.query
  match query.get? "status" with
  | none => .ok ⟨query.get? "funnelId", query.get? "contactId", none⟩
  | some name => match RunStatus.ofName? name with
    | some status => .ok ⟨query.get? "funnelId", query.get? "contactId", some status.name⟩
    | none => .misplaced [.key "query", .key "status"] .choiceExpected

end Incoming

namespace Service

def checked {α : Type} (part : Incoming.Part α) (next : α → Activity Response) :
    Activity Response :=
  match part with
  | .ok a => next a
  | .error response => return response

/-- Goes on for an editor, whom the request has to name. -/
def asEditor (r : Incoming) (next : String → Activity Response) : Activity Response :=
  match r.header? "x-user-id" with
  | some editor => next editor
  | none => return .refused 401 "Unauthorized"

/-- Saving and listing report every fault as their own. -/
def reported (e : Fault) : Response :=
  if e.isRefusal then .ofFault e else .refused 500 e.message

def savedFunnel (saved : Funnel × List Violation) : Response :=
  .ofForm <| .object [("funnel", .object saved.1.toDocument),
    ("valid", .bool saved.2.isEmpty), ("violations", .list (saved.2.map Response.violation))]

def funnelDocument (f : Funnel) : Response := .ofDocument (.object f.toDocument)

def runDocument (r : Run) : Response := .ofRuns [r] (.object r.toDocument)

def runDocuments (runs : List Run) : Value := .list (runs.map fun r => .object r.toDocument)

def startedRuns (e : Event) (runs : List Run) : Response :=
  let answer (status message : String) : Response :=
    .ofRuns runs <| .object [("status", .text status), ("message", .text message),
      ("runs", runDocuments runs)]
  if runs.isEmpty then answer "no_funnel" ("No active funnel for trigger " ++ e.trigger.name)
  else answer "success" s!"Started {runs.length} run(s) for contact {e.contactId}"

def texts (entries : List (String × String)) : Response :=
  .json 200 (.object (entries.map fun (k, s) => (k, .text s)))

def perform (s : Service) (r : Incoming) : Route → Activity Response
  | .saveFunnel => checked r.document fun document => asEditor r fun editor =>
    Response.ofActivity (Editing.save document editor) reported savedFunnel
  | .validateFunnel => checked r.document fun document =>
    Response.ofActivity (Editing.validate document) .ofFault savedFunnel
  | .listFunnels => asEditor r fun _ =>
    Response.ofActivity Editing.list reported fun funnels =>
      .ofDocument (.list (funnels.map fun f => .object f.toDocument))
  | .funnelDetail id => asEditor r fun _ =>
    Response.ofActivity (Editing.detail id) .ofFault funnelDocument
  | .deleteFunnel id => asEditor r fun editor =>
    Response.ofActivity (Editing.delete id editor) .ofFault fun _ =>
      texts [("status", "success"), ("message", "Funnel " ++ id ++ " deleted")]
  | .funnelStatus id =>
    checked (r.record fun fields => Coerce.required fields "isActive" Coerce.flag) fun active =>
      asEditor r fun editor =>
        Response.ofActivity (Editing.setActive id active editor) .ofFault funnelDocument
  | .lockFunnel id => asEditor r fun editor =>
    Response.ofActivity (Editing.lock id editor) .ofFault fun _ =>
      .json 200 (.object [("funnelId", .text id), ("locked", .bool true), ("holder", .text editor)])
  | .unlockFunnel id => asEditor r fun editor =>
    Response.ofActivity (Editing.unlock id editor) .ofFault fun released =>
      .json 200 (.object [("funnelId", .text id), ("locked", .bool false),
        ("released", .bool released)])
  | .postFunnel => asEditor r fun editor =>
    Response.ofActivity (Editing.ensurePostFunnel editor) .ofFault funnelDocument
  | .event => checked (r.record Event.read) fun event =>
    Response.ofActivity (event.dispatch s.executed none) .ofFault (startedRuns event)
  | .eventHealth => return texts [("status", "healthy"), ("api", "trigger_api"),
      ("service", "funnel_engine_service")]
  | .runDetail id => Response.ofActivity (Execution.get id) .ofFault runDocument
  | .listRuns => checked r.runFilter fun filter =>
    Response.ofActivity (Execution.list filter) .ofFault fun runs =>
      .ofRuns runs (runDocuments runs)
  | .executeRun id => Response.ofActivity (s.execution.execute id none) .ofFault runDocument
  | .cancelRun id => Response.ofActivity (s.execution.cancel id none) .ofFault runDocument
  | .health => return texts [("status", "healthy"), ("service", "funnel_engine_service")]
  | .manual => return ⟨200, .plain ""⟩

def sharedMethods : List String := ["DELETE", "GET", "HEAD", "OPTIONS", "PATCH", "POST", "PUT"]

/-- What a page of another origin asks for and does not get. -/
def disallowed (r : Incoming) (method : String) : List String :=
  (if sharedMethods.contains method then [] else ["method"]) ++
    if (r.header? "access-control-request-private-network").isSome then ["private-network"] else []

def preflight? (r : Incoming) : Option Response :=
  match r.header? "origin", r.header? "access-control-request-method" with
  | some _, some method =>
    if r.method ≠ "OPTIONS" then none
    else match disallowed r method with
      | [] => some ⟨200, .plain "OK"⟩
      | parts => some ⟨400, .plain ("Disallowed CORS " ++ ", ".intercalate parts)⟩
  | _, _ => none

def routed (s : Service) (r : Incoming) : Activity Response :=
  match Route.ofPath? r.target.path with
  | some route =>
    if route.takes r.method then s.perform r route
    else return .turnedAway 405 "Method Not Allowed"
  | none =>
    if (Route.ofPath? (Route.otherEnding r.target.path)).isSome then return ⟨307, .plain ""⟩
    else return .turnedAway 404 "Not Found"

/-- The answer to a request. One that asks for the head alone gets no content. -/
def answer (s : Service) (r : Incoming) : Activity Response :=
  match preflight? r with
  | some response => return response
  | none => do
    let response ← s.routed r
    return if r.method = "HEAD" then { response with content := .plain "" } else response

end Service

end FunnelFlow.Web
