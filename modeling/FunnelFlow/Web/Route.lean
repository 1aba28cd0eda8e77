namespace FunnelFlow.Web

inductive Route where
  | saveFunnel
  | validateFunnel
  | listFunnels
  | funnelDetail (id : String)
  | deleteFunnel (id : String)
  | funnelStatus (id : String)
  | lockFunnel (id : String)
  | unlockFunnel (id : String)
  | postFunnel
  | event
  | eventHealth
  | runDetail (id : String)
  | listRuns
  | executeRun (id : String)
  | cancelRun (id : String)
  | health
  /-- The pages that describe the service. -/
  | manual
  deriving DecidableEq, Repr

namespace Route

def fixed? : List String → Option Route
  | ["funnel", "save"] => some .saveFunnel
  | ["funnel", "validate"] => some .validateFunnel
  | ["funnel", "list"] => some .listFunnels
  | ["funnel", "default", "post-update"] => some .postFunnel
  | ["trigger", "event"] => some .event
  | ["trigger", "health"] => some .eventHealth
  | ["run", "list"] => some .listRuns
  | ["health"] => some .health
  | ["docs"] | ["docs", "oauth2-redirect"] | ["redoc"] | ["openapi.json"] => some .manual
  | _ => none

def withId? : List String → Option Route
  | [_, _, ""] => none
  | ["funnel", "detail", id] => some (.funnelDetail id)
  | ["funnel", "delete", id] => some (.deleteFunnel id)
  | ["funnel", "status", id] => some (.funnelStatus id)
  | ["funnel", "lock", id] => some (.lockFunnel id)
  | ["funnel", "unlock", id] => some (.unlockFunnel id)
  | ["run", "detail", id] => some (.runDetail id)
  | ["run", "execute", id] => some (.executeRun id)
  | ["run", "cancel", id] => some (.cancelRun id)
  | _ => none

def withoutFinalNewline : List String → List String
  | [] => []
  | [last] => match last.toList.reverse with
    | '\n' :: rest => [String.ofList rest.reverse]
    | _ => [last]
  | segment :: path => segment :: withoutFinalNewline path

/-- The route of a path, if there is one. A line feed at the end of a path is passed over, unless it
belongs to an id. -/
def ofPath? (path : List String) : Option Route :=
  (fixed? (withoutFinalNewline path)).orElse fun _ => withId? path

def method : Route → String
  | .listFunnels | .funnelDetail _ | .eventHealth | .runDetail _ | .listRuns | .health
  | .manual => "GET"
  | .deleteFunnel _ => "DELETE"
  | _ => "POST"

/-- Whether a route takes a method. What the manual shows can also be asked about without being
sent. -/
def takes (r : Route) (method : String) : Bool :=
  method == r.method || r == .manual && method == "HEAD"

/-- The path with a slash more at its end, or without the slashes there. -/
def otherEnding (path : List String) : List String :=
  match path.reverse with
  | "" :: rest => (rest.dropWhile (· == "")).reverse
  | _ => path ++ [""]

end Route

end FunnelFlow.Web
