import FunnelFlow.Value.Basic

namespace FunnelFlow.Journal

inductive Level where
  | debug
  | info
  | warning
  | error
  deriving DecidableEq, Repr

namespace Level

def name : Level → String
  | .debug => "DEBUG"
  | .info => "INFO"
  | .warning => "WARNING"
  | .error => "ERROR"

def ofName? : String → Option Level
  | "debug" => some .debug
  | "info" => some .info
  | "warning" => some .warning
  | "error" => some .error
  | _ => none

end Level

structure Entry where
  level : Level
  message : String
  tags : Fields
  deriving Repr

def entry (level : Level) (service message : String) : Entry :=
  ⟨level, message, [("service_name", .text service)]⟩

def Entry.isWritten (e : Entry) : Bool := e.level != .debug

inductive Sink where
  /-- The collector, and the tags that every entry gets there. -/
  | collector (tags : Fields)
  | console
  deriving Repr

def sinks (name : String) (environment : Table String) : List Sink :=
  let collector := if (environment.get? "LOKI_URL").getD "" = "" then [] else
    [.collector [("application", .text name),
      ("environment", .text ((environment.get? "APP_ENV").getD "production")),
      ("org_id", .text ((environment.get? "ORG_ID").getD "Funnels"))]]
  collector ++ [.console]

def isCollected (tags : Option Fields) : Bool :=
  (tags.getD []).all fun (_, v) => !(v.isNull || v == .text "")

end FunnelFlow.Journal
