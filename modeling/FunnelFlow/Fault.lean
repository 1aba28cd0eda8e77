import FunnelFlow.Calendar.Span
import FunnelFlow.Funnel.Violation
import FunnelFlow.Value.Issue
import FunnelFlow.Value.Reader

/-!
Everything that can go wrong, by cause, and the one wording of each.

The service's own refusals carry a status for the caller. All else is a fault of the data, of the
arithmetic or of a peer; a service operation that meets one either answers with it or wraps it.
-/

namespace FunnelFlow

inductive OutageKind where
  | timeout
  | selection
  | connection
  | operation
  deriving DecidableEq, Repr

def OutageKind.name : OutageKind → String
  | .timeout => "timeout"
  | .selection => "selection"
  | .connection => "connection"
  | .operation => "operation"

inductive RequestFailure where
  | readTimeout
  | connectTimeout
  | connect
  | read
  | protocol
  deriving DecidableEq, Repr

def RequestFailure.isTimeout : RequestFailure → Bool
  | .readTimeout | .connectTimeout => true
  | _ => false

/-- What a service was doing when something unforeseen happened. -/
inductive Undertaking where
  | savingFunnel
  | listingFunnels
  | executingRun (id : String)
  | dispatchingEvent
  deriving DecidableEq, Repr

def Undertaking.name : Undertaking → String
  | .savingFunnel => "saving funnel"
  | .listingFunnels => "getting funnels list"
  | .executingRun id => "executing run " ++ id
  | .dispatchingEvent => "dispatching event"

inductive Fault where
  | funnelNotFound (id : String)
  | runNotFound (id : String)
  /-- Another editor holds the funnel; the database does not tell who. -/
  | funnelLocked (id : String) (holder : Option String)
  /-- A step of the run is in flight. -/
  | runLocked (id : String)
  /-- The run is not locked by the one who writes it. -/
  | runNotHeld (id owner : String)
  | invalidDocument (cause : Fault)
  | notActivatable (name : String) (violations : List Violation)
  | databaseUnreachable (cause : Fault)
  | databaseFailed (cause : Fault)
  | failedWhile (task : Undertaking) (cause : Fault)
  /-- A document whose parts have the wrong form. -/
  | malformed (issues : List Issue)
  | unknownNodeType (shown : String)
  /-- A value that cannot be a node type, because it cannot be looked up. -/
  | notComparable (kind : String)
  /-- A value of a kind that has no such part. -/
  | noSuchPart (kind part : String)
  | notIterable (kind : String)
  | pairLength (index length : Nat)
  | notPair (index : Nat)
  | notJson (failure : Json.Failure)
  | notStrictJson
  /-- A value is nested too deep for an answer. -/
  | tooDeepToWrite
  | span (error : SpanError)
  /-- An integer was to be compared as a double that is too small for it. -/
  | integerTooLarge
  /-- A value is nested too deep to be copied. -/
  | tooDeep
  /-- The application was to be shut down before it was started. -/
  | notStarted
  /-- An instant with a zone was compared with one without. -/
  | mixedZones
  | badInteger (text : String)
  /-- An integer with more digits than are read, which are counted then, or than are written. -/
  | tooManyDigits (count? : Option Nat)
  | badNumber (text : String)
  | unknownSetting (name : String)
  /-- A variable whose name or text an environment cannot hold. -/
  | nullInVariable
  | equalsSignInName
  /-- A text that is none of the choices of a kind. -/
  | notAChoice (shown choices : String)
  | duplicateKey
  /-- An integer that the database has no room for. -/
  | integerTooWide
  /-- A name that the database cannot keep. -/
  | nullInName (name : String)
  | outage (kind : OutageKind)
  | noClient
  | badStatus (message : String)
  | requestFailed (failure : RequestFailure) (message : String)
  | badAddress (message : String)
  /-- A header that was to have a value of another kind than a text. -/
  | headerNotText (kind : String)
  /-- A text that was to be written in ASCII. -/
  | notAscii (text : String)
  /-- A peer broke down in a way that is no failure of the request. -/
  | brokenPeer (message : String)
  deriving Repr

namespace Fault

def ofIssues (issues : List Issue) : Fault :=
  if issues.any (·.kind == .integerUnwritable) then .tooManyDigits none else .malformed issues

def status? : Fault → Option Nat
  | .funnelNotFound _ | .runNotFound _ => some 404
  | .funnelLocked .. | .runLocked _ | .runNotHeld .. => some 409
  | .invalidDocument _ | .notActivatable .. => some 400
  | .databaseUnreachable _ => some 503
  | .databaseFailed _ | .failedWhile .. => some 500
  | _ => none

/-- Whether a fault is a refusal of the service itself, which is passed on as it is. -/
def isRefusal (e : Fault) : Bool := e.status?.isSome

def message : Fault → String
  | .funnelNotFound id => s!"Funnel {id} not found"
  | .runNotFound id => s!"Run {id} not found"
  | .funnelLocked id (some holder) => s!"Funnel {id} is being edited by {holder}"
  | .funnelLocked id none => s!"Funnel {id} is being edited by another user"
  | .runLocked id => s!"Run {id} already has a step in flight"
  | .runNotHeld id owner => s!"Run {id} is not locked by {owner}"
  | .invalidDocument cause => "Invalid funnel document: " ++ cause.message
  | .notActivatable name violations =>
    s!"Funnel '{name}' cannot be activated, it has {violations.length} violation(s)"
  | .databaseUnreachable cause => "Database connection error: " ++ cause.message
  | .databaseFailed cause => "Database error: " ++ cause.message
  | .failedWhile task cause => "Error " ++ task.name ++ ": " ++ cause.message
  | .malformed _ => "<validation>"
  | .unknownNodeType shown => "Unknown funnel node type: " ++ shown
  | .notComparable kind => s!"unhashable type: '{kind}'"
  | .noSuchPart kind part => s!"'{kind}' object has no attribute '{part}'"
  | .notIterable kind => s!"'{kind}' object is not iterable"
  | .pairLength index length =>
    s!"dictionary update sequence element #{index} has length {length}; 2 is required"
  | .notPair index => s!"cannot convert dictionary update sequence element #{index} to a sequence"
  | .notJson failure => failure.message
  | .notStrictJson => "Out of range float values are not JSON compliant"
  | .tooDeepToWrite => "Error serializing to JSON: ValueError: Maximum serialization depth exceeded"
  | .span error => error.message
  | .integerTooLarge => "int too large to convert to float"
  | .tooDeep => "maximum recursion depth exceeded while calling a Python object"
  | .notStarted => "the application was not started"
  | .mixedZones => "can't compare offset-naive and offset-aware datetimes"
  | .tooManyDigits (some count) => Number.digitsComplaint count
  | .tooManyDigits none => Number.writingComplaint
  | .badInteger text => "invalid literal for int() with base 10: " ++ text
  | .badNumber text => "could not convert string to float: " ++ text
  | .nullInVariable => "embedded null byte"
  | .equalsSignInName => "illegal environment variable name"
  | .unknownSetting name => s!"Environment variable {name} not found"
  | .notAChoice shown choices => s!"{shown} is not a valid {choices}"
  | .duplicateKey => "<duplicate key>"
  | .integerTooWide => "MongoDB can only handle up to 8-byte ints"
  | .nullInName name => s!"Field names cannot contain the null character (found: {name})"
  | .outage kind => "mongo " ++ kind.name
  | .noClient => "mongo client"
  | .headerNotText kind => s!"a header has to be a text, not {kind}"
  | .notAscii text => Text.asciiComplaint text
  | .badStatus message | .requestFailed _ message | .badAddress message | .brokenPeer message =>
    message

/-- The issues of the malformed document that a fault is, or wraps directly. -/
def issues? : Fault → Option (List Issue)
  | .malformed issues => some issues
  | .invalidDocument (.malformed issues) | .databaseFailed (.malformed issues)
  | .failedWhile _ (.malformed issues) => some issues
  | _ => none

def violations? : Fault → Option (List Violation)
  | .notActivatable _ violations => some violations
  | .invalidDocument _ => some []
  | _ => none

end Fault

end FunnelFlow
