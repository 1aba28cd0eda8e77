import FunnelFlow.Activity
import FunnelFlow.Run.Delivery
import FunnelFlow.Value.Printer
import FunnelFlow.Web.Status

namespace FunnelFlow

structure Channels where
  whatsApp : String
  email : String
  deriving DecidableEq, Repr

namespace Messenger

def endpoint? (channels : Channels) : String → Option String
  | "WHATSAPP" => some channels.whatsApp
  | "EMAIL" => some channels.email
  | _ => none

/-- What is handed over: the message, and where it comes from if that is known. -/
def body (channel contactId : String) (content : Fields) (request : Option SendRequest) : Value :=
  let message : Fields :=
    [("channel", .text channel), ("contactId", .text contactId), ("content", .object content)]
  .object <| message ++ match request with
    | some r => [("funnelId", .text r.funnelId), ("runId", .text r.runId),
        ("nodeId", .text r.nodeId), ("attempt", .int r.attempt), ("payload", .object r.payload)]
    | none => []

def isRetryable (status : Nat) : Bool := [408, 425, 429, 500, 502, 503, 504].contains status

def judge (channel : String) : Reply → Except Fault Delivery
  | .answer status text =>
    if Status.isSuccess status then .ok .accepted
    else .ok <| .failed (if isRetryable status then .transient else .permanent)
      (channel ++ " service returned " ++ toString status ++ ": " ++ text)
  | .failed failure message =>
    .ok <| .failed .transient <|
      if failure.isTimeout then "Timeout calling " ++ channel ++ " service"
      else "Error calling " ++ channel ++ " service: " ++ message
  | .broken message => .error (.brokenPeer message)
  | .unwritable => .error .notStrictJson

def send (channels : Channels) (channel contactId : String) (content : Fields)
    (request : Option SendRequest) : Activity Delivery :=
  match endpoint? channels channel with
  | none => pure (.failed .permanent ("Unsupported channel: " ++ channel))
  | some address => do
    let message := body channel contactId content request
    if let some e := Json.obstacle? message then throw e
    Activity.finish (judge channel (← Activity.post address message))

end Messenger

end FunnelFlow
