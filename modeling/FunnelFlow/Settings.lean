import FunnelFlow.Fault
import FunnelFlow.Text.Percent
import FunnelFlow.Text.Quoted

namespace FunnelFlow

inductive SettingKind where
  | text
  | integer
  | number
  deriving DecidableEq, Repr

structure Setting where
  name : String
  kind : SettingKind
  /-- What is read when the variable is not set. -/
  default : String
  deriving DecidableEq, Repr

abbrev Settings := Table Value

namespace Setting

def quotedPart (s : String) : String := String.ofList ((Text.quoted s).toList.take 200)

def valueOf (kind : SettingKind) (s : String) : Except Fault Value :=
  match kind with
  | .text => .ok (.text s)
  | .integer => match Number.excessDigits? s with
    | some count => .error (.tooManyDigits (some count))
    | none => match Number.readInt s with
      | some n => .ok (.int n)
      | none => .error (.badInteger (quotedPart s))
  | .number => match Number.readDouble s with
    | some x => .ok (.float x)
    | none => .error (.badNumber (Text.quoted s))

def read (environment : Table String) (setting : Setting) : Except Fault Value :=
  valueOf setting.kind ((environment.get? setting.name).getD setting.default)

def all : List Setting := [
  ⟨"APP_ENV", .text, "production"⟩,
  ⟨"HOST", .text, "0.0.0.0"⟩,
  ⟨"PORT", .integer, "8018"⟩,
  ⟨"ORG_ID", .text, "Funnels"⟩,
  ⟨"LOKI_URL", .text, ""⟩,
  ⟨"STORE_BACKEND", .text, "mongo"⟩,
  ⟨"MONGO_USERNAME", .text, "funnelservice"⟩,
  ⟨"MONGO_PASSWORD", .text, ""⟩,
  ⟨"MONGO_AUTH_SOURCE", .text, "admin"⟩,
  ⟨"MONGO_HOST", .text, "localhost"⟩,
  ⟨"MONGO_PORT", .integer, "27017"⟩,
  ⟨"MONGO_DB_NAME", .text, "funnel_db"⟩,
  ⟨"WHATSAPP_SERVICE_URL", .text, "http://localhost:8017/channel/send"⟩,
  ⟨"EMAIL_SERVICE_URL", .text, "http://localhost:8019/channel/send"⟩,
  ⟨"CONTACT_SERVICE_URL", .text, "http://localhost:8007/contacts"⟩,
  ⟨"TRANSPORT_TIMEOUT_SECONDS", .number, "30"⟩,
  ⟨"DISPATCH_MAX_ATTEMPTS", .integer, "3"⟩,
  ⟨"DISPATCH_BACKOFF_SECONDS", .integer, "60"⟩,
  ⟨"SCHEDULER_INTERVAL_SECONDS", .integer, "20"⟩,
  ⟨"SCHEDULER_BATCH_SIZE", .integer, "100"⟩,
  ⟨"RUN_LOCK_TTL_SECONDS", .integer, "300"⟩,
  ⟨"FUNNEL_LOCK_TTL_SECONDS", .integer, "900"⟩,
  ⟨"DEBUG", .text, "false"⟩]

end Setting

def checkVariables : Table String → Except Fault Unit
  | [] => .ok ()
  | (name, s) :: rest =>
    if name.contains '\x00' || s.contains '\x00' then .error .nullInVariable
    else if name.contains '=' then .error .equalsSignInName
    else checkVariables rest

namespace Settings

def ofEnvironment (environment : Table String) : Except Fault Settings := do
  checkVariables environment
  Setting.all.mapM fun setting => do return (setting.name, ← setting.read environment)

def get (settings : Settings) (name : String) : Except Fault Value :=
  match settings.get? name with
  | some v => .ok v
  | none => .error (.unknownSetting name)

def text (settings : Settings) (name : String) : String :=
  match settings.get? name with
  | some (.text s) => s
  | _ => ""

def integer (settings : Settings) (name : String) : Int :=
  match settings.get? name with
  | some (.int n) => n
  | _ => 0

end Settings

/-- Where the document database is and who opens it. User name and password are kept as the address
has them. -/
structure Account where
  username : String
  password : String
  authSource : String
  host : String
  port : Int
  database : String
  deriving DecidableEq, Repr

namespace Account

def ofSettings (settings : Settings) : Account where
  username := Text.encodeCredential (settings.text "MONGO_USERNAME")
  password := Text.encodeCredential (settings.text "MONGO_PASSWORD")
  authSource := settings.text "MONGO_AUTH_SOURCE"
  host := settings.text "MONGO_HOST"
  port := settings.integer "MONGO_PORT"
  database := settings.text "MONGO_DB_NAME"

def address (a : Account) : String :=
  "mongodb://" ++ a.username ++ ":" ++ a.password ++ "@" ++ a.host ++ ":" ++ toString a.port ++
    "/?authSource=" ++ a.authSource

end Account

/-- The store that the settings ask for: how long locks last, and the account of the database
unless everything is kept in memory. -/
structure StorePlan where
  runTtl : Span
  funnelTtl : Span
  account : Option Account
  deriving DecidableEq, Repr

def Settings.storePlan (settings : Settings) : Except Fault StorePlan := do
  let runTtl ← (Span.ofSeconds (settings.integer "RUN_LOCK_TTL_SECONDS")).mapError .span
  let funnelTtl ← (Span.ofSeconds (settings.integer "FUNNEL_LOCK_TTL_SECONDS")).mapError .span
  return { runTtl, funnelTtl
           account := if settings.text "STORE_BACKEND" = "memory" then none
             else some (.ofSettings settings) }

end FunnelFlow
