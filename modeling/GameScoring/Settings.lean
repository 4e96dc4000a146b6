import GameScoring.Document.Json.Parser
import GameScoring.Journal.Level
import GameScoring.Schema.Reader
import GameScoring.Text.Order

/-! # Settings

The settings of the program and how they are read from environment variables. The name of a variable may
be written in any case, and a variable that is not known is passed over.
-/
namespace GameScoring
open Schema

inductive Deployment
  | development
  | test
  | staging
  | production
deriving DecidableEq, Repr

def Deployment.all : List Deployment := [development, test, staging, production]

def Deployment.name : Deployment → String
  | development => "development"
  | test => "test"
  | staging => "staging"
  | production => "production"

inductive LogFormat
  | json
  | text
deriving DecidableEq, Repr

def LogFormat.all : List LogFormat := [json, text]

def LogFormat.name : LogFormat → String
  | json => "json"
  | text => "text"

structure Settings where
  deployment : Deployment
  appName : String
  appVersion : String
  databaseUrl : String
  databasePoolSize : Int
  databaseEcho : Bool
  corsOrigins : List String
  logLevel : Journal.Level
  logFormat : LogFormat
  metricsEnabled : Bool
deriving DecidableEq, Repr

namespace Settings

def default : Settings where
  deployment := .development
  appName := "NeuRazor"
  appVersion := "0.1.0"
  databaseUrl := "sqlite:///./neurazor.db"
  databasePoolSize := 10
  databaseEcho := false
  corsOrigins := ["*"]
  logLevel := .info
  logFormat := .json
  metricsEnabled := true

def isProduction (s : Settings) : Bool := s.deployment == .production

def isDevelopment (s : Settings) : Bool := s.deployment == .development

/-- The names of a choice as they are listed in a complaint. -/
def listed (names : List String) : String := (Value.list (names.map .text)).literal

def lowered (text : String) : String := String.ofList (text.toList.map Char.toLower)

/-- Text in capitals. A small letter without its dot has the same capital as one with it. -/
def raised (text : String) : String :=
  String.ofList (text.toList.map fun c => if c.toNat = 0x131 then 'I' else c.toUpper)

/-- Environment variables, of which a later one counts. -/
abbrev Variables := List (String × String)

def written? (given : Variables) (field : String) : Option String :=
  (given.reverse.find? fun e => lowered e.1 == field).map (·.2)

/-- Reads the variable of a field, which has a default. -/
def readField {α : Type} (given : Variables) (field : String) (default : α)
    (read : List String → String → Checked α) : Checked α :=
  match written? given field with
  | some written => read [field] written
  | none => .read default

def anyText (_ : List String) (written : String) : Checked String := .read written

def choice {α : Type} (all : List α) (name : α → String) (reason : String) (place : List String)
    (written : String) : Checked α :=
  match all.find? fun a => name a == written with
  | some a => .read a
  | none => .fault place (.refused reason)

def deploymentOf : List String → String → Checked Deployment :=
  choice Deployment.all Deployment.name ("Environment must be one of: " ++ listed (Deployment.all.map (·.name)))

def logFormatOf : List String → String → Checked LogFormat :=
  choice LogFormat.all LogFormat.name "Log format must be 'json' or 'text'"

/-- A level may be written in any case. -/
def logLevelOf (place : List String) (written : String) : Checked Journal.Level :=
  choice Journal.Level.all Journal.Level.name ("Log level must be one of: " ++ listed (Journal.Level.all.map (·.name)))
    place (raised written)

def originsField : String := "cors_origins"

/-- Origins are written as a JSON list of texts; null leaves them as they are. -/
def originsOf (place : List String) (written : String) : Checked (List String) :=
  match Json.read? written with
  | some .null => .read default.corsOrigins
  | some value => Reader.list (Reader.text 0 none) 0 place value
  | none => .fault place .notList

def originsReadable (given : Variables) : Bool :=
  (written? given originsField).all fun written => (Json.read? written).isSome

def ofVariables (given : Variables) : Checked Settings :=
  (fun deployment appName appVersion databaseUrl databasePoolSize databaseEcho corsOrigins logLevel logFormat
      metricsEnabled =>
    { deployment, appName, appVersion, databaseUrl, databasePoolSize, databaseEcho, corsOrigins, logLevel,
      logFormat, metricsEnabled })
    <$> readField given "environment" default.deployment deploymentOf
    <*> readField given "app_name" default.appName anyText
    <*> readField given "app_version" default.appVersion anyText
    <*> readField given "database_url" default.databaseUrl anyText
    <*> readField given "database_pool_size" default.databasePoolSize Reader.writtenInteger
    <*> readField given "database_echo" default.databaseEcho Reader.writtenTruth
    <*> readField given originsField default.corsOrigins originsOf
    <*> readField given "log_level" default.logLevel logLevelOf
    <*> readField given "log_format" default.logFormat logFormatOf
    <*> readField given "prometheus_enabled" default.metricsEnabled Reader.writtenTruth

def entries (s : Settings) : List (String × Value) :=
  [("environment", .text s.deployment.name), ("app_name", .text s.appName), ("app_version", .text s.appVersion),
    ("database_url", .text s.databaseUrl), ("database_pool_size", .int s.databasePoolSize),
    ("database_echo", .bool s.databaseEcho), (originsField, .list (s.corsOrigins.map .text)),
    ("log_level", .text s.logLevel.name), ("log_format", .text s.logFormat.name),
    ("prometheus_enabled", .bool s.metricsEnabled), ("is_production", .bool s.isProduction),
    ("is_development", .bool s.isDevelopment)]

def sorted (complaints : List Complaint) : List (String × String) :=
  (complaints.map fun c => (c.field, c.defect.message)).mergeSort fun a b =>
    Text.inOrder [a.1, a.2] [b.1, b.2]

end Settings

end GameScoring
