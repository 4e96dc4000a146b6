import GameScoring.Journal.Timestamp
import GameScoring.Settings
import GameScoring.Table

/-! # Journal entries

An entry is written by a logger, which has a name and a context. What is bound later takes the place of
what was bound before. Entries below the level of the settings are dropped.
-/
namespace GameScoring.Journal

/-- The name that all loggers are under. -/
def rootName : String := "neurazor"

def loggerName (name : String) : String :=
  if name == rootName || (rootName ++ ".").toList.isPrefixOf name.toList then name else rootName ++ "." ++ name

structure Logger where
  name : String
  context : Table Value

def overlay (table : Table Value) (entries : List (String × Value)) : Table Value :=
  entries.foldl (fun t e => t.insert e.1 e.2) table

def Logger.named (name : String) (context : List (String × Value)) : Logger :=
  ⟨loggerName name, Table.ofList context⟩

def Logger.bind (logger : Logger) (context : List (String × Value)) : Logger :=
  { logger with context := overlay logger.context context }

structure Entry where
  logger : String
  level : Level
  message : String
  /-- Microseconds since the start of 1970. -/
  created : Int
  details : Table Value

/-- What an entry holds by itself. Details may not have these names. -/
def heldFields : List String :=
  ["message", "asctime", "name", "msg", "args", "levelname", "levelno", "pathname", "filename", "module",
    "exc_info", "exc_text", "stack_info", "lineno", "funcName", "created", "msecs", "relativeCreated", "thread",
    "threadName", "processName", "process"]

/-- Why an entry with these details cannot be written at a time. -/
def entryFault? (details : Table Value) (created : Int) : Option Fault :=
  match details.names.find? fun name => heldFields.contains name with
  | some name => some (.heldField name)
  | none => timeFault? created

/-- The entry that a logger writes, unless its level is dropped. -/
def Logger.log (settings : Settings) (logger : Logger) (level : Level) (message : String) (created : Int)
    (extra : List (String × Value)) : Except Fault (Option Entry) :=
  let details := overlay logger.context extra
  if level.rank < settings.logLevel.rank then .ok none
  else match entryFault? details created with
    | some fault => .error fault
    | none => .ok (some ⟨logger.name, level, message, created, details⟩)

/-- An entry that names no domain belongs to the application. -/
def Entry.domain (e : Entry) : Value :=
  match e.details.get? "domain" with
  | some domain => if domain.isNothing then .text "app" else domain
  | none => .text "app"

/-- The name of a detail that is never shown. -/
def taskField : String := "taskName"

/-- The fields of an entry. Details whose names start with an underscore are not shown, and the fields of
the journal itself take the place of details of the same name. -/
def Entry.fields (settings : Settings) (e : Entry) : Table Value :=
  let shown := e.details.entries.filter fun d => d.1.toList.head? != some '_' && d.1 != taskField
  overlay (Table.ofList shown)
    [("name", .text e.logger), ("message", .text e.message), ("timestamp", .text (timestamp e.created)),
      ("app", .text settings.appName), ("environment", .text settings.deployment.name),
      ("level", .text e.level.name), ("logger", .text e.logger), ("domain", e.domain)]

def Entry.line (e : Entry) : String :=
  e.logger ++ " - " ++ e.level.name ++ " - [" ++ e.domain.display ++ "] " ++ e.message

end GameScoring.Journal
