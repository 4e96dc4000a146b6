import GameScoring.Shell.Command

/-! # The program

The commands of the program and how a command line is run. Help and version win over anything that is
wrong with the arguments, and options are looked at before arguments.
-/
namespace GameScoring.Shell

inductive PathEntry
  | file (text : String)
  | directory

/-- What is found where a command is run. -/
abbrev Workspace := String → Option PathEntry

inductive Command
  | checkConfig
  | envInfo
  | initDb
  | runServer
  | validateFormula
  | catalogue
deriving DecidableEq, Repr

def Command.all : List Command := [checkConfig, envInfo, initDb, runServer, validateFormula, catalogue]

def varOption : OptionSpec := ⟨"--var", some "TEXT", "Test variable as name=value"⟩

def hostOption : OptionSpec := ⟨"--host", some "TEXT", "Host to bind to"⟩

def portOption : OptionSpec := ⟨"--port", some "INTEGER", "Port to bind to"⟩

def Command.spec : Command → CommandSpec
  | checkConfig => {
      name := "check-config"
      about := ["Validate a YAML scoring configuration file", "",
        "The file holds game_type, competency_formulas, final_weights and optional",
        "settings; an optional test_variables mapping is scored as a preview."]
      arguments := ["PATH"]
      options := [] }
  | envInfo => { name := "env-info", about := ["Display environment information"], arguments := [], options := [] }
  | initDb => { name := "init-db", about := ["Initialize database with tables"], arguments := [], options := [] }
  | runServer => {
      name := "runserver"
      about := ["Run the FastAPI development server"]
      arguments := []
      options := [hostOption, portOption, ⟨"--reload", none, "Enable auto-reload"⟩] }
  | validateFormula => {
      name := "validate-formula"
      about := ["Validate a formula and optionally evaluate it"]
      arguments := ["FORMULA"]
      options := [varOption] }
  | catalogue => {
      name := "variables"
      about := ["List variables available to formulas for a game type"]
      arguments := ["GAME_TYPE"]
      options := [] }

def versionOption : OptionSpec := ⟨"--version", none, "Show the version and exit."⟩

def programOptions : List OptionSpec := [versionOption, helpOption]

def programUsage : String := usageLine ["[OPTIONS]", "COMMAND", "[ARGS]..."]

def programHelp : String :=
  let commands := Command.all.map fun c => (c.spec.name, c.spec.about.headD "")
  textOf ([programUsage, "", "  NeuRazor CLI - dynamic scoring formulas for cognitive games", "", "Options:"] ++
    columns (programOptions.map optionRow) ++ ["", "Commands:"] ++ columns commands)

def onlyArgument (name : String) : List String → Except UsageError String
  | [] => .error (.missingArgument name)
  | [word] => .ok word
  | _ :: rest => .error (.extraArguments rest)

def noArguments (words : List String) : Except UsageError Unit :=
  if words.isEmpty then .ok () else .error (.extraArguments words)

/-- The text of the file that the first word names. It is looked at before words that are too many. -/
def readFile (workspace : Workspace) (words : List String) : Except UsageError (String × String) := do
  let some path := words.head? | throw (.missingArgument "PATH")
  match workspace path with
  | none => throw (.badValue "PATH" ("File " ++ Value.quoted path ++ " does not exist."))
  | some .directory => throw (.badValue "PATH" ("File " ++ Value.quoted path ++ " is a directory."))
  | some (.file text) =>
    noArguments (words.drop 1)
    return (path, text)

def typedPort (typed : Typed) : Except UsageError Int :=
  match (typed.values portOption.name).getLast? with
  | none => .ok 8000
  | some written =>
    match Numeral.wholeOfText? written with
    | some port => .ok port
    | none => .error (.badValue portOption.name (Value.quoted written ++ " is not a valid integer."))

/-- The lines that announce a server; serving is not the work of a command. -/
def announce (settings : Settings) (host : String) (port : Int) : Outcome :=
  .succeeded ["Starting NeuRazor server on " ++ host ++ ":" ++ Text.intText port,
    "Environment: " ++ settings.deployment.name]

def Command.run (settings : Settings) (workspace : Workspace) (typed : Typed) :
    Command → Except UsageError Outcome
  | checkConfig => do
    if typed.words.head?.any fun path => path.toList.contains '\x00' then return .faulted [] .unusablePath
    let (path, text) ← readFile workspace typed.words
    return Shell.checkConfig path text
  | envInfo => do
    noArguments typed.words
    return showSettings settings
  | initDb => do
    noArguments typed.words
    return createTables
  | runServer => do
    let port ← typedPort typed
    noArguments typed.words
    return announce settings ((typed.values hostOption.name).getLast?.getD "0.0.0.0") port
  | validateFormula => do
    let values ← typedVariables (typed.values varOption.name)
    return Shell.validateFormula (← onlyArgument "FORMULA" typed.words) values
  | catalogue => do return listVariables (← onlyArgument "GAME_TYPE" typed.words)

def isHelp (option : String × Option String) : Bool := option.1 == helpOption.name

def runCommand (settings : Settings) (workspace : Workspace) (command : Command) (words : List String) :
    Outcome :=
  let spec := command.spec
  let result : Except UsageError Outcome := do
    let typed ← Typed.read spec.allOptions true words
    if typed.options.any isHelp then return ⟨0, spec.help, "", none⟩
    command.run settings workspace typed
  match result with
  | .ok outcome => outcome
  | .error error => .unusable (complaint spec.usage [spec.name] error)

/-- The answer to the first option of the program, if there is one: its help or its version. -/
def answerOption (settings : Settings) (typed : Typed) : Option Outcome :=
  typed.options.head?.map fun option =>
    if isHelp option then ⟨0, programHelp, "", none⟩
    else .succeeded [program ++ ", version " ++ settings.appVersion]

/-- A first word that names no command. A word that does not start with a letter or a digit may still be an
option of the program behind the two dashes. -/
def withoutCommand (settings : Settings) (words : List String) (name : String) : Except UsageError Outcome := do
  let typed ← Typed.read programOptions false words
  match answerOption settings typed with
  | some outcome => return outcome
  | none => throw (.unknownCommand name (similarTo (Command.all.map (·.spec.name)) name))

def dispatch (settings : Settings) (workspace : Workspace) : List String → Except UsageError Outcome
  | [] => throw .missingCommand
  | name :: words =>
    match Command.all.find? (·.spec.name == name) with
    | some command => return runCommand settings workspace command words
    | none => withoutCommand settings (name :: words) name

def runWords (settings : Settings) (workspace : Workspace) (words : List String) : Except UsageError Outcome := do
  let typed ← Typed.read programOptions false words
  match answerOption settings typed with
  | some outcome => return outcome
  | none => dispatch settings workspace typed.words

/-- Runs a command line. Without any words the program shows its help and ends as unusable. What it prints
has no colours. -/
def run (settings : Settings) (workspace : Workspace) (words : List String) : Outcome :=
  if words.isEmpty then .unusable programHelp
  else match runWords settings workspace words with
    | .ok outcome => outcome.plain
    | .error error => (Outcome.unusable (complaint programUsage [] error)).plain

end GameScoring.Shell
