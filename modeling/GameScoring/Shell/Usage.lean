import GameScoring.Text.Similarity
import GameScoring.Value

/-! # Usage

What can be typed on the command line: commands with options and arguments. Options may stand among the
arguments of a command, but behind two dashes everything is an argument.
-/
namespace GameScoring.Shell

def program : String := "cli"

structure OptionSpec where
  name : String
  /-- What the value is called; a flag has none. -/
  value : Option String
  help : String

structure CommandSpec where
  name : String
  /-- What the command does, in the first line, and more about it. -/
  about : List String
  arguments : List String
  options : List OptionSpec

def helpOption : OptionSpec := ⟨"--help", none, "Show this message and exit."⟩

inductive UsageError
  | unknownOption (name : String) (similar : List String)
  | missingValue (option : String)
  | unexpectedValue (option : String)
  | missingArgument (name : String)
  | extraArguments (words : List String)
  | unknownCommand (name : String) (similar : List String)
  | missingCommand
  | badValue (place reason : String)
deriving DecidableEq, Repr

def suggestion : List String → String
  | [] => ""
  | [name] => " Did you mean " ++ Value.quoted name ++ "?"
  | names => " (Did you mean one of: " ++ ", ".intercalate (names.map Value.quoted) ++ "?)"

def UsageError.message : UsageError → String
  | unknownOption name similar => "No such option " ++ Value.quoted name ++ "." ++ suggestion similar
  | missingValue option => "Option " ++ Value.quoted option ++ " requires an argument."
  | unexpectedValue option => "Option " ++ Value.quoted option ++ " does not take a value."
  | missingArgument name => "Missing argument '" ++ name ++ "'."
  | extraArguments words =>
    "Got unexpected extra argument" ++ (if words.length = 1 then "" else "s") ++ " (" ++ " ".intercalate words ++ ")"
  | unknownCommand name similar => "No such command " ++ Value.quoted name ++ "." ++ suggestion similar
  | missingCommand => "Missing command."
  | badValue place reason => "Invalid value for '" ++ place ++ "': " ++ reason

/-- What was typed: options with their values, and words, each in order. -/
structure Typed where
  options : List (String × Option String)
  words : List String

def Typed.addOption (name : String) (value : Option String) (t : Typed) : Typed :=
  { t with options := (name, value) :: t.options }

def Typed.addWord (word : String) (t : Typed) : Typed := { t with words := word :: t.words }

def Typed.values (t : Typed) (name : String) : List String :=
  t.options.filterMap fun option => if option.1 == name then option.2 else none

/-- A lone dash is a word. -/
def isOption (word : String) : Bool := word.toList.head? == some '-' && word.length != 1

/-- An option and the value that is joined to it by an equals sign. -/
def splitOption (word : String) : String × Option String :=
  let chars := word.toList
  match chars.dropWhile (· != '=') with
  | _ :: value => (String.ofList (chars.takeWhile (· != '=')), some (String.ofList value))
  | [] => (word, none)

/-- At most three names are worth a suggestion. -/
def similarTo (names : List String) (word : String) : List String := Text.closest 3 names word

/-- An option that is not known: a short one is known by its first letter. -/
def unknown (options : List OptionSpec) (word : String) : UsageError :=
  if word.toList.take 2 == ['-', '-'] then
    let name := (splitOption word).1
    .unknownOption name (similarTo (options.map (·.name)) name)
  else .unknownOption (String.ofList (word.toList.take 2)) []

/-- Reads the words of a command line. Unless options may stand among the words, the first word ends
them. -/
def Typed.read (options : List OptionSpec) (among : Bool) : List String → Except UsageError Typed
  | [] => .ok ⟨[], []⟩
  | word :: rest =>
    if word == "--" then .ok ⟨[], rest⟩
    else if isOption word then
      let (name, joined) := splitOption word
      match options.find? (·.name == name) with
      | none => .error (unknown options word)
      | some option =>
        match option.value, joined with
        | some _, some value => (Typed.read options among rest).map (addOption name (some value))
        | some _, none =>
          match rest with
          | value :: rest => (Typed.read options among rest).map (addOption name (some value))
          | [] => .error (.missingValue name)
        | none, some _ => .error (.unexpectedValue name)
        | none, none => (Typed.read options among rest).map (addOption name none)
    else if among then (Typed.read options among rest).map (addWord word)
    else .ok ⟨[], word :: rest⟩

/-! ## Help -/

def paddedTo (width : Nat) (text : String) : String :=
  text ++ String.ofList (List.replicate (width - text.length) ' ')

/-- Two columns with a margin. -/
def columns (rows : List (String × String)) : List String :=
  let width := rows.foldl (fun width row => max width row.1.length) 0
  rows.map fun row => "  " ++ paddedTo width row.1 ++ "  " ++ row.2

def optionRow (option : OptionSpec) : String × String :=
  (option.name ++ (match option.value with
    | some value => " " ++ value
    | none => ""), option.help)

def usageLine (words : List String) : String := "Usage: " ++ " ".intercalate (program :: words)

def aboutLines (about : List String) : List String := about.map fun line => if line.isEmpty then "" else "  " ++ line

def textOf (lines : List String) : String := String.join (lines.map (· ++ "\n"))

def CommandSpec.usage (c : CommandSpec) : String := usageLine (c.name :: "[OPTIONS]" :: c.arguments)

def CommandSpec.allOptions (c : CommandSpec) : List OptionSpec := c.options ++ [helpOption]

def CommandSpec.help (c : CommandSpec) : String :=
  textOf ([c.usage, ""] ++ aboutLines c.about ++ ["", "Options:"] ++ columns (c.allOptions.map optionRow))

/-- The message for a usage error, below the usage it goes against. -/
def complaint (usage : String) (command : List String) (error : UsageError) : String :=
  textOf [usage, "Try '" ++ " ".intercalate (program :: command ++ ["--help"]) ++ "' for help.", "",
    "Error: " ++ error.message]

end GameScoring.Shell
