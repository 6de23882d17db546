import Linework.CommandLine.Grammar
import Linework.Number.Literal

/-!
# `Linework.CommandLine.Request`: what the user asks for

The program does six things, each under a word of its own. Two options go with
all of them, before or after that word: where the configuration is kept, and
whether to print JSON. Given at both places, the one after the word counts.
-/

set_option autoImplicit false

namespace Linework.CommandLine

/-- How to look at a sketch. What is not given stays as the canvas has it. -/
structure View where
  panX : Option Float
  panY : Option Float
  zoom : Option Float
  deriving Repr

/-- What the user asks for. -/
inductive Request where
  /-- Runs a script with its pictures and prints the hints. The pictures named are
  loaded beforehand. -/
  | run (file : Option String) (view : View) (pictures : List String) (ops : Bool)
  /-- Runs a script once, without its pictures. -/
  | check (file : Option String)
  /-- Describes the commands, or one of them. -/
  | commands (topic : Option String)
  /-- Makes a document the stored script. -/
  | openDocument (file : String)
  /-- Saves the stored script as a document. -/
  | saveDocument (name : String) (dir : Option String)
  /-- Prints the settings or their schema. -/
  | settings (schema : Bool)
  deriving Repr

/-- A request with the options that go with all of them. -/
structure Invocation where
  configDir : Option String
  json : Bool
  request : Request
  deriving Repr

/-- A path has at least one character. -/
def isPath (s : String) : Bool := s ≠ ""

/-- Any value at all. -/
def isAnything (_ : String) : Bool := true

/-- A number of the command line. -/
def isNumber (s : String) : Bool := (Literal.option? s).isSome

/-- A count of seconds: digits, with a plus sign if need be, below `2 ^ 64`. -/
def isSeconds (s : String) : Bool :=
  let digits := match s.toList with
    | '+' :: rest => rest
    | cs => cs
  !digits.isEmpty && digits.all Char.isDigit && Literal.natOfDigits digits < UInt64.size

/-- The options that go with every request. -/
def commonOptions : List OptionSpec :=
  [.valued "config-dir" isPath, .flag "json"]

/-- The words that name the requests. -/
def requestWords : List String :=
  ["run", "check", "commands", "open", "save", "settings"]

/-- The level above the requests. -/
def topLevel : Level :=
  ⟨commonOptions, "help" :: requestWords, [], true⟩

/-- A level that takes options of its own and words. -/
def requestLevel (options : List OptionSpec) (words : List (String → Bool)) : Level :=
  ⟨options ++ commonOptions, [], words, false⟩

/-- The level of running a script. A pan may be negative without an equals sign. -/
def runLevel : Level :=
  requestLevel
    [⟨"pan-x", true, true, false, isNumber⟩, ⟨"pan-y", true, true, false, isNumber⟩,
      .valued "zoom" isNumber, ⟨"reference", true, false, true, isAnything⟩,
      .flag "ops", .valued "timeout" isSeconds]
    [isPath]

/-- The level of a request word. -/
def levelOf : String → Option Level
  | "run" => some runLevel
  | "check" => some (requestLevel [] [isPath])
  | "commands" => some (requestLevel [] [isAnything])
  | "open" => some (requestLevel [] [isPath])
  | "save" => some (requestLevel [.valued "name" isAnything, .valued "dir" isPath] [])
  | "settings" => some (requestLevel [.flag "schema"] [])
  | _ => none

/-- The number that an option was given. -/
def number? (g : Given) (name : String) : Option Float :=
  (g.value? name).bind Literal.option?

/-- The request of a word and what was given after it. -/
def requestOf (word : String) (g : Given) : Except Stop Request :=
  match word with
  | "run" =>
    .ok (.run g.words.head? ⟨number? g "pan-x", number? g "pan-y", number? g "zoom"⟩
      (g.all "reference") (g.has "ops"))
  | "check" => .ok (.check g.words.head?)
  | "commands" => .ok (.commands g.words.head?)
  | "open" =>
    match g.words with
    | [file] => .ok (.openDocument file)
    | _ => .error .misuse
  | "save" => .ok (.saveDocument ((g.value? "name").getD "") (g.value? "dir"))
  | "settings" => .ok (.settings (g.has "schema"))
  | _ => .error .misuse

/-- Help on a request, or on the program. -/
def helpStop : List String → Stop
  | [] => .help
  | [word] => if word ∈ topLevel.sublevels then .help else .misuse
  | _ => .misuse

/-- Reads the arguments of the program. -/
def readInvocation (arguments : List String) : Except Stop Invocation := do
  let (above, left) ← readLevel topLevel .nothing arguments
  match left with
  | [] => .error .misuse
  | word :: rest =>
    match levelOf word with
    | none => .error (helpStop rest)
    | some level =>
      let (below, _) ← readLevel level .nothing rest
      let request ← requestOf word below
      return {
        configDir := below.value? "config-dir" <|> above.value? "config-dir"
        json := above.has "json" || below.has "json"
        request := request }

end Linework.CommandLine
