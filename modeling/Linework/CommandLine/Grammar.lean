import Linework.Text

/-!
# `Linework.CommandLine.Grammar`: options and words

The arguments of one level of a command line are options, which begin with two
hyphens, and words. An option is a flag or takes a value, after an equals sign or
as the next argument; unless it says otherwise, the next argument is no value if
it looks like an option itself. Options may come in any order among the words and
only once, those that may be repeated aside. After a `--` everything is a word.

A level either takes a number of words or is left at a word that names a level
below it. Values are looked at as they come, so the first fault decides.
-/

set_option autoImplicit false

namespace Linework.CommandLine

/-- Why reading the arguments ended without a request. -/
inductive Stop where
  /-- The arguments follow no known form. -/
  | misuse
  /-- The user asks how to use the program. -/
  | help
  /-- The user asks for the version. -/
  | version
  deriving DecidableEq, Repr

/-- An option that a level takes. -/
structure OptionSpec where
  /-- The name, without the hyphens. -/
  name : String
  takesValue : Bool
  /-- Whether the next argument is the value even if it looks like an option. -/
  anyValue : Bool
  repeatable : Bool
  /-- The values that the option takes. -/
  accepts : String → Bool

namespace OptionSpec

/-- A flag. -/
def flag (name : String) : OptionSpec := ⟨name, false, false, false, fun _ => true⟩

/-- An option with a value. -/
def valued (name : String) (accepts : String → Bool) : OptionSpec :=
  ⟨name, true, false, false, accepts⟩

end OptionSpec

/-- What the arguments of one level may be. -/
structure Level where
  options : List OptionSpec
  /-- The words that lead to a level below. -/
  sublevels : List String
  /-- What each word that the level takes may be. -/
  words : List (String → Bool)
  /-- Whether the version may be asked for here. -/
  versioned : Bool

/-- The arguments of one level, sorted. -/
structure Given where
  flags : List String
  /-- Options with their values, in order. -/
  values : List (String × String)
  words : List String
  deriving Repr

namespace Given

/-- Nothing given yet. -/
def nothing : Given := ⟨[], [], []⟩

/-- Whether a flag was given. -/
def has (g : Given) (name : String) : Bool := g.flags.contains name

/-- The values of an option, in order. -/
def all (g : Given) (name : String) : List String :=
  (g.values.filter fun v => v.1 = name).map Prod.snd

/-- The value of an option that was given. -/
def value? (g : Given) (name : String) : Option String := g.values.lookup name

/-- Adds a flag, which must not be there. -/
def addFlag (g : Given) (spec : OptionSpec) : Except Stop Given :=
  if g.has spec.name then .error .misuse
  else .ok { g with flags := g.flags ++ [spec.name] }

/-- Adds the value of an option, which must not have one unless it is
repeatable. -/
def addValue (g : Given) (spec : OptionSpec) (value : String) : Except Stop Given :=
  if !spec.accepts value then .error .misuse
  else if !spec.repeatable && (g.value? spec.name).isSome then .error .misuse
  else .ok { g with values := g.values ++ [(spec.name, value)] }

/-- Adds a word, for which the level must have a place. -/
def addWord (g : Given) (level : Level) (word : String) : Except Stop Given :=
  match level.words[g.words.length]? with
  | some accepts =>
    if accepts word then .ok { g with words := g.words ++ [word] } else .error .misuse
  | none => .error .misuse

/-- Adds words one after another. -/
def addWords (g : Given) (level : Level) : List String → Except Stop Given
  | [] => .ok g
  | word :: rest => do
    let g ← g.addWord level word
    g.addWords level rest

end Given

/-- What one argument is, by its spelling. -/
inductive Argument where
  | word
  /-- From here on everything is a word. -/
  | separator
  | option (name : String) (value : Option String)
  /-- Letters after a single hyphen. -/
  | letters (first : Char)

/-- Reads the spelling of an argument. A hyphen alone is a word. -/
def classify (argument : String) : Argument :=
  match argument.toList with
  | ['-', '-'] => .separator
  | '-' :: '-' :: rest =>
    match Text.cutAtFirst? '=' (String.ofList rest) with
    | some (name, value) => .option name (some value)
    | none => .option (String.ofList rest) none
  | '-' :: c :: _ => .letters c
  | _ => .word

/-- Whether an argument looks like an option or the separator. -/
def looksLikeOption (argument : String) : Bool :=
  match classify argument with
  | .word => false
  | _ => true

/-- What letters after a hyphen ask for. -/
def lettersStop (level : Level) (first : Char) : Stop :=
  if first = 'h' then .help
  else if first = 'V' && level.versioned then .version
  else .misuse

/-- What an option that the level does not take asks for. -/
def unknownOption (level : Level) (name : String) (value : Option String) : Stop :=
  if value.isSome then .misuse
  else if name = "help" then .help
  else if name = "version" && level.versioned then .version
  else .misuse

/-- Reads the arguments of a level, up to a word that leads to a level below. That
word and the arguments after it are left. -/
def readLevel (level : Level) : Given → List String → Except Stop (Given × List String)
  | given, [] => .ok (given, [])
  | given, argument :: rest =>
    if argument ∈ level.sublevels then .ok (given, argument :: rest)
    else match classify argument with
      | .word => do
        let given ← given.addWord level argument
        readLevel level given rest
      | .separator => do
        let given ← given.addWords level rest
        return (given, [])
      | .letters first => .error (lettersStop level first)
      | .option name value =>
        match level.options.find? fun spec => spec.name = name, value with
        | none, _ => .error (unknownOption level name value)
        | some spec, some value =>
          if spec.takesValue then do
            let given ← given.addValue spec value
            readLevel level given rest
          else .error .misuse
        | some spec, none =>
          if spec.takesValue then
            match rest with
            | [] => .error .misuse
            | value :: rest =>
              if looksLikeOption value && !spec.anyValue then .error .misuse
              else do
                let given ← given.addValue spec value
                readLevel level given rest
          else do
            let given ← given.addFlag spec
            readLevel level given rest

end Linework.CommandLine
