import Linework.Command.Registry

/-!
# `Linework.Command.Catalog`: commands described

Editors get the commands as JSON, each with a schema of its parameters; users get
help texts, an overview of all commands or the parameters of one.
-/

set_option autoImplicit false

namespace Linework

namespace Param

/-- The fields of a parameter's schema: the type of its values, the words it takes
if there is a choice of them, and its declared value. -/
def schemaFields (p : Param) : List (String × Json) :=
  let kind := match p.kind with
    | .text => [("type", .text "string")]
    | .number => [("type", .text "number")]
    | .truth => [("type", .text "boolean")]
    | .choice options => [("type", .text "string"), ("enum", .texts options)]
  kind ++ (match p.fallback with
    | some value => [("default", value.toJson)]
    | none => [])

/-- The schema of a parameter. -/
def schema (p : Param) : Json := .sortedRecord p.schemaFields

/-- A required parameter in a help text. -/
def requiredHelp (p : Param) : String :=
  "  " ++ p.name ++ " (" ++ p.kind.label ++ ", required)"

/-- An optional parameter in a help text. -/
def optionalHelp (p : Param) : String :=
  let fallback := match p.fallback with
    | some value => ", default " ++ value.display
    | none => ""
  "  " ++ p.name ++ " (" ++ p.kind.label ++ ", optional" ++ fallback ++ ")"

end Param

namespace Command

/-- The schema of a command's parameters. -/
def inputSchema (c : Command) : Json :=
  .sortedRecord [
    ("type", .text "object"),
    ("properties", .sortedRecord (c.params.map fun p => (p.name, p.schema))),
    ("required", .texts (c.required.map Param.name))]

/-- The command as an entry of the catalog. -/
def catalogEntry (c : Command) : Json :=
  .sortedRecord [
    ("name", .text c.name),
    ("aliases", .texts c.aliases),
    ("description", .text c.description),
    ("usage", .text c.usage),
    ("inputSchema", c.inputSchema)]

/-- The command's line in the overview. -/
def overviewLine (c : Command) : String :=
  let aliases := if c.aliases.isEmpty then "" else " (" ++ ", ".intercalate c.aliases ++ ")"
  "  " ++ c.name ++ aliases ++ ": " ++ c.description

/-- The lines that describe the command. -/
def helpLines (c : Command) : List String :=
  [c.name ++ ": " ++ c.description, "Usage: " ++ c.usage]
    ++ (if c.aliases.isEmpty then [] else ["Aliases: " ++ ", ".intercalate c.aliases])
    ++ ["", "Parameters:"]
    ++ c.required.map Param.requiredHelp
    ++ c.optional.map Param.optionalHelp

end Command

namespace Registry

/-- All commands as JSON. -/
def catalog (r : Registry) : Json :=
  .array (r.commands.map Command.catalogEntry)

/-- The overview of all commands. -/
def overview (r : Registry) : String :=
  "\n".intercalate ("Commands:" :: (r.commands.map Command.overviewLine
    ++ ["", "Lines starting with // are comments.",
      "Use `help <command>` for parameter details."]))

/-- The help on a topic, the name of a command, or the overview without one. -/
def helpText (r : Registry) : Option String → String
  | none => r.overview
  | some topic =>
    match r.lookup? topic with
    | some c => "\n".intercalate c.helpLines
    | none =>
      "Unknown topic: \"" ++ topic ++ "\". Run help without a topic to list commands."

end Registry

end Linework
