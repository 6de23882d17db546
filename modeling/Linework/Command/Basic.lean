import Linework.Command.Action

/-!
# `Linework.Command`: commands

A command ties a name and its aliases to an action and to the parameters that the
action's arguments are checked against. Whether the parameters fit the action is
up to whoever puts a command together.
-/

set_option autoImplicit false

namespace Linework

/-- A command of the sketch language. -/
structure Command where
  name : String
  aliases : List String
  description : String
  required : List Param
  optional : List Param
  action : Action
  deriving Repr

namespace Command

/-- The names that a line may call the command by. -/
def names (c : Command) : List String := c.name :: c.aliases

/-- The parameters by position. -/
def params (c : Command) : List Param := c.required ++ c.optional

/-- Matches tokens to the command's parameters. -/
def check (c : Command) (tokens : List String) : ArgCheck :=
  checkArguments tokens c.required c.optional

/-- Checks the tokens and, if all is well, does what the command is for. An error is
the hint of a line that halts the pass. -/
def work (c : Command) (tokens : List String) (view : Viewport) : Work String String :=
  let checked := c.check tokens
  if checked.isOk then (c.action.work checked.values view).adaptExcept Diagnostic.message
  else throw checked.hint

/-- Invokes the command where the cursor is and with what is known about pictures. -/
def invoke (c : Command) (tokens : List String) (view : Viewport) (cursor : Cursor)
    (cache : Cache) : Except String Effect :=
  (c.work tokens view).outcome cursor cache

/-- How to call the command, in one line. -/
def usage (c : Command) : String :=
  " ".intercalate (c.name :: (c.required.map Param.requiredUsage
    ++ c.optional.map Param.optionalUsage))

/-- The command as JSON. -/
def toJson (c : Command) : Json :=
  .record [("name", .text c.name), ("aliases", .texts c.aliases),
    ("description", .text c.description),
    ("required", .array (c.required.map Param.toJson)),
    ("optional", .array (c.optional.map Param.toJson))]

end Command

end Linework
