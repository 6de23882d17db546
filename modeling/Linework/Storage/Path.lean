import Linework.Text

/-!
# `Linework.Storage.Path`: the spelling of paths, and where files are kept

A path is a text of names with slashes between them. It is absolute if it begins
with a slash. Empty names and the name `.` mean nothing, except that the first
name of a path always counts: an empty one there is the root, and a `.` there is
kept when the path is cut.

The functions here work on the spelling alone. What a path leads to is asked of a
`FileSystem`.

Settings and the script between sessions live in one directory under names of
their own (`Places`). Unless a directory is given, it is the program's directory
among the user's configuration.
-/

set_option autoImplicit false

namespace Linework

namespace Path

/-- The names of a path, empty ones included. -/
def names (path : String) : List String :=
  Text.pieces '/' path

/-- Whether a path begins at the root. -/
def isAbsolute (path : String) : Bool :=
  Text.hasHead "/" path

/-- Whether a path ends in a slash. -/
def endsInSlash (path : String) : Bool :=
  path.toList.getLast? == some '/'

/-- A path followed by another one. An absolute path replaces what comes before
it, and one slash stands between the two parts otherwise. -/
def join (base path : String) : String :=
  if isAbsolute path then path
  else if base = "" || endsInSlash base then base ++ path
  else base ++ "/" ++ path

/-- Whether a name after the first one means nothing. -/
def isIdle (name : String) : Bool :=
  name = "" || name = "."

/-- Names without the idle ones at the end. -/
def dropIdleEnd (ns : List String) : List String :=
  (ns.reverse.dropWhile isIdle).reverse

/-- The name that a path ends in, unless it ends by going up. -/
def fileName? (path : String) : Option String :=
  match ((names path).filter fun n => !isIdle n).getLast? with
  | none => none
  | some name => if name = ".." then none else some name

/-- The spelling of names. The root alone is one slash. -/
def spell (ns : List String) : String :=
  if ns = [""] then "/" else "/".intercalate ns

/-- A path without its last name. The root and the empty path have no parent. -/
def parent? (path : String) : Option String :=
  match names path with
  | [] => none
  | first :: rest =>
    let rest := dropIdleEnd rest
    if rest.isEmpty then (if first = "" then none else some "")
    else some (spell (first :: dropIdleEnd rest.dropLast))

/-- A path whose last name is replaced, or extended by a name if it has none. -/
def withFileName (path name : String) : String :=
  match fileName? path with
  | none => join path name
  | some _ => join ((parent? path).getD "") name

/-- A path beside `path`, named like it with an ending. -/
def sibling (path ending : String) : String :=
  withFileName path ((fileName? path).getD "" ++ ending)

end Path

/-- The variables of the surroundings that say where the user's files are. -/
structure Environment where
  configHome : Option String
  home : Option String
  userProfile : Option String
  deriving Repr

namespace Places

/-- The name of the program's own directory. -/
def appId : String := "dev.sketchline.app"

/-- The settings file in a configuration directory. -/
def settingsPath (dir : String) : String := Path.join dir "settings.json"

/-- The script between sessions in a configuration directory. -/
def scriptPath (dir : String) : String := Path.join dir "script.thtm"

/-- The user's directory; the working directory when none is known. -/
def homeDir (env : Environment) : String :=
  ((env.home <|> env.userProfile)).getD "."

/-- The program's directory among the user's configuration. A variable that is set
counts even when it is empty. -/
def appConfigDir (env : Environment) : String :=
  Path.join (env.configHome.getD (Path.join (homeDir env) ".config")) appId

end Places

end Linework
