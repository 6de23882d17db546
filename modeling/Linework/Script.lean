import Linework.Text

/-!
# `Linework.Script`: what a script line says, and a script with its hints

A script is a text of lines. A line that is blank, or whose first characters are
the comment mark, says nothing. Any other line calls a command by its first word
and hands it the words after it. Words are separated by one space each, so two
spaces in a row have an empty word between them; other blanks separate nothing,
but do not count at the ends of a word.

A listing shows every source line, trimmed at the end, and under it the line's
hint, indented by four spaces. Lines without a hint, be it empty or missing
because the pass stopped earlier, stand alone.
-/

set_option autoImplicit false

namespace Linework

/-- What stands before a comment. -/
def commentMark : String := "//"

/-- What a line of a script says. -/
inductive Line where
  /-- Nothing. -/
  | silent
  /-- A command is to run on tokens. -/
  | call (name : String) (tokens : List String)
  deriving DecidableEq, Repr

namespace Line

/-- The words of a text, each without the blanks around it. -/
def words (text : String) : List String :=
  (Text.pieces ' ' text).map Text.trim

/-- Whether a trimmed line says nothing. -/
def saysNothing (text : String) : Bool :=
  text = "" || Text.hasHead commentMark text

/-- Reads a line. -/
def read (source : String) : Line :=
  let text := Text.trim source
  if saysNothing text then silent
  else match words text with
    | [] => silent
    | name :: tokens => call name tokens

end Line

/-- Reads every line of a script. -/
def readScript (script : String) : List Line :=
  (Text.lines script).map Line.read

namespace Listing

/-- What stands before a hint. -/
def indent : String := "    "

/-- The line of a hint; an empty hint has none. -/
def hintLines (hint : String) : List String :=
  if hint = "" then [] else [indent ++ hint]

/-- The lines of a listing. -/
def rows : List String → List String → List String
  | [], _ => []
  | line :: lines, [] => Text.trimEnd line :: rows lines []
  | line :: lines, hint :: hints => Text.trimEnd line :: (hintLines hint ++ rows lines hints)

end Listing

/-- A script with its hints. Every line of the listing ends in a line break. -/
def annotate (source : String) (hints : List String) : String :=
  String.join ((Listing.rows (Text.lines source) hints).map (· ++ "\n"))

end Linework
