import Linework.Command.Registry

/-!
# `Linework.Command.Builtin`: the commands every sketch can use

Five commands, one for each action, with the parameters that the action reads.
-/

set_option autoImplicit false

namespace Linework

namespace Command

/-- Moves along the first axis. -/
def horizontalLine : Command where
  name := "horizontal-line"
  aliases := ["h", "x"]
  description := "Move the cursor horizontally, drawing a line"
  required := [.plain "x" .number]
  optional := []
  action := .horizontalLine

/-- Moves along the second axis. -/
def verticalLine : Command where
  name := "vertical-line"
  aliases := ["v", "y"]
  description := "Move the cursor vertically, drawing a line"
  required := [.plain "y" .number]
  optional := []
  action := .verticalLine

/-- Moves along both axes. -/
def line : Command where
  name := "line"
  aliases := ["l"]
  description := "Move the cursor by (x, y), drawing a line"
  required := [.plain "x" .number, .plain "y" .number]
  optional := []
  action := .line

/-- Moves along a curve. -/
def arc : Command where
  name := "arc"
  aliases := ["a"]
  description := "Move the cursor by (x, y) along a curve bulging by radius"
  required := [.plain "x" .number, .plain "y" .number, .plain "radius" .number]
  optional := [.withFallback "flip" .truth (.truth false)]
  action := .arc

/-- Places a picture. -/
def reference : Command where
  name := "reference"
  aliases := ["ref"]
  description := "Draw a reference image at (x, y), downloading it first if needed"
  required := [.plain "url" .text]
  optional := [.withFallback "x" .number (.number 0.0), .withFallback "y" .number (.number 0.0)]
  action := .reference

end Command

/-- The registry of the five commands. -/
def builtinRegistry : Registry :=
  ⟨[.horizontalLine, .verticalLine, .line, .arc, .reference]⟩

end Linework
