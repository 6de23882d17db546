import Linework.Command.Action

/-!
# `Linework.Pass.Report`: what a pass tells

A pass over a script ends in a verdict: it went through, or it halted at a line.
The report adds the hints of the lines it came to, where the cursor ended, how
many lines the script has, and which pass it was.
-/

set_option autoImplicit false

namespace Linework

/-- How a pass ended. -/
inductive Verdict where
  | completed
  /-- The line, counted from one, is the last that has a hint. -/
  | halted (line : Nat)
  deriving DecidableEq, Repr

namespace Verdict

/-- Whether the pass stopped before the end. -/
def isHalted : Verdict → Bool
  | completed => false
  | halted _ => true

/-- The fields of the verdict as JSON. -/
def fields : Verdict → List (String × Json)
  | completed => [("state", .text "completed")]
  | halted line => [("state", .text "halted"), ("line", .ofNat line)]

end Verdict

/-- The account of one pass. -/
structure Report where
  /-- One hint for each line that the pass came to. -/
  hints : List String
  verdict : Verdict
  cursor : Cursor
  /-- How many lines the script has. -/
  lines : Nat
  /-- Which pass it was, counted from one. -/
  generation : Nat
  deriving Repr

namespace Report

/-- The report as JSON. -/
def toJson (r : Report) : Json :=
  .record [("hints", .texts r.hints), ("state", .record r.verdict.fields),
    ("cursor", r.cursor.toJson), ("lines", .ofNat r.lines), ("generation", .ofNat r.generation)]

/-- The report's fields as JSON ordered by name, at every level. -/
def sortedFields (r : Report) : List (String × Json) :=
  [("hints", .texts r.hints), ("state", .sortedRecord r.verdict.fields),
    ("cursor", r.cursor.toJson), ("lines", .ofNat r.lines), ("generation", .ofNat r.generation)]

end Report

end Linework
