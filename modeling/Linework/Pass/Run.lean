import Linework.Command.Registry
import Linework.Pass.Report
import Linework.Script

/-!
# `Linework.Pass.Run`: one pass over a script

A pass wipes the canvas, begins a path at the origin, goes through the lines from
the top, and makes the path visible. Every line it comes to leaves one hint. A
line that fails leaves its reason as the hint and is the last one; what was done
before it broke off stays.

`traceLines` is the middle part. It is a recursion over the lines in which only
the cursor and the cache pass from one line to the next.
-/

set_option autoImplicit false

namespace Linework

/-- What going through lines leaves behind. -/
structure Trace where
  hints : List String
  verdict : Verdict
  cursor : Cursor
  ops : List DrawOp
  cache : Cache
  deriving Repr

namespace Trace

/-- No lines are left. -/
def done (cursor : Cursor) (cache : Cache) : Trace := ⟨[], .completed, cursor, [], cache⟩

/-- A line broke off and left the sheet like this. The lines after it are not looked
at. -/
def stopped (line : Nat) (hint : String) (sheet : Sheet) : Trace :=
  ⟨[hint], .halted line, sheet.cursor, sheet.ops, sheet.cache⟩

/-- A line succeeded, and the trace of the lines after it is known. -/
def after (effect : Effect) (rest : Trace) : Trace :=
  { rest with hints := effect.hint :: rest.hints, ops := effect.ops ++ rest.ops }

end Trace

namespace Registry

/-- Does what a line says. -/
def work (r : Registry) (view : Viewport) : Line → Work String String
  | .silent => return ""
  | .call name tokens =>
    match r.lookup? name with
    | some command => command.work tokens view
    | none => throw (Diagnostic.unknownCommand name).message

/-- Does what a line says, where the cursor is and with what is known about
pictures. -/
def runLine (r : Registry) (view : Viewport) (cursor : Cursor) (cache : Cache) (line : Line) :
    Except String Effect :=
  (r.work view line).outcome cursor cache

/-- Goes through lines, the first of which is line `number` of its script. -/
def traceLines (r : Registry) (view : Viewport) :
    Nat → List Line → Cursor → Cache → Trace
  | _, [], cursor, cache => .done cursor cache
  | number, line :: rest, cursor, cache =>
    match (r.work view line).run ⟨cursor, [], cache⟩ with
    | .ok hint sheet =>
      .after ⟨hint, sheet.cursor, sheet.ops, sheet.cache⟩
        (r.traceLines view (number + 1) rest sheet.cursor sheet.cache)
    | .error hint sheet => .stopped number hint sheet

end Registry

/-- A pass: its report, all it drew, and the cache after it. -/
structure Pass where
  report : Report
  ops : List DrawOp
  cache : Cache
  deriving Repr

/-- Runs a pass over a script. -/
def runPass (r : Registry) (view : Viewport) (script : String) (cache : Cache)
    (generation : Nat) : Pass :=
  let lines := readScript script
  let trace := r.traceLines view 1 lines .origin cache
  { report :=
      { hints := trace.hints
        verdict := trace.verdict
        cursor := trace.cursor
        lines := lines.length
        generation := generation }
    ops := .clear :: .moveTo view.panX view.panY :: (trace.ops ++ [.stroke])
    cache := trace.cache }

end Linework
