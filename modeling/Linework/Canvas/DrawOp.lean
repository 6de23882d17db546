import Linework.Json.Basic

/-!
# `Linework.Canvas.DrawOp`: drawing operations and frames

A canvas is driven by drawing operations in screen coordinates. A `Recording`
keeps all of them in order; what is on the canvas now is the part from the last
`clear` on (`currentFrame`), for clearing wipes whatever came before.
-/

set_option autoImplicit false

namespace Linework

/-- One operation on the canvas. -/
inductive DrawOp where
  /-- Wipes the canvas. -/
  | clear
  /-- Begins a path. -/
  | moveTo (x y : Float)
  /-- Extends the path by a straight line. -/
  | lineTo (x y : Float)
  /-- Extends the path by a curve that bends toward a control point. -/
  | quadraticCurveTo (cx cy x y : Float)
  /-- Draws a picture, scaled to a size. -/
  | drawImage (source : String) (x y width height : Float)
  /-- Writes a label. -/
  | fillText (text : String) (x y : Float)
  /-- Makes the path visible. -/
  | stroke
  deriving Repr

namespace DrawOp

/-- Whether the operation wipes the canvas. -/
def isClear : DrawOp → Bool
  | clear => true
  | _ => false

/-- Whether the operation writes a label. -/
def isLabel : DrawOp → Bool
  | fillText .. => true
  | _ => false

/-- Whether the operation draws a picture. -/
def isImage : DrawOp → Bool
  | drawImage .. => true
  | _ => false

/-- What a canvas without labels receives: all but the labels. -/
def withoutLabels (ops : List DrawOp) : List DrawOp :=
  ops.filter fun op => !op.isLabel

/-- The fields of the operation as JSON, its name first. -/
def fields : DrawOp → List (String × Json)
  | clear => [("op", .text "clear")]
  | moveTo x y => [("op", .text "move_to"), ("x", .ofFloat x), ("y", .ofFloat y)]
  | lineTo x y => [("op", .text "line_to"), ("x", .ofFloat x), ("y", .ofFloat y)]
  | quadraticCurveTo cx cy x y =>
    [("op", .text "quadratic_curve_to"), ("cx", .ofFloat cx), ("cy", .ofFloat cy),
      ("x", .ofFloat x), ("y", .ofFloat y)]
  | drawImage source x y width height =>
    [("op", .text "draw_image"), ("source", .text source), ("x", .ofFloat x),
      ("y", .ofFloat y), ("width", .ofFloat width), ("height", .ofFloat height)]
  | fillText text x y =>
    [("op", .text "fill_text"), ("text", .text text), ("x", .ofFloat x), ("y", .ofFloat y)]
  | stroke => [("op", .text "stroke")]

/-- The operation as JSON. -/
def toJson (op : DrawOp) : Json := .record op.fields

/-- The operation as JSON with its fields ordered by name. -/
def toSortedJson (op : DrawOp) : Json := .sortedRecord op.fields

end DrawOp

/-- The operations that a canvas has received, oldest first. -/
structure Recording where
  ops : List DrawOp
  deriving Repr

namespace Recording

/-- A canvas that has received nothing. -/
def empty : Recording := ⟨[]⟩

/-- The canvas receives more operations. -/
def append (r : Recording) (ops : List DrawOp) : Recording := ⟨r.ops ++ ops⟩

/-- The operations from the last `clear` on, if there is one. -/
def sinceClear? : List DrawOp → Option (List DrawOp)
  | [] => none
  | op :: rest =>
    match sinceClear? rest with
    | some frame => some frame
    | none => if op.isClear then some (op :: rest) else none

/-- What is on the canvas: everything since it was last cleared. -/
def currentFrame (r : Recording) : List DrawOp :=
  (sinceClear? r.ops).getD r.ops

end Recording

end Linework
