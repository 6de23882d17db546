import Linework.Argument.Check
import Linework.Canvas.DrawOp
import Linework.Canvas.Viewport
import Linework.Reference.Cache

/-!
# `Linework.Command.Action`: what commands do

A command line does one of five things: it moves the cursor along an axis or both
and draws the way, bends that way into a curve, or places a picture. It does so in
steps, on a `Sheet`: the cursor, what was drawn so far, and the pictures. Work on a
sheet can break off, and then what it did before stays done; so an action reads
everything it needs before it changes anything.

Work that does not break off has an `Effect`: the line's hint, the cursor and the
cache after it, and the drawing operations it adds.
-/

set_option autoImplicit false

namespace Linework

/-- The logical position at which the next stretch of the path begins. -/
structure Cursor where
  x : Float
  y : Float
  deriving Repr

namespace Cursor

/-- Where every pass begins. -/
def origin : Cursor := ⟨0.0, 0.0⟩

/-- The position as the hint of a path line. -/
def hint (c : Cursor) : String :=
  formatNumber c.x ++ "×" ++ formatNumber c.y

/-- The position as JSON. -/
def toJson (c : Cursor) : Json :=
  .record [("x", .ofFloat c.x), ("y", .ofFloat c.y)]

end Cursor

/-- What the lines of a pass work on: the cursor, what was drawn so far, and the
pictures. -/
structure Sheet where
  cursor : Cursor
  ops : List DrawOp
  cache : Cache
  deriving Repr

/-- Work on a sheet. It may break off with an error, and leaves the sheet as it is by
then. -/
abbrev Work (ε α : Type) := EStateM ε Sheet α

/-- What a line that succeeds leaves behind. -/
structure Effect where
  hint : String
  cursor : Cursor
  ops : List DrawOp
  cache : Cache
  deriving Repr

namespace Work

variable {ε : Type}

/-- Adds operations to what was drawn. -/
def draw (ops : List DrawOp) : Work ε Unit :=
  modify fun sheet => { sheet with ops := sheet.ops ++ ops }

/-- Moves the cursor along the first axis. -/
def moveX (x : Float) : Work ε Unit :=
  modify fun sheet => { sheet with cursor.x := sheet.cursor.x + x }

/-- Moves the cursor along the second axis. -/
def moveY (y : Float) : Work ε Unit :=
  modify fun sheet => { sheet with cursor.y := sheet.cursor.y + y }

/-- Asks for the picture at an address. -/
def request (url : String) : Work ε Unit :=
  modify fun sheet => { sheet with cache := sheet.cache.request url url }

/-- What work that ends in a hint comes to on a sheet on which nothing was drawn. -/
def outcome (work : Work ε String) (cursor : Cursor) (cache : Cache) : Except ε Effect :=
  match work.run ⟨cursor, [], cache⟩ with
  | .ok hint sheet => .ok ⟨hint, sheet.cursor, sheet.ops, sheet.cache⟩
  | .error problem _ => .error problem

end Work

/-- What a command does with its arguments. -/
inductive Action where
  /-- Moves the cursor by `x` along the first axis. -/
  | horizontalLine
  /-- Moves the cursor by `y` along the second axis. -/
  | verticalLine
  /-- Moves the cursor by `x` and `y`. -/
  | line
  /-- Moves the cursor by `x` and `y` along a curve that bulges by `radius`. -/
  | arc
  /-- Places the picture at the address `url`, at `x` and `y`. -/
  | reference
  deriving DecidableEq, Repr

namespace Action

/-- The label at the control point of a curve. -/
def controlLabel : String := ". control"

/-- The number under a name. The check of a fitting parameter list has put one
there. -/
def requireNumber (args : Arguments) (name : String) : Work Diagnostic Float :=
  match args.number? name with
  | some value => return value
  | none => throw (.missingArgument name)

/-- Draws straight to where the cursor is now. -/
def lineToCursor (view : Viewport) : Work Diagnostic String := do
  let cursor := (← get).cursor
  .draw [.lineTo (view.screenX cursor.x) (view.screenY cursor.y)]
  return cursor.hint

/-- The control point of a curve: the middle of the chord, pushed out by the radius
on each axis along which the cursor moves. `flip` picks the side. -/
def controlPoint (start : Cursor) (x y radius : Float) (flip : Bool) : Cursor :=
  let direction : Float := if flip then 1.0 else -1.0
  let shiftX := radius * Binary64.sign (x * direction)
  let shiftY := radius * Binary64.sign (y * direction)
  ⟨start.x + x / 2.0 + shiftX, start.y + y / 2.0 - shiftY⟩

/-- A picture at a logical position, if there is one to draw. -/
def placePicture (view : Viewport) (x y : Float) (state : EntryState) : List DrawOp :=
  match state.picture? with
  | some picture =>
    [.drawImage picture.source (view.screenX x) (view.screenY y)
      (view.scale (Float.ofNat picture.width)) (view.scale (Float.ofNat picture.height))]
  | none => []

/-- Does what the action is for, step by step. A picture that is not known yet is
requested and will be drawn by a later pass. -/
def work (a : Action) (args : Arguments) (view : Viewport) : Work Diagnostic String :=
  match a with
  | horizontalLine => do
    let x ← requireNumber args "x"
    .moveX x
    lineToCursor view
  | verticalLine => do
    let y ← requireNumber args "y"
    .moveY y
    lineToCursor view
  | line => do
    let x ← requireNumber args "x"
    let y ← requireNumber args "y"
    .moveX x
    .moveY y
    lineToCursor view
  | arc => do
    let x ← requireNumber args "x"
    let y ← requireNumber args "y"
    let radius ← requireNumber args "radius"
    -- The control point is told by where the curve begins, so it is computed before the cursor
    -- moves.
    let control := controlPoint (← get).cursor x y radius ((args.truth? "flip").getD false)
    let cx := view.screenX control.x
    let cy := view.screenY control.y
    .draw [.fillText controlLabel cx cy]
    .moveX x
    .moveY y
    let target := (← get).cursor
    .draw [.quadraticCurveTo cx cy (view.screenX target.x) (view.screenY target.y)]
    return target.hint
  | reference => do
    let some url := args.text? "url" | throw (.missingArgument "url")
    let some state := (← get).cache.get? url | do
      .request url
      return downloadingHint
    .draw (placePicture view ((args.number? "x").getD 0.0) ((args.number? "y").getD 0.0) state)
    return state.status

/-- Does what the action is for, where the cursor is and with what is known about
pictures. -/
def perform (a : Action) (args : Arguments) (view : Viewport) (cursor : Cursor)
    (cache : Cache) : Except Diagnostic Effect :=
  (a.work args view).outcome cursor cache

end Action

end Linework
