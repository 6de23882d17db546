import Linework.Json.Basic

/-!
# `Linework.Canvas.Viewport`: from sketch to screen

A sketch is drawn in logical coordinates. The viewport places them on the screen:
`screen = pan + logical · zoom`, each axis on its own, so the pan is where the
logical origin appears.
-/

set_option autoImplicit false

namespace Linework

/-- Pan and zoom of the canvas. -/
structure Viewport where
  panX : Float
  panY : Float
  zoom : Float
  deriving Repr

namespace Viewport

/-- The origin in the corner, nothing scaled. -/
def initial : Viewport := ⟨0.0, 0.0, 1.0⟩

/-- The origin in the middle of a canvas, on a whole pixel. -/
def centered (width height : UInt32) : Viewport :=
  ⟨Float.ofNat (width.toNat / 2), Float.ofNat (height.toNat / 2), 1.0⟩

/-- Where the logical abscissa `x` appears. -/
def screenX (v : Viewport) (x : Float) : Float := v.panX + x * v.zoom

/-- Where the logical ordinate `y` appears. -/
def screenY (v : Viewport) (y : Float) : Float := v.panY + y * v.zoom

/-- How long a logical length appears. -/
def scale (v : Viewport) (length : Float) : Float := length * v.zoom

/-- Moves the origin. -/
def panBy (v : Viewport) (dx dy : Float) : Viewport :=
  { v with panX := v.panX + dx, panY := v.panY + dy }

/-- Zooms by a wheel turn, a hundredth per unit. A pinch counts the other way. The
zoom stops at zero, below which the sketch would be flipped. -/
def zoomBy (v : Viewport) (delta : Float) (pinch : Bool) : Viewport :=
  let step := delta / 100.0
  let zoom := v.zoom + (if pinch then -step else step)
  { v with zoom := if zoom < 0.0 then 0.0 else zoom }

/-- Back to nothing scaled. -/
def resetZoom (v : Viewport) : Viewport := { v with zoom := 1.0 }

/-- The pan of another viewport with the zoom of this one. -/
def recenter (v center : Viewport) : Viewport :=
  { v with panX := center.panX, panY := center.panY }

/-- The numeral of an integer. -/
def integerText (n : Int) : String :=
  String.ofList (if n < 0 then '-' :: NumberFormat.digits n.natAbs
    else NumberFormat.digits n.natAbs)

/-- The zoom in whole percent. A zoom beyond the range of a signed 64-bit integer
shows the end of that range. -/
def zoomLabel (v : Viewport) : String :=
  integerText
    (Binary64.truncateWithin (-0x8000000000000000) 0x7FFFFFFFFFFFFFFF (v.zoom * 100.0)) ++ " %"

/-- How far a pointer on the canvas is from the origin. -/
def pointerLabel (v : Viewport) (x y : Float) : String :=
  formatNumber (x - v.panX) ++ "×" ++ formatNumber (y - v.panY)

/-- The viewport as JSON. -/
def toJson (v : Viewport) : Json :=
  .record [("pan_x", .ofFloat v.panX), ("pan_y", .ofFloat v.panY), ("zoom", .ofFloat v.zoom)]

end Viewport

end Linework
