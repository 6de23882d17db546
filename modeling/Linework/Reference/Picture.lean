import Linework.Diagnostic
import Linework.Failure

/-!
# `Linework.Reference.Picture`: pictures and how they are reported

A reference line draws a picture that was loaded earlier. An `Entry` is what is
known under a key once loading ended: the picture, or the reason that there is
none. Its `status` is the line's hint. A picture is *fresh* until the arrival
that announced it has been dealt with; after that it counts as cached.
-/

set_option autoImplicit false

namespace Linework

/-- A loaded picture, as far as drawing it is concerned. -/
structure Picture where
  /-- The address it was loaded from. -/
  source : String
  width : Nat
  height : Nat
  deriving DecidableEq, Repr

namespace Picture

/-- Width and height in words. -/
def sizeLabel (p : Picture) : String :=
  numeral p.width ++ "×" ++ numeral p.height

end Picture

/-- How loading ended. -/
inductive EntryState where
  | downloaded (picture : Picture) (fresh : Bool)
  | failed (reason : String)
  deriving DecidableEq, Repr

/-- What is known under a key. -/
structure Entry where
  key : String
  state : EntryState
  deriving DecidableEq, Repr

/-- The hint of a reference whose picture is still on its way. -/
def downloadingHint : String := "downloading…"

/-- The hint of a reference whose picture cannot be had. -/
def failedHint : String := "failed to download"

namespace EntryState

/-- The picture, if loading it succeeded. -/
def picture? : EntryState → Option Picture
  | downloaded picture _ => some picture
  | failed _ => none

/-- The hint of a reference in this state. -/
def status : EntryState → String
  | downloaded picture true => "downloaded, " ++ picture.sizeLabel
  | downloaded picture false => "cached, " ++ picture.sizeLabel
  | failed _ => failedHint

/-- The state once its arrival has been dealt with. -/
def settled : EntryState → EntryState
  | downloaded picture _ => downloaded picture false
  | failed reason => failed reason

/-- The state right after loading. -/
def ofOutcome (fresh : Bool) : Except Failure Picture → EntryState
  | .ok picture => downloaded picture fresh
  | .error failure => failed failure.message

end EntryState

end Linework
