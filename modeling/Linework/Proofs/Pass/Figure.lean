import Linework.Command.Builtin
import Linework.Proofs.Argument.Checked
import Linework.Proofs.Number.NegativeZero
import Linework.Proofs.Pass.Pictures

/-!
# `Linework.Proofs.Pass.Figure`: the built-in lines, read directly

A line of the built-in language says one of four things: nothing, a straight stretch of the path,
a bent one, or a picture. `Line.figure?` reads that off its words, by their number and the twelve
names, with no registry, no parameter list and no check in between; a line that it does not read
is one that fails. `figure?_deed` says that this is what the built-in registry makes of the line.

A stretch is told by how far it goes along both axes, so a horizontal line is one that goes
nowhere along the second axis. The program leaves that coordinate alone, while a sum of vectors
adds zero to it. The two agree because the cursor is never at negative zero
(`Figure.target_eq_of_figure?`).
-/

set_option autoImplicit false

namespace Linework

/-! ## Positions and the way between them -/

namespace Cursor

/-- The position after a step along both axes. -/
def moved (start step : Cursor) : Cursor := ⟨start.x + step.x, start.y + step.y⟩

/-- No coordinate is negative zero. -/
structure Plain (c : Cursor) : Prop where
  x : c.x ≠ Binary64.negativeZero
  y : c.y ≠ Binary64.negativeZero

/-- The origin is at zero and not at negative zero. -/
theorem plain_origin : origin.Plain := ⟨by decide +kernel, by decide +kernel⟩

/-- From a plain position every step leads to a plain one, for no sum of numbers that are not both
negative zero is negative zero. -/
theorem Plain.moved {c : Cursor} (h : c.Plain) (step : Cursor) : (c.moved step).Plain :=
  ⟨Binary64.add_ne_negativeZero h.x _, Binary64.add_ne_negativeZero h.y _⟩

/-- A step along the first axis only. -/
theorem Plain.moved_x {c : Cursor} (h : c.Plain) (x : Float) : c.moved ⟨x, 0.0⟩ = ⟨c.x + x, c.y⟩ :=
  congrArg (Cursor.mk (c.x + x)) (Binary64.add_zero_of_ne h.y)

/-- A step along the second axis only. -/
theorem Plain.moved_y {c : Cursor} (h : c.Plain) (y : Float) : c.moved ⟨0.0, y⟩ = ⟨c.x, c.y + y⟩ :=
  congrArg (Cursor.mk · (c.y + y)) (Binary64.add_zero_of_ne h.x)

end Cursor

/-! ## Figures -/

/-- What a line of the built-in language draws. -/
inductive Figure where
  /-- Nothing. -/
  | blank
  /-- A straight stretch of the path. -/
  | straight (step : Cursor)
  /-- A stretch of the path that bulges by a radius. -/
  | bent (step : Cursor) (radius : Float) (flip : Bool)
  /-- The picture at an address, if there is one. -/
  | picture (url : String) (spot : Cursor)

namespace Figure

/-- How far a stretch of the path goes. -/
def step? : Figure → Option Cursor
  | straight step => some step
  | bent step _ _ => some step
  | _ => none

/-- Where a figure that begins at a position ends. -/
def target (f : Figure) (start : Cursor) : Cursor :=
  match f.step? with
  | some step => start.moved step
  | none => start

/-- The drawing operations of a figure that begins at one position and ends at another. -/
def block (f : Figure) (view : Viewport) (start stop : Cursor) (look : String → Option EntryState) :
    List DrawOp :=
  match f with
  | blank => []
  | straight _ => [.lineTo (view.screenX stop.x) (view.screenY stop.y)]
  | bent step radius flip =>
    let control := Action.controlPoint start step.x step.y radius flip
    [.fillText ". control" (view.screenX control.x) (view.screenY control.y),
      .quadraticCurveTo (view.screenX control.x) (view.screenY control.y)
        (view.screenX stop.x) (view.screenY stop.y)]
  | picture url spot =>
    match look url with
    | some (.downloaded image _) =>
      [.drawImage image.source (view.screenX spot.x) (view.screenY spot.y)
        (view.scale (Float.ofNat image.width)) (view.scale (Float.ofNat image.height))]
    | _ => []

/-- The hint of a figure that ends at a position. -/
def hint (f : Figure) (stop : Cursor) (look : String → Option EntryState) : String :=
  match f with
  | blank => ""
  | straight _ => stop.hint
  | bent _ _ _ => stop.hint
  | picture url _ =>
    match look url with
    | some state => state.status
    | none => downloadingHint

end Figure

/-! ## Reading a line -/

namespace Line

/-- The truth value that a token spells. -/
def truth? (token : String) : Option Bool :=
  if token = "true" ∨ token = "1" then some true
  else if token = "false" ∨ token = "0" then some false
  else none

/-- A horizontal line. -/
def horizontal? : List String → Option Figure
  | [x] => do return .straight ⟨← parseNumber x, 0.0⟩
  | _ => none

/-- A vertical line. -/
def vertical? : List String → Option Figure
  | [y] => do return .straight ⟨0.0, ← parseNumber y⟩
  | _ => none

/-- A line along both axes. -/
def straight? : List String → Option Figure
  | [x, y] => do return .straight ⟨← parseNumber x, ← parseNumber y⟩
  | _ => none

/-- An arc. -/
def bent? : List String → Option Figure
  | [x, y, radius] => do
    return .bent ⟨← parseNumber x, ← parseNumber y⟩ (← parseNumber radius) false
  | [x, y, radius, flip] => do
    return .bent ⟨← parseNumber x, ← parseNumber y⟩ (← parseNumber radius) (← truth? flip)
  | _ => none

/-- A picture. -/
def picture? : List String → Option Figure
  | [url] => some (.picture url ⟨0.0, 0.0⟩)
  | [url, x] => do return .picture url ⟨← parseNumber x, 0.0⟩
  | [url, x, y] => do return .picture url ⟨← parseNumber x, ← parseNumber y⟩
  | _ => none

/-- What a line draws; nothing can be read from a line that fails. -/
def figure? : Line → Option Figure
  | silent => some .blank
  | call name tokens =>
    if name ∈ ["horizontal-line", "h", "x"] then horizontal? tokens
    else if name ∈ ["vertical-line", "v", "y"] then vertical? tokens
    else if name ∈ ["line", "l"] then straight? tokens
    else if name ∈ ["arc", "a"] then bent? tokens
    else if name ∈ ["reference", "ref"] then picture? tokens
    else none

end Line

/-! ## Figures and deeds -/

/-- The figure of a deed. -/
def Deed.figure? : Deed → Option Figure
  | silent => some .blank
  | horizontal x => some (.straight ⟨x, 0.0⟩)
  | vertical y => some (.straight ⟨0.0, y⟩)
  | straight x y => some (.straight ⟨x, y⟩)
  | curve x y radius flip => some (.bent ⟨x, y⟩ radius flip)
  | picture url x y => some (.picture url ⟨x, y⟩)
  | failure _ => none

/-- The twelve names of the built-in commands and what they stand for. -/
theorem Registry.lookup?_builtin (name : String) :
    builtinRegistry.lookup? name =
      if name ∈ ["horizontal-line", "h", "x"] then some .horizontalLine
      else if name ∈ ["vertical-line", "v", "y"] then some .verticalLine
      else if name ∈ ["line", "l"] then some .line
      else if name ∈ ["arc", "a"] then some .arc
      else if name ∈ ["reference", "ref"] then some .reference
      else none := by
  have first (c : Command) (cs : List Command) :
      (c :: cs).find? (fun c => decide (name ∈ c.names))
        = if name ∈ c.names then some c else cs.find? fun c => decide (name ∈ c.names) := by
    rw [List.find?_cons]
    by_cases h : name ∈ c.names <;> simp [h]
  rw [lookup?_eq_find?]
  simp only [builtinRegistry, first, List.find?_nil]
  rfl

section Commands

/-! Each command reads its tokens as the line does. The cases are the numbers of tokens that the
command takes, fewer, and more, and then which of them can be read. -/

/-- A number parameter takes the tokens that a number can be read from. -/
@[local simp]
theorem Param.coerce_number (name : String) (fallback : Option ArgValue) (token : String) :
    Param.coerce ⟨name, .number, fallback⟩ token =
      match parseNumber token with
      | some value => .ok (.number value)
      | none => .error (.notANumber name token) := rfl

/-- A truth parameter takes the four tokens that spell a truth value. -/
@[local simp]
theorem Param.coerce_truth (name : String) (fallback : Option ArgValue) (token : String) :
    Param.coerce ⟨name, .truth, fallback⟩ token =
      match Line.truth? token with
      | some value => .ok (.truth value)
      | none => .error (.notABoolean name token) := by
  simp only [coerce, Line.truth?]
  split_ifs <;> rfl

attribute [local simp] Command.deed Command.check checkArguments ArgCheck.scan
  ArgCheck.scanOptional ArgCheck.isOk_report ArgCheck.take Param.plain Param.withFallback Deed.figure?

/-- A horizontal line takes one number. -/
theorem figure?_horizontalLine (tokens : List String) :
    (Command.horizontalLine.deed tokens).figure? = Line.horizontal? tokens := by
  match tokens with
  | [] => rfl
  | [x] =>
    cases hx : parseNumber x <;>
      simp [Command.horizontalLine, Line.horizontal?, hx] <;> rfl
  | _ :: _ :: _ => simp [Command.horizontalLine, Line.horizontal?]

/-- A vertical line takes one number. -/
theorem figure?_verticalLine (tokens : List String) :
    (Command.verticalLine.deed tokens).figure? = Line.vertical? tokens := by
  match tokens with
  | [] => rfl
  | [y] =>
    cases hy : parseNumber y <;>
      simp [Command.verticalLine, Line.vertical?, hy] <;> rfl
  | _ :: _ :: _ => simp [Command.verticalLine, Line.vertical?]

/-- A line takes two numbers. -/
theorem figure?_line (tokens : List String) :
    (Command.line.deed tokens).figure? = Line.straight? tokens := by
  match tokens with
  | [] => rfl
  | [x] => simp [Command.line, Line.straight?]
  | [x, y] =>
    cases hx : parseNumber x <;> cases hy : parseNumber y <;>
      simp [Command.line, Line.straight?, hx, hy] <;> rfl
  | _ :: _ :: _ :: _ => simp [Command.line, Line.straight?]

/-- An arc takes three numbers, and may take a truth value after them. -/
theorem figure?_arc (tokens : List String) :
    (Command.arc.deed tokens).figure? = Line.bent? tokens := by
  match tokens with
  | [] => rfl
  | [x] => simp [Command.arc, Line.bent?]
  | [x, y] => simp [Command.arc, Line.bent?]
  -- Without a fourth token the curve is not flipped, as the parameter declares.
  | [x, y, radius] =>
    cases hx : parseNumber x <;> cases hy : parseNumber y <;> cases hr : parseNumber radius <;>
      simp [Command.arc, Line.bent?, hx, hy, hr] <;> rfl
  | [x, y, radius, flip] =>
    cases hx : parseNumber x <;> cases hy : parseNumber y <;> cases hr : parseNumber radius <;>
      cases hf : Line.truth? flip <;>
        simp [Command.arc,  Line.bent?, hx, hy, hr, hf] <;> rfl
  | _ :: _ :: _ :: _ :: _ :: _ => simp [Command.arc, Line.bent?]

/-- A picture takes its address, and may take one or two numbers after it. -/
theorem figure?_reference (tokens : List String) :
    (Command.reference.deed tokens).figure? = Line.picture? tokens := by
  match tokens with
  | [] => rfl
  | [url] => rfl
  | [url, x] =>
    cases hx : parseNumber x <;>
      simp [Command.reference, Line.picture?, hx] <;> rfl
  | [url, x, y] =>
    cases hx : parseNumber x <;> cases hy : parseNumber y <;>
      simp [Command.reference, Line.picture?, hx, hy] <;> rfl
  | _ :: _ :: _ :: _ :: _ => simp [Command.reference, Line.picture?]

end Commands

/-- The built-in registry makes of a line what can be read from it. -/
theorem figure?_deed (line : Line) : (builtinRegistry.deed line).figure? = line.figure? := by
  cases line with
  | silent => rfl
  | call name tokens =>
    -- The names are tried in the same order on both sides.
    simp only [Registry.deed, Registry.lookup?_builtin, Line.figure?, ← figure?_horizontalLine,
      ← figure?_verticalLine, ← figure?_line, ← figure?_arc, ← figure?_reference]
    split_ifs <;> rfl

/-! ## What a figure comes to -/

/-- The lines that fail are those that nothing can be read from. -/
theorem Deed.fails_eq (d : Deed) : d.fails = d.figure?.isNone := by
  cases d <;> rfl

namespace Figure

variable {d : Deed} {f : Figure}

/-- From a plain position the cursor goes where the figure ends. -/
theorem target_eq_of_figure? (h : d.figure? = some f) {start : Cursor} (plain : start.Plain) :
    d.target start = f.target start := by
  cases d with
  | failure => cases h
  -- A line along one axis leaves the other coordinate alone, and its figure adds zero to it.
  | horizontal x =>
    cases h
    exact (plain.moved_x x).symm
  | vertical y =>
    cases h
    exact (plain.moved_y y).symm
  | _ =>
    cases h
    rfl

/-- The hint of a line is that of its figure, told where the figure ends. -/
theorem hint_eq_of_figure? (h : d.figure? = some f) {start : Cursor} (plain : start.Plain)
    (look : String → Option EntryState) : d.hint start look = f.hint (f.target start) look := by
  rw [← target_eq_of_figure? h plain]
  cases d <;> cases h <;> rfl

/-- A line draws the block of its figure, between where the figure begins and where it ends. -/
theorem block_eq_of_figure? (h : d.figure? = some f) {start : Cursor} (plain : start.Plain)
    (view : Viewport) (look : String → Option EntryState) :
    d.ops view start look = f.block view start (f.target start) look := by
  rw [← target_eq_of_figure? h plain]
  cases d with
  | failure => cases h
  -- Of the states that a picture may be in, one has something to draw.
  | picture url x y =>
    cases h
    simp only [Deed.ops, block]
    cases look url with
    | none => rfl
    | some state => cases state <;> rfl
  | _ =>
    cases h
    rfl

/-- From a plain position a figure leads to a plain one. -/
theorem plain_target (f : Figure) {start : Cursor} (plain : start.Plain) :
    (f.target start).Plain := by
  unfold target
  cases f.step? with
  | none => exact plain
  | some step => exact plain.moved step

end Figure

end Linework
