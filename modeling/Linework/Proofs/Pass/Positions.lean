import Linework.Command.Builtin
import Linework.Proofs.Number.ReadingBack
import Linework.Proofs.Pass.Deed

/-!
# `Linework.Proofs.Pass.Positions`: reading positions off hints

The hint of a path line is the position that the line leaves the cursor at, as two numbers with a
mark between them. The mark stands in no number, so the hint can be cut there, and each number is
read back as in `Linework.Proofs.Number.ReadingBack`. Hints of different positions are different,
up to the sign of zero (`hint_eq_iff`).
-/

set_option autoImplicit false

namespace Linework

open Binary64

/-! ## Hints of path lines -/

/-- The hint of a position is cut at the mark into its two numbers, for the mark stands in
neither. -/
theorem pieces_cursor_hint (c : Cursor) :
    Text.pieces '×' c.hint = [formatNumber c.x, formatNumber c.y] := by
  have plain (x : Float) : '×' ∉ (formatNumber x).toList := fun among =>
    absurd (formatNumber_ascii x '×' among).2 (by decide)
  have joined : c.hint = formatNumber c.x ++ String.singleton '×' ++ formatNumber c.y := rfl
  rw [joined, Text.pieces_append, Text.pieces_of_not_mem (plain c.x),
    Text.pieces_of_not_mem (plain c.y)]
  rfl

/-- The numbers on both sides of the mark in a hint are those of the cursor. -/
theorem map_parseNumber_pieces_hint (c : Cursor) :
    (Text.pieces '×' c.hint).map parseNumber = [readBack c.x, readBack c.y] := by
  rw [pieces_cursor_hint]
  simp only [List.map_cons, List.map_nil, parseNumber_formatNumber]

/-- Lines of a path that succeed show where they leave the cursor. -/
theorem Action.hint_deed {a : Action} (path : a ≠ .reference) {args : Arguments}
    (succeeds : (a.deed args).fails = false) (cursor : Cursor) (look : String → Option EntryState) :
    (a.deed args).hint cursor look = ((a.deed args).target cursor).hint := by
  have number {name : String} {next : Float → Deed}
      (shown : ∀ value, (next value).fails = false →
        (next value).hint cursor look = ((next value).target cursor).hint) :
      (withNumber args name next).fails = false →
        (withNumber args name next).hint cursor look
          = ((withNumber args name next).target cursor).hint :=
    withNumber_of (P := fun d => d.fails = false → d.hint cursor look = (d.target cursor).hint)
      (fun none => by cases none) shown
  cases a with
  | horizontalLine => exact number (fun _ _ => rfl) succeeds
  | verticalLine => exact number (fun _ _ => rfl) succeeds
  | line => exact number (fun _ => number fun _ _ => rfl) succeeds
  | arc => exact number (fun _ => number fun _ => number fun _ _ => rfl) succeeds
  | reference => exact absurd rfl path

/-- Two positions have the same hint exactly if the same is read back from their coordinates. -/
theorem hint_eq_iff (c c' : Cursor) :
    c.hint = c'.hint ↔ readBack c.x = readBack c'.x ∧ readBack c.y = readBack c'.y := by
  constructor
  · intro same
    have read := map_parseNumber_pieces_hint c
    rw [same, map_parseNumber_pieces_hint] at read
    simp only [List.cons.injEq, and_true] at read
    exact ⟨read.1.symm, read.2.symm⟩
  · intro ⟨sameX, sameY⟩
    rw [Cursor.hint, Cursor.hint, formatNumber_eq_elim c.x, formatNumber_eq_elim c.y, sameX, sameY,
      ← formatNumber_eq_elim, ← formatNumber_eq_elim]

/-- A number is read back from what is printed of it, bit for bit except for the sign of zero, and
nothing is read from what is printed of what is no number. So two cursors have the same hint only if
they differ by no more than that, and the hint of a line of a path that succeeds gives back where
the line leaves the cursor. -/
theorem numbers_in_hints_read_back :
    (∀ x : Float, parseNumber (formatNumber x)
      = if x.isNaN then none else if x = negativeZero then some 0.0 else some x) ∧
    (∀ c c' : Cursor,
      c.hint = c'.hint ↔ readBack c.x = readBack c'.x ∧ readBack c.y = readBack c'.y) ∧
    ∀ (r : Registry) (view : Viewport) (cursor : Cursor) (cache : Cache) (name : String)
      (tokens : List String) (command : Command) (effect : Effect),
      r.lookup? name = some command → command.action ≠ .reference →
      r.runLine view cursor cache (.call name tokens) = .ok effect →
        (Text.pieces '×' effect.hint).map parseNumber
          = [readBack effect.cursor.x, readBack effect.cursor.y] := by
  refine ⟨parseNumber_formatNumber, hint_eq_iff, ?_⟩
  intro r view cursor cache name tokens command effect found path ran
  have deed : r.deed (.call name tokens) = command.deed tokens := by
    simp only [Registry.deed, found]
  rw [r.runLine_eq_enact, deed, Deed.enact] at ran
  split_ifs at ran with fails
  have succeeds : (command.deed tokens).fails = false := Bool.not_eq_true _ ▸ fails
  -- A check that found problems would have been a failure.
  have checked : command.deed tokens = command.action.deed (command.check tokens).values := by
    rw [Command.deed] at succeeds ⊢
    split_ifs at succeeds ⊢ with ok
    · rfl
    · cases succeeds
  -- The effect is the deed's, so its hint is that of its cursor.
  cases ran
  rw [checked] at succeeds ⊢
  show (Text.pieces '×' (Deed.hint _ _ _)).map parseNumber = _
  rw [Action.hint_deed path succeeds, map_parseNumber_pieces_hint]

/-- A line to a place with a coordinate that is printed in digits alone and one that is not. -/
theorem hint_of_far_line :
    ∃ effect : Effect,
      builtinRegistry.runLine .initial .origin .empty (.call "l" ["0.1", "-2e21"]) = .ok effect ∧
        (Text.pieces '×' effect.hint).map parseNumber
          = [readBack effect.cursor.x, readBack effect.cursor.y] := by
  have succeeds : (builtinRegistry.runLine .initial .origin .empty
      (.call "l" ["0.1", "-2e21"])).isOk = true := by decide +kernel
  cases ran : builtinRegistry.runLine .initial .origin .empty (.call "l" ["0.1", "-2e21"]) with
  | error hint =>
    rw [ran] at succeeds
    cases succeeds
  | ok effect =>
    exact ⟨effect, rfl, numbers_in_hints_read_back.2.2 builtinRegistry .initial .origin .empty "l"
      ["0.1", "-2e21"] .line effect rfl (by decide) ran⟩

end Linework
