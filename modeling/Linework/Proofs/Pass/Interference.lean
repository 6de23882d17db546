import Linework.Command.Builtin
import Linework.Proofs.Pass.Pictures

/-!
# `Linework.Proofs.Pass.Interference`: what pictures cannot touch

A line that places a picture looks the picture up and does one of three things: it draws the
picture, it asks for it, or it finds that it cannot be had. None of them fails the line and none
moves the cursor. So whatever the cache holds, the lines after it are come to from the same
place, and the path they draw is the same (`pictures_never_interfere`).

The two passes compared here run over two caches that have nothing to do with each other. What
can be told apart is what a picture's own line shows: its hint, and the picture. `Registry.Calls`
says which lines these are: they call a command whose action places pictures, with arguments that
pass the command's check.
-/

set_option autoImplicit false

namespace Linework

/-- What a canvas without pictures receives: all but the pictures. -/
def DrawOp.withoutImages (ops : List DrawOp) : List DrawOp :=
  ops.filter fun op => !op.isImage

/-- Pictures can be left out of each part. -/
theorem DrawOp.withoutImages_append (ops more : List DrawOp) :
    withoutImages (ops ++ more) = withoutImages ops ++ withoutImages more :=
  List.filter_append ops more

/-- The line calls a command for an action, with arguments that pass the command's check. -/
def Registry.Calls (r : Registry) (action : Action) (line : Line) : Prop :=
  ∃ name tokens command, line = .call name tokens ∧ r.lookup? name = some command ∧
    (command.check tokens).isOk = true ∧ command.action = action

/-- A line that places a picture calls a command for it. -/
theorem Registry.calls_of_url? {r : Registry} {line : Line} {url : String}
    (places : (r.deed line).url? = some url) : r.Calls .reference line := by
  obtain ⟨name, tokens, command, call, found, ok, action, -⟩ := (r.url?_deed_iff line url).mp places
  exact ⟨name, tokens, command, call, found, ok, action⟩

/-! ## One line over two caches -/

namespace Deed

/-- A line that places no picture says the same, whatever is known about pictures. -/
theorem hint_eq_of_url?_none {d : Deed} (none : d.url? = none) (cursor : Cursor)
    (look seen : String → Option EntryState) : d.hint cursor look = d.hint cursor seen := by
  cases d with
  | picture url x y => cases none
  | _ => rfl

/-- But for pictures, a line draws the same, whatever is known about pictures. -/
theorem withoutImages_ops (d : Deed) (view : Viewport) (cursor : Cursor)
    (look seen : String → Option EntryState) :
    DrawOp.withoutImages (d.ops view cursor look) = DrawOp.withoutImages (d.ops view cursor seen) := by
  cases d with
  | picture url x y =>
    -- A line that places a picture draws that or nothing.
    have nothing (look : String → Option EntryState) :
        DrawOp.withoutImages ((picture url x y).ops view cursor look) = [] := by
      rw [ops]
      cases look url with
      | none => rfl
      | some state =>
        show DrawOp.withoutImages (Action.placePicture view x y state) = []
        cases state <;> rfl
    rw [nothing look, nothing seen]
  | _ => rfl

end Deed

/-! ## Lines over two caches -/

/-- Two traces of the same lines that only what pictures show can tell apart. -/
structure Trace.SameButPictures (r : Registry) (lines : List Line) (t u : Trace) : Prop where
  verdict : t.verdict = u.verdict
  cursor : t.cursor = u.cursor
  ops : DrawOp.withoutImages t.ops = DrawOp.withoutImages u.ops
  length : t.hints.length = u.hints.length
  hints : ∀ i : Nat, t.hints[i]? = u.hints[i]? ∨
    ∃ line, lines[i]? = some line ∧ r.Calls .reference line

/-- Going through the same lines over two caches comes to the same but for what pictures show. The
caches have nothing in common, so the induction on the lines leaves both of them free. -/
theorem Registry.traceLines_sameButPictures (r : Registry) (view : Viewport) (number : Nat)
    (lines : List Line) (cursor : Cursor) (c d : Cache) :
    Trace.SameButPictures r lines (r.traceLines view number lines cursor c)
      (r.traceLines view number lines cursor d) := by
  induction lines generalizing number cursor c d with
  | nil => exact ⟨rfl, rfl, rfl, rfl, fun _ => .inl rfl⟩
  | cons line rest ih =>
    have first : (r.deed line).hint cursor c.get? = (r.deed line).hint cursor d.get? ∨
        r.Calls .reference line := by
      cases places : (r.deed line).url? with
      | none => exact .inl (Deed.hint_eq_of_url?_none places cursor _ _)
      | some url => exact .inr (calls_of_url? places)
    -- The hint at index zero is that of this line, and a line that places a picture may show
    -- another one.
    have here : some ((r.deed line).hint cursor c.get?) = some ((r.deed line).hint cursor d.get?) ∨
        ∃ called, (line :: rest)[0]? = some called ∧ r.Calls .reference called := by
      rcases first with same | calls
      · exact .inl (congrArg some same)
      · exact .inr ⟨line, rfl, calls⟩
    rw [traceLines_cons, traceLines_cons]
    by_cases hf : (r.deed line).fails = true
    · rw [if_pos hf, if_pos hf]
      refine ⟨rfl, rfl, rfl, rfl, ?_⟩
      intro i
      cases i with
      | succ i => exact .inl rfl
      | zero => exact here
    · rw [if_neg hf, if_neg hf]
      -- Neither where the line leaves the cursor nor whether it fails is up to a cache.
      have others := ih (number + 1) ((r.deed line).target cursor)
        (c.requestAll (r.deed line).url?.toList) (d.requestAll (r.deed line).url?.toList)
      refine ⟨others.verdict, others.cursor, ?_, ?_, ?_⟩
      · rw [Trace.ops_after, Trace.ops_after, DrawOp.withoutImages_append,
          DrawOp.withoutImages_append, others.ops]
        exact congrArg (· ++ _) ((r.deed line).withoutImages_ops view cursor _ _)
      · simp [Trace.hints_after, others.length]
      · intro i
        cases i with
        | succ i => exact others.hints i
        | zero => exact here

/-! ## A pass over two caches -/

/-- Whatever two caches hold, passes over them end alike: with the same verdict, the cursor in
the same place, as many lines and as many hints. But for pictures they draw the same, and every
hint is the same unless its line places a picture. -/
theorem pictures_never_interfere (r : Registry) (view : Viewport) (script : String)
    (generation : Nat) (c d : Cache) :
    let p := runPass r view script c generation
    let q := runPass r view script d generation
    p.report.verdict = q.report.verdict ∧ p.report.cursor = q.report.cursor ∧
    p.report.lines = q.report.lines ∧
    DrawOp.withoutImages p.ops = DrawOp.withoutImages q.ops ∧
    p.report.hints.length = q.report.hints.length ∧
    ∀ i : Nat, p.report.hints[i]? = q.report.hints[i]? ∨
      ∃ line, (readScript script)[i]? = some line ∧ r.Calls .reference line := by
  intro p q
  have same := r.traceLines_sameButPictures view 1 (readScript script) .origin c d
  refine ⟨same.verdict, same.cursor, rfl, ?_, same.length, same.hints⟩
  -- The operations around those of the lines are the same ones.
  show DrawOp.withoutImages ([.clear, .moveTo view.panX view.panY] ++ (_ ++ [.stroke]))
    = DrawOp.withoutImages ([.clear, .moveTo view.panX view.panY] ++ (_ ++ [.stroke]))
  simp only [DrawOp.withoutImages_append, same.ops]

/-- A picture on its way, one that was downloaded and one that cannot be had: the line after
them goes the same way. -/
example :
    let known : Cache := { Cache.empty with
      entries := [⟨"b.png", .downloaded ⟨"b.png", 4, 3⟩ true⟩, ⟨"c.png", .failed "gone"⟩] }
    (["a.png", "b.png", "c.png"].map fun url =>
      (runPass builtinRegistry .initial ("ref " ++ url ++ "\nh 5\nbogus") known 1).report.hints)
      = [["downloading…", "5×0", "unknown command 'bogus'"],
        ["downloaded, 4×3", "5×0", "unknown command 'bogus'"],
        ["failed to download", "5×0", "unknown command 'bogus'"]] := by
  decide +kernel

end Linework
