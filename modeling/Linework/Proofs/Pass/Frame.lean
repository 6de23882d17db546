import Linework.Proofs.Pass.Pictures

/-!
# `Linework.Proofs.Pass.Frame`: what is on the canvas after a pass

A canvas keeps everything it ever received, and what is on it is the part from the
last `clear` on. A pass begins with a `clear`, and no line wipes the canvas again
(`Registry.isClear_traceLines`). So what is on the canvas after a pass is what the pass
drew, whatever was there before: `currentFrame_append_runPass`.
-/

set_option autoImplicit false

namespace Linework

namespace Recording

/-- Where nothing wipes the canvas there is no frame to begin. -/
theorem sinceClear?_eq_none {ops : List DrawOp} (h : ∀ op ∈ ops, op.isClear = false) :
    sinceClear? ops = none := by
  induction ops with
  | nil => rfl
  | cons op rest ih =>
    rw [sinceClear?, ih fun other hmem => h other (List.mem_cons_of_mem _ hmem),
      h op List.mem_cons_self]
    rfl

/-- A `clear` that is the last one begins the frame. -/
theorem sinceClear?_clear_cons {ops : List DrawOp} (h : ∀ op ∈ ops, op.isClear = false) :
    sinceClear? (.clear :: ops) = some (.clear :: ops) := by
  rw [sinceClear?, sinceClear?_eq_none h]
  rfl

/-- What came before a frame does not show. -/
theorem sinceClear?_append {ops frame : List DrawOp} (h : sinceClear? ops = some frame)
    (earlier : List DrawOp) : sinceClear? (earlier ++ ops) = some frame := by
  -- The induction is on what came before: at each operation the frame has been found already.
  induction earlier with
  | nil => exact h
  | cons op rest ih => rw [List.cons_append, sinceClear?, ih]

end Recording

/-- No deed wipes the canvas. -/
theorem Deed.isClear_ops (d : Deed) (view : Viewport) (cursor : Cursor)
    (look : String → Option EntryState) : ∀ op ∈ d.ops view cursor look, op.isClear = false := by
  have nothing : ∀ op ∈ ([] : List DrawOp), op.isClear = false :=
    fun _ h => absurd h List.not_mem_nil
  cases d with
  | silent => exact nothing
  | failure hint => exact nothing
  | picture url x y =>
    rw [ops]
    cases look url with
    | none => exact nothing
    | some state =>
      show ∀ op ∈ Action.placePicture view x y state, op.isClear = false
      rw [Action.placePicture]
      -- A picture is drawn or not, and drawing one wipes nothing.
      cases state.picture? with
      | none => exact nothing
      | some picture => exact List.forall_mem_singleton.mpr rfl
  | curve x y radius flip =>
    exact List.forall_mem_cons.mpr ⟨rfl, List.forall_mem_singleton.mpr rfl⟩
  | _ => exact List.forall_mem_singleton.mpr rfl

/-- Going through lines never wipes the canvas. -/
theorem Registry.isClear_traceLines (r : Registry) (view : Viewport) (number : Nat)
    (lines : List Line) (cursor : Cursor) (cache : Cache) :
    ∀ op ∈ (r.traceLines view number lines cursor cache).ops, op.isClear = false := by
  induction lines generalizing number cursor cache with
  | nil => exact fun _ h => absurd h List.not_mem_nil
  | cons line rest ih =>
    rw [traceLines_cons]
    by_cases hf : (r.deed line).fails = true
    · rw [if_pos hf]
      exact fun _ h => absurd h List.not_mem_nil
    · rw [if_neg hf, Trace.ops_after]
      exact List.forall_mem_append.mpr ⟨(r.deed line).isClear_ops view cursor _, ih _ _ _⟩

/-- After a pass the canvas shows what the pass drew. -/
theorem currentFrame_append_runPass (recording : Recording) (r : Registry) (view : Viewport)
    (script : String) (cache : Cache) (generation : Nat) :
    (recording.append (runPass r view script cache generation).ops).currentFrame
      = (runPass r view script cache generation).ops := by
  -- The pass begins with its only `clear`.
  have noClear := r.isClear_traceLines view 1 (readScript script) .origin cache
  have frame : Recording.sinceClear? (runPass r view script cache generation).ops
      = some (runPass r view script cache generation).ops := by
    refine Recording.sinceClear?_clear_cons (List.forall_mem_cons.mpr ⟨rfl, ?_⟩)
    exact List.forall_mem_append.mpr ⟨noClear, List.forall_mem_singleton.mpr rfl⟩
  rw [Recording.currentFrame, Recording.append, Recording.sinceClear?_append frame, Option.getD_some]

end Linework
