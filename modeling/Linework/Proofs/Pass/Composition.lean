import Linework.Command.Builtin
import Linework.Proofs.Pass.Pictures
import Linework.Proofs.Text.Cutting

/-!
# `Linework.Proofs.Pass.Composition`: a script after a script

Joining two scripts by a line break joins their lines (`readScript_append`). Going through the
joined lines is going through the first ones and, unless that halts, through the others from
where it leaves the cursor and the cache (`Registry.traceLines_append`). Two things could still
tell the second part where it stands:

* the numbers of its lines, which show in the verdict and nowhere else
  (`Registry.traceLines_shift`), and
* the cache, which has been asked for pictures by then. But what is asked for has no entry yet,
  and only entries are read (`Registry.traceLines_requestAll`).

So all that passes from the first script to the second is the cursor (`pass_composes`).
-/

set_option autoImplicit false

namespace Linework

/-! ## The lines of a joined script -/

/-- A script made of two with a line break between them has the lines of the one and then those of
the other. -/
theorem readScript_append (a b : String) :
    readScript (a ++ "\n" ++ b) = readScript a ++ readScript b := by
  rw [readScript, Text.lines_append, List.map_append, readScript, readScript]

/-! ## Traces one after another -/

/-- The verdict with the lines numbered from further on. -/
def Verdict.shift (by' : Nat) : Verdict → Verdict
  | completed => completed
  | halted line => halted (line + by')

namespace Trace

/-- A trace, and then what comes from where it leaves the cursor and the cache, unless it
halted. -/
def andThen (t : Trace) (next : Cursor → Cache → Trace) : Trace :=
  match t.verdict with
  | .halted _ => t
  | .completed =>
    let rest := next t.cursor t.cache
    { rest with hints := t.hints ++ rest.hints, ops := t.ops ++ rest.ops }

/-- After a trace that completed comes what goes on from its cursor and its cache. -/
theorem andThen_of_completed {t : Trace} (h : t.verdict = .completed) (next : Cursor → Cache → Trace) :
    t.andThen next =
      { next t.cursor t.cache with
        hints := t.hints ++ (next t.cursor t.cache).hints
        ops := t.ops ++ (next t.cursor t.cache).ops } := by
  rw [andThen, h]

/-- After a trace that halted nothing comes. -/
theorem andThen_of_halted {t : Trace} {line : Nat} (h : t.verdict = .halted line)
    (next : Cursor → Cache → Trace) : t.andThen next = t := by
  rw [andThen, h]

/-- What comes after a line and the lines behind it comes after these lines. -/
theorem andThen_after (effect : Effect) (t : Trace) (next : Cursor → Cache → Trace) :
    (after effect t).andThen next = after effect (t.andThen next) := by
  cases h : t.verdict with
  | halted line =>
    have halted : (after effect t).verdict = .halted line := h
    rw [andThen_of_halted h, andThen_of_halted halted]
  | completed =>
    have completed : (after effect t).verdict = .completed := h
    rw [andThen_of_completed h, andThen_of_completed completed]
    simp [after]

end Trace

namespace Registry

variable (r : Registry) (view : Viewport)

/-- Lines after lines. The second ones begin where the first ones end, if they get to it. -/
theorem traceLines_append (number : Nat) (lines more : List Line) (cursor : Cursor) (cache : Cache) :
    r.traceLines view number (lines ++ more) cursor cache
      = (r.traceLines view number lines cursor cache).andThen
          (r.traceLines view (number + lines.length) more) := by
  -- The induction is on the first lines. The second ones are come to when these are used up.
  induction lines generalizing number cursor cache with
  | nil => simp [traceLines, Trace.done, Trace.andThen]
  | cons line rest ih =>
    rw [List.cons_append, traceLines_cons, traceLines_cons]
    by_cases hf : (r.deed line).fails = true
    · -- A line that fails is the last one come to, whatever stands after it.
      rw [if_pos hf, if_pos hf]
      rfl
    · rw [if_neg hf, if_neg hf, ih, Trace.andThen_after, List.length_cons,
        Nat.add_assoc, Nat.add_comm 1]

/-- The numbers of the lines show in the verdict only. -/
theorem traceLines_shift (number by' : Nat) (lines : List Line) (cursor : Cursor) (cache : Cache) :
    r.traceLines view (number + by') lines cursor cache
      = { r.traceLines view number lines cursor cache with
          verdict := (r.traceLines view number lines cursor cache).verdict.shift by' } := by
  induction lines generalizing number cursor cache with
  | nil => rfl
  | cons line rest ih =>
    rw [traceLines_cons, traceLines_cons]
    by_cases hf : (r.deed line).fails = true
    · rw [if_pos hf, if_pos hf]
      rfl
    · rw [if_neg hf, if_neg hf, Nat.add_right_comm, ih]
      rfl

/-- What was asked for before does not show. -/
theorem traceLines_requestAll (number : Nat) (lines : List Line) (cursor : Cursor) (cache : Cache)
    (urls : List String) :
    r.traceLines view number lines cursor (cache.requestAll urls)
      = { r.traceLines view number lines cursor cache with
          cache := (cache.requestAll urls).requestAll (r.wanted lines) } := by
  -- Lookups do not see requests, so nothing can be told apart but the cache itself.
  have alike : (cache.requestAll urls).Alike id cache :=
    .of_get? id fun key => cache.get?_requestAll urls key
  have same := r.traceLines_alike view view number lines cursor alike
  have drawn := r.ops_traceLines_congr view number lines cursor alike
  have hints := same.hints
  rw [List.map_id, List.map_id] at hints
  have asked := r.cache_traceLines view number lines cursor (cache.requestAll urls)
  simp only [← hints, ← same.verdict, ← same.cursor, ← drawn]
  rw [← asked]

end Registry

/-! ## Passes one after another -/

/-- The pass `whole` is the pass `first`, which completed, and then `rest`, whose lines are
numbered from one. -/
structure Continues (first whole : Pass) (rest : Trace) : Prop where
  hints : whole.report.hints = first.report.hints ++ rest.hints
  /-- The path of the first script becomes visible at the end of the second. -/
  ops : first.ops = first.ops.dropLast ++ [.stroke] ∧
    whole.ops = first.ops.dropLast ++ (rest.ops ++ [.stroke])
  cursor : whole.report.cursor = rest.cursor
  verdict : whole.report.verdict = rest.verdict.shift first.report.lines

/-- A pass without its last stroke is its beginning and what its lines draw. -/
theorem dropLast_ops_runPass (r : Registry) (view : Viewport) (script : String) (cache : Cache)
    (generation : Nat) :
    (runPass r view script cache generation).ops.dropLast
      = .clear :: .moveTo view.panX view.panY ::
          (r.traceLines view 1 (readScript script) .origin cache).ops := by
  rw [runPass, ← List.cons_append, ← List.cons_append, List.dropLast_concat]

/-- A pass over two scripts is one trace after the other, framed once. -/
theorem runPass_append (r : Registry) (view : Viewport) (a b : String) (cache : Cache)
    (generation : Nat) :
    let trace := (r.traceLines view 1 (readScript a) .origin cache).andThen
      (r.traceLines view (1 + (readScript a).length) (readScript b))
    runPass r view (a ++ "\n" ++ b) cache generation =
      { report := ⟨trace.hints, trace.verdict, trace.cursor,
          (readScript a).length + (readScript b).length, generation⟩
        ops := .clear :: .moveTo view.panX view.panY :: (trace.ops ++ [.stroke])
        cache := trace.cache } := by
  rw [runPass, readScript_append, r.traceLines_append, List.length_append]

/-- A pass over `a` that completes is continued, over `b`, by what `b` makes of its cursor. -/
theorem continues_runPass {r : Registry} {view : Viewport} {a : String} {cache : Cache}
    {generation : Nat}
    (completed : (runPass r view a cache generation).report.verdict = .completed) (b : String) :
    Continues (runPass r view a cache generation)
      (runPass r view (a ++ "\n" ++ b) cache generation)
      (r.traceLines view 1 (readScript b) (runPass r view a cache generation).report.cursor cache) := by
  have finished : (r.traceLines view 1 (readScript a) .origin cache).verdict = .completed := completed
  have left := dropLast_ops_runPass r view a cache generation
  -- What `b` makes of the cursor is told with its own line numbers and over the first cache.
  rw [runPass_append, Trace.andThen_of_completed finished, r.traceLines_shift, r.cache_traceLines,
    r.traceLines_requestAll]
  refine ⟨rfl, ⟨?_, ?_⟩, rfl, rfl⟩
  · rw [left]
    rfl
  · rw [left]
    simp [runPass]

/-- Where the pass over `a` halts, the pass over `a` and then `b` is the same pass, but for the
number of lines. Where it completes, the other pass goes on from it, and what is added depends
on `b` and on the cursor: it is the same after two scripts that leave the cursor in the
same place. -/
theorem pass_composes (r : Registry) (view : Viewport) (cache : Cache) (generation : Nat)
    (a b : String) :
    let first := runPass r view a cache generation
    let whole := runPass r view (a ++ "\n" ++ b) cache generation
    whole.report.lines = first.report.lines + (Text.lines b).length ∧
    (∀ n, first.report.verdict = .halted n →
      whole.report = { first.report with lines := whole.report.lines } ∧
        whole.ops = first.ops ∧ whole.cache = first.cache) ∧
    (first.report.verdict = .completed →
      Continues first whole (r.traceLines view 1 (readScript b) first.report.cursor cache)) ∧
    ∀ a', let first' := runPass r view a' cache generation
      let whole' := runPass r view (a' ++ "\n" ++ b) cache generation
      first.report.verdict = .completed → first'.report.verdict = .completed →
      first.report.cursor = first'.report.cursor →
      ∃ rest, Continues first whole rest ∧ Continues first' whole' rest := by
  intro first whole
  refine ⟨?_, fun n halted => ?_, fun completed => continues_runPass completed b, ?_⟩
  · show (readScript (a ++ "\n" ++ b)).length = (readScript a).length + _
    rw [readScript_append, List.length_append, readScript, readScript, List.length_map,
      List.length_map]
  -- A pass that halts within the first script comes to no line of the second.
  · have stopped : (r.traceLines view 1 (readScript a) .origin cache).verdict = .halted n := halted
    have unchanged : whole = _ := runPass_append r view a b cache generation
    rw [Trace.andThen_of_halted stopped] at unchanged
    rw [unchanged]
    exact ⟨rfl, rfl, rfl⟩
  · intro a' first' whole' completed completed' same
    refine ⟨_, continues_runPass completed b, ?_⟩
    show Continues first' whole' (r.traceLines view 1 (readScript b) first.report.cursor cache)
    rw [same]
    exact continues_runPass completed' b

/-- Two lines and one line lead to the same place, and what follows halts at its first line. -/
theorem pass_composes_after_two_prefixes :
    let run := fun script => runPass builtinRegistry .initial script .empty 1
    (run "h 1\nh 2").report.verdict = .completed ∧ (run "h 3").report.verdict = .completed ∧
    (run "h 1\nh 2").report.cursor = (run "h 3").report.cursor ∧
    (run "h 1\nh 2\nbogus").report.verdict = .halted 3 ∧
    (run "h 3\nbogus").report.verdict = .halted 2 ∧
    ∃ rest, Continues (run "h 1\nh 2") (run "h 1\nh 2\nbogus") rest ∧
      Continues (run "h 3") (run "h 3\nbogus") rest := by
  intro run
  have completed : (run "h 1\nh 2").report.verdict = .completed := by decide +kernel
  have completed' : (run "h 3").report.verdict = .completed := by decide +kernel
  have x : (run "h 1\nh 2").report.cursor.x = (run "h 3").report.cursor.x := by decide +kernel
  have y : (run "h 1\nh 2").report.cursor.y = (run "h 3").report.cursor.y := by decide +kernel
  have same : (run "h 1\nh 2").report.cursor = (run "h 3").report.cursor :=
    congrArg₂ Cursor.mk x y
  have composes := pass_composes builtinRegistry .initial .empty 1 "h 1\nh 2" "bogus"
  exact ⟨completed, completed', same, by decide +kernel, by decide +kernel,
    composes.2.2.2 "h 3" completed completed' same⟩

end Linework
